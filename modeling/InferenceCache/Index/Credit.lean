import InferenceCache.Index.Ingest
import InferenceCache.Index.Lookup

namespace InferenceCache

variable {F : Type}

namespace LookupResult

def nothing : LookupResult F :=
  ⟨[], .none, ∅⟩

-- Keeps some of the replicas, and of the entries to be credited those that belong to them.
def retainReplicas (result : LookupResult F) (keep : GoString → Bool) : LookupResult F :=
  if result.scores.length = 0 then result else { result with
    scores        := result.scores.filter fun sc => keep sc.replicaID
    hitsByReplica := result.hitsByReplica.filter fun id _ => keep id }

end LookupResult

-- Counts one use for each occurrence of an entry among the hits.
def Index.creditHits (i : Index F) (o : RangeOrder GoString) (hits : Hits) : Index F :=
  (o.range hits).foldl (fun i x => x.2.foldl (fun i key => i.creditHit key x.1) i) i

end InferenceCache
