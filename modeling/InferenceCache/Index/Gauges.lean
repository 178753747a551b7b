import InferenceCache.Index.Snapshot

namespace InferenceCache

-- What the metrics sink shows for each model, and the models of which the index knows that it does.
structure Gauges where
  published      : GoMap GoString Int
  reportedModels : GoMap GoString Unit

namespace Gauges

def setIndexEntries (g : Gauges) (model : GoString) (n : Int) : Gauges :=
  { g with published := g.published.insert model n }

-- A model without entries is set to 0 once, so that its gauge does not go stale.
def drain (counts : GoMap GoString Int) (g : Gauges) (model : GoString) : Gauges :=
  match counts.lookup model with
  | some _ => g
  | none   => { g.setIndexEntries model 0 with reportedModels := g.reportedModels.erase model }

def push (g : Gauges) (x : GoString × Int) : Gauges :=
  { g.setIndexEntries x.1 x.2 with reportedModels := g.reportedModels.insert x.1 () }

-- The part of `reportEntries` that comes after the counts are read, with the orders of its two loops.
def report (g : Gauges) (counts : GoMap GoString Int) (o o' : RangeOrder GoString) : Gauges :=
  let g := ((o.range g.reportedModels).map Prod.fst).foldl (drain counts) g
  (o'.range counts).foldl push g

end Gauges

def Call.reports {F : Type} : Call F → Bool
  | ingest _ | applyEvent _ | evictExpired => true
  | creditHit _ _                          => false

-- How far a caller is. The counts are read under both locks, but all that follows is done under
-- `reportMu` alone, so they may be outdated by the time they are published.
inductive Caller
  | returned
  | mutated
  | locked
  | counted (counts : GoMap GoString Int)
  deriving DecidableEq

inductive Caller.Action (F : Type)
  | mutate (c : Call F) (env : Env)
  | lock
  | count (env : Env)
  | publish (o o' : RangeOrder GoString)

-- An index with a metrics sink, under any number of concurrent callers.
structure Reporting (F ι : Type) where
  index    : Index F
  gauges   : Gauges
  reportMu : Option ι
  callers  : ι → Caller

namespace Reporting

variable {F ι : Type} [GoFloat F] [DecidableEq ι] (cfg : Config F)

def start : Reporting F ι where
  index    := .new
  gauges   := ⟨∅, ∅⟩
  reportMu := none
  callers  := fun _ => .returned

def step (s : Reporting F ι) (x : ι × Caller.Action F) : Option (Reporting F ι) :=
  match x.2, s.callers x.1 with
  | .mutate c env, .returned => some { s with
      index   := s.index.step cfg (c, env)
      callers := Function.update s.callers x.1 (if c.reports then .mutated else .returned) }
  | .lock, .mutated =>
    match s.reportMu with
    | some _ => none
    | none   => some { s with
        reportMu := some x.1
        callers  := Function.update s.callers x.1 .locked }
  | .count env, .locked => some { s with
      callers := Function.update s.callers x.1 (.counted (s.index.entryCountsByModel cfg env)) }
  | .publish o o', .counted counts => some { s with
      gauges   := s.gauges.report counts o o'
      reportMu := none
      callers  := Function.update s.callers x.1 .returned }
  | _, _ => none

def run (l : List (ι × Caller.Action F)) : Option (Reporting F ι) :=
  l.foldlM (step cfg) start

end Reporting

end InferenceCache
