import InferenceCache.Server.Policy
import InferenceCache.Lib.Json

namespace InferenceCache.Server

open Json (member omitEmpty)

-- How a float is written in JSON and read from text, with 32 bits. What is written is the shortest text
-- that is read as the same number. What is too large is not read.
structure FloatText (F : Type) [FloatFormat F] where
  format       : F → GoString
  parse        : GoString → Option F
  parse_format : ∀ x, FloatFormat.isFinite x → parse (format x) = some x

structure PolicySnapshot (F : Type) where
  version  : Int := 0
  policies : List (ResolvedPolicy F) := []
  tenants  : List ResolvedTenant := []

def policyPropagationVersion : Int := 7

def policyMinimumAcceptedVersion : Int := 3

def toInt32? (json : Json) : Option Int32 :=
  (json.toInt? 32).map Int32.ofInt

namespace ResolvedLookupStrategy

def fields : List (Json.Field ResolvedLookupStrategy) :=
  [.pointer (utf8 "enableChainMatching") false (fun _ => Json.toBool?) enableChainMatching
      fun v s => { s with enableChainMatching := v },
    .pointer (utf8 "requireChain") false (fun _ => Json.toBool?) requireChain
      fun v s => { s with requireChain := v },
    .pointer (utf8 "enableTenantHot") false (fun _ => Json.toBool?) enableTenantHot
      fun v s => { s with enableTenantHot := v }]

def encode (s : ResolvedLookupStrategy) : Json :=
  .obj <|
    member (utf8 "enableChainMatching") (s.enableChainMatching.map .bool) ++
    (member (utf8 "requireChain") (s.requireChain.map .bool) ++
    (member (utf8 "enableTenantHot") (s.enableTenantHot.map .bool) ++ []))

end ResolvedLookupStrategy

namespace ResolvedPolicy

variable {F : Type} [FloatFormat F] (text : FloatText F)

def parseFloat : Json → Option F
  | .num literal => text.parse literal
  | _            => none

def fields : List (Json.Field (ResolvedPolicy F)) :=
  [.value (utf8 "namespace") Json.toStr? fun v p => { p with forNamespace := v },
    .value (utf8 "evictionTTL") (Json.toInt? 64) fun v p => { p with evictionTTL := v },
    .value (utf8 "minimumPrefixTokens") toInt32? fun v p => { p with minimumPrefixTokens := v },
    .value (utf8 "minimumMatchedTokens") toInt32? fun v p => { p with minimumMatchedTokens := v },
    .pointer (utf8 "routingFloorScore") 0 (fun _ => parseFloat text) routingFloorScore
      fun v p => { p with routingFloorScore := v },
    .value (utf8 "lookupTimeoutMs") toInt32? fun v p => { p with lookupTimeoutMs := v },
    .pointer (utf8 "affinityRouting") false (fun _ => Json.toBool?) affinityRouting
      fun v p => { p with affinityRouting := v },
    .value (utf8 "eviction") Json.toStr? fun v p => { p with eviction := v },
    .pointer (utf8 "strategy") {} (Json.toRecord? ResolvedLookupStrategy.fields) strategy
      fun v p => { p with strategy := v }]

-- There is no text for a number that is not finite.
def encode (p : ResolvedPolicy F) : Option Json :=
  if p.routingFloorScore.all FloatFormat.isFinite then
    some <| .obj <|
      member (utf8 "namespace") (some (.str p.forNamespace)) ++
      (member (utf8 "evictionTTL") (omitEmpty 0 .int p.evictionTTL) ++
      (member (utf8 "minimumPrefixTokens") (omitEmpty 0 (.int ·.toInt) p.minimumPrefixTokens) ++
      (member (utf8 "minimumMatchedTokens") (omitEmpty 0 (.int ·.toInt) p.minimumMatchedTokens) ++
      (member (utf8 "routingFloorScore") (p.routingFloorScore.map (.num <| text.format ·)) ++
      (member (utf8 "lookupTimeoutMs") (omitEmpty 0 (.int ·.toInt) p.lookupTimeoutMs) ++
      (member (utf8 "affinityRouting") (p.affinityRouting.map .bool) ++
      (member (utf8 "eviction") (omitEmpty [] .str p.eviction) ++
      (member (utf8 "strategy") (p.strategy.map ResolvedLookupStrategy.encode) ++ []))))))))
  else none

def decode : Json → Option (ResolvedPolicy F) :=
  Json.toRecord? (fields text) { forNamespace := [] }

end ResolvedPolicy

namespace ResolvedTenant

def fields : List (Json.Field ResolvedTenant) :=
  [.value (utf8 "tenantID") Json.toStr? fun v t => { t with tenantID := v },
    .value (utf8 "maxIndexEntries") (Json.toInt? 64) fun v t => { t with maxIndexEntries := v },
    .value (utf8 "isolationMode") Json.toStr? fun v t => { t with isolationMode := v }]

def encode (t : ResolvedTenant) : Json :=
  .obj <|
    member (utf8 "tenantID") (some (.str t.tenantID)) ++
    (member (utf8 "maxIndexEntries") (some (.int t.maxIndexEntries)) ++
    (member (utf8 "isolationMode") (omitEmpty [] .str t.isolationMode) ++ []))

def decode : Json → Option ResolvedTenant :=
  Json.toRecord? fields { tenantID := [], maxIndexEntries := 0 }

end ResolvedTenant

namespace PolicySnapshot

variable {F : Type} [FloatFormat F] (text : FloatText F)

def fields : List (Json.Field (PolicySnapshot F)) :=
  [.value (utf8 "version") (Json.toInt? 64) fun v s => { s with version := v },
    .value (utf8 "policies") (Json.toList? (ResolvedPolicy.decode text)) fun v s => { s with policies := v },
    .value (utf8 "tenants") (Json.toList? ResolvedTenant.decode) fun v s => { s with tenants := v }]

-- `json.Marshal`.
def encode (s : PolicySnapshot F) : Option Json := do
  let policies ← s.policies.mapM (ResolvedPolicy.encode text)
  let tenants := if s.tenants.isEmpty then none else some (.arr (s.tenants.map ResolvedTenant.encode))
  some <| .obj <|
    member (utf8 "version") (some (.int s.version)) ++
    (member (utf8 "policies") (some (.arr policies)) ++
    (member (utf8 "tenants") tenants ++ []))

def decode : Json → Option (PolicySnapshot F) :=
  Json.toRecord? (fields text) {}

end PolicySnapshot

section Normalize

variable {F : Type} [FloatFormat F]

def applyResolvedLookupStrategyDefaults (p : ResolvedPolicy F) : ResolvedPolicy F :=
  let strategy := p.strategy.getD {}
  { p with strategy := some {
      enableChainMatching := strategy.enableChainMatching <|> some defaultEnableChainMatching
      requireChain        := strategy.requireChain <|> some defaultRequireChain
      enableTenantHot     := strategy.enableTenantHot <|> some defaultEnableTenantHot } }

-- A field that an older version does not have is missing, which is not the same as empty.
def normalizePolicy (version : Int) (p : ResolvedPolicy F) : ResolvedPolicy F :=
  let p :=
    if version < 4 ∧ p.minimumMatchedTokens = 0 then
      { p with minimumMatchedTokens := defaultMinimumMatchedTokens }
    else p
  let p :=
    if version < 5 then
      { p with routingFloorScore := p.routingFloorScore <|> some defaultRoutingFloorScore }
    else p
  let p := if version < 6 then applyResolvedLookupStrategyDefaults p else p
  if version < 7 then
    { p with affinityRouting := p.affinityRouting <|> some defaultAffinityRoutingEnabled }
  else p

def normalizePolicySnapshotForVersion (s : PolicySnapshot F) : PolicySnapshot F :=
  if s.version ≥ policyPropagationVersion then s
  else { s with policies := s.policies.map (normalizePolicy s.version) }

-- What `/policy` makes of a body. A push that is refused leaves the store as it is.
def policyHandler (text : FloatText F) (body : Json) : Option (PolicyStore F) := do
  let s ← PolicySnapshot.decode text body
  if s.version < policyMinimumAcceptedVersion ∨ s.version > policyPropagationVersion then none
  else
    let s := normalizePolicySnapshotForVersion s
    some (.replaceSnapshot s.policies s.tenants)

end Normalize

end InferenceCache.Server
