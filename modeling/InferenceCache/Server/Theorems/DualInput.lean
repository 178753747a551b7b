import InferenceCache.Fingerprint.Theorems
import InferenceCache.Server.Theorems.Served

-- Tokens in place of the hashes that they have.
namespace InferenceCache

variable {F : Type} [GoFloat F]

namespace Index

variable {cfg : Config F} {i : Index F} {env : Env} {req : LookupRequest} {hash : Bytes}

theorem chainRest_prefixHash {n : Nat} {l : List (Bytes × Int32)} {current finalized : GoMap GoString Running} :
    i.chainRest cfg env { req with prefixHash := hash } n l current finalized =
      i.chainRest cfg env req n l current finalized := by
  induction l generalizing n current finalized
  case nil => rfl
  case cons b l hi =>
    obtain ⟨h, tokens⟩ := b
    unfold chainRest
    simp only [hi]
    rfl

theorem chainWalk_prefixHash {l : List (Bytes × Int32)} :
    i.chainWalk cfg env { req with prefixHash := hash } l = i.chainWalk cfg env req l := by
  cases l
  case nil => rfl
  case cons b l =>
    obtain ⟨h, tokens⟩ := b
    unfold chainWalk
    simp only [chainRest_prefixHash]
    rfl

-- Next to a chain the single hash is ignored.
theorem lookupRoute_prefixHash (h : req.chainBearing) :
    i.lookupRoute cfg env { req with prefixHash := hash } = i.lookupRoute cfg env req := by
  have hc : i.lookupChain cfg env { req with prefixHash := hash } = i.lookupChain cfg env req := by
    unfold lookupChain
    simp only [chainWalk_prefixHash]
    rfl
  have h' : ({ req with prefixHash := hash } : LookupRequest).chainBearing = true := h
  have hl : i.lookupWithHits cfg env { req with prefixHash := hash } = i.lookupWithHits cfg env req := by
    rw [lookupWithHits, lookupWithHits, if_pos h, if_pos h', hc]
  rw [lookupRoute_eq, lookupRoute_eq, hl, fallback, fallback, if_pos h, if_pos h']
  rfl

end Index

namespace Wire.LookupRouteRequest

-- A request without anything by which a prefix can be recognised.
def bare (req : LookupRouteRequest) : LookupRouteRequest :=
  { req with prefixHash := [], blockHashes := [], blockTokenCounts := [], tokenIDs := [], promptText := [] }

def withTokens (req : LookupRouteRequest) (tokens : List UInt32) : LookupRouteRequest :=
  { req.bare with tokenIDs := tokens }

def withChain (req : LookupRouteRequest) (chain : List Bytes × List Int32) : LookupRouteRequest :=
  { req.bare with blockHashes := chain.1, blockTokenCounts := chain.2 }

def withHash (req : LookupRouteRequest) (hash : Bytes) (tokenCount : Int32) : LookupRouteRequest :=
  { req.bare with prefixHash := hash, prefixTokenCount := tokenCount }

end Wire.LookupRouteRequest

namespace Server

namespace Handler

variable {s : Handler F} {hashSeed : Bytes → UInt64 → UInt64} {sha256 : Bytes → Bytes} {i : Index F}
variable {env env' : Env} {tm : Timing} {req req' : Wire.LookupRouteRequest} {result : LookupResult F}
variable {tokens : List UInt32}

-- Two requests that a call cannot tell apart.
structure Alike (s : Handler F) (hashSeed : Bytes → UInt64 → UInt64) (tm : Timing)
    (req req' : Wire.LookupRouteRequest) : Prop where
  scope    : scopeOf req = scopeOf req'
  adapter  : req.adapterID = req'.adapterID
  deadline : s.hasDeadline tm req = s.hasDeadline tm req'
  chain    : s.policyChainRequired req.tenantID = false
  eligible : affinityEligible req = affinityEligible req'
  failOpen : (s.inputs hashSeed tm req).failOpen = (s.inputs hashSeed tm req').failOpen
  echo     : (s.inputs hashSeed tm req).echoTokens = (s.inputs hashSeed tm req').echoTokens
  tokens   : (s.inputs hashSeed tm req).effectiveTokens = (s.inputs hashSeed tm req').effectiveTokens
  seed     : canonicalAffinitySeed (s.inputs hashSeed tm req) = canonicalAffinitySeed (s.inputs hashSeed tm req')
  result   : ∀ (i : Index F) env, i.lookupRoute s.cfg env (s.indexRequest hashSeed tm req) =
    i.lookupRoute s.cfg env (s.indexRequest hashSeed tm req')

namespace Alike

theorem tenant (h : s.Alike hashSeed tm req req') : req.tenantID = req'.tenantID :=
  congrArg ScopeKey.tenant h.scope

theorem tooShort (h : s.Alike hashSeed tm req req') {tenant : GoString} :
    s.tooShort tenant (s.inputs hashSeed tm req) = s.tooShort tenant (s.inputs hashSeed tm req') := by
  rw [Handler.tooShort, Handler.tooShort, h.tokens]

theorem beforeLookup (h : s.Alike hashSeed tm req req') :
    s.beforeLookup hashSeed tm req = s.beforeLookup hashSeed tm req' := by
  simp only [Handler.beforeLookup, ← h.tenant, h.chain, h.deadline, h.failOpen, h.echo, h.tooShort,
    Bool.false_eq_true, false_and]

theorem gated (h : s.Alike hashSeed tm req req') {tenant : GoString} :
    s.gated tenant result (s.inputs hashSeed tm req) = s.gated tenant result (s.inputs hashSeed tm req') := by
  have hm : s.applyMinimumPrefixTokens tenant (s.applyLookupStrategyGates tenant result)
      (s.inputs hashSeed tm req) = s.applyMinimumPrefixTokens tenant (s.applyLookupStrategyGates tenant result)
      (s.inputs hashSeed tm req') := by
    rw [applyMinimumPrefixTokens, applyMinimumPrefixTokens, h.tooShort]
  simp only [Handler.gated, hm]

theorem tryAffinityResponse (h : s.Alike hashSeed tm req req') :
    s.tryAffinityResponse sha256 i env tm req (s.inputs hashSeed tm req) =
      s.tryAffinityResponse sha256 i env tm req' (s.inputs hashSeed tm req') := by
  simp only [Handler.tryAffinityResponse, ← h.tenant, h.eligible, h.seed, h.scope, h.echo, h.adapter]

theorem responseOf (h : s.Alike hashSeed tm req req') :
    responseOf tm req (s.inputs hashSeed tm req) result =
      responseOf tm req' (s.inputs hashSeed tm req') result := by
  simp only [Handler.responseOf, h.echo, h.adapter]

theorem lookupRoute (h : s.Alike hashSeed tm req req') :
    s.lookupRoute hashSeed sha256 i env env' tm req = s.lookupRoute hashSeed sha256 i env env' tm req' := by
  simp only [Handler.lookupRoute, buildLookupResponse, lookupTimedOut, h.beforeLookup, h.deadline, ← h.tenant,
    h.echo, h.result, h.gated, h.tryAffinityResponse, h.responseOf]

end Alike

section Inputs

theorem length_chain_eq {bs : Int} :
    (Fingerprint.chain hashSeed tokens bs).1.length = (Fingerprint.chain hashSeed tokens bs).2.length := by
  simp [Fingerprint.chain]

theorem length_chain_pos {bs : Int} (hb : 0 < bs) (h : bs ≤ tokens.length) :
    0 < (Fingerprint.chain hashSeed tokens bs).1.length := by
  have hl : (Fingerprint.chain hashSeed tokens bs).1.length = tokens.length / bs.toNat := by
    rw [Fingerprint.chain, List.length_map, Fingerprint.prefixHashes_eq hb, HashChain.links_length, chunks_length]
  rw [hl]
  exact Nat.div_pos (by omega) (by omega)

theorem length_getLastD_chain {bs : Int} (hb : 0 < bs) (h : bs ≤ tokens.length) :
    0 < ((Fingerprint.chain hashSeed tokens bs).1.getLastD []).length := by
  have hn : (Fingerprint.chain hashSeed tokens bs).1 ≠ [] := List.length_pos_iff.mp (length_chain_pos hb h)
  have hm : (Fingerprint.chain hashSeed tokens bs).1.getLastD [] ∈ (Fingerprint.chain hashSeed tokens bs).1 := by
    rw [List.getLastD_eq_getLast?, List.getLast?_eq_some_getLast hn]
    exact List.getLast_mem hn
  have ⟨_, _, he⟩ := List.mem_map.mp hm
  rw [← he, Fingerprint.bytes, beBytes_length]
  decide

variable {service : Service} {slotFree chainMatching : Bool} {hash : Bytes} {tokenCount : Int32}
variable {chain : List Bytes × List Int32}

theorem resolve_withTokens (hl : tokens.length ≤ maxLookupTokens) (hn : service.blockSize ≤ tokens.length) :
    resolveLookupChain service hashSeed slotFree (req.withTokens tokens) chainMatching =
      { blockHashes := if chainMatching then (Fingerprint.chain hashSeed tokens service.blockSize).1 else []
        blockTokenCounts := if chainMatching then (Fingerprint.chain hashSeed tokens service.blockSize).2 else []
        exactPrefixHash := (Fingerprint.chain hashSeed tokens service.blockSize).1.getLastD []
        exactTokenCount := sumBlockTokenCounts (Fingerprint.chain hashSeed tokens service.blockSize).2 } := by
  have hb := service.blockSize_pos
  have hc : 0 < (Fingerprint.chain hashSeed tokens service.blockSize).1.length := length_chain_pos hb hn
  have ht : 0 < tokens.length := by omega
  simp [resolveLookupChain, Wire.LookupRouteRequest.withTokens, Wire.LookupRouteRequest.bare, inputsOfTokens,
    ht, not_lt.mpr hl, hc.ne']

theorem resolve_withChain (hl : chain.1.length = chain.2.length) (hp : 0 < chain.1.length) :
    resolveLookupChain service hashSeed slotFree (req.withChain chain) true =
      { blockHashes := chain.1, blockTokenCounts := chain.2, exactTokenCount := req.prefixTokenCount } := by
  have hn : chain.2 ≠ [] := List.length_pos_iff.mp (hl ▸ hp)
  simp [resolveLookupChain, Wire.LookupRouteRequest.withChain, Wire.LookupRouteRequest.bare, hl, hn]

theorem resolve_withHash (h : 0 < hash.length) :
    resolveLookupChain service hashSeed slotFree (req.withHash hash tokenCount) chainMatching =
      { exactPrefixHash := hash, exactTokenCount := tokenCount } := by
  simp [resolveLookupChain, Wire.LookupRouteRequest.withHash, Wire.LookupRouteRequest.bare, h]

end Inputs

section Forms

variable {hash : Bytes} {tokenCount : Int32}

theorem hasDeadline_of_noPrompt (h : req.promptText = []) :
    s.hasDeadline tm req = decide (tm.callerDeadline ∨ 0 < s.policyTimeout req.tenantID) := by
  simp [hasDeadline, willTokenize, h]

variable (hr : s.policyChainRequired req.tenantID = false) (hl : tokens.length ≤ maxLookupTokens)
variable (hn : s.blockSize ≤ tokens.length)

include hr hl hn

theorem alike_withChain (hc : s.policyChainMatchingEnabled req.tenantID = true) :
    s.Alike hashSeed tm (req.withTokens tokens)
      (req.withChain (Fingerprint.chain hashSeed tokens s.blockSize)) := by
  have hp : 0 < (Fingerprint.chain hashSeed tokens s.blockSize).1.length := length_chain_pos s.blockSize_pos hn
  have hi : s.inputs hashSeed tm (req.withTokens tokens) = _ := resolve_withTokens hl hn
  have hi' : s.inputs hashSeed tm (req.withChain (Fingerprint.chain hashSeed tokens s.blockSize)) = _ :=
    (congrArg (resolveLookupChain _ _ _ _) hc).trans (resolve_withChain length_chain_eq hp)
  have hc' : s.policyChainMatchingEnabled (req.withTokens tokens).tenantID = true := hc
  rw [hc'] at hi
  exact {
    scope := rfl
    adapter := rfl
    deadline := (hasDeadline_of_noPrompt rfl).trans (hasDeadline_of_noPrompt rfl).symm
    chain := hr
    eligible := by
      simp [affinityEligible, Wire.LookupRouteRequest.withTokens, Wire.LookupRouteRequest.withChain,
        Wire.LookupRouteRequest.bare, length_chain_eq]
    failOpen := by rw [hi, hi']
    echo := by rw [hi, hi']
    tokens := by simp [hi, hi', LookupInputs.effectiveTokens, effectivePrefixTokens, ← length_chain_eq, hp]
    seed := by simp [hi, hi', canonicalAffinitySeed, hp]
    result := by
      intro i env
      have hq : s.indexRequest hashSeed tm (req.withTokens tokens) =
          { s.indexRequest hashSeed tm (req.withChain (Fingerprint.chain hashSeed tokens s.blockSize)) with
            prefixHash := (Fingerprint.chain hashSeed tokens s.blockSize).1.getLastD [] } := by
        rw [indexRequest, indexRequest, hi, hi']
        rfl
      rw [hq]
      apply Index.lookupRoute_prefixHash
      rw [indexRequest, hi']
      simp [LookupRequest.chainBearing, lookupRequest, Wire.LookupRouteRequest.withChain,
        Wire.LookupRouteRequest.bare, hc, hp] }

theorem alike_withHash (hc : s.policyChainMatchingEnabled req.tenantID = false) :
    s.Alike hashSeed tm (req.withTokens tokens)
      (req.withHash ((Fingerprint.chain hashSeed tokens s.blockSize).1.getLastD [])
        (sumBlockTokenCounts (Fingerprint.chain hashSeed tokens s.blockSize).2)) := by
  have hp : 0 < ((Fingerprint.chain hashSeed tokens s.blockSize).1.getLastD []).length :=
    length_getLastD_chain s.blockSize_pos hn
  have hi : s.inputs hashSeed tm (req.withTokens tokens) =
      s.inputs hashSeed tm (req.withHash ((Fingerprint.chain hashSeed tokens s.blockSize).1.getLastD [])
        (sumBlockTokenCounts (Fingerprint.chain hashSeed tokens s.blockSize).2)) := by
    have hc' : s.policyChainMatchingEnabled (req.withTokens tokens).tenantID = false := hc
    rw [inputs, inputs, resolve_withTokens hl hn, resolve_withHash hp, hc']
    rfl
  exact {
    scope := rfl
    adapter := rfl
    deadline := (hasDeadline_of_noPrompt rfl).trans (hasDeadline_of_noPrompt rfl).symm
    chain := hr
    eligible := rfl
    failOpen := by rw [hi]
    echo := by rw [hi]
    tokens := by rw [hi]
    seed := by rw [hi]
    result := fun i env => by
      rw [indexRequest, indexRequest, hi]
      rfl }

end Forms

theorem tokens_as_hashes (s : Handler F) (hashSeed : Bytes → UInt64 → UInt64) (sha256 : Bytes → Bytes)
    (i : Index F) (env env' : Env) (tm : Timing) (req : Wire.LookupRouteRequest) (tokens : List UInt32)
    (hr : s.policyChainRequired req.tenantID = false) (hl : tokens.length ≤ maxLookupTokens)
    (hn : s.blockSize ≤ tokens.length) :
    (s.policyChainMatchingEnabled req.tenantID = true →
      s.lookupRoute hashSeed sha256 i env env' tm (req.withTokens tokens) =
        s.lookupRoute hashSeed sha256 i env env' tm
          (req.withChain (Fingerprint.chain hashSeed tokens s.blockSize))) ∧
    (s.policyChainMatchingEnabled req.tenantID = false →
      s.lookupRoute hashSeed sha256 i env env' tm (req.withTokens tokens) =
        s.lookupRoute hashSeed sha256 i env env' tm
          (req.withHash ((Fingerprint.chain hashSeed tokens s.blockSize).1.getLastD [])
            (sumBlockTokenCounts (Fingerprint.chain hashSeed tokens s.blockSize).2))) :=
  ⟨fun hc => (alike_withChain hr hl hn hc).lookupRoute, fun hc => (alike_withHash hr hl hn hc).lookupRoute⟩

-- Twenty tokens, which are one block and a rest.
theorem tokens_as_hashes_twenty :
    (ungated anyService Index.tight rfl).lookupRoute (fun _ _ => 0) (fun b => b)
        (Index.run Index.tight Index.reports) (.still 9) (.still 9) .unhurried
        (Wire.LookupRouteRequest.withTokens { tenantID := [0x74], modelID := [0x6d], hashScheme := [0x73] }
          (List.replicate 20 7)) =
      (ungated anyService Index.tight rfl).lookupRoute (fun _ _ => 0) (fun b => b)
        (Index.run Index.tight Index.reports) (.still 9) (.still 9) .unhurried
        (Wire.LookupRouteRequest.withChain { tenantID := [0x74], modelID := [0x6d], hashScheme := [0x73] }
          ([[0, 0, 0, 0, 0, 0, 0, 0]], [16])) :=
  (tokens_as_hashes _ _ _ _ _ _ _ _ (List.replicate 20 7) rfl (by decide) (by decide)).1 rfl

end Handler

end Server

end InferenceCache
