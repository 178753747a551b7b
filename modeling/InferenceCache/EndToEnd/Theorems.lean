import InferenceCache.EndToEnd.Mirror
import InferenceCache.Index.Theorems.LongestPrefix

namespace InferenceCache.EndToEnd

open Fingerprint Server
open Subscriber (prefixEntryOf Reporter)

variable {F : Type} [GoFloat F] {cfg : Config F} {env : Env} {i i' : Index F} {c : Subscriber.Config}
variable {svc : Service} {hashSeed : Bytes → UInt64 → UInt64} {slotFree : Bool} {slo : Option Wire.SLO}
variable {tokens t : List UInt32} {bs m : Int32} {nm : Naming} {e : Engine}

-- A request for a list of tokens, in the domain that a replica reports in.
def tokenRequest (c : Subscriber.Config) (slo : Option Wire.SLO) (tokens : List UInt32) :
    Wire.LookupRouteRequest where
  modelID := c.modelID
  tenantID := c.tenantID
  hashScheme := c.hashScheme
  adapterID := []
  prefixHash := []
  prefixTokenCount := 0
  blockHashes := []
  blockTokenCounts := []
  tokenIDs := tokens
  promptText := []
  slo := slo

section Resolution

theorem resolve_nil :
    resolveLookupChain svc hashSeed slotFree (tokenRequest c slo []) true = {} := by
  simp [resolveLookupChain, tokenRequest]

theorem resolve_tokens (h0 : 0 < tokens.length) (hl : tokens.length ≤ maxLookupTokens) :
    resolveLookupChain svc hashSeed slotFree (tokenRequest c slo tokens) true =
      (inputsOfTokens svc hashSeed tokens true).getD { failOpen := true } := by
  simp [resolveLookupChain, tokenRequest, h0, not_lt.mpr hl]

theorem length_chain : (chain hashSeed tokens svc.blockSize).1.length =
    tokens.length / svc.blockSize.toNat := by
  rw [chain_eq svc.blockSize_pos, List.length_map, extensions_length]

theorem inputsOfTokens_short (h : tokens.length < svc.blockSize.toNat) :
    inputsOfTokens svc hashSeed tokens true = none := by
  rw [inputsOfTokens, if_pos (by rw [length_chain, Nat.div_eq_of_lt h])]

theorem inputsOfTokens_long (h : svc.blockSize.toNat ≤ tokens.length) :
    ∃ inputs, inputsOfTokens svc hashSeed tokens true = some inputs ∧ inputs.failOpen = false ∧
      inputs.blockHashes = (chain hashSeed tokens svc.blockSize).1 ∧
      inputs.blockTokenCounts = (chain hashSeed tokens svc.blockSize).2 := by
  have hp : 0 < tokens.length / svc.blockSize.toNat :=
    Nat.div_pos h (by have := svc.blockSize_pos; omega)
  rw [inputsOfTokens, if_neg (by rw [length_chain]; omega)]
  exact ⟨_, rfl, rfl, rfl, rfl⟩

end Resolution

section Residency

def Fresh (cfg : Config F) (env : Env) (c : Subscriber.Config) (i : Index F) : Prop :=
  ∀ key en, key.modelKey = ⟨c.tenantID, c.modelID⟩ → i.entryAt key c.replicaID = some en →
    FloatFormat.le (freshnessAt (env.now 0) en.lastSeen (cfg.ttlFor env c.tenantID) : F) 0 = false

def Resident (nm : Naming) (e : Engine) (t : List UInt32) : Prop :=
  ∃ h ∈ e.resident, nm.prefixOf h = t

variable {req : LookupRequest}

def Addresses (c : Subscriber.Config) (req : LookupRequest) : Prop :=
  req.tenant = c.tenantID ∧ req.model = c.modelID ∧ req.hashScheme = c.hashScheme ∧ req.adapter = []

theorem freshEntry_eq (ha : Addresses c req) (hf : Fresh cfg env c i) {h : Bytes} :
    i.freshEntry cfg env req c.replicaID h = i.entryAt (req.keyOf h) c.replicaID := by
  rw [Index.freshEntry]
  cases he : i.entryAt (req.keyOf h) c.replicaID
  case none => rfl
  case some en =>
    have hk : (req.keyOf h).modelKey = ⟨c.tenantID, c.modelID⟩ := by
      rw [← ha.1, ← ha.2.1]
      rfl
    have hs : Index.stale cfg env req en.lastSeen = false := by
      rw [Index.stale, ha.1]
      exact hf _ en hk he
    simp [Option.filter, hs]

theorem keyOf_eq (ha : Addresses c req) {n : Nat} :
    req.keyOf (bytes (prefixHash hashSeed n t)) = keyOf c (prefixEntryOf hashSeed n [] t) := by
  rw [LookupRequest.keyOf, ha.1, ha.2.1, ha.2.2.1, ha.2.2.2]
  rfl

-- A replica is found under the hash of a prefix if and only if the prefix is resident.
theorem holdsBlock_iff (ha : Addresses c req) (hf : Fresh cfg env c i)
    (hn : ∀ h ∈ e.resident, h ∈ nm.names)
    (hh : holds c i [] = blockKey hashSeed bs nm c '' e.resident) {s : Set (List UInt32)}
    (hd : Set.InjOn (prefixHash hashSeed bs.toInt.toNat) (nm.prefixOf '' nm.names ∪ s)) (ht : t ∈ s) :
    i.holdsBlock cfg env req c.replicaID (bytes (prefixHash hashSeed bs.toInt.toNat t), bs) ↔
      Resident nm e t := by
  have hk : i.holdsBlock cfg env req c.replicaID (bytes (prefixHash hashSeed bs.toInt.toNat t), bs) ↔
      keyOf c (prefixEntryOf hashSeed bs.toInt.toNat [] t) ∈ holds c i [] := by
    rw [Index.holdsBlock, freshEntry_eq ha hf, keyOf_eq ha]
    simp [holds, keyOf, PrefixKey.modelKey]
  rw [hk, hh]
  constructor
  case mp =>
    rintro ⟨h, hr, he⟩
    refine ⟨h, hr, hd (.inl ⟨h, hn h hr, rfl⟩) (.inr ht) ?_⟩
    exact bytes_injective <| congrArg PrefixKey.prefixHash he
  case mpr =>
    rintro ⟨h, hr, he⟩
    exact ⟨h, hr, by rw [blockKey, he]⟩

theorem not_found_empty (ha : Addresses c req) (hf : Fresh cfg env c i)
    (hh : holds c i [] = blockKey hashSeed bs nm c '' e.resident) :
    i.freshEntry cfg env req c.replicaID [] = none := by
  rw [freshEntry_eq ha hf, ← Option.not_isSome_iff_eq_none]
  intro hs
  have hk : req.keyOf [] ∈ holds c i [] := ⟨by rw [← ha.1, ← ha.2.1]; rfl, .inl hs⟩
  have ⟨h, _, he⟩ := hh ▸ hk
  have hl := congrArg (List.length ∘ PrefixKey.prefixHash) he
  simp [blockKey, keyOf, prefixEntryOf, bytes, LookupRequest.keyOf] at hl

end Residency

section Longest

-- The numbers of full blocks such that as many prefixes of the tokens are resident.
def residentBlocks (n : Nat) (nm : Naming) (e : Engine) (tokens : List UInt32) : Set Nat :=
  { k | k * n ≤ tokens.length ∧ ∀ j < k, Resident nm e (tokens.take ((j + 1) * n)) }

theorem residentBlocks_eq {n : Nat} (hn : 0 < n) {p : List UInt32 → Bool}
    (hp : ∀ t ∈ extensions n [] tokens, p t = true ↔ Resident nm e t) :
    residentBlocks n nm e tokens = { k | k ≤ (extensions n [] tokens).length ∧
      ∀ j < k, ((extensions n [] tokens)[j]?).any p } := by
  ext k
  rw [residentBlocks, extensions_length, Set.mem_ofPred_eq, Set.mem_ofPred_eq, Nat.le_div_iff_mul_le hn]
  refine and_congr_right fun hk => forall₂_congr fun j hj => ?_
  have hlt : j < tokens.length / n := hj.trans_le <| (Nat.le_div_iff_mul_le hn).mpr hk
  rw [extensions_getElem? hlt, Option.any_some]
  exact (hp _ <| mem_extensions.mpr ⟨j, hlt, rfl⟩).symm

theorem tokensFrom_map {l : List (List UInt32)} {f : List UInt32 → Bytes} {k : Int} :
    Index.tokensFrom (Int32.ofInt k) (l.map fun t => (f t, bs)) =
      Int32.ofInt (k + l.length * bs.toInt) := by
  induction l generalizing k
  case nil => simp [Index.tokensFrom]
  case cons t l hi =>
    have hs : Int32.ofInt k + bs = Int32.ofInt (k + bs.toInt) := by
      rw [Int32.ofInt_add, Int32.ofInt_toInt]
    rw [List.map_cons, Index.tokensFrom, List.foldl_cons, hs, ← Index.tokensFrom, hi, List.length_cons]
    congr 1
    push_cast
    ring

-- The tokens of blocks of the same size, as long as their number does not overflow.
theorem tokensFrom_zero_iff {l : List (List UInt32)} {f : List UInt32 → Bytes} (hb : 0 < bs.toInt)
    (hl : l.length * bs.toInt < 2 ^ 31) :
    (l.map fun t => (f t, bs)) ≠ [] ∧ m = Index.tokensFrom 0 (l.map fun t => (f t, bs)) ∧ 0 < m ↔
      0 < l.length ∧ m.toInt = l.length * bs.toInt := by
  have ht : Index.tokensFrom 0 (l.map fun t => (f t, bs)) = .ofInt (l.length * bs.toInt) := by
    rw [← zero_add ((l.length : Int) * _), ← tokensFrom_map]
    rfl
  have h0 : 0 ≤ l.length * bs.toInt := Int.mul_nonneg (Int.natCast_nonneg _) hb.le
  have hi : Int32.toInt (.ofInt (l.length * bs.toInt)) = l.length * bs.toInt :=
    Int32.toInt_ofInt_of_le (by omega) hl
  rw [ne_eq, List.map_eq_nil_iff, ← ne_eq, ← List.length_pos_iff, ht]
  refine and_congr_right fun hpos => ?_
  constructor
  case mp =>
    intro ⟨hm, _⟩
    rw [hm, hi]
  case mpr =>
    intro hm
    refine ⟨Int32.toInt_inj.mp (hm.trans hi.symm), Int32.lt_iff_toInt_lt.mpr ?_⟩
    rw [hm]
    exact Int.mul_pos (by omega) hb

variable {req : LookupRequest}

theorem matched_lookupChain (hb : 0 < bs.toInt) (hl : tokens.length ≤ maxLookupTokens)
    (hr : Index.blocks req = (extensions bs.toInt.toNat [] tokens).map
      fun t => (bytes (prefixHash hashSeed bs.toInt.toNat t), bs))
    (hp : ∀ t ∈ extensions bs.toInt.toNat [] tokens,
      i.holdsBlock cfg env req c.replicaID (bytes (prefixHash hashSeed bs.toInt.toNat t), bs) ↔
        Resident nm e t) :
    ∃ k, IsGreatest (residentBlocks bs.toInt.toNat nm e tokens) k ∧
      ∀ m : Int32, (∃ s ∈ (i.lookupChain cfg env req).1,
        s.replicaID = c.replicaID ∧ s.matchedTokens = m) ↔ 0 < k ∧ m.toInt = k * bs.toInt := by
  let held := (extensions bs.toInt.toNat [] tokens).takeWhile fun t =>
    i.holdsBlock cfg env req c.replicaID (bytes (prefixHash hashSeed bs.toInt.toNat t), bs)
  have hg : IsGreatest (residentBlocks bs.toInt.toNat nm e tokens) held.length := by
    rw [residentBlocks_eq (by omega) hp]
    exact isGreatest_length_takeWhile
  have hh : i.heldBlocks cfg env req c.replicaID =
      held.map fun t => (bytes (prefixHash hashSeed bs.toInt.toNat t), bs) := by
    rw [Index.heldBlocks, hr, List.takeWhile_map]
    rfl
  have hk : held.length * bs.toInt < 2 ^ 31 := by
    have hle : held.length * bs.toInt.toNat ≤ 2 ^ 20 := hg.1.1.trans hl
    have hc : ((held.length * bs.toInt.toNat : Nat) : Int) = held.length * bs.toInt := by
      rw [Nat.cast_mul, Int.toNat_of_nonneg hb.le]
    omega
  refine ⟨_, hg, fun m => ?_⟩
  rw [Index.matched_lookupChain_iff, hh]
  exact tokensFrom_zero_iff hb hk

end Longest

section Lookup

theorem addresses_lookupRequest {inputs : LookupInputs} :
    Addresses c (lookupRequest (tokenRequest c slo tokens) inputs true) :=
  ⟨rfl, rfl, rfl, rfl⟩

-- Not a single block. There is nothing to look up, except for the empty hash if there are no tokens.
theorem not_reported_of_lt (hs : c.hashScheme ≠ []) (hf : Fresh cfg env c i)
    (hh : holds c i [] = blockKey hashSeed bs nm c '' e.resident)
    (hl : tokens.length ≤ maxLookupTokens) (hlt : tokens.length < svc.blockSize.toNat) :
    ∀ s ∈ lookup svc hashSeed cfg i env slotFree (tokenRequest c slo tokens) true,
      s.replicaID ≠ c.replicaID := by
  intro s hm hr
  cases tokens
  case cons t tokens =>
    have h0 : 0 < (t :: tokens).length := Nat.succ_pos _
    rw [lookup, resolve_tokens h0 hl, inputsOfTokens_short hlt] at hm
    cases hm
  case nil =>
    rw [lookup, resolve_nil] at hm
    dsimp only at hm
    rw [if_neg Bool.false_ne_true, Index.lookup_of_no_chain hs rfl rfl] at hm
    have ⟨_, he, _⟩ := Index.mem_found_lookupExact.mp (List.mem_map_of_mem hm)
    rw [ReplicaScore.found, hr] at he
    cases (not_found_empty addresses_lookupRequest hf hh).symm.trans he

theorem lookup_of_le (hs : c.hashScheme ≠ []) (hl : tokens.length ≤ maxLookupTokens)
    (hle : svc.blockSize.toNat ≤ tokens.length) : ∃ req, Addresses c req ∧
      Index.blocks req = (extensions svc.blockSize.toNat [] tokens).map (fun t =>
        (bytes (prefixHash hashSeed svc.blockSize.toNat t), Int32.ofInt svc.blockSize)) ∧
      lookup svc hashSeed cfg i env slotFree (tokenRequest c slo tokens) true =
        (i.lookupChain cfg env req).1 := by
  have hpos := svc.blockSize_pos
  have ⟨inputs, hi, hf, hh, hc⟩ := @inputsOfTokens_long svc hashSeed tokens hle
  have he := @chain_eq hashSeed tokens _ hpos
  let req := lookupRequest (tokenRequest c slo tokens) inputs true
  have hbh : req.blockHashes = (chain hashSeed tokens svc.blockSize).1 := hh
  have hbc : req.blockTokenCounts = (chain hashSeed tokens svc.blockSize).2 := hc
  refine ⟨req, addresses_lookupRequest, by rw [Index.blocks, hbh, hbc, he, List.zip_map'], ?_⟩
  have hp : 0 < req.blockHashes.length := by
    rw [hbh, length_chain]
    exact Nat.div_pos hle (by omega)
  have hlen : req.blockHashes.length = req.blockTokenCounts.length := by
    rw [hbh, hbc, he, List.length_map, List.length_map]
  rw [← Index.lookup_of_chain hs hp hlen]
  dsimp only [lookup]
  rw [resolve_tokens (by omega) hl, hi, Option.getD_some, hf, if_neg Bool.false_ne_true]

end Lookup

theorem lookup_reports_longest_resident (hashSeed : Bytes → UInt64 → UInt64) (cfg : Config F)
    (svc : Service) (r : Reporter) (bs : Int32) (nm : Naming) (inputs : List (Subscriber.Input F))
    (e : Engine) (i i' : Index F) (env : Env) (slotFree : Bool) (slo : Option Wire.SLO)
    (tokens : List UInt32) (hb : svc.blockSize = bs.toInt) (hc : r.cfg.validate = .ok ())
    (h2 : r.l2TierPresent = false)
    (hi : ∀ key, key.modelKey = ⟨r.cfg.tenantID, r.cfg.modelID⟩ → i.entryAt key r.cfg.replicaID = none)
    (he : Runs (Engine.Step bs nm) .init (inputs.flatMap eventsOf) e)
    (hv : Runs (Serves cfg) i (r.run hashSeed inputs) i') (hf : Fresh cfg env r.cfg i')
    (hl : tokens.length ≤ maxLookupTokens)
    (hd : Set.InjOn (prefixHash hashSeed bs.toInt.toNat)
      (nm.prefixOf '' nm.names ∪ { t | t ∈ extensions bs.toInt.toNat [] tokens })) :
    ∃ k, IsGreatest (residentBlocks bs.toInt.toNat nm e tokens) k ∧
      ∀ m : Int32, (∃ s ∈ lookup svc hashSeed cfg i' env slotFree (tokenRequest r.cfg slo tokens) true,
        s.replicaID = r.cfg.replicaID ∧ s.matchedTokens = m) ↔ 0 < k ∧ m.toInt = k * bs.toInt := by
  have hpos : 0 < bs.toInt := hb ▸ svc.blockSize_pos
  have hs := hashScheme_of_validate hc
  have ⟨hn, hh⟩ := holds_run hpos hs h2 (hd.mono Set.subset_union_left) hi he hv
  by_cases hlt : tokens.length < bs.toInt.toNat
  case pos =>
    refine ⟨0, ⟨⟨by simp, by simp⟩, fun k hk => ?_⟩, fun m => ?_⟩
    case refine_1 =>
      by_contra h0
      exact absurd (hk.1.trans_lt hlt) (not_lt.mpr (Nat.le_mul_of_pos_left _ (by omega)))
    case refine_2 =>
      have hn := @not_reported_of_lt _ _ cfg env i' r.cfg svc hashSeed slotFree slo tokens bs nm e hs hf hh
        hl (by rwa [hb])
      constructor
      case mp  => exact fun ⟨s, hm, hr, _⟩ => absurd hr (hn s hm)
      case mpr => exact fun h => absurd h.1 (lt_irrefl 0)
  case neg =>
    have ⟨req, ha, hbl, hreq⟩ := @lookup_of_le _ _ cfg env i' r.cfg svc hashSeed slotFree slo tokens hs hl
      (by rw [hb]; exact not_lt.mp hlt)
    rw [hb, Int32.ofInt_toInt] at hbl
    rw [hreq]
    exact matched_lookupChain hpos hl hbl fun t ht => holdsBlock_iff ha hf hn hh hd ht

section

def twoNames : Naming where
  names      := {[1], [2]}
  prefixOf h := if h = [1] then [1, 2] else [1, 2, 3, 4]
  injOn      := by rintro _ (rfl | rfl) _ (rfl | rfl) <;> decide

def served : Index ℚ :=
  (replica.run polynomial storeThenRemove).foldl (fun i rpc => serve unlimited i (.still 9) rpc) .new

theorem fresh_served : Fresh unlimited (.still 9) replica.cfg served := by
  have hd : ∀ key ∈ served.prefixes.keys, (served.entryAt key replica.cfg.replicaID).all (fun en =>
      !FloatFormat.le (freshnessAt 9 en.lastSeen unlimited.ttl : ℚ) 0) := by decide +kernel
  intro key en _ he
  have h := hd key (Index.mem_keys_of_entryAt he)
  rw [he, Option.all_some] at h
  exact Bool.not_eq_true' _ ▸ h

theorem runs_storeThenRemove : Runs (Engine.Step 2 twoNames) .init (storeThenRemove.flatMap eventsOf)
    ⟨{[1]}, {[1], [2]}⟩ := by
  have hs : Engine.Stores 2 twoNames .init ⟨[[1], [2]], none, [1, 2, 3, 4], 2, none⟩ :=
    ⟨rfl, rfl, rfl, by simp, by simp [twoNames], by decide⟩
  have hr : Engine.Step 2 twoNames ⟨{[1], [2]}, {[1], [2]}⟩ (.blockRemoved ⟨[[2]]⟩)
      ⟨{[1]}, {[1], [2]}⟩ := .removed _ _
  exact .cons (.stored hs) (.cons hr (.nil _))

theorem prefixHash_injOn_twoNames : Set.InjOn (prefixHash polynomial 2)
    (twoNames.prefixOf '' twoNames.names ∪ { t | t ∈ extensions 2 [] [1, 2, 3, 4] }) := by
  have hs : twoNames.prefixOf '' twoNames.names ∪ { t | t ∈ extensions 2 [] [1, 2, 3, 4] } ⊆
      ({[1, 2], [1, 2, 3, 4]} : Set (List UInt32)) := by
    rintro _ (⟨h, rfl | rfl, rfl⟩ | ht)
    case inl.inl => exact .inl rfl
    case inl.inr => exact .inr rfl
    case inr => simpa [extensions, List.range_succ] using ht
  refine Set.InjOn.mono hs ?_
  rintro _ (rfl | rfl) _ (rfl | rfl) <;> decide

theorem lookup_reports_longest_resident_removed :
    ∃ k, IsGreatest (residentBlocks 2 twoNames ⟨{[1]}, {[1], [2]}⟩ [1, 2, 3, 4]) k ∧
      ∀ m : Int32, (∃ s ∈ lookup ⟨2, fun _ _ => none, by decide⟩ polynomial unlimited served (.still 9) true
        (tokenRequest replica.cfg none [1, 2, 3, 4]) true,
        s.replicaID = replica.cfg.replicaID ∧ s.matchedTokens = m) ↔ 0 < k ∧ m.toInt = k * 2 :=
  lookup_reports_longest_resident polynomial unlimited ⟨2, fun _ _ => none, by decide⟩ replica 2
    twoNames storeThenRemove ⟨{[1]}, {[1], [2]}⟩ .new served (.still 9) true none [1, 2, 3, 4] rfl rfl rfl
    (fun _ _ => rfl) runs_storeThenRemove (runs_of_unlimited le_rfl rfl (by decide +kernel)) fresh_served
    (by decide) prefixHash_injOn_twoNames

end

end InferenceCache.EndToEnd
