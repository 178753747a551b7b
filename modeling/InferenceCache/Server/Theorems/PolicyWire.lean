import InferenceCache.Server.PolicyWire
import InferenceCache.Lib.Ieee

namespace InferenceCache.Server

open Json

section Floor

variable {F : Type} [FloatFormat F] [IeeeFormat F]

theorem within_defaultRoutingFloorScore : IeeeFormat.Within 0 1 (defaultRoutingFloorScore : F) :=
  IeeeFormat.within_ofInt_div_ofInt (by decide) (by decide) (by decide) (by decide)

theorem isFinite_defaultRoutingFloorScore : FloatFormat.isFinite (defaultRoutingFloorScore : F) := by
  have ⟨a, ha, _⟩ := within_defaultRoutingFloorScore (F := F)
  exact IeeeFormat.isFinite_iff.mpr ⟨a, ha⟩

theorem not_lt_defaultRoutingFloorScore : ¬FloatFormat.lt (defaultRoutingFloorScore : F) 0 := by
  have ⟨a, ha, h₀, _⟩ := within_defaultRoutingFloorScore (F := F)
  rw [IeeeFormat.lt_iff ha IeeeFormat.val_zero]
  simpa using h₀

end Floor

theorem toInt32?_int (n : Int32) : toInt32? (int n.toInt) = some n := by
  have h : (int n.toInt).toInt? (31 + 1) = some n.toInt :=
    toInt?_int n.le_toInt (by simpa using n.toInt_lt)
  simp [toInt32?, h]

def FitsInt64 (n : Int) : Prop :=
  -2 ^ 63 ≤ n ∧ n < 2 ^ 63

theorem FitsInt64.toInt?_int (h : FitsInt64 n) : (int n).toInt? 64 = some n := by
  have hn : (int n).toInt? (63 + 1) = some n := Json.toInt?_int h.1 h.2
  exact hn

section Strategy

theorem ResolvedLookupStrategy.toRecord?_encode (s : ResolvedLookupStrategy) :
    toRecord? fields {} s.encode = some s := by
  have hd : Distinct ResolvedLookupStrategy.fields := by decide +kernel
  rw [encode, toRecord?]
  rw [foldlM_pointer .bool s.enableChainMatching hd 0 rfl (fun b _ => ⟨nofun, rfl⟩) rfl]
  rw [foldlM_pointer .bool s.requireChain hd 1 rfl (fun b _ => ⟨nofun, rfl⟩) rfl]
  rw [foldlM_pointer .bool s.enableTenantHot hd 2 rfl (fun b _ => ⟨nofun, rfl⟩) rfl]
  rfl

end Strategy

namespace ResolvedPolicy

variable {F : Type} [FloatFormat F] (text : FloatText F) {p : ResolvedPolicy F}

structure Sendable (p : ResolvedPolicy F) : Prop where
  ttl    : FitsInt64 p.evictionTTL
  finite : ∀ x ∈ p.routingFloorScore, FloatFormat.isFinite x

theorem distinct_fields : Distinct (fields text) := by
  have h : ([utf8 "namespace", utf8 "evictionTTL", utf8 "minimumPrefixTokens", utf8 "minimumMatchedTokens",
      utf8 "routingFloorScore", utf8 "lookupTimeoutMs", utf8 "affinityRouting", utf8 "eviction",
      utf8 "strategy"].map GoString.asciiLower).Nodup := by decide +kernel
  exact h

theorem decode_encode (h : p.Sendable) : ∃ json, encode text p = some json ∧ decode text json = some p := by
  have ha : p.routingFloorScore.all FloatFormat.isFinite = true := by
    cases hr : p.routingFloorScore
    case none => rfl
    case some x => exact h.finite x hr
  rw [encode, if_pos ha]
  refine ⟨_, rfl, ?_⟩
  have hd := distinct_fields text
  have hf : ∀ x ∈ p.routingFloorScore, (Json.num (text.format x)) ≠ .null ∧
      parseFloat text (.num (text.format x)) = some x :=
    fun x hx => ⟨nofun, text.parse_format x (h.finite x hx)⟩
  have hb : ∀ b ∈ p.affinityRouting, Json.bool b ≠ .null ∧ (Json.bool b).toBool? = some b :=
    fun b _ => ⟨nofun, rfl⟩
  have hs : ∀ s ∈ p.strategy, s.encode ≠ .null ∧
      toRecord? ResolvedLookupStrategy.fields {} s.encode = some s :=
    fun s _ => ⟨nofun, s.toRecord?_encode⟩
  have hi (n : Int32) : int n.toInt ≠ .null := nofun
  rw [decode, toRecord?]
  rw [foldlM_value .str p.forNamespace hd 0 rfl nofun rfl]
  rw [foldlM_omitEmpty .int p.evictionTTL hd 1 rfl nofun h.ttl.toInt?_int 0 rfl]
  rw [foldlM_omitEmpty _ p.minimumPrefixTokens hd 2 rfl (hi _) (toInt32?_int _) 0 rfl]
  rw [foldlM_omitEmpty _ p.minimumMatchedTokens hd 3 rfl (hi _)
    (toInt32?_int _) 0 rfl]
  rw [foldlM_pointer _ p.routingFloorScore hd 4 rfl hf rfl]
  rw [foldlM_omitEmpty _ p.lookupTimeoutMs hd 5 rfl (hi _) (toInt32?_int _) 0 rfl]
  rw [foldlM_pointer _ p.affinityRouting hd 6 rfl hb rfl]
  rw [foldlM_omitEmpty .str p.eviction hd 7 rfl nofun rfl [] rfl]
  rw [foldlM_pointer _ p.strategy hd 8 rfl hs rfl]
  rfl

end ResolvedPolicy

namespace ResolvedTenant

theorem decode_encode {t : ResolvedTenant} (h : FitsInt64 t.maxIndexEntries) :
    decode t.encode = some t := by
  have hd : Distinct fields := by decide +kernel
  rw [decode, encode, toRecord?]
  rw [foldlM_value .str t.tenantID hd 0 rfl nofun rfl]
  rw [foldlM_value .int t.maxIndexEntries hd 1 rfl nofun h.toInt?_int]
  rw [foldlM_omitEmpty .str t.isolationMode hd 2 rfl nofun rfl [] rfl]
  rfl

end ResolvedTenant

namespace PolicySnapshot

variable {F : Type} [FloatFormat F] (text : FloatText F) {s : PolicySnapshot F}

structure Sendable (s : PolicySnapshot F) : Prop where
  version  : FitsInt64 s.version
  policies : ∀ p ∈ s.policies, p.Sendable
  tenants  : ∀ t ∈ s.tenants, FitsInt64 t.maxIndexEntries

theorem distinct_fields : Distinct (fields text) := by
  have h : ([utf8 "version", utf8 "policies", utf8 "tenants"].map GoString.asciiLower).Nodup := by
    decide +kernel
  exact h

theorem toList?_policies {l : List (ResolvedPolicy F)} (h : ∀ p ∈ l, p.Sendable) :
    ∃ js, l.mapM (ResolvedPolicy.encode text) = some js ∧
      (Json.arr js).toList? (ResolvedPolicy.decode text) = some l := by
  induction l
  case nil => exact ⟨[], rfl, rfl⟩
  case cons p l hi =>
    have ⟨j, he, hd⟩ := ResolvedPolicy.decode_encode text (h p (.head _))
    have ⟨js, hes, hds⟩ := hi fun p hp => h p (.tail _ hp)
    simp only [toList?] at hds
    exact ⟨j :: js, by simp [he, hes], by simp [toList?, hd, hds]⟩

theorem decode_encode (h : s.Sendable) : ∃ json, encode text s = some json ∧ decode text json = some s := by
  have ⟨js, he, hs⟩ := toList?_policies text h.policies
  have hd := distinct_fields text
  refine ⟨_, by rw [encode, he]; rfl, ?_⟩
  rw [decode, toRecord?]
  rw [foldlM_value .int s.version hd 0 rfl nofun h.version.toInt?_int]
  rw [foldlM_value (fun _ => .arr js) s.policies hd 1 rfl nofun hs]
  have ht := toList?_map fun t ht => ResolvedTenant.decode_encode (h.tenants t ht)
  by_cases hn : s.tenants.isEmpty = true
  case pos =>
    rw [if_pos hn]
    exact congrArg (fun ts => some { s with tenants := ts }) (List.isEmpty_iff.mp hn).symm
  case neg =>
    rw [if_neg hn, foldlM_value (fun ts => .arr (ts.map ResolvedTenant.encode)) s.tenants hd 2 rfl nofun ht]
    rfl

end PolicySnapshot

end InferenceCache.Server
