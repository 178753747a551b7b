import InferenceCache.EndToEnd.Batching
import InferenceCache.Subscriber.Theorems.Positional

-- Blocks are remembered by the engine's hashes but reported by the hashes derived for them, which
-- several blocks may have in common.
namespace InferenceCache.EndToEnd

open Fingerprint
open Subscriber (PositionalIndex Reporter BlockStored BlockRemoved Input)

variable {F : Type} [GoFloat F]

-- The hashes under which a replica is found are those that its reporter remembers.
def InStep (c : Subscriber.Config) (p : PositionalIndex) (i : Index F) : Prop :=
  { x | ∃ key, (i.entryAt key c.replicaID).isSome ∧ key.prefixHash = x } =
    { x | ∃ h pe, p.blocks.lookup h = some pe ∧ bytes pe.prefixHash = x }

def positions (r : Reporter) (hashSeed : Bytes → UInt64 → UInt64) (inputs : List (Input F)) :
    PositionalIndex :=
  (emitAll (r.onInput hashSeed) .init inputs).2.pos

def callOf : Subscriber.Event → PositionalIndex.Call
  | .blockStored ev   => .stored ev []
  | .blockRemoved ev  => .removed ev
  | .allBlocksCleared => .cleared

section Keeps

variable (hashSeed : Bytes → UInt64 → UInt64)

def lastOf (l : List (Bytes × UInt64)) (h : Bytes) : Option UInt64 :=
  (l.reverse.find? (·.1 = h)).map Prod.snd

-- An event may not take a hash from one of its blocks only. So blocks that have a hash in common have to
-- be removed together, and a block may be stored anew only if its old hash is that of a block still.
def Keeps (p : PositionalIndex) : Subscriber.Event → Prop
  | .blockStored ev =>
    let l := p.derived hashSeed ev
    ∀ ph, (∃ h, p.named h = some ph ∨ (h, ph) ∈ l) → ∃ h, (lastOf l h).or (p.named h) = some ph
  | .blockRemoved ev =>
    ∀ h h' ph, h ∈ ev.blockHashes → p.named h = some ph → p.named h' = some ph → h' ∈ ev.blockHashes
  | .allBlocksCleared => True

def KeepsAll : PositionalIndex → List Subscriber.Event → Prop
  | _, []           => True
  | p, ev :: events => Keeps hashSeed p ev ∧ KeepsAll (p.step hashSeed (callOf ev)) events

end Keeps

variable {cfg : Config F} {r : Reporter} {hashSeed : Bytes → UInt64 → UInt64} {v : View}
variable {c : Subscriber.Config} {i i' : Index F} {p : PositionalIndex} {ev : Subscriber.Event}
variable {m : Table PrefixKey (Int32 × CacheTier)} {l : List Wire.PrefixEntry}

def hashes (m : Table PrefixKey (Int32 × CacheTier)) : Set Bytes :=
  PrefixKey.prefixHash '' m.keys

omit [GoFloat F] in
theorem inStep_iff_hashes : InStep c p i ↔ hashes (contents c i) = bytes '' p.named.values := by
  have hi : hashes (contents c i) =
      { x | ∃ key, (i.entryAt key c.replicaID).isSome ∧ key.prefixHash = x } := by
    ext x
    simp [hashes, Table.keys, contents]
  have hp : bytes '' p.named.values =
      { x | ∃ h pe, p.blocks.lookup h = some pe ∧ bytes pe.prefixHash = x } := by
    ext x
    simp [Table.values, PositionalIndex.named]
  rw [InStep, hi, hp]

section Step

-- What all views of a run without adapters have in common.
structure Scoped (c : Subscriber.Config) (v : View) : Prop where
  keys     : ∀ key ∈ v.table.keys, clears c key
  adapters : ∀ h pe, v.pos.blocks.lookup h = some pe → pe.adapter = []

theorem hashes_writes (hs : c.hashScheme ≠ []) :
    hashes (m.putAll (writes c l)) = hashes m ∪ { x | x ∈ l.map Wire.PrefixEntry.prefixHash } := by
  rw [hashes, keys_writes hs, Set.image_union, hashes]
  congr 1
  ext x
  simp [keyOf]

-- What an eviction leaves, as long as there are no adapters.
theorem hashes_evictions {evicted : List Subscriber.EvictedPrefix} (hk : ∀ key ∈ m.keys, clears c key)
    (ha : ∀ ep ∈ evicted, ep.adapterID = []) :
    hashes (evicted.foldl (fun m ep => m.drop (evicts c ep)) m) =
      hashes m \ { x | ∃ ep ∈ evicted, ep.prefixHash = x } := by
  have he : ∀ key ∈ m.keys, ∀ ep ∈ evicted, evicts c ep key ↔ ep.prefixHash = key.prefixHash := by
    intro key hm ep hep
    have hc := hk key hm
    simp only [clears, decide_eq_true_eq] at hc
    simp [evicts, hc, ha ep hep, eq_comm]
  rw [hashes, Table.keys_foldl_drop]
  ext x
  constructor
  case mp =>
    rintro ⟨key, ⟨hm, hn⟩, rfl⟩
    refine ⟨⟨key, hm, rfl⟩, ?_⟩
    rintro ⟨ep, hep, hx⟩
    exact hn ⟨ep, hep, (he key hm ep hep).mpr hx⟩
  case mpr =>
    rintro ⟨⟨key, hm, rfl⟩, hn⟩
    refine ⟨key, ⟨hm, ?_⟩, rfl⟩
    rintro ⟨ep, hep, hx⟩
    exact hn ⟨ep, hep, (he key hm ep hep).mp hx⟩

theorem hashes_stored_iff {ev : BlockStored} (hs : c.hashScheme ≠ [])
    (hi : hashes m = bytes '' p.named.values) :
    hashes (m.putAll (writes c (p.stored hashSeed ev []).1)) =
        bytes '' (p.stored hashSeed ev []).2.named.values ↔
      Keeps hashSeed p (.blockStored ev) := by
  have hu : bytes '' p.named.values ∪ { x | x ∈ (p.derived hashSeed ev).map fun x => bytes x.2 } =
      bytes '' (p.named.values ∪ { ph | ph ∈ (p.derived hashSeed ev).map Prod.snd }) := by
    have hl : (p.derived hashSeed ev).map (fun x => bytes x.2) =
        ((p.derived hashSeed ev).map Prod.snd).map bytes := by rw [List.map_map]; rfl
    rw [Set.image_union, hl]
    congr 1
    ext x
    exact List.mem_map
  rw [hashes_writes hs, hi, PositionalIndex.named_stored, PositionalIndex.stored_eq_storeBlocks,
    PositionalIndex.prefixHash_storeBlocks, hu, bytes_injective.image_injective.eq_iff]
  constructor
  case mp =>
    intro h ph ⟨h', hp⟩
    have hm : ph ∈ p.named.values ∪ { ph | ph ∈ (p.derived hashSeed ev).map Prod.snd } :=
      hp.imp (fun hn => ⟨h', hn⟩) fun hl => List.mem_map.mpr ⟨_, hl, rfl⟩
    obtain ⟨k, hk⟩ := h ▸ hm
    rw [Table.putAll_apply] at hk
    exact ⟨k, hk⟩
  case mpr =>
    intro h
    refine Set.Subset.antisymm (fun ph hm => ?_) Table.values_putAll_subset
    have ⟨k, hk⟩ := h ph <| by
      cases hm
      case inl hn => exact ⟨hn.choose, .inl hn.choose_spec⟩
      case inr hl =>
        have ⟨x, hx, he⟩ := List.mem_map.mp hl
        exact ⟨x.1, .inr <| he ▸ hx⟩
    exact ⟨k, Table.putAll_apply.trans hk⟩

theorem hashes_removed_iff {ev : BlockRemoved} (hk : ∀ key ∈ m.keys, clears c key)
    (ha : ∀ h pe, p.blocks.lookup h = some pe → pe.adapter = []) (hi : hashes m = bytes '' p.named.values) :
    hashes ((p.removed ev).1.foldl (fun m ep => m.drop (evicts c ep)) m) =
        bytes '' (p.removed ev).2.named.values ↔
      Keeps hashSeed p (.blockRemoved ev) := by
  have he : ∀ ep ∈ (p.removed ev).1, ep.adapterID = [] := by
    intro ep hm
    have ⟨h, _, pe, hl, hx⟩ := PositionalIndex.mem_removeBlocks.mp hm
    exact hx ▸ ha h pe hl
  have hd : { x | ∃ ep ∈ (p.removed ev).1, ep.prefixHash = x } =
      bytes '' { ph | ∃ h, decide (h ∈ ev.blockHashes) ∧ p.named h = some ph } := by
    ext x
    simp only [PositionalIndex.removed, PositionalIndex.mem_removeBlocks, PositionalIndex.named]
    constructor
    case mp =>
      rintro ⟨_, ⟨h, hh, pe, hl, rfl⟩, rfl⟩
      exact ⟨pe.prefixHash, ⟨h, decide_eq_true hh, by rw [hl]; rfl⟩, rfl⟩
    case mpr =>
      rintro ⟨_, ⟨h, hh, hl⟩, rfl⟩
      obtain ⟨pe, hp, rfl⟩ := Option.map_eq_some_iff.mp hl
      exact ⟨_, ⟨h, of_decide_eq_true hh, pe, hp, rfl⟩, rfl⟩
  rw [hashes_evictions hk he, hi, hd, ← Set.image_sdiff bytes_injective, PositionalIndex.named_removed,
    bytes_injective.image_injective.eq_iff, Table.values_sdiff_eq_drop_iff]
  simp only [decide_eq_true_eq]
  rfl

end Step

section Event

-- Without adapters the reporter does not drop an event on their account.
def BaseModel : Subscriber.Event → Prop
  | .blockStored ev   => ev.loraID = none
  | .blockRemoved _   => True
  | .allBlocksCleared => True

theorem pos_onEvent (h2 : r.l2TierPresent = false) (hb : BaseModel ev) :
    (v.onEvent r hashSeed ev).pos = v.pos.step hashSeed (callOf ev) := by
  cases ev
  case blockStored ev => rw [View.onEvent, onStored_eq hb]; rfl
  case blockRemoved ev => rw [View.onEvent, onRemoved_eq h2]; rfl
  case allBlocksCleared => rfl

theorem Scoped.event (hs : r.cfg.hashScheme ≠ []) (h2 : r.l2TierPresent = false) (hb : BaseModel ev)
    (h : Scoped r.cfg v) : Scoped r.cfg (v.onEvent r hashSeed ev) := by
  cases ev
  case blockStored ev =>
    rw [View.onEvent, onStored_eq hb]
    constructor
    case adapters =>
      intro x pe hl
      simp only [PositionalIndex.stored_eq_storeBlocks] at hl
      exact PositionalIndex.adapter_storeBlocks h.adapters hl
    case keys =>
      intro key hk
      simp only [keys_writes hs] at hk
      cases hk
      case inl hk => exact h.keys key hk
      case inr hk =>
        obtain ⟨x, _, he⟩ := List.mem_map.mp hk
        exact he ▸ by simp [keyOf, clears]
  case blockRemoved ev =>
    rw [View.onEvent, onRemoved_eq h2]
    constructor
    case adapters =>
      intro x pe hl
      simp only [PositionalIndex.removed, PositionalIndex.lookup_removeBlocks] at hl
      split at hl
      case isTrue => cases hl
      case isFalse => exact h.adapters x pe hl
    case keys =>
      intro key hk
      simp only [Table.keys_foldl_drop] at hk
      exact h.keys key hk.1
  case allBlocksCleared =>
    constructor
    case adapters => intro x pe hl; cases hl
    case keys =>
      intro key hk
      simp only [View.onEvent, Table.keys_drop] at hk
      exact h.keys key hk.1

-- One event keeps the two in step exactly if it takes no hash from one of its blocks only.
theorem hashes_event_iff (hs : r.cfg.hashScheme ≠ []) (h2 : r.l2TierPresent = false) (hb : BaseModel ev)
    (h : Scoped r.cfg v) (hi : hashes v.table = bytes '' v.pos.named.values) :
    hashes (v.onEvent r hashSeed ev).table = bytes '' (v.onEvent r hashSeed ev).pos.named.values ↔
      Keeps hashSeed v.pos ev := by
  cases ev
  case blockStored ev =>
    rw [View.onEvent, onStored_eq hb]
    exact hashes_stored_iff hs hi
  case blockRemoved ev =>
    rw [View.onEvent, onRemoved_eq h2]
    exact hashes_removed_iff h.keys h.adapters hi
  case allBlocksCleared =>
    refine iff_of_true ?_ trivial
    have hk : (v.table.drop (clears r.cfg)).keys = ∅ := by
      rw [Table.keys_drop, Set.sdiff_eq_empty]
      exact h.keys
    rw [View.onEvent, hashes, hk, PositionalIndex.cleared, PositionalIndex.named_new, Table.values_empty,
      Set.image_empty, Set.image_empty]

theorem hashes_events_iff {events : List Subscriber.Event} (hs : r.cfg.hashScheme ≠ [])
    (h2 : r.l2TierPresent = false) (hb : ∀ ev ∈ events, BaseModel ev) (h : Scoped r.cfg v)
    (hi : hashes v.table = bytes '' v.pos.named.values) :
    (∀ events', events' <+: events →
      hashes (events'.foldl (View.onEvent r hashSeed) v).table =
        bytes '' (events'.foldl (View.onEvent r hashSeed) v).pos.named.values) ↔
      KeepsAll hashSeed v.pos events := by
  induction events generalizing v
  case nil =>
    refine iff_of_true (fun events' he => ?_) trivial
    rw [List.prefix_nil.mp he]
    exact hi
  case cons ev events ih =>
    have hev := hb ev (.head _)
    have hw : Scoped r.cfg (v.onEvent r hashSeed ev) := h.event hs h2 hev
    have hstep := @hashes_event_iff r hashSeed v ev hs h2 hev h hi
    have hrest := fun hi => ih (fun ev hm => hb ev (.tail _ hm)) hw hi
    rw [KeepsAll, ← pos_onEvent (v := v) h2 hev]
    constructor
    case mp =>
      intro hp
      have hi' := hp [ev] ⟨events, rfl⟩
      refine ⟨hstep.mp hi', (hrest hi').mp fun events' he => ?_⟩
      exact hp (ev :: events') (List.cons_prefix_cons.mpr ⟨rfl, he⟩)
    case mpr =>
      intro ⟨hk, hks⟩ events' he
      cases List.prefix_cons_iff.mp he
      case inl hn => exact hn ▸ hi
      case inr ht =>
        obtain ⟨t, rfl, ht⟩ := ht
        exact (hrest (hstep.mpr hk)).mpr hks t ht

end Event

section Run

def View.empty : View :=
  ⟨.new, .empty⟩

theorem hashes_empty : hashes View.empty.table = bytes '' View.empty.pos.named.values := by
  rw [hashes, View.empty, PositionalIndex.named_new, Table.keys_empty, Table.values_empty, Set.image_empty,
    Set.image_empty]

theorem Scoped.empty : Scoped c .empty := by
  constructor
  case keys => intro key hk; cases hk
  case adapters => intro h pe hl; cases hl

theorem after_eq {inputs : List (Input F)} : View.after r hashSeed v (batchesOf inputs) =
    (inputs.flatMap eventsOf).foldl (View.onEvent r hashSeed) v := by
  rw [← foldl_onInput]
  induction inputs generalizing v
  case nil => rfl
  case cons x inputs hi =>
    rw [List.foldl_cons, hi, List.flatMap_cons, List.foldl_append]
    cases x <;> rfl

theorem inStep_run_iff {inputs : List (Input F)} (hi : ∀ key, i.entryAt key r.cfg.replicaID = none)
    (hv : Runs (Serves cfg) i (r.run hashSeed inputs) i') :
    InStep r.cfg (positions r hashSeed inputs) i' ↔
      hashes ((inputs.flatMap eventsOf).foldl (View.onEvent r hashSeed) .empty).table =
        bytes '' ((inputs.flatMap eventsOf).foldl (View.onEvent r hashSeed) .empty).pos.named.values := by
  have he : contents r.cfg i = .empty := by
    funext key
    rw [contents, hi, Option.map_none, Table.empty]
  obtain ⟨j, hj, _⟩ := Runs.append_iff.mp hv
  rw [inStep_iff_hashes, contents_run hv, positions, (Shows.run hj).pos, after_eq, he, View.empty]

theorem runs_of_tenant (r : Reporter) (hashSeed : Bytes → UInt64 → UInt64) (inputs : List (Input F))
    (ht : r.cfg.tenantID ≠ Server.probeTenantID) :
    ∃ i', Runs (Serves (.new 0 0 .default [])) .new (r.run hashSeed inputs) i' := by
  have he : (Env.still 0).quotaResolver = none := rfl
  exact ⟨_, runs_of_unlimited le_rfl he fun rpc hm => (tenantOf_run rpc hm).trans_ne ht⟩

end Run

theorem inStep_iff (r : Reporter) (hashSeed : Bytes → UInt64 → UInt64) (events : List Subscriber.Event)
    (hc : r.cfg.validate = .ok ()) (ht : r.cfg.tenantID ≠ Server.probeTenantID)
    (h2 : r.l2TierPresent = false) (hb : ∀ ev ∈ events, BaseModel ev) :
    (∀ (cfg : Config F) (i i' : Index F) (inputs : List (Input F)), inputs.flatMap eventsOf <+: events →
      (∀ key, i.entryAt key r.cfg.replicaID = none) → Runs (Serves cfg) i (r.run hashSeed inputs) i' →
      InStep r.cfg (positions r hashSeed inputs) i') ↔
    KeepsAll hashSeed .new events := by
  have hw : KeepsAll hashSeed View.empty.pos events ↔ KeepsAll hashSeed .new events := .rfl
  rw [← hw, ← hashes_events_iff (hashScheme_of_validate hc) h2 hb .empty hashes_empty]
  constructor
  case mpr => exact fun h cfg i i' inputs hp hi hv => (inStep_run_iff hi hv).mpr (h _ hp)
  case mp =>
    intro h events' hp
    let inputs : List (Input F) := [.batch ⟨0, events'⟩]
    have he : inputs.flatMap eventsOf = events' := List.append_nil _
    have hi : ∀ key, (Index.new : Index F).entryAt key r.cfg.replicaID = none := fun _ => rfl
    have ⟨i', hv⟩ := runs_of_tenant r hashSeed inputs ht
    exact he ▸ (inStep_run_iff hi hv).mp (h _ _ i' inputs (he.symm ▸ hp) hi hv)

section

-- Two blocks of different tokens, one of which is removed again.
def storedPair : BlockStored :=
  ⟨[[1], [2]], none, [1, 2, 3, 4], 2, none⟩

theorem derived_storedPair : PositionalIndex.new.derived polynomial storedPair =
    [([1], 1140342829732310), ([2], 8216453170964446867)] := by
  decide +kernel

theorem keepsAll_storeThenRemove : KeepsAll polynomial .new (storeThenRemove.flatMap eventsOf) := by
  have hs : Keeps polynomial .new (.blockStored storedPair) := by
    intro ph ⟨h, hp⟩
    rw [derived_storedPair, PositionalIndex.named_new] at hp
    rw [derived_storedPair]
    simp only [Table.empty, reduceCtorEq, List.mem_cons, Prod.mk.injEq, List.not_mem_nil, or_false,
      false_or] at hp
    cases hp
    case inl hp => exact ⟨[1], hp.2 ▸ rfl⟩
    case inr hp => exact ⟨[2], hp.2 ▸ rfl⟩
  have hr : Keeps polynomial (PositionalIndex.new.stored polynomial storedPair []).2
      (.blockRemoved ⟨[[2]]⟩) := by
    intro h h' ph hh hn hn'
    rw [PositionalIndex.named_stored, derived_storedPair] at hn hn'
    simp only [List.mem_singleton] at hh ⊢
    subst hh
    simp only [Table.putAll, List.foldl_cons, List.foldl_nil, Table.put, Table.empty,
      PositionalIndex.named_new] at hn hn'
    grind
  exact ⟨hs, hr, trivial⟩

theorem inStep_iff_storeThenRemove :
    KeepsAll polynomial .new (storeThenRemove.flatMap eventsOf) ∧
    ((∀ (cfg : Config ℚ) (i i' : Index ℚ) (inputs : List (Input ℚ)),
      inputs.flatMap eventsOf <+: storeThenRemove.flatMap eventsOf →
      (∀ key, i.entryAt key replica.cfg.replicaID = none) →
      Runs (Serves cfg) i (replica.run polynomial inputs) i' →
      InStep replica.cfg (positions replica polynomial inputs) i') ↔
    KeepsAll polynomial .new (storeThenRemove.flatMap eventsOf)) :=
  ⟨keepsAll_storeThenRemove, inStep_iff replica polynomial _ rfl (by decide) rfl
    (by simp [storeThenRemove, eventsOf, BaseModel])⟩

-- Two blocks of the same tokens, of which one is removed again.
def twins : List Subscriber.Event :=
  [.blockStored ⟨[[1]], none, [1, 2], 2, none⟩, .blockStored ⟨[[2]], none, [1, 2], 2, none⟩,
    .blockRemoved ⟨[[1]]⟩]

-- A block that is stored once more, for other tokens.
def reused : List Subscriber.Event :=
  [.blockStored ⟨[[1]], none, [1, 2], 2, none⟩, .blockStored ⟨[[1]], none, [3, 4], 2, none⟩]

def oneBatch (events : List Subscriber.Event) : List (Input ℚ) :=
  [.batch ⟨(1 : ℚ), events⟩]

def indexAfter (events : List Subscriber.Event) : Index ℚ :=
  servedBy (replica.run polynomial (oneBatch events))

theorem runs_indexAfter {events : List Subscriber.Event} :
    Runs (Serves unlimited) .new (replica.run polynomial (oneBatch events)) (indexAfter events) :=
  runs_of_unlimited le_rfl rfl fun _ hm => (tenantOf_run _ hm).trans_ne (by decide)

omit [GoFloat F] in
theorem not_inStep_of_block {h : Bytes} {pe : Subscriber.PosEntry} (hl : p.blocks.lookup h = some pe)
    (hk : i.prefixes.keys = ∅) : ¬InStep c p i := by
  intro hs
  have hm : bytes pe.prefixHash ∈ { x | ∃ h pe, p.blocks.lookup h = some pe ∧ bytes pe.prefixHash = x } :=
    ⟨h, pe, hl, rfl⟩
  obtain ⟨key, he, _⟩ := hs ▸ hm
  have ⟨_, he⟩ := Option.isSome_iff_exists.mp he
  exact Finset.notMem_empty _ (hk ▸ Index.mem_keys_of_entryAt he)

omit [GoFloat F] in
theorem not_inStep_of_key {key : PrefixKey} (he : (i.entryAt key c.replicaID).isSome)
    (hp : ∀ h ∈ p.blocks.keys, ∀ pe ∈ p.blocks.lookup h, bytes pe.prefixHash ≠ key.prefixHash) :
    ¬InStep c p i := by
  intro hs
  have hm : key.prefixHash ∈ { x | ∃ key, (i.entryAt key c.replicaID).isSome ∧ key.prefixHash = x } :=
    ⟨key, he, rfl⟩
  obtain ⟨h, pe, hl, hx⟩ := hs ▸ hm
  exact hp h (Finmap.mem_keys_of_lookup hl) pe hl hx

-- A block that is left is not indexed, and a hash that no block has any more still is.
theorem outOfStep :
    (Runs (Serves unlimited) .new (replica.run polynomial (oneBatch twins)) (indexAfter twins) ∧
      ¬InStep replica.cfg (positions replica polynomial (oneBatch twins)) (indexAfter twins)) ∧
    (Runs (Serves unlimited) .new (replica.run polynomial (oneBatch reused)) (indexAfter reused) ∧
      ¬InStep replica.cfg (positions replica polynomial (oneBatch reused)) (indexAfter reused)) := by
  have hb : ((positions replica polynomial (oneBatch twins)).blocks.lookup [2]).isSome := by decide +kernel
  have hk : ∃ key ∈ (indexAfter reused).prefixes.keys,
      ((indexAfter reused).entryAt key replica.cfg.replicaID).isSome ∧
      ∀ h ∈ (positions replica polynomial (oneBatch reused)).blocks.keys,
        ∀ pe ∈ (positions replica polynomial (oneBatch reused)).blocks.lookup h,
          bytes pe.prefixHash ≠ key.prefixHash := by decide +kernel
  have ⟨pe, hl⟩ := Option.isSome_iff_exists.mp hb
  have ⟨key, _, he, hp⟩ := hk
  exact ⟨⟨runs_indexAfter, not_inStep_of_block hl (by decide +kernel)⟩,
    ⟨runs_indexAfter, not_inStep_of_key he hp⟩⟩

end

end InferenceCache.EndToEnd
