import InferenceCache.EndToEnd.Batching
import InferenceCache.EndToEnd.Engine
import InferenceCache.Subscriber.Theorems.Positional

namespace InferenceCache.EndToEnd

open Fingerprint Server
open Subscriber (posEntryOf prefixEntryOf PositionalIndex Reporter BlockStored BlockRemoved)

variable {F : Type} [GoFloat F]

section Holds

variable {cfg : Config F} {c : Subscriber.Config} {i i' : Index F} {key : PrefixKey}
variable {pending l : List Wire.PrefixEntry}

-- The keys under which a replica is found, once what is pending has been sent.
def holds (c : Subscriber.Config) (i : Index F) (pending : List Wire.PrefixEntry) : Set PrefixKey :=
  { key | key.modelKey = ⟨c.tenantID, c.modelID⟩ ∧
    ((i.entryAt key c.replicaID).isSome ∨ key ∈ pending.map (keyOf c)) }

omit [GoFloat F] in
theorem holds_eq (hs : c.hashScheme ≠ []) :
    holds c i pending = { key | key.modelKey = ⟨c.tenantID, c.modelID⟩ } ∩ (view c i pending).keys := by
  rw [view, keys_writes hs]
  ext key
  simp [holds, Table.keys, contents]

end Holds

section Mirrors

variable {cfg : Config F} {r : Reporter} {i i' : Index F} {st : Reporter.State} {e e' : Engine}
variable {hashSeed : Bytes → UInt64 → UInt64} {bs : Int32} {nm : Naming} {h : Bytes}

def blockKey (hashSeed : Bytes → UInt64 → UInt64) (bs : Int32) (nm : Naming) (c : Subscriber.Config)
    (h : Bytes) : PrefixKey :=
  keyOf c (prefixEntryOf hashSeed bs.toInt.toNat [] (nm.prefixOf h))

theorem blockKey_injective {c : Subscriber.Config} {h' : Bytes}
    (hd : Set.InjOn (prefixHash hashSeed bs.toInt.toNat) (nm.prefixOf '' nm.names))
    (hn : h ∈ nm.names) (hn' : h' ∈ nm.names)
    (he : (blockKey hashSeed bs nm c h).prefixHash = (blockKey hashSeed bs nm c h').prefixHash) :
    h = h' :=
  nm.injOn hn hn' <| hd ⟨h, hn, rfl⟩ ⟨h', hn', rfl⟩ <| bytes_injective he

-- How the engine, the reporter and the index relate between two events. The reporter knows exactly
-- the resident blocks, and exactly these are in the index or on the way to it.
structure Mirrors (hashSeed : Bytes → UInt64 → UInt64) (bs : Int32) (nm : Naming)
    (c : Subscriber.Config) (e : Engine) (st : Reporter.State) (i : Index F) : Prop where
  subset : e.resident ⊆ e.announced
  named  : ∀ h ∈ e.announced, h ∈ nm.names ∧ bs.toInt.toNat ≤ (nm.prefixOf h).length ∧
    bs.toInt.toNat ∣ (nm.prefixOf h).length
  blocks : ∀ h, st.pos.blocks.lookup h =
    if h ∈ e.resident then some (posEntryOf hashSeed bs.toInt.toNat [] (nm.prefixOf h)) else none
  plain  : ∀ x ∈ st.pending, Plain x
  holds  : holds c i st.pending = blockKey hashSeed bs nm c '' e.resident

namespace Mirrors

omit [GoFloat F] in
theorem shows (hm : Mirrors hashSeed bs nm r.cfg e st i) :
    Shows r ⟨st.pos, view r.cfg i st.pending⟩ st i :=
  ⟨rfl, hm.plain, rfl⟩

omit [GoFloat F] in
theorem keys (hs : r.cfg.hashScheme ≠ []) (hm : Mirrors hashSeed bs nm r.cfg e st i) :
    { key | key.modelKey = ⟨r.cfg.tenantID, r.cfg.modelID⟩ } ∩ (view r.cfg i st.pending).keys =
      blockKey hashSeed bs nm r.cfg '' e.resident :=
  holds_eq hs ▸ hm.holds

-- It makes no difference what of it is still on the way.
omit [GoFloat F] in
theorem of_shows {v : View} (hs : r.cfg.hashScheme ≠ []) (hsh : Shows r v st i)
    (hsub : e.resident ⊆ e.announced)
    (hn : ∀ h ∈ e.announced, h ∈ nm.names ∧ bs.toInt.toNat ≤ (nm.prefixOf h).length ∧
      bs.toInt.toNat ∣ (nm.prefixOf h).length)
    (hb : ∀ h, v.pos.blocks.lookup h =
      if h ∈ e.resident then some (posEntryOf hashSeed bs.toInt.toNat [] (nm.prefixOf h)) else none)
    (hk : { key | key.modelKey = ⟨r.cfg.tenantID, r.cfg.modelID⟩ } ∩ v.table.keys =
      blockKey hashSeed bs nm r.cfg '' e.resident) : Mirrors hashSeed bs nm r.cfg e st i where
  subset := hsub
  named := hn
  blocks := hsh.pos ▸ hb
  plain := hsh.plain
  holds := by rw [holds_eq hs, hsh.table, hk]

theorem flush (hs : r.cfg.hashScheme ≠ []) (hm : Mirrors hashSeed bs nm r.cfg e st i)
    (hv : Runs (Serves cfg) i (r.flush st).1 i') :
    Mirrors hashSeed bs nm r.cfg e (r.flush (F := F) st).2 i' :=
  .of_shows hs (hm.shows.flush hv) hm.subset hm.named hm.blocks (hm.keys hs)

omit [GoFloat F] in
theorem goesOn {ev : BlockStored} (hm : Mirrors hashSeed bs nm r.cfg e st i)
    (hst : e.Stores bs nm ev) :
    PositionalIndex.GoesOn hashSeed bs.toInt.toNat st.pos ev (e.base nm ev) := by
  cases hp : ev.parentBlockHash
  case none =>
    rw [Engine.base, hp]
    exact .root (by rw [PositionalIndex.parent, hp]; rfl)
  case some h =>
    have hl : st.pos.parent ev = st.pos.blocks.lookup h := by rw [PositionalIndex.parent, hp]; rfl
    rw [hm.blocks] at hl
    simp only [Engine.base, hp]
    split
    case isTrue ha =>
      obtain ⟨_, hle, hd⟩ := hm.named h ha
      exact .block [] _ (by rw [hl, if_pos (hst.parent h hp ha)]) hle hd
    case isFalse ha => exact .root (by rw [hl, if_neg fun hr => ha (hm.subset hr)])

theorem stored {ev : BlockStored} {tsUs : Int} (hb : 0 < bs.toInt) (hs : r.cfg.hashScheme ≠ [])
    (hm : Mirrors hashSeed bs nm r.cfg e st i) (hst : e.Stores bs nm ev)
    (hv : Runs (Serves cfg) i (r.onStored hashSeed tsUs st ev).1 i') :
    Mirrors hashSeed bs nm r.cfg
      ⟨e.resident ∪ ev.blockHashes.toFinset, e.announced ∪ ev.blockHashes.toFinset⟩
      (r.onStored (F := F) hashSeed tsUs st ev).2 i' := by
  obtain ⟨rfl, hbm, hl, hp, hn, hx⟩ := id hst
  have hg := hm.goesOn hst
  have he := PositionalIndex.stored_eq (a := []) hb hl hg
  rw [← hx, List.map_map, List.map_map, ← List.map_prod_left_eq_zip] at he
  have hsh := hm.shows.stored hv
  rw [onStored_eq hbm] at hsh
  apply of_shows hs hsh
  case hsub => exact Finset.union_subset_union_left hm.subset
  case hn =>
    intro h ha
    cases Finset.mem_union.mp ha
    case inl ha => exact hm.named h ha
    case inr ha =>
      have hh := List.mem_toFinset.mp ha
      have ht : nm.prefixOf h ∈ extensions ev.blockSize.toInt.toNat (e.base nm ev) ev.tokenIDs :=
        hx ▸ List.mem_map_of_mem hh
      exact ⟨hn h hh, le_length_of_mem_extensions ht, dvd_length_of_mem_extensions hg.dvd_length ht⟩
  case hb =>
    intro h
    rw [he, PositionalIndex.lookup_insertAll_map, hm.blocks]
    by_cases hh : h ∈ ev.blockHashes <;> simp [hh]
  case hk =>
    rw [he, keys_writes hs, Set.inter_union_distrib_left, hm.keys hs, Finset.coe_union, Set.image_union]
    congr 1
    ext key
    simp only [List.map_map, Set.mem_inter_iff, Set.mem_ofPred_eq, List.mem_map]
    constructor
    case mp => exact fun ⟨_, h, hh, hk⟩ => ⟨h, List.mem_toFinset.mpr hh, hk⟩
    case mpr => exact fun ⟨h, hh, hk⟩ => ⟨hk ▸ rfl, h, List.mem_toFinset.mp hh, hk⟩

omit [GoFloat F] in
theorem mem_removed_iff {ev : BlockRemoved} {ep : Subscriber.EvictedPrefix}
    (hm : Mirrors hashSeed bs nm r.cfg e st i) :
    ep ∈ (st.pos.removed ev).1 ↔ ∃ h ∈ ev.blockHashes, h ∈ e.resident ∧
      ep = ⟨bytes (prefixHash hashSeed bs.toInt.toNat (nm.prefixOf h)), [],
        Int32.ofNat (nm.prefixOf h).length⟩ := by
  rw [PositionalIndex.removed, PositionalIndex.mem_removeBlocks]
  refine exists_congr fun h => and_congr_right fun _ => ?_
  rw [hm.blocks]
  by_cases hr : h ∈ e.resident <;> simp [hr, posEntryOf, eq_comm]

-- A block goes with its entry, and no other entry goes with it.
omit [GoFloat F] in
theorem evicts_iff {ev : BlockRemoved}
    (hd : Set.InjOn (prefixHash hashSeed bs.toInt.toNat) (nm.prefixOf '' nm.names))
    (hm : Mirrors hashSeed bs nm r.cfg e st i) (hr : h ∈ e.resident) :
    (∃ ep ∈ (st.pos.removed ev).1, evicts r.cfg ep (blockKey hashSeed bs nm r.cfg h)) ↔
      h ∈ ev.blockHashes := by
  constructor
  case mp =>
    intro ⟨ep, hep, hx⟩
    obtain ⟨h', hh', hr', rfl⟩ := hm.mem_removed_iff.mp hep
    simp only [evicts, decide_eq_true_eq] at hx
    have hn := hm.named h (hm.subset hr) |>.1
    have hn' := hm.named h' (hm.subset hr') |>.1
    exact blockKey_injective hd hn hn' hx.2.2.1 ▸ hh'
  case mpr =>
    intro hh
    exact ⟨_, hm.mem_removed_iff.mpr ⟨h, hh, hr, rfl⟩, by simp [evicts, blockKey, keyOf, prefixEntryOf]⟩

theorem removed {ev : BlockRemoved} {tsSeconds : GoFloat.Double F} (hs : r.cfg.hashScheme ≠ [])
    (h2 : r.l2TierPresent = false)
    (hd : Set.InjOn (prefixHash hashSeed bs.toInt.toNat) (nm.prefixOf '' nm.names))
    (hm : Mirrors hashSeed bs nm r.cfg e st i)
    (hv : Runs (Serves cfg) i (r.onRemoved tsSeconds st ev).1 i') :
    Mirrors hashSeed bs nm r.cfg ⟨e.resident \ ev.blockHashes.toFinset, e.announced⟩
      (r.onRemoved tsSeconds st ev).2 i' := by
  have hsh := hm.shows.removed hv
  rw [onRemoved_eq h2] at hsh
  apply of_shows hs hsh
  case hsub => exact Finset.sdiff_subset.trans hm.subset
  case hn => exact hm.named
  case hb =>
    intro h
    dsimp only [PositionalIndex.removed]
    rw [PositionalIndex.lookup_removeBlocks, hm.blocks]
    by_cases hh : h ∈ ev.blockHashes <;> simp [hh]
  case hk =>
    rw [Table.keys_foldl_drop, ← Set.inter_sdiff_assoc, hm.keys hs]
    ext key
    constructor
    case mp =>
      rintro ⟨⟨h, hr, rfl⟩, hk⟩
      refine ⟨h, Finset.mem_sdiff.mpr ⟨hr, fun hh => hk ?_⟩, rfl⟩
      exact (hm.evicts_iff hd hr).mpr <| List.mem_toFinset.mp hh
    case mpr =>
      rintro ⟨h, hr, rfl⟩
      obtain ⟨hr, hne⟩ := Finset.mem_sdiff.mp hr
      exact ⟨⟨h, hr, rfl⟩, fun hk => hne <| List.mem_toFinset.mpr <| (hm.evicts_iff hd hr).mp hk⟩

theorem cleared {tsSeconds : GoFloat.Double F} (hs : r.cfg.hashScheme ≠ [])
    (hm : Mirrors hashSeed bs nm r.cfg e st i)
    (hv : Runs (Serves cfg) i (r.onCleared tsSeconds st).1 i') :
    Mirrors hashSeed bs nm r.cfg ⟨∅, e.announced⟩ (r.onCleared tsSeconds st).2 i' := by
  have hsh : Shows r (View.onEvent r hashSeed _ .allBlocksCleared) _ i' := hm.shows.cleared hv
  apply of_shows hs hsh
  case hsub => exact Finset.empty_subset _
  case hn => exact hm.named
  case hb => simp [View.onEvent, PositionalIndex.cleared, PositionalIndex.new]
  case hk =>
    rw [View.onEvent, Table.keys_drop, Finset.coe_empty, Set.image_empty]
    ext key
    simp only [clears, PrefixKey.modelKey]
    simp +contextual

theorem event {ev : Subscriber.Event} {tsSeconds : GoFloat.Double F} (hb : 0 < bs.toInt)
    (hs : r.cfg.hashScheme ≠ []) (h2 : r.l2TierPresent = false)
    (hd : Set.InjOn (prefixHash hashSeed bs.toInt.toNat) (nm.prefixOf '' nm.names))
    (hm : Mirrors hashSeed bs nm r.cfg e st i) (he : e.Step bs nm ev e')
    (hv : Runs (Serves cfg) i (r.onEvent hashSeed tsSeconds st ev).1 i') :
    Mirrors hashSeed bs nm r.cfg e' (r.onEvent hashSeed tsSeconds st ev).2 i' := by
  cases he
  case stored hst => exact hm.stored hb hs hst hv
  case removed => exact hm.removed hs h2 hd hv
  case cleared => exact hm.cleared hs hv

end Mirrors

theorem Mirrors.input {x : Subscriber.Input F} (hb : 0 < bs.toInt) (hs : r.cfg.hashScheme ≠ [])
    (h2 : r.l2TierPresent = false)
    (hd : Set.InjOn (prefixHash hashSeed bs.toInt.toNat) (nm.prefixOf '' nm.names))
    (hm : Mirrors hashSeed bs nm r.cfg e st i) (he : Runs (Engine.Step bs nm) e (eventsOf x) e')
    (hv : Runs (Serves cfg) i (r.onInput hashSeed st x).1 i') :
    Mirrors hashSeed bs nm r.cfg e' (r.onInput hashSeed st x).2 i' := by
  cases x
  case batch b => exact Runs.simulates (event hb hs h2 hd) hm he hv
  case tick => exact Runs.nil_iff.mp he ▸ hm.flush hs hv

omit [GoFloat F] in
theorem Mirrors.init (hi : ∀ key, key.modelKey = ⟨r.cfg.tenantID, r.cfg.modelID⟩ →
    i.entryAt key r.cfg.replicaID = none) : Mirrors hashSeed bs nm r.cfg .init .init i where
  subset := Finset.empty_subset _
  named := by simp [Engine.init]
  blocks := by simp [Reporter.State.init, PositionalIndex.new, Engine.init]
  plain := by simp [Reporter.State.init]
  holds := by
    ext key
    simp only [EndToEnd.holds, Reporter.State.init, Engine.init]
    simpa using hi key

-- After the last flush of a run, the index holds what the engine holds.
theorem holds_run {inputs : List (Subscriber.Input F)} (hb : 0 < bs.toInt) (hs : r.cfg.hashScheme ≠ [])
    (h2 : r.l2TierPresent = false)
    (hd : Set.InjOn (prefixHash hashSeed bs.toInt.toNat) (nm.prefixOf '' nm.names))
    (hi : ∀ key, key.modelKey = ⟨r.cfg.tenantID, r.cfg.modelID⟩ → i.entryAt key r.cfg.replicaID = none)
    (he : Runs (Engine.Step bs nm) .init (inputs.flatMap eventsOf) e)
    (hv : Runs (Serves cfg) i (r.run hashSeed inputs) i') :
    (∀ h ∈ e.resident, h ∈ nm.names) ∧ holds r.cfg i' [] = blockKey hashSeed bs nm r.cfg '' e.resident := by
  have ⟨j, hr, hf⟩ := Runs.append_iff.mp hv
  have hm := Runs.simulates (Mirrors.input hb hs h2 hd) (.init hi) (Runs.flatMap_iff.mp he) hr
  have hm' := hm.flush hs hf
  exact ⟨fun h hh => (hm'.named h (hm'.subset hh)).1, by rw [← hm'.holds, flush_pending]⟩

end Mirrors

end InferenceCache.EndToEnd
