import InferenceCache.EndToEnd.Contents
import InferenceCache.Fingerprint.Theorems

-- What is buffered on the way to the index, and when it is sent, makes no difference in the end.
namespace InferenceCache.EndToEnd

open Fingerprint (polynomial)
open Subscriber (PositionalIndex Reporter BlockStored BlockRemoved EventBatch Input)

variable {F : Type} [GoFloat F]

-- What the events of an engine come to for the reporter's own index and for the one it reports to.
structure View where
  pos   : PositionalIndex
  table : Table PrefixKey (Int32 × CacheTier)

namespace View

variable (r : Reporter) (hashSeed : Bytes → UInt64 → UInt64) (v : View)

def onStored (ev : BlockStored) : View :=
  match r.cfg.adapterID ev.loraID with
  | none           => v
  | some adapterID =>
    let st := v.pos.stored hashSeed ev adapterID
    ⟨st.2, v.table.putAll (writes r.cfg st.1)⟩

def onRemoved (ev : BlockRemoved) : View :=
  let rm := v.pos.removed ev
  if r.l2TierPresent then ⟨rm.2, v.table.putAll (writes r.cfg (rm.1.map Reporter.downgrade))⟩
  else ⟨rm.2, rm.1.foldl (fun m ep => m.drop (evicts r.cfg ep)) v.table⟩

def onEvent : Subscriber.Event → View
  | .blockStored ev   => v.onStored r hashSeed ev
  | .blockRemoved ev  => v.onRemoved r ev
  | .allBlocksCleared => ⟨v.pos.cleared, v.table.drop (clears r.cfg)⟩

end View

section View

variable {r : Reporter} {hashSeed : Bytes → UInt64 → UInt64} {v : View} {c : Subscriber.Config}
variable {m : Table PrefixKey (Int32 × CacheTier)} {l : List Wire.PrefixEntry}

theorem onStored_eq {ev : BlockStored} (hb : ev.loraID = none) : v.onStored r hashSeed ev =
    ⟨(v.pos.stored hashSeed ev []).2, v.table.putAll (writes r.cfg (v.pos.stored hashSeed ev []).1)⟩ := by
  rw [View.onStored, hb]
  rfl

theorem onRemoved_eq {ev : BlockRemoved} (h2 : r.l2TierPresent = false) : v.onRemoved r ev =
    ⟨(v.pos.removed ev).2, (v.pos.removed ev).1.foldl (fun m ep => m.drop (evicts r.cfg ep)) v.table⟩ := by
  simp only [View.onRemoved, h2, Bool.false_eq_true, if_false]

theorem keys_writes (hs : c.hashScheme ≠ []) :
    (m.putAll (writes c l)).keys = m.keys ∪ { key | key ∈ l.map (keyOf c) } := by
  rw [Table.keys_putAll, writes, if_neg hs, List.map_map]
  rfl

end View

section Direct

variable (r : Reporter) (hashSeed : Bytes → UInt64 → UInt64)

-- A reporter without a buffer, which sends the effect of each event at once.
def sendEvent (tsSeconds : GoFloat.Double F) (pos : PositionalIndex) :
    Subscriber.Event → List (Wire.Rpc F) × PositionalIndex
  | .blockStored ev   =>
    match r.cfg.adapterID ev.loraID with
    | none           => ([], pos)
    | some adapterID =>
      let st := pos.stored hashSeed ev adapterID
      (r.sendAdds st.1 (Subscriber.microsFromSeconds tsSeconds), st.2)
  | .blockRemoved ev  =>
    let rm := pos.removed ev
    if r.l2TierPresent then
      (r.sendAdds (rm.1.map Reporter.downgrade) (Subscriber.microsFromSeconds tsSeconds), rm.2)
    else
      (rm.1.map fun ep => .publishEvent (r.cfg.evictedEvent ep.prefixHash ep.adapterID tsSeconds), rm.2)
  | .allBlocksCleared => ([.publishEvent (r.cfg.clearedEvent tsSeconds)], pos.cleared)

def sendBatch (pos : PositionalIndex) (b : EventBatch F) : List (Wire.Rpc F) × PositionalIndex :=
  emitAll (sendEvent r hashSeed b.timestampSeconds) pos b.events

def sendAll (batches : List (EventBatch F)) : List (Wire.Rpc F) :=
  (emitAll (sendBatch r hashSeed) .new batches).1

end Direct

variable {cfg : Config F} {r : Reporter} {hashSeed : Bytes → UInt64 → UInt64} {v : View}
variable {st : Reporter.State} {pos : PositionalIndex} {i i' : Index F} {tsSeconds : GoFloat.Double F}

section Plain

omit [GoFloat F] in
theorem plain_storeBlocks {bs tokens : Int32} {a : GoString} {l : List (Bytes × UInt64)} :
    ∀ x ∈ (PositionalIndex.storeBlocks bs a tokens l pos).1, Plain x := by
  induction l generalizing tokens pos
  case nil => simp [PositionalIndex.storeBlocks]
  case cons b l hi =>
    intro x hx
    cases List.mem_cons.mp hx
    case inl hx => exact hx ▸ ⟨rfl, rfl⟩
    case inr hx => exact hi x hx

omit [GoFloat F] in
theorem plain_stored {ev : BlockStored} {a : GoString} : ∀ x ∈ (pos.stored hashSeed ev a).1, Plain x := by
  dsimp only [PositionalIndex.stored]
  split_ifs
  case pos => simp
  case pos => simp
  case neg => exact plain_storeBlocks

omit [GoFloat F] in
theorem plain_downgrade {l : List Subscriber.EvictedPrefix} : ∀ x ∈ l.map Reporter.downgrade, Plain x := by
  intro x hx
  have ⟨_, _, he⟩ := List.mem_map.mp hx
  exact he ▸ ⟨rfl, rfl⟩

end Plain

section Buffered

-- The state of a reporter and an index, up to what is still on the way.
structure Shows (r : Reporter) (v : View) (st : Reporter.State) (i : Index F) : Prop where
  pos   : st.pos = v.pos
  plain : ∀ x ∈ st.pending, Plain x
  table : view r.cfg i st.pending = v.table

namespace Shows

theorem flush (h : Shows r v st i) (hv : Runs (Serves cfg) i (r.flush st).1 i') :
    Shows r v (r.flush (F := F) st).2 i' where
  pos := flush_pos.trans h.pos
  plain := by simp [flush_pending]
  table := by rw [flush_pending, view_nil, contents_flush h.plain hv, h.table]

theorem stored {ev : BlockStored} {tsUs : Int} (h : Shows r v st i)
    (hv : Runs (Serves cfg) i (r.onStored hashSeed tsUs st ev).1 i') :
    Shows r (v.onStored r hashSeed ev) (r.onStored (F := F) hashSeed tsUs st ev).2 i' := by
  unfold Reporter.onStored at hv ⊢
  unfold View.onStored
  cases ha : r.cfg.adapterID ev.loraID
  case none =>
    simp only [ha] at hv ⊢
    exact Runs.nil_iff.mp hv ▸ h
  case some a =>
    simp only [ha] at hv ⊢
    have hadd : Shows r
        ⟨(v.pos.stored hashSeed ev a).2, v.table.putAll (writes r.cfg (v.pos.stored hashSeed ev a).1)⟩
        ⟨(st.pos.stored hashSeed ev a).2, st.pending ++ (st.pos.stored hashSeed ev a).1,
          if 0 < tsUs then tsUs else st.pendTs⟩ i := by
      constructor
      case pos => rw [h.pos]
      case table => rw [view_append, h.table, h.pos]
      case plain =>
        intro x hx
        cases List.mem_append.mp hx
        case inl hx => exact h.plain x hx
        case inr hx => exact plain_stored x hx
    split at hv
    case isTrue hm =>
      rw [if_pos hm]
      exact hadd.flush hv
    case isFalse hm =>
      rw [if_neg hm]
      exact Runs.nil_iff.mp hv ▸ hadd

omit [GoFloat F] in
theorem forgotten (h : Shows r v st i) (pos : PositionalIndex) :
    Shows r ⟨pos, v.table⟩ { st with pos := pos } i :=
  ⟨rfl, h.plain, h.table⟩

-- What was buffered is in the index before anything else is sent.
theorem flushed (h : Shows r v st i) (hv : Runs (Serves cfg) i (r.flush st).1 i') :
    contents r.cfg i' = v.table :=
  (contents_flush h.plain hv).trans h.table

theorem removed {ev : BlockRemoved} (h : Shows r v st i)
    (hv : Runs (Serves cfg) i (r.onRemoved tsSeconds st ev).1 i') :
    Shows r (v.onRemoved r ev) (r.onRemoved tsSeconds st ev).2 i' := by
  have hf := h.forgotten (st.pos.removed ev).2
  simp only [Reporter.onRemoved] at hv ⊢
  simp only [View.onRemoved, ← h.pos]
  cases h2 : r.l2TierPresent
  case false =>
    simp only [h2, Bool.false_eq_true, if_false] at hv ⊢
    obtain ⟨j, hj, hr⟩ := Runs.append_iff.mp hv
    exact {
      pos := flush_pos
      plain := by simp [flush_pending]
      table := by rw [flush_pending, view_nil, contents_evictions hr, hf.flushed hj] }
  case true =>
    simp only [h2, if_true] at hv ⊢
    split at hv
    case isTrue hl =>
      rw [if_pos hl, List.length_eq_zero_iff.mp hl]
      have ht : v.table.putAll (writes r.cfg []) = v.table := by
        unfold writes
        split <;> rfl
      exact Runs.nil_iff.mp hv ▸ ⟨rfl, h.plain, h.table.trans ht.symm⟩
    case isFalse hl =>
      rw [if_neg hl]
      obtain ⟨j, hj, hr⟩ := Runs.append_iff.mp hv
      exact {
        pos := flush_pos
        plain := by simp [flush_pending]
        table := by rw [flush_pending, view_nil, contents_sendAdds plain_downgrade hr, view, hf.flushed hj] }

theorem cleared (h : Shows r v st i) (hv : Runs (Serves cfg) i (r.onCleared tsSeconds st).1 i') :
    Shows r (v.onEvent r hashSeed .allBlocksCleared) (r.onCleared tsSeconds st).2 i' := by
  have hc : ∀ x ∈ writes r.cfg st.pending, clears r.cfg x.1 := by
    unfold writes
    split
    case isTrue => simp
    case isFalse =>
      intro x hx
      have ⟨_, _, he⟩ := List.mem_map.mp hx
      simp [← he, keyOf, clears]
  constructor
  case pos => rfl
  case plain => simp [Reporter.onCleared]
  case table =>
    have ht : (view r.cfg i st.pending).drop (clears r.cfg) = (contents r.cfg i).drop (clears r.cfg) :=
      Table.drop_putAll hc
    rw [Reporter.onCleared, view_nil, contents_cleared (Runs.singleton_iff.mp hv), ← ht, h.table]
    rfl

theorem event {ev : Subscriber.Event} (h : Shows r v st i)
    (hv : Runs (Serves cfg) i (r.onEvent hashSeed tsSeconds st ev).1 i') :
    Shows r (v.onEvent r hashSeed ev) (r.onEvent hashSeed tsSeconds st ev).2 i' := by
  cases ev
  case blockStored => exact h.stored hv
  case blockRemoved => exact h.removed hv
  case allBlocksCleared => exact h.cleared hv

end Shows

section Runs

def batchesOf (inputs : List (Input F)) : List (EventBatch F) :=
  inputs.filterMap fun
    | .batch b => some b
    | .tick    => none

def View.after (r : Reporter) (hashSeed : Bytes → UInt64 → UInt64) (v : View)
    (batches : List (EventBatch F)) : View :=
  batches.foldl (fun v b => b.events.foldl (View.onEvent r hashSeed) v) v

def View.onInput (r : Reporter) (hashSeed : Bytes → UInt64 → UInt64) (v : View) : Input F → View
  | .batch b => b.events.foldl (View.onEvent r hashSeed) v
  | .tick    => v

theorem foldl_onInput {inputs : List (Input F)} :
    inputs.foldl (View.onInput r hashSeed) v = v.after r hashSeed (batchesOf inputs) := by
  induction inputs generalizing v
  case nil => rfl
  case cons x inputs hi => cases x <;> exact hi

theorem Shows.input {x : Input F} (h : Shows r v st i)
    (hv : Runs (Serves cfg) i (r.onInput hashSeed st x).1 i') :
    Shows r (v.onInput r hashSeed x) (r.onInput hashSeed st x).2 i' := by
  cases x
  case tick => exact h.flush hv
  case batch b => exact Runs.simulates_foldl Shows.event h hv

theorem Shows.run {inputs : List (Input F)}
    (hv : Runs (Serves cfg) i (emitAll (r.onInput hashSeed) .init inputs).1 i') :
    Shows r (View.after r hashSeed ⟨.new, contents r.cfg i⟩ (batchesOf inputs))
      (emitAll (r.onInput hashSeed) .init inputs).2 i' := by
  have hs : Shows r ⟨.new, contents r.cfg i⟩ .init i := ⟨rfl, by simp [Reporter.State.init], view_nil⟩
  rw [← foldl_onInput]
  exact Runs.simulates_foldl Shows.input hs hv

theorem contents_run {inputs : List (Input F)} (hv : Runs (Serves cfg) i (r.run hashSeed inputs) i') :
    contents r.cfg i' = (View.after r hashSeed ⟨.new, contents r.cfg i⟩ (batchesOf inputs)).table := by
  have ⟨j, hj, hf⟩ := Runs.append_iff.mp hv
  exact (Shows.run hj).flushed hf

end Runs

end Buffered

section Unbuffered

structure Sent (r : Reporter) (v : View) (pos : PositionalIndex) (i : Index F) : Prop where
  pos   : pos = v.pos
  table : contents r.cfg i = v.table

theorem Sent.event {ev : Subscriber.Event} (h : Sent r v pos i)
    (hv : Runs (Serves cfg) i (sendEvent r hashSeed tsSeconds pos ev).1 i') :
    Sent r (v.onEvent r hashSeed ev) (sendEvent r hashSeed tsSeconds pos ev).2 i' := by
  obtain ⟨rfl, ht⟩ := h
  cases ev
  case allBlocksCleared =>
    exact ⟨rfl, by rw [contents_cleared (Runs.singleton_iff.mp hv), ht]; rfl⟩
  case blockStored ev =>
    simp only [sendEvent, View.onEvent, View.onStored] at hv ⊢
    cases ha : r.cfg.adapterID ev.loraID
    case none =>
      simp only [ha] at hv ⊢
      exact ⟨rfl, Runs.nil_iff.mp hv ▸ ht⟩
    case some a =>
      simp only [ha] at hv ⊢
      exact ⟨rfl, by rw [contents_sendAdds plain_stored hv, view, ht]⟩
  case blockRemoved ev =>
    simp only [sendEvent, View.onEvent, View.onRemoved] at hv ⊢
    cases h2 : r.l2TierPresent
    case false =>
      simp only [h2, Bool.false_eq_true, if_false] at hv ⊢
      exact ⟨rfl, by rw [contents_evictions hv, ht]⟩
    case true =>
      simp only [h2, if_true] at hv ⊢
      exact ⟨rfl, by rw [contents_sendAdds plain_downgrade hv, view, ht]⟩

theorem Sent.batch {b : EventBatch F} (h : Sent r v pos i)
    (hv : Runs (Serves cfg) i (sendBatch r hashSeed pos b).1 i') :
    Sent r (b.events.foldl (View.onEvent r hashSeed) v) (sendBatch r hashSeed pos b).2 i' :=
  Runs.simulates_foldl Sent.event h hv

theorem contents_sendAll {batches : List (EventBatch F)}
    (hv : Runs (Serves cfg) i (sendAll r hashSeed batches) i') :
    contents r.cfg i' = (View.after r hashSeed ⟨.new, contents r.cfg i⟩ batches).table := by
  have hs : Sent r ⟨.new, contents r.cfg i⟩ .new i := ⟨rfl, rfl⟩
  have hw : Sent r (View.after r hashSeed ⟨.new, contents r.cfg i⟩ batches)
      (emitAll (sendBatch r hashSeed) .new batches).2 i' := Runs.simulates_foldl Sent.batch hs hv
  exact hw.table

end Unbuffered

theorem batching_unobservable (cfg : Config F) (r : Reporter) (hashSeed : Bytes → UInt64 → UInt64)
    (i j j' k : Index F) (maxPend maxPend' : Int) (inputs inputs' : List (Input F))
    (hb : batchesOf inputs' = batchesOf inputs)
    (hj : Runs (Serves cfg) i (Reporter.run { r with maxPend := maxPend } hashSeed inputs) j)
    (hj' : Runs (Serves cfg) i (Reporter.run { r with maxPend := maxPend' } hashSeed inputs') j')
    (hk : Runs (Serves cfg) i (sendAll r hashSeed (batchesOf inputs)) k) :
    contents r.cfg j = contents r.cfg j' ∧ contents r.cfg j = contents r.cfg k := by
  have hr := contents_run hj
  have hr' := contents_run hj'
  rw [hb] at hr'
  exact ⟨hr.trans hr'.symm, hr.trans (contents_sendAll hk).symm⟩

section

def withoutTick : List (Input ℚ) :=
  (batchesOf storeThenRemove).map .batch

theorem batching_unobservable_storeThenRemove :
    contents replica.cfg
        (servedBy (Reporter.run { replica with maxPend := 4096 } polynomial storeThenRemove)) =
      contents replica.cfg (servedBy (Reporter.run { replica with maxPend := 1 } polynomial withoutTick)) ∧
    contents replica.cfg
        (servedBy (Reporter.run { replica with maxPend := 4096 } polynomial storeThenRemove)) =
      contents replica.cfg (servedBy (sendAll replica polynomial (batchesOf storeThenRemove))) :=
  batching_unobservable unlimited replica polynomial .new _ _ _ 4096 1 storeThenRemove withoutTick rfl
    (runs_of_unlimited le_rfl rfl (by decide +kernel)) (runs_of_unlimited le_rfl rfl (by decide +kernel))
    (runs_of_unlimited le_rfl rfl (by decide +kernel))

end

end InferenceCache.EndToEnd
