import InferenceCache.Index.Theorems.Consistent
import InferenceCache.Lib.Runs

namespace InferenceCache

variable {F : Type}

inductive Message (F : Type)
  | report (u : Update F)
  | event (ev : Event)

namespace Message

def replicaID : Message F → GoString
  | report u => u.replicaID
  | event ev => ev.replicaID

def timestamp : Message F → Time
  | report u => u.timestamp
  | event ev => ev.timestamp

def call : Message F → Call F
  | report u => .ingest u
  | event ev => .applyEvent ev

def onEntry (key : PrefixKey) (e? : Option ReplicaEntry) : Message F → Option ReplicaEntry
  | report u =>
    ((u.latest key).map fun p => Index.refreshed e? p.tokenCount p.tier u.timestamp).or e?
  | event ev => e?.filter fun _ => !Index.removes ev key

def onStats [GoFloat F] (sk : StatsKey) (s? : Option (StatEntry F)) :
    Message F → Option (StatEntry F)
  | report u =>
    if sk = ⟨u.tenant, u.model, u.replicaID⟩ then (Index.statsOf u u.timestamp).or s? else s?
  | event ev =>
    if sk = ⟨ev.tenant, ev.model, ev.replicaID⟩ then s?.bind (Index.touched ev ev.timestamp) else s?

end Message

-- The messages of every replica stand in the order in which the replica sent them.
def Interleaves (streams : GoString → List (Message F)) (l : List (Message F × Env)) : Prop :=
  ∀ r, (l.map Prod.fst).filter (·.replicaID = r) = streams r

-- Surroundings in which no tenant has a quota.
def Env.NoQuota (env : Env) : Prop :=
  ∀ tenant, env.tenantQuotaFor tenant = none

namespace Index

variable [GoFloat F] {cfg : Config F} {i : Index F} {env : Env} {m : Message F}
variable {key : PrefixKey} {r : GoString} {sk : StatsKey} {l : List (Message F × Env)}

def receive (cfg : Config F) (i : Index F) (l : List (Message F × Env)) : Index F :=
  l.foldl (fun i x => step cfg i (x.1.call, x.2)) i

section Message

variable (hc : cfg.maxEntries ≤ 0) (hq : env.NoQuota) (ht : m.timestamp ≠ 0)

include hc hq in
theorem ingest_of_unlimited {u : Update F} : i.ingest cfg env u = i.recordUpdate cfg env u := by
  rw [Index.ingest, enforceCapLocked, if_pos (.inl hc), beforeCap, enforceQuota, hq]

include hc hq ht in
theorem entryAt_step_message : (step cfg i (m.call, env)).entryAt key r =
    if m.replicaID = r then m.onEntry key (i.entryAt key r) else i.entryAt key r := by
  cases m
  case report u =>
    show (i.ingest cfg env u).entryAt key r = _
    have ht : u.timestamp ≠ 0 := ht
    rw [ingest_of_unlimited hc hq, entryAt_recordUpdate, Update.seenAt_of_ne ht]
    simp only [Message.replicaID, Message.onEntry, eq_comm]
  case event ev =>
    show (i.applyEvent cfg env ev).entryAt key r = _
    rw [entryAt_of_filter entries_applyEvent]
    split
    case isTrue h =>
      have hr : r = ev.replicaID := h.symm
      simp [Message.onEntry, hr]
    case isFalse h =>
      have hr : (r == ev.replicaID) = false := beq_false_of_ne (Ne.symm h)
      cases i.entryAt key r <;> simp [hr, Option.filter]

include hc hq ht in
theorem lookup_stats_step_message : (step cfg i (m.call, env)).stats.lookup sk =
    if m.replicaID = sk.replicaID then m.onStats sk (i.stats.lookup sk) else i.stats.lookup sk := by
  cases m
  case report u =>
    show (i.ingest cfg env u).stats.lookup sk = _
    have ht : u.timestamp ≠ 0 := ht
    rw [ingest_of_unlimited hc hq, lookup_stats_recordUpdate, Update.seenAt_of_ne ht]
    split
    case isTrue h => simp [Message.onStats, Message.replicaID, h]
    case isFalse h => simp [Message.onStats, h]
  case event ev =>
    show (i.applyEvent cfg env ev).stats.lookup sk = _
    have ht : ev.timestamp ≠ 0 := ht
    rw [lookup_stats_applyEvent, Event.seenAt_of_ne ht]
    split
    case isTrue h => simp [Message.onStats, Message.replicaID, h]
    case isFalse h => simp [Message.onStats, h]

end Message

section Run

omit [GoFloat F] in
theorem filter_messages {p : Message F → Bool} :
    (l.filter fun x => p x.1).map Prod.fst = (l.map Prod.fst).filter p := by
  rw [List.filter_map]
  rfl

variable (hc : cfg.maxEntries ≤ 0) (hq : ∀ x ∈ l, x.2.NoQuota) (ht : ∀ x ∈ l, x.1.timestamp ≠ 0)

include hc hq ht in
theorem entryAt_receive : (receive cfg i l).entryAt key r =
    ((l.map Prod.fst).filter (·.replicaID = r)).foldl (fun e? m => m.onEntry key e?)
      (i.entryAt key r) := by
  rw [receive, ← filter_messages, List.foldl_map]
  apply observe_foldl (entryAt · key r)
  intro i x hx
  rw [entryAt_step_message hc (hq x hx) (ht x hx)]
  simp

include hc hq ht in
theorem lookup_stats_receive : (receive cfg i l).stats.lookup sk =
    ((l.map Prod.fst).filter (·.replicaID = sk.replicaID)).foldl (fun s? m => m.onStats sk s?)
      (i.stats.lookup sk) := by
  rw [receive, ← filter_messages, List.foldl_map]
  apply observe_foldl fun i : Index F => i.stats.lookup sk
  intro i x hx
  rw [lookup_stats_step_message hc (hq x hx) (ht x hx)]
  simp

end Run

theorem Consistent.receive (h : Consistent cfg i) : Consistent cfg (receive cfg i l) :=
  List.foldlRecOn (motive := Consistent cfg) l _ h fun _ h _ _ => h.step

theorem interleavings_agree (cfg : Config F) (hc : cfg.maxEntries ≤ 0) (i : Index F)
    (h : Reachable cfg i) (streams : GoString → List (Message F))
    (ht : ∀ r, ∀ m ∈ streams r, m.timestamp ≠ 0) (l l' : List (Message F × Env))
    (hl : Interleaves streams l) (hl' : Interleaves streams l') (hq : ∀ x ∈ l, x.2.NoQuota)
    (hq' : ∀ x ∈ l', x.2.NoQuota) : receive cfg i l = receive cfg i l' := by
  have hts : ∀ l : List (Message F × Env), Interleaves streams l → ∀ x ∈ l, x.1.timestamp ≠ 0 := by
    intro l hl x hx
    apply ht x.1.replicaID
    rw [← hl]
    simp only [List.mem_filter, decide_true, and_true]
    exact List.mem_map_of_mem hx
  apply h.consistent.receive.ext h.consistent.receive
  case he =>
    apply entries_ext
    intro key r
    rw [entryAt_receive hc hq (hts l hl), entryAt_receive hc hq' (hts l' hl'), hl, hl']
  case hs =>
    apply Finmap.ext_lookup
    intro sk
    rw [lookup_stats_receive hc hq (hts l hl), lookup_stats_receive hc hq' (hts l' hl'), hl, hl']

section

-- A replica that reports a prefix and then clears its cache, while another reports the same prefix.
def uncapped : Config ℚ :=
  .new 0 0 .default []

def reportOf (replicaID : GoString) (now : Time) : Message ℚ × Env :=
  (.report (.single [0x74] replicaID [1] 1), .still now)

def clearA (now : Time) : Message ℚ × Env :=
  (.event ⟨.allCleared, [0x61], [0x6d], [0x74], [], [], 2⟩, .still now)

theorem interleavings_agree_cleared :
    receive uncapped new [reportOf [0x61] 9, clearA 9, reportOf [0x62] 9] =
      receive uncapped new [reportOf [0x62] 3, reportOf [0x61] 4, clearA 5] := by
  apply interleavings_agree uncapped (by decide) new ⟨[], rfl⟩
    fun r => [(reportOf [0x61] 9).1, (clearA 9).1, (reportOf [0x62] 9).1].filter (·.replicaID = r)
  case ht =>
    intro r m hm
    have hm := (List.mem_filter.mp hm).1
    simp only [List.mem_cons, List.not_mem_nil, or_false] at hm
    rcases hm with rfl | rfl | rfl <;> decide
  case hl => exact fun _ => rfl
  case hl' =>
    intro r
    by_cases ha : [0x61] = r
    case pos => subst ha; rfl
    case neg =>
      simp [reportOf, clearA, Message.replicaID, Update.single, List.filter_cons, ha]
  case hq =>
    intro x hx tenant
    simp only [List.mem_cons, List.not_mem_nil, or_false] at hx
    rcases hx with rfl | rfl | rfl <;> rfl
  case hq' =>
    intro x hx tenant
    simp only [List.mem_cons, List.not_mem_nil, or_false] at hx
    rcases hx with rfl | rfl | rfl <;> rfl

end

end Index

end InferenceCache
