import Swactor.Lib.Machine
import Swactor.Registry.Merge

/-!
# Local registry writes always win

As long as no timestamp reaches `u64::MAX`, the logical clock bounds the
timestamps of the stored entries. A local write is stamped above the clock, so it
raises the entry of its name, and a raising write is queued for dissemination.
-/
namespace Swactor.Registry
open LastWriter Machine List

/-- The operations of a registry, with the iteration order of those that iterate. -/
inductive RegistryOp
  | register (name : String) (actorAddr : ActorAddress) (nodeId : NodeId) (clusterSize : ℕ)
  | registerAt (name : String) (actorAddr : ActorAddress) (nodeId : NodeId)
      (timestamp clusterSize : ℕ)
  | unregister (name : String) (nodeId : NodeId) (clusterSize : ℕ)
  | tombstoneNode (iter : List String) (deadNodeId : NodeId) (clusterSize : ℕ)
  | mergeBatch (entries : List RegistryEntry) (clusterSize : ℕ)
  | takePending (maxCount : ℕ)
  | reDisseminateAll (iter : List String) (clusterSize : ℕ)
  | gcTick

namespace ClusterRegistry

def step (r : ClusterRegistry) : RegistryOp → ClusterRegistry
  | .register name addr node n => r.register name addr node n
  | .registerAt name addr node ts n => r.registerAt name addr node ts n
  | .unregister name node n => r.unregister name node n
  | .tombstoneNode iter dead n => r.tombstoneNode iter dead n
  | .mergeBatch es n => r.mergeBatch es n
  | .takePending k => (r.takePending k).1
  | .reDisseminateAll iter n => r.reDisseminateAll iter n
  | .gcTick => r.gcTick

/-- No timestamp that the operation mints or receives reaches `u64::MAX`. -/
def BelowMax (r : ClusterRegistry) : RegistryOp → Prop
  | .register .. | .unregister .. => r.clock + 1 < u64Max
  | .registerAt _ _ _ ts _ => max (r.clock + 1) ts < u64Max
  | .tombstoneNode iter dead n =>
      Guarded (fun r _ => r.clock + 1 < u64Max) (tombstoneName dead n) r (r.owned iter dead)
  | .mergeBatch es _ => ∀ e ∈ es, e.timestamp < u64Max
  | .takePending _ | .reDisseminateAll .. | .gcTick => True

instance (r : ClusterRegistry) : ∀ op, Decidable (r.BelowMax op)
  | .register .. | .unregister .. => inferInstanceAs (Decidable (r.clock + 1 < u64Max))
  | .registerAt _ _ _ ts _ => inferInstanceAs (Decidable (max (r.clock + 1) ts < u64Max))
  | .tombstoneNode iter dead n => inferInstanceAs (Decidable (Guarded
      (fun r _ => r.clock + 1 < u64Max) (tombstoneName dead n) r (r.owned iter dead)))
  | .mergeBatch es _ => inferInstanceAs (Decidable (∀ e ∈ es, e.timestamp < u64Max))
  | .takePending _ | .reDisseminateAll .. | .gcTick => inferInstanceAs (Decidable True)

/-- The clock is at least the timestamp of every stored entry. -/
def ClockBound (r : ClusterRegistry) : Prop :=
  ∀ (name : String) (e : RegistryEntry), r.entries[name]? = some e → e.timestamp ≤ r.clock

/-- The entry stored under `name` is queued for dissemination. -/
def WinnerQueued (r : ClusterRegistry) (name : String) : Prop :=
  ∃ d ∈ r.dissemination, d.entry.name = name ∧ r.entries[name]? = some d.entry

theorem clockBound_new (config : RegistryConfig) : (new config).ClockBound := by
  intro name e h
  simp [new] at h

variable {r : ClusterRegistry} {e : RegistryEntry} {c : ℕ}

theorem ClockBound.of_eq {r' : ClusterRegistry} (h : r.ClockBound) (he : r'.entries = r.entries)
    (hc : r.clock ≤ r'.clock) : r'.ClockBound := by
  intro name e hn
  rw [he] at hn
  exact (h name e hn).trans hc

/-- Below `u64::MAX` a merged entry ends up behind the clock, which is never turned back. -/
theorem merge_stamps (r : ClusterRegistry) (he : e.timestamp < u64Max) :
    r.clock ≤ (r.merge e).1.clock ∧ (r.merge e).1.clock ≤ max r.clock u64Max ∧
    ∀ (name : String) (x : RegistryEntry), (r.merge e).1.entries[name]? = some x →
      r.entries[name]? = some x ∨ x.timestamp < (r.merge e).1.clock := by
  by_cases hr : Raises key r.entries[e.name]? e
  · have hw : wrappingAdd e.timestamp 1 = e.timestamp + 1 := wrappingAdd_of_le he
    rw [merge_of_raises hr, hw]
    dsimp only
    refine ⟨by split_ifs <;> omega, by split_ifs <;> omega, fun name x hx => ?_⟩
    rw [Maps.getElem?_insert_ite] at hx
    split_ifs at hx with hn
    · obtain rfl := Option.some.inj hx
      right
      split_ifs <;> omega
    · exact Or.inl hx
  · rw [merge_of_not_raises hr]
    exact ⟨le_rfl, le_max_left _ _, fun name x hx => Or.inl hx⟩

theorem ClockBound.mergeAndEnqueue (h : r.ClockBound) (he : e.timestamp < u64Max) (n : ℕ) :
    (r.mergeAndEnqueue e n).ClockBound := by
  obtain ⟨hle, -, hstored⟩ := r.merge_stamps he
  intro name x hx
  rw [mergeAndEnqueue_entries] at hx
  rw [mergeAndEnqueue_clock]
  exact (hstored name x hx).elim (fun hx => (h name x hx).trans hle) le_of_lt

theorem ClockBound.mergeBatch (h : r.ClockBound) (es : List RegistryEntry) (n : ℕ)
    (hes : ∀ e ∈ es, e.timestamp < u64Max) : (r.mergeBatch es n).ClockBound := by
  refine foldlRecOn es _ h fun r hr e he => ?_
  exact hr.mergeAndEnqueue (hes e he) n

/-- An entry of a name other than the enqueued one stays queued. -/
theorem mem_enqueue_of_ne {n : ℕ} {d : DisseminationEntry} (hd : d ∈ r.dissemination)
    (hne : d.entry.name ≠ e.name) : d ∈ (r.enqueue e n).dissemination := by
  simp only [enqueue]
  split_ifs with h
  · generalize r.dissemination = xs at hd ⊢
    induction xs with
    | nil => simp at hd
    | cons x xs ih =>
      rcases mem_cons.mp hd with rfl | hd
      · simp [replaceF, hne]
      · by_cases hx : x.entry.name = e.name
        · simp [replaceF, hx, hd]
        · simp [replaceF, hx, ih hd]
  · simp [hd]

theorem mem_enqueue_self (r : ClusterRegistry) (e : RegistryEntry) (n : ℕ) :
    ⟨e, r.transmitBudget n⟩ ∈ (r.enqueue e n).dissemination := by
  simp only [enqueue]
  split_ifs with h
  · rw [any_eq_true] at h
    obtain ⟨d, hd, hn⟩ := h
    generalize r.dissemination = xs at hd ⊢
    induction xs with
    | nil => simp at hd
    | cons x xs ih =>
      by_cases hx : x.entry.name = e.name
      · simp [replaceF, hx]
      · have hd' : d ∈ xs := by
          rcases mem_cons.mp hd with rfl | hd
          · exact absurd (by simpa using hn) hx
          · exact hd
        simp [replaceF, hx, ih hd']
  · simp

/-- The entry `writeAt` mints. -/
def minted (r : ClusterRegistry) (clock : ℕ) (name : String) (addr : ActorAddress)
    (node : NodeId) (tombstone : Bool) : RegistryEntry :=
  ⟨name, addr, node, clock, r.nextGeneration name, tombstone⟩

/-- A write stamped above the clock is stored and queued, and frames the other names. -/
theorem ClockBound.writeAt (h : r.ClockBound) (hc : r.clock < c) (hm : c < u64Max) (name : String)
    (addr : ActorAddress) (node : NodeId) (t : Bool) (n : ℕ) :
    (r.writeAt c name addr node t n).ClockBound ∧
    (r.writeAt c name addr node t n).entries =
      r.entries.insert name (r.minted c name addr node t) ∧
    (r.writeAt c name addr node t n).WinnerQueued name ∧
    ∀ x, x ≠ name → r.WinnerQueued x → (r.writeAt c name addr node t n).WinnerQueued x := by
  let r₁ : ClusterRegistry := { r with clock := c }
  let e := r.minted c name addr node t
  have hb : r₁.ClockBound := h.of_eq rfl hc.le
  have hraise : Raises key r₁.entries[e.name]? e := by
    intro x hx
    exact key_lt_of_timestamp_lt ((h e.name x hx).trans_lt hc)
  have hw : r.writeAt c name addr node t n = ((r₁.merge e).1).enqueue e n := by
    have hch : (r₁.merge e).2 = true := (merge_changed_iff r₁ e).mpr hraise
    change r₁.mergeAndEnqueue e n = _
    simp only [ClusterRegistry.mergeAndEnqueue, hch, if_true]
  have hentries : (r.writeAt c name addr node t n).entries = r.entries.insert name e := by
    rw [hw, enqueue_entries, merge_of_raises hraise]
    rfl
  have hframe : (r₁.merge e).1.dissemination = r.dissemination := by
    rw [merge_of_raises hraise]
    rfl
  refine ⟨hb.mergeAndEnqueue (e := e) hm n, hentries, ?_, ?_⟩
  · refine ⟨_, hw ▸ mem_enqueue_self _ e n, rfl, ?_⟩
    rw [hentries]
    simp
  · rintro x hne ⟨d, hd, hdn, hde⟩
    refine ⟨d, hw ▸ mem_enqueue_of_ne (hframe ▸ hd) (hdn ▸ hne), hdn, ?_⟩
    rw [hentries, Std.ExtTreeMap.getElem?_insert]
    simpa [hne.symm] using hde

theorem resolve_of_getElem {name : String} (h : r.entries[name]? = some e) :
    r.resolve name = if e.tombstone then none else some (e.actorAddr, e.nodeId) := by
  simp [resolve, h]

/-- A local write decides what its name resolves to. -/
theorem ClockBound.resolve_writeAt (h : r.ClockBound) (hc : r.clock < c) (hm : c < u64Max)
    (name : String) (addr : ActorAddress) (node : NodeId) (t : Bool) (n : ℕ) :
    (r.writeAt c name addr node t n).resolve name = if t then none else some (addr, node) := by
  obtain ⟨-, he, -, -⟩ := h.writeAt hc hm name addr node t n
  have hg : (r.writeAt c name addr node t n).entries[name]? =
      some (r.minted c name addr node t) := by rw [he]; simp
  rw [resolve_of_getElem hg]
  rfl

/-- The clock value of `register`, `unregister` and `tombstone_node`. -/
theorem nextClock_spec (hm : c + 1 < u64Max) : c < wrappingAdd c 1 ∧ wrappingAdd c 1 < u64Max := by
  rw [wrappingAdd_of_le hm.le]
  omega

/-- The clock value of `register_at`. -/
theorem nextClockAt_spec {ts : ℕ} (hm : max (c + 1) ts < u64Max) :
    c < max (saturatingAdd c 1) ts ∧ max (saturatingAdd c 1) ts < u64Max := by
  have hc : c + 1 ≤ u64Max := (le_max_left _ ts).trans hm.le
  rw [saturatingAdd_of_le hc]
  omega

/-- The tombstone loop over `names`, for a registry whose clock bound holds. -/
theorem ClockBound.tombstoneNames {dead : NodeId} {n : ℕ} (names : List String) (h : r.ClockBound)
    (hm : Guarded (fun r _ => r.clock + 1 < u64Max) (tombstoneName dead n) r names) :
    let w := names.foldl (tombstoneName dead n) r
    w.ClockBound ∧
    (∀ name, (name ∈ names → ∃ e, w.entries[name]? = some e ∧ e.tombstone) ∧
      (name ∉ names → w.entries[name]? = r.entries[name]?)) ∧
    ∀ name, name ∈ names ∨ r.WinnerQueued name → w.WinnerQueued name := by
  induction names generalizing r with
  | nil => exact ⟨h, fun name => ⟨by simp, fun _ => rfl⟩, by simp⟩
  | cons x xs ih =>
    obtain ⟨hlt, hmx⟩ := nextClock_spec hm.1
    obtain ⟨hb, he, hq, hqs⟩ := h.writeAt hlt hmx x (r.boundAddr x) dead true n
    obtain ⟨hb', hnames, hq'⟩ := ih hb hm.2
    refine ⟨hb', fun name => ⟨fun hmem => ?_, fun hmem => ?_⟩, fun name hname => ?_⟩
    · by_cases hin : name ∈ xs
      · exact (hnames name).1 hin
      · obtain rfl : name = x := by
          rcases mem_cons.mp hmem with rfl | hx
          · rfl
          · exact absurd hx hin
        refine ⟨r.minted (wrappingAdd r.clock 1) name (r.boundAddr name) dead true, ?_, rfl⟩
        refine ((hnames name).2 hin).trans ?_
        rw [he]
        simp
    · simp only [mem_cons, not_or] at hmem
      refine ((hnames name).2 hmem.2).trans ?_
      rw [he, Std.ExtTreeMap.getElem?_insert]
      simp [Ne.symm hmem.1]
    · apply hq' name
      by_cases hin : name ∈ xs
      · exact Or.inl hin
      · right
        by_cases hx : name = x
        · subst hx
          exact hq
        · refine hqs name hx ?_
          rcases hname with hmem | hq
          · rcases mem_cons.mp hmem with rfl | hmem
            · exact absurd rfl hx
            · exact absurd hmem hin
          · exact hq

/-- After `tombstone_node` no live entry of the node remains, and every tombstone
it wrote is queued. -/
theorem ClockBound.tombstoneNode (h : r.ClockBound) (iter : List String) (dead : NodeId) (n : ℕ)
    (hm : r.BelowMax (.tombstoneNode iter dead n)) :
    (r.tombstoneNode iter dead n).ClockBound ∧
    (∀ name ∈ r.owned iter dead, (r.tombstoneNode iter dead n).WinnerQueued name) ∧
    (iter.Perm r.entries.keys → ∀ (name : String) (e : RegistryEntry),
      (r.tombstoneNode iter dead n).entries[name]? = some e → e.nodeId = dead → e.tombstone) := by
  obtain ⟨hb, hnames, hq⟩ := h.tombstoneNames (r.owned iter dead) hm
  refine ⟨hb, fun name hn => hq name (Or.inl hn), fun hiter name e he hdead => ?_⟩
  by_cases hin : name ∈ r.owned iter dead
  · obtain ⟨e', he', ht⟩ := (hnames name).1 hin
    obtain rfl : e' = e := Option.some.inj (he'.symm.trans he)
    exact ht
  · have hr : r.entries[name]? = some e := ((hnames name).2 hin).symm.trans he
    have hk : name ∈ iter := by
      rw [hiter.mem_iff, Std.ExtTreeMap.mem_keys, Std.ExtTreeMap.mem_iff_isSome_getElem?, hr]
      rfl
    by_contra ht
    apply hin
    have ht' : e.tombstone = false := by simpa using ht
    simp [owned, hk, hr, hdead, ht']

theorem ClockBound.step (h : r.ClockBound) (op : RegistryOp) (hm : r.BelowMax op) :
    (r.step op).ClockBound := by
  cases op with
  | register name addr node n =>
    obtain ⟨hlt, hmx⟩ := nextClock_spec hm
    exact (h.writeAt hlt hmx name addr node false n).1
  | registerAt name addr node ts n =>
    obtain ⟨hlt, hmx⟩ := nextClockAt_spec hm
    exact (h.writeAt hlt hmx name addr node false n).1
  | unregister name node n =>
    obtain ⟨hlt, hmx⟩ := nextClock_spec hm
    exact (h.writeAt hlt hmx name (r.boundAddr name) node true n).1
  | tombstoneNode iter dead n => exact (h.tombstoneNode iter dead n hm).1
  | mergeBatch es n => exact h.mergeBatch es n hm
  | takePending k => exact h.of_eq rfl le_rfl
  | reDisseminateAll iter n =>
    refine foldlRecOn _ _ h fun r hr e _ => ?_
    exact hr.of_eq (enqueue_entries r e n) (enqueue_clock r e n).ge
  | gcTick =>
    simp only [ClusterRegistry.step, gcTick]
    split_ifs
    · intro name e he
      simp only [Std.ExtTreeMap.getElem?_filter', Option.filter_eq_some_iff] at he
      exact h name e he.1
    · exact h.of_eq rfl le_rfl

end ClusterRegistry

open ClusterRegistry in
/-- In every run in which no timestamp reaches `u64::MAX` the clock bounds the
stored timestamps, and each local write made after it takes effect at once and is
queued for dissemination. -/
theorem local_writes_win (config : RegistryConfig) (ops : List RegistryOp)
    (hops : Guarded BelowMax step (new config) ops) :
    let r := ops.foldl step (new config)
    (∀ (name : String) (e : RegistryEntry), r.entries[name]? = some e → e.timestamp ≤ r.clock) ∧
    (∀ name addr node n, r.BelowMax (.register name addr node n) →
      (r.register name addr node n).resolve name = some (addr, node) ∧
      (r.register name addr node n).WinnerQueued name) ∧
    (∀ name addr node ts n, r.BelowMax (.registerAt name addr node ts n) →
      (r.registerAt name addr node ts n).resolve name = some (addr, node) ∧
      (r.registerAt name addr node ts n).WinnerQueued name) ∧
    (∀ name node n, r.BelowMax (.unregister name node n) →
      (r.unregister name node n).resolve name = none ∧
      (r.unregister name node n).WinnerQueued name) ∧
    (∀ iter dead n, r.BelowMax (.tombstoneNode iter dead n) → iter.Perm r.entries.keys →
      (∀ (name : String) (e : RegistryEntry),
        (r.tombstoneNode iter dead n).entries[name]? = some e → e.nodeId = dead → e.tombstone) ∧
      ∀ name ∈ r.owned iter dead, (r.tombstoneNode iter dead n).WinnerQueued name) := by
  intro r
  have h : r.ClockBound :=
    hops.invariant (P := ClockBound) (fun _ op hr hm => hr.step op hm) (clockBound_new config)
  refine ⟨h, fun name addr node n hm => ?_, fun name addr node ts n hm => ?_,
    fun name node n hm => ?_, fun iter dead n hm hiter => ?_⟩
  · obtain ⟨hlt, hmx⟩ := nextClock_spec hm
    exact ⟨h.resolve_writeAt hlt hmx name addr node false n,
      (h.writeAt hlt hmx name addr node false n).2.2.1⟩
  · obtain ⟨hlt, hmx⟩ := nextClockAt_spec hm
    exact ⟨h.resolve_writeAt hlt hmx name addr node false n,
      (h.writeAt hlt hmx name addr node false n).2.2.1⟩
  · obtain ⟨hlt, hmx⟩ := nextClock_spec hm
    exact ⟨h.resolve_writeAt hlt hmx name (r.boundAddr name) node true n,
      (h.writeAt hlt hmx name (r.boundAddr name) node true n).2.2.1⟩
  · obtain ⟨-, hq, hlive⟩ := h.tombstoneNode iter dead n hm
    exact ⟨hlive hiter, hq⟩

open ClusterRegistry in
/-- A peer's binding with a large timestamp arrives, and the local one replaces it. -/
theorem local_writes_win_over_gossip :
    let ops : List RegistryOp :=
      [.mergeBatch [⟨"db", 7, 1, 900, 4, false⟩] 2, .unregister "db" 2 2, .gcTick]
    let r := ops.foldl step (new defaultConfig)
    Guarded BelowMax step (new defaultConfig) ops ∧ r.BelowMax (.register "db" 8 2 2) ∧
      (r.register "db" 8 2 2).resolve "db" = some (8, 2) := by
  intro ops r
  have hops : Guarded BelowMax step (new defaultConfig) ops := by decide
  have hm : r.BelowMax (.register "db" 8 2 2) := by decide
  exact ⟨hops, hm, ((local_writes_win defaultConfig ops hops).2.1 "db" 8 2 2 hm).1⟩

end Swactor.Registry
