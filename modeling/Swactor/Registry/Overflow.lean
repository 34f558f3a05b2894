import Swactor.Registry.LocalWrites

/-!
# The registry's counters under checked arithmetic

The definitions with a question mark are the operations of a build with overflow
checks: an addition that leaves `u64` stops the operation. As long as nothing has
overflowed, the clock is ahead of every stored timestamp, every local write raises
the entry of its name, and each write moves the clock twice: once for its stamp and
once more when the stamped entry is merged. The exact condition under which an
operation does not overflow is then read off the clock and the stored generations.
-/
namespace Swactor.Registry
open LastWriter Machine List

namespace ClusterRegistry

section

variable (r : ClusterRegistry) (name : String)

def nextGeneration? : Option ℕ :=
  match r.entries[name]? with
  | some e => checkedAdd e.generation 1
  | none => some 1

def merge? (remote : RegistryEntry) : Option (ClusterRegistry × Bool) :=
  let existing := r.entries[remote.name]?
  if existing.any (fun e => !lwwWins remote e) then some (r, false)
  else
    let changed := existing.all (fun e => e ≠ remote)
    let clock := if changed ∧ remote.timestamp ≥ r.clock then checkedAdd remote.timestamp 1
      else some r.clock
    let r := if changed then r.emitEvent remote else r
    clock.map fun clock =>
      ({ r with clock := clock, entries := r.entries.insert remote.name remote }, changed)

def mergeAndEnqueue? (entry : RegistryEntry) (clusterSize : ℕ) : Option ClusterRegistry :=
  (r.merge? entry).map fun merged =>
    if merged.2 then merged.1.enqueue entry clusterSize else merged.1

def mergeBatch? (entries : List RegistryEntry) (clusterSize : ℕ) : Option ClusterRegistry :=
  entries.foldlM (fun r entry => r.mergeAndEnqueue? entry clusterSize) r

def writeAt? (clock : ℕ) (name : String) (actorAddr : ActorAddress) (nodeId : NodeId)
    (tombstone : Bool) (clusterSize : ℕ) : Option ClusterRegistry :=
  let r := { r with clock := clock }
  (r.nextGeneration? name).bind fun generation =>
    r.mergeAndEnqueue? ⟨name, actorAddr, nodeId, clock, generation, tombstone⟩ clusterSize

def register? (actorAddr : ActorAddress) (nodeId : NodeId) (clusterSize : ℕ) :
    Option ClusterRegistry :=
  (checkedAdd r.clock 1).bind fun clock =>
    r.writeAt? clock name actorAddr nodeId false clusterSize

def registerAt? (actorAddr : ActorAddress) (nodeId : NodeId) (timestamp clusterSize : ℕ) :
    Option ClusterRegistry :=
  r.writeAt? (max (saturatingAdd r.clock 1) timestamp) name actorAddr nodeId false clusterSize

def unregister? (nodeId : NodeId) (clusterSize : ℕ) : Option ClusterRegistry :=
  (checkedAdd r.clock 1).bind fun clock =>
    r.writeAt? clock name (r.boundAddr name) nodeId true clusterSize

def tombstoneName? (deadNodeId : NodeId) (clusterSize : ℕ) (r : ClusterRegistry)
    (name : String) : Option ClusterRegistry :=
  (checkedAdd r.clock 1).bind fun clock =>
    r.writeAt? clock name (r.boundAddr name) deadNodeId true clusterSize

def tombstoneNode? (iter : List String) (deadNodeId : NodeId) (clusterSize : ℕ) :
    Option ClusterRegistry :=
  (r.owned iter deadNodeId).foldlM (tombstoneName? deadNodeId clusterSize) r

/-- An operation under checked arithmetic. The last three touch neither the clock nor a
generation. -/
def step? : RegistryOp → Option ClusterRegistry
  | .register name addr node n => r.register? name addr node n
  | .registerAt name addr node ts n => r.registerAt? name addr node ts n
  | .unregister name node n => r.unregister? name node n
  | .tombstoneNode iter dead n => r.tombstoneNode? iter dead n
  | .mergeBatch es n => r.mergeBatch? es n
  | .takePending k => some (r.takePending k).1
  | .reDisseminateAll iter n => some (r.reDisseminateAll iter n)
  | .gcTick => some r.gcTick

/-- The generation stored under a name, zero if there is none. -/
def generationOf : ℕ :=
  (r.entries[name]?.map (·.generation)).getD 0

end

/-- The clock is ahead of every stored timestamp and has not left `u64`. -/
structure Ahead (r : ClusterRegistry) : Prop where
  stored : ∀ (name : String) (e : RegistryEntry), r.entries[name]? = some e → e.timestamp < r.clock
  fits : r.clock ≤ u64Max

theorem ahead_new (config : RegistryConfig) : (new config).Ahead :=
  ⟨fun name e h => by simp [new] at h, Nat.zero_le _⟩

variable {r r' : ClusterRegistry} {name : String} {e : RegistryEntry} {names : List String}

theorem Ahead.of_eq (h : r.Ahead) (he : r'.entries = r.entries) (hc : r'.clock = r.clock) :
    r'.Ahead :=
  ⟨fun name e hn => by rw [hc]; exact h.stored name e (he ▸ hn), hc ▸ h.fits⟩

theorem nextGeneration?_eq : r.nextGeneration? name =
    if r.generationOf name < u64Max then some (r.nextGeneration name) else none := by
  unfold nextGeneration? nextGeneration generationOf
  cases r.entries[name]? with
  | none => rfl
  | some e =>
    dsimp only [Option.map_some, Option.getD_some]
    split_ifs with h
    · exact checkedAdd_of_le h
    · exact checkedAdd_of_lt (by omega)

theorem merge?_of_not_raises (h : ¬ Raises key r.entries[e.name]? e) :
    r.merge? e = some (r.merge e) := by
  have hl := (r.loses_iff e).mpr h
  rw [merge_of_not_raises h]
  simp only [merge?, hl, if_true]

theorem merge?_of_raises (h : Raises key r.entries[e.name]? e) :
    r.merge? e = (if e.timestamp ≥ r.clock then checkedAdd e.timestamp 1 else some r.clock).map
      fun clock => ({ r.emitEvent e with
        clock := clock, entries := r.entries.insert e.name e }, true) := by
  have hl : (r.entries[e.name]?.any fun x => !lwwWins e x) = false := by
    rw [Bool.eq_false_iff]
    intro hl
    exact (r.loses_iff e).mp hl h
  simp only [merge?, hl, Bool.false_eq_true, if_false, differs_of_raises h, if_true, true_and,
    emitEvent]

/-- An entry stamped `u64::MAX` that is not behind the clock beats every stored one, and its
merge overflows. -/
theorem merge?_overflow (hstored : ∀ (name : String) (x : RegistryEntry),
      r.entries[name]? = some x → x.timestamp < r.clock)
    (hle : r.clock ≤ e.timestamp) (he : u64Max ≤ e.timestamp) : r.merge? e = none := by
  have hr : Raises key r.entries[e.name]? e := fun x hx =>
    key_lt_of_timestamp_lt ((hstored e.name x hx).trans_le hle)
  rw [merge?_of_raises hr, if_pos hle, checkedAdd_of_lt (by omega)]
  rfl

/-- An operation on `r` with outcome `o` under checked arithmetic and `r'` without a bound on
the counters: if `P` holds, the two agree, the clock stays ahead and is not turned back;
otherwise the operation overflows. -/
structure Exact (r : ClusterRegistry) (P : Prop) (o : Option ClusterRegistry)
    (r' : ClusterRegistry) : Prop where
  agrees : P → o = some r' ∧ r'.Ahead ∧ r.clock ≤ r'.clock
  overflows : ¬P → o = none

theorem Exact.congr {P Q : Prop} {o : Option ClusterRegistry} (h : Exact r P o r') (hiff : P ↔ Q) :
    Exact r Q o r' :=
  ⟨fun hq => h.agrees (hiff.mpr hq), fun hq => h.overflows fun hp => hq (hiff.mp hp)⟩

theorem exact_of_eq (ha : r'.Ahead) (hc : r'.clock = r.clock) : Exact r True (some r') r' :=
  ⟨fun _ => ⟨rfl, ha, hc.ge⟩, fun h => absurd trivial h⟩

/-- A loop is exact if its body is: it needs at each iteration what the body needs there. -/
theorem exact_foldlM {α : Type} {ok : ClusterRegistry → α → Prop}
    {f? : ClusterRegistry → α → Option ClusterRegistry} {f : ClusterRegistry → α → ClusterRegistry}
    (hf : ∀ r x, r.Ahead → Exact r (ok r x) (f? r x) (f r x)) (xs : List α) (h : r.Ahead) :
    Exact r (Guarded ok f r xs) (xs.foldlM f? r) (xs.foldl f r) := by
  induction xs generalizing r with
  | nil => exact ⟨fun _ => ⟨rfl, h, le_rfl⟩, fun hn => absurd trivial hn⟩
  | cons x xs ih =>
    have hx := hf r x h
    rw [foldlM_cons]
    by_cases hok : ok r x
    · obtain ⟨heq, ha, hc⟩ := hx.agrees hok
      rw [heq]
      refine ⟨fun hg => ?_, fun hn => (ih ha).overflows fun hg => hn ⟨hok, hg⟩⟩
      obtain ⟨heq', ha', hc'⟩ := (ih ha).agrees hg.2
      exact ⟨heq', ha', hc.trans hc'⟩
    · rw [hx.overflows hok]
      exact ⟨fun hg => absurd hg.1 hok, fun _ => rfl⟩

section

variable (h : r.Ahead)
include h

/-- Below `u64::MAX` a merge does not overflow and keeps the clock ahead. -/
theorem Ahead.merge (he : e.timestamp < u64Max) :
    r.merge? e = some (r.merge e) ∧ (r.merge e).1.Ahead ∧ r.clock ≤ (r.merge e).1.clock := by
  obtain ⟨hle, hmax, hstored⟩ := r.merge_stamps he
  refine ⟨?_, ⟨fun name x hx => ?_, hmax.trans (max_le h.fits le_rfl)⟩, hle⟩
  · by_cases hr : Raises key r.entries[e.name]? e
    · rw [merge_of_raises hr, merge?_of_raises hr, checkedAdd_of_le he]
      split_ifs <;> rfl
    · exact merge?_of_not_raises hr
  · exact (hstored name x hx).elim (fun hx => (h.stored name x hx).trans_le hle) id

theorem Ahead.mergeAndEnqueue (n : ℕ) : Exact r (e.timestamp < u64Max)
    (r.mergeAndEnqueue? e n) (r.mergeAndEnqueue e n) := by
  refine ⟨fun he => ?_, fun he => ?_⟩
  · obtain ⟨hm, ha, hc⟩ := h.merge he
    refine ⟨?_, ha.of_eq (mergeAndEnqueue_entries r e n) (mergeAndEnqueue_clock r e n), ?_⟩
    · rw [mergeAndEnqueue?, hm]
      rfl
    · rw [mergeAndEnqueue_clock]
      exact hc
  · have hle : u64Max ≤ e.timestamp := not_lt.mp he
    rw [mergeAndEnqueue?, merge?_overflow h.stored (h.fits.trans hle) hle]
    rfl

/-- A batch overflows exactly when it holds an entry stamped `u64::MAX`. -/
theorem Ahead.mergeBatch (es : List RegistryEntry) (n : ℕ) :
    Exact r (∀ e ∈ es, e.timestamp < u64Max) (r.mergeBatch? es n) (r.mergeBatch es n) :=
  (exact_foldlM (fun _ _ h => h.mergeAndEnqueue n) es h).congr guarded_const

/-- A local write stamped with a clock value that is not behind. -/
theorem Ahead.writeAt {c : ℕ} (hc : r.clock ≤ c) (name : String) (addr : ActorAddress)
    (node : NodeId) (t : Bool) (n : ℕ) : Exact r (c < u64Max ∧ r.generationOf name < u64Max)
      (r.writeAt? c name addr node t n) (r.writeAt c name addr node t n) := by
  let r₁ : ClusterRegistry := { r with clock := c }
  have hstored : ∀ (x : String) (y : RegistryEntry), r₁.entries[x]? = some y → y.timestamp < c :=
    fun x y hy => (h.stored x y hy).trans_le hc
  have hgen : r₁.nextGeneration? name =
      if r.generationOf name < u64Max then some (r.nextGeneration name) else none :=
    nextGeneration?_eq
  unfold writeAt?
  dsimp only
  rw [hgen]
  refine ⟨fun ⟨hm, hg⟩ => ?_, fun hover => ?_⟩
  · have h₁ : r₁.Ahead := ⟨hstored, hm.le⟩
    obtain ⟨hcheck, hahead, hle⟩ :=
      (h₁.mergeAndEnqueue (e := r.minted c name addr node t) n).agrees hm
    rw [if_pos hg]
    exact ⟨hcheck, hahead, hc.trans hle⟩
  · split_ifs with hg
    · have hm : u64Max ≤ c := not_lt.mp fun hm => hover ⟨hm, hg⟩
      rw [Option.bind_some, mergeAndEnqueue?, merge?_overflow hstored le_rfl hm]
      rfl
    · rfl

theorem Ahead.writeAt_clock {c : ℕ} (hc : r.clock ≤ c) (hm : c < u64Max) (addr : ActorAddress)
    (node : NodeId) (t : Bool) (n : ℕ) : (r.writeAt c name addr node t n).clock = c + 1 := by
  let r₁ : ClusterRegistry := { r with clock := c }
  let e := r.minted c name addr node t
  have hraise : Raises key r₁.entries[e.name]? e := fun x hx =>
    key_lt_of_timestamp_lt ((h.stored e.name x hx).trans_le hc)
  have hge : e.timestamp ≥ r₁.clock := le_refl c
  change (r₁.mergeAndEnqueue e n).clock = c + 1
  rw [mergeAndEnqueue_clock, merge_of_raises hraise, if_pos hge]
  exact wrappingAdd_of_le hm

end

theorem writeAt_entries_of_ne {c n : ℕ} {addr : ActorAddress} {node : NodeId} {t : Bool}
    {x : String} (hx : x ≠ name) :
    (r.writeAt c name addr node t n).entries[x]? = r.entries[x]? := by
  let r₁ : ClusterRegistry := { r with clock := c }
  let e := r.minted c name addr node t
  change (r₁.mergeAndEnqueue e n).entries[x]? = r₁.entries[x]?
  have hne : e.name ≠ x := fun h => hx h.symm
  rw [mergeAndEnqueue_entries, merge_entries, if_neg hne]

/-- What `register`, `unregister` and one iteration of `tombstone_node` need. -/
def Writable (r : ClusterRegistry) (name : String) : Prop :=
  r.clock + 2 ≤ u64Max ∧ r.generationOf name < u64Max

instance (r : ClusterRegistry) (name : String) : Decidable (r.Writable name) :=
  inferInstanceAs (Decidable (_ ∧ _))

theorem Ahead.write (h : r.Ahead) (name : String) (addr : ActorAddress) (node : NodeId)
    (t : Bool) (n : ℕ) : Exact r (r.Writable name)
      ((checkedAdd r.clock 1).bind fun c => r.writeAt? c name addr node t n)
      (r.writeAt (wrappingAdd r.clock 1) name addr node t n) := by
  by_cases hle : r.clock + 1 ≤ u64Max
  · have hwrap : wrappingAdd r.clock 1 = r.clock + 1 := wrappingAdd_of_le hle
    rw [checkedAdd_of_le hle]
    refine (h.writeAt (by omega) name addr node t n).congr ?_
    unfold Writable
    omega
  · rw [checkedAdd_of_lt (by omega)]
    refine ⟨fun hw => ?_, fun _ => rfl⟩
    unfold Writable at hw
    omega

/-- What a run of tombstones over `names` needs. -/
def AllWritable (r : ClusterRegistry) (names : List String) : Prop :=
  r.clock + 2 * names.length ≤ u64Max ∧ ∀ name ∈ names, r.generationOf name < u64Max

instance (r : ClusterRegistry) (names : List String) : Decidable (r.AllWritable names) :=
  inferInstanceAs (Decidable (_ ∧ _))

theorem generationOf_congr (h : r'.entries[name]? = r.entries[name]?) :
    r'.generationOf name = r.generationOf name := by
  rw [generationOf, h]
  rfl

/-- After the first tombstone of a list without repetitions the rest needs the same. -/
theorem Ahead.allWritable_tail (h : r.Ahead) (hnew : name ∉ names) (hw : r.Writable name)
    (dead : NodeId) (n : ℕ) :
    (tombstoneName dead n r name).AllWritable names ↔ r.AllWritable (name :: names) := by
  obtain ⟨hroom, hg⟩ := hw
  have hwrap : wrappingAdd r.clock 1 = r.clock + 1 := wrappingAdd_of_le (by omega)
  have hclock : (tombstoneName dead n r name).clock = wrappingAdd r.clock 1 + 1 :=
    h.writeAt_clock (by omega) (by omega) (r.boundAddr name) dead true n
  have hgen : ∀ x ∈ names, (tombstoneName dead n r name).generationOf x = r.generationOf x :=
    fun x hx => generationOf_congr (writeAt_entries_of_ne fun hxn => hnew (hxn ▸ hx))
  unfold AllWritable
  rw [hclock, length_cons, forall_mem_cons]
  constructor
  · rintro ⟨hle, hall⟩
    exact ⟨by omega, hg, fun x hx => hgen x hx ▸ hall x hx⟩
  · rintro ⟨hle, -, hall⟩
    exact ⟨by omega, fun x hx => (hgen x hx).symm ▸ hall x hx⟩

theorem AllWritable.head (h : r.AllWritable (name :: names)) : r.Writable name := by
  obtain ⟨hc, hg⟩ := h
  rw [length_cons] at hc
  exact ⟨by omega, hg name mem_cons_self⟩

theorem Ahead.guarded_writable {dead : NodeId} {n : ℕ} (hnodup : names.Nodup) (h : r.Ahead) :
    Guarded Writable (tombstoneName dead n) r names ↔ r.AllWritable names := by
  induction names generalizing r with
  | nil => exact iff_of_true trivial ⟨by simpa using h.fits, by simp⟩
  | cons name names ih =>
    obtain ⟨hnew, hrest⟩ := nodup_cons.mp hnodup
    by_cases hw : r.Writable name
    · obtain ⟨-, hahead, -⟩ := (h.write name (r.boundAddr name) dead true n).agrees hw
      rw [Guarded, and_iff_right hw, ← h.allWritable_tail hnew hw dead n]
      exact ih hrest hahead
    · exact iff_of_false (fun hg => hw hg.1) fun hall => hw hall.head

/-- The exact condition under which an operation does not overflow. -/
def NoOverflow (r : ClusterRegistry) : RegistryOp → Prop
  | .register name _ _ _ | .unregister name _ _ => r.Writable name
  | .registerAt name _ _ ts _ => max (r.clock + 1) ts < u64Max ∧ r.generationOf name < u64Max
  | .tombstoneNode iter dead _ => r.AllWritable (r.owned iter dead)
  | .mergeBatch es _ => ∀ e ∈ es, e.timestamp < u64Max
  | .takePending _ | .reDisseminateAll .. | .gcTick => True

instance NoOverflow.decidable (r : ClusterRegistry) : ∀ op, Decidable (r.NoOverflow op)
  | .register name _ _ _ | .unregister name _ _ => inferInstanceAs (Decidable (r.Writable name))
  | .registerAt name _ _ ts _ => inferInstanceAs
      (Decidable (max (r.clock + 1) ts < u64Max ∧ r.generationOf name < u64Max))
  | .tombstoneNode iter dead _ => inferInstanceAs (Decidable (r.AllWritable (r.owned iter dead)))
  | .mergeBatch es _ => inferInstanceAs (Decidable (∀ e ∈ es, e.timestamp < u64Max))
  | .takePending _ | .reDisseminateAll .. | .gcTick => inferInstanceAs (Decidable True)

/-- The operation does what it would do without a bound on the counters, and the clock is
not turned back. -/
def Sound (r : ClusterRegistry) (op : RegistryOp) : Prop :=
  r.step? op = some (r.step op) ∧ r.clock ≤ (r.step op).clock

end ClusterRegistry

/-- A traversal visits no key twice. -/
def RegistryOp.VisitsOnce : RegistryOp → Prop
  | .tombstoneNode iter _ _ => iter.Nodup
  | _ => True

namespace ClusterRegistry

variable {r : ClusterRegistry} {op : RegistryOp}

theorem Ahead.reDisseminateAll (h : r.Ahead) (iter : List String) (n : ℕ) :
    (r.reDisseminateAll iter n).Ahead ∧ (r.reDisseminateAll iter n).clock = r.clock := by
  have hfold : ∀ es : List RegistryEntry,
      (es.foldl (fun r e => r.enqueue e n) r).entries = r.entries ∧
        (es.foldl (fun r e => r.enqueue e n) r).clock = r.clock := fun es => by
    refine foldlRecOn es _ (motive := fun r' : ClusterRegistry =>
      r'.entries = r.entries ∧ r'.clock = r.clock) ⟨rfl, rfl⟩ fun r' hr e _ => ?_
    rw [enqueue_entries, enqueue_clock]
    exact hr
  obtain ⟨he, hc⟩ := hfold (iter.filterMap fun name => r.entries[name]?)
  exact ⟨h.of_eq he hc, hc⟩

theorem Ahead.gcTick (h : r.Ahead) : r.gcTick.Ahead ∧ r.gcTick.clock = r.clock := by
  simp only [ClusterRegistry.gcTick]
  split_ifs
  · refine ⟨⟨fun name e he => ?_, h.fits⟩, rfl⟩
    simp only [Std.ExtTreeMap.getElem?_filter', Option.filter_eq_some_iff] at he
    exact h.stored name e he.1
  · exact ⟨h.of_eq rfl rfl, rfl⟩

/-- The condition is exact for every operation. -/
theorem Ahead.step (h : r.Ahead) (hop : op.VisitsOnce) :
    Exact r (r.NoOverflow op) (r.step? op) (r.step op) := by
  cases op with
  | register name addr node n => exact h.write name addr node false n
  | registerAt name addr node ts n =>
    have hfits := h.fits
    refine (h.writeAt ?_ name addr node false n).congr ?_
    · unfold saturatingAdd
      omega
    · unfold NoOverflow saturatingAdd
      omega
  | unregister name node n => exact h.write name (r.boundAddr name) node true n
  | tombstoneNode iter dead n =>
    refine (exact_foldlM (fun r name h => ?_) _ h).congr (h.guarded_writable (hop.filter _))
    exact h.write name (r.boundAddr name) dead true n
  | mergeBatch es n => exact h.mergeBatch es n
  | takePending k => exact exact_of_eq (h.of_eq rfl rfl) rfl
  | reDisseminateAll iter n =>
    obtain ⟨hahead, hc⟩ := h.reDisseminateAll iter n
    exact exact_of_eq hahead hc
  | gcTick => exact exact_of_eq h.gcTick.1 h.gcTick.2

theorem Ahead.sound_iff (h : r.Ahead) (hop : op.VisitsOnce) : r.Sound op ↔ r.NoOverflow op := by
  refine ⟨fun hs => ?_, fun hno => ?_⟩
  · by_contra hno
    have hnone := (h.step hop).overflows hno
    rw [hs.1] at hnone
    cases hnone
  · obtain ⟨hcheck, -, hc⟩ := (h.step hop).agrees hno
    exact ⟨hcheck, hc⟩

end ClusterRegistry

open ClusterRegistry in
/-- A run of operations overflows no counter and never turns the clock back exactly when no
gossiped entry is stamped `u64::MAX` and every write finds room in the clock and in the
generation of the name it writes. -/
theorem counters_hold_iff (config : RegistryConfig) (ops : List RegistryOp)
    (hops : ∀ op ∈ ops, op.VisitsOnce) :
    Guarded Sound step (new config) ops ↔ Guarded NoOverflow step (new config) ops := by
  have hok : ∀ (r : ClusterRegistry) (op : RegistryOp), op.VisitsOnce → r.Ahead →
      (r.Sound op ↔ r.NoOverflow op) := fun r op hop h => h.sound_iff hop
  refine guarded_congr hok (fun r op hop h hs => ?_) hops (ahead_new config)
  exact ((h.step hop).agrees ((hok r op hop h).mp hs)).2.1

open ClusterRegistry in
/-- A registration, a gossiped binding with room above it, and its replacement. -/
theorem counters_hold_after_gossip : let ops : List RegistryOp :=
      [.register "db" 7 1 2, .mergeBatch [⟨"db", 8, 2, u64Max - 3, u64Max - 1, false⟩] 2,
        .register "db" 9 1 2]
    Guarded NoOverflow step (new defaultConfig) ops ∧
      Guarded Sound step (new defaultConfig) ops := by
  intro ops
  have hops : ∀ op ∈ ops, op.VisitsOnce := by simp [ops, RegistryOp.VisitsOnce]
  have hno : Guarded NoOverflow step (new defaultConfig) ops := by decide +kernel
  exact ⟨hno, (counters_hold_iff defaultConfig ops hops).mpr hno⟩

open ClusterRegistry in
/-- One gossiped entry breaks the clock, or the generation of the name it carries: the merge
of a timestamp `u64::MAX` overflows, and without overflow checks it sets the clock of a
registry that has written back to zero; after the merge of a generation `u64::MAX` a local
write of that name overflows. -/
theorem gossip_breaks_counters :
    let written := (new defaultConfig).register "a" 7 1 2
    let lateStamp := RegistryOp.mergeBatch [⟨"b", 8, 2, u64Max, 1, false⟩] 2
    let lastGeneration := RegistryOp.mergeBatch [⟨"b", 8, 2, 5, u64Max, false⟩] 2
    (written.step? lateStamp).isNone ∧ (written.step lateStamp).clock < written.clock ∧
    (written.step? lastGeneration).isSome ∧
    ((written.step lastGeneration).step? (.register "b" 7 1 2)).isNone := by
  decide +kernel

end Swactor.Registry
