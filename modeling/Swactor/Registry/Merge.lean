import Swactor.Lib.LastWriter
import Swactor.Registry.Store

/-!
# Merging registry entries is a last-writer-wins join

Per name, `merge` is one delivery to a last-writer-wins register whose keys are
the triples (timestamp, generation, node id) in lexicographic order. The clock,
the event buffer and the dissemination queue that `merge` also writes do not feed
back into the stored entries.
-/
namespace Swactor.Registry
open LastWriter List

/-- The comparison key of an entry. -/
def key (e : RegistryEntry) : ℕ ×ₗ ℕ ×ₗ NodeId :=
  toLex (e.timestamp, toLex (e.generation, e.nodeId))

theorem lwwWins_iff (incoming existing : RegistryEntry) :
    lwwWins incoming existing = true ↔ key existing < key incoming := by
  simp only [lwwWins, key, Prod.Lex.toLex_lt_toLex]
  split_ifs with ht hg
  · have hne : existing.timestamp ≠ incoming.timestamp := fun h => ht h.symm
    simp [hne]
  · have he : existing.timestamp = incoming.timestamp := by omega
    have hne : existing.generation ≠ incoming.generation := fun h => hg h.symm
    simp [he, hne]
  · have he : existing.timestamp = incoming.timestamp := by omega
    have he' : existing.generation = incoming.generation := by omega
    simp [he, he']

theorem timestamp_le_of_key_le {a b : RegistryEntry} (h : key a ≤ key b) :
    a.timestamp ≤ b.timestamp := by
  simp only [key, Prod.Lex.toLex_le_toLex] at h
  omega

theorem key_lt_of_timestamp_lt {a b : RegistryEntry} (h : a.timestamp < b.timestamp) :
    key a < key b := by
  simp only [key, Prod.Lex.toLex_lt_toLex]
  exact Or.inl h

namespace ClusterRegistry

/-- The early return of `merge` is taken exactly when the entry raises nothing. -/
theorem loses_iff (r : ClusterRegistry) (e : RegistryEntry) :
    (r.entries[e.name]?.any fun x => !lwwWins e x) = true ↔ ¬ Raises key r.entries[e.name]? e := by
  cases h : r.entries[e.name]? with
  | none => simp [Raises]
  | some x => simp [Raises, ← lwwWins_iff]

variable {r : ClusterRegistry} {e : RegistryEntry} {D : RegistryEntry → Prop}

theorem merge_of_not_raises (h : ¬ Raises key r.entries[e.name]? e) : r.merge e = (r, false) := by
  have hl := (r.loses_iff e).mpr h
  simp only [merge, hl, if_true]

/-- A raising entry differs from the stored one, so the second test of `merge` is true. -/
theorem differs_of_raises (h : Raises key r.entries[e.name]? e) :
    (r.entries[e.name]?.all fun x => x ≠ e) = true := by
  cases hx : r.entries[e.name]? with
  | none => simp
  | some x =>
    have hlt : key x < key e := h x (by simp [hx])
    have hne : x ≠ e := by rintro rfl; exact lt_irrefl _ hlt
    simp [hne]

/-- What a raising merge writes. -/
theorem merge_of_raises (h : Raises key r.entries[e.name]? e) :
    r.merge e =
      ({ r.emitEvent e with
          clock := if e.timestamp ≥ r.clock then wrappingAdd e.timestamp 1 else r.clock
          entries := r.entries.insert e.name e }, true) := by
  have hl : (r.entries[e.name]?.any fun x => !lwwWins e x) = false := by
    rw [Bool.eq_false_iff]
    intro hl
    exact (r.loses_iff e).mp hl h
  have hclock : (r.emitEvent e).clock = r.clock := rfl
  simp only [merge, hl, Bool.false_eq_true, if_false, differs_of_raises h, if_true, hclock]
  by_cases hc : e.timestamp ≥ r.clock
  · simp only [if_pos hc, emitEvent]
  · simp only [if_neg hc, emitEvent]

section

variable (r : ClusterRegistry) (e : RegistryEntry)

theorem merge_changed_iff : (r.merge e).2 = true ↔ Raises key r.entries[e.name]? e := by
  by_cases h : Raises key r.entries[e.name]? e
  · simp [merge_of_raises h, h]
  · simp [merge_of_not_raises h, h]

/-- On the entry of its own name a merge is one register delivery; it frames the others. -/
theorem merge_entries (name : String) :
    (r.merge e).1.entries[name]? =
      if e.name = name then keep key r.entries[name]? e else r.entries[name]? := by
  by_cases h : Raises key r.entries[e.name]? e
  · rw [merge_of_raises h]
    simp only [Maps.getElem?_insert_ite]
    split_ifs with hn
    · subst hn
      exact (keep_of_raises h).symm
    · rfl
  · rw [merge_of_not_raises h]
    split_ifs with hn
    · subst hn
      exact (keep_of_not_raises h).symm
    · rfl

@[simp] theorem enqueue_entries (n : ℕ) : (r.enqueue e n).entries = r.entries := by
  unfold enqueue
  split_ifs <;> rfl

@[simp] theorem enqueue_clock (n : ℕ) : (r.enqueue e n).clock = r.clock := by
  unfold enqueue
  split_ifs <;> rfl

@[simp] theorem mergeAndEnqueue_entries (n : ℕ) :
    (r.mergeAndEnqueue e n).entries = (r.merge e).1.entries := by
  simp only [mergeAndEnqueue]
  split_ifs <;> simp

@[simp] theorem mergeAndEnqueue_clock (n : ℕ) :
    (r.mergeAndEnqueue e n).clock = (r.merge e).1.clock := by
  simp only [mergeAndEnqueue]
  split_ifs <;> simp

end

/-- The stored entries are, name by name, maximal among the entries `D` received. -/
def Holds (r : ClusterRegistry) (D : RegistryEntry → Prop) : Prop :=
  ∀ name, IsWinner key (fun e => D e ∧ e.name = name) r.entries[name]?

theorem holds_new (config : RegistryConfig) : (new config).Holds fun _ => False := by
  intro name
  simp [new, IsWinner]

theorem Holds.merge (h : r.Holds D) (e : RegistryEntry) :
    (r.merge e).1.Holds fun x => D x ∨ x = e := by
  intro name
  rw [merge_entries]
  split_ifs with hn
  · refine ((h name).keep e).congr fun x => ?_
    constructor
    · rintro (⟨hx, hxn⟩ | rfl)
      · exact ⟨Or.inl hx, hxn⟩
      · exact ⟨Or.inr rfl, hn⟩
    · rintro ⟨hx | rfl, hxn⟩
      · exact Or.inl ⟨hx, hxn⟩
      · exact Or.inr rfl
  · refine (h name).congr fun x => ⟨fun hx => ⟨Or.inl hx.1, hx.2⟩, ?_⟩
    rintro ⟨hx | rfl, hxn⟩
    · exact ⟨hx, hxn⟩
    · exact absurd hxn hn

theorem Holds.of_entries_eq {r' : ClusterRegistry} (h : r.Holds D) (he : r'.entries = r.entries) :
    r'.Holds D := by
  intro name
  rw [he]
  exact h name

theorem Holds.congr {E : RegistryEntry → Prop} (h : r.Holds D) (hDE : ∀ e, D e ↔ E e) : r.Holds E :=
  fun name => (h name).congr fun e => and_congr_left fun _ => hDE e

theorem Holds.mergeBatch (h : r.Holds D) (es : List RegistryEntry) (n : ℕ) :
    (r.mergeBatch es n).Holds fun x => D x ∨ x ∈ es := by
  induction es generalizing r D with
  | nil => exact h.congr fun x => by simp
  | cons e es ih =>
    have h1 : (r.mergeAndEnqueue e n).Holds fun x => D x ∨ x = e :=
      (h.merge e).of_entries_eq (mergeAndEnqueue_entries r e n)
    exact (ih h1).congr fun x => by simp [or_assoc]

end ClusterRegistry

/-- One way in which entries reach a registry. -/
inductive Delivery
  | single (e : RegistryEntry)
  | batch (es : List RegistryEntry) (clusterSize : ℕ)

/-- The entries a delivery carries. -/
def Delivery.carried : Delivery → List RegistryEntry
  | .single e => [e]
  | .batch es _ => es

def deliver (r : ClusterRegistry) : Delivery → ClusterRegistry
  | .single e => (r.merge e).1
  | .batch es clusterSize => r.mergeBatch es clusterSize

theorem holds_deliver {r : ClusterRegistry} {D : RegistryEntry → Prop} (h : r.Holds D)
    (d : Delivery) : (deliver r d).Holds fun x => D x ∨ x ∈ d.carried := by
  cases d with
  | single e => exact (h.merge e).congr fun x => by simp [Delivery.carried]
  | batch es n => exact h.mergeBatch es n

theorem holds_deliveries {r : ClusterRegistry} {D : RegistryEntry → Prop} (h : r.Holds D)
    (ds : List Delivery) :
    (ds.foldl deliver r).Holds fun x => D x ∨ x ∈ ds.flatMap Delivery.carried := by
  induction ds generalizing r D with
  | nil => exact h.congr fun x => by simp
  | cons d ds ih => exact (ih (holds_deliver h d)).congr fun x => by simp [or_assoc]

/-- A fresh registry holds, per name, a maximum of everything delivered to it. -/
theorem holds_delivered (config : RegistryConfig) (ds : List Delivery) :
    (ds.foldl deliver (.new config)).Holds fun x => x ∈ ds.flatMap Delivery.carried :=
  (holds_deliveries (ClusterRegistry.holds_new config) ds).congr fun x => by simp

/-- Whatever the order, the multiplicity and the batching in which the entries of
an identified family reach a fresh registry, it ends with the family's maximum of
every name, independently of the configuration and the deliveries chosen. A merge
reports a change exactly when its entry exceeds every entry of its name so far. -/
theorem merge_is_lastWriter_join (config : RegistryConfig) (family : List RegistryEntry)
    (hfam : ∀ name, Identified key fun e => e ∈ family ∧ e.name = name)
    (ds : List Delivery) (hds : ∀ e, e ∈ ds.flatMap Delivery.carried ↔ e ∈ family) :
    (∀ name, IsWinner key (fun e => e ∈ family ∧ e.name = name)
      (ds.foldl deliver (.new config)).entries[name]?) ∧
    (∀ (pre : List Delivery) (e : RegistryEntry),
      ((pre.foldl deliver (.new config)).merge e).2 = true ↔
        ∀ x ∈ pre.flatMap Delivery.carried, x.name = e.name → key x < key e) ∧
    (∀ (config' : RegistryConfig) (ds' : List Delivery),
      (∀ e, e ∈ ds'.flatMap Delivery.carried ↔ e ∈ family) →
      (ds'.foldl deliver (.new config')).entries =
        (ds.foldl deliver (.new config)).entries) := by
  have hmax (c : RegistryConfig) (ds : List Delivery)
      (h : ∀ e, e ∈ ds.flatMap Delivery.carried ↔ e ∈ family) (name : String) :
      IsWinner key (fun e => e ∈ family ∧ e.name = name)
        (ds.foldl deliver (.new c)).entries[name]? :=
    (holds_delivered c ds).congr h name
  refine ⟨hmax config ds hds, fun pre e => ?_, fun config' ds' hds' => ?_⟩
  · rw [ClusterRegistry.merge_changed_iff, (holds_delivered config pre e.name).raises_iff]
    exact ⟨fun h x hx hn => h x ⟨hx, hn⟩, fun h x hx => h x hx.1 hx.2⟩
  · apply Std.ExtTreeMap.ext_getElem?
    intro name
    exact (hmax config' ds' hds' name).unique (hfam name) (hmax config ds hds name)

/-- A binding and the tombstone that supersedes it, redelivered out of order. -/
theorem merge_is_lastWriter_join_redelivered :
    let live : RegistryEntry := ⟨"db", 7, 1, 1, 1, false⟩
    let gone : RegistryEntry := ⟨"db", 7, 1, 3, 2, true⟩
    IsWinner key (fun e => e ∈ [live, gone] ∧ e.name = "db")
      ([.single gone, .batch [live, gone] 2, .single live].foldl deliver
        (.new defaultConfig)).entries["db"]? := by
  intro live gone
  refine (merge_is_lastWriter_join defaultConfig [live, gone] ?_
    [.single gone, .batch [live, gone] 2, .single live] ?_).1 "db"
  · rintro name a b ⟨ha, -⟩ ⟨hb, -⟩ hk
    have ht : a.timestamp = b.timestamp := congrArg (fun k => (ofLex k).1) hk
    simp only [mem_cons, not_mem_nil, or_false] at ha hb
    rcases ha with rfl | rfl <;> rcases hb with rfl | rfl <;> simp_all [live, gone]
  · intro e
    simp only [flatMap_cons, flatMap_nil, Delivery.carried, mem_append,
      mem_cons, not_mem_nil, or_false]
    tauto

end Swactor.Registry
