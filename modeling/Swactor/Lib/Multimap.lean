import Mathlib

/-!
# Maps to sets

A map to sets is a relation. Adding a value makes the set of its key if there is none; dropping a
value leaves the set where it is, even empty, and pruning also removes a set that becomes empty.
The three differ in the map but not in the relation.
-/
namespace Swactor.Multimap

open Std (ExtTreeMap ExtTreeSet TransCmp LawfulEqCmp)

variable {K V : Type*} {cmpK : K → K → Ordering} {cmpV : V → V → Ordering} [TransCmp cmpK]
  [TransCmp cmpV]

section

variable (m : ExtTreeMap K (ExtTreeSet V cmpV) cmpK) (k : K)

/-- The set of a key, which is empty if the key has none. -/
def valuesAt : ExtTreeSet V cmpV :=
  m[k]?.getD ∅

def add (v : V) : ExtTreeMap K (ExtTreeSet V cmpV) cmpK :=
  m.insert k ((valuesAt m k).insert v)

def drop (v : V) : ExtTreeMap K (ExtTreeSet V cmpV) cmpK :=
  match m[k]? with
  | none => m
  | some values => m.insert k (values.erase v)

def prune (v : V) : ExtTreeMap K (ExtTreeSet V cmpV) cmpK :=
  match m[k]? with
  | none => m
  | some values =>
      if (values.erase v).isEmpty then m.erase k else m.insert k (values.erase v)

end

variable [LawfulEqCmp cmpK] [LawfulEqCmp cmpV] {m : ExtTreeMap K (ExtTreeSet V cmpV) cmpK}
  {k k' : K} {v v' : V}

omit [TransCmp cmpV] [LawfulEqCmp cmpK] [LawfulEqCmp cmpV] in
@[simp] theorem valuesAt_empty :
    valuesAt (∅ : ExtTreeMap K (ExtTreeSet V cmpV) cmpK) k = ∅ := by
  simp [valuesAt]

omit [LawfulEqCmp cmpV] in
theorem mem_valuesAt_insert {values : ExtTreeSet V cmpV} : v' ∈ valuesAt (m.insert k values) k' ↔
    k = k' ∧ v' ∈ values ∨ k ≠ k' ∧ v' ∈ valuesAt m k' := by
  by_cases h : k = k' <;> simp [valuesAt, ExtTreeMap.getElem?_insert, h]

omit [LawfulEqCmp cmpV] in
theorem mem_valuesAt_erase : v' ∈ valuesAt (m.erase k) k' ↔ k ≠ k' ∧ v' ∈ valuesAt m k' := by
  by_cases h : k = k' <;> simp [valuesAt, ExtTreeMap.getElem?_erase, h]

theorem mem_valuesAt_add :
    v' ∈ valuesAt (add m k v) k' ↔ k = k' ∧ v = v' ∨ v' ∈ valuesAt m k' := by
  rw [add, mem_valuesAt_insert, ExtTreeSet.mem_insert, LawfulEqCmp.compare_eq_iff_eq]
  by_cases h : k = k' <;> simp [h]

theorem mem_valuesAt_drop :
    v' ∈ valuesAt (drop m k v) k' ↔ v' ∈ valuesAt m k' ∧ ¬(k = k' ∧ v = v') := by
  unfold drop
  split
  · next hnone =>
    by_cases h : k = k'
    · subst h
      simp [valuesAt, hnone]
    · simp [h]
  · next values hvalues =>
    rw [mem_valuesAt_insert, ExtTreeSet.mem_erase, ne_eq, LawfulEqCmp.compare_eq_iff_eq]
    by_cases h : k = k'
    · subst h
      simp [valuesAt, hvalues, and_comm]
    · simp [h]

/-- Pruning is dropping, as far as the relation goes. -/
theorem mem_valuesAt_prune :
    v' ∈ valuesAt (prune m k v) k' ↔ v' ∈ valuesAt m k' ∧ ¬(k = k' ∧ v = v') := by
  rw [← mem_valuesAt_drop]
  unfold prune drop
  split
  · rfl
  · split
    · next hempty =>
      rw [mem_valuesAt_insert, mem_valuesAt_erase, ExtTreeSet.isEmpty_iff.mp hempty]
      simp
    · rfl

omit [LawfulEqCmp cmpK] [LawfulEqCmp cmpV] in
/-- A value that is taken out under several keys. -/
theorem mem_valuesAt_foldl {take : ExtTreeMap K (ExtTreeSet V cmpV) cmpK → K →
      ExtTreeMap K (ExtTreeSet V cmpV) cmpK}
    (htake : ∀ m k k' v', v' ∈ valuesAt (take m k) k' ↔ v' ∈ valuesAt m k' ∧ ¬(k = k' ∧ v = v'))
    (keys : List K) :
    v' ∈ valuesAt (keys.foldl take m) k' ↔ v' ∈ valuesAt m k' ∧ ¬(k' ∈ keys ∧ v = v') := by
  induction keys generalizing m with
  | nil => simp
  | cons key keys ih =>
    rw [List.foldl_cons, ih, htake, List.mem_cons]
    tauto

end Swactor.Multimap
