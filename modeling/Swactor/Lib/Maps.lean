import Mathlib

/-!
# Lookups in finite maps

The lookup lemmas of extensional tree maps with the equality of keys in place of their
comparison.
-/
namespace Swactor.Maps

open Std (ExtTreeMap TransCmp LawfulEqCmp)

variable {K V : Type*} {cmp : K → K → Ordering} [TransCmp cmp] [LawfulEqCmp cmp] [DecidableEq K]
  {m : ExtTreeMap K V cmp} {k a : K} {v w : V}

@[grind =]
theorem getElem?_insert_ite : (m.insert k v)[a]? = if k = a then some v else m[a]? := by
  rw [ExtTreeMap.getElem?_insert]
  by_cases h : k = a <;> simp [h, LawfulEqCmp.compare_eq_iff_eq]

@[grind =]
theorem getElem?_erase_ite : (m.erase k)[a]? = if k = a then none else m[a]? := by
  rw [ExtTreeMap.getElem?_erase]
  by_cases h : k = a <;> simp [h, LawfulEqCmp.compare_eq_iff_eq]

theorem getElem?_insert_fun :
    (fun a => (m.insert k v)[a]?) = Function.update (fun a => m[a]?) k (some v) := by
  ext1 a
  rw [getElem?_insert_ite, Function.update_apply]
  simp only [eq_comm]

theorem getElem?_erase_fun :
    (fun a => (m.erase k)[a]?) = Function.update (fun a => m[a]?) k none := by
  ext1 a
  rw [getElem?_erase_ite, Function.update_apply]
  simp only [eq_comm]

omit [DecidableEq K] in
theorem getElem?_insert_eq_some :
    (m.insert k v)[a]? = some w ↔ k = a ∧ v = w ∨ k ≠ a ∧ m[a]? = some w := by
  classical
  rw [getElem?_insert_ite]
  by_cases h : k = a <;> simp [h]

omit [DecidableEq K] in
theorem getElem?_erase_eq_some : (m.erase k)[a]? = some w ↔ k ≠ a ∧ m[a]? = some w := by
  classical
  rw [getElem?_erase_ite]
  by_cases h : k = a <;> simp [h]

omit [DecidableEq K] in
/-- A key that is there is replaced. -/
theorem mem_insert_of_getElem? (h : m[k]? = some v) : a ∈ m.insert k w ↔ a ∈ m := by
  rw [ExtTreeMap.mem_insert, LawfulEqCmp.compare_eq_iff_eq, or_iff_right_iff_imp]
  rintro rfl
  rw [ExtTreeMap.mem_iff_isSome_getElem?, h]
  rfl

omit [DecidableEq K] in
/-- Putting back what was taken out. -/
theorem insert_erase_of_getElem? (h : m[k]? = some v) : (m.erase k).insert k v = m := by
  classical
  ext1 a
  rw [getElem?_insert_ite, getElem?_erase_ite]
  by_cases hk : k = a
  · subst hk
    simp [h]
  · simp [hk]

end Swactor.Maps
