import Mathlib

/-!
# Items held at exactly one place

A ledger assigns to every place the list of items held there. It is balanced when
every known item is held exactly once over all places and nothing else is held
anywhere. Three rules keep it balanced: items move between two places, a new item
enters at one place, and the ledger may be read through equal contents.
-/
namespace Swactor.Ledger

open List

variable {P X : Type*} [BEq X]

/-- Every item of `items` is held once at one place and nowhere else, and no place
holds anything but items. -/
structure Balanced (holding : P → List X) (items : List X) : Prop where
  held : ∀ x ∈ items, ∃ p, (holding p).count x = 1 ∧ ∀ q, q ≠ p → x ∉ holding q
  known : ∀ p, ∀ x ∈ holding p, x ∈ items

variable {holding holding' : P → List X} {items : List X}

theorem balanced_nil (h : ∀ p, holding p = []) : Balanced holding [] :=
  ⟨fun x hx => absurd hx not_mem_nil, fun p x hx => by simp [h p] at hx⟩

variable [LawfulBEq X]

/-- A count that is one at a single place keeps that form when two places exchange. -/
theorem single_of_exchange {f g : P → ℕ} (hf : ∃ c, f c = 1 ∧ ∀ r, r ≠ c → f r = 0) (p q : P)
    (hsum : g p + g q = f p + f q) (hother : ∀ r, r ≠ p → r ≠ q → g r = f r) :
    ∃ c, g c = 1 ∧ ∀ r, r ≠ c → g r = 0 := by
  obtain ⟨c, hc, hzero⟩ := hf
  by_cases hpq : p = q
  · subst hpq
    have hg : g = f := by
      ext r
      by_cases hr : r = p
      · subst hr
        omega
      · exact hother r hr hr
    exact hg ▸ ⟨c, hc, hzero⟩
  by_cases hcpq : c = p ∨ c = q
  · have hone : f p + f q = 1 := by
      rcases hcpq with rfl | rfl
      · have := hzero q (Ne.symm hpq)
        omega
      · have := hzero p hpq
        omega
    have hrest : ∀ r, r ≠ p → r ≠ q → g r = 0 := by
      intro r hrp hrq
      rw [hother r hrp hrq]
      exact hzero r (by rcases hcpq with rfl | rfl <;> assumption)
    have hwhere : g p = 1 ∧ g q = 0 ∨ g p = 0 ∧ g q = 1 := by omega
    obtain ⟨hp, hq⟩ | ⟨hp, hq⟩ := hwhere
    · refine ⟨p, hp, fun r hr => ?_⟩
      by_cases hrq : r = q
      · exact hrq ▸ hq
      · exact hrest r hr hrq
    · refine ⟨q, hq, fun r hr => ?_⟩
      by_cases hrp : r = p
      · exact hrp ▸ hp
      · exact hrest r hrp hr
  · obtain ⟨hcp, hcq⟩ := not_or.mp hcpq
    have hp := hzero p (Ne.symm hcp)
    have hq := hzero q (Ne.symm hcq)
    refine ⟨c, by rw [hother c hcp hcq, hc], fun r hr => ?_⟩
    by_cases hrp : r = p
    · subst hrp
      omega
    by_cases hrq : r = q
    · subst hrq
      omega
    rw [hother r hrp hrq]
    exact hzero r hr

/-- What is held at `p` and `q` together stays the same, and no other place changes. -/
theorem Balanced.move (hL : Balanced holding items) (p q : P)
    (hperm : (holding' p ++ holding' q).Perm (holding p ++ holding q))
    (hother : ∀ r, r ≠ p → r ≠ q → holding' r = holding r) : Balanced holding' items := by
  refine ⟨fun x hx => ?_, fun r x hx => ?_⟩
  · obtain ⟨c, hc, hrest⟩ := hL.held x hx
    have hsum := hperm.count_eq x
    simp only [count_append] at hsum
    have hsame : ∀ r, r ≠ p → r ≠ q → (holding' r).count x = (holding r).count x :=
      fun r hp hq => by rw [hother r hp hq]
    obtain ⟨c', hc', hrest'⟩ := single_of_exchange (g := fun r => (holding' r).count x)
      ⟨c, hc, fun r hr => count_eq_zero.mpr (hrest r hr)⟩ p q hsum hsame
    exact ⟨c', hc', fun r hr => count_eq_zero.mp (hrest' r hr)⟩
  · have hmem : x ∈ holding' p ++ holding' q → x ∈ items := fun h => by
      rcases mem_append.mp (hperm.mem_iff.mp h) with h | h
      · exact hL.known p x h
      · exact hL.known q x h
    by_cases hrp : r = p
    · subst hrp
      exact hmem (mem_append_left _ hx)
    by_cases hrq : r = q
    · subst hrq
      exact hmem (mem_append_right _ hx)
    rw [hother r hrp hrq] at hx
    exact hL.known r x hx

/-- A new item enters at `p`. -/
theorem Balanced.add (hL : Balanced holding items) {x : X} (hx : x ∉ items) (p : P)
    (hp : (holding' p).Perm (x :: holding p)) (hother : ∀ r, r ≠ p → holding' r = holding r) :
    Balanced holding' (items ++ [x]) := by
  have hmem : ∀ y, y ∈ holding' p ↔ y = x ∨ y ∈ holding p := fun y => by
    rw [hp.mem_iff, mem_cons]
  refine ⟨fun y hy => ?_, fun r y hy => ?_⟩
  · by_cases hyx : y = x
    · subst hyx
      have hnone : ∀ r, y ∉ holding r := fun r h => hx (hL.known r y h)
      refine ⟨p, ?_, fun r hr => ?_⟩
      · rw [hp.count_eq, count_cons_self, count_eq_zero.mpr (hnone p)]
      · rw [hother r hr]
        exact hnone r
    · have hy' : y ∈ items := by
        rcases mem_append.mp hy with h | h
        · exact h
        · exact absurd (mem_singleton.mp h) hyx
      obtain ⟨c, hc, hrest⟩ := hL.held y hy'
      refine ⟨c, ?_, fun r hr => ?_⟩
      · by_cases hcp : c = p
        · subst hcp
          rw [hp.count_eq, count_cons_of_ne (Ne.symm hyx), hc]
        · rw [hother c hcp, hc]
      · by_cases hrp : r = p
        · subst hrp
          rw [hmem]
          exact not_or.mpr ⟨hyx, hrest r hr⟩
        · rw [hother r hrp]
          exact hrest r hr
  · by_cases hrp : r = p
    · subst hrp
      rcases (hmem y).mp hy with rfl | h
      · exact mem_append_right _ (mem_singleton_self y)
      · exact mem_append_left _ (hL.known r y h)
    · rw [hother r hrp] at hy
      exact mem_append_left _ (hL.known r y hy)

end Swactor.Ledger
