import Swactor.Lib.Machine

/-!
# Amortized cost of runs

Every action of a machine has a cost in the state in which it is taken. If the cost is
paid by a potential, to which some actions add a charge, the total cost of a run is
bounded by the initial potential and the charges. A schedule whose total cost is bounded
pays nothing from some point on.
-/
namespace Swactor.Machine

open List

variable {S A : Type*}

/-- The total cost of a run. -/
def total (cost : S → A → ℕ) (step : S → A → S) : S → List A → ℕ
  | _, [] => 0
  | s, a :: as => cost s a + total cost step (step s a) as

variable {cost : S → A → ℕ} {step : S → A → S} {ok : S → A → Prop} {P : S → Prop}

theorem total_concat (s : S) (as : List A) (a : A) :
    total cost step s (as ++ [a]) = total cost step s as + cost (as.foldl step s) a := by
  induction as generalizing s with
  | nil => simp [total]
  | cons b as ih =>
    rw [cons_append, total, ih, total, foldl_cons]
    omega

/-- Steps that pay their cost from a potential bound the cost of whole runs. -/
theorem Guarded.total_le {Φ : S → ℕ} {charge : A → ℕ}
    (hinv : ∀ s a, P s → ok s a → P (step s a))
    (hpay : ∀ s a, P s → ok s a → cost s a + Φ (step s a) ≤ Φ s + charge a)
    {as : List A} {s : S} (h : Guarded ok step s as) (hs : P s) :
    total cost step s as + Φ (as.foldl step s) ≤ Φ s + (as.map charge).sum := by
  induction as generalizing s with
  | nil => simp [total]
  | cons a as ih =>
    have hstep := hpay s a hs h.1
    have hrest := ih h.2 (hinv s a hs h.1)
    rw [total, foldl_cons, map_cons, sum_cons]
    omega

/-- The first `m` actions of a schedule. -/
def upTo (σ : ℕ → A) (m : ℕ) : List A := (List.range m).map σ

theorem upTo_succ (σ : ℕ → A) (m : ℕ) : upTo σ (m + 1) = upTo σ m ++ [σ m] := by
  simp [upTo, range_succ]

theorem mem_upTo {σ : ℕ → A} {m : ℕ} {a : A} : a ∈ upTo σ m ↔ ∃ k < m, σ k = a := by
  simp [upTo]

/-- A schedule of bounded total cost costs nothing from some point on. -/
theorem eventually_free (s : S) (σ : ℕ → A) {bound : ℕ}
    (h : ∀ m, total cost step s (upTo σ m) ≤ bound) :
    ∃ N, ∀ m ≥ N, cost ((upTo σ m).foldl step s) (σ m) = 0 := by
  have hsucc (m : ℕ) : total cost step s (upTo σ (m + 1)) =
      total cost step s (upTo σ m) + cost ((upTo σ m).foldl step s) (σ m) := by
    rw [upTo_succ, total_concat]
  have hmono : Monotone fun m => total cost step s (upTo σ m) :=
    monotone_nat_of_le_succ fun m => by rw [hsucc]; omega
  let N := Function.argmin fun m => bound - total cost step s (upTo σ m)
  refine ⟨N, fun m hm => ?_⟩
  have hleast : bound - total cost step s (upTo σ N) ≤
      bound - total cost step s (upTo σ (m + 1)) :=
    Function.argmin_le (fun m => bound - total cost step s (upTo σ m)) (m + 1)
  have hN : total cost step s (upTo σ N) ≤ total cost step s (upTo σ m) := hmono hm
  have hbound := h (m + 1)
  have hstep := hsucc m
  omega

end Swactor.Machine
