import Mathlib

/-!
# Last-writer-wins registers over an arbitrary key order

A register holds at most one value. A delivered value replaces it exactly when
its key is strictly larger. The register then holds a value of maximal key among
those delivered, whatever the order and multiplicity of the deliveries, and that
value is unique as soon as equal keys imply equal values.
-/
namespace Swactor.LastWriter

variable {α κ : Type*} [LinearOrder κ]

/-- One delivery to a register. -/
def keep (key : α → κ) (held : Option α) (a : α) : Option α :=
  match held with
  | none => some a
  | some b => if key b < key a then some a else some b

/-- `held` is a maximal value among those satisfying `D`, or there is none. -/
def IsWinner (key : α → κ) (D : α → Prop) (held : Option α) : Prop :=
  match held with
  | none => ∀ a, ¬ D a
  | some b => D b ∧ ∀ a, D a → key a ≤ key b

/-- Equal keys identify the values satisfying `D`. -/
def Identified (key : α → κ) (D : α → Prop) : Prop :=
  ∀ a b, D a → D b → key a = key b → a = b

/-- The delivery of `a` raises the maximum. -/
def Raises (key : α → κ) (held : Option α) (a : α) : Prop :=
  ∀ b ∈ held, key b < key a

variable {key : α → κ} {D E : α → Prop} {held : Option α}

theorem keep_of_raises {a : α} (h : Raises key held a) : keep key held a = some a := by
  cases held with
  | none => rfl
  | some b => simp [keep, h b rfl]

theorem keep_of_not_raises {a : α} (h : ¬ Raises key held a) : keep key held a = held := by
  cases held with
  | none => exact absurd (by simp [Raises]) h
  | some b =>
    have hb : ¬ key b < key a := by simpa [Raises] using h
    simp [keep, hb]

/-- One delivery keeps the register maximal among everything delivered so far. -/
theorem IsWinner.keep (h : IsWinner key D held) (a : α) :
    IsWinner key (fun b => D b ∨ b = a) (keep key held a) := by
  cases held with
  | none =>
    refine ⟨Or.inr rfl, fun b hb => ?_⟩
    rcases hb with hb | rfl
    · exact absurd hb (h b)
    · exact le_rfl
  | some c =>
    by_cases hc : key c < key a
    · simp only [LastWriter.keep, if_pos hc]
      refine ⟨Or.inr rfl, fun b hb => ?_⟩
      rcases hb with hb | rfl
      · exact (h.2 b hb).trans hc.le
      · exact le_rfl
    · simp only [LastWriter.keep, if_neg hc]
      refine ⟨Or.inl h.1, fun b hb => ?_⟩
      rcases hb with hb | rfl
      · exact h.2 b hb
      · exact not_lt.mp hc

theorem IsWinner.congr (h : IsWinner key D held) (hDE : ∀ a, D a ↔ E a) : IsWinner key E held := by
  have heq : D = E := funext fun a => propext (hDE a)
  exact heq ▸ h

/-- Two maximal values of an identified family coincide. -/
theorem IsWinner.unique {held' : Option α} (hi : Identified key D)
    (h : IsWinner key D held) (h' : IsWinner key D held') : held = held' := by
  cases held with
  | none =>
    cases held' with
    | none => rfl
    | some b => exact absurd h'.1 (h b)
  | some a =>
    cases held' with
    | none => exact absurd h.1 (h' a)
    | some b =>
      have hab : key a = key b := le_antisymm (h'.2 a h.1) (h.2 b h'.1)
      exact congrArg some (hi a b h.1 h'.1 hab)

/-- A delivery raises the register exactly when its key exceeds every delivered one. -/
theorem IsWinner.raises_iff (h : IsWinner key D held) (a : α) :
    Raises key held a ↔ ∀ b, D b → key b < key a := by
  cases held with
  | none => exact ⟨fun _ b hb => absurd hb (h b), fun _ => by simp [Raises]⟩
  | some c =>
    simp only [Raises, Option.mem_def, Option.some.injEq, forall_eq']
    exact ⟨fun hc b hb => (h.2 b hb).trans_lt hc, fun hall => hall c h.1⟩

end Swactor.LastWriter
