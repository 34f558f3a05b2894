import Swactor.Lib.Interleaving

/-!
# Undisturbed programs

A program that runs alone is evaluated by carrying out its operations one after the other. The
simp set evaluates the programs that can fail.
-/
namespace Swactor.Interleaving

variable {O : Type} {R : O → Type} {α β σ ε ε' : Type}

/-- The value and the state a program ends with if nothing happens between its operations. -/
def Prog.eval (exec : (o : O) → σ → R o × σ) : Prog O R α → σ → α × σ
  | .done a, s => (a, s)
  | .op o next, s => (next (exec o s).1).eval exec (exec o s).2

/-- How a program that can fail ends. -/
def outcome (exec : (o : O) → σ → R o × σ) (m : ExceptT ε (Prog O R) α) (s : σ) :
    Except ε α × σ :=
  m.run.eval exec s

variable {exec : (o : O) → σ → R o × σ} {s : σ}

theorem Prog.eval_bind (p : Prog O R α) (f : α → Prog O R β) :
    (p >>= f).eval exec s = (f (p.eval exec s).1).eval exec (p.eval exec s).2 := by
  induction p generalizing s with
  | done a => rfl
  | op o next ih => exact ih _

@[simp] theorem outcome_bind (x : ExceptT ε (Prog O R) β) (f : β → ExceptT ε (Prog O R) α) :
    outcome exec (x >>= f) s = match outcome exec x s with
      | (.ok b, t) => outcome exec (f b) t
      | (.error e, t) => (.error e, t) := by
  unfold outcome
  rw [ExceptT.run_bind, Prog.eval_bind]
  rcases x.run.eval exec s with ⟨⟨⟩, t⟩ <;> rfl

@[simp] theorem outcome_adapt (f : ε' → ε) (x : ExceptT ε' (Prog O R) α) :
    outcome exec (ExceptT.adapt f x) s =
      ((outcome exec x s).1.mapError f, (outcome exec x s).2) := by
  show Prog.eval exec (x.run >>= _) s = _
  rw [Prog.eval_bind]
  unfold outcome
  rcases x.run.eval exec s with ⟨⟨⟩, t⟩ <;> rfl

@[simp] theorem outcome_pure (a : α) :
    outcome exec (pure a : ExceptT ε (Prog O R) α) s = (.ok a, s) := rfl

@[simp] theorem outcome_throwIf (c : Prop) [Decidable c] (e : ε) :
    outcome exec (throwIf c e : ExceptT ε (Prog O R) Unit) s =
      (if c then .error e else .ok (), s) := by
  unfold throwIf
  split_ifs <;> rfl

end Swactor.Interleaving
