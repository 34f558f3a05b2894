import Mathlib

/-!
# Programs over shared memory

A program is a tree of operations on a shared state: it ends with a value, or performs one
operation and goes on with its result. Between two operations others may change the state.
A contract says what they may do, and which operations the program may perform in which
states. `Valid` follows a program along its operations: it keeps the contract and ends in
its postcondition. Nothing the others may do invalidates it.

Programs that can fail carry their error in the result. `Holds` is `Valid` with one
postcondition for values and one for errors.

A party runs programs one after the other for a client, whose state every program returns.
-/
namespace Swactor.Interleaving

inductive Prog (O : Type) (R : O → Type) (α : Type)
  | done (a : α)
  | op (o : O) (next : R o → Prog O R α)

variable {O : Type} {R : O → Type} {α β σ : Type}

namespace Prog

def bind : Prog O R α → (α → Prog O R β) → Prog O R β
  | .done a, f => f a
  | .op o next, f => .op o fun r => (next r).bind f

instance : Monad (Prog O R) where
  pure := .done
  bind := bind

/-- Every value the program can end with, whatever its operations return. -/
def Returns (Q : α → Prop) : Prog O R α → Prop
  | .done a => Q a
  | .op _ next => ∀ r, (next r).Returns Q

theorem returns_bind {p : Prog O R α} {f : α → Prog O R β} {Q : β → Prop} :
    (p.bind f).Returns Q ↔ p.Returns fun a => (f a).Returns Q := by
  induction p with
  | done a => rfl
  | op o next ih => exact forall_congr' fun r => ih r

theorem Returns.mono {p : Prog O R α} {Q Q' : α → Prop} (h : p.Returns Q)
    (hQ : ∀ a, Q a → Q' a) : p.Returns Q' := by
  induction p with
  | done a => exact hQ a h
  | op o next ih => exact fun r => ih r (h r)

/-- What is left of a program after operations whose results are taken from `results`. -/
def after (results : ℕ → (o : O) → R o) : Prog O R α → ℕ → Prog O R α
  | p, 0 => p
  | .done a, _ + 1 => .done a
  | .op o next, n + 1 => (next (results 0 o)).after (fun i => results (i + 1)) n

/-- Every program ends, whatever its operations return. -/
theorem ends (p : Prog O R α) (results : ℕ → (o : O) → R o) :
    ∃ n a, p.after results n = .done a := by
  induction p generalizing results with
  | done a => exact ⟨0, a, rfl⟩
  | op o next ih =>
    obtain ⟨n, a, h⟩ := ih (results 0 o) fun i => results (i + 1)
    exact ⟨n + 1, a, h⟩

end Prog

/-- What others may do between two operations, and which operations are allowed. -/
structure Contract (O σ : Type) where
  rely : σ → σ → Prop
  ok : O → σ → Prop
  refl : ∀ s, rely s s
  trans : ∀ {s t u}, rely s t → rely t u → rely s u

variable (exec : (o : O) → σ → R o × σ) (C : Contract O σ)

/-- The program keeps the contract from the state on and ends in the postcondition. -/
def Valid : Prog O R α → (α → σ → Prop) → σ → Prop
  | .done a, Q, s => Q a s
  | .op o next, Q, s =>
      ∀ t, C.rely s t → C.ok o t ∧ Valid (next (exec o t).1) Q (exec o t).2

variable {exec C}

variable {p : Prog O R α} {s : σ} {Q : α → σ → Prop}

theorem valid_bind {f : α → Prog O R β} {Q : β → σ → Prop} :
    Valid exec C (p >>= f) Q s ↔ Valid exec C p (fun a t => Valid exec C (f a) Q t) s := by
  induction p generalizing s with
  | done a => rfl
  | op o next ih =>
    constructor
    · intro h t ht
      exact ⟨(h t ht).1, ih _ |>.mp (h t ht).2⟩
    · intro h t ht
      exact ⟨(h t ht).1, ih _ |>.mpr (h t ht).2⟩

theorem Valid.mono {Q' : α → σ → Prop} (h : Valid exec C p Q s) (hQ : ∀ a t, Q a t → Q' a t) :
    Valid exec C p Q' s := by
  induction p generalizing s with
  | done a => exact hQ a s h
  | op o next ih => exact fun t ht => ⟨(h t ht).1, ih _ (h t ht).2⟩

theorem Valid.and_returns {Q' : α → Prop} (h : Valid exec C p Q s) (h' : p.Returns Q') :
    Valid exec C p (fun a t => Q' a ∧ Q a t) s := by
  induction p generalizing s with
  | done a => exact ⟨h', h⟩
  | op o next ih => exact fun t ht => ⟨(h t ht).1, ih _ (h t ht).2 (h' _)⟩

/-- What the others do keeps a program valid. -/
theorem Valid.stable {t : σ} (h : Valid exec C p Q s) (hQ : ∀ a s t, Q a s → C.rely s t → Q a t)
    (ht : C.rely s t) : Valid exec C p Q t := by
  cases p with
  | done a => exact hQ a s t h ht
  | op o next => exact fun u hu => h u (C.trans ht hu)

section Failing

variable {ε ε' : Type}

/-- Perform one operation. -/
def act (o : O) : ExceptT ε (Prog O R) (R o) := ExceptT.mk (.op o fun r => .done (.ok r))

def throwIf (c : Prop) [Decidable c] (e : ε) : ExceptT ε (Prog O R) Unit :=
  if c then throw e else pure ()

variable (exec C)

/-- The program keeps the contract and ends with a value in `Q` or with an error in `E`. -/
def Holds (m : ExceptT ε (Prog O R) α) (Q : α → σ → Prop) (E : ε → σ → Prop) (s : σ) : Prop :=
  Valid exec C m.run (fun r t => match r with | .ok a => Q a t | .error e => E e t) s

variable {exec C}
variable {Q : α → σ → Prop} {E : ε → σ → Prop} {s : σ}

theorem holds_pure {a : α} (h : Q a s) :
    Holds exec C (pure a : ExceptT ε (Prog O R) α) Q E s := h

theorem holds_throw {e : ε} (h : E e s) :
    Holds exec C (throw e : ExceptT ε (Prog O R) α) Q E s := h

theorem holds_bind {x : ExceptT ε (Prog O R) β} {f : β → ExceptT ε (Prog O R) α}
    (h : Holds exec C x (fun b t => Holds exec C (f b) Q E t) E s) :
    Holds exec C (x >>= f) Q E s := by
  unfold Holds at h ⊢
  rw [ExceptT.run_bind, valid_bind]
  refine h.mono fun r t hr => ?_
  cases r with
  | ok b => exact hr
  | error e => exact hr

theorem holds_act {o : O} {Q : R o → σ → Prop}
    (h : ∀ t, C.rely s t → C.ok o t ∧ Q (exec o t).1 (exec o t).2) :
    Holds exec C (act o : ExceptT ε (Prog O R) (R o)) Q E s := h

theorem holds_throwIf {c : Prop} [Decidable c] {e : ε} {Q : Unit → σ → Prop} (herr : c → E e s)
    (hok : ¬ c → Q () s) : Holds exec C (throwIf c e : ExceptT ε (Prog O R) Unit) Q E s := by
  unfold throwIf
  split_ifs with h
  · exact holds_throw (herr h)
  · exact holds_pure (hok h)

theorem holds_adapt {f : ε' → ε} {x : ExceptT ε' (Prog O R) α}
    (h : Holds exec C x Q (fun e t => E (f e) t) s) : Holds exec C (ExceptT.adapt f x) Q E s := by
  refine valid_bind.mpr (h.mono fun r t hr => ?_)
  cases r with
  | ok a => exact hr
  | error e => exact hr

theorem Holds.mono {m : ExceptT ε (Prog O R) α} {Q' : α → σ → Prop} {E' : ε → σ → Prop}
    (h : Holds exec C m Q E s) (hQ : ∀ a t, Q a t → Q' a t) (hE : ∀ e t, E e t → E' e t) :
    Holds exec C m Q' E' s := by
  refine Valid.mono h fun r t hr => ?_
  cases r with
  | ok a => exact hQ a t hr
  | error e => exact hE e t hr

/-- Every value the program can end with, unless it fails. -/
def Yields (m : ExceptT ε (Prog O R) α) (Q : α → Prop) : Prop :=
  m.run.Returns fun r => match r with | .ok a => Q a | .error _ => True

section Yields

variable {Q : α → Prop}

theorem yields_pure {a : α} (h : Q a) : Yields (pure a : ExceptT ε (Prog O R) α) Q := h

variable {f : β → ExceptT ε (Prog O R) α} {x : ExceptT ε (Prog O R) β}

theorem yields_bind {P : β → Prop} (hx : Yields x P) (hf : ∀ b, P b → Yields (f b) Q) :
    Yields (x >>= f) Q := by
  unfold Yields at hx ⊢
  rw [ExceptT.run_bind]
  refine Prog.returns_bind.mpr (hx.mono fun r hr => ?_)
  cases r with
  | ok b => exact hf b hr
  | error e => trivial

theorem yields_true (m : ExceptT ε (Prog O R) α) : Yields m fun _ => True := by
  unfold Yields
  generalize m.run = p
  induction p with
  | done r => cases r <;> trivial
  | op o next ih => exact fun r => ih r

/-- A value that does not depend on what was done before. -/
theorem yields_after (hf : ∀ b, Yields (f b) Q) : Yields (x >>= f) Q :=
  yields_bind (yields_true x) fun b _ => hf b

end Yields

end Failing

/-- Where a party stands: with its client between two programs, or inside a program that
returns the client's next state. -/
inductive Status (O : Type) (R : O → Type) (L : Type)
  | idle (client : L)
  | busy (program : Prog O R L)

namespace Status

variable {L : Type}

/-- The operation a party performs next. -/
def next : Status O R L → Option O
  | .busy (.op o _) => some o
  | _ => none

/-- The client of a party that runs no program. -/
def client? : Status O R L → Option L
  | .idle l => some l
  | .busy _ => none

/-- One step of a party: the next operation, or the return to its client. -/
def advance (exec : (o : O) → σ → R o × σ) : Status O R L → σ → Status O R L × σ
  | .busy (.op o k), s => (.busy (k (exec o s).1), (exec o s).2)
  | .busy (.done l), s => (.idle l, s)
  | .idle l, s => (.idle l, s)

/-- The client meets its invariant, or will when the running program has ended. -/
def Ok (exec : (o : O) → σ → R o × σ) (C : Contract O σ) (J : L → σ → Prop) :
    Status O R L → σ → Prop
  | .idle l, s => J l s
  | .busy p, s => Valid exec C p J s

variable {J : L → σ → Prop} {p : Status O R L} {s t : σ}

section

variable (h : p.Ok exec C J s)
include h

theorem Ok.next_ok {o : O} (ho : p.next = some o) : C.ok o s := by
  cases p with
  | idle l => simp [next] at ho
  | busy q =>
    cases q with
    | done l => simp [next] at ho
    | op o' k =>
      obtain rfl : o' = o := by simpa [next] using ho
      exact (h s (C.refl s)).1

theorem Ok.client {l : L} (hl : p.client? = some l) : J l s := by
  cases p with
  | idle l' =>
    obtain rfl : l' = l := by simpa [client?] using hl
    exact h
  | busy q => simp [client?] at hl

theorem Ok.advance : (p.advance exec s).1.Ok exec C J (p.advance exec s).2 := by
  cases p with
  | idle l => exact h
  | busy q =>
    cases q with
    | done l => exact h
    | op o k => exact (h s (C.refl s)).2

theorem Ok.stable (hJ : ∀ l s t, J l s → C.rely s t → J l t) (ht : C.rely s t) :
    p.Ok exec C J t := by
  cases p with
  | idle l => exact hJ l s t h ht
  | busy q => exact Valid.stable h hJ ht

/-- What every allowed operation does to the state, a step of the party does. -/
theorem Ok.advance_state {I : σ → Prop} (hs : I s) (hop : ∀ o, C.ok o s → I (exec o s).2) :
    I (p.advance exec s).2 := by
  cases p with
  | idle l => exact hs
  | busy q =>
    cases q with
    | done l => exact hs
    | op o k => exact hop o (h.next_ok rfl)

end

end Status

end Swactor.Interleaving
