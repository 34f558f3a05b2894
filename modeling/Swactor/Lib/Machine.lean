import Mathlib

/-!
# Runs of a state machine and their invariants

A machine is a total step function; a run is the left fold of that step over a
list of actions. `Guarded` says that every action of a run met a condition in
the state in which it was taken. An invariant is proved for one guarded step and
transported to every guarded run, and hence to every state on the way, because a
prefix of a guarded run is a guarded run.

A machine with output returns the new state and what it emits. Its calls compose
by `andThen`, its runs by `collect`. A relation between a state, an output and a
later state that is `Sequential` is proved call by call and holds of whole runs.
-/
namespace Swactor.Machine

open List

variable {S A : Type*}

/-- Every action of the run meets `ok` in the state in which it is taken. -/
def Guarded (ok : S → A → Prop) (step : S → A → S) : S → List A → Prop
  | _, [] => True
  | s, a :: as => ok s a ∧ Guarded ok step (step s a) as

instance Guarded.decidable (ok : S → A → Prop) (step : S → A → S)
    [∀ s a, Decidable (ok s a)] : ∀ s as, Decidable (Guarded ok step s as)
  | _, [] => inferInstanceAs (Decidable True)
  | s, a :: as =>
      have := Guarded.decidable ok step (step s a) as
      inferInstanceAs (Decidable (ok s a ∧ Guarded ok step (step s a) as))

variable {ok : S → A → Prop} {step : S → A → S} {P : S → Prop} {as : List A} {s : S}

/-- The step rule lifted to runs. -/
theorem Guarded.invariant (hstep : ∀ s a, P s → ok s a → P (step s a)) (h : Guarded ok step s as)
    (hs : P s) : P (as.foldl step s) := by
  induction as generalizing s with
  | nil => exact hs
  | cons a as ih => exact ih h.2 (hstep s a hs h.1)

theorem Guarded.mono {ok' : S → A → Prop} (hok : ∀ s a, ok s a → ok' s a)
    (h : Guarded ok step s as) : Guarded ok' step s as := by
  induction as generalizing s with
  | nil => trivial
  | cons a as ih => exact ⟨hok s a h.1, ih h.2⟩

variable {good : A → Prop}

theorem guarded_const : Guarded (fun _ a => good a) step s as ↔ ∀ a ∈ as, good a := by
  induction as generalizing s with
  | nil => simp [Guarded]
  | cons a as ih => rw [Guarded, ih, forall_mem_cons]

/-- The actions of a run meet what all its actions meet. -/
theorem Guarded.and_forall_mem (h : Guarded ok step s as) (hgood : ∀ a ∈ as, good a) :
    Guarded (fun s a => ok s a ∧ good a) step s as := by
  induction as generalizing s with
  | nil => trivial
  | cons a as ih =>
    exact ⟨⟨h.1, hgood a mem_cons_self⟩,
      ih h.2 fun b hb => hgood b (mem_cons_of_mem a hb)⟩

/-- Two conditions that agree as long as an invariant holds admit the same runs. -/
theorem guarded_congr {ok' : S → A → Prop} (hok : ∀ s a, good a → P s → (ok s a ↔ ok' s a))
    (hstep : ∀ s a, good a → P s → ok s a → P (step s a)) (hgood : ∀ a ∈ as, good a) (hs : P s) :
    Guarded ok step s as ↔ Guarded ok' step s as := by
  induction as generalizing s with
  | nil => rfl
  | cons a as ih =>
    have ha : good a := hgood a mem_cons_self
    have has : ∀ b ∈ as, good b := fun b hb => hgood b (mem_cons_of_mem a hb)
    constructor
    · rintro ⟨h, hrest⟩
      exact ⟨(hok s a ha hs).mp h, (ih has (hstep s a ha hs h)).mp hrest⟩
    · rintro ⟨h, hrest⟩
      have h' : ok s a := (hok s a ha hs).mpr h
      exact ⟨h', (ih has (hstep s a ha hs h')).mpr hrest⟩

theorem guarded_append {bs : List A} :
    Guarded ok step s (as ++ bs) ↔
      Guarded ok step s as ∧ Guarded ok step (as.foldl step s) bs := by
  induction as generalizing s with
  | nil => simp [Guarded]
  | cons a as ih => simp only [cons_append, Guarded, ih, foldl_cons, and_assoc]

theorem guarded_iff_forall_past :
    Guarded ok step s as ↔ ∀ past a, past ++ [a] <+: as → ok (past.foldl step s) a := by
  induction as generalizing s with
  | nil => simp [Guarded]
  | cons b bs ih =>
    constructor
    · rintro ⟨hb, hbs⟩ past a hpast
      cases past with
      | nil =>
        obtain rfl : a = b := by simpa using hpast
        exact hb
      | cons c past =>
        obtain ⟨rfl, hrest⟩ : c = b ∧ past ++ [a] <+: bs := by simpa using hpast
        exact ih.mp hbs past a hrest
    · intro h
      exact ⟨h [] b (by simp), ih.mpr fun past a hpast => h (b :: past) a (by simpa using hpast)⟩

/-- Some action of the run met `ok` in the state in which it was taken. -/
def Happened (ok : S → A → Prop) (step : S → A → S) : S → List A → Prop
  | _, [] => False
  | s, a :: as => ok s a ∨ Happened ok step (step s a) as

instance Happened.decidable (ok : S → A → Prop) (step : S → A → S)
    [∀ s a, Decidable (ok s a)] : ∀ s as, Decidable (Happened ok step s as)
  | _, [] => inferInstanceAs (Decidable False)
  | s, a :: as =>
      have := Happened.decidable ok step (step s a) as
      inferInstanceAs (Decidable (ok s a ∨ Happened ok step (step s a) as))

theorem happened_append {bs : List A} :
    Happened ok step s (as ++ bs) ↔
      Happened ok step s as ∨ Happened ok step (as.foldl step s) bs := by
  induction as generalizing s with
  | nil => simp [Happened]
  | cons a as ih => simp only [cons_append, Happened, ih, foldl_cons, or_assoc]

theorem happened_concat {a : A} :
    Happened ok step s (as ++ [a]) ↔ Happened ok step s as ∨ ok (as.foldl step s) a := by
  rw [happened_append]
  simp [Happened]

variable {B : Type*}

/-- Continue after `r` with `f` and append what `f` emits. -/
def andThen (r : S × List B) (f : S → S × List B) : S × List B :=
  ((f r.1).1, r.2 ++ (f r.1).2)

/-- The final state of a run of a machine with output, and all it emitted. -/
def collect (call : S → A → S × List B) : S → List A → S × List B
  | s, [] => (s, [])
  | s, a :: as => andThen (call s a) fun t => collect call t as

theorem collect_fst (call : S → A → S × List B) (s : S) (as : List A) :
    (collect call s as).1 = as.foldl (fun t a => (call t a).1) s := by
  induction as generalizing s with
  | nil => rfl
  | cons a as ih => exact ih (call s a).1

theorem collect_append (call : S → A → S × List B) (s : S) (as bs : List A) :
    collect call s (as ++ bs) = andThen (collect call s as) fun t => collect call t bs := by
  induction as generalizing s with
  | nil => simp [collect, andThen]
  | cons a as ih => simp [collect, andThen, ih]

/-- A relation that holds of doing nothing and of two calls made one after the other. -/
structure Sequential (R : S → List B → S → Prop) : Prop where
  nil : ∀ s, R s [] s
  append : ∀ {s t u : S} {out out' : List B}, R s out t → R t out' u → R s (out ++ out') u

variable {R : S → List B → S → Prop}

theorem Sequential.andThen (hR : Sequential R) {r : S × List B} {f : S → S × List B}
    (hr : R s r.2 r.1) (hf : R r.1 (f r.1).2 (f r.1).1) :
    R s (Machine.andThen r f).2 (Machine.andThen r f).1 :=
  hR.append hr hf

variable {call : S → A → S × List B}

/-- The call rule lifted to runs whose inputs all meet a condition. -/
theorem Sequential.collect_guarded (hR : Sequential R) {ok : S → A → Prop}
    (hcall : ∀ s a, ok s a → R s (call s a).2 (call s a).1)
    (h : Guarded ok (fun t a => (call t a).1) s as) :
    R s (collect call s as).2 (collect call s as).1 := by
  induction as generalizing s with
  | nil => exact hR.nil s
  | cons a as ih => exact hR.append (hcall s a h.1) (ih h.2)

theorem Sequential.collect (hR : Sequential R) (hcall : ∀ s a, R s (call s a).2 (call s a).1)
    (s : S) (as : List A) : R s (Machine.collect call s as).2 (Machine.collect call s as).1 :=
  hR.collect_guarded (fun s a (_ : True) => hcall s a) (guarded_const.mpr fun _ _ => trivial)

/-- A level that never falls keeps its value over a run exactly if every input keeps it. -/
theorem collect_level_eq_iff {K : Type*} [PartialOrder K] {level : S → K} (keeps : K → A → Prop)
    (hP : ∀ s a, P s → P (call s a).1) (hmono : ∀ s a, level s ≤ level (call s a).1)
    (hcall : ∀ s a, P s → (level (call s a).1 = level s ↔ keeps (level s) a)) (hs : P s)
    (as : List A) : level (collect call s as).1 = level s ↔ ∀ a ∈ as, keeps (level s) a := by
  have hle (s : S) (as : List A) : level s ≤ level (collect call s as).1 := by
    induction as generalizing s with
    | nil => exact le_refl _
    | cons a as ih => exact (hmono s a).trans (ih _)
  induction as generalizing s with
  | nil => simp [collect]
  | cons a as ih =>
    rw [forall_mem_cons]
    constructor
    · intro heq
      have hfirst : level (call s a).1 = level s :=
        le_antisymm ((hle (call s a).1 as).trans heq.le) (hmono s a)
      exact ⟨(hcall s a hs).mp hfirst, hfirst ▸ (ih (hP s a hs)).mp (heq.trans hfirst.symm)⟩
    · rintro ⟨ha, has⟩
      have hfirst := (hcall s a hs).mpr ha
      exact ((ih (hP s a hs)).mpr (hfirst.symm ▸ has)).trans hfirst

end Swactor.Machine
