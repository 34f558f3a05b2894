import Swactor.Lib.Machine

/-!
# Laws of a trace

A law says what may be issued after what was issued before. A trace is lawful if
each of its entries was allowed by the entries before it, so a trace that grows
at its end stays lawful as long as the new entry is allowed. An invariant between
the state of a machine and the trace it has left is proved for one call and holds
of whole runs.
-/
namespace Swactor.Trace

open Machine List

variable {B : Type*} {legal : List B → B → Prop} {trace : List B}

/-- Every entry of the trace is allowed by the entries before it. -/
def Lawful (legal : List B → B → Prop) (trace : List B) : Prop :=
  ∀ past entry rest, trace = past ++ entry :: rest → legal past entry

@[simp, grind .] theorem lawful_nil : Lawful legal [] := by
  intro past entry rest h
  simp at h

@[simp, grind =] theorem lawful_concat {entry : B} :
    Lawful legal (trace ++ [entry]) ↔ Lawful legal trace ∧ legal trace entry := by
  constructor
  · intro h
    refine ⟨fun past e rest ht => h past e (rest ++ [entry]) ?_, h trace entry [] rfl⟩
    simp [ht]
  · rintro ⟨h, hentry⟩ past e rest ht
    rcases eq_nil_or_concat rest with rfl | ⟨rest, last, rfl⟩
    · obtain ⟨rfl, rfl⟩ : trace = past ∧ entry = e := by simpa using ht
      exact hentry
    · apply h past e rest
      have hlast : trace ++ [entry] = (past ++ e :: rest) ++ [last] := by simpa using ht
      exact (append_inj' hlast (by simp)).1

@[grind =] theorem lawful_append_cons {a b : B} {rest : List B} :
    Lawful legal (trace ++ a :: b :: rest) ↔ Lawful legal ((trace ++ [a]) ++ b :: rest) := by
  simp

/-- The log has grown by entries that meet `p`. -/
def Grown (p : B → Prop) (old new : List B) : Prop :=
  ∃ said, new = old ++ said ∧ ∀ entry ∈ said, p entry

theorem Grown.refl {p : B → Prop} (log : List B) : Grown p log log :=
  ⟨[], (append_nil log).symm, nofun⟩

theorem Grown.trans {p : B → Prop} {old mid new : List B} (h : Grown p old mid)
    (h' : Grown p mid new) : Grown p old new := by
  obtain ⟨said, rfl, hsaid⟩ := h
  obtain ⟨more, rfl, hmore⟩ := h'
  exact ⟨said ++ more, append_assoc .., forall_mem_append.mpr ⟨hsaid, hmore⟩⟩

/-- Some entry of the trace meets `p`. -/
def seen (p : B → Bool) (trace : List B) : Bool := trace.any p

variable {p : B → Bool}

@[simp, grind =] theorem seen_nil : seen p [] = false := rfl

@[simp, grind =] theorem seen_append {rest : List B} :
    seen p (trace ++ rest) = (seen p trace || seen p rest) := by simp [seen]

@[simp, grind =] theorem seen_cons {entry : B} :
    seen p (entry :: trace) = (p entry || seen p trace) := by simp [seen]

/-- Where the law allows a kind of entry only if there is none before, there is at most one. -/
theorem Lawful.countP_le_one (h : Lawful legal trace)
    (hsingle : ∀ past entry, legal past entry → p entry → !seen p past) : trace.countP p ≤ 1 := by
  induction trace using reverseRecOn with
  | nil => simp
  | append_singleton trace entry ih =>
    obtain ⟨htrace, hentry⟩ := lawful_concat.mp h
    rw [countP_append, countP_singleton]
    split
    · have hnone : trace.countP p = 0 := by
        simpa [seen, countP_eq_zero] using hsingle trace entry hentry ‹_›
      omega
    · exact ih htrace

/-- An entry that meets `start` was not followed by one that meets `ends`. -/
def Since (start ends : B → Prop) (trace : List B) : Prop :=
  ∃ past entry rest, trace = past ++ entry :: rest ∧ start entry ∧ ∀ later ∈ rest, ¬ends later

@[simp] theorem not_since_nil {start ends : B → Prop} : ¬Since start ends [] := by
  rintro ⟨past, entry, rest, h, -⟩
  simp at h

theorem since_concat {start ends : B → Prop} {entry : B} : Since start ends (trace ++ [entry]) ↔
    start entry ∨ Since start ends trace ∧ ¬ends entry := by
  constructor
  · rintro ⟨past, first, rest, htrace, hstart, hends⟩
    rcases eq_nil_or_concat rest with rfl | ⟨rest, last, rfl⟩
    · obtain ⟨-, rfl⟩ : trace = past ∧ entry = first := by simpa using htrace
      exact .inl hstart
    · have hlast : trace ++ [entry] = (past ++ first :: rest) ++ [last] := by simpa using htrace
      obtain ⟨rfl, hentry⟩ := append_inj' hlast (by simp)
      obtain rfl : entry = last := by simpa using hentry
      refine .inr ⟨⟨past, first, rest, rfl, hstart, fun later hlater => hends later ?_⟩,
        hends entry ?_⟩
      · simp [hlater]
      · simp
  · rintro (hstart | ⟨⟨past, first, rest, rfl, hstart, hends⟩, hentry⟩)
    · exact ⟨trace, entry, [], rfl, hstart, by simp⟩
    · refine ⟨past, first, rest ++ [entry], by simp, hstart, fun later hlater => ?_⟩
      rcases mem_append.mp hlater with hlater | hlater
      · exact hends later hlater
      · rwa [mem_singleton.mp hlater]

variable {S A : Type*} {call : S → A → S × List B} {I : S → List B → Prop}

/-- What is seen of an invariant that every admitted action keeps, and that no other action lets be
seen again, is seen throughout a run exactly if all its actions are admitted. -/
theorem forall_prefix_iff_guarded {P Q : S → Prop} {ok : S → A → Prop} {step : S → A → S}
    {as : List A} (hkeep : ∀ s, ∀ a ∈ as, P s → ok s a → P (step s a))
    (hok : ∀ s, ∀ a ∈ as, P s → Q (step s a) → ok s a) (hseen : ∀ s, P s → Q s) {s : S}
    (hs : P s) :
    (∀ past, past <+: as → Q (past.foldl step s)) ↔ Guarded ok step s as := by
  induction as generalizing s with
  | nil => simpa [Guarded] using hseen s hs
  | cons a as ih =>
    have hrest (s : S) (hs : P s) := ih (fun s b hb => hkeep s b (mem_cons_of_mem a hb))
      (fun s b hb => hok s b (mem_cons_of_mem a hb)) hs
    constructor
    · intro h
      have ha : ok s a := hok s a mem_cons_self hs (by simpa using h [a] (by simp))
      refine ⟨ha, (hrest _ (hkeep s a mem_cons_self hs ha)).mp fun past hpast => ?_⟩
      simpa using h (a :: past) (by simpa using hpast)
    · rintro ⟨ha, has⟩ past hpast
      cases past with
      | nil => exact hseen s hs
      | cons b past =>
        obtain ⟨rfl, hrest'⟩ : b = a ∧ past <+: as := by simpa using hpast
        exact (hrest _ (hkeep s b mem_cons_self hs ha)).mpr has past hrest'

/-- The call rule lifted to runs. -/
theorem collect_invariant (hcall : ∀ s out a, I s out → I (call s a).1 (out ++ (call s a).2))
    (as : List A) {s : S} {out : List B} (h : I s out) :
    I (collect call s as).1 (out ++ (collect call s as).2) := by
  induction as generalizing s out with
  | nil => simpa [collect] using h
  | cons a as ih => simpa [collect, andThen] using ih (hcall s out a h)

end Swactor.Trace
