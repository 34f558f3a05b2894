import Swactor.DataPlane.RingDelivery
import Swactor.Lib.Outcomes

/-!
# Observing a ring

A third party loads the header and the cursors of a ring one after the other while both parties
work on it, each load at a moment of its own. The write cursor is loaded first. The observation is
right exactly if the read cursor, at the moment it is loaded, has not passed that write cursor.
-/
namespace Swactor.DataPlane

open Interleaving Machine

namespace RingProbe

variable (info : RingHandle)

def positions : RingM (ℕ × ℕ) := do
  let generation ← load .generation
  throwIf (generation ≠ info.generation)
    (.flow (.staleReservation info.generation generation))
  let commit ← load .commit
  let consume ← load .consume
  throwIf (commit < consume) (.flow (.corrupt (.commitBelowConsume commit consume)))
  throwIf (commit - consume > info.capacity)
    (.flow (.corrupt (.readableExceedsCapacity commit consume info.capacity)))
  return (commit, consume)

/-- `positions().is_ok_and`. -/
def isOkAnd (test : ℕ × ℕ → Bool) : RingProg Bool := do
  match ← (positions info).run with
  | .ok cursors => return test cursors
  | .error _ => return false

def hasData : RingProg Bool := isOkAnd info fun (commit, consume) => commit > consume

def hasCapacity : RingProg Bool :=
  isOkAnd info fun (commit, consume) => commit - consume < info.capacity

end RingProbe

/-- An access to the ring of one moment, before an access to that of the next. -/
def watch (capacity : ℕ) (o : RingOp) (rings : ℕ → Ring) : o.Result × (ℕ → Ring) :=
  ((Ring.exec capacity o (rings 0)).1, fun i => rings (i + 1))

variable {rings : ℕ → Ring}

@[simp] theorem watch_load {ε : Type} (capacity : ℕ) (field : Field) :
    outcome (watch capacity) (load field : ExceptT ε RingProg ℕ) rings =
      (.ok ((rings 0).load field), fun i => rings (i + 1)) := rfl

/-- A ring that was seen at several moments, the read cursor of which never went back. -/
structure Watched (info : RingHandle) (rings : ℕ → Ring) : Prop where
  healthy : ∀ i, (rings i).Healthy info
  forward : ∀ i j, i ≤ j → (rings i).consume ≤ (rings j).consume

variable {info : RingHandle}

section

variable (h : Watched info rings)
include h

theorem Watched.fits {i j : ℕ} (hij : i ≤ j) :
    ¬ info.capacity < (rings i).commit - (rings j).consume := by
  have hwindow := (h.healthy i).window.2
  have hforward := h.forward i j hij
  omega

theorem watch_positions :
    (outcome (watch info.capacity) (RingProbe.positions info) rings).1 =
      if (rings 1).commit < (rings 2).consume then
        .error (.flow (.corrupt (.commitBelowConsume (rings 1).commit (rings 2).consume)))
      else .ok ((rings 1).commit, (rings 2).consume) := by
  have hfits := h.fits (show 1 ≤ 2 by decide)
  by_cases hpassed : (rings 1).commit < (rings 2).consume <;>
    simp [RingProbe.positions, Ring.load, (h.healthy 0).generation, hfits, hpassed]

theorem watch_isOkAnd (test : ℕ × ℕ → Bool) :
    ((RingProbe.isOkAnd info test).eval (watch info.capacity) rings).1 = true ↔
      (rings 2).consume ≤ (rings 1).commit ∧
        test ((rings 1).commit, (rings 2).consume) = true := by
  unfold RingProbe.isOkAnd
  rw [Prog.eval_bind, show (Prog.eval _ (RingProbe.positions info).run rings).1 = _ from
    watch_positions h]
  split_ifs with hpassed
  · change false = true ↔ _
    simp [hpassed]
  · change test _ = true ↔ _
    simp [not_lt.mp hpassed]

theorem watch_endpoint (role : Role) :
    (outcome (watch info.capacity) (Endpoint.positions ⟨info, role⟩) rings).1.isOk = true ↔
      (rings 6).consume ≤ (rings 5).commit := by
  have hfits := h.fits (show 5 ≤ 6 by decide)
  rw [← not_lt]
  by_cases hpassed : (rings 5).commit < (rings 6).consume <;>
    simp [Endpoint.positions, corrupt, Endpoint.validateFixed, Endpoint.validateGeneration,
      Endpoint.validateCursors, Ring.load, (h.healthy 0).magic, (h.healthy 1).version,
      (h.healthy 2).reserved, (h.healthy 3).capacity, (h.healthy 4).generation, Except.mapError,
      Except.isOk, Except.toBool, hfits, hpassed]

end

namespace Channel

/-- The ring after the first actions of a run. -/
def ringAt (info : RingHandle) (actions : List Action) (time : ℕ) : Ring :=
  (run info (actions.take time)).ring

variable {actions : List Action} {times : ℕ → ℕ}

theorem consume_step {x : Channel} (h : x.Ok info) (a : Action) :
    x.ring.consume ≤ (x.step info a).ring.consume := by
  cases a with
  | call role call =>
    obtain ⟨ring, producer, consumer⟩ := x
    cases role with
    | producer => cases producer <;> exact Nat.le_refl _
    | consumer => cases consumer <;> exact Nat.le_refl _
  | access role =>
    cases role with
    | producer => exact h.filled.consume.ge
    | consumer => exact h.drained.consume

/-- The parties keep their sides up to every moment of a run. -/
theorem ok_take (hfair : Guarded Fair (step info) (opened info) actions) (time : ℕ) :
    (run info (actions.take time)).Ok info := by
  rw [← List.take_append_drop time actions] at hfair
  exact (guarded_append.mp hfair).1.invariant (fun _ a hy hf => ok_step hy a hf) ok_opened

theorem watched (hfair : Guarded Fair (step info) (opened info) actions) (htimes : Monotone times) :
    Watched info fun i => ringAt info actions (times i) where
  healthy i := (ok_take hfair _).delivers.healthy
  forward i j hij := by
    have hmono : Monotone fun time => (ringAt info actions time).consume := by
      refine monotone_nat_of_le_succ fun time => ?_
      have hstep := consume_step (ok_take hfair time)
      unfold ringAt run at *
      rw [List.take_add_one, List.foldl_append]
      cases actions[time]? with
      | none => exact Nat.le_refl _
      | some a => exact hstep a
    exact hmono (htimes hij)

/-- Whenever the loads of an observation are made in a run of both parties: it ends with a pair of
cursors, and tells a ring with data or capacity, exactly if the read cursor that it loads has not
passed, or not reached, the write cursor that it loaded before. -/
theorem observed_soundly_iff (info : RingHandle) (actions : List Action)
    (hfair : Guarded Fair (step info) (opened info) actions) (times : ℕ → ℕ)
    (htimes : Monotone times) :
    let rings i := ringAt info actions (times i)
    ((outcome (watch info.capacity) (RingProbe.positions info) rings).1.isOk = true ↔
      (rings 2).consume ≤ (rings 1).commit) ∧
    (∀ role, (outcome (watch info.capacity) (Endpoint.positions ⟨info, role⟩) rings).1.isOk = true ↔
      (rings 6).consume ≤ (rings 5).commit) ∧
    (((RingProbe.hasData info).eval (watch info.capacity) rings).1 = true ↔
      (rings 2).consume < (rings 1).commit) ∧
    ((rings 1).commit < (rings 1).consume + info.capacity →
      (((RingProbe.hasCapacity info).eval (watch info.capacity) rings).1 = true ↔
        (rings 2).consume ≤ (rings 1).commit)) := by
  intro rings
  have h : Watched info rings := watched hfair htimes
  refine ⟨?_, watch_endpoint h, ?_, fun hroom => ?_⟩
  · rw [watch_positions h]
    split_ifs with hpassed
    · simpa [Except.isOk, Except.toBool] using hpassed
    · simpa [Except.isOk, Except.toBool] using hpassed
  · rw [RingProbe.hasData, watch_isOkAnd h]
    simpa using Nat.le_of_lt
  · rw [RingProbe.hasCapacity, watch_isOkAnd h]
    have hforward := h.forward 1 2 (by decide)
    have hwindow := (h.healthy 1).window.1
    have hfits : (rings 1).commit - (rings 2).consume < info.capacity := by omega
    simp [hfits]

/-- Between the loads two of the three bytes are consumed. -/
theorem observed_soundly_while_consumed :
    let info : RingHandle := ⟨4, 1⟩
    let actions := whole .producer (.reserve 3) ++ whole .producer (.write ⟨0, 3, 1⟩ [1, 2, 3]) ++
      whole .producer (.commit ⟨0, 3, 1⟩) ++ whole .consumer (.consume 2)
    let times i := if i < 2 then 39 else 52
    (ringAt info actions (times 1)).consume = 0 ∧ (ringAt info actions (times 2)).consume = 2 ∧
      ((RingProbe.hasData info).eval (watch 4) fun i => ringAt info actions (times i)).1 =
        true := by
  intro info actions times
  have hfair : Guarded Fair (step info) (opened info) actions := by decide +kernel
  have htimes : Monotone times := by
    refine monotone_nat_of_le_succ fun i => ?_
    simp only [times]
    split_ifs <;> omega
  have hbefore : (ringAt info actions (times 1)).consume = 0 := by decide +kernel
  have hafter : (ringAt info actions (times 2)).consume = 2 := by decide +kernel
  have hdata :
      (ringAt info actions (times 2)).consume < (ringAt info actions (times 1)).commit := by
    decide +kernel
  clear_value actions
  exact ⟨hbefore, hafter, (observed_soundly_iff info actions hfair times htimes).2.2.1.mpr hdata⟩

/-- A ring of four cells holds one byte when the write cursor is loaded. Two more are committed and
two consumed until the read cursor is loaded, which has then passed the loaded write cursor. At no
moment in between is the ring empty or full. -/
theorem cursor_passes_observer :
    let info : RingHandle := ⟨4, 1⟩
    let actions := whole .producer (.reserve 1) ++ whole .producer (.write ⟨0, 1, 1⟩ [7]) ++
      whole .producer (.commit ⟨0, 1, 1⟩) ++ whole .producer (.reserve 2) ++
      whole .producer (.write ⟨1, 2, 1⟩ [8, 9]) ++ whole .producer (.commit ⟨1, 2, 1⟩) ++
      whole .consumer (.consume 2)
    let rings i := ringAt info actions (if i < 2 then 39 else 91)
    Guarded Fair (step info) (opened info) actions ∧
      (∀ time ≤ 91, 39 ≤ time →
        (ringAt info actions time).consume < (ringAt info actions time).commit ∧
        (ringAt info actions time).commit < (ringAt info actions time).consume + 4) ∧
      (outcome (watch 4) (RingProbe.positions info) rings).1 =
        .error (.flow (.corrupt (.commitBelowConsume 1 2))) ∧
      ((RingProbe.hasData info).eval (watch 4) rings).1 = false ∧
      ((RingProbe.hasCapacity info).eval (watch 4) rings).1 = false := by
  decide +kernel

end Channel

end Swactor.DataPlane
