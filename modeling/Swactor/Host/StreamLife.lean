import Swactor.Host.StreamFence
import Swactor.Lib.Trace

/-!
# The life of a stream binding

A binding asks for the release of its ring at most once, and not while its transport runs; it is
done once, and then everyone who waited has been answered; it installs and opens nothing once it
is terminal; and the child hears of the open at most once. The exception is a release that fails
after the open has failed: the child is told a second time.
-/
namespace Swactor.Host

open Machine Trace StreamEffect StreamCore StreamBinding HostStreamIn List
open Namespace (StreamIncarnation)
open DataPlane (PlacedRing)

namespace StreamEffect

/-- The ring is to be released. -/
def isRelease : StreamEffect → Bool
  | .releaseStream _ => true
  | _ => false

/-- The child hears how the open ended. -/
def isOutcome : StreamEffect → Bool
  | .operationFailed _ | .streamOpened _ _ => true
  | _ => false

/-- The transport is installed or the stream reported as open. -/
def isStart : StreamEffect → Bool
  | .install _ | .streamOpened _ _ => true
  | _ => false

/-- A waiter is answered. -/
def wakes (waiter : ActorAddress) : StreamEffect → Bool
  | .streamWake replyTo _ => replyTo = waiter
  | _ => false

end StreamEffect

/-- Who asks to be woken by the message. -/
def HostStreamIn.asks : HostStreamIn → Option ActorAddress
  | .waitData replyTo | .waitCapacity replyTo => some replyTo
  | .close _ replyTo => replyTo
  | _ => none

section Counts

open StreamEffect

/-- Effects that end nothing, begin nothing and tell the child nothing. -/
def StreamEffect.inert : StreamEffect → Bool
  | .openStream _ _ _ _ _ | .streamWake _ _ | .streamDisplaced _ _ => true
  | effect => effect.quiet

variable {effects : List StreamEffect} {waiters : List ActorAddress}
  {result : Except StreamError Unit}

theorem inert_of_quiet (h : ∀ effect ∈ effects, effect.quiet = true) :
    ∀ effect ∈ effects, effect.inert = true := by
  intro effect heffect
  have hquiet := h effect heffect
  cases effect <;> first | rfl | cases hquiet

theorem isStart_of_inert (h : ∀ effect ∈ effects, effect.inert = true) :
    ∀ effect ∈ effects, effect.isStart = false := by
  intro effect heffect
  have hinert := h effect heffect
  cases effect <;> first | rfl | cases hinert

theorem inert_wakeAll : ∀ effect ∈ wakeAll waiters result, effect.inert = true := by
  simp [wakeAll, inert]

theorem countP_eq_zero_of_inert {p : StreamEffect → Bool}
    (hp : ∀ effect, p effect = true → effect.inert = false)
    (h : ∀ effect ∈ effects, effect.inert = true) : effects.countP p = 0 := by
  rw [countP_eq_zero]
  intro effect heffect hpeffect
  simpa [hp effect hpeffect] using h effect heffect

section

variable (h : ∀ effect ∈ effects, effect.inert = true)

include h

theorem countP_isRelease_inert : effects.countP isRelease = 0 :=
  countP_eq_zero_of_inert (fun effect hp => by cases effect <;> first | rfl | cases hp) h

theorem countP_isOutcome_inert : effects.countP isOutcome = 0 :=
  countP_eq_zero_of_inert (fun effect hp => by cases effect <;> first | rfl | cases hp) h

theorem count_bindingDone_inert : effects.count .bindingDone = 0 := by
  rw [count_eq_zero]
  intro hmem
  cases h _ hmem

end

theorem countP_wakes_quiet (waiter : ActorAddress) (h : ∀ effect ∈ effects, effect.quiet = true) :
    effects.countP (wakes waiter) = 0 := by
  rw [countP_eq_zero]
  intro effect heffect hwakes
  have hquiet := h effect heffect
  cases effect <;> simp [quiet, wakes] at hquiet hwakes

theorem countP_wakes_wakeAll (waiter : ActorAddress) :
    (wakeAll waiters result).countP (wakes waiter) = waiters.count waiter := by
  induction waiters with
  | nil => rfl
  | cons first rest ih =>
    simp only [wakeAll, map_cons, countP_cons, count_cons] at ih ⊢
    rw [ih]
    simp [wakes]

end Counts

/-- The answers that are still due to the waiter. -/
def StreamCore.waiting (c : StreamCore) (waiter : ActorAddress) : ℕ :=
  c.dataWaiters.count waiter + c.capacityWaiters.count waiter + c.closeWaiters.count waiter

attribute [local simp] waiting

/-- The answers that the waiter got or will get. -/
def StreamCore.due (c : StreamCore) (waiter : ActorAddress) : ℕ :=
  c.sent.countP (wakes waiter) + c.waiting waiter

/-- What holds over the life of a binding whose requests the allocator answers once. -/
structure StreamCore.Life (scope : StreamScope) (c : StreamCore) : Prop where
  pending : c.ringAllocationPending = true → c.ring = none ∧ c.releaseStarted = false
  installed : c.transportInstalled = true → c.ring.isSome ∧ c.matched.isSome
  installs : ∀ incarnation, .install incarnation ∈ c.sent → c.transportInstalled = true
  started : c.releaseStarted = true → c.terminal.isSome ∧ c.ringAllocationPending = false ∧
    (c.transportInstalled = true → c.transportQuiesced = true)
  releases : c.sent.countP isRelease = (c.releaseStarted && c.ring.isSome).toNat
  done : c.sent.count .bindingDone = c.stopped.toNat
  ended : c.stopped = true → c.releaseStarted = true ∧ c.closeWaiters = []
  finished : c.releaseStarted = true → c.ring = none → c.stopped = true
  unheard : c.opened = false → c.terminal = none → c.sent.countP isOutcome = 0
  heard : c.sent.countP isOutcome ≤ 1
  woken : c.terminal.isSome → c.dataWaiters = [] ∧ c.capacityWaiters = []
  fences : ∀ incarnation ∈ c.fencedDisplacements, c.terminal.isSome
  late : scope.late → c.transportInstalled = false ∧ (c.terminal.isSome ∨ c.ring = none)

namespace StreamCore

variable {scope : StreamScope} {c c' : StreamCore}

/-- A move answers waiters but does not lose or add one. -/
theorem due_move (hmove : StreamMove scope c c') (waiter : ActorAddress) :
    c'.due waiter = c.due waiter := by
  cases hmove with
  | said effects hquiet =>
    simp [due, emitAll, countP_wakes_quiet waiter hquiet]
  | asked | installed matched | opened incarnation ring =>
    simp [due, emitAll, wakes]
  | matched matched hopen | fenced incarnation => rfl
  | terminated error report before after hopen hbefore hafter =>
    have hreport : (if report = true ∧ (!c.opened) = true then
        [operationFailed error] else []).countP (wakes waiter) = 0 := by
      split <;> rfl
    simp only [due, waiting, terminated, emitAll, farewell, countP_append, hreport,
      countP_wakes_quiet waiter hbefore, countP_wakes_quiet waiter hafter, countP_wakes_wakeAll,
      count_nil]
    omega
  | released =>
    unfold released
    split
    · simp [due, emitAll, wakes]
    · simp only [due, waiting, completed, emitAll, countP_append, countP_wakes_wakeAll,
        count_nil]
      simp [wakes]
      omega
  | acknowledged incarnation targets =>
    have hnone : (targets.map fun target =>
        streamDisplaced target incarnation).countP (wakes waiter) =
          0 := by
      simp [countP_eq_zero, wakes]
    simp [due, emitAll, hnone]

/-- A terminal binding starts nothing more. -/
theorem started_move (hmove : StreamMove scope c c') (hterminal : c.terminal.isSome) :
    c'.terminal.isSome ∧ Grown (·.isStart = false) c.sent c'.sent := by
  cases hmove with
  | said effects hquiet =>
    exact ⟨hterminal, effects, rfl, isStart_of_inert (inert_of_quiet hquiet)⟩
  | asked => exact ⟨hterminal, _, rfl, by simp [isStart]⟩
  | matched matched hopen | terminated error report before after hopen | installed matched hopen
  | opened incarnation ring hopen => simp [hopen] at hterminal
  | released =>
    unfold released
    split
    · exact ⟨hterminal, _, rfl, by simp [isStart]⟩
    · exact ⟨hterminal, _, rfl, forall_mem_append.mpr
        ⟨isStart_of_inert inert_wakeAll, by simp [isStart]⟩⟩
  | acknowledged incarnation targets => exact ⟨hterminal, _, rfl, by simp [isStart]⟩
  | fenced incarnation => exact ⟨hterminal, .refl _⟩

theorem due_moves (hmoves : StreamMoves scope c c') (waiter : ActorAddress) :
    c'.due waiter = c.due waiter := by
  induction hmoves with
  | refl => rfl
  | tail _ hmove ih => exact (due_move hmove waiter).trans ih

theorem started_moves (hmoves : StreamMoves scope c c') (hterminal : c.terminal.isSome) :
    c'.terminal.isSome ∧ Grown (·.isStart = false) c.sent c'.sent := by
  induction hmoves with
  | refl => exact ⟨hterminal, .refl _⟩
  | tail _ hmove ih =>
    obtain ⟨hmid, hsaid⟩ := ih
    obtain ⟨hend, hmore⟩ := started_move hmove hmid
    exact ⟨hend, hsaid.trans hmore⟩

attribute [local simp] emitAll isOutcome isRelease

namespace Life

section

variable (h : c.Life scope)
include h

/-- Effects that are inert do not matter, nor who waits, as long as none waits in vain. -/
theorem frame {effects : List StreamEffect} (hinert : ∀ effect ∈ effects, effect.inert = true)
    {data capacity close : List ActorAddress} (hended : c.stopped = true → close = [])
    (hwoken : c.terminal.isSome → data = [] ∧ capacity = []) :
    Life scope { c with
      sent := c.sent ++ effects
      dataWaiters := data
      capacityWaiters := capacity
      closeWaiters := close } where
  __ := h
  installs incarnation hmem := by
    rcases mem_append.mp hmem with hmem | hmem
    · exact h.installs incarnation hmem
    · cases hinert _ hmem
  releases := by
    rw [countP_append, countP_isRelease_inert hinert]
    exact h.releases
  done := by
    rw [count_append, count_bindingDone_inert hinert]
    exact h.done
  ended hstopped := ⟨(h.ended hstopped).1, hended hstopped⟩
  unheard hclosed hopen := by
    rw [countP_append, countP_isOutcome_inert hinert]
    exact h.unheard hclosed hopen
  heard := by
    rw [countP_append, countP_isOutcome_inert hinert]
    exact h.heard
  woken := hwoken

/-- Only who waits has changed. -/
theorem waits (data capacity close : List ActorAddress) (hended : c.stopped = true → close = [])
    (hwoken : c.terminal.isSome → data = [] ∧ capacity = []) :
    Life scope { c with dataWaiters := data, capacityWaiters := capacity, closeWaiters := close } :=
  { h with ended := fun hs => ⟨(h.ended hs).1, hended hs⟩, woken := hwoken }

/-- The child hears of a failure after nothing else. -/
theorem reported (error : StreamError) (hsilent : c.sent.countP isOutcome = 0)
    (hterminal : c.terminal.isSome) :
    (c.emitAll [.operationFailed error]).Life scope where
  __ := h
  installs incarnation hmem := h.installs incarnation (by simpa using hmem)
  releases := by simpa using h.releases
  done := by simpa using h.done
  unheard _ hopen := by
    have hnone : c.terminal = none := hopen
    simp [hnone] at hterminal
  heard := by simp [hsilent]

/-- The release that was due is over, or there is nothing to release. -/
theorem completed (hterminal : c.terminal.isSome) (hpending : c.ringAllocationPending = false)
    (hcalm : c.transportInstalled = true → c.transportQuiesced = true)
    (hreleases : c.sent.countP isRelease = c.ring.isSome.toNat) (hrunning : c.stopped = false)
    (result : Except StreamError Unit) :
    (completed { c with releaseStarted := true } result).Life scope where
  __ := h
  pending hon := absurd (hpending.symm.trans hon) Bool.false_ne_true
  installs incarnation hmem := by
    refine h.installs incarnation ?_
    simpa [StreamCore.completed, wakeAll] using hmem
  started _ := ⟨hterminal, hpending, hcalm⟩
  releases := by
    simp only [StreamCore.completed, emitAll, countP_append,
      countP_isRelease_inert inert_wakeAll]
    exact hreleases
  done := by
    simp [StreamCore.completed, count_bindingDone_inert inert_wakeAll, h.done, hrunning]
  ended _ := ⟨rfl, rfl⟩
  finished _ _ := rfl
  unheard hclosed hopen := by
    have hnone : c.terminal = none := hopen
    simp [hnone] at hterminal
  heard := by
    simp only [StreamCore.completed, emitAll, countP_append,
      countP_isOutcome_inert inert_wakeAll]
    exact h.heard

/-- The way into the terminal state, up to the effects that do not matter. -/
theorem ended_report (hopen : c.terminal = none) (error : StreamError) (report : Bool) :
    Life scope { c with
      sent := c.sent ++ if report ∧ !c.opened then [.operationFailed error] else []
      terminal := some error
      dataWaiters := []
      capacityWaiters := [] } := by
  have hstarted : c.releaseStarted = false := by
    by_contra hon
    simpa [hopen] using (h.started (by simpa using hon)).1
  have hstopped : c.stopped = false := by
    by_contra hon
    simpa [hstarted] using (h.ended (by simpa using hon)).1
  refine ⟨h.pending, h.installed, fun incarnation hmem => h.installs incarnation ?_,
    fun hon => ?_, ?_, ?_, fun hon => ?_, h.finished, nofun, ?_, fun _ => ⟨rfl, rfl⟩,
    fun _ _ => rfl, fun hlate => ⟨(h.late hlate).1, .inl rfl⟩⟩
  · split at hmem <;> simpa using hmem
  · simp [hstarted] at hon
  · rw [countP_append, h.releases]
    split_ifs <;> rfl
  · rw [count_append, h.done]
    split_ifs <;> rfl
  · simp [hstopped] at hon
  · have hheard := h.heard
    rw [countP_append]
    split_ifs with hreport
    · have hsilent := h.unheard (by simpa using hreport.2) hopen
      simp [hsilent]
    · simpa using hheard

theorem move (hmove : StreamMove scope c c') : c'.Life scope := by
  cases hmove with
  | said effects hquiet => exact h.frame (inert_of_quiet hquiet) (fun hs => (h.ended hs).2) h.woken
  | asked | acknowledged incarnation targets =>
    exact h.frame (by simp [inert]) (fun hs => (h.ended hs).2) h.woken
  | matched matched hopen =>
    exact { h with installed := fun hon => ⟨(h.installed hon).1, rfl⟩ }
  | terminated error report before after hopen hbefore hafter =>
    have hended := h.ended_report hopen error report
    have hinert : ∀ effect ∈ before ++ (wakeAll c.dataWaiters (.error error) ++
        (wakeAll c.capacityWaiters (.error error) ++ after)),
        effect.inert = true := by
      intro effect heffect
      simp only [mem_append] at heffect
      rcases heffect with heffect | heffect | heffect | heffect
      · exact inert_of_quiet hbefore effect heffect
      · exact inert_wakeAll effect heffect
      · exact inert_wakeAll effect heffect
      · exact inert_of_quiet hafter effect heffect
    have hframe := hended.frame hinert
      (fun hs => (hended.ended hs).2) hended.woken
    simpa only [terminated, emitAll, farewell, append_assoc] using hframe
  | installed matched hopen hmatched hring hnew =>
    refine ⟨h.pending, fun _ => ⟨hring, by simp [hmatched]⟩, fun _ _ => rfl,
      fun hon => ?_, ?_, ?_, h.ended, h.finished, ?_, ?_, h.woken, h.fences, fun hlate => ?_⟩
    · simpa [hopen] using (h.started hon).1
    · simpa using h.releases
    · simpa using h.done
    · intro hclosed hopen
      simpa using h.unheard hclosed hopen
    · simpa using h.heard
    · rcases (h.late hlate).2 with hsome | hnone
      · simp [hopen] at hsome
      · simp [hnone] at hring
  | opened incarnation ring hopen hnew =>
    exact { h with
      installs := fun known hmem => h.installs known (by simpa using hmem)
      releases := by simpa using h.releases
      done := by simpa using h.done
      unheard := by simp
      heard := by simp [h.unheard hnew hopen] }
  | released hterminal hnew hpending hquiet =>
    have hcalm : c.transportInstalled = true → c.transportQuiesced = true := by
      intro hon
      rcases hquiet with hquiet | hlate
      · exact hquiet (h.installed hon).2 hon
      · simp [(h.late hlate).1] at hon
    have hstopped : c.stopped = false := by
      by_contra hon
      simpa [hnew] using (h.ended (by simpa using hon)).1
    have hnone : c.sent.countP isRelease = 0 := by simp [h.releases, hnew]
    unfold released
    split
    · next ring hring =>
      refine ⟨fun hon => ?_, h.installed, fun known hmem => h.installs known
        (by simpa using hmem), fun _ => ⟨hterminal, hpending, hcalm⟩, ?_, ?_,
        fun hs => ⟨rfl, (h.ended hs).2⟩, fun _ hnone => ?_, fun hclosed hopen => ?_, ?_,
        h.woken, h.fences, h.late⟩
      · have hon : c.ringAllocationPending = true := hon
        simp [hpending] at hon
      · simp [hnone, hring]
      · simpa using h.done
      · have hnone : c.ring = none := hnone
        simp [hring] at hnone
      · simpa using h.unheard hclosed hopen
      · simpa using h.heard
    · next hring =>
      exact h.completed hterminal hpending hcalm (by simp [hnone, hring]) hstopped _
  | fenced incarnation hterminal =>
    exact { h with fences := fun _ _ => hterminal }

theorem moves (hmoves : StreamMoves scope c c') : c'.Life scope := by
  induction hmoves with
  | refl => exact h
  | tail _ hmove ih => exact ih.move hmove

theorem rescope {scope' : StreamScope}
    (hlate : scope'.late → c.transportInstalled = false ∧ (c.terminal.isSome ∨ c.ring = none)) :
    c.Life scope' :=
  { h with late := hlate }

theorem any_isRelease : c.sent.any isRelease = (c.releaseStarted && c.ring.isSome) := by
  rw [Bool.eq_iff_iff, any_eq_true, ← countP_pos_iff, h.releases]
  cases c.releaseStarted && c.ring.isSome <;> simp

theorem mem_bindingDone : .bindingDone ∈ c.sent ↔ c.stopped = true := by
  rw [← count_pos_iff, h.done]
  cases c.stopped <;> simp

end

end Life

end StreamCore

namespace StreamBinding

/-- The allocator answers what it was asked, and a failed release finds a stream that had opened
or a child that has heard nothing. -/
def Answered (b : StreamBinding) (input : HostStreamIn × StreamServices) : Prop :=
  match input.1 with
  | .allocated _ => b.ringAllocationPending = true
  | .releaseComplete (.ok _) => b.sent.any isRelease = true
  | .releaseComplete (.error _) => b.sent.any isRelease = true ∧
      (b.opened = true ∨ b.sent.countP isOutcome = 0)
  | _ => True

instance (b : StreamBinding) (input : HostStreamIn × StreamServices) :
    Decidable (b.Answered input) := by
  rcases input with ⟨m, services⟩
  cases m with
  | allocated result =>
    exact inferInstanceAs (Decidable (b.ringAllocationPending = true))
  | releaseComplete result =>
    cases result with
    | ok released => exact inferInstanceAs (Decidable (b.sent.any isRelease = true))
    | error error =>
      exact inferInstanceAs (Decidable (b.sent.any isRelease = true ∧
        (b.opened = true ∨ b.sent.countP isOutcome = 0)))
  | _ => exact instDecidableTrue

/-- Who asked to be woken while the binding ran. -/
def asked (b : StreamBinding) : List (HostStreamIn × StreamServices) → List ActorAddress
  | [] => []
  | input :: inputs =>
      (if b.stopped then [] else input.1.asks.toList) ++ (b.step input).asked inputs

variable {b : StreamBinding}

theorem terminal_of_waitAnswer {there : Bool} (h : b.waitAnswer there = none) :
    b.terminal = none := by
  unfold waitAnswer at h
  cases hterminal : b.terminal with
  | none => rfl
  | some error => simp [hterminal] at h

theorem releaseStarted_of_any {scope : StreamScope} (h : b.core.Life scope)
    (hreleased : b.sent.any isRelease = true) : b.releaseStarted = true := by
  rw [show b.sent.any isRelease = _ from h.any_isRelease, Bool.and_eq_true] at hreleased
  exact hreleased.1

theorem life_completeRelease {scope : StreamScope} (h : b.core.Life scope)
    (hstarted : b.releaseStarted = true) (hrunning : b.stopped = false)
    (result : Except StreamError Unit) : (b.completeRelease result).core.Life scope := by
  have hsame : { b.core with releaseStarted := true } = b.core := by simp [core, hstarted]
  obtain ⟨hterminal, hpending, hcalm⟩ := h.started hstarted
  have hreleases : b.sent.countP isRelease = b.ring.isSome.toNat := by
    simpa [core, hstarted] using h.releases
  have hcompleted := h.completed hterminal hpending hcalm hreleases hrunning result
  rw [hsame] at hcompleted
  exact hcompleted

theorem life_receive {env : StreamServices} {m : HostStreamIn} (h : b.core.Life idle)
    (hrunning : b.stopped = false) (hanswered : b.Answered (m, env)) :
    (b.receive env m).core.Life (b.scope m) := by
  have hsame (hm : ∀ result, m ≠ .allocated result) : b.core.Life (b.scope m) := by
    refine h.rescope ?_
    rintro ⟨result, hallocated, -⟩
    exact absurd hallocated (hm result)
  cases m with
  | allocated result =>
    have hpending : b.ringAllocationPending = true := hanswered
    obtain ⟨hring, hstarted⟩ := h.pending hpending
    have hring : b.ring = none := hring
    have hstarted : b.releaseStarted = false := hstarted
    have hoff : b.transportInstalled = false := by
      by_contra hon
      simpa [core, hring] using (h.installed (by simpa [core] using hon)).1
    refine ⟨fun h => absurd h Bool.false_ne_true, fun hon => ?_, h.installs, fun hon => ?_, ?_,
      h.done, fun hon => ?_, fun hon => ?_, h.unheard, h.heard, h.woken, h.fences, ?_⟩
    · exact absurd (hoff.symm.trans hon) Bool.false_ne_true
    · exact absurd (hstarted.symm.trans hon) Bool.false_ne_true
    · have hreleases := h.releases
      simp only [core, hstarted, Bool.false_and] at hreleases
      simpa [core, receive, hstarted] using hreleases
    · exact absurd (hrunning.symm.trans hon) Bool.false_ne_true
    · exact absurd (hstarted.symm.trans hon) Bool.false_ne_true
    · rintro ⟨result, hm, hlate⟩
      cases hm
      refine ⟨hoff, hlate.imp id ?_⟩
      rintro ⟨error, rfl⟩
      exact hring
  | transport event =>
    have hself := hsame (by simp)
    cases event with
    | quiesced =>
      exact { hself with started := fun hon =>
        ⟨(hself.started hon).1, (hself.started hon).2.1, fun _ => rfl⟩ }
    | dataAvailable =>
      exact hself.frame inert_wakeAll (fun hs => (hself.ended hs).2)
        fun hsome => ⟨rfl, (hself.woken hsome).2⟩
    | capacityAvailable =>
      exact hself.frame inert_wakeAll (fun hs => (hself.ended hs).2)
        fun hsome => ⟨(hself.woken hsome).1, rfl⟩
    | ready => exact hself
    | fault reason => exact hself
  | waitData replyTo | waitCapacity replyTo =>
    have hself := hsame (by simp)
    simp only [receive, handle]
    split
    · exact hself.frame (by simp [inert]) (fun hs => (hself.ended hs).2) hself.woken
    · next hwait =>
      have hopen := terminal_of_waitAnswer hwait
      exact hself.waits _ _ _ (fun hs => (hself.ended hs).2) fun hsome => by
        simp [core, hopen] at hsome
  | close clean replyTo =>
    have hself := hsame (by simp)
    exact hself.waits b.dataWaiters b.capacityWaiters (b.closeWaiters ++ replyTo.toList)
      (fun hs => by simp [core, hrunning] at hs) hself.woken
  | releaseComplete result =>
    have hself := hsame (by simp)
    have hreleased : b.sent.any isRelease = true := by
      cases result with
      | ok _ => exact hanswered
      | error error => exact hanswered.1
    have hstarted := releaseStarted_of_any hself hreleased
    have hterminal := (hself.started hstarted).1
    simp only [receive, handle]
    cases result with
    | ok _ => exact life_completeRelease hself hstarted hrunning _
    | error error =>
      dsimp only
      split
      · next hclosed =>
        have hsilent : b.sent.countP isOutcome = 0 :=
          hanswered.2.resolve_left (by simpa using hclosed)
        have hreported : (b.emit (.operationFailed (.allocator error))).core.Life
            (b.scope (.releaseComplete (.error error))) := hself.reported _ hsilent hterminal
        exact life_completeRelease hreported hstarted hrunning _
      · exact life_completeRelease hself hstarted hrunning _
  | _ => exact hsame (by simp)

variable {input : HostStreamIn × StreamServices}

theorem life_step (h : b.core.Life idle) (hanswered : b.Answered input) :
    (b.step input).core.Life idle := by
  obtain ⟨m, env⟩ := input
  cases hrunning : b.stopped with
  | true =>
    simp only [step, hrunning, if_true]
    exact h
  | false =>
    have hreceived := life_receive h hrunning hanswered
    exact (hreceived.moves (turns_step b env m hrunning h.fences).moves).rescope (by simp)

variable (spawn : StreamSpawn) (self : ActorAddress) (descriptor : List UInt8)
  (env : StreamServices)

theorem life_start : ((spawn.binding self descriptor).start env).core.Life idle := by
  set b := spawn.binding self descriptor with hb
  have hfresh (pending : Bool) :
      StreamCore.Life b.starting { b.core with ringAllocationPending := pending } := by
    constructor <;> simp [hb, core, StreamSpawn.binding]
  obtain ⟨pending, hturns⟩ := turns_start b env rfl
  exact ((hfresh pending).moves hturns.moves).rescope (by simp)

theorem settled_step (h : b.core.Life idle) (hsettled : b.Settled) : (b.step input).Settled := by
  cases hrunning : b.stopped with
  | true => simpa [step, hrunning] using hsettled
  | false => exact (turns_step b input.2 input.1 hrunning h.fences).settled hsettled

section Waiters

/-- The answers due to a waiter grow by what it asks. -/
theorem due_receive (b : StreamBinding) (env : StreamServices) (m : HostStreamIn)
    (waiter : ActorAddress) : (b.receive env m).core.due waiter =
      b.core.due waiter + m.asks.toList.count waiter := by
  cases m with
  | transport event =>
    cases event with
    | dataAvailable | capacityAvailable =>
      simp only [receive, handle, core, emitAll, due, waiting,
        countP_append, countP_wakes_wakeAll, count_nil, asks]
      simp only [Option.toList_none, count_nil]
      omega
    | _ => rfl
  | waitData replyTo | waitCapacity replyTo =>
    simp only [receive, handle]
    split
    · simp [core, emit, due, asks, count_singleton, wakes]
      omega
    · simp [core, due, asks]
      omega
  | close clean replyTo =>
    simp [receive, core, due, asks]
    omega
  | releaseComplete result =>
    have hcompleted (b' : StreamBinding) (r : Except StreamError Unit) :
        (b'.completeRelease r).core.due waiter = b'.core.due waiter := by
      simp only [completeRelease, emitAll, core, due, waiting,
        countP_append, countP_wakes_wakeAll, count_nil]
      simp [wakes]
      omega
    simp only [receive, handle, hcompleted, asks, Option.toList_none, count_nil,
      Nat.add_zero]
    split
    · split
      · simp [core, emit, due, wakes]
      · rfl
    · rfl
  | _ => rfl

theorem due_step {input : HostStreamIn × StreamServices} (h : b.core.Life idle)
    (waiter : ActorAddress) : (b.step input).core.due waiter = b.core.due waiter +
      (if b.stopped then [] else input.1.asks.toList).count waiter := by
  obtain ⟨m, env⟩ := input
  cases hrunning : b.stopped with
  | true => simp [step, hrunning]
  | false =>
    simp only [Bool.false_eq_true, if_false]
    rw [← due_receive b env m waiter]
    exact due_moves (turns_step b env m hrunning h.fences).moves waiter

/-- Over a run, what was asked is what was answered or is due. -/
theorem due_run {inputs : List (HostStreamIn × StreamServices)} (h : b.core.Life idle)
    (hanswered : Guarded Answered step b inputs) (waiter : ActorAddress) :
    (inputs.foldl step b).core.due waiter = b.core.due waiter +
      (b.asked inputs).count waiter := by
  induction inputs generalizing b with
  | nil => rfl
  | cons input inputs ih =>
    have hrest := ih (life_step h hanswered.1) hanswered.2
    rw [foldl_cons, hrest, due_step h waiter, asked, count_append]
    omega

theorem due_start (waiter : ActorAddress) :
    ((spawn.binding self descriptor).start env).core.due waiter = 0 := by
  obtain ⟨pending, hturns⟩ := turns_start (spawn.binding self descriptor) env rfl
  exact due_moves hturns.moves waiter

end Waiters

section Silence

theorem started_receive (b : StreamBinding) (env : StreamServices) (m : HostStreamIn)
    (hterminal : b.terminal.isSome) : (b.receive env m).terminal.isSome ∧
      Grown (·.isStart = false) b.sent (b.receive env m).sent := by
  cases m with
  | transport event =>
    cases event with
    | dataAvailable | capacityAvailable =>
      exact ⟨hterminal, _, rfl, isStart_of_inert inert_wakeAll⟩
    | _ => exact ⟨hterminal, .refl _⟩
  | waitData replyTo | waitCapacity replyTo =>
    simp only [receive, handle]
    split
    · exact ⟨hterminal, [_], rfl, by simp [isStart]⟩
    · exact ⟨hterminal, .refl _⟩
  | releaseComplete result =>
    have hcompleted (b' : StreamBinding) (r : Except StreamError Unit) :
        Grown (·.isStart = false) b'.sent (b'.completeRelease r).sent :=
      ⟨_, rfl, forall_mem_append.mpr
        ⟨isStart_of_inert inert_wakeAll, by simp [isStart]⟩⟩
    simp only [receive, handle]
    cases result with
    | ok _ => exact ⟨hterminal, hcompleted b _⟩
    | error error =>
      dsimp only
      split
      · exact ⟨hterminal, .trans ⟨[_], rfl, by simp [isStart]⟩ (hcompleted (b.emit _) _)⟩
      · exact ⟨hterminal, hcompleted b _⟩
  | _ => exact ⟨hterminal, .refl _⟩

/-- A terminal binding starts nothing in any continuation. -/
theorem started_run (later : List (HostStreamIn × StreamServices)) (hterminal : b.terminal.isSome) :
    Grown (·.isStart = false) b.sent (later.foldl step b).sent := by
  induction later generalizing b with
  | nil => exact .refl _
  | cons input later ih =>
    obtain ⟨m, env⟩ := input
    obtain ⟨hstill, hsaid⟩ : (b.step (m, env)).terminal.isSome ∧
        Grown (·.isStart = false) b.sent (b.step (m, env)).sent := by
      cases hrunning : b.stopped with
      | true =>
        simp only [step, hrunning, if_true]
        exact ⟨hterminal, .refl _⟩
      | false =>
        obtain ⟨hreceived, hfirst⟩ := started_receive b env m hterminal
        obtain ⟨hmoved, hsecond⟩ := started_moves
          (turns_step b env m hrunning fun _ _ => hterminal).moves hreceived
        exact ⟨hmoved, hfirst.trans hsecond⟩
    exact hsaid.trans (ih hstill)

end Silence

theorem done_releaseComplete (h : b.core.Life idle)
    (result : Except DataPlane.DataPlaneError Unit) (env : StreamServices) :
    .bindingDone ∈ (b.step (.releaseComplete result, env)).sent := by
  cases hstopped : b.stopped with
  | true => simpa [step, hstopped, core] using h.mem_bindingDone.mpr hstopped
  | false => simp [step, hstopped, handle, completeRelease, emitAll, onStop]

/-- The life of a binding. In every run in which the allocator answers what it was asked and a
failed release finds a stream that had opened or a child that has heard nothing: the ring is
released at most once, and then the transport was never installed or is quiet; nothing is
installed or opened once the binding is terminal, however the run goes on; the child hears of one
outcome at most; no one is answered more often than asked; and the end comes once, when everyone
was answered. A terminal binding that waits for nothing has asked for the release or is done, and
the answer to the release brings the end. -/
theorem life_of_binding (spawn : StreamSpawn) (self : ActorAddress) (descriptor : List UInt8)
    (env : StreamServices) (inputs : List (HostStreamIn × StreamServices))
    (hanswered : Guarded Answered step ((spawn.binding self descriptor).start env) inputs) :
    let b := (spawn.binding self descriptor).run env inputs
    let asked := ((spawn.binding self descriptor).start env).asked inputs
    (b.sent.countP isRelease ≤ 1 ∧ ∀ ring, .releaseStream ring ∈ b.sent →
      (∀ incarnation, .install incarnation ∉ b.sent) ∨ b.transportQuiesced = true) ∧
    (b.terminal.isSome → ∀ later : List (HostStreamIn × StreamServices), ∃ said,
      (later.foldl step b).sent = b.sent ++ said ∧ said.countP isStart = 0) ∧
    b.sent.countP isOutcome ≤ 1 ∧
    (∀ waiter, b.sent.countP (wakes waiter) ≤ asked.count waiter) ∧
    (b.sent.count .bindingDone = b.stopped.toNat ∧ (.bindingDone ∈ b.sent →
      ∀ waiter, b.sent.countP (wakes waiter) = asked.count waiter)) ∧
    (b.terminal.isSome → b.ringAllocationPending = false →
      (b.transportInstalled = true → b.transportQuiesced = true) → b.peerAckPending = false →
        b.sent.any isRelease = true ∨ .bindingDone ∈ b.sent) ∧
    ∀ result env', .bindingDone ∈ (b.step (.releaseComplete result, env')).sent := by
  intro b asked
  have hstart := life_start spawn self descriptor env
  obtain ⟨_, hturns⟩ := turns_start (spawn.binding self descriptor) env rfl
  obtain ⟨hlife, hsettled⟩ : b.core.Life idle ∧ b.Settled :=
    hanswered.invariant (P := fun b' => b'.core.Life idle ∧ b'.Settled)
      (fun _ _ h hok => ⟨life_step h.1 hok, settled_step h.1 h.2⟩)
      ⟨hstart, hturns.settled (settled_of_open rfl)⟩
  have hdue (waiter : ActorAddress) : b.core.due waiter = asked.count waiter := by
    have hrun := due_run hstart hanswered waiter
    rw [due_start, Nat.zero_add] at hrun
    exact hrun
  refine ⟨⟨?_, fun ring hring => ?_⟩, fun hterminal later => ?_,
    hlife.heard, fun waiter => ?_, ⟨hlife.done, fun hdone waiter => ?_⟩, ?_,
    done_releaseComplete hlife⟩
  · exact hlife.releases.trans_le (Bool.toNat_le _)
  · have hstarted := releaseStarted_of_any hlife (any_eq_true.mpr ⟨_, hring, rfl⟩)
    cases hon : b.transportInstalled with
    | false =>
      refine .inl fun incarnation hinstall => ?_
      have hinstalled : b.transportInstalled = true := hlife.installs incarnation hinstall
      simp [hinstalled] at hon
    | true => exact .inr ((hlife.started hstarted).2.2 hon)
  · obtain ⟨said, hsent, hnone⟩ := started_run later hterminal
    exact ⟨said, hsent, by simpa [countP_eq_zero] using hnone⟩
  · rw [← hdue waiter]
    exact Nat.le_add_right _ _
  · obtain ⟨hstarted, hclose⟩ := hlife.ended (hlife.mem_bindingDone.mp hdone)
    obtain ⟨hdata, hcapacity⟩ := hlife.woken (hlife.started hstarted).1
    rw [← hdue waiter, due, waiting, hclose, hdata, hcapacity]
    rfl
  · intro hterminal hpending hcalm hacked
    have hstarted := hsettled hterminal hpending hcalm hacked
    cases hring : b.ring with
    | none => exact .inr (hlife.mem_bindingDone.mpr (hlife.finished hstarted hring))
    | some ring => exact .inl (hlife.any_isRelease.trans (by simp [core, hstarted, hring]))

/-- The stream opens, is closed and drains, and its ring is released. -/
theorem life_of_binding_closed :
    let inputs := served (openedStream ++ [.waitData 8, .close true (some 9), .transport .quiesced,
      .releaseComplete (.ok ())])
    let b := (sampleSink.binding 5 []).run {} inputs
    .bindingDone ∈ b.sent ∧ ∀ waiter, b.sent.countP (wakes waiter) =
      (((sampleSink.binding 5 []).start {}).asked inputs).count waiter := by
  intro inputs b
  have hdone : .bindingDone ∈ b.sent := by decide +kernel
  have hlife := life_of_binding sampleSink 5 [] {} inputs (by decide +kernel)
  exact ⟨hdone, hlife.2.2.2.2.1.2 hdone⟩

/-- The open fails, and then the release: the child is told twice. -/
theorem failed_release_told_twice :
    let b := (sampleSink.binding 5 []).run {} (served
      [.allocated (.ok ⟨⟨256, 1⟩, 0, 1⟩), .close false none,
        .releaseComplete (.error (.streamFault "release"))])
    b.sent.countP isOutcome = 2 := by
  decide +kernel

end StreamBinding

end Swactor.Host
