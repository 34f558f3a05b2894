import Swactor.Host.Session
import Swactor.Lib.Machine

/-!
# A revoked session

The results of lookups and reservations may come after a session is revoked or closed. Whatever it
is sent then, the session starts nothing: no request of the namespace, no blob and no stream.
-/
namespace Swactor.Host

open Machine List

/-- The effect starts an actor. -/
def SessionEffect.starts : SessionEffect → Bool
  | .helper _ _ | .blob _ | .stream _ => true
  | _ => false

namespace Session

attribute [local grind =] SessionEffect.starts
attribute [local grind] emit emitAll sendNamespaceResult sendOpenFailure

variable {s : Session} {env : SessionServices}

/-- The session is revoked, no open waits, and the step has started nothing. -/
structure Over (s : Session) : Prop where
  state : s.state ≠ .awaitingAttachment ∧ s.state ≠ .running
  pending : s.pendingOpens = ∅
  sent : ∀ effect ∈ s.sent, effect.starts = false

theorem Over.finish (h : s.Over) : s.maybeFinishClose.Over := by
  obtain ⟨hstate, hpending, hsent⟩ := h
  unfold maybeFinishClose revokeChildRoute
  constructor <;> grind

section

variable (hsent : ∀ effect ∈ s.sent, effect.starts = false)
  (hpending : s.state = .awaitingAttachment ∨ s.state = .running ∨ s.pendingOpens = ∅)
include hsent hpending

theorem over_revokeSession (revokeRoute : Bool) : (s.revokeSession revokeRoute).Over := by
  unfold revokeSession
  split
  · constructor <;> grind
  · have hroute : ∀ effect ∈ (if revokeRoute then { s with state := .revoked }.revokeChildRoute
        else { s with state := .revoked }).sent, effect.starts = false := by
      grind [revokeChildRoute]
    refine ⟨?_, rfl, fun effect heffect => ?_⟩
    · grind [revokeChildRoute]
    · simp only [emitAll, mem_append, mem_map] at heffect
      grind

theorem over_beginClose (replyTo : Option ActorAddress) : (s.beginClose replyTo).Over := by
  unfold beginClose
  split
  · constructor <;> grind
  · have hover : (revokeSession { s with
        closeReplies := s.closeReplies ++ replyTo.toList } false).Over := by
      apply over_revokeSession <;> assumption
    exact Over.finish ⟨by simp, hover.pending, hover.sent⟩

end

/-- Every message leaves a revoked session revoked and starts nothing. -/
theorem Over.handle (h : s.Over) (m : HostSessionIn) : (s.handle env m).Over := by
  obtain ⟨hstate, hpending, hsent⟩ := h
  have hrefused (child : ActorAddress) (path : Paths.DataPath) (access : AccessMode) :
      s.validateOpen child path access = .error .sessionNotRunning := by
    simp [validateOpen, hstate]
  cases m with
  | attach _ arenaGeneration capability =>
    have hfailure (routed : Bool) :
        s.attachFailure env arenaGeneration capability routed = some .sessionClosed := by
      cases hs : s.state <;> simp_all [attachFailure]
    simp only [Session.handle, Session.attach, hfailure]
    constructor <;> grind
  | «namespace» _ request =>
    cases request <;>
      simp only [Session.handle, controlNamespace, validateNamespaceOperation, hrefused, bind,
        Except.bind] <;>
      constructor <;> grind
  | openPath =>
    simp only [Session.handle, openPath, hrefused]
    split <;> constructor <;> grind
  | openResolved | blobReserved | cancelOpen =>
    constructor <;>
      simp [Session.handle, openResolved, blobReserved, Session.cancelOpen, hpending] <;> grind
  | namespaceResolved | cancelNamespace | bindingDone | bindingDetached =>
    apply Over.finish
    constructor <;> grind
  | revoke => exact over_revokeSession hsent (.inr (.inr hpending)) true
  | close replyTo => exact over_beginClose hsent (.inr (.inr hpending)) replyTo
  | closeChild child =>
    simp only [Session.handle]
    fun_cases beginChildClose
    · constructor <;> grind
    · constructor <;> grind
    · refine over_beginClose ?_ ?_ none
      · exact hsent
      · exact .inr (.inr hpending)
  | _ => constructor <;> grind [Session.handle, forward, configureExecution]

def call (s : Session) (input : HostSessionIn × SessionServices) : Session × List SessionEffect :=
  (s.step input, (s.step input).sent)

variable {input : HostSessionIn × SessionServices}

theorem step_over (h : s.stopped = false → ({ s with sent := [] }.handle input.2 input.1).Over) :
    ((s.step input).stopped = false → (s.step input).Over) ∧
      ∀ effect ∈ (s.step input).sent, effect.starts = false := by
  unfold step
  split
  · next hstopped => simp [hstopped]
  · next hstopped =>
    have hover := h (Bool.eq_false_of_not_eq_true hstopped)
    exact ⟨fun _ => hover, hover.sent⟩

theorem quiet_collect (inputs : List (HostSessionIn × SessionServices))
    (h : s.stopped = false → s.Over) :
    ∀ effect ∈ (collect call s inputs).2, effect.starts = false := by
  induction inputs generalizing s with
  | nil => simp [collect]
  | cons input inputs ih =>
    have hstep := @step_over s input fun hlive =>
      Over.handle (s := { s with sent := [] }) ⟨(h hlive).state, (h hlive).pending, by simp⟩ input.1
    exact forall_mem_append.mpr ⟨hstep.2, ih hstep.1⟩

/-- Once a session has been revoked or closed, by its child or by others, nothing that it is sent
makes it start an actor. -/
theorem revocation_final (hlive : s.state = .awaitingAttachment ∨ s.state = .running)
    (hinput : input.1 = .revoke ∨ (∃ replyTo, input.1 = .close replyTo) ∨
      ∃ child, input.1 = .closeChild child ∧ s.childSession = some child)
    (inputs : List (HostSessionIn × SessionServices)) :
    ∀ effect ∈ (collect call s (input :: inputs)).2, effect.starts = false := by
  have hover : ({ s with sent := [] }.handle input.2 input.1).Over := by
    rcases hinput with hm | ⟨replyTo, hm⟩ | ⟨child, hm, hchild⟩ <;> rw [hm]
    · exact over_revokeSession (s := { s with sent := [] }) (by simp) (hlive.imp_right .inl) true
    · exact over_beginClose (s := { s with sent := [] }) (by simp) (hlive.imp_right .inl)
        replyTo
    · have hopen : s.state ≠ .closed := by grind
      rw [handle, beginChildClose, if_neg (by simp [hchild]), if_neg hopen]
      refine over_beginClose ?_ ?_ none
      · simp
      · exact hlive.imp_right .inl
  have hstep := step_over fun _ => hover
  exact forall_mem_append.mpr ⟨hstep.2, quiet_collect inputs hstep.1⟩

/-- A child asks for a path after its session is revoked. -/
theorem revocation_final_open :
    let s : Session := {
      self := 1, arenaGeneration := 1, sessionGeneration := 1, capability := 0
      access := ⟨['e'], [], []⟩, state := .running, childSession := some 2 }
    ∀ effect ∈ (collect call s [(.revoke, {}), (.openPath ⟨['/', 'r'], by decide⟩
      { access := .readOnly } .ordinary 2 3, {})]).2, effect.starts = false :=
  revocation_final (.inr rfl) (.inl rfl) _

end Session

end Swactor.Host
