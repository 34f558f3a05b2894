import Swactor.Lib.Trace

/-!
# Coordination of a contextual process

A contextual process is a native process with a data plane session of its own:
the session is provisioned, the process is spawned, it claims its session over a
bootstrap channel, and at the end the arena of the session is released. The
`Coordinator` is the state machine that says which of these happens next. It is
fed events in any order and returns the effects to carry out.
-/
namespace Swactor.Process

open Machine Trace List

attribute [local simp] andThen

attribute [local grind] andThen

structure ExecutionIdentity where
  executionId : ℕ
  generation : ℕ
  deriving DecidableEq, Repr

inductive ExitStatus where
  | code (code : ℤ)
  | signal (signal : ℤ)
  | unknown
  deriving DecidableEq, Repr

inductive ProcessOutput where
  | stdout (bytes : List UInt8)
  | stderr (bytes : List UInt8)
  | started (pid : ℕ)
  | spawnFailed (error : String)
  | exited (status : ExitStatus)
  | error (error : String)
  deriving DecidableEq, Repr

inductive BootstrapFailure where
  | provisioning (reason : String)
  | stopRequested
  | claimRejected (reason : String)
  | channelClosed
  | attachment (reason : String)
  | attachmentDeadline
  | processExitedBeforeReady
  | processErrorBeforeReady (error : String)
  | sessionFault (reason : String)
  deriving DecidableEq, Repr

inductive ContextualProcessOutput where
  | process (output : ProcessOutput)
  | contextReady
  | bootstrapFailed (reason : BootstrapFailure)
  deriving DecidableEq, Repr

inductive EventKind where
  | spawnRequested
  | provisionSucceeded
  | provisionFailed (reason : String)
  | process (output : ProcessOutput)
  | bootstrapClaimed (handleExecutionId : ℕ)
  | bootstrapRejected (reason : String)
  | bootstrapClosed
  | attachmentSucceeded
  | attachmentFailed (reason : String)
  | attachmentDeadline
  | stopRequested
  | sessionFault (reason : String)
  | cleanupCompleted
  deriving DecidableEq, Repr

structure Event where
  identity : ExecutionIdentity
  kind : EventKind
  deriving DecidableEq, Repr

inductive Effect where
  | provisionSession
  | spawnNativeProcess
  | armAttachmentDeadline (deadline : ℕ)
  | cancelAttachmentDeadline
  | acceptBootstrap
  | rejectBootstrap (reason : BootstrapFailure)
  | closeBootstrap
  | emit (output : ContextualProcessOutput)
  | stopNativeProcess
  | revokeSession
  | releaseArena
  | finish
  deriving DecidableEq, Repr

inductive ContextResolution where
  | ready
  | failed (reason : BootstrapFailure)
  deriving DecidableEq, Repr

structure Coordinator where
  identity : ExecutionIdentity
  attachDeadline : ℕ
  spawnRequested : Bool := false
  provisioned : Bool := false
  nativeSpawnRequested : Bool := false
  processStarted : Bool := false
  processTerminal : Bool := false
  contextResolution : Option ContextResolution := none
  bootstrapClaimed : Bool := false
  stopRequested : Bool := false
  deadlineArmed : Bool := false
  stopEffectIssued : Bool := false
  closeEffectIssued : Bool := false
  revokeEffectIssued : Bool := false
  releaseEffectIssued : Bool := false
  cleanupWaiting : Bool := false
  finished : Bool := false
  deriving DecidableEq, Repr

namespace Coordinator

def new (identity : ExecutionIdentity) (attachDeadline : ℕ) : Coordinator :=
  { identity, attachDeadline }

section

variable (effect : Effect) (c : Coordinator)

def requestStop : Coordinator × List Effect :=
  if !c.stopEffectIssued && c.nativeSpawnRequested && !c.processTerminal then
    ({ c with stopEffectIssued := true }, [.stopNativeProcess])
  else (c, [])

def cancelDeadline : Coordinator × List Effect :=
  if c.deadlineArmed then ({ c with deadlineArmed := false }, [.cancelAttachmentDeadline])
  else (c, [])

def closeBootstrap (c : Coordinator) : Coordinator × List Effect :=
  if c.provisioned && !c.closeEffectIssued then
    ({ c with closeEffectIssued := true }, [.closeBootstrap])
  else (c, [])

def revokeSession (c : Coordinator) : Coordinator × List Effect :=
  if c.provisioned && !c.revokeEffectIssued then
    ({ c with revokeEffectIssued := true }, [.revokeSession])
  else (c, [])

/-- Push one effect and keep the state. -/
def push : Coordinator × List Effect :=
  (c, [effect])

/-- The end of `requestTerminalCleanup`. -/
def releaseOrFinish : Coordinator × List Effect :=
  if c.provisioned && !c.releaseEffectIssued then
    ({ c with releaseEffectIssued := true, cleanupWaiting := true }, [.releaseArena])
  else if !c.provisioned then ({ c with finished := true }, [.finish])
  else (c, [])

def requestTerminalCleanup : Coordinator × List Effect :=
  andThen (andThen (andThen (cancelDeadline c) closeBootstrap) revokeSession) releaseOrFinish

def resolveReady : Coordinator × List Effect :=
  if c.contextResolution ≠ none then (c, [])
  else
    andThen (andThen (cancelDeadline { c with contextResolution := some .ready })
      (push (.emit .contextReady))) closeBootstrap

def failContext (reason : BootstrapFailure) (stopNative : Bool) (c : Coordinator) :
    Coordinator × List Effect :=
  if c.contextResolution ≠ none then (c, [])
  else
    andThen (andThen (andThen (andThen
      (cancelDeadline { c with contextResolution := some (.failed reason) })
      (push (.emit (.bootstrapFailed reason)))) closeBootstrap) revokeSession)
      fun c => if stopNative && !c.processTerminal then requestStop c else (c, [])

def applyProcessOutput (output : ProcessOutput) : Coordinator × List Effect :=
  match output with
  | .stdout _ | .stderr _ =>
      if c.nativeSpawnRequested && !c.processTerminal then (c, [.emit (.process output)])
      else (c, [])
  | .started _ =>
      if !c.nativeSpawnRequested || c.processStarted || c.processTerminal then (c, [])
      else if c.stopRequested then
        andThen ({ c with processStarted := true }, [.emit (.process output)])
          (failContext .stopRequested true)
      else
        ({ c with processStarted := true, deadlineArmed := true },
          [.emit (.process output), .armAttachmentDeadline c.attachDeadline, .acceptBootstrap])
  | .spawnFailed _ =>
      if !c.nativeSpawnRequested || c.processStarted || c.processTerminal then (c, [])
      else
        andThen ({ c with processTerminal := true }, [.emit (.process output)])
          requestTerminalCleanup
  | .exited _ =>
      if !c.processStarted || c.processTerminal then (c, [])
      else
        let c := { c with processTerminal := true }
        andThen (andThen
          (if c.contextResolution = none then failContext .processExitedBeforeReady false c
            else (c, []))
          (push (.emit (.process output)))) requestTerminalCleanup
  | .error error =>
      if !c.nativeSpawnRequested || c.processTerminal then (c, [])
      else
        let c := { c with processTerminal := true }
        andThen (andThen
          (if c.processStarted ∧ c.contextResolution = none then
              failContext (.processErrorBeforeReady error) false c
            else (c, []))
          (push (.emit (.process output)))) requestTerminalCleanup

def applyKind : EventKind → Coordinator × List Effect
  | .spawnRequested =>
      if !c.spawnRequested then ({ c with spawnRequested := true }, [.provisionSession])
      else (c, [])
  | .provisionSucceeded =>
      if !c.spawnRequested || c.provisioned || c.nativeSpawnRequested then (c, [])
      else if c.stopRequested then requestTerminalCleanup { c with provisioned := true }
      else
        ({ c with provisioned := true, nativeSpawnRequested := true }, [.spawnNativeProcess])
  | .provisionFailed _ =>
      if c.provisioned || c.nativeSpawnRequested then (c, [])
      else ({ c with finished := true }, [.finish])
  | .process output => applyProcessOutput c output
  | .bootstrapClaimed handleExecutionId =>
      if handleExecutionId ≠ c.identity.executionId then
        (c, [.rejectBootstrap (.claimRejected "bootstrap handle belongs to another execution")])
      else if !c.processStarted ∨ c.contextResolution ≠ none ∨ c.bootstrapClaimed then
        (c, [.rejectBootstrap
          (.claimRejected "bootstrap handle was already claimed or is no longer active")])
      else ({ c with bootstrapClaimed := true }, [])
  | .bootstrapRejected reason =>
      if c.processStarted then failContext (.claimRejected reason) true c else (c, [])
  | .bootstrapClosed =>
      if c.processStarted then failContext .channelClosed true c else (c, [])
  | .attachmentSucceeded =>
      if c.processStarted ∧ c.bootstrapClaimed ∧ c.contextResolution = none then
        resolveReady c
      else (c, [])
  | .attachmentFailed reason =>
      if c.processStarted then failContext (.attachment reason) true c else (c, [])
  | .attachmentDeadline =>
      if c.processStarted then failContext .attachmentDeadline true c else (c, [])
  | .stopRequested =>
      if c.stopRequested || c.processTerminal then (c, [])
      else
        let c := { c with stopRequested := true }
        andThen (if c.nativeSpawnRequested then requestStop c else (c, []))
          fun c => if c.processStarted then failContext .stopRequested false c else (c, [])
  | .sessionFault reason =>
      if c.processStarted ∧ c.contextResolution = none then
        failContext (.sessionFault reason) true c
      else if c.processStarted && !c.processTerminal then
        andThen (andThen (requestStop c) closeBootstrap) revokeSession
      else (c, [])
  | .cleanupCompleted =>
      if c.cleanupWaiting then
        ({ c with cleanupWaiting := false, finished := true }, [.finish])
      else (c, [])

/-- The state after an event and the effects it asks for. -/
def apply (event : Event) : Coordinator × List Effect :=
  if event.identity ≠ c.identity ∨ c.finished then (c, []) else applyKind c event.kind

end

/-- All that a new coordinator does on a sequence of events. -/
def run (identity : ExecutionIdentity) (attachDeadline : ℕ) (events : List Event) :
    Coordinator × List Effect :=
  collect apply (new identity attachDeadline) events

end Coordinator

/-! ## The law of the effects -/

namespace Effect

/-- An effect that is issued at most once. -/
@[grind] def isSingle : Effect → Bool
  | .provisionSession | .spawnNativeProcess | .stopNativeProcess | .closeBootstrap
  | .revokeSession | .releaseArena | .finish => true
  | _ => false

@[grind] def isStarted : Effect → Bool
  | .emit (.process (.started _)) => true
  | _ => false

/-- The upstream learns that the process is over. -/
@[grind] def isTerminal : Effect → Bool
  | .emit (.process (.spawnFailed _)) | .emit (.process (.exited _))
  | .emit (.process (.error _)) => true
  | _ => false

/-- The upstream learns whether the process has got its context. -/
@[grind] def isContext : Effect → Bool
  | .emit .contextReady | .emit (.bootstrapFailed _) => true
  | _ => false

@[grind] def isArm : Effect → Bool
  | .armAttachmentDeadline _ => true
  | _ => false

end Effect

/-- What a coordinator may do after `past`. -/
structure Legal (past : List Effect) (effect : Effect) : Prop where
  unfinished : .finish ∉ past
  single : effect.isSingle → effect ∉ past
  context_single : effect.isContext → !seen Effect.isContext past
  context_started : effect.isContext → seen Effect.isStarted past
  context_running : effect.isContext → !seen Effect.isTerminal past
  terminal_single : effect.isTerminal → !seen Effect.isTerminal past
  release : effect = .releaseArena →
    seen Effect.isTerminal past ∨ .spawnNativeProcess ∉ past
  spawn : effect = .spawnNativeProcess → .releaseArena ∉ past
  arm_single : effect.isArm → !seen Effect.isArm past
  cancel : effect = .cancelAttachmentDeadline →
    seen Effect.isArm past ∧ .cancelAttachmentDeadline ∉ past
  finish : effect = .finish → seen Effect.isArm past → .cancelAttachmentDeadline ∈ past

attribute [local grind] Legal

/-- The flags of the coordinator agree with the effects issued so far. -/
structure Agree (c : Coordinator) (past : List Effect) : Prop where
  lawful : Lawful Legal past
  finished : .finish ∈ past → c.finished
  provision : .provisionSession ∈ past → c.spawnRequested
  spawn : .spawnNativeProcess ∈ past ↔ c.nativeSpawnRequested
  stop : .stopNativeProcess ∈ past → c.stopEffectIssued
  close : .closeBootstrap ∈ past → c.closeEffectIssued
  revoke : .revokeSession ∈ past → c.revokeEffectIssued
  release : .releaseArena ∈ past → c.releaseEffectIssued
  started : c.processStarted → seen Effect.isStarted past
  context : seen Effect.isContext past → c.contextResolution ≠ none
  terminal : seen Effect.isTerminal past → c.processTerminal
  arm : seen Effect.isArm past → c.processStarted
  armed : c.deadlineArmed ↔ seen Effect.isArm past ∧ .cancelAttachmentDeadline ∉ past
  cancelled : .cancelAttachmentDeadline ∈ past → seen Effect.isArm past
  native : c.nativeSpawnRequested → c.provisioned
  running : c.processStarted → c.nativeSpawnRequested
  issued : c.releaseEffectIssued → c.provisioned

/-- In the midst of an event the coordinator has not finished yet. -/
structure Working (c : Coordinator) (past : List Effect) : Prop extends Agree c past where
  unfinished : ¬c.finished

/-- Between two events the end of the process is known upstream. -/
structure Settled (c : Coordinator) (past : List Effect) : Prop extends Agree c past where
  ended : c.processTerminal → c.nativeSpawnRequested ∧ seen Effect.isTerminal past
  resolved : c.processStarted → c.processTerminal → c.contextResolution ≠ none
  waiting : c.cleanupWaiting → c.releaseEffectIssued
  released : c.releaseEffectIssued →
    ¬c.deadlineArmed ∧ (c.processTerminal ∨ ¬c.nativeSpawnRequested)
  gone : c.finished → c.nativeSpawnRequested → c.processTerminal

attribute [grind cases] Agree Working Settled

namespace Coordinator

variable {c : Coordinator} {past : List Effect}

@[grind =] theorem requestStop_fst : (requestStop c).1 =
    { c with
      stopEffectIssued :=
        c.stopEffectIssued || (c.nativeSpawnRequested && !c.processTerminal) } := by
  cases c; grind -linarith [requestStop]

@[grind =] theorem cancelDeadline_fst :
    (cancelDeadline c).1 = { c with deadlineArmed := false } := by
  cases c; grind -linarith [cancelDeadline]

@[grind =] theorem closeBootstrap_fst : (closeBootstrap c).1 =
    { c with closeEffectIssued := c.closeEffectIssued || c.provisioned } := by
  cases c; grind -linarith [closeBootstrap]

@[grind =] theorem revokeSession_fst : (revokeSession c).1 =
    { c with revokeEffectIssued := c.revokeEffectIssued || c.provisioned } := by
  cases c; grind -linarith [revokeSession]

@[grind =] theorem seen_cancelDeadline {p : Effect → Bool} :
    seen p (cancelDeadline c).2 = (c.deadlineArmed && p .cancelAttachmentDeadline) := by
  grind -linarith [cancelDeadline]

@[grind =] theorem seen_closeBootstrap {p : Effect → Bool} : seen p (closeBootstrap c).2 =
    (c.provisioned && !c.closeEffectIssued && p .closeBootstrap) := by
  grind -linarith [closeBootstrap]

@[grind =] theorem seen_revokeSession {p : Effect → Bool} : seen p (revokeSession c).2 =
    (c.provisioned && !c.revokeEffectIssued && p .revokeSession) := by
  grind -linarith [revokeSession]

theorem requestTerminalCleanup_fst (hprovisioned : c.provisioned)
    (hissued : ¬c.releaseEffectIssued) : c.requestTerminalCleanup.1 =
      { c with
        deadlineArmed := false
        closeEffectIssued := true
        revokeEffectIssued := true
        releaseEffectIssued := true
        cleanupWaiting := true } := by
  simp [requestTerminalCleanup, cancelDeadline_fst, closeBootstrap_fst, revokeSession_fst,
    releaseOrFinish, hprovisioned, hissued]

@[grind =] theorem failContext_fst {reason : BootstrapFailure} {stopNative : Bool} :
    (c.failContext reason stopNative).1 =
      if c.contextResolution ≠ none then c
      else
        { c with
          contextResolution := some (.failed reason)
          deadlineArmed := false
          closeEffectIssued := c.closeEffectIssued || c.provisioned
          revokeEffectIssued := c.revokeEffectIssued || c.provisioned
          stopEffectIssued := c.stopEffectIssued ||
            (stopNative && c.nativeSpawnRequested && !c.processTerminal) } := by
  grind -linarith [failContext, push, requestStop]

@[grind =] theorem seen_failContext {reason : BootstrapFailure} {stopNative : Bool} :
    seen Effect.isTerminal (c.failContext reason stopNative).2 = false := by
  grind -linarith [failContext, push, requestStop]

end Coordinator

/-! ## Helpers keep the law -/

section Working

open Coordinator

variable {c : Coordinator} {past : List Effect}

theorem Working.requestStop (h : Working c past) :
    Working c.requestStop.1 (past ++ c.requestStop.2) := by
  unfold Coordinator.requestStop
  split
  · obtain ⟨⟨⟩⟩ := h
    constructor
    · constructor <;> grind -linarith
    · assumption
  · simpa using h

theorem Working.stopIf (cond : Prop) [Decidable cond] (h : Working c past) :
    Working (if cond then c.requestStop else (c, [])).1
      (past ++ (if cond then c.requestStop else (c, [])).2) := by
  split
  · exact h.requestStop
  · simpa using h

section

variable (h : Working c past)
include h

theorem Working.cancelDeadline : Working c.cancelDeadline.1 (past ++ c.cancelDeadline.2) := by
  unfold Coordinator.cancelDeadline
  split
  · obtain ⟨⟨⟩⟩ := h
    constructor
    · constructor <;> grind -linarith
    · assumption
  · simpa using h

theorem Working.closeBootstrap : Working c.closeBootstrap.1 (past ++ c.closeBootstrap.2) := by
  unfold Coordinator.closeBootstrap
  split
  · obtain ⟨⟨⟩⟩ := h
    constructor
    · constructor <;> grind -linarith
    · assumption
  · simpa using h

theorem Working.revokeSession : Working c.revokeSession.1 (past ++ c.revokeSession.2) := by
  unfold Coordinator.revokeSession
  split
  · obtain ⟨⟨⟩⟩ := h
    constructor
    · constructor <;> grind -linarith
    · assumption
  · simpa using h

theorem Working.releaseOrFinish
    (hended : ¬c.deadlineArmed ∧ (seen Effect.isTerminal past ∨ ¬c.nativeSpawnRequested)) :
    Agree c.releaseOrFinish.1 (past ++ c.releaseOrFinish.2) := by
  unfold Coordinator.releaseOrFinish
  split_ifs
  · obtain ⟨⟨⟩⟩ := h
    constructor <;> grind -linarith
  · obtain ⟨⟨⟩⟩ := h
    constructor <;> grind -linarith
  · simpa using h.toAgree

theorem Working.requestTerminalCleanup
    (hended : seen Effect.isTerminal past ∨ ¬c.nativeSpawnRequested) :
    Agree c.requestTerminalCleanup.1 (past ++ c.requestTerminalCleanup.2) := by
  have hrevoke := h.cancelDeadline.closeBootstrap.revokeSession
  have hrelease := hrevoke.releaseOrFinish (by grind -linarith)
  simpa [Coordinator.requestTerminalCleanup] using hrelease

end

theorem Working.emit (output : ContextualProcessOutput) (h : Working c past)
    (hcontext : (Effect.emit output).isContext → c.processStarted ∧
      c.contextResolution ≠ none ∧ !seen Effect.isContext past ∧ !seen Effect.isTerminal past)
    (hterminal : (Effect.emit output).isTerminal →
      c.processTerminal ∧ !seen Effect.isTerminal past) :
    Working c (past ++ [.emit output]) := by
  obtain ⟨⟨⟩⟩ := h
  constructor
  · constructor <;> grind -linarith
  · assumption

/-- Setting the resolution is seen by no effect. -/
theorem Working.resolve (resolution : ContextResolution) (h : Working c past) :
    Working { c with contextResolution := some resolution } past := by
  obtain ⟨⟨⟩⟩ := h
  constructor
  · constructor <;> grind -linarith
  · assumption

theorem Working.resolveReady (h : Working c past)
    (hrunning : c.processStarted ∧ !seen Effect.isTerminal past) :
    Working c.resolveReady.1 (past ++ c.resolveReady.2) := by
  unfold Coordinator.resolveReady
  split
  · simpa using h
  · have hemit := (h.resolve .ready).cancelDeadline.emit .contextReady (by grind -linarith)
      (by grind -linarith)
    simpa [push] using hemit.closeBootstrap

theorem Working.failContext (reason : BootstrapFailure) (stopNative : Bool) (h : Working c past)
    (hrunning : c.processStarted ∧ !seen Effect.isTerminal past) :
    Working (c.failContext reason stopNative).1 (past ++ (c.failContext reason stopNative).2) := by
  unfold Coordinator.failContext
  split
  · simpa using h
  · have hemit := (h.resolve (.failed reason)).cancelDeadline.emit (.bootstrapFailed reason)
      (by grind -linarith) (by grind -linarith)
    have hstop := hemit.closeBootstrap.revokeSession.stopIf (stopNative && !c.processTerminal)
    simpa [push, cancelDeadline_fst, closeBootstrap_fst, revokeSession_fst] using hstop

theorem Working.over (h : Working c past) : Working { c with processTerminal := true } past := by
  obtain ⟨⟨⟩⟩ := h
  constructor
  · constructor <;> grind -linarith
  · assumption

/-- The process is over: the upstream learns it, and the cleanup begins. -/
theorem Working.end (output : ProcessOutput) (h : Working c past)
    (houtput : (Effect.emit (.process output)).isTerminal)
    (hend : c.nativeSpawnRequested ∧ ¬c.releaseEffectIssued ∧ c.processTerminal ∧
      !seen Effect.isTerminal past ∧ (c.processStarted → c.contextResolution ≠ none)) :
    Settled c.requestTerminalCleanup.1
      (past ++ [.emit (.process output)] ++ c.requestTerminalCleanup.2) := by
  have hemit := h.emit (.process output) (by grind -linarith) (by grind -linarith)
  have hcleanup := hemit.requestTerminalCleanup (by grind -linarith)
  rw [requestTerminalCleanup_fst (h.native hend.1) hend.2.1] at hcleanup ⊢
  obtain ⟨⟨⟩⟩ := h
  refine ⟨hcleanup, ?_, ?_, ?_, ?_, ?_⟩ <;> grind -linarith

end Working

/-! ## Events keep the law -/

namespace Coordinator

variable {c : Coordinator} {past : List Effect}

/-- The flags that the end of the process and its cleanup go by. -/
def phase (c : Coordinator) : Bool × Bool × Bool × Bool × Bool × Bool :=
  (c.processStarted, c.processTerminal, c.nativeSpawnRequested, c.cleanupWaiting,
    c.releaseEffectIssued, c.finished)

/-- An event that leaves the phase alone. -/
theorem settled_frame {c' : Coordinator} {out : List Effect} (h : Settled c past)
    (hworking : Working c' (past ++ out)) (hphase : c'.phase = c.phase)
    (hresolution : c.contextResolution ≠ none → c'.contextResolution ≠ none)
    (harmed : c'.deadlineArmed → c.deadlineArmed) : Settled c' (past ++ out) := by
  simp only [phase, Prod.mk.injEq] at hphase
  obtain ⟨⟩ := h
  refine ⟨hworking.toAgree, ?_, ?_, ?_, ?_, ?_⟩ <;> grind -linarith

theorem settled_failContext (reason : BootstrapFailure) (stopNative : Bool) (h : Settled c past)
    (hopen : ¬c.finished) (hstarted : c.processStarted) :
    Settled (c.failContext reason stopNative).1 (past ++ (c.failContext reason stopNative).2) := by
  by_cases hresolution : c.contextResolution = none
  · have hfail := (Working.mk h.toAgree hopen).failContext reason stopNative (by grind -linarith)
    apply settled_frame h hfail <;> grind -linarith [phase]
  · simpa [failContext, hresolution] using h

theorem settled_applyProcessOutput (output : ProcessOutput) (h : Settled c past)
    (hopen : ¬c.finished) :
    Settled (c.applyProcessOutput output).1 (past ++ (c.applyProcessOutput output).2) := by
  have hsame : Settled c (past ++ []) := by simpa using h
  have hworking : Working c past := ⟨h.toAgree, hopen⟩
  cases output with
  | stdout bytes | stderr bytes =>
    simp only [applyProcessOutput]
    split
    · exact settled_frame h (hworking.emit _ (by grind -linarith) (by grind -linarith)) rfl id id
    · exact hsame
  | started pid =>
    simp only [applyProcessOutput]
    split_ifs with hskip hstop
    · exact hsame
    · have hstarted : Settled { c with processStarted := true }
          (past ++ [.emit (.process (.started pid))]) := by
        obtain ⟨⟨⟩⟩ := h
        constructor
        · constructor <;> grind -linarith
        all_goals grind -linarith
      simpa using settled_failContext .stopRequested true hstarted hopen rfl
    · obtain ⟨⟨⟩⟩ := h
      constructor
      · constructor <;> grind -linarith
      all_goals grind -linarith
  | spawnFailed error =>
    simp only [applyProcessOutput]
    split_ifs with hskip
    · exact hsame
    · simpa using hworking.over.end (.spawnFailed error) rfl (by grind -linarith)
  | exited status =>
    simp only [applyProcessOutput]
    split_ifs with hskip hresolution
    · exact hsame
    · have hfail := hworking.over.failContext .processExitedBeforeReady false (by grind -linarith)
      simpa [push] using hfail.end (.exited status) rfl (by grind -linarith)
    · simpa [push] using hworking.over.end (.exited status) rfl (by grind -linarith)
  | error error =>
    simp only [applyProcessOutput]
    split_ifs with hskip hresolution
    · exact hsame
    · have hfail := hworking.over.failContext (.processErrorBeforeReady error) false
        (by grind -linarith)
      simpa [push] using hfail.end (.error error) rfl (by grind -linarith)
    · simpa [push] using hworking.over.end (.error error) rfl (by grind -linarith)

theorem settled_provision (h : Settled c past) (hopen : ¬c.finished)
    (hfirst : ¬c.spawnRequested) :
    Settled { c with spawnRequested := true } (past ++ [.provisionSession]) := by
  obtain ⟨⟨⟩⟩ := h
  constructor
  · constructor <;> grind -linarith
  all_goals grind -linarith

theorem settled_spawn (h : Settled c past) (hopen : ¬c.finished) (hfirst : ¬c.provisioned) :
    Settled { c with provisioned := true, nativeSpawnRequested := true }
      (past ++ [.spawnNativeProcess]) := by
  obtain ⟨⟨⟩⟩ := h
  constructor
  · constructor <;> grind -linarith
  all_goals grind -linarith

/-- A session that is not wanted any more is cleaned up at once. -/
theorem settled_unwanted (h : Settled c past) (hopen : ¬c.finished) (hfirst : ¬c.provisioned) :
    Settled (requestTerminalCleanup { c with provisioned := true }).1
      (past ++ (requestTerminalCleanup { c with provisioned := true }).2) := by
  have hprovisioned : Working { c with provisioned := true } past := by
    obtain ⟨⟨⟩⟩ := h
    constructor
    · constructor <;> grind -linarith
    · assumption
  have hcleanup := hprovisioned.requestTerminalCleanup (by grind -linarith)
  rw [requestTerminalCleanup_fst rfl (by grind -linarith)] at hcleanup ⊢
  obtain ⟨⟩ := h
  refine ⟨hcleanup, ?_, ?_, ?_, ?_, ?_⟩ <;> grind -linarith

theorem settled_finish (waiting : Bool) (h : Settled c past) (hopen : ¬c.finished)
    (hend : ¬c.deadlineArmed ∧ (waiting → c.cleanupWaiting) ∧
      (c.nativeSpawnRequested → c.processTerminal)) :
    Settled { c with cleanupWaiting := waiting, finished := true } (past ++ [.finish]) := by
  obtain ⟨⟨⟩⟩ := h
  constructor
  · constructor <;> grind -linarith
  all_goals grind -linarith

theorem settled_reject (reason : BootstrapFailure) (h : Settled c past) (hopen : ¬c.finished) :
    Settled c (past ++ [.rejectBootstrap reason]) := by
  obtain ⟨⟨⟩⟩ := h
  constructor
  · constructor <;> grind -linarith
  all_goals grind -linarith

/-- Noting the claim or the stop request is seen by no effect. -/
theorem settled_note (claimed stopped : Bool) (h : Settled c past) :
    Settled { c with bootstrapClaimed := claimed, stopRequested := stopped } past := by
  obtain ⟨⟨⟩⟩ := h
  constructor
  · constructor <;> assumption
  all_goals assumption

theorem settled_stop (h : Settled c past) (hopen : ¬c.finished) :
    let c' := { c with stopRequested := true }
    let r := andThen (if c'.nativeSpawnRequested then requestStop c' else (c', []))
      fun c => if c.processStarted then failContext .stopRequested false c else (c, [])
    Settled r.1 (past ++ r.2) := by
  have hnote := settled_note c.bootstrapClaimed true h
  have hstop := (Working.mk hnote.toAgree hopen).stopIf c.nativeSpawnRequested
  have hsettled := settled_frame hnote hstop (by grind -linarith [phase]) (by grind -linarith)
    (by grind -linarith)
  have hfail : ∀ c' past', Settled c' past' → ¬c'.finished →
      Settled (if c'.processStarted then failContext .stopRequested false c' else (c', [])).1
        (past' ++
          (if c'.processStarted then failContext .stopRequested false c' else (c', [])).2) := by
    intro c' past' h' hopen'
    split
    · exact settled_failContext _ _ h' hopen' ‹_›
    · simpa using h'
  simpa using hfail _ _ hsettled hstop.unfinished

theorem settled_applyKind (kind : EventKind) (h : Settled c past) (hopen : ¬c.finished) :
    Settled (c.applyKind kind).1 (past ++ (c.applyKind kind).2) := by
  have hsame : Settled c (past ++ []) := by simpa using h
  have hworking : Working c past := ⟨h.toAgree, hopen⟩
  cases kind with
  | spawnRequested =>
    simp only [applyKind]
    split
    · exact settled_provision h hopen (by grind -linarith)
    · exact hsame
  | provisionSucceeded =>
    simp only [applyKind]
    split_ifs with hskip hstop
    · exact hsame
    · exact settled_unwanted h hopen (by grind -linarith)
    · exact settled_spawn h hopen (by grind -linarith)
  | provisionFailed reason =>
    simp only [applyKind]
    split_ifs with hskip
    · exact hsame
    · exact settled_finish _ h hopen (by grind -linarith)
  | process output => exact settled_applyProcessOutput output h hopen
  | bootstrapClaimed handleExecutionId =>
    simp only [applyKind]
    split_ifs
    · exact settled_reject _ h hopen
    · exact settled_reject _ h hopen
    · exact settled_note true c.stopRequested hsame
  | bootstrapRejected reason | bootstrapClosed | attachmentFailed reason | attachmentDeadline =>
    simp only [applyKind]
    split
    · exact settled_failContext _ _ h hopen ‹_›
    · exact hsame
  | attachmentSucceeded =>
    simp only [applyKind]
    split
    · have hready := hworking.resolveReady (by grind -linarith)
      apply settled_frame h hready <;> grind -linarith [phase, resolveReady, push]
    · exact hsame
  | stopRequested =>
    simp only [applyKind]
    split
    · exact hsame
    · exact settled_stop h hopen
  | sessionFault reason =>
    simp only [applyKind]
    split_ifs with hfirst hrunning
    · exact settled_failContext _ _ h hopen hfirst.1
    · have hrevoke := hworking.requestStop.closeBootstrap.revokeSession
      rw [append_assoc, append_assoc, ← append_assoc _ _ (revokeSession _).2]
        at hrevoke
      apply settled_frame h hrevoke <;> grind -linarith [phase]
    · exact hsame
  | cleanupCompleted =>
    simp only [applyKind]
    split
    · exact settled_finish _ h hopen (by grind -linarith)
    · exact hsame

variable (event : Event)

theorem settled_apply (h : Settled c past) :
    Settled (c.apply event).1 (past ++ (c.apply event).2) := by
  unfold apply
  split
  · simpa using h
  · exact settled_applyKind event.kind h (by grind -linarith)

theorem settled_run (identity : ExecutionIdentity) (attachDeadline : ℕ) (events : List Event) :
    Settled (run identity attachDeadline events).1 (run identity attachDeadline events).2 := by
  have hnew : Settled (new identity attachDeadline) [] := by
    constructor
    · constructor <;> simp [new]
    all_goals simp [new]
  exact collect_invariant (fun _ _ event h => settled_apply event h) events hnew

theorem apply_identity (c : Coordinator) (event : Event) :
    (c.apply event).1.identity = c.identity := by
  unfold apply
  split
  · rfl
  · cases event.kind with
    | process output =>
      cases output <;> grind -linarith [applyKind, applyProcessOutput, push, requestTerminalCleanup,
        releaseOrFinish]
    | _ => grind -linarith [applyKind, push, resolveReady, requestTerminalCleanup, releaseOrFinish]

/-- The events of other executions might as well not have been sent. -/
theorem collect_filter_identity (events : List Event) :
    collect apply c events = collect apply c (events.filter (·.identity = c.identity)) := by
  induction events generalizing c with
  | nil => rfl
  | cons event events ih =>
    by_cases hown : event.identity = c.identity
    · simp only [hown, decide_true, filter_cons_of_pos, collect, andThen]
      rw [← apply_identity c event, ← ih]
    · have hforeign : c.apply event = (c, []) := by simp [apply, hown]
      simp [collect, hforeign, hown, ← ih]

/-- Every effect of a run is allowed by the effects before it, and events of another identity have
no effect. -/
theorem coordination_ordered_once (identity : ExecutionIdentity) (attachDeadline : ℕ)
    (events : List Event) :
    Lawful Legal (run identity attachDeadline events).2 ∧
      run identity attachDeadline events =
        run identity attachDeadline (events.filter (·.identity = identity)) :=
  ⟨(settled_run identity attachDeadline events).lawful, collect_filter_identity events⟩

/-! ## The end of a run -/

/-- The provisioning does not fail, and no stop is requested before it succeeded. -/
def Provisions (c : Coordinator) (event : Event) : Prop :=
  event.identity = c.identity →
    event.kind = .stopRequested ∨ event.kind matches .provisionFailed _ → c.provisioned

instance (c : Coordinator) (event : Event) : Decidable (Provisions c event) :=
  inferInstanceAs (Decidable (_ → _ → _))

/-- A coordinator that has got beyond the provisioning has spawned the process. -/
@[grind] def Spawns (c : Coordinator) : Prop :=
  c.stopRequested ∨ c.provisioned ∨ c.finished → c.nativeSpawnRequested

/-- The process will never be spawned. -/
@[grind] def Never (c : Coordinator) : Prop :=
  (c.stopRequested ∨ c.finished) ∧ ¬c.nativeSpawnRequested

section

variable (h : Settled c past)
include h

theorem apply_flags (hown : event.identity = c.identity) (hopen : ¬c.finished) :
    let c' := (c.apply event).1
    match event.kind with
    | .provisionSucceeded => c'.stopRequested = c.stopRequested ∧ c'.finished = c.finished ∧
        c'.provisioned = (c.provisioned || c.spawnRequested) ∧
        c'.nativeSpawnRequested = (c.nativeSpawnRequested ||
          (c.spawnRequested && !c.provisioned && !c.stopRequested))
    | .provisionFailed _ => c'.stopRequested = c.stopRequested ∧ c'.finished = !c.provisioned ∧
        c'.provisioned = c.provisioned ∧ c'.nativeSpawnRequested = c.nativeSpawnRequested
    | .stopRequested => c'.stopRequested = (c.stopRequested || !c.processTerminal) ∧
        c'.finished = c.finished ∧
        c'.provisioned = c.provisioned ∧ c'.nativeSpawnRequested = c.nativeSpawnRequested
    | .cleanupCompleted => c'.stopRequested = c.stopRequested ∧ (c'.finished → c.provisioned) ∧
        c'.provisioned = c.provisioned ∧ c'.nativeSpawnRequested = c.nativeSpawnRequested
    | _ => c'.stopRequested = c.stopRequested ∧ c'.finished = c.finished ∧
        c'.provisioned = c.provisioned ∧ c'.nativeSpawnRequested = c.nativeSpawnRequested := by
  obtain ⟨⟨⟩⟩ := h
  simp only [apply, hown, hopen]
  cases event.kind with
  | process output =>
    cases output <;> grind -linarith [applyKind, applyProcessOutput, push, requestTerminalCleanup,
      releaseOrFinish]
  | _ => grind -linarith [applyKind, push, resolveReady, requestTerminalCleanup, releaseOrFinish]

theorem spawns_apply (hspawns : Spawns c) (hevent : Provisions c event) :
    Spawns (c.apply event).1 := by
  by_cases hskip : event.identity ≠ c.identity ∨ c.finished
  · simpa [apply, hskip] using hspawns
  · have hflags := apply_flags event h (by grind -linarith) (by grind -linarith)
    cases hkind : event.kind <;> grind -linarith [Provisions]

theorem never_of_not_provisions (hspawns : Spawns c) (hevent : ¬Provisions c event) :
    Never (c.apply event).1 := by
  by_cases hskip : event.identity ≠ c.identity ∨ c.finished
  · grind -linarith [Provisions, apply]
  · have hflags := apply_flags event h (by grind -linarith) (by grind -linarith)
    cases hkind : event.kind <;> grind -linarith [Provisions]

theorem never_apply (hnever : Never c) : Never (c.apply event).1 := by
  by_cases hskip : event.identity ≠ c.identity ∨ c.finished
  · simpa [apply, hskip] using hnever
  · have hflags := apply_flags event h (by grind -linarith) (by grind -linarith)
    cases hkind : event.kind <;> grind -linarith

/-- The process is never spawned exactly in the runs that give up the provisioning. -/
theorem guarded_provisions_iff (hspawns : Spawns c) (events : List Event) :
    Guarded Provisions (fun c event => (c.apply event).1) c events ↔
      ¬Never (collect apply c events).1 := by
  have hlost (events : List Event) {c : Coordinator} {past : List Effect} (h : Settled c past)
      (hnever : Never c) : Never (collect apply c events).1 := by
    induction events generalizing c past with
    | nil => exact hnever
    | cons event events ih => exact ih (settled_apply event h) (never_apply event h hnever)
  induction events generalizing c past with
  | nil =>
    simp only [Guarded, collect, true_iff]
    grind -linarith
  | cons event events ih =>
    by_cases hevent : Provisions c event
    · have hrest := ih (settled_apply event h) (spawns_apply event h hspawns hevent)
      simpa [Guarded, hevent, collect] using hrest
    · have hnever := hlost events (settled_apply event h)
        (never_of_not_provisions event h hspawns hevent)
      simpa [Guarded, hevent, collect] using hnever

end

/-- Whenever a run finishes, exactly one terminal output was emitted before, unless the provisioning
failed or the stop request came before its success. -/
theorem requester_learns_end_iff {identity : ExecutionIdentity} {attachDeadline : ℕ}
    {events : List Event} {past rest : List Effect}
    (hfinish : (run identity attachDeadline events).2 = past ++ .finish :: rest) :
    past.countP Effect.isTerminal = 1 ↔
      Guarded Provisions (fun c event => (c.apply event).1) (new identity attachDeadline)
        events := by
  have hsettled := settled_run identity attachDeadline events
  have hprovisions := guarded_provisions_iff (settled_run identity attachDeadline [])
    (by simp [Spawns, run, collect, new]) events
  obtain rfl : rest = [] := by
    cases rest with
    | nil => rfl
    | cons effect rest =>
      have hlegal := hsettled.lawful (past ++ [.finish]) effect rest (by simp [hfinish])
      exact absurd (by simp) hlegal.unfinished
  have hle : past.countP Effect.isTerminal ≤ 1 := by
    have htrace := hsettled.lawful.countP_le_one fun _ _ hlegal => hlegal.terminal_single
    rw [hfinish, countP_append] at htrace
    omega
  have hseen : seen Effect.isTerminal (run identity attachDeadline events).2 ↔
      0 < past.countP Effect.isTerminal := by
    simp [hfinish, seen, Effect.isTerminal, countP_pos_iff]
  have hfinished := hsettled.finished (by simp [hfinish])
  have hnever : ¬Never (run identity attachDeadline events).1 ↔
      seen Effect.isTerminal (run identity attachDeadline events).2 := by
    grind -linarith
  have hiff := hprovisions.trans (hnever.trans hseen)
  constructor
  · intro hone
    exact hiff.mpr (by omega)
  · intro hguarded
    have hpos := hiff.mp hguarded
    omega

theorem requester_learns_end_of_exited : ∃ past,
    (run ⟨1, 1⟩ 5 ([.spawnRequested, .provisionSucceeded, .process (.started 7),
      .process (.exited (.code 0)), .cleanupCompleted].map (Event.mk ⟨1, 1⟩))).2 =
      past ++ [.finish] ∧ past.countP Effect.isTerminal = 1 := by
  refine ⟨[.provisionSession, .spawnNativeProcess, .emit (.process (.started 7)),
    .armAttachmentDeadline 5, .acceptBootstrap, .cancelAttachmentDeadline,
    .emit (.bootstrapFailed .processExitedBeforeReady), .closeBootstrap, .revokeSession,
    .emit (.process (.exited (.code 0))), .releaseArena], ?_⟩
  rw [and_iff_left_of_imp fun htrace => (requester_learns_end_iff htrace).mpr (by decide)]
  decide

/-- A failed provisioning, and a stop request before its success, end without a word. -/
theorem requester_not_told_of_failed_provisioning :
    (run ⟨1, 1⟩ 5 ([.spawnRequested, .provisionFailed "no arena"].map (Event.mk ⟨1, 1⟩))).2 =
      [.provisionSession, .finish] ∧
    (run ⟨1, 1⟩ 5 ([.spawnRequested, .stopRequested, .provisionSucceeded,
      .cleanupCompleted].map (Event.mk ⟨1, 1⟩))).2 =
      [.provisionSession, .closeBootstrap, .revokeSession, .releaseArena, .finish] := by
  decide

end Coordinator

end Swactor.Process
