import Swactor.Host.StreamBinding
import Mathlib.Logic.Relation

/-!
# What a stream binding can do in one step

The promises of a binding are about a part of its state, its core. A message first changes what
it names there: the ring, a list of waiters, a flag. The rest of its handling is a sequence of
moves of the core, each with the condition under which it is made.
-/
namespace Swactor.Host

open StreamEffect List
open Relation (ReflTransGen)
open Namespace (StreamIncarnation StreamMatch StreamRole)
open DataPlane (PlacedRing)

/-- Effects that no promise is about. -/
def StreamEffect.quiet : StreamEffect → Bool
  | .openStream _ _ _ _ _ | .operationFailed _ | .streamOpened _ _ | .streamWake _ _
  | .streamDisplaced _ _ | .install _ | .releaseStream _ | .bindingDone => false
  | _ => true

/-- The fields that the promises are about. -/
structure StreamCore where
  path : Namespace.DataPath
  ring : Option PlacedRing
  ringAllocationPending : Bool
  matched : Option StreamMatch
  fencedDisplacements : List StreamIncarnation
  transportInstalled : Bool
  opened : Bool
  transportQuiesced : Bool
  terminal : Option StreamError
  dataWaiters : List ActorAddress
  capacityWaiters : List ActorAddress
  closeWaiters : List ActorAddress
  releaseStarted : Bool
  stopped : Bool
  sent : List StreamEffect

def StreamBinding.core (b : StreamBinding) : StreamCore where
  path := b.path
  ring := b.ring
  ringAllocationPending := b.ringAllocationPending
  matched := b.matched
  fencedDisplacements := b.fencedDisplacements
  transportInstalled := b.transportInstalled
  opened := b.opened
  transportQuiesced := b.transportQuiesced
  terminal := b.terminal
  dataWaiters := b.dataWaiters
  capacityWaiters := b.capacityWaiters
  closeWaiters := b.closeWaiters
  releaseStarted := b.releaseStarted
  stopped := b.stopped
  sent := b.sent

/-- What the moves of a message depend on: whether it is a clean close, whether it is an answer
of the allocator after which the ring is released unseen, whether displacements may be
acknowledged, and which open may be asked for. -/
structure StreamScope where
  clean : Prop
  late : Prop
  acks : Prop
  asks : StreamEffect → Prop

namespace StreamCore

variable (c : StreamCore) (error : StreamError)

def emitAll (effects : List StreamEffect) : StreamCore :=
  { c with sent := c.sent ++ effects }

def isMatchedAt (incarnation : StreamIncarnation) : Bool :=
  c.matched.any fun matched => matched.incarnation = incarnation

/-- What is said on the way into the terminal state. -/
def farewell (report : Bool) (before after : List StreamEffect) : List StreamEffect :=
  (if report ∧ !c.opened then [.operationFailed error] else []) ++ (before ++
    (StreamBinding.wakeAll c.dataWaiters (.error error) ++
      (StreamBinding.wakeAll c.capacityWaiters (.error error) ++ after)))

def terminated (report : Bool) (before after : List StreamEffect) : StreamCore :=
  { c.emitAll (c.farewell error report before after) with
    terminal := some error
    dataWaiters := []
    capacityWaiters := [] }

def completed (result : Except StreamError Unit) : StreamCore :=
  { c.emitAll (StreamBinding.wakeAll c.closeWaiters result ++ [.bindingDone]) with
    closeWaiters := []
    stopped := true }

/-- The release of the ring, or the end if there is none. -/
def released : StreamCore :=
  match c.ring with
  | some ring => { c.emitAll [.releaseStream ring] with releaseStarted := true }
  | none => { c with releaseStarted := true }.completed (.ok ())

end StreamCore

inductive StreamMove (scope : StreamScope) (c : StreamCore) : StreamCore → Prop
  | said (effects : List StreamEffect) (h : ∀ effect ∈ effects, effect.quiet = true) :
      StreamMove scope c (c.emitAll effects)
  | asked (role : StreamRole) (descriptor : List UInt8) (replace ensure : Bool)
      (expectedRevision : Option ℕ)
      (hasks : scope.asks (.openStream role descriptor replace ensure expectedRevision)) :
      StreamMove scope c
        (c.emitAll [.openStream role descriptor replace ensure expectedRevision])
  | matched (matched : StreamMatch) (hopen : c.terminal = none) :
      StreamMove scope c { c with matched := some matched }
  | terminated (error : StreamError) (report : Bool) (before after : List StreamEffect)
      (hopen : c.terminal = none) (hbefore : ∀ effect ∈ before, effect.quiet = true)
      (hafter : ∀ effect ∈ after, effect.quiet = true)
      (hterminate : ¬scope.clean → c.transportInstalled = true → ∀ matched,
        c.matched = some matched → .terminate matched.incarnation ∈ after) :
      StreamMove scope c (c.terminated error report before after)
  | installed (matched : StreamMatch) (hopen : c.terminal = none)
      (hmatched : c.matched = some matched) (hring : c.ring.isSome)
      (hnew : c.transportInstalled = false) :
      StreamMove scope c
        { c.emitAll [.install matched.incarnation] with transportInstalled := true }
  | opened (incarnation : StreamIncarnation) (ring : PlacedRing) (hopen : c.terminal = none)
      (hnew : c.opened = false) :
      StreamMove scope c { c.emitAll [.streamOpened incarnation ring] with opened := true }
  | released (hterminal : c.terminal.isSome) (hnew : c.releaseStarted = false)
      (hpending : c.ringAllocationPending = false)
      (hquiet : (c.matched.isSome → c.transportInstalled = true → c.transportQuiesced = true) ∨
        scope.late) :
      StreamMove scope c c.released
  | acknowledged (incarnation : StreamIncarnation) (targets : List ActorAddress)
      (hacks : scope.acks) (hterminal : c.terminal.isSome)
      (hmatched : c.isMatchedAt incarnation = true ∨ incarnation ∈ c.fencedDisplacements) :
      StreamMove scope c
        (c.emitAll (targets.map fun target => .streamDisplaced target incarnation))
  | fenced (incarnation : StreamIncarnation) (hterminal : c.terminal.isSome)
      (hmatched : c.isMatchedAt incarnation = true) :
      StreamMove scope c
        { c with fencedDisplacements := c.fencedDisplacements.insert incarnation }

abbrev StreamMoves (scope : StreamScope) : StreamCore → StreamCore → Prop :=
  ReflTransGen (StreamMove scope)

/-- Quiet effects are all that has happened to the core. -/
def QuietAfter (b b' : StreamBinding) : Prop :=
  ∃ told : List StreamEffect, (∀ effect ∈ told, effect.quiet = true) ∧
    b'.core = b.core.emitAll told

attribute [local simp] StreamCore.emitAll

namespace QuietAfter

variable {b b' b'' : StreamBinding}

theorem refl (b : StreamBinding) : QuietAfter b b :=
  ⟨[], by simp, by simp⟩

theorem of_core (h : b'.core = b.core) : QuietAfter b b' :=
  ⟨[], by simp, by simp [h]⟩

theorem trans (h : QuietAfter b b') (h' : QuietAfter b' b'') : QuietAfter b b'' := by
  obtain ⟨told, hquiet, hcore⟩ := h
  obtain ⟨told', hquiet', hcore'⟩ := h'
  refine ⟨told ++ told', fun effect heffect => ?_, by simp [hcore', hcore]⟩
  rcases mem_append.mp heffect with heffect | heffect
  · exact hquiet effect heffect
  · exact hquiet' effect heffect

theorem emitAll {effects : List StreamEffect} (h : ∀ effect ∈ effects, effect.quiet = true) :
    QuietAfter b (b.emitAll effects) :=
  ⟨effects, h, rfl⟩

theorem emit {effect : StreamEffect} (h : effect.quiet = true) : QuietAfter b (b.emit effect) :=
  ⟨[effect], by simpa using h, rfl⟩

theorem moves {scope : StreamScope} (h : QuietAfter b b') : StreamMoves scope b.core b'.core := by
  obtain ⟨told, hquiet, hcore⟩ := h
  rw [hcore]
  exact .single (.said told hquiet)

variable (b) (env : StreamServices)

theorem sendPeerOffer : QuietAfter b (b.sendPeerOffer env) := by
  unfold StreamBinding.sendPeerOffer
  split
  · exact .refl b
  · next matched hmatched =>
    split_ifs
    · exact .refl b
    · exact ⟨[_], by simp [quiet], rfl⟩
    · exact .of_core rfl

theorem sendPeerTermination : QuietAfter b (b.sendPeerTermination env) := by
  unfold StreamBinding.sendPeerTermination
  split
  · exact .refl b
  · split
    · exact .refl b
    · next matched hmatched =>
      dsimp only
      split
      · exact ⟨[_], by simp [quiet], rfl⟩
      · exact .of_core rfl

theorem closeNamespace (incarnation : StreamIncarnation) :
    QuietAfter b (b.closeNamespace env incarnation) := by
  unfold StreamBinding.closeNamespace
  split
  · exact .refl b
  · exact ⟨[_], by simp [quiet], rfl⟩

end QuietAfter

/-- A terminal binding that waits for nothing has begun to release. -/
def StreamBinding.Settled (b : StreamBinding) : Prop :=
  b.terminal.isSome → b.ringAllocationPending = false →
    (b.transportInstalled = true → b.transportQuiesced = true) → b.peerAckPending = false →
      b.releaseStarted = true

/-- The core has moved on from `c`, and a binding that was settled still is. -/
structure Turns (scope : StreamScope) (c : StreamCore) (b b' : StreamBinding) : Prop where
  moves : StreamMoves scope c b'.core
  settled : b.Settled → b'.Settled

section

variable {scope : StreamScope} {c : StreamCore} {b b' b'' : StreamBinding}

theorem Turns.trans (h : Turns scope c b b') (h' : Turns scope b'.core b' b'') :
    Turns scope c b b'' :=
  ⟨h.moves.trans h'.moves, fun hb => h'.settled (h.settled hb)⟩

theorem Turns.since (h : Turns scope c b' b'') (hb : b.Settled → b'.Settled) :
    Turns scope c b b'' :=
  ⟨h.moves, fun hsettled => h.settled (hb hsettled)⟩

end

namespace StreamBinding

section Moves

variable {scope : StreamScope} {b : StreamBinding}

theorem settled_of_open (hopen : b.terminal = none) : b.Settled := by
  intro hterminal
  simp [hopen] at hterminal

theorem settled_releaseRing (b : StreamBinding) : b.releaseRing.Settled := by
  unfold releaseRing
  split
  · next hbusy => exact fun _ hpending _ _ => hbusy.resolve_right (by simp [hpending])
  · dsimp only
    split <;> exact fun _ _ _ _ => rfl

theorem settled_beginTerminal (h : b.Settled) (env : StreamServices) (error : StreamError)
    (notifyPeer terminateTransport : Bool) :
    (b.beginTerminal env error notifyPeer terminateTransport).Settled := by
  unfold beginTerminal
  split
  · exact h
  · dsimp only
    split
    · next hbusy =>
      intro _ _ hcalm
      simpa [hcalm hbusy.2.1] using hbusy.2.2
    · split
      · next hwaits =>
        intro _ _ _ hacked
        simp [hacked] at hwaits
      · exact settled_releaseRing _

theorem settled_reportFailure (h : b.Settled) (error : StreamError) :
    (b.reportFailure error).Settled := by
  unfold reportFailure
  split <;> exact h

theorem turns_sendPeerOffer (b : StreamBinding) (env : StreamServices) :
    Turns scope b.core b (b.sendPeerOffer env) := by
  refine ⟨(QuietAfter.sendPeerOffer b env).moves, fun h => ?_⟩
  unfold sendPeerOffer
  split
  · exact h
  · split_ifs <;> exact h

theorem turns_sendPeerTermination (b : StreamBinding) (env : StreamServices) :
    Turns scope b.core b (b.sendPeerTermination env) := by
  refine ⟨(QuietAfter.sendPeerTermination b env).moves, fun h => ?_⟩
  unfold sendPeerTermination
  split
  · exact h
  · split
    · exact h
    · dsimp only
      split <;> exact h

theorem core_releaseRing (hnew : b.releaseStarted = false)
    (hpending : b.ringAllocationPending = false) : b.releaseRing.core = b.core.released := by
  unfold releaseRing StreamCore.released
  rw [if_neg (by simp [hnew, hpending])]
  cases hring : b.ring <;> simp only [core, hring] <;> rfl

theorem moves_releaseRing (hterminal : b.terminal.isSome)
    (hquiet : (b.matched.isSome → b.transportInstalled = true → b.transportQuiesced = true) ∨
      scope.late) :
    StreamMoves scope b.core b.releaseRing.core := by
  by_cases hnew : b.releaseStarted = true ∨ b.ringAllocationPending = true
  · have hsame : b.releaseRing = b := by
      unfold releaseRing
      rw [if_pos hnew]
    rw [hsame]
  · rw [not_or, Bool.not_eq_true, Bool.not_eq_true] at hnew
    rw [core_releaseRing hnew.1 hnew.2]
    exact .single (.released hterminal hnew.1 hnew.2 hquiet)

section

variable (b : StreamBinding)

/-- The effects of `enterTerminal` apart from the wakes. -/
theorem core_enterTerminal (error : StreamError) :
    ∃ before : List StreamEffect, (∀ effect ∈ before, effect.quiet = true) ∧
      (b.enterTerminal error).core = b.core.terminated error false before [] := by
  refine ⟨b.namespaceOpen.toList.map stopActor ++
    b.ring.toList.map fun ring =>
      markPeerTerminated ring (ringPeerTermination error), ?_, ?_⟩
  · intro effect heffect
    simp only [mem_append, mem_map] at heffect
    rcases heffect with ⟨actor, -, rfl⟩ | ⟨ring, -, rfl⟩ <;> rfl
  · simp [enterTerminal, core, emitAll, StreamCore.terminated, StreamCore.farewell]

variable (env : StreamServices)

theorem QuietAfter.notifyEnd (notifyPeer : Bool) : QuietAfter b (b.notifyEnd env notifyPeer) := by
  unfold StreamBinding.notifyEnd
  split
  · have hset : QuietAfter b { b with peerAckPending := true } := .of_core rfl
    exact hset.trans (.sendPeerTermination _ env)
  · exact .refl b

/-- Leaving the path is quiet, and the transport is told to terminate where it has to be. -/
theorem core_leavePath (terminateTransport : Bool) :
    ∃ after : List StreamEffect, (∀ effect ∈ after, effect.quiet = true) ∧
      (terminateTransport = true → b.transportInstalled = true → ∀ matched,
        b.matched = some matched → .terminate matched.incarnation ∈ after) ∧
      (b.leavePath env terminateTransport).core = b.core.emitAll after := by
  unfold leavePath
  cases hmatched : b.matched with
  | none => exact ⟨[], by simp, by simp, by simp⟩
  | some matched =>
    obtain ⟨told, hquiet, hcore⟩ := QuietAfter.closeNamespace b env matched.incarnation
    have hinstalled : (b.closeNamespace env matched.incarnation).transportInstalled =
        b.transportInstalled := congrArg StreamCore.transportInstalled hcore
    dsimp only
    rw [hinstalled]
    split
    · refine ⟨told ++ [.terminate matched.incarnation], fun effect heffect => ?_, ?_, ?_⟩
      · rcases mem_append.mp heffect with heffect | heffect
        · exact hquiet effect heffect
        · rw [mem_singleton.mp heffect]
          rfl
      · rintro - - known ⟨⟩
        simp
      · have hlast : ((b.closeNamespace env matched.incarnation).emit
            (.terminate matched.incarnation)).core =
            (b.closeNamespace env matched.incarnation).core.emitAll
              [.terminate matched.incarnation] := rfl
        rw [hlast, hcore]
        simp
    · next hkeep =>
      exact ⟨told, hquiet, fun hflag hon => absurd ⟨hon, hflag⟩ hkeep, hcore⟩

variable (error : StreamError)

/-- The way into the terminal state is one move, up to the release of the ring. -/
theorem core_ended (notifyPeer terminateTransport report : Bool) (hopen : b.terminal = none) :
    ∃ before after : List StreamEffect, (∀ effect ∈ before, effect.quiet = true) ∧
      (∀ effect ∈ after, effect.quiet = true) ∧
      (terminateTransport = true → b.transportInstalled = true → ∀ matched,
        b.matched = some matched → .terminate matched.incarnation ∈ after) ∧
      ((((if report then b.reportFailure error else b).enterTerminal error).notifyEnd env
        notifyPeer).leavePath env terminateTransport).core =
        b.core.terminated error report before after := by
  generalize hb₀ : (if report then b.reportFailure error else b) = b₀
  have hreported : b₀.core = b.core.emitAll
      (if report ∧ !b.opened then [.operationFailed error] else []) := by
    rw [← hb₀]
    cases report with
    | false => simp
    | true =>
      unfold reportFailure
      cases hopened : b.opened with
      | false =>
        simp only [hopen]
        rfl
      | true => simp
  obtain ⟨before, hbefore, hentered⟩ := core_enterTerminal b₀ error
  obtain ⟨told, htold, hnotified⟩ := QuietAfter.notifyEnd (b₀.enterTerminal error) env notifyPeer
  obtain ⟨after, hafter, hterminate, hleft⟩ := core_leavePath
    ((b₀.enterTerminal error).notifyEnd env notifyPeer) env terminateTransport
  rw [hentered, hreported] at hnotified
  rw [hnotified] at hleft
  have hinstalled : ((b₀.enterTerminal error).notifyEnd env notifyPeer).transportInstalled =
      b.transportInstalled := congrArg StreamCore.transportInstalled hnotified
  have hmatched : ((b₀.enterTerminal error).notifyEnd env notifyPeer).matched = b.matched :=
    congrArg StreamCore.matched hnotified
  refine ⟨before, told ++ after, hbefore, fun effect heffect => ?_, fun hflag hon matched hmatch =>
    ?_, ?_⟩
  · rcases mem_append.mp heffect with heffect | heffect
    · exact htold effect heffect
    · exact hafter effect heffect
  · exact mem_append_right _ (hterminate hflag (hinstalled.trans hon) matched
      (hmatched.trans hmatch))
  · rw [hleft]
    simp [StreamCore.terminated, StreamCore.farewell, core]

/-- The end of a stream: unless it is terminal already, it becomes so, with or without a report
to the child. -/
theorem moves_end (notifyPeer terminateTransport report : Bool)
    (hclean : terminateTransport = false → scope.clean) :
    StreamMoves scope b.core
      ((if report then b.reportFailure error else b).beginTerminal env error notifyPeer
        terminateTransport).core := by
  by_cases hopen : b.terminal = none
  · have hsame : (if report then b.reportFailure error else b).terminal = none := by
      cases report with
      | false => exact hopen
      | true =>
        simp only [if_true]
        unfold reportFailure
        split <;> exact hopen
    obtain ⟨before, after, hbefore, hafter, hterminate, hcore⟩ :=
      core_ended b env error notifyPeer terminateTransport report hopen
    unfold beginTerminal
    rw [if_neg (by simp [hsame])]
    generalize ((((if report then b.reportFailure error else b).enterTerminal error).notifyEnd env
      notifyPeer).leavePath env terminateTransport) = last at hcore
    have hlast : StreamMoves scope b.core last.core := by
      rw [hcore]
      refine .single (.terminated error report before after hopen hbefore hafter
        fun hunclean => hterminate ?_)
      by_contra hflag
      exact hunclean (hclean (by simpa using hflag))
    have hterminal : last.terminal.isSome := by
      have h : last.terminal = some error := congrArg StreamCore.terminal hcore
      simp [h]
    dsimp only
    split
    · exact hlast
    · next hquiet =>
      split
      · exact hlast
      · refine hlast.trans (moves_releaseRing hterminal (.inl fun hmatched hon => ?_))
        by_contra hbusy
        exact hquiet ⟨hmatched, hon, by simpa using hbusy⟩
  · have hsome : b.terminal.isSome := Option.ne_none_iff_isSome.mp hopen
    have hsame : (if report then b.reportFailure error else b) = b := by
      cases report with
      | false => rfl
      | true =>
        simp only [if_true]
        unfold reportFailure
        rw [if_neg (by simp [hopen])]
    rw [hsame]
    unfold beginTerminal
    rw [if_pos hsome]

theorem turns_failOpen : Turns scope b.core b (b.failOpen env error) :=
  ⟨moves_end b env error true true true nofun,
    fun h => settled_beginTerminal (settled_reportFailure h error) env error true true⟩

theorem turns_displace : Turns scope b.core b (b.displace env) :=
  ⟨moves_end b env (.pathReplaced b.path) false true true nofun,
    fun h => settled_beginTerminal (settled_reportFailure h _) env _ false true⟩

theorem turns_applyPeerTermination (incarnation : StreamIncarnation) (error : StreamError)
    (replyTo : Option ActorAddress) :
    Turns scope b.core b (b.applyPeerTermination env incarnation error replyTo) := by
  have hend : StreamMoves scope b.core
      ((b.reportFailure error).beginTerminal env error false true).core :=
    moves_end b env error false true true nofun
  have hacked : QuietAfter ((b.reportFailure error).beginTerminal env error false true)
      (b.applyPeerTermination env incarnation error replyTo) :=
    .emitAll (by simp [quiet])
  exact ⟨hend.trans hacked.moves,
    fun h => settled_beginTerminal (settled_reportFailure h error) env error false true⟩

theorem frame_releaseRing :
    b.releaseRing.terminal = b.terminal ∧ b.releaseRing.matched = b.matched := by
  unfold releaseRing
  split
  · exact ⟨rfl, rfl⟩
  · dsimp only
    split <;> exact ⟨rfl, rfl⟩

theorem frame_beginTerminal (notifyPeer terminateTransport : Bool) :
    (b.beginTerminal env error notifyPeer terminateTransport).terminal.isSome ∧
      (b.beginTerminal env error notifyPeer terminateTransport).matched = b.matched := by
  by_cases hopen : b.terminal = none
  · obtain ⟨before, after, -, -, -, hcore⟩ :=
      core_ended b env error notifyPeer terminateTransport false hopen
    simp only [Bool.false_eq_true, if_false] at hcore
    unfold beginTerminal
    rw [if_neg (by simp [hopen])]
    generalize (((b.enterTerminal error).notifyEnd env notifyPeer).leavePath env
      terminateTransport) = last at hcore
    have hterminal : last.terminal = some error := congrArg StreamCore.terminal hcore
    have hmatched : last.matched = b.matched := congrArg StreamCore.matched hcore
    have hreleased := frame_releaseRing last
    dsimp only
    split_ifs
    · exact ⟨by simp [hterminal], hmatched⟩
    · exact ⟨by simp [hterminal], hmatched⟩
    · rw [hreleased.1, hreleased.2, hterminal]
      exact ⟨rfl, hmatched⟩
  · unfold beginTerminal
    rw [if_pos (Option.ne_none_iff_isSome.mp hopen)]
    exact ⟨Option.ne_none_iff_isSome.mp hopen, rfl⟩

theorem matched_reportFailure : (b.reportFailure error).matched = b.matched := by
  unfold reportFailure
  split <;> rfl

/-- A matched stream that is displaced becomes terminal, is fenced, and acknowledges. -/
theorem turns_fenceDisplacement {incarnation : StreamIncarnation} (replyTo : Option ActorAddress)
    (hacks : scope.acks) (hmatched : b.isMatchedAt incarnation = true) :
    Turns scope b.core b (b.fenceDisplacement env incarnation replyTo) := by
  have hframe : (b.displace env).terminal.isSome ∧ (b.displace env).matched = b.matched := by
    have h := frame_beginTerminal (b.reportFailure (.pathReplaced b.path)) env
      (.pathReplaced b.path) false true
    exact ⟨h.1, h.2.trans (matched_reportFailure b _)⟩
  refine (turns_displace b env).trans ?_
  unfold fenceDisplacement
  generalize b.displace env = c at hframe ⊢
  have hat : c.core.isMatchedAt incarnation = true := by
    show c.matched.any _ = true
    rw [hframe.2]
    exact hmatched
  set kept := (c.pendingDisplacements incarnation).getD []
  have hacked : StreamMove scope c.core (c.core.emitAll
      ((replyTo.elim kept kept.insert).map fun target => .streamDisplaced target incarnation)) :=
    .acknowledged incarnation _ hacks hframe.1 (.inl hat)
  exact ⟨(ReflTransGen.single hacked).tail (.fenced incarnation hframe.1 hat), id⟩

theorem turns_tryInstallTransport : Turns scope b.core b (b.tryInstallTransport env) := by
  unfold tryInstallTransport
  split
  · exact ⟨.refl, id⟩
  · next hfree =>
    rw [not_or, Bool.not_eq_true, Option.not_isSome_iff_eq_none] at hfree
    split
    · next ring matched hring hmatched =>
      split
      · exact turns_failOpen b env _
      · split
        · exact ⟨.refl, id⟩
        · split
          · exact turns_failOpen b env _
          · have hinstalled : Turns scope b.core b
                { b.emit (.install matched.incarnation) with transportInstalled := true } :=
              ⟨.single (.installed matched hfree.2 hmatched (by simp [core, hring]) hfree.1),
                fun _ => settled_of_open hfree.2⟩
            dsimp only
            split
            · exact hinstalled.trans (turns_sendPeerOffer _ env)
            · exact hinstalled
    · exact ⟨.refl, id⟩

theorem turns_openIfReady : Turns scope b.core b b.openIfReady := by
  unfold openIfReady
  split
  · exact ⟨.refl, id⟩
  · next hfree =>
    rw [not_or, not_or, Bool.not_eq_true, Option.not_isSome_iff_eq_none] at hfree
    split
    · next ring matched hring hmatched =>
      exact ⟨.single (.opened matched.incarnation ring hfree.2.2 hfree.1), id⟩
    · exact ⟨.refl, id⟩

theorem turns_acceptMatch (matched : StreamMatch) :
    Turns scope b.core b (b.acceptMatch env matched) := by
  refine .trans ?_ (turns_tryInstallTransport _ env)
  split
  · split
    · exact ⟨.single (.said [_] (by simp [quiet])), id⟩
    · exact ⟨.refl, id⟩
  · exact ⟨.refl, id⟩

theorem turns_namespaceMatched (matched : StreamMatch) (hacks : scope.acks)
    (hopen : b.terminal = none) : Turns scope b.core b (b.namespaceMatched env matched) := by
  unfold namespaceMatched
  split
  · exact turns_failOpen b env _
  · extract_lets incarnation termination b₁ terminated b₂ b₃
    have hterminated (b' : StreamBinding) : Turns scope b'.core b' (terminated b') := by
      simp only [terminated]
      cases termination with
      | none => exact ⟨.refl, id⟩
      | some kept => exact turns_applyPeerTermination b' env incarnation kept.1 kept.2
    split
    · have hmatch : Turns scope b.core b { b₁ with matched := some matched } :=
        ⟨.single (.matched matched hopen), id⟩
      refine (hmatch.trans ?_).trans (hterminated _)
      exact turns_fenceDisplacement _ env none hacks (by simp [isMatchedAt, incarnation])
    · have hcore : b₃.core = { b.core with matched := some matched } := by
        simp only [b₃, b₂]
        split <;> rfl
      have hmatch : Turns scope b.core b b₃ := by
        refine ⟨hcore ▸ .single (.matched matched hopen), fun _ => settled_of_open ?_⟩
        exact (congrArg StreamCore.terminal hcore).trans hopen
      split
      · exact hmatch.trans (hterminated b₃)
      · exact hmatch.trans (turns_acceptMatch b₃ env matched)

theorem turns_onStart (hopen : b.terminal = none) (hasks : scope.asks
      (.openStream b.role b.localDescriptor b.replace b.ensure b.expectedRevision)) :
    ∃ pending, Turns scope { b.core with ringAllocationPending := pending } b (b.onStart env) := by
  unfold onStart
  split
  · have hb : b.Settled → Settled { b with ringAllocationPending := false } :=
      fun _ => settled_of_open hopen
    exact ⟨false, (turns_failOpen _ env _).since hb⟩
  · refine ⟨b.ringAllocationPending, ?_⟩
    have hasked : Turns scope b.core b (b.emit .allocateStream) := ⟨(QuietAfter.emit rfl).moves, id⟩
    split
    · exact hasked.trans (turns_failOpen _ env _)
    · exact hasked.trans ⟨.single (.asked _ _ _ _ _ hasks), id⟩

theorem turns_onStop : Turns scope b.core b b.onStop := by
  refine ⟨.single (.said _ fun effect heffect => ?_), id⟩
  simp only [mem_append, mem_map] at heffect
  rcases heffect with ⟨actor, -, rfl⟩ | ⟨matched, -, rfl⟩ <;> rfl

end

end Moves

section Messages

variable (b : StreamBinding) (env : StreamServices)

/-- What a message changes before anything follows from it. -/
def receive : HostStreamIn → StreamBinding
  | .allocated result =>
      { b with
        ringAllocationPending := false
        ring := match result with
          | .ok ring => some ring
          | .error _ => b.ring }
  | .transport .quiesced => { b with transportQuiesced := true }
  | .transport .dataAvailable => b.handle env (.transport .dataAvailable)
  | .transport .capacityAvailable => b.handle env (.transport .capacityAvailable)
  | .waitData replyTo => b.handle env (.waitData replyTo)
  | .waitCapacity replyTo => b.handle env (.waitCapacity replyTo)
  | .close _ replyTo => { b with closeWaiters := b.closeWaiters ++ replyTo.toList }
  | .releaseComplete result => b.handle env (.releaseComplete result)
  | _ => b

/-- The scope of a message that is handled now. -/
def scope (m : HostStreamIn) : StreamScope where
  clean := ∃ replyTo, m = .close true replyTo
  late := ∃ result, m = .allocated result ∧
    (b.terminal.isSome ∨ ∃ error, result = .error error)
  acks := (∃ result, m = .namespaceMatched result ∧ b.terminal = none) ∨
    ∃ incarnation replyTo, m = .displaced incarnation replyTo ∧
      (b.isMatchedAt incarnation = true ∨ incarnation ∈ b.fencedDisplacements)
  asks _ := False

/-- The scope outside of messages. -/
abbrev idle : StreamScope := ⟨False, False, False, fun _ => False⟩

/-- The scope of the start. -/
abbrev starting : StreamScope :=
  ⟨False, False, False, fun effect => effect =
    .openStream b.role b.localDescriptor b.replace b.ensure b.expectedRevision⟩

/-- What a message comes to. -/
theorem turns_handle (m : HostStreamIn) (hfenced : ∀ g ∈ b.fencedDisplacements, b.terminal.isSome) :
    Turns (b.scope m) (b.receive env m).core b (b.handle env m) := by
  cases m with
  | namespaceMatched result =>
    simp only [handle, receive]
    split
    · exact ⟨.refl, id⟩
    · next hopen =>
      rw [Option.not_isSome_iff_eq_none] at hopen
      cases result with
      | ok matched =>
        have hacks : (b.scope (.namespaceMatched (.ok matched))).acks := .inl ⟨_, rfl, hopen⟩
        have hmatched := turns_namespaceMatched { b with namespaceOpen := none } env matched hacks
        exact (hmatched hopen).since id
      | error error => exact (turns_failOpen { b with namespaceOpen := none } env _).since id
  | allocated result =>
    cases result with
    | ok ring =>
      simp only [handle, receive]
      have htold : QuietAfter { b with ringAllocationPending := false, ring := some ring }
          (emitAll { b with ringAllocationPending := false, ring := some ring }
            (b.terminal.toList.map fun error =>
              .markPeerTerminated ring (ringPeerTermination error))) :=
        .emitAll (by simp [quiet])
      split
      · next hterminal =>
        exact ⟨htold.moves.trans (moves_releaseRing hterminal (.inr ⟨_, rfl, .inl hterminal⟩)),
          fun _ => settled_releaseRing _⟩
      · next hopen =>
        exact .trans ⟨htold.moves, fun _ => settled_of_open (by simpa using hopen)⟩
          (turns_tryInstallTransport _ env)
    | error error =>
      simp only [handle, receive]
      have hterminal : (failOpen { b with ringAllocationPending := false } env
          (.allocator error)).terminal.isSome := (frame_beginTerminal _ env _ true true).1
      rw [if_pos hterminal]
      exact ⟨(turns_failOpen { b with ringAllocationPending := false } env _).moves.trans
        (moves_releaseRing hterminal (.inr ⟨_, rfl, .inr ⟨error, rfl⟩⟩)),
        fun _ => settled_releaseRing _⟩
  | peerOffer incarnation descriptor =>
    simp only [handle, receive]
    split
    · exact ⟨.refl, id⟩
    · split
      · split <;> exact ⟨.refl, id⟩
      · next matched hmatched =>
        split
        · refine .trans ?_ (turns_tryInstallTransport _ env)
          exact ⟨.single (.said [_] (by simp [quiet])), id⟩
        · exact ⟨.refl, id⟩
  | peerOfferAck incarnation =>
    simp only [handle, receive]
    split <;> exact ⟨.refl, id⟩
  | peerOfferRetry incarnation =>
    simp only [handle, receive]
    split
    · exact (turns_sendPeerOffer { b with offerRetry := false } env).since id
    · exact ⟨.refl, id⟩
  | routeChanged incarnation =>
    simp only [handle, receive]
    split
    · have htold := (turns_sendPeerOffer b env).trans
        (@turns_sendPeerTermination (b.scope (.routeChanged incarnation)) _ env)
      refine htold.trans ⟨(QuietAfter.emitAll fun effect heffect => ?_).moves, id⟩
      obtain ⟨matched, -, heffect⟩ := mem_flatMap.mp heffect
      split at heffect
      · rw [mem_singleton.mp heffect]
        rfl
      · simp at heffect
    · exact ⟨.refl, id⟩
  | transport event =>
    cases event with
    | ready => exact (turns_openIfReady { b with transportReady := true }).since id
    | dataAvailable => exact ⟨.refl, id⟩
    | capacityAvailable => exact ⟨.refl, id⟩
    | fault reason => exact turns_failOpen b env _
    | quiesced =>
      simp only [handle, receive]
      split
      · next hterminal =>
        exact ⟨moves_releaseRing hterminal.1 (.inl fun _ _ => rfl), fun _ => settled_releaseRing _⟩
      · next hwaits =>
        refine ⟨.refl, fun _ hterminal _ _ hacked => ?_⟩
        have hacked : b.peerAckPending = false := hacked
        exact absurd ⟨hterminal, by simp [hacked]⟩ hwaits
  | dataAvailable | capacityAvailable =>
    exact ⟨(QuietAfter.emitAll (by simp [quiet])).moves, id⟩
  | waitData replyTo | waitCapacity replyTo =>
    refine ⟨.refl, fun h => ?_⟩
    simp only [handle]
    split <;> exact h
  | releaseComplete result =>
    refine ⟨.refl, fun h => ?_⟩
    simp only [handle]
    split
    · split <;> exact h
    · exact h
  | close clean replyTo =>
    have hb : b.Settled → Settled { b with closeWaiters := b.closeWaiters ++ replyTo.toList } := id
    cases clean with
    | true =>
      exact ⟨moves_end _ env .streamClosed false false false fun _ => ⟨_, rfl⟩,
        fun h => settled_beginTerminal (hb h) env _ false false⟩
    | false => exact (turns_failOpen _ env _).since hb
  | peerTerminated incarnation error replyTo =>
    simp only [handle, receive]
    split
    · exact turns_applyPeerTermination b env incarnation error replyTo
    · split <;> exact ⟨.refl, id⟩
  | displaced incarnation replyTo =>
    simp only [handle, receive]
    split
    · next hmatched =>
      exact turns_fenceDisplacement b env replyTo (.inr ⟨_, _, rfl, .inl hmatched⟩) hmatched
    · split
      · next hknown =>
        exact ⟨.single (.acknowledged incarnation replyTo.toList (.inr ⟨_, _, rfl, .inr hknown⟩)
          (hfenced _ hknown) (.inr hknown)), id⟩
      · split <;> exact ⟨.refl, id⟩
  | peerTerminationAck incarnation =>
    simp only [handle, receive]
    split
    · split
      · next hquiet =>
        refine ⟨moves_releaseRing (b := { b with
          peerAckPending := false
          terminationRetry := false }) hquiet.1 (.inl fun _ hon => ?_),
          fun _ => settled_releaseRing _⟩
        rcases hquiet.2 with hoff | hdone
        · rw [show b.transportInstalled = true from hon] at hoff
          cases hoff
        · exact hdone
      · next hwaits =>
        refine ⟨.refl, fun _ hterminal _ hcalm _ => absurd ⟨hterminal, ?_⟩ hwaits⟩
        have hcalm : b.transportInstalled = true → b.transportQuiesced = true := hcalm
        cases hon : b.transportInstalled with
        | false => simp
        | true => simp [hcalm hon]
    · exact ⟨.refl, id⟩
  | peerTerminationRetry incarnation =>
    simp only [handle, receive]
    split
    · exact (turns_sendPeerTermination { b with terminationRetry := false } env).since id
    · exact ⟨.refl, id⟩

/-- A whole step of a binding that has not stopped. -/
theorem turns_step (m : HostStreamIn) (hrunning : b.stopped = false)
    (hfenced : ∀ g ∈ b.fencedDisplacements, b.terminal.isSome) :
    Turns (b.scope m) (b.receive env m).core b (b.step (m, env)) := by
  have hturns := turns_handle b env m hfenced
  simp only [step, hrunning, Bool.false_eq_true, if_false]
  split
  · exact hturns.trans (turns_onStop _)
  · exact hturns

theorem turns_start (hopen : b.terminal = none) :
    ∃ pending, Turns b.starting { b.core with ringAllocationPending := pending } b
      (b.start env) := by
  have ⟨pending, hturns⟩ : ∃ pending, Turns b.starting
      { b.core with ringAllocationPending := pending } b (b.onStart env) :=
    turns_onStart b env hopen rfl
  refine ⟨pending, ?_⟩
  unfold start
  dsimp only
  split
  · exact hturns.trans (turns_onStop _)
  · exact hturns

end Messages

end StreamBinding

end Swactor.Host
