import Swactor.Swim.Dissemination
import Swactor.Swim.Probe

/-!
# The SWIM node

A node composes the member list, the probe cycle and the dissemination queue. Each
handler returns the actions the caller turns into messages and notifications. The
observer hook has no effect on the protocol and is left out.
-/
namespace Swactor.Swim
open Machine (andThen collect)

inductive NodeAction
  | sendPing (dest : NodeId) (sequence : ℕ) (piggyback : List MembershipUpdate)
  | sendPingReq (relay target : NodeId) (sequence : ℕ) (piggyback : List MembershipUpdate)
  | sendAck (dest : NodeId) (sequence : ℕ) (piggyback : List MembershipUpdate)
  | forwardAck (dest target : NodeId) (sequence : ℕ) (piggyback : List MembershipUpdate)
  | sendJoinResponse (dest : NodeId) (members : List NodeRecord)
  | membershipChanged (change : NodeRecord)
  deriving DecidableEq, Repr

/-- A ping request this node forwards: whom to answer, whom it pings, and the sequence. -/
structure PendingRelay where
  requester : NodeId
  target : NodeId
  sequence : ℕ
  deriving DecidableEq, Repr

/-- `GOSSIP_LAMBDA`. -/
def gossipLambda : ℕ := 3

/-- `MAX_PIGGYBACK`. -/
def maxPiggyback : ℕ := 6

structure SwimNode where
  members : MemberList
  probe : SwimProbe
  dissemination : DisseminationQueue
  maxPiggyback : ℕ
  pendingRelays : List PendingRelay
  clock : ℕ

namespace SwimNode

def new (selfId : NodeId) (config : SwimConfig) (now : ℕ) : SwimNode where
  members := .new selfId
  probe := .new config now
  dissemination := .new gossipLambda
  maxPiggyback := Swim.maxPiggyback
  pendingRelays := []
  clock := now

section

variable (n : SwimNode)

/-- The number of non-dead members and the node itself. -/
def clusterSize : ℕ := n.members.aliveCount + 1

def enqueue (n : SwimNode) (update : MembershipUpdate) : SwimNode :=
  { n with dissemination := n.dissemination.enqueue update n.clusterSize }

/-- Send a message with the next updates of the queue on it. -/
def piggybacked (message : List MembershipUpdate → NodeAction) : SwimNode × List NodeAction :=
  let packed := n.dissemination.take n.maxPiggyback
  ({ n with dissemination := packed.1 }, [message packed.2])

/-- Forget a dead member, so that a record of the same incarnation can establish it again. -/
def clearDeadMember (id : NodeId) : SwimNode :=
  if (n.members.get id).any fun e => e.state = .dead then
    { n with
      members := n.members.remove id
      dissemination := n.dissemination.purgeNode id }
  else n

/-- Gossip about this node is refuted if it is an accusation at the current incarnation or
above. Gossip about others is merged, passed on and reported. -/
def applyMembershipUpdate (update : MembershipUpdate) : SwimNode × List NodeAction :=
  if update.nodeId = n.members.selfId then
    if (update.state = .suspect ∨ update.state = .dead) ∧
        update.incarnation ≥ n.members.selfIncarnation then
      let n := { n with members := n.members.refute }
      (n.enqueue ⟨n.members.selfId, .alive, n.members.selfIncarnation⟩, [])
    else (n, [])
  else
    let applied := n.members.apply update.nodeId update.state update.incarnation
    if applied.2 then
      let probe := if update.state = .alive then n.probe.enqueueDemandProbe update.nodeId
        else n.probe
      ({ n with members := applied.1, probe := probe }.enqueue update,
        [.membershipChanged update])
    else (n, [])

def applyPiggyback (updates : List MembershipUpdate) : SwimNode × List NodeAction :=
  collect applyMembershipUpdate n updates

/-- Before a suspect or dead target is pinged its state is queued, so that it learns of the
accusation. -/
def enqueueAccusation (dest : NodeId) : SwimNode :=
  match n.members.get dest with
  | some entry =>
      if entry.state = .dead ∨ entry.state = .suspect then n.enqueue (entry.toRecord dest) else n
  | none => n

/-- Carry out one action of the probe machine. -/
def translateProbeAction : SwimAction → SwimNode × List NodeAction
  | .sendPing dest sequence => (n.enqueueAccusation dest).piggybacked (.sendPing dest sequence)
  | .sendPingReq relay target sequence => n.piggybacked (.sendPingReq relay target sequence)
  | .suspect id =>
      let suspected := n.members.suspect id
      if suspected.2 then
        let n := { n with members := suspected.1 }
        match n.members.get id with
        | some entry =>
            (n.enqueue ⟨id, .suspect, entry.incarnation⟩,
              [.membershipChanged ⟨id, .suspect, entry.incarnation⟩])
        | none => (n, [.membershipChanged ⟨id, .suspect, 0⟩])
      else (n, [])
  | .declareDead id =>
      match n.members.get id with
      | some entry =>
          (n.enqueue ⟨id, .dead, entry.incarnation⟩,
            [.membershipChanged ⟨id, .dead, entry.incarnation⟩])
      | none => (n, [])
  | .diag _ => (n, [])

def translateProbeActions (actions : List SwimAction) : SwimNode × List NodeAction :=
  collect translateProbeAction n actions

/-- Step the probe machine and carry out its actions. -/
def stepProbe (event : SwimEvent) : SwimNode × List NodeAction :=
  let stepped := n.probe.step n.clock event n.members
  { n with probe := stepped.1.1, members := stepped.1.2 }.translateProbeActions stepped.2

def tick (n : SwimNode) (now : ℕ) : SwimNode × List NodeAction :=
  { n with clock := now }.stepProbe .tick

/-- Enter the sender of a ping at incarnation zero if it is unknown. -/
def learnSender (sender : NodeId) : SwimNode × List NodeAction :=
  let applied := n.members.apply sender .alive 0
  if applied.2 then
    ({ n with members := applied.1 }, [.membershipChanged ⟨sender, .alive, 0⟩])
  else (n, [])

def handlePing (sender : NodeId) (sequence : ℕ) (piggyback : List MembershipUpdate) :
    SwimNode × List NodeAction :=
  andThen (andThen (n.applyPiggyback piggyback) fun n => n.learnSender sender) fun n =>
    n.piggybacked (.sendAck sender sequence)

/-- Forward an ack that answers a relayed ping to the node that asked for it. -/
def completeRelay (sender : NodeId) (sequence : ℕ) : SwimNode × List NodeAction :=
  let isAnswered (r : PendingRelay) : Bool := r.target = sender ∧ r.sequence = sequence
  match n.pendingRelays.find? isAnswered with
  | some r =>
      { n with pendingRelays := n.pendingRelays.eraseP isAnswered }.piggybacked
        (.forwardAck r.requester r.target r.sequence)
  | none => (n, [])

def handleAck (sender : NodeId) (sequence : ℕ) (piggyback : List MembershipUpdate) :
    SwimNode × List NodeAction :=
  andThen (andThen (n.applyPiggyback piggyback) fun n =>
    n.stepProbe (.ackReceived sender sequence)) fun n => n.completeRelay sender sequence

/-- Remember whom a relayed ping is for; at most 16 are kept. -/
def addRelay (relay : PendingRelay) : SwimNode :=
  let kept := if n.pendingRelays.length ≥ 16 then n.pendingRelays.tail else n.pendingRelays
  { n with pendingRelays := kept ++ [relay] }

def handlePingReq (sender target : NodeId) (sequence : ℕ) (piggyback : List MembershipUpdate) :
    SwimNode × List NodeAction :=
  andThen (n.applyPiggyback piggyback) fun n =>
    (n.addRelay ⟨sender, target, sequence⟩).piggybacked (.sendPing target sequence)

def reportSendFailure (target : NodeId) : SwimNode × List NodeAction :=
  n.stepProbe (.sendFailed target)

def handleIndirectAck (target : NodeId) (sequence : ℕ) (piggyback : List MembershipUpdate) :
    SwimNode × List NodeAction :=
  andThen (n.applyPiggyback piggyback) fun n =>
    n.stepProbe (.indirectAckReceived target sequence)

/-- Enter a joining node at incarnation zero if it is unknown, and gossip it. -/
def enterJoiner (sender : NodeId) : SwimNode × List NodeAction :=
  let applied := n.members.apply sender .alive 0
  if applied.2 then
    ({ n with members := applied.1 }.enqueue ⟨sender, .alive, 0⟩,
      [.membershipChanged ⟨sender, .alive, 0⟩])
  else (n, [])

/-- This node's own record in a join response. -/
def selfRecord : NodeRecord :=
  ⟨n.members.selfId, .alive, n.members.selfIncarnation⟩

def handleJoinRequest (sender : NodeId) : SwimNode × List NodeAction :=
  andThen (n.enterJoiner sender) fun n =>
    (n, [.sendJoinResponse sender (n.members.snapshot ++ [n.selfRecord])])

/-- An alive record of a join response clears a dead entry, whatever its incarnation. -/
def makeRoom (record : NodeRecord) : SwimNode :=
  if record.state = .alive then n.clearDeadMember record.nodeId else n

/-- One record of a join response. -/
def applyJoinRecord (record : NodeRecord) : SwimNode × List NodeAction :=
  let n := n.makeRoom record
  let applied := n.members.apply record.nodeId record.state record.incarnation
  if applied.2 then
    let probe := if record.state = .alive ∧ record.nodeId ≠ n.members.selfId then
        n.probe.enqueueDemandProbe record.nodeId
      else n.probe
    ({ n with members := applied.1, probe := probe }, [.membershipChanged record])
  else (n, [])

def handleJoinResponse (members : List NodeRecord) : SwimNode × List NodeAction :=
  collect applyJoinRecord n members

/-- Gossip this node as dead at its current incarnation. -/
def leave : SwimNode × List NodeAction :=
  (n.enqueue ⟨n.members.selfId, .dead, n.members.selfIncarnation⟩, [])

/-- The calls a node takes, with arbitrary contents. -/
inductive Call
  | tick (now : ℕ)
  | ping (sender : NodeId) (sequence : ℕ) (piggyback : List MembershipUpdate)
  | ack (sender : NodeId) (sequence : ℕ) (piggyback : List MembershipUpdate)
  | pingReq (sender target : NodeId) (sequence : ℕ) (piggyback : List MembershipUpdate)
  | indirectAck (target : NodeId) (sequence : ℕ) (piggyback : List MembershipUpdate)
  | joinRequest (sender : NodeId)
  | joinResponse (members : List NodeRecord)
  | sendFailure (target : NodeId)
  | leave
  deriving DecidableEq, Repr

def call : Call → SwimNode × List NodeAction
  | .tick now => n.tick now
  | .ping sender sequence piggyback => n.handlePing sender sequence piggyback
  | .ack sender sequence piggyback => n.handleAck sender sequence piggyback
  | .pingReq sender target sequence piggyback =>
      n.handlePingReq sender target sequence piggyback
  | .indirectAck target sequence piggyback => n.handleIndirectAck target sequence piggyback
  | .joinRequest sender => n.handleJoinRequest sender
  | .joinResponse members => n.handleJoinResponse members
  | .sendFailure target => n.reportSendFailure target
  | .leave => n.leave

end

variable (n : SwimNode)

/-- What gossip can do: nothing, refute an accusation of this node, or replace the entry of
another node that it beats. -/
theorem applyMembershipUpdate_cases (u : MembershipUpdate) :
    n.applyMembershipUpdate u = (n, []) ∨
      (u.nodeId = n.members.selfId ∧ (u.state = .suspect ∨ u.state = .dead) ∧
        u.incarnation ≥ n.members.selfIncarnation ∧
        n.applyMembershipUpdate u = ({ n with members := n.members.refute }.enqueue
          ⟨n.members.selfId, .alive, n.members.selfIncarnation + 1⟩, [])) ∨
      ∃ hne : u.nodeId ≠ n.members.selfId, (∀ e ∈ n.members.get u.nodeId, u.entry.Beats e) ∧
        n.applyMembershipUpdate u =
          ({ n with
              members := n.members.put u.nodeId u.entry hne
              probe := if u.state = MemberState.alive then n.probe.enqueueDemandProbe u.nodeId
                else n.probe }.enqueue u, [.membershipChanged u]) := by
  by_cases hself : u.nodeId = n.members.selfId
  · by_cases hgate : (u.state = .suspect ∨ u.state = .dead) ∧
        u.incarnation ≥ n.members.selfIncarnation
    · refine Or.inr (Or.inl ⟨hself, hgate.1, hgate.2, ?_⟩)
      unfold applyMembershipUpdate
      rw [if_pos hself, if_pos hgate]
      rfl
    · refine Or.inl ?_
      unfold applyMembershipUpdate
      rw [if_pos hself, if_neg hgate]
  · unfold applyMembershipUpdate
    rw [if_neg hself]
    obtain happ | ⟨hne, hb, happ⟩ := n.members.apply_cases u
    · exact Or.inl (by simp [happ])
    · exact Or.inr (Or.inr ⟨hne, hb, by simp only [happ, if_true]⟩)

/-- A request of the probe machine to suspect a member has an effect if the member is alive. -/
theorem translate_suspect_cases (id : NodeId) :
    n.translateProbeAction (.suspect id) = (n, []) ∨
      ∃ i, ∃ hg : n.members.get id = some ⟨.alive, i⟩,
        n.translateProbeAction (.suspect id) =
          ({ n with members := n.members.put id ⟨.suspect, i⟩ (n.members.ne_self_of_get hg)
              }.enqueue ⟨id, .suspect, i⟩, [.membershipChanged ⟨id, .suspect, i⟩]) := by
  unfold translateProbeAction
  obtain ⟨hs, -⟩ | ⟨i, hg, hs⟩ := n.members.suspect_cases id
  · exact Or.inl (by simp [hs])
  · exact Or.inr ⟨i, hg, by simp only [hs, if_true, MemberList.get_put]⟩

/-- What a join record can do once room has been made for it. -/
theorem applyJoinRecord_cases (r : NodeRecord) :
    (n.applyJoinRecord r = (n.makeRoom r, []) ∧
        (n.makeRoom r).members.apply r.nodeId r.state r.incarnation =
          ((n.makeRoom r).members, false)) ∨
      ∃ hne : r.nodeId ≠ (n.makeRoom r).members.selfId,
        (∀ e ∈ (n.makeRoom r).members.get r.nodeId, r.entry.Beats e) ∧
        n.applyJoinRecord r =
          ({ n.makeRoom r with
              members := (n.makeRoom r).members.put r.nodeId r.entry hne
              probe := if r.state = MemberState.alive ∧
                    r.nodeId ≠ (n.makeRoom r).members.selfId then
                  (n.makeRoom r).probe.enqueueDemandProbe r.nodeId
                else (n.makeRoom r).probe }, [.membershipChanged r]) := by
  unfold applyJoinRecord
  obtain happ | ⟨hne, hb, happ⟩ := (n.makeRoom r).members.apply_cases r
  · exact Or.inl ⟨by simp only [happ, Bool.false_eq_true, if_false], happ⟩
  · exact Or.inr ⟨hne, hb, by simp only [happ, if_true]⟩

/-- What entering a node at incarnation zero can do: nothing, or store it in place of an entry that
it beats; only a joining node is gossiped. -/
inductive Enters (n : SwimNode) (id : NodeId) : SwimNode × List NodeAction → Prop
  | known : Enters n id (n, [])
  | entered {n' : SwimNode} (hne : id ≠ n.members.selfId)
      (hb : ∀ e ∈ n.members.get id, MemberEntry.Beats ⟨.alive, 0⟩ e)
      (hn' : n' = { n with members := n.members.put id ⟨.alive, 0⟩ hne } ∨
        n' = { n with members := n.members.put id ⟨.alive, 0⟩ hne }.enqueue ⟨id, .alive, 0⟩) :
      Enters n id (n', [.membershipChanged ⟨id, .alive, 0⟩])

theorem learnSender_enters (sender : NodeId) : Enters n sender (n.learnSender sender) := by
  unfold learnSender
  obtain happ | ⟨hne, hb, happ⟩ := n.members.apply_cases ⟨sender, .alive, 0⟩
  · simp only [happ, Bool.false_eq_true, if_false]
    exact .known
  · simp only [happ, if_true]
    exact .entered hne hb (.inl rfl)

theorem enterJoiner_enters (sender : NodeId) : Enters n sender (n.enterJoiner sender) := by
  unfold enterJoiner
  obtain happ | ⟨hne, hb, happ⟩ := n.members.apply_cases ⟨sender, .alive, 0⟩
  · simp only [happ, Bool.false_eq_true, if_false]
    exact .known
  · simp only [happ, if_true]
    exact .entered hne hb (.inr rfl)

/-- A dead member is cleared to an absent one; everything else stays. -/
theorem clearDeadMember_cases (id : NodeId) :
    (n.clearDeadMember id = n ∧ ∀ i, n.members.get id ≠ some ⟨.dead, i⟩) ∨
      ∃ i, n.members.get id = some ⟨.dead, i⟩ ∧
        n.clearDeadMember id =
          { n with
            members := n.members.remove id
            dissemination := n.dissemination.purgeNode id } := by
  by_cases h : ((n.members.get id).any fun e => e.state = .dead) = true
  · obtain ⟨i, hi⟩ := n.members.any_state_iff.mp h
    exact Or.inr ⟨i, hi, if_pos h⟩
  · exact Or.inl ⟨if_neg h, fun i hi => h (n.members.any_state_iff.mpr ⟨i, hi⟩)⟩

end SwimNode
end Swactor.Swim
