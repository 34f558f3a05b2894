import Swactor.DataPlane.EdgeTeardown

/-!
# Edges, their executor and the arena

The edge runtime executes the commands of the establisher against the arena, the worker and the
transport, and feeds the results back as events. One poll drives the commands until nothing is
left to do, takes the events of the transport, and drives again. A poll that fails stops where
it is; the next poll goes on from there.

The executor never reports that quiescence is proven, so an edge that faults keeps its ring for
ever. Provisioning an edge a second time replaces its record, and with it the only trace of its
lease. As long as neither happens, every live lease belongs to a record.

Payloads are left out: the bytes of the streams, the objects and their handles, the addresses
of peers, and the observations. Whether an effect outside of the runtime succeeds is an input.
-/
namespace Swactor.DataPlane.Edge

open Machine
open Std (ExtTreeMap)

structure InboundEdge where
  edgeId : ℕ
  ringId : Option ℕ := none
deriving DecidableEq, Repr

/-- `writer` says whether the byte writer is open. -/
structure OutboundEdge where
  edgeId : ℕ
  ringId : Option ℕ := none
  writer : Bool := false
deriving DecidableEq, Repr

structure EdgeRuntime where
  establisher : EdgeEstablisher
  commandCursor : ℕ := 0
  lifecycleCursor : ℕ := 0
  sendRings : ExtTreeMap ℕ ℕ compare := ∅
  recvSpecs : ExtTreeMap ℕ ℕ compare := ∅
  pendingStreams : ExtTreeMap ℕ ℕ compare := ∅
  recvRings : ExtTreeMap ℕ ℕ compare := ∅
  inbound : Option InboundEdge := none
  outbound : Option OutboundEdge := none

/-- Why a command fails. `effect` is an error of the worker or of the transport. -/
inductive CommandError
  | ringLeaseMissing (ringId : ℕ)
  | edgeRingMissing (edgeId : ℕ)
  | outboundEdgeMissing
  | effect
deriving DecidableEq, Repr

namespace EdgeRuntime

def new (localNodeId : ℕ) : EdgeRuntime := { establisher := .new localNodeId }

def observe (rt : EdgeRuntime) (event : EdgeEvent) : EdgeRuntime :=
  { rt with establisher := rt.establisher.observe event }

variable (rt : EdgeRuntime) (edgeId : ℕ)

def establishInbound (provision : ProvisionRx) : EdgeRuntime :=
  { rt with inbound := some { edgeId := provision.edgeId } }.observe (.provisionRx provision)

def establishOutbound (provision : ProvisionTx) : EdgeRuntime :=
  { rt with outbound := some { edgeId := provision.edgeId } }.observe (.provisionTx provision)

def edgeRing : Except CommandError ℕ :=
  match rt.establisher.records[edgeId]?.bind EdgeRecord.ringId with
  | some ringId => .ok ringId
  | none => .error (.edgeRingMissing edgeId)

def establishSendWire (ringId : ℕ) : EdgeRuntime :=
  { rt with sendRings := rt.sendRings.insert edgeId ringId }.observe (.driverEdgeReady edgeId)

def spawnRecv (streamId : ℕ) : EdgeRuntime :=
  match rt.recvSpecs[edgeId]? with
  | none => { rt with pendingStreams := rt.pendingStreams.insert edgeId streamId }
  | some ringId =>
      { rt with recvRings := rt.recvRings.insert edgeId ringId }.observe (.driverEdgeReady edgeId)

def establishRecvWire (ringId : ℕ) : EdgeRuntime :=
  let rt := { rt with recvSpecs := rt.recvSpecs.insert edgeId ringId }
  match rt.pendingStreams[edgeId]? with
  | none => rt
  | some streamId =>
      { rt with pendingStreams := rt.pendingStreams.erase edgeId }.spawnRecv edgeId streamId

def incomingStream (streamId : ℕ) : EdgeRuntime :=
  if edgeId ∈ rt.recvSpecs then rt.spawnRecv edgeId streamId
  else { rt with pendingStreams := rt.pendingStreams.insert edgeId streamId }

def readError (rt : EdgeRuntime) (edgeId : ℕ) : EdgeRuntime :=
  rt.observe (.streamFault edgeId .readError)

/-- The pump of an edge that has none is said to have stopped with ring 0. -/
def stopWire : EdgeRuntime :=
  let ringId :=
    ((rt.sendRings[edgeId]? <|> rt.recvRings[edgeId]?) <|> rt.recvSpecs[edgeId]?).getD 0
  { rt with
    sendRings := rt.sendRings.erase edgeId
    recvRings := rt.recvRings.erase edgeId
    recvSpecs := rt.recvSpecs.erase edgeId
    pendingStreams := rt.pendingStreams.erase edgeId }.observe (.pumpStopped edgeId ringId)

end EdgeRuntime

/-- The rejections of the arena in the words of the establisher. -/
def leaseRejection : DataPlane.RingLeaseRejection → RingLeaseRejection
  | .cannotFitWithinCeiling => .cannotFit
  | .arenaShuttingDown => .arenaShuttingDown

namespace EdgeRuntime

/-- What the answer of the arena to a lease request tells the establisher. -/
def observeArena (rt : EdgeRuntime) : ArenaEvent → EdgeRuntime
  | .ringLeased lease => rt.observe (.ringLeased lease.requestId lease.ringId lease.layout)
  | .ringLeaseRejected requestId reason =>
      rt.observe (.ringLeaseRejected requestId (leaseRejection reason))
  | .ringLeaseQueued _ | .ringReleased .. | .ringReleaseRejected .. |
    .cancelledFreshLeaseReleased _ => rt

def installRing (rt : EdgeRuntime) (edgeId ringId : ℕ) : RingDirection → EdgeRuntime
  | .ingress =>
      { rt with
        inbound := rt.inbound.map fun edge =>
          if edge.edgeId = edgeId then { edge with ringId := some ringId } else edge }
  | .egress =>
      { rt with
        outbound := rt.outbound.map fun edge =>
          if edge.edgeId = edgeId then { edge with ringId := some ringId } else edge }

/-- `answer` says whether the worker or the transport does what it is asked. What the arena
answers to a cancellation or a release is dropped. -/
def executeCommand (rt : EdgeRuntime) (arena : ArenaManager) (answer : Bool) :
    EdgeCommand → Except CommandError (EdgeRuntime × ArenaManager)
  | .leaseRing requestId _ _ ringSpec =>
      let (arena, events) := arena.request (.leaseRing ⟨requestId, ringSpec⟩)
      .ok (events.foldl observeArena rt, arena)
  | .installWorkerRing edgeId ringId direction _ _ _ =>
      if (arena.lookupLease ringId).isNone then .error (.ringLeaseMissing ringId)
      else if !answer then .error .effect
      else .ok ((rt.installRing edgeId ringId direction).observe (.ringInstalled edgeId ringId),
        arena)
  | .establishSend edgeId _ _ => do
      let ringId ← rt.edgeRing edgeId
      if rt.outbound.all fun edge => edge.edgeId ≠ edgeId then .error .outboundEdgeMissing
      else if !answer then .error .effect
      else
        let outbound := rt.outbound.map fun edge => { edge with writer := true }
        .ok ({ rt with outbound := outbound }.establishSendWire edgeId ringId, arena)
  | .establishRecv edgeId _ => do
      let ringId ← rt.edgeRing edgeId
      .ok (rt.establishRecvWire edgeId ringId, arena)
  | .cancelQueuedLease requestId _ => .ok (rt, (arena.request (.cancelLease requestId)).1)
  | .stopPump edgeId _ => .ok (rt.stopWire edgeId, arena)
  | .uninstallWorkerRing _ ringId =>
      if !answer then .error .effect else .ok (rt.observe (.ringQuiesced ringId), arena)
  | .releaseArenaLease ringId proof => .ok (rt, (arena.request (.releaseRing ringId proof)).1)

end EdgeRuntime

/-- Where in a poll the runtime is. -/
inductive Phase
  | idle
  | firstDrive
  | wireEvents
  | lastDrive
deriving DecidableEq, Repr

def Phase.next : Phase → Phase
  | .idle => .idle
  | .firstDrive => .wireEvents
  | .wireEvents => .lastDrive
  | .lastDrive => .idle

/-- The runtime with its arena. -/
structure EdgeNode where
  runtime : EdgeRuntime
  arena : ArenaManager
  phase : Phase := .idle

/-- What is done to the runtime and what its surroundings answer. -/
inductive EdgeAction
  | establishInbound (provision : ProvisionRx)
  | establishOutbound (provision : ProvisionTx)
  | poll
  | drive (answer : Bool)
  | streamArrived (edgeId streamId : ℕ)
  | bytesRead (parsed : Bool)
  | streamFault (edgeId : Option ℕ)
  | eventsDrained
deriving DecidableEq, Repr

namespace EdgeNode

section

variable (node : EdgeNode) (lease : RingLease)

/-- One turn of the drive loop: the next command, or with no command left the next event, or
with neither the end of the loop. A command that fails and the fault of an edge end the poll. -/
def drive (answer : Bool) : EdgeNode :=
  let rt := node.runtime
  match rt.establisher.commands[rt.commandCursor]? with
  | some command =>
      let rt := { rt with commandCursor := rt.commandCursor + 1 }
      match rt.executeCommand node.arena answer command with
      | .ok (rt, arena) => { node with runtime := rt, arena := arena }
      | .error _ => { node with runtime := rt, phase := .idle }
  | none =>
      match rt.establisher.events[rt.lifecycleCursor]? with
      | some event =>
          let rt := { rt with lifecycleCursor := rt.lifecycleCursor + 1 }
          match event with
          | .edgeFaulted .. => { node with runtime := rt, phase := .idle }
          | .edgeReady .. | .edgeStopped _ => { node with runtime := rt }
      | none => { node with phase := node.phase.next }

/-- Edges are provisioned between polls. An action that the phase does not allow does
nothing. -/
def step (action : EdgeAction) : EdgeNode :=
  match node.phase, action with
  | .idle, .establishInbound provision =>
      { node with runtime := node.runtime.establishInbound provision }
  | .idle, .establishOutbound provision =>
      { node with runtime := node.runtime.establishOutbound provision }
  | .idle, .poll => { node with phase := .firstDrive }
  | .firstDrive, .drive answer | .lastDrive, .drive answer => node.drive answer
  | .wireEvents, .streamArrived edgeId streamId =>
      { node with runtime := node.runtime.incomingStream edgeId streamId }
  | .wireEvents, .bytesRead parsed => if parsed then node else { node with phase := .idle }
  | .wireEvents, .streamFault (some edgeId) =>
      { node with runtime := node.runtime.readError edgeId }
  | .wireEvents, .eventsDrained => { node with phase := node.phase.next }
  | _, _ => node

/-- A runtime and its arena at the start. -/
def new (localNodeId : ℕ) (arena : ArenaManager) : EdgeNode :=
  { runtime := .new localNodeId, arena := arena }

/-- The commands that are still to be executed. -/
def due : List EdgeCommand :=
  node.runtime.establisher.commands.drop node.runtime.commandCursor

/-- An edge record that has not stopped has the ring of the lease. -/
def Owned : Prop :=
  ∃ (edgeId : ℕ) (record : EdgeRecord),
    node.runtime.establisher.records[edgeId]? = some record ∧
      record.ringId = some lease.ringId ∧ record.state ≠ .stopped

instance Owned.decidable (node : EdgeNode) (lease : RingLease) : Decidable (node.Owned lease) :=
  decidable_of_iff
    (∃ entry ∈ node.runtime.establisher.records.toList,
      entry.2.ringId = some lease.ringId ∧ entry.2.state ≠ .stopped) (by
        simp only [Owned, Prod.exists, ExtTreeMap.mem_toList_iff_getElem?_eq_some])

/-- The release of the lease is still to be executed. -/
def ReleaseDue : Prop :=
  ∃ command ∈ node.due, command.releases lease.ringId = true

instance ReleaseDue.decidable (node : EdgeNode) (lease : RingLease) :
    Decidable (node.ReleaseDue lease) :=
  inferInstanceAs (Decidable (∃ command ∈ node.due, command.releases lease.ringId = true))

/-- Between polls, with no command to execute and no event to report. -/
def Quiet : Prop :=
  node.phase = .idle ∧ node.due = [] ∧
    node.runtime.lifecycleCursor = node.runtime.establisher.events.length

end

instance Quiet.decidable (node : EdgeNode) : Decidable node.Quiet :=
  inferInstanceAs (Decidable (_ ∧ _ ∧ _))

end EdgeNode

end Swactor.DataPlane.Edge
