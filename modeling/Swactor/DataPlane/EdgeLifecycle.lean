import Swactor.DataPlane.Arena

/-!
# The lifecycle of edges

An edge is a one-way connection with a ring at its local end. The establisher keeps one record
for each edge and turns events into commands: a provisioned edge asks for a ring, has it
installed in the worker, has the driver establish the transport, and is ready. An edge that is
stopped or faults asks for its pump to be stopped and its ring to be uninstalled, and gives the
ring back when the proofs of both, and the proof of quiescence, have arrived.

The layouts and ring specs of this component have the fields of those of the arena and are
taken from there. The execution id and the address of the remote actor, which nothing reads,
are left out. A record is looked up by request or ring in the order of the edge ids.
-/
namespace Swactor.DataPlane.Edge

open Machine
open Std (ExtTreeMap)

inductive RingDirection
  | egress
  | ingress
deriving DecidableEq, Repr

inductive ObjectKind
  | activation
deriving DecidableEq, Repr

inductive DType
  | f16
deriving DecidableEq, Repr

structure ObjectSpec where
  kind : ObjectKind
  dtype : DType
  maxExtentBytes : ℕ
deriving DecidableEq, Repr

structure ProvisionTx where
  edgeId : ℕ
  localNodeId : ℕ
  consumerNodeId : ℕ
  objectSpec : ObjectSpec
  ringSpec : RingSpec
deriving DecidableEq, Repr

structure ProvisionRx where
  edgeId : ℕ
  localNodeId : ℕ
  objectSpec : ObjectSpec
  ringSpec : RingSpec
deriving DecidableEq, Repr

inductive RingLeaseRejection
  | cannotFit
  | arenaShuttingDown
deriving DecidableEq, Repr

inductive StreamFaultReason
  | readError
  | writeError
  | protocolError
deriving DecidableEq, Repr

inductive RingFaultReason
  | workerRejectedRing
  | workerCrashed
deriving DecidableEq, Repr

inductive EdgeEvent
  | provisionTx (provision : ProvisionTx)
  | provisionRx (provision : ProvisionRx)
  | ringLeased (requestId ringId : ℕ) (layout : RingLayout)
  | ringLeaseRejected (requestId : ℕ) (reason : RingLeaseRejection)
  | ringInstalled (edgeId ringId : ℕ)
  | driverEdgeReady (edgeId : ℕ)
  | streamFault (edgeId : ℕ) (reason : StreamFaultReason)
  | ringFault (edgeId ringId : ℕ) (reason : RingFaultReason)
  | stopEdge (edgeId : ℕ)
  | pumpStopped (edgeId ringId : ℕ)
  | ringQuiesced (ringId : ℕ)
  | quiescenceProven (ringId : ℕ)
  | stopped (edgeId : ℕ)
deriving DecidableEq, Repr

/-- `proof` is the `verified` flag of the quiescence proof. -/
inductive EdgeCommand
  | leaseRing (requestId edgeId : ℕ) (direction : RingDirection) (ringSpec : RingSpec)
  | cancelQueuedLease (requestId edgeId : ℕ)
  | installWorkerRing (edgeId ringId : ℕ) (direction : RingDirection) (layout : RingLayout)
      (objectSpec : ObjectSpec) (ringSpec : RingSpec)
  | uninstallWorkerRing (edgeId ringId : ℕ)
  | establishSend (edgeId consumerNodeId : ℕ) (layout : RingLayout)
  | establishRecv (edgeId : ℕ) (layout : RingLayout)
  | stopPump (edgeId ringId : ℕ)
  | releaseArenaLease (ringId : ℕ) (proof : Bool)
deriving DecidableEq, Repr

inductive EdgeFaultReason
  | ringLeaseRejected (reason : RingLeaseRejection)
  | ringFault (reason : RingFaultReason)
  | streamFault (reason : StreamFaultReason)
deriving DecidableEq, Repr

inductive EdgeLifecycleEvent
  | edgeReady (edgeId localEdgeActor : ℕ)
  | edgeFaulted (edgeId : ℕ) (reason : EdgeFaultReason)
  | edgeStopped (edgeId : ℕ)
deriving DecidableEq, Repr

inductive EdgeProvisionState
  | waitingForLease
  | waitingForWorkerRing
  | waitingForDriver
  | ready
  | stopping
  | stopped
  | failed
deriving DecidableEq, Repr

structure EdgeRecord where
  direction : RingDirection
  state : EdgeProvisionState := .waitingForLease
  leaseRequestId : Option ℕ
  ringId : Option ℕ := none
  layout : Option RingLayout := none
  peerNodeId : Option ℕ
  localEdgeActor : ℕ
  objectSpec : ObjectSpec
  ringSpec : RingSpec
  workerRingRequested : Bool := false
  workerInstalled : Bool := false
  driverEstablished : Bool := false
  pumpStopped : Bool := false
  workerRingQuiesced : Bool := false
  quiescenceProven : Bool := false
deriving DecidableEq, Repr

namespace EdgeRecord

def newTx (provision : ProvisionTx) (requestId actor : ℕ) : EdgeRecord where
  direction := .egress
  leaseRequestId := some requestId
  peerNodeId := some provision.consumerNodeId
  localEdgeActor := actor
  objectSpec := provision.objectSpec
  ringSpec := provision.ringSpec

def newRx (provision : ProvisionRx) (requestId actor : ℕ) : EdgeRecord where
  direction := .ingress
  leaseRequestId := some requestId
  peerNodeId := none
  localEdgeActor := actor
  objectSpec := provision.objectSpec
  ringSpec := provision.ringSpec

def workerRingCleanupRequired (record : EdgeRecord) : Bool :=
  record.workerRingRequested || record.workerInstalled

def teardownQuiesced (record : EdgeRecord) : Bool :=
  (!record.driverEstablished || record.pumpStopped) &&
    (!record.workerRingCleanupRequired || record.workerRingQuiesced) && record.quiescenceProven

end EdgeRecord

structure EdgeEstablisher where
  localNodeId : ℕ
  nextRequestId : ℕ := 1
  nextActorId : ℕ := 1
  records : ExtTreeMap ℕ EdgeRecord compare := ∅
  commands : List EdgeCommand := []
  events : List EdgeLifecycleEvent := []

namespace EdgeEstablisher

def new (localNodeId : ℕ) : EdgeEstablisher := { localNodeId := localNodeId }

variable (s : EdgeEstablisher) (edgeId : ℕ)

def setRecord (record : EdgeRecord) : EdgeEstablisher :=
  { s with records := s.records.insert edgeId record }

def push (command : EdgeCommand) : EdgeEstablisher :=
  { s with commands := s.commands ++ [command] }

def report (event : EdgeLifecycleEvent) : EdgeEstablisher :=
  { s with events := s.events ++ [event] }

/-- The first edge, by edge id, whose record meets a condition. -/
def findEdge (p : EdgeRecord → Bool) : Option ℕ :=
  (s.records.toList.find? fun entry => p entry.2).map Prod.fst

def edgeForRequest (requestId : ℕ) : Option ℕ :=
  s.findEdge fun record => record.leaseRequestId = some requestId

def edgeForWaitingRequest (requestId : ℕ) : Option ℕ :=
  s.findEdge fun record =>
    record.state = .waitingForLease && record.leaseRequestId = some requestId

def edgeForRing (ringId : ℕ) : Option ℕ :=
  s.findEdge fun record => record.ringId = some ringId

/-- What the two kinds of provisioning share: the next request id and the next actor address
are taken, the record of the edge is replaced and a ring is asked for. -/
def provision (direction : RingDirection) (ringSpec : RingSpec) (record : ℕ → ℕ → EdgeRecord) :
    EdgeEstablisher :=
  { s with
    nextRequestId := wrappingAdd s.nextRequestId 1
    nextActorId := wrappingAdd s.nextActorId 1
    records := s.records.insert edgeId (record s.nextRequestId s.nextActorId)
    commands := s.commands ++ [.leaseRing s.nextRequestId edgeId direction ringSpec] }

def provisionTx (provision : ProvisionTx) : EdgeEstablisher :=
  if provision.localNodeId ≠ s.localNodeId then s
  else s.provision provision.edgeId .egress provision.ringSpec (.newTx provision)

def provisionRx (provision : ProvisionRx) : EdgeEstablisher :=
  if provision.localNodeId ≠ s.localNodeId then s
  else s.provision provision.edgeId .ingress provision.ringSpec (.newRx provision)

/-- A ring that comes when its edge does not wait for one any more is given back at once. -/
def ringLeased (requestId ringId : ℕ) (layout : RingLayout) : EdgeEstablisher :=
  match s.edgeForRequest requestId with
  | none => s
  | some edgeId =>
      match s.records[edgeId]? with
      | none => s
      | some record =>
          if record.state ≠ .waitingForLease then s.push (.releaseArenaLease ringId true)
          else
            (s.setRecord edgeId
                { record with
                  ringId := some ringId
                  layout := some layout
                  workerRingRequested := true
                  state := .waitingForWorkerRing }).push
              (.installWorkerRing edgeId ringId record.direction layout record.objectSpec
                record.ringSpec)

def ringLeaseRejected (s : EdgeEstablisher) (requestId : ℕ) (reason : RingLeaseRejection) :
    EdgeEstablisher :=
  match s.edgeForWaitingRequest requestId with
  | none => s
  | some edgeId =>
      match s.records[edgeId]? with
      | none => s
      | some record =>
          (s.setRecord edgeId { record with state := .failed }).report
            (.edgeFaulted edgeId (.ringLeaseRejected reason))

def ringInstalled (ringId : ℕ) : EdgeEstablisher :=
  match s.records[edgeId]? with
  | none => s
  | some record =>
      if record.state ≠ .waitingForWorkerRing ∨ record.ringId ≠ some ringId then s
      else
        match record.layout with
        | none => s
        | some layout =>
            let s := s.setRecord edgeId
              { record with
                workerInstalled := true
                driverEstablished := true
                state := .waitingForDriver }
            match record.direction with
            | .egress =>
                match record.peerNodeId with
                | some consumerNodeId => s.push (.establishSend edgeId consumerNodeId layout)
                | none => s
            | .ingress => s.push (.establishRecv edgeId layout)

def driverEdgeReady : EdgeEstablisher :=
  match s.records[edgeId]? with
  | none => s
  | some record =>
      if record.state ≠ .waitingForDriver then s
      else
        (s.setRecord edgeId { record with state := .ready }).report
          (.edgeReady edgeId record.localEdgeActor)

def markStoppedWithEvent : EdgeEstablisher :=
  match s.records[edgeId]? with
  | none => s
  | some record =>
      if record.state = .stopped then s
      else (s.setRecord edgeId { record with state := .stopped }).report (.edgeStopped edgeId)

def releaseRing (ringId : ℕ) : EdgeEstablisher :=
  (s.push (.releaseArenaLease ringId true)).markStoppedWithEvent edgeId

def startStopping (cancelLease : Bool) : EdgeEstablisher :=
  match s.records[edgeId]? with
  | none => s
  | some record =>
      if record.state = .stopping ∨ record.state = .stopped then s
      else
        let s := s.setRecord edgeId { record with state := .stopping }
        let s :=
          match cancelLease, record.leaseRequestId with
          | true, some requestId => s.push (.cancelQueuedLease requestId edgeId)
          | _, _ => s
        match record.ringId with
        | none => s.markStoppedWithEvent edgeId
        | some ringId =>
            let s := if record.driverEstablished then s.push (.stopPump edgeId ringId) else s
            let s :=
              if record.workerRingCleanupRequired then
                s.push (.uninstallWorkerRing edgeId ringId)
              else s
            if !record.driverEstablished && !record.workerRingCleanupRequired then
              s.releaseRing edgeId ringId
            else s

def stopEdge : EdgeEstablisher :=
  s.startStopping edgeId true

def faultEdge (reason : EdgeFaultReason) : EdgeEstablisher :=
  match s.records[edgeId]? with
  | none => s
  | some record =>
      if record.state = .stopping ∨ record.state = .stopped ∨ record.state = .failed then s
      else (s.report (.edgeFaulted edgeId reason)).startStopping edgeId true

def ringFault (s : EdgeEstablisher) (edgeId ringId : ℕ) (reason : RingFaultReason) :
    EdgeEstablisher :=
  match s.records[edgeId]? with
  | none => s
  | some record =>
      if record.ringId ≠ some ringId then s else s.faultEdge edgeId (.ringFault reason)

def releaseAfterTeardownProofs (ringId : ℕ) : EdgeEstablisher :=
  match s.records[edgeId]? with
  | none => s
  | some record =>
      if record.state ≠ .stopping ∨ record.ringId ≠ some ringId ∨ !record.teardownQuiesced then s
      else s.releaseRing edgeId ringId

def pumpStopped (s : EdgeEstablisher) (edgeId ringId : ℕ) : EdgeEstablisher :=
  match s.records[edgeId]? with
  | none => s
  | some record =>
      if record.state ≠ .stopping ∨ record.ringId ≠ some ringId then s
      else
        (s.setRecord edgeId { record with pumpStopped := true }).releaseAfterTeardownProofs
          edgeId ringId

/-- What the two proofs that name a ring share: the edge of the ring marks the proof. -/
def markForRing (ringId : ℕ) (mark : EdgeRecord → EdgeRecord) : EdgeEstablisher :=
  match s.edgeForRing ringId with
  | none => s
  | some edgeId =>
      match s.records[edgeId]? with
      | none => s
      | some record =>
          if record.state ≠ .stopping then s
          else (s.setRecord edgeId (mark record)).releaseAfterTeardownProofs edgeId ringId

def ringQuiesced (ringId : ℕ) : EdgeEstablisher :=
  s.markForRing ringId fun record => { record with workerRingQuiesced := true }

def quiescenceProven (s : EdgeEstablisher) (ringId : ℕ) : EdgeEstablisher :=
  s.markForRing ringId fun record => { record with quiescenceProven := true }

def markStopped : EdgeEstablisher :=
  match s.records[edgeId]? with
  | none => s
  | some record => s.setRecord edgeId { record with state := .stopped }

def observe : EdgeEvent → EdgeEstablisher
  | .provisionTx provision => s.provisionTx provision
  | .provisionRx provision => s.provisionRx provision
  | .ringLeased requestId ringId layout => s.ringLeased requestId ringId layout
  | .ringLeaseRejected requestId reason => s.ringLeaseRejected requestId reason
  | .ringInstalled edgeId ringId => s.ringInstalled edgeId ringId
  | .driverEdgeReady edgeId => s.driverEdgeReady edgeId
  | .streamFault edgeId reason => s.faultEdge edgeId (.streamFault reason)
  | .ringFault edgeId ringId reason => s.ringFault edgeId ringId reason
  | .stopEdge edgeId => s.stopEdge edgeId
  | .pumpStopped edgeId ringId => s.pumpStopped edgeId ringId
  | .ringQuiesced ringId => s.ringQuiesced ringId
  | .quiescenceProven ringId => s.quiescenceProven ringId
  | .stopped edgeId => s.markStopped edgeId

end EdgeEstablisher

/-! ### What one event does to one record -/

/-- The new record of an edge, the commands that are pushed and the events that are reported. -/
structure Outcome where
  record : EdgeRecord
  commands : List EdgeCommand
  events : List EdgeLifecycleEvent

namespace EdgeRecord

variable (record : EdgeRecord) (edgeId : ℕ)

/-- What the driver is asked for when the ring of the edge is installed. -/
def establish (layout : RingLayout) : List EdgeCommand :=
  match record.direction with
  | .egress => record.peerNodeId.toList.map fun peer => .establishSend edgeId peer layout
  | .ingress => [.establishRecv edgeId layout]

def cancel : List EdgeCommand :=
  record.leaseRequestId.toList.map fun requestId => .cancelQueuedLease requestId edgeId

/-- An edge that stops without a ring has stopped; with a ring it asks for the teardown of
what was set up. -/
def stop (faults : List EdgeLifecycleEvent) : Outcome :=
  match record.ringId with
  | none =>
      ⟨{ record with state := .stopped }, record.cancel edgeId, faults ++ [.edgeStopped edgeId]⟩
  | some ringId =>
      if !record.driverEstablished && !record.workerRingCleanupRequired then
        ⟨{ record with state := .stopped },
          record.cancel edgeId ++ [.releaseArenaLease ringId true],
          faults ++ [.edgeStopped edgeId]⟩
      else
        ⟨{ record with state := .stopping },
          record.cancel edgeId ++
            ((if record.driverEstablished then [.stopPump edgeId ringId] else []) ++
            if record.workerRingCleanupRequired then [.uninstallWorkerRing edgeId ringId] else []),
          faults⟩

/-- A stopping edge with a new proof gives its ring back if it was the last one. -/
def settle (ringId : ℕ) : Outcome :=
  if record.teardownQuiesced then
    ⟨{ record with state := .stopped }, [.releaseArenaLease ringId true], [.edgeStopped edgeId]⟩
  else ⟨record, [], []⟩

end EdgeRecord

/-- The events that begin the teardown of an edge, with the faults they report. -/
inductive Halts (edgeId : ℕ) (record : EdgeRecord) : EdgeEvent → List EdgeLifecycleEvent → Prop
  | stop : Halts edgeId record (.stopEdge edgeId) []
  | streamFault (reason : StreamFaultReason) : record.state ≠ .failed →
      Halts edgeId record (.streamFault edgeId reason)
        [.edgeFaulted edgeId (.streamFault reason)]
  | ringFault (ringId : ℕ) (reason : RingFaultReason) : record.state ≠ .failed →
      record.ringId = some ringId →
      Halts edgeId record (.ringFault edgeId ringId reason)
        [.edgeFaulted edgeId (.ringFault reason)]

/-- Every way in which an event moves the record of an edge. -/
inductive Advance (edgeId : ℕ) (record : EdgeRecord) : EdgeEvent → Outcome → Prop
  | leased (requestId ringId : ℕ) (layout : RingLayout) : record.state = .waitingForLease →
      record.leaseRequestId = some requestId →
      Advance edgeId record (.ringLeased requestId ringId layout)
        ⟨{ record with
            ringId := some ringId
            layout := some layout
            workerRingRequested := true
            state := .waitingForWorkerRing },
          [.installWorkerRing edgeId ringId record.direction layout record.objectSpec
            record.ringSpec], []⟩
  | rejected (requestId : ℕ) (reason : RingLeaseRejection) : record.state = .waitingForLease →
      record.leaseRequestId = some requestId →
      Advance edgeId record (.ringLeaseRejected requestId reason)
        ⟨{ record with state := .failed }, [], [.edgeFaulted edgeId (.ringLeaseRejected reason)]⟩
  | installed (ringId : ℕ) (layout : RingLayout) : record.state = .waitingForWorkerRing →
      record.ringId = some ringId → record.layout = some layout →
      Advance edgeId record (.ringInstalled edgeId ringId)
        ⟨{ record with
            workerInstalled := true
            driverEstablished := true
            state := .waitingForDriver }, record.establish edgeId layout, []⟩
  | ready : record.state = .waitingForDriver →
      Advance edgeId record (.driverEdgeReady edgeId)
        ⟨{ record with state := .ready }, [], [.edgeReady edgeId record.localEdgeActor]⟩
  | stop {event : EdgeEvent} {faults : List EdgeLifecycleEvent} :
      Halts edgeId record event faults → record.state ≠ .stopping → record.state ≠ .stopped →
      Advance edgeId record event (record.stop edgeId faults)
  | pumpStopped (ringId : ℕ) : record.state = .stopping → record.ringId = some ringId →
      Advance edgeId record (.pumpStopped edgeId ringId)
        ({ record with pumpStopped := true }.settle edgeId ringId)
  | ringQuiesced (ringId : ℕ) : record.state = .stopping → record.ringId = some ringId →
      Advance edgeId record (.ringQuiesced ringId)
        ({ record with workerRingQuiesced := true }.settle edgeId ringId)
  | quiescenceProven (ringId : ℕ) : record.state = .stopping → record.ringId = some ringId →
      Advance edgeId record (.quiescenceProven ringId)
        ({ record with quiescenceProven := true }.settle edgeId ringId)
  | markStopped :
      Advance edgeId record (.stopped edgeId) ⟨{ record with state := .stopped }, [], []⟩

namespace EdgeEstablisher

/-- The establisher after the outcome of one edge. -/
def apply (s : EdgeEstablisher) (edgeId : ℕ) (outcome : Outcome) : EdgeEstablisher :=
  { s with
    records := s.records.insert edgeId outcome.record
    commands := s.commands ++ outcome.commands
    events := s.events ++ outcome.events }

/-- The node and the request counter of the provisioning event, with the record it makes. -/
inductive Provisions (s : EdgeEstablisher) (edgeId : ℕ) (record : EdgeRecord) :
    EdgeEvent → EdgeCommand → Prop
  | tx (provision : ProvisionTx) : provision.localNodeId = s.localNodeId →
      provision.edgeId = edgeId → record = .newTx provision s.nextRequestId s.nextActorId →
      Provisions s edgeId record (.provisionTx provision)
        (.leaseRing s.nextRequestId edgeId .egress provision.ringSpec)
  | rx (provision : ProvisionRx) : provision.localNodeId = s.localNodeId →
      provision.edgeId = edgeId → record = .newRx provision s.nextRequestId s.nextActorId →
      Provisions s edgeId record (.provisionRx provision)
        (.leaseRing s.nextRequestId edgeId .ingress provision.ringSpec)

/-- Every way in which an event moves the establisher. -/
inductive Transition (s : EdgeEstablisher) (event : EdgeEvent) : EdgeEstablisher → Prop
  | skip : Transition s event s
  | provision {edgeId : ℕ} {record : EdgeRecord} {command : EdgeCommand} :
      Provisions s edgeId record event command →
      Transition s event
        { s with
          nextRequestId := wrappingAdd s.nextRequestId 1
          nextActorId := wrappingAdd s.nextActorId 1
          records := s.records.insert edgeId record
          commands := s.commands ++ [command] }
  | lateGrant {edgeId requestId ringId : ℕ} {layout : RingLayout} {record : EdgeRecord} :
      event = .ringLeased requestId ringId layout → s.records[edgeId]? = some record →
      record.leaseRequestId = some requestId → record.state ≠ .waitingForLease →
      Transition s event (s.push (.releaseArenaLease ringId true))
  | edge {edgeId : ℕ} {record : EdgeRecord} {outcome : Outcome} :
      s.records[edgeId]? = some record → Advance edgeId record event outcome →
      Transition s event (s.apply edgeId outcome)

section

variable (s : EdgeEstablisher) (edgeId : ℕ) (outcome : Outcome)

@[simp] theorem getElem_apply :
    (s.apply edgeId outcome).records[edgeId]? = some outcome.record := by
  simp [apply]

theorem setRecord_eq_apply (record : EdgeRecord) :
    s.setRecord edgeId record = s.apply edgeId ⟨record, [], []⟩ := by
  simp [setRecord, apply]

theorem apply_setRecord (record : EdgeRecord) :
    (s.apply edgeId outcome).setRecord edgeId record =
      s.apply edgeId { outcome with record := record } := by
  have hrecords : (s.records.insert edgeId outcome.record).insert edgeId record =
      s.records.insert edgeId record := by
    ext1 key
    simp only [ExtTreeMap.getElem?_insert]
    split_ifs <;> rfl
  simp only [setRecord, apply, hrecords]

theorem apply_push (command : EdgeCommand) :
    (s.apply edgeId outcome).push command =
      s.apply edgeId { outcome with commands := outcome.commands ++ [command] } := by
  simp [push, apply]

theorem apply_report (event : EdgeLifecycleEvent) :
    (s.apply edgeId outcome).report event =
      s.apply edgeId { outcome with events := outcome.events ++ [event] } := by
  simp [report, apply]

theorem report_apply (event : EdgeLifecycleEvent) :
    (s.report event).apply edgeId outcome =
      s.apply edgeId { outcome with events := event :: outcome.events } := by
  simp [report, apply]

end

variable {edgeId ringId : ℕ} {record : EdgeRecord}

theorem findEdge_eq_some {s : EdgeEstablisher} {p : EdgeRecord → Bool}
    (h : s.findEdge p = some edgeId) :
    ∃ record, s.records[edgeId]? = some record ∧ p record = true := by
  obtain ⟨entry, hfind, rfl⟩ := Option.map_eq_some_iff.mp h
  have hmem := List.mem_of_find?_eq_some hfind
  have hp := List.find?_some hfind
  exact ⟨entry.2, ExtTreeMap.mem_toList_iff_getElem?_eq_some.mp hmem, hp⟩

section

variable (s : EdgeEstablisher)

theorem releaseRing_apply {outcome : Outcome} (hstate : outcome.record.state ≠ .stopped) :
    (s.apply edgeId outcome).releaseRing edgeId ringId =
      s.apply edgeId
        ⟨{ outcome.record with state := .stopped },
          outcome.commands ++ [.releaseArenaLease ringId true],
          outcome.events ++ [.edgeStopped edgeId]⟩ := by
  simp only [releaseRing, markStoppedWithEvent, apply_push, getElem_apply, if_neg hstate,
    apply_setRecord, apply_report]

/-- A stopping edge with its new mark settles. -/
theorem releaseAfterTeardownProofs_setRecord (hstate : record.state = .stopping)
    (hring : record.ringId = some ringId) :
    (s.setRecord edgeId record).releaseAfterTeardownProofs edgeId ringId =
      s.apply edgeId (record.settle edgeId ringId) := by
  rw [setRecord_eq_apply, releaseAfterTeardownProofs, getElem_apply]
  dsimp only
  cases hquiesced : record.teardownQuiesced with
  | true =>
    rw [if_neg (by simp [hstate, hring]), releaseRing_apply s (by simp [hstate]),
      EdgeRecord.settle, if_pos hquiesced]
    rfl
  | false => rw [if_pos (by simp), EdgeRecord.settle, if_neg (by simp [hquiesced])]

theorem startStopping_eq (hrecord : s.records[edgeId]? = some record)
    (hstopping : record.state ≠ .stopping) (hstopped : record.state ≠ .stopped) :
    s.startStopping edgeId true = s.apply edgeId (record.stop edgeId []) := by
  have hcancel : ∀ t : EdgeEstablisher, t = s.setRecord edgeId { record with state := .stopping } →
      (match true, record.leaseRequestId with
        | true, some requestId => t.push (.cancelQueuedLease requestId edgeId)
        | _, _ => t) =
      s.apply edgeId ⟨{ record with state := .stopping }, record.cancel edgeId, []⟩ := by
    rintro t rfl
    rw [setRecord_eq_apply]
    cases hrequest : record.leaseRequestId with
    | none => simp [EdgeRecord.cancel, hrequest]
    | some requestId => simp [EdgeRecord.cancel, hrequest, apply_push]
  have hneither : ¬(record.state = .stopping ∨ record.state = .stopped) := by
    rintro (h | h)
    · exact hstopping h
    · exact hstopped h
  simp only [startStopping, hrecord, if_neg hneither, hcancel _ rfl]
  cases hring : record.ringId with
  | none =>
    simp [EdgeRecord.stop, hring, markStoppedWithEvent, apply_setRecord, apply_report]
  | some ringId =>
    cases hdriver : record.driverEstablished <;>
      cases hcleanup : record.workerRingCleanupRequired <;>
        simp [EdgeRecord.stop, hring, hdriver, hcleanup, apply_push, releaseRing_apply]

theorem report_startStopping_eq {fault : EdgeLifecycleEvent}
    (hrecord : s.records[edgeId]? = some record) (hstopping : record.state ≠ .stopping)
    (hstopped : record.state ≠ .stopped) :
    (s.report fault).startStopping edgeId true = s.apply edgeId (record.stop edgeId [fault]) := by
  rw [startStopping_eq (s.report fault) hrecord hstopping hstopped, report_apply]
  unfold EdgeRecord.stop
  cases record.ringId with
  | none => rfl
  | some ringId =>
    dsimp only
    split_ifs <;> rfl

theorem transition_faultEdge {event : EdgeEvent} {reason : EdgeFaultReason}
    (hhalts : ∀ record, s.records[edgeId]? = some record → record.state ≠ .failed →
      Halts edgeId record event [.edgeFaulted edgeId reason]) :
    Transition s event (s.faultEdge edgeId reason) := by
  unfold faultEdge
  cases hrecord : s.records[edgeId]? with
  | none => exact .skip
  | some record =>
    dsimp only
    split_ifs with hstate
    · exact .skip
    · simp only [not_or] at hstate
      rw [report_startStopping_eq s hrecord hstate.1 hstate.2.1]
      exact .edge hrecord (.stop (hhalts record hrecord hstate.2.2) hstate.1 hstate.2.1)

theorem transition_markForRing {event : EdgeEvent} {mark : EdgeRecord → EdgeRecord}
    (hmark : ∀ record, (mark record).state = record.state ∧ (mark record).ringId = record.ringId)
    (hadvance : ∀ edgeId record, record.state = .stopping → record.ringId = some ringId →
      Advance edgeId record event ((mark record).settle edgeId ringId)) :
    Transition s event (s.markForRing ringId mark) := by
  unfold markForRing
  cases hedge : s.edgeForRing ringId with
  | none => exact .skip
  | some edgeId =>
    obtain ⟨record, hrecord, hring⟩ := findEdge_eq_some hedge
    replace hring : record.ringId = some ringId := of_decide_eq_true hring
    simp only [hrecord]
    split_ifs with hstate
    · exact .skip
    · rw [not_not] at hstate
      rw [releaseAfterTeardownProofs_setRecord s ((hmark record).1.trans hstate)
        ((hmark record).2.trans hring)]
      exact .edge hrecord (hadvance edgeId record hstate hring)

/-- The inversion of an event. -/
theorem transition_observe (event : EdgeEvent) : Transition s event (s.observe event) := by
  cases event with
  | provisionTx provision =>
    dsimp only [observe, provisionTx]
    split_ifs with hnode
    · exact .skip
    · exact .provision (.tx provision (not_not.mp hnode) rfl rfl)
  | provisionRx provision =>
    dsimp only [observe, provisionRx]
    split_ifs with hnode
    · exact .skip
    · exact .provision (.rx provision (not_not.mp hnode) rfl rfl)
  | ringLeased requestId ringId layout =>
    dsimp only [observe, ringLeased]
    cases hedge : s.edgeForRequest requestId with
    | none => exact .skip
    | some edgeId =>
      obtain ⟨record, hrecord, hrequest⟩ := findEdge_eq_some hedge
      replace hrequest : record.leaseRequestId = some requestId := of_decide_eq_true hrequest
      simp only [hrecord]
      split_ifs with hstate
      · exact .lateGrant rfl hrecord hrequest hstate
      · rw [not_not] at hstate
        rw [setRecord_eq_apply, apply_push]
        exact .edge hrecord (.leased requestId ringId layout hstate hrequest)
  | ringLeaseRejected requestId reason =>
    dsimp only [observe, ringLeaseRejected]
    cases hedge : s.edgeForWaitingRequest requestId with
    | none => exact .skip
    | some edgeId =>
      obtain ⟨record, hrecord, hwaits⟩ := findEdge_eq_some hedge
      simp only [Bool.and_eq_true, decide_eq_true_eq] at hwaits
      simp only [hrecord]
      rw [setRecord_eq_apply, apply_report]
      exact .edge hrecord (.rejected requestId reason hwaits.1 hwaits.2)
  | ringInstalled edgeId ringId =>
    dsimp only [observe, ringInstalled]
    cases hrecord : s.records[edgeId]? with
    | none => exact .skip
    | some record =>
      dsimp only
      split_ifs with hstate
      · exact .skip
      · simp only [not_or, not_not] at hstate
        cases hlayout : record.layout with
        | none => exact .skip
        | some layout =>
          have h := Transition.edge hrecord (.installed ringId layout hstate.1 hstate.2 hlayout)
          revert h
          cases hdirection : record.direction <;> cases hpeer : record.peerNodeId <;>
            simp [EdgeRecord.establish, hdirection, hpeer, hlayout, setRecord_eq_apply,
              apply_push]
  | driverEdgeReady edgeId =>
    dsimp only [observe, driverEdgeReady]
    cases hrecord : s.records[edgeId]? with
    | none => exact .skip
    | some record =>
      dsimp only
      split_ifs with hstate
      · exact .skip
      · rw [setRecord_eq_apply, apply_report]
        exact .edge hrecord (.ready (not_not.mp hstate))
  | streamFault edgeId reason =>
    exact transition_faultEdge s fun _ _ hstate => .streamFault reason hstate
  | ringFault edgeId ringId reason =>
    dsimp only [observe, ringFault]
    cases hrecord : s.records[edgeId]? with
    | none => exact .skip
    | some record =>
      dsimp only
      split_ifs with hring
      · exact .skip
      · refine transition_faultEdge s fun record' hrecord' hstate => ?_
        obtain rfl := Option.some.inj (hrecord.symm.trans hrecord')
        exact .ringFault ringId reason hstate (not_not.mp hring)
  | stopEdge edgeId =>
    dsimp only [observe, stopEdge]
    cases hrecord : s.records[edgeId]? with
    | none =>
      simp only [startStopping, hrecord]
      exact .skip
    | some record =>
      by_cases hstate : record.state = .stopping ∨ record.state = .stopped
      · simp only [startStopping, hrecord, if_pos hstate]
        exact .skip
      · rw [not_or] at hstate
        rw [startStopping_eq s hrecord hstate.1 hstate.2]
        exact .edge hrecord (.stop .stop hstate.1 hstate.2)
  | pumpStopped edgeId ringId =>
    dsimp only [observe, EdgeEstablisher.pumpStopped]
    cases hrecord : s.records[edgeId]? with
    | none => exact .skip
    | some record =>
      dsimp only
      split_ifs with hstate
      · exact .skip
      · simp only [not_or, not_not] at hstate
        have hstopping : ({ record with pumpStopped := true } : EdgeRecord).state = .stopping :=
          hstate.1
        rw [releaseAfterTeardownProofs_setRecord s hstopping hstate.2]
        exact .edge hrecord (.pumpStopped ringId hstate.1 hstate.2)
  | ringQuiesced ringId =>
    exact transition_markForRing s (fun _ => ⟨rfl, rfl⟩) fun _ _ => .ringQuiesced ringId
  | quiescenceProven ringId =>
    exact transition_markForRing s (fun _ => ⟨rfl, rfl⟩) fun _ _ => .quiescenceProven ringId
  | stopped edgeId =>
    dsimp only [observe, markStopped]
    cases hrecord : s.records[edgeId]? with
    | none => exact .skip
    | some record =>
      dsimp only
      rw [setRecord_eq_apply]
      exact .edge hrecord .markStopped

end

end EdgeEstablisher
end Swactor.DataPlane.Edge
