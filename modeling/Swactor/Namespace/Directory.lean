import Swactor.Namespace.Store

/-!
# The actor that owns the namespace

A path names a blob, whose source is an actor, or a stream, whose two ends are matched by the
directory. Registering, unregistering and renaming are recorded under the id of their operation,
so that a retry is answered from the record. An open that replaces an active stream puts a fence
on the path: the old endpoints are told to stop, and opens of the path are held until both have
acknowledged. The sources, the streams, the reservations and the held opens are lost in a crash;
the fences are rebuilt from the endpoints that have not acknowledged.

The timer, the route watches and the queue of the periodic retries are left out: which sources
are asked again, and in what order the pending displacements are retried, is an input.
-/
namespace Swactor.Namespace

open Std (ExtTreeMap ExtTreeSet)

inductive EntryKind
  | blob
  | stream
deriving DecidableEq, Repr

inductive StreamRole
  | source
  | sink
deriving DecidableEq, Repr

structure BlobBinding where
  source : ActorAddress
  sourceNode : NodeId
  owner : Option ActorAddress
  length : ℕ
  revision : ℕ
deriving DecidableEq, Repr

structure NamespaceNode where
  kind : EntryKind
  revision : ℕ
  active : Bool
deriving DecidableEq, Repr

structure StreamMatch where
  incarnation : StreamIncarnation
  source : ActorAddress
  sourceDescriptor : List UInt8
  sinkDescriptor : List UInt8
  sink : ActorAddress
  revision : ℕ
deriving DecidableEq, Repr

inductive NamespaceError
  | pathNotFound (path : DataPath)
  | pathExists (path : DataPath)
  | wrongEntryType (path : DataPath) (expected found : EntryKind)
  | pathReplaced (path : DataPath)
  | duplicateStreamRole (path : DataPath) (role : StreamRole)
  | staleIncarnation (path : DataPath) (incarnation : StreamIncarnation)
  | operationConflict (operationId : OperationId)
  | streamActive (path : DataPath)
  | storage (reason : String)
  | sourceRecovery (reason : String)
  | directoryUnavailable (reason : String)
  | protocol (reason : String)
deriving DecidableEq, Repr

def MutationRejection.error : MutationRejection → NamespaceError
  | .pathNotFound path => .pathNotFound path
  | .pathExists path => .pathExists path
  | .streamActive path => .streamActive path
  | .pathReplaced path => .pathReplaced path

/-- How a recorded operation is answered. -/
def PersistedMutationResult.answer :
    PersistedMutationResult → Except NamespaceError MutationReceipt
  | .committed receipt => .ok receipt
  | .rejected rejection => .error rejection.error

structure StreamOpenRequest where
  requestId : ℕ
  path : DataPath
  role : StreamRole
  endpoint : ActorAddress
  replace : Bool
  ensure : Bool
  expectedRevision : Option ℕ
  descriptor : List UInt8
  operationId : OperationId
  replyTo : ActorAddress
deriving DecidableEq, Repr

structure BlobRegistration where
  path : DataPath
  source : ActorAddress
  sourceNode : NodeId
  length : ℕ
  recovery : SourceRecovery
  operationId : OperationId
  reservation : Option OperationId
deriving DecidableEq, Repr

def BlobRegistration.request (registration : BlobRegistration) : MutationRequest :=
  .register registration.path registration.length registration.recovery

/-- The registration as an edit of the snapshot. -/
def BlobRegistration.edit (registration : BlobRegistration) (retired : Option ActorAddress)
    (revision : ℕ) (snapshot : NamespaceSnapshot) : NamespaceSnapshot :=
  (snapshot.blobBound registration.path
    ⟨registration.length, revision, registration.recovery⟩).retire retired

inductive DataDirectoryIn
  | register (requestId : ℕ) (registration : BlobRegistration) (replyTo : ActorAddress)
  | resolve (requestId : ℕ) (path : DataPath) (replyTo : ActorAddress)
  | lookup (requestId : ℕ) (path : DataPath) (replyTo : ActorAddress)
  | reserveBlob (requestId : ℕ) (path : DataPath) (operationId : OperationId)
      (replyTo : ActorAddress)
  | releaseBlobReservation (requestId : ℕ) (path : DataPath) (operationId : OperationId)
      (replyTo : ActorAddress)
  | unregister (requestId : ℕ) (path : DataPath) (operationId : OperationId)
      (replyTo : ActorAddress)
  | rename (requestId : ℕ) (source destination : DataPath) (replace : Bool)
      (operationId : OperationId) (replyTo : ActorAddress)
  | openStream (request : StreamOpenRequest)
  | cancelStream (requestId : ℕ) (path : DataPath) (operationId : OperationId)
      (replyTo : Option ActorAddress)
  | closeStream (requestId : ℕ) (path : DataPath) (incarnation : StreamIncarnation)
      (replyTo : ActorAddress)
  | sourceRetired (source : ActorAddress)
  | streamDisplaced (endpoint : ActorAddress) (incarnation : StreamIncarnation)
  | retryRetirements
  | retirementRouteChanged (target : ActorAddress)
deriving DecidableEq, Repr

/-- The replies of the directory apart from those to stream opens. -/
inductive DataDirectoryOut
  | registered (requestId authorityEpoch : ℕ) (result : Except NamespaceError MutationReceipt)
  | resolved (requestId authorityEpoch : ℕ) (result : Except NamespaceError BlobBinding)
  | lookedUp (requestId authorityEpoch : ℕ) (result : Except NamespaceError NamespaceNode)
  | blobReserved (requestId authorityEpoch : ℕ) (result : Except NamespaceError Unit)
  | blobReservationReleased (requestId authorityEpoch : ℕ) (result : Except NamespaceError Unit)
  | unregistered (requestId authorityEpoch : ℕ) (result : Except NamespaceError MutationReceipt)
  | renamed (requestId authorityEpoch : ℕ) (result : Except NamespaceError MutationReceipt)
  | streamClosed (requestId authorityEpoch : ℕ) (result : Except NamespaceError Unit)
  | streamCancelled (requestId authorityEpoch : ℕ) (result : Except NamespaceError Unit)
deriving DecidableEq

/-- Which open a request or an entry stands for. A retry has the same. -/
structure StreamOpening where
  path : DataPath
  role : StreamRole
  endpoint : ActorAddress
  operationId : OperationId
deriving DecidableEq, Repr

def StreamOpenRequest.opening (request : StreamOpenRequest) : StreamOpening :=
  ⟨request.path, request.role, request.endpoint, request.operationId⟩

/-- What the directory sends. `opened` is the reply `StreamOpened`; the open that it answers is
not part of the message. -/
inductive Sent
  | reply (target : ActorAddress) (out : DataDirectoryOut)
  | opened (opening : StreamOpening) (target : ActorAddress) (requestId authorityEpoch : ℕ)
      (result : Except NamespaceError StreamMatch)
  | retire (source : ActorAddress)
  | displaced (endpoint : ActorAddress) (incarnation : StreamIncarnation)
deriving DecidableEq

inductive RuntimeSource
  | available (actor : ActorAddress) (node : NodeId) (owner : Option ActorAddress)
  | unavailable (reason : String)
deriving DecidableEq, Repr

/-- The actor of a source that is there. -/
def RuntimeSource.actor? : RuntimeSource → Option ActorAddress
  | .available actor _ _ => some actor
  | .unavailable _ => none

structure PendingStream where
  role : StreamRole
  endpoint : ActorAddress
  operationId : OperationId
  requestId : ℕ
  descriptor : List UInt8
  replyTo : ActorAddress
  revision : ℕ
  openedFromRevision : Option ℕ
deriving DecidableEq, Repr

def PendingStream.opening (pending : PendingStream) (path : DataPath) : StreamOpening :=
  ⟨path, pending.role, pending.endpoint, pending.operationId⟩

/-- The entry of an open that waits for the other side. -/
def StreamOpenRequest.waiting (request : StreamOpenRequest) (revision : ℕ) : PendingStream where
  role := request.role
  endpoint := request.endpoint
  operationId := request.operationId
  requestId := request.requestId
  descriptor := request.descriptor
  replyTo := request.replyTo
  revision := revision
  openedFromRevision := if request.ensure then none else request.expectedRevision

structure ActiveStream where
  binding : StreamMatch
  sourceOperation : OperationId
  sinkOperation : OperationId
deriving DecidableEq, Repr

/-- The two ends of an active stream, as a set. -/
def ActiveStream.endpoints (active : ActiveStream) : List ActorAddress :=
  [active.binding.source, active.binding.sink].dedup

/-- The open takes part in the stream. -/
def ActiveStream.has (active : ActiveStream) (operationId : OperationId) : Bool :=
  active.sourceOperation = operationId || active.sinkOperation = operationId

inductive RuntimeStream
  | pending (pending : PendingStream)
  | active (active : ActiveStream)
deriving DecidableEq, Repr

/-- The endpoints are a set. -/
structure StreamReplacementFence where
  incarnation : StreamIncarnation
  endpoints : List ActorAddress
  old : Option ActiveStream
  requests : List StreamOpenRequest
deriving DecidableEq, Repr

structure PendingStreamDisplacement where
  incarnation : StreamIncarnation
  acknowledged : Bool
deriving DecidableEq, Repr

structure DataDirectory where
  store : NamespaceStore
  sources : ExtTreeMap DataPath RuntimeSource compare
  streams : ExtTreeMap DataPath RuntimeStream compare := ∅
  blobReservations : ExtTreeMap DataPath OperationId compare := ∅
  pendingRetirements : ExtTreeSet ActorAddress compare
  pendingStreamDisplacements : ExtTreeMap ActorAddress PendingStreamDisplacement compare
  streamReplacementFences : ExtTreeMap DataPath StreamReplacementFence compare
  authorityEpoch : ℕ
  sent : List Sent := []

/-- What the directory does not decide: the fates of its commits, which targets are routable,
in what order the pending displacements are visited, which sources the retry queue yields, and
how the source of the binding of a path is recovered. -/
structure Surroundings where
  fates : List CommitFate := []
  routable : ActorAddress → Bool := fun _ => true
  order : List ActorAddress := []
  queue : List ActorAddress := []
  recoverSource : DataPath → SourceRecovery → ℕ → Except String (ActorAddress × NodeId) :=
    fun _ _ _ => .error ""

namespace NamespaceStore

variable (store : NamespaceStore) (operationId : OperationId)

def replay (request : MutationRequest) : Option (Except NamespaceError MutationReceipt) :=
  store.snapshot.operations[operationId]?.map fun operation =>
    if operation.request ≠ request then .error (.operationConflict operationId)
    else operation.result.answer

/-- A rejected mutation is recorded, so that a retry is rejected as well. -/
def reject (request : MutationRequest) (rejection : MutationRejection) :
    NamespaceStore × Except NamespaceError MutationReceipt :=
  match store.commit (store.snapshot.record operationId request (.rejected rejection)) with
  | (store, .error error) => (store, .error (.storage error.display))
  | (store, .ok ()) => (store, .error rejection.error)

/-- The snapshot after a mutation that takes the next revision. -/
def mutated (request : MutationRequest) (edit : ℕ → NamespaceSnapshot → NamespaceSnapshot) :
    NamespaceSnapshot :=
  ({ edit store.snapshot.nextRevision store.snapshot with
    nextRevision := store.snapshot.nextRevision + 1 }).record operationId request
      (.committed ⟨store.snapshot.nextRevision⟩)

/-- What the mutations share when they are not refused: the next revision is taken, the edit is
recorded with it and committed. -/
def mutate (request : MutationRequest) (edit : ℕ → NamespaceSnapshot → NamespaceSnapshot) :
    NamespaceStore × Except NamespaceError MutationReceipt :=
  match checkedAdd store.snapshot.nextRevision 1 with
  | none => (store, .error (.storage NamespaceStoreError.revisionExhausted.display))
  | some _ =>
      match store.commit (store.mutated operationId request edit) with
      | (committed, .error error) => (committed, .error (.storage error.display))
      | (committed, .ok ()) => (committed, .ok ⟨store.snapshot.nextRevision⟩)

def recordStreamParticipant (path : DataPath) (operationId : OperationId) (revision : ℕ) :
    NamespaceStore × Except NamespaceError Unit :=
  match store.snapshot.operations[operationId]? with
  | some existing =>
      if existing.request = .bindStream path then (store, .ok ())
      else (store, .error (.operationConflict operationId))
  | none =>
      match store.commit
          (store.snapshot.record operationId (.bindStream path) (.committed ⟨revision⟩)) with
      | (store, .error error) => (store, .error (.storage error.display))
      | (store, .ok ()) => (store, .ok ())

end NamespaceStore

namespace DataDirectory

/-- The snapshot in memory. -/
abbrev snapshot (d : DataDirectory) : NamespaceSnapshot := d.store.snapshot

section

variable (d : DataDirectory)

def send (message : Sent) : DataDirectory :=
  { d with sent := d.sent ++ [message] }

def queueRetirement (source : ActorAddress) : DataDirectory :=
  { d with pendingRetirements := d.pendingRetirements.insert source }.send (.retire source)

/-- The source that a mutation retired, if any, is asked to stop. -/
def queueRetired : Option ActorAddress → DataDirectory
  | none => d
  | some source => d.queueRetirement source

def confirmRetirement (source : ActorAddress) : DataDirectory :=
  if source ∉ d.pendingRetirements then d
  else
    match d.store.commit { d.snapshot with
        retirements := d.snapshot.retirements.filter fun retired => retired ≠ source } with
    | (store, .error _) => { d with store := store }
    | (store, .ok ()) =>
        { d with store := store, pendingRetirements := d.pendingRetirements.erase source }

/-- The source that is bound to the path now. -/
def boundSource (path : DataPath) : Option ActorAddress :=
  d.sources[path]?.bind RuntimeSource.actor?

def bindStream (d : DataDirectory) (path : DataPath) (operationId : OperationId)
    (retired : Option ActorAddress) : DataDirectory × Except NamespaceError MutationReceipt :=
  match d.store.replay operationId (.bindStream path) with
  | some replayed => (d, replayed)
  | none =>
      if path ∈ d.blobReservations then
        let (store, result) :=
          d.store.reject operationId (.bindStream path) (.pathExists path)
        ({ d with store := store }, result)
      else
        match d.store.mutate operationId (.bindStream path) fun revision snapshot =>
            (snapshot.streamBound path revision).retire retired with
        | (store, .error error) => ({ d with store := store }, .error error)
        | (store, .ok receipt) =>
            ({ d with store := store, sources := d.sources.erase path }, .ok receipt)

def sendStreamResult (opening : StreamOpening) (requestId : ℕ) (replyTo : ActorAddress)
    (result : Except NamespaceError StreamMatch) : DataDirectory :=
  d.send (.opened opening replyTo requestId d.authorityEpoch result)

/-- The answer to an open request. -/
def answerOpen (request : StreamOpenRequest) (result : Except NamespaceError StreamMatch) :
    DataDirectory :=
  d.sendStreamResult request.opening request.requestId request.replyTo result

/-- The endpoints have yet to acknowledge. -/
def awaitAll (pending : ExtTreeMap ActorAddress PendingStreamDisplacement compare)
    (endpoints : List ActorAddress) (incarnation : StreamIncarnation) :
    ExtTreeMap ActorAddress PendingStreamDisplacement compare :=
  endpoints.foldl (fun pending endpoint => pending.insert endpoint ⟨incarnation, false⟩) pending

def queueStreamDisplacement (endpoint : ActorAddress) (incarnation : StreamIncarnation) :
    DataDirectory :=
  if (d.pendingStreamDisplacements[endpoint]?.any fun known =>
      known.incarnation = incarnation) then d
  else
    match d.store.commit (d.snapshot.displace endpoint incarnation) with
    | (store, .error _) => { d with store := store }
    | (store, .ok ()) =>
        { d with
          store := store
          pendingStreamDisplacements :=
            d.pendingStreamDisplacements.insert endpoint ⟨incarnation, false⟩ }.send
          (.displaced endpoint incarnation)

/-- A failure to persist the displacement of an endpoint is only logged. -/
def displaceStream (path : DataPath) : DataDirectory :=
  match d.streams[path]? with
  | none => d
  | some (.pending pending) =>
      { d with streams := d.streams.erase path }.sendStreamResult (pending.opening path)
        pending.requestId pending.replyTo (.error (.pathReplaced path))
  | some (.active active) =>
      ({ d with streams := d.streams.erase path }.queueStreamDisplacement active.binding.source
        active.binding.incarnation).queueStreamDisplacement active.binding.sink
        active.binding.incarnation

/-- The active stream has been taken out of `streams` when this is called. -/
def beginStreamReplacement (request : StreamOpenRequest) (active : ActiveStream) : DataDirectory :=
  let incarnation := active.binding.incarnation
  match d.store.commit (d.snapshot.displaceAll active.endpoints incarnation) with
  | (store, .error error) =>
      { d with
        store := store
        streams := d.streams.insert request.path (.active active) }.answerOpen request
        (.error (.storage error.display))
  | (store, .ok ()) =>
      { d with
        store := store
        pendingStreamDisplacements :=
          awaitAll d.pendingStreamDisplacements active.endpoints incarnation
        streamReplacementFences := d.streamReplacementFences.insert request.path
          ⟨incarnation, active.endpoints, some active, [request]⟩
        sent := d.sent ++ active.endpoints.map fun endpoint => .displaced endpoint incarnation }

/-- A retry of an open that takes part in the displaced stream is answered from it. -/
def oldReply (fence : StreamReplacementFence) (request : StreamOpenRequest) :
    Option (Except NamespaceError StreamMatch) :=
  fence.old.bind fun old =>
    if old.has request.operationId then
      let expected := match request.role with
        | .source => (old.sourceOperation, old.binding.source)
        | .sink => (old.sinkOperation, old.binding.sink)
      if expected = (request.operationId, request.endpoint) then some (.ok old.binding)
      else some (.error (.operationConflict request.operationId))
    else none

/-- The first held request for the same open is exchanged, else the request is appended. -/
def hold (request : StreamOpenRequest) : List StreamOpenRequest → List StreamOpenRequest
  | [] => [request]
  | known :: rest =>
      if known.operationId = request.operationId ∧ known.role = request.role ∧
          known.endpoint = request.endpoint then request :: rest
      else known :: hold request rest

def holdStreamOpenForFence (request : StreamOpenRequest) (fence : StreamReplacementFence) :
    DataDirectory :=
  match oldReply fence request with
  | some result => d.answerOpen request result
  | none =>
      { d with
        streamReplacementFences := d.streamReplacementFences.insert request.path
          { fence with requests := hold request fence.requests } }

/-- The stream that the open has joined is the one at its path. -/
def isCurrent (request : StreamOpenRequest) : Bool :=
  match d.streams[request.path]? with
  | none => false
  | some (.pending pending) => pending.operationId = request.operationId
  | some (.active active) => active.has request.operationId

/-- Why an open that does not ensure its path is refused. -/
def refusal (request : StreamOpenRequest) : Option NamespaceError :=
  if request.ensure then none
  else
    match d.snapshot.streamNodes[request.path]? with
    | none =>
        if request.path ∈ d.snapshot.bindings then
          some (.wrongEntryType request.path .stream .blob)
        else some (.pathNotFound request.path)
    | some current =>
        let pendingFromExpected : Bool := match d.streams[request.path]? with
          | some (.pending pending) => pending.openedFromRevision = request.expectedRevision
          | _ => false
        if request.expectedRevision ≠ some current ∧ ¬pendingFromExpected then
          some (.pathReplaced request.path)
        else none

/-- An open of a path without a stream entry. -/
def bindUnoccupied (request : StreamOpenRequest) : DataDirectory :=
  if request.path ∈ d.snapshot.bindings ∧ ¬request.replace then
    d.answerOpen request (.error (.wrongEntryType request.path .stream .blob))
  else
    let retired := d.boundSource request.path
    match d.bindStream request.path request.operationId retired with
    | (d, .ok receipt) =>
        let d := d.queueRetired retired
        { d with
          streams := d.streams.insert request.path (.pending (request.waiting receipt.revision)) }
    | (d, .error error) => d.answerOpen request (.error error)

/-- The stream of the waiting open and of the one that arrives from the other side. -/
def matched (request : StreamOpenRequest) (pending : PendingStream) : ActiveStream :=
  let incarnation : StreamIncarnation := ⟨d.authorityEpoch, pending.revision⟩
  match request.role with
  | .source =>
      ⟨⟨incarnation, request.endpoint, request.descriptor, pending.descriptor, pending.endpoint,
        pending.revision⟩, request.operationId, pending.operationId⟩
  | .sink =>
      ⟨⟨incarnation, pending.endpoint, pending.descriptor, request.descriptor, request.endpoint,
        pending.revision⟩, pending.operationId, request.operationId⟩

def joinStream (request : StreamOpenRequest) (pending : PendingStream) : DataDirectory :=
  match d.store.recordStreamParticipant request.path request.operationId pending.revision with
  | (store, .error error) => { d with store := store }.answerOpen request (.error error)
  | (store, .ok ()) =>
      let active := d.matched request pending
      let d := ({ d with store := store }.sendStreamResult (pending.opening request.path)
        pending.requestId pending.replyTo (.ok active.binding)).answerOpen request
        (.ok active.binding)
      { d with streams := d.streams.insert request.path (.active active) }

/-- What an open does that is not refused. -/
def placeStream (request : StreamOpenRequest) : DataDirectory :=
  match d.streams[request.path]? with
  | none => d.bindUnoccupied request
  | some (.pending pending) =>
      if pending.operationId = request.operationId then
        if pending.role ≠ request.role ∨ pending.endpoint ≠ request.endpoint then
          d.answerOpen request (.error (.operationConflict request.operationId))
        else
          { d with
            streams := d.streams.insert request.path (.pending
              { pending with requestId := request.requestId, replyTo := request.replyTo }) }
      else if pending.role ≠ request.role then d.joinStream request pending
      else if request.replace then (d.displaceStream request.path).bindUnoccupied request
      else d.answerOpen request (.error (.duplicateStreamRole request.path request.role))
  | some (.active active) =>
      if active.has request.operationId then d.answerOpen request (.ok active.binding)
      else if request.replace then
        { d with streams := d.streams.erase request.path }.beginStreamReplacement request active
      else d.answerOpen request (.error (.duplicateStreamRole request.path request.role))

/-- The checks of an open of a path without a fence. -/
def admitStream (request : StreamOpenRequest) : DataDirectory :=
  match d.store.replay request.operationId (.bindStream request.path) with
  | some (.error error) => d.answerOpen request (.error error)
  | some (.ok receipt) =>
      if ¬d.isCurrent request then
        d.answerOpen request
          (.error (.staleIncarnation request.path ⟨d.authorityEpoch, receipt.revision⟩))
      else
        match d.refusal request with
        | some error => d.answerOpen request (.error error)
        | none => d.placeStream request
  | none =>
      match d.refusal request with
      | some error => d.answerOpen request (.error error)
      | none => d.placeStream request

def openStream (request : StreamOpenRequest) : DataDirectory :=
  match d.streamReplacementFences[request.path]? with
  | some fence => d.holdStreamOpenForFence request fence
  | none => d.admitStream request

/-- Every endpoint of the fence has settled its displacement. -/
def ready (fence : StreamReplacementFence) : Bool :=
  fence.endpoints.all fun endpoint =>
    d.pendingStreamDisplacements[endpoint]?.all fun pending =>
      pending.incarnation ≠ fence.incarnation

/-- The fence of the path is lifted and the opens it held are made. -/
def liftFence (path : DataPath) : DataDirectory :=
  match d.streamReplacementFences[path]? with
  | none => d
  | some fence =>
      fence.requests.foldl openStream
        { d with streamReplacementFences := d.streamReplacementFences.erase path }

/-- The paths whose fence is ready. -/
def readyPaths : List DataPath :=
  (d.streamReplacementFences.toList.filter fun entry => d.ready entry.2).map Prod.fst

def resumeStreamReplacementFences : DataDirectory :=
  d.readyPaths.foldl liftFence d

/-- `PendingStreamDisplacement::retry`, and the removal of what is settled. -/
def retryDisplacement (endpoint : ActorAddress) : DataDirectory :=
  match d.pendingStreamDisplacements[endpoint]? with
  | none => d
  | some pending =>
      if ¬pending.acknowledged then d.send (.displaced endpoint pending.incarnation)
      else
        match d.store.commit (d.snapshot.acknowledge endpoint) with
        | (store, .error _) => { d with store := store }
        | (store, .ok ()) =>
            { d with
              store := store
              pendingStreamDisplacements := d.pendingStreamDisplacements.erase endpoint }

def retryRetirement (env : Surroundings) (target : ActorAddress) : DataDirectory :=
  let d := (d.retryDisplacement target).resumeStreamReplacementFences
  if env.routable target ∧ target ∈ d.pendingRetirements then d.send (.retire target) else d

/-- `RETIREMENT_RETRY_BATCH`. -/
def retirementRetryBatch : ℕ := 32

/-- Every pending displacement once, in an order that the directory does not choose. -/
def displacementOrder (env : Surroundings) : List ActorAddress :=
  env.order.dedup ++ d.pendingStreamDisplacements.keys.filter fun endpoint =>
    endpoint ∉ env.order

/-- The retired sources that a tick asks again. -/
def retirementBatch (env : Surroundings) : List ActorAddress :=
  (env.queue.filter fun source => source ∈ d.pendingRetirements ∧ env.routable source).take
    retirementRetryBatch

def retryRetirements (env : Surroundings) : DataDirectory :=
  let d := (d.displacementOrder env).foldl retryDisplacement d
  let d := (d.retirementBatch env).foldl (fun d source => d.send (.retire source)) d
  d.resumeStreamReplacementFences

def confirmStreamDisplacement (env : Surroundings) (endpoint : ActorAddress)
    (incarnation : StreamIncarnation) : DataDirectory :=
  match d.pendingStreamDisplacements[endpoint]? with
  | none => d
  | some pending =>
      if pending.incarnation ≠ incarnation then d
      else
        { d with
          pendingStreamDisplacements := d.pendingStreamDisplacements.insert endpoint
            { pending with acknowledged := true } }.retryRetirement env endpoint

/-- The entry of the path goes if it is the waiting open of the operation. -/
def withdrawPending (path : DataPath) (operationId : OperationId) : DataDirectory :=
  match d.streams[path]? with
  | some (.pending pending) =>
      if pending.operationId = operationId then { d with streams := d.streams.erase path } else d
  | _ => d

/-- The fence of the path no longer holds an open of the operation. -/
def withdrawHeld (path : DataPath) (operationId : OperationId) : DataDirectory :=
  match d.streamReplacementFences[path]? with
  | none => d
  | some fence =>
      { d with
        streamReplacementFences := d.streamReplacementFences.insert path
          { fence with
            requests := fence.requests.filter fun request =>
              request.operationId ≠ operationId } }

def cancelStream (path : DataPath) (operationId : OperationId) :
    DataDirectory × Except NamespaceError Unit :=
  if operationId ∈ d.snapshot.operations then
    ((d.withdrawPending path operationId).withdrawHeld path operationId, .ok ())
  else
    match d.store.commit (d.snapshot.record operationId (.bindStream path)
        (.rejected (.pathReplaced path))) with
    | (store, .error error) => ({ d with store := store }, .error (.storage error.display))
    | (store, .ok ()) =>
        (({ d with store := store }.withdrawPending path operationId).withdrawHeld path
          operationId, .ok ())

def closeStream (path : DataPath) (incarnation : StreamIncarnation) :
    DataDirectory × Except NamespaceError Unit :=
  let stale := (d, .error (.staleIncarnation path incarnation))
  match d.streams[path]? with
  | some (.active active) =>
      if active.binding.incarnation = incarnation then
        ({ d with streams := d.streams.erase path }, .ok ())
      else stale
  | some (.pending _) => stale
  | none =>
      if incarnation.authorityEpoch = d.authorityEpoch ∧
          d.snapshot.streamNodes[path]? = some incarnation.revision then (d, .ok ())
      else stale

def reserveBlob (path : DataPath) (operationId : OperationId) :
    DataDirectory × Except NamespaceError Unit :=
  if path ∈ d.snapshot.bindings ∨ path ∈ d.snapshot.streamNodes then
    (d, .error (.pathExists path))
  else
    match d.blobReservations[path]? with
    | some existing =>
        if existing = operationId then (d, .ok ()) else (d, .error (.pathExists path))
    | none => ({ d with blobReservations := d.blobReservations.insert path operationId }, .ok ())

def releaseBlobReservation (path : DataPath) (operationId : OperationId) :
    DataDirectory × Except NamespaceError Unit :=
  match d.blobReservations[path]? with
  | some existing =>
      if existing = operationId then
        ({ d with blobReservations := d.blobReservations.erase path }, .ok ())
      else (d, .error (.operationConflict operationId))
  | none => (d, .ok ())

def register (registration : BlobRegistration) (retired : Option ActorAddress) :
    DataDirectory × Except NamespaceError MutationReceipt :=
  let path := registration.path
  let rejected := fun rejection =>
    let (store, result) :=
      d.store.reject registration.operationId registration.request rejection
    ({ d with store := store }, result)
  match d.store.replay registration.operationId registration.request with
  | some replayed => (d, replayed)
  | none =>
      if d.blobReservations[path]? ≠ registration.reservation then
        if path ∈ d.blobReservations then rejected (.pathExists path)
        else rejected (.pathReplaced path)
      else
        match d.store.mutate registration.operationId registration.request
            (registration.edit retired) with
        | (store, .error error) => ({ d with store := store }, .error error)
        | (store, .ok receipt) =>
            ({ d with
              store := store
              blobReservations :=
                if registration.reservation.isSome then d.blobReservations.erase path
                else d.blobReservations
              sources := d.sources.insert path (.available registration.source
                registration.sourceNode registration.recovery.owner) }, .ok receipt)

def resolve (path : DataPath) : Except NamespaceError BlobBinding :=
  if path ∈ d.snapshot.streamNodes then .error (.wrongEntryType path .blob .stream)
  else
    match d.snapshot.bindings[path]? with
    | none => .error (.pathNotFound path)
    | some persisted =>
        match d.sources[path]? with
        | some (.available actor node owner) =>
            .ok ⟨actor, node, owner, persisted.length, persisted.revision⟩
        | some (.unavailable reason) => .error (.sourceRecovery reason)
        | none =>
            .error (.sourceRecovery
              ("binding " ++ toString path ++ " has no recovered runtime source"))

def lookup (path : DataPath) : Except NamespaceError NamespaceNode :=
  if path ∈ d.blobReservations then .error (.pathExists path)
  else
    match d.snapshot.bindings[path]?, d.snapshot.streamNodes[path]? with
    | some binding, none => .ok ⟨.blob, binding.revision, false⟩
    | none, some revision => .ok ⟨.stream, revision, path ∈ d.streams⟩
    | none, none => .error (.pathNotFound path)
    | some _, some _ =>
        .error (.storage ("data path " ++ toString path ++ " is bound as both blob and stream"))

def unregister (d : DataDirectory) (path : DataPath) (operationId : OperationId)
    (retired : Option ActorAddress) : DataDirectory × Except NamespaceError MutationReceipt :=
  let rejected := fun rejection =>
    let (store, result) := d.store.reject operationId (.unregister path) rejection
    ({ d with store := store }, result)
  match d.store.replay operationId (.unregister path) with
  | some replayed => (d, replayed)
  | none =>
      if path ∈ d.blobReservations then rejected (.pathExists path)
      else if path ∉ d.snapshot.bindings ∧ path ∉ d.snapshot.streamNodes then
        rejected (.pathNotFound path)
      else
        match d.store.mutate operationId (.unregister path) fun _ snapshot =>
            (snapshot.unbound path).retire retired with
        | (store, .error error) => ({ d with store := store }, .error error)
        | (store, .ok receipt) =>
            ({ d with store := store, sources := d.sources.erase path }, .ok receipt)

/-- Why a rename is rejected. -/
def renameRejection (source destination : DataPath) (replace : Bool) : Option MutationRejection :=
  if source ∉ d.snapshot.bindings ∧ source ∉ d.snapshot.streamNodes then
    some (.pathNotFound source)
  else if source ∈ d.blobReservations then some (.pathExists source)
  else if destination ∈ d.blobReservations then some (.pathExists destination)
  else if source ∈ d.streams then some (.streamActive source)
  else if destination ∈ d.streams then some (.streamActive destination)
  else if source ≠ destination ∧
      (destination ∈ d.snapshot.bindings ∨ destination ∈ d.snapshot.streamNodes) ∧
      ¬replace then some (.pathExists destination)
  else none

/-- The source of a renamed path moves with it. -/
def moveSource (sources : ExtTreeMap DataPath RuntimeSource compare)
    (source destination : DataPath) : ExtTreeMap DataPath RuntimeSource compare :=
  let rest := (sources.erase source).erase destination
  match sources[source]? with
  | none => rest
  | some runtime => rest.insert destination runtime

def rename (d : DataDirectory) (source destination : DataPath) (replace : Bool)
    (operationId : OperationId) : DataDirectory × Except NamespaceError MutationReceipt :=
  let request := MutationRequest.rename source destination replace
  match d.store.replay operationId request with
  | some replayed => (d, replayed)
  | none =>
      match d.renameRejection source destination replace with
      | some rejection =>
          let (store, result) := d.store.reject operationId request rejection
          ({ d with store := store }, result)
      | none =>
          let retired := if source = destination then none else d.boundSource destination
          match d.store.mutate operationId request fun revision snapshot =>
              (snapshot.moved source destination revision).retire retired with
          | (store, .error error) => ({ d with store := store }, .error error)
          | (store, .ok receipt) =>
              ({ d with
                store := store
                sources := moveSource d.sources source destination }, .ok receipt)

/-- The source that a mutation of the path retires, unless the operation is a retry. -/
def retiredBy (operationId : OperationId) (path : DataPath) : Option ActorAddress :=
  if operationId ∈ d.snapshot.operations then none else d.boundSource path

def handle (env : Surroundings) : DataDirectoryIn → DataDirectory
  | .register requestId registration replyTo =>
      let retired := (d.retiredBy registration.operationId registration.path).filter fun actor =>
        actor ≠ registration.source
      let (d, result) := d.register registration retired
      let d := if result.isOk then (d.queueRetired retired).displaceStream registration.path
        else d
      d.send (.reply replyTo (.registered requestId d.authorityEpoch result))
  | .resolve requestId path replyTo =>
      d.send (.reply replyTo (.resolved requestId d.authorityEpoch (d.resolve path)))
  | .lookup requestId path replyTo =>
      d.send (.reply replyTo (.lookedUp requestId d.authorityEpoch (d.lookup path)))
  | .reserveBlob requestId path operationId replyTo =>
      let (d, result) := d.reserveBlob path operationId
      d.send (.reply replyTo (.blobReserved requestId d.authorityEpoch result))
  | .releaseBlobReservation requestId path operationId replyTo =>
      let (d, result) := d.releaseBlobReservation path operationId
      d.send (.reply replyTo (.blobReservationReleased requestId d.authorityEpoch result))
  | .unregister requestId path operationId replyTo =>
      if path ∈ d.streams then
        d.send (.reply replyTo (.unregistered requestId d.authorityEpoch
          (.error (.wrongEntryType path .blob .stream))))
      else
        let retired := d.retiredBy operationId path
        let (d, result) := d.unregister path operationId retired
        let d := if result.isOk then d.queueRetired retired else d
        d.send (.reply replyTo (.unregistered requestId d.authorityEpoch result))
  | .rename requestId source destination replace operationId replyTo =>
      let retired := if source = destination then none else d.retiredBy operationId destination
      let (d, result) := d.rename source destination replace operationId
      let d := if result.isOk then d.queueRetired retired else d
      d.send (.reply replyTo (.renamed requestId d.authorityEpoch result))
  | .openStream request => d.openStream request
  | .cancelStream requestId path operationId replyTo =>
      let (d, result) := d.cancelStream path operationId
      match replyTo with
      | none => d
      | some replyTo =>
          d.send (.reply replyTo (.streamCancelled requestId d.authorityEpoch result))
  | .closeStream requestId path incarnation replyTo =>
      let (d, result) := d.closeStream path incarnation
      d.send (.reply replyTo (.streamClosed requestId d.authorityEpoch result))
  | .sourceRetired source => d.confirmRetirement source
  | .streamDisplaced endpoint incarnation => d.confirmStreamDisplacement env endpoint incarnation
  | .retryRetirements => d.retryRetirements env
  | .retirementRouteChanged target => d.retryRetirement env target

/-- The directory as it begins to handle a message. -/
def received (env : Surroundings) : DataDirectory :=
  { d with sent := [], store := { d.store with fates := env.fates } }

end

/-- The runtime source of a binding after a restart. -/
def recoverSource (env : Surroundings) (path : DataPath) (binding : PersistedBinding) :
    RuntimeSource :=
  match env.recoverSource path binding.recovery binding.length with
  | .ok (actor, node) => .available actor node binding.recovery.owner
  | .error reason => .unavailable reason

/-- The endpoint has not acknowledged the displacement of a stream that its path still names. -/
def rebuildFence (streamNodes : ExtTreeMap DataPath ℕ compare)
    (fences : ExtTreeMap DataPath StreamReplacementFence compare)
    (entry : ActorAddress × StreamIncarnation) :
    ExtTreeMap DataPath StreamReplacementFence compare :=
  match streamNodes.toList.find? fun node => node.2 = entry.2.revision with
  | none => fences
  | some (path, _) =>
      let fence := fences[path]?.getD ⟨entry.2, [], none, []⟩
      fences.insert path
        (if fence.incarnation = entry.2 then
          { fence with endpoints := fence.endpoints.insert entry.1 }
        else fence)

/-- The directory as it is rebuilt from the snapshot, in the next epoch. -/
def rebuild (env : Surroundings) (store : NamespaceStore) (snapshot : NamespaceSnapshot) :
    DataDirectory where
  store := store
  sources := snapshot.bindings.map fun path binding => recoverSource env path binding
  pendingRetirements := ExtTreeSet.ofList snapshot.retirements compare
  pendingStreamDisplacements := snapshot.streamRetirements.foldl (fun pending entry =>
    pending.insert entry.1 ⟨entry.2, false⟩) ∅
  streamReplacementFences :=
    snapshot.streamRetirements.foldl (rebuildFence snapshot.streamNodes) ∅
  authorityEpoch := store.snapshot.authorityEpoch

/-- The directory or, if it does not start, what is in the file then. -/
def recover (env : Surroundings) (file : NamespaceSnapshot) :
    Except NamespaceSnapshot DataDirectory :=
  match file.validate, checkedAdd file.authorityEpoch 1 with
  | .ok (), some epoch =>
      match (NamespaceStore.mk file file env.fates).commit
          { file with authorityEpoch := epoch } with
      | (store, .error _) => .error store.file
      | (store, .ok ()) => .ok (rebuild env store file)
  | _, _ => .error file

end DataDirectory

/-- The directory with its file, and whether it is running. -/
inductive Authority
  | down (file : NamespaceSnapshot)
  | up (directory : DataDirectory)

inductive AuthorityAction
  | deliver (message : DataDirectoryIn) (env : Surroundings)
  | crash
  | restart (env : Surroundings)

namespace Authority

/-- Nothing has been written yet. -/
def initial : Authority := .down {}

/-- What is in the file. -/
def file : Authority → NamespaceSnapshot
  | .down file => file
  | .up d => d.store.file

def start (env : Surroundings) (file : NamespaceSnapshot) : Authority :=
  match DataDirectory.recover env file with
  | .error file => .down file
  | .ok d => .up (d.retryRetirements env)

/-- `sent` is what the last step sent. Messages to an authority that is down are lost. -/
def step (s : Authority) : AuthorityAction → Authority
  | .deliver message env =>
      match s with
      | .down file => .down file
      | .up d => .up ((d.received env).handle env message)
  | .crash => .down s.file
  | .restart env => start env s.file

def run (actions : List AuthorityAction) : Authority :=
  actions.foldl step initial

end Authority

end Swactor.Namespace
