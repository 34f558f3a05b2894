import Swactor.Host.BlobBinding

/-!
# The session of a child process

One actor stands between a child process and the data plane. It checks what the child asks
against its access, has the namespace looked up, and spawns an actor for every request of the
namespace and for every open: the kind of entry and the flags of the open decide which.

What the calls of a step return is an input. The arena, the transport and the addresses of the
services are left out; a service is there or not. What a drained table makes the session send is
in the order of the keys.
-/
namespace Swactor.Host

open Std (ExtTreeMap)
open Namespace (DataPath OperationId NamespaceError NamespaceNode NamespaceClientIn StreamRole)
open Paths (SessionAccess)

inductive HostSessionState
  | awaitingAttachment
  | running
  | revoked
  | closing
  | closed
deriving DecidableEq, Repr

structure PendingOpen where
  childSession : ActorAddress
  path : Paths.DataPath
  options : OpenOptions
deriving DecidableEq

inductive ChildSessionIn
  | attachmentFailed (failure : AttachmentFailure)
  | attached (sessionGeneration : ℕ)
  | operationFailed (operation : ActorAddress) (error : HostError)
  | namespaceResolved (replyTo : ActorAddress) (result : Except HostError NamespaceOperationResult)
  | closeCompleted (result : Except HostError Unit)
deriving DecidableEq

/-- What a session sends, spawns and does to the routes. -/
inductive SessionEffect
  | child (target : ActorAddress) (message : ChildSessionIn)
  | reply (target : ActorAddress) (result : Except HostError Unit)
  | helper (actor : ActorAddress) (task : HelperTask)
  | blob (binding : BlobBinding)
  | stream (binding : StreamBinding)
  | toBlob (binding : ActorAddress) (message : HostBindingIn)
  | toStream (binding : ActorAddress) (message : HostStreamIn)
  | client (message : NamespaceClientIn)
  | stopActor (actor : ActorAddress)
  | stopAllocator
  | registerChild (child : ActorAddress) (node : NodeId)
  | revokeChild (child : ActorAddress)

/-- What the calls of a step return. -/
structure SessionServices where
  spawn : Except String ActorAddress := .ok 0
  registerChild : Except String Unit := .ok ()
  descriptor : Except String (List UInt8) := .ok []
  publish : Except String Unit := .ok ()

/-- `namespace` and the four fields after it say which services are there. `sent` is what the
last step did. -/
structure Session where
  self : ActorAddress
  arenaGeneration : ℕ
  sessionGeneration : ℕ
  capability : ℕ
  access : SessionAccess
  «namespace» : Bool := true
  receiver : Bool := true
  routes : Bool := true
  publisher : Bool := true
  transport : Bool := true
  childSession : Option ActorAddress := none
  activeBindings : List ActorAddress := []
  streamBindings : ExtTreeMap ActorAddress ActorAddress compare := ∅
  pendingOpens : ExtTreeMap ActorAddress PendingOpen compare := ∅
  openLookups : ExtTreeMap ActorAddress ActorAddress compare := ∅
  namespaceOperations : ExtTreeMap ActorAddress ActorAddress compare := ∅
  state : HostSessionState := .awaitingAttachment
  closeReplies : List ActorAddress := []
  childCloseReply : Option ActorAddress := none
  stopped : Bool := false
  sent : List SessionEffect := []

/-- What a session is made of. -/
structure SessionConfig where
  self : ActorAddress
  arenaGeneration : ℕ
  sessionGeneration : ℕ
  capability : ℕ
  access : SessionAccess
  «namespace» : Bool := true
  receiver : Bool := true
  routes : Bool := true
  publisher : Bool := true
  transport : Bool := true

namespace Session

def new (config : SessionConfig) : Except HostError Session :=
  if config.arenaGeneration = 0 ∨ config.sessionGeneration = 0 then
    .error (.sessionFailed "session and arena generations must be nonzero")
  else
    match config.access.validate with
    | .error error => .error (.invalidPath error.display)
    | .ok () =>
        .ok {
          self := config.self
          arenaGeneration := config.arenaGeneration
          sessionGeneration := config.sessionGeneration
          capability := config.capability
          access := config.access
          «namespace» := config.namespace
          receiver := config.receiver
          routes := config.routes
          publisher := config.publisher
          transport := config.transport }

variable (s : Session) (env : SessionServices)

def emit (effect : SessionEffect) : Session :=
  { s with sent := s.sent ++ [effect] }

def emitAll (effects : List SessionEffect) : Session :=
  { s with sent := s.sent ++ effects }

def sendOpenFailure (childSession operation : ActorAddress) (error : HostError) : Session :=
  s.emit (.child childSession (.operationFailed operation error))

def sendNamespaceResult (childSession operation : ActorAddress)
    (result : Except HostError NamespaceOperationResult) : Session :=
  s.emit (.child childSession (.namespaceResolved operation result))

def validateOpen (childSession : ActorAddress) (logical : Paths.DataPath) (access : AccessMode) :
    Except HostError Paths.DataPath :=
  if s.state ≠ .running ∨ s.childSession ≠ some childSession then .error .sessionNotRunning
  else
    match s.access.resolve logical with
    | .error error => .error (.invalidPath error.display)
    | .ok resolved =>
        if (!access.canRead || s.access.canRead resolved) &&
            (!access.canWrite || s.access.canWrite resolved) then .ok resolved
        else .error (.unauthorized resolved.number access)

/-- The operation with the paths that it means. -/
def validateNamespaceOperation (childSession : ActorAddress) :
    NamespaceOperation Paths.DataPath → Except HostError (NamespaceOperation Paths.DataPath)
  | .lookup path => do
      let path ← s.validateOpen childSession path .readOnly
      return .lookup path
  | .unlink path => do
      let path ← s.validateOpen childSession path .writeOnly
      return .unlink path
  | .rename source destination replace => do
      let source ← s.validateOpen childSession source .writeOnly
      let destination ← s.validateOpen childSession destination .writeOnly
      return .rename source destination replace

def spawnBlobRead (childSession operation : ActorAddress) (path : Paths.DataPath)
    (expectedRevision : Option ℕ) : Session :=
  if !s.namespace ∨ !s.receiver then
    s.sendOpenFailure childSession operation
      (.sessionFailed "data namespace service is unavailable")
  else
    match env.spawn with
    | .ok binding =>
        { s.emit
            (.blob (.namespaceRead binding operation path.number expectedRevision s.routes)) with
          activeBindings := s.activeBindings.insert binding }
    | .error reason => s.sendOpenFailure childSession operation (.sessionFailed reason)

def spawnBlobWrite (childSession operation : ActorAddress) (path : Paths.DataPath)
    (allocation : BlobAllocation) (reservation : Option OperationId) : Session :=
  match env.spawn with
  | .ok binding =>
      { s.emit (.blob (.write binding operation path.number allocation.length allocation.digest
          reservation s.namespace s.publisher)) with
        activeBindings := s.activeBindings.insert binding }
  | .error reason =>
      let cancel := match s.namespace, reservation with
        | true, some reservation =>
            [SessionEffect.client (.cancelBlobReservation path.number reservation s.self)]
        | _, _ => []
      (s.emitAll cancel).sendOpenFailure childSession operation (.sessionFailed reason)

def spawnStream (childSession operation : ActorAddress) (spawn : StreamSpawn) : Session :=
  if !s.namespace ∨ !s.transport then
    s.sendOpenFailure childSession operation
      (.sessionFailed "stream namespace or transport service is unavailable")
  else
    match env.descriptor with
    | .error reason => s.sendOpenFailure childSession operation (.streamFault reason)
    | .ok descriptor =>
        match env.spawn with
        | .error reason => s.sendOpenFailure childSession operation (.sessionFailed reason)
        | .ok binding =>
            let s := s.emit (.stream (spawn.binding binding descriptor))
            let published := if s.publisher then env.publish else .ok ()
            match published with
            | .error reason =>
                (s.emit (.stopActor binding)).sendOpenFailure childSession operation
                  (.sessionFailed ("publish stream endpoint: " ++ reason))
            | .ok () => { s with streamBindings := s.streamBindings.insert operation binding }

def revokeChildRoute : Session :=
  if s.routes then s.emitAll (s.childSession.toList.map SessionEffect.revokeChild) else s

def revokeSession (revokeRoute : Bool) : Session :=
  if s.state = .revoked ∨ s.state = .closing ∨ s.state = .closed then s
  else
    let s := { s with state := .revoked }
    let s := if revokeRoute then s.revokeChildRoute else s
    { s.emitAll (
        s.openLookups.toList.map (fun entry => SessionEffect.stopActor entry.2) ++
        s.namespaceOperations.toList.map (fun entry => SessionEffect.stopActor entry.2) ++
        s.pendingOpens.toList.map (fun entry =>
          SessionEffect.child entry.2.childSession (.operationFailed entry.1 .sessionNotRunning)) ++
        s.activeBindings.map (fun binding => SessionEffect.toBlob binding .sessionClosed) ++
        s.streamBindings.toList.map (fun entry =>
          SessionEffect.toStream entry.2 (.close false none))) with
      openLookups := ∅
      namespaceOperations := ∅
      pendingOpens := ∅ }

/-- Nothing that the session has started is left. -/
def isDrained : Bool :=
  s.activeBindings.isEmpty && s.streamBindings.isEmpty && s.pendingOpens.isEmpty &&
    s.openLookups.isEmpty && s.namespaceOperations.isEmpty

def maybeFinishClose : Session :=
  if s.state = .closing ∧ s.isDrained then
    let s := { s.emitAll (.stopAllocator ::
        (s.closeReplies.map (fun replyTo => SessionEffect.reply replyTo (.ok ())) ++
        s.childCloseReply.toList.map (fun child => .child child (.closeCompleted (.ok ()))))) with
      state := .closed
      closeReplies := []
      childCloseReply := none }
    { s.revokeChildRoute with stopped := true }
  else s

def beginClose (replyTo : Option ActorAddress) : Session :=
  if s.state = .closed then
    s.emitAll (replyTo.toList.map fun replyTo => SessionEffect.reply replyTo (.ok ()))
  else
    let s := { s with closeReplies := s.closeReplies ++ replyTo.toList }
    { s.revokeSession false with state := .closing }.maybeFinishClose

def beginChildClose (childSession : ActorAddress) : Session :=
  if s.childSession ≠ some childSession then
    s.emit (.child childSession (.closeCompleted (.error .sessionNotRunning)))
  else if s.state = .closed then s.emit (.child childSession (.closeCompleted (.ok ())))
  else { s with childCloseReply := some childSession }.beginClose none

/-- Why an attachment is refused before and after the route of the child is installed. -/
def attachFailure (arenaGeneration sessionCapability : ℕ) (routed : Bool) :
    Option AttachmentFailure :=
  if s.state = .revoked ∨ s.state = .closing ∨ s.state = .closed then some .sessionClosed
  else if s.childSession.isSome then some .duplicateAttachment
  else
    match if routed then env.registerChild else .ok () with
    | .error reason => some (.routeRejected reason)
    | .ok () =>
        if arenaGeneration ≠ s.arenaGeneration then
          some (.arenaGenerationMismatch s.arenaGeneration arenaGeneration)
        else if sessionCapability ≠ s.capability then some .capabilityRejected
        else none

/-- The route of the child is installed and stays if the attachment succeeds. -/
def attach (childSession : ActorAddress) (arenaGeneration sessionCapability : ℕ)
    (childNode : Option NodeId) : Session :=
  let node := if s.routes then childNode else none
  match s.attachFailure env arenaGeneration sessionCapability node.isSome with
  | none =>
      { s.emitAll (node.toList.map (SessionEffect.registerChild childSession) ++
          [.child childSession (.attached s.sessionGeneration)]) with
        childSession := some childSession
        state := .running }
  | some failure =>
      let routed := match failure with
        | .arenaGenerationMismatch _ _ | .capabilityRejected => true
        | _ => false
      let installed := if routed then node.toList else []
      s.emitAll (installed.map (SessionEffect.registerChild childSession) ++
        .child childSession (.attachmentFailed failure) ::
        installed.map fun _ => .revokeChild childSession)

/-- The paths of an operation as the directory has them. -/
def numbered : NamespaceOperation Paths.DataPath → NamespaceOperation DataPath
  | .lookup path => .lookup path.number
  | .unlink path => .unlink path.number
  | .rename source destination replace => .rename source.number destination.number replace

def controlNamespace (operation : ActorAddress) (request : NamespaceOperation Paths.DataPath)
    (childSession : ActorAddress) : Session :=
  match s.validateNamespaceOperation childSession request with
  | .error error => s.sendNamespaceResult childSession operation (.error error)
  | .ok request =>
      if !s.namespace then
        s.sendNamespaceResult childSession operation
          (.error (.sessionFailed "data namespace service is unavailable"))
      else
        match env.spawn with
        | .ok actor =>
            { s.emit (.helper actor (.control operation childSession (numbered request))) with
              namespaceOperations := s.namespaceOperations.insert operation actor }
        | .error reason =>
            s.sendNamespaceResult childSession operation (.error (.sessionFailed reason))

/-- The side of a stream that an access means. -/
def streamRole : AccessMode → Except HostError StreamRole
  | .readOnly => .ok .sink
  | .writeOnly => .ok .source
  | .readWrite => .error (.unsupported "read-write stream descriptors are not supported")

/-- An open that makes a stream of the path if it has to. -/
def openEnsured (childSession operation : ActorAddress) (path : Paths.DataPath)
    (options : OpenOptions) (replace : Bool) : Session :=
  if options.forBlob then
    s.sendOpenFailure childSession operation
      (.invalidArgument "stream ensure policy does not accept blob creation flags")
  else
    match streamRole options.access with
    | .error error => s.sendOpenFailure childSession operation error
    | .ok role =>
        s.spawnStream env childSession operation
          { path := path.number, role := role, replace := replace, ensure := true }

/-- An open waits for an actor that asks the namespace. -/
def await (operation : ActorAddress) (pending : PendingOpen) (task : HelperTask) : Session :=
  match env.spawn with
  | .ok actor =>
      { s.emit (.helper actor task) with
        pendingOpens := s.pendingOpens.insert operation pending
        openLookups := s.openLookups.insert operation actor }
  | .error reason =>
      { s with pendingOpens := s.pendingOpens.erase operation }.sendOpenFailure
        pending.childSession operation (.sessionFailed reason)

def openPath (path : Paths.DataPath) (options : OpenOptions) (policy : OpenPolicy)
    (childSession operation : ActorAddress) : Session :=
  match options.validate with
  | .error error => s.sendOpenFailure childSession operation error
  | .ok () =>
      match s.validateOpen childSession path options.access with
      | .error error => s.sendOpenFailure childSession operation error
      | .ok resolved =>
          match policy with
          | .ensureStream replace =>
              s.openEnsured env childSession operation resolved options replace
          | .ordinary =>
              if !s.namespace then
                s.sendOpenFailure childSession operation
                  (.sessionFailed "data namespace service is unavailable")
              else
                s.await env operation ⟨childSession, resolved, options⟩
                  (.openLookup operation resolved.number)

/-- The path is free and the open may create a blob there. -/
def openAbsent (operation : ActorAddress) (pending : PendingOpen) : Session :=
  match pending.options.allocation with
  | none =>
      s.sendOpenFailure pending.childSession operation
        (.unsupported "fixed-length blob creation requires allocation metadata")
  | some allocation =>
      if pending.options.exclusive then
        s.await env operation pending
          (.blobReserve operation pending.path.number (namespaceOperationId operation))
      else s.spawnBlobWrite env pending.childSession operation pending.path allocation none

def openBlob (operation : ActorAddress) (pending : PendingOpen) (revision : ℕ) : Session :=
  let options := pending.options
  if options.create ∧ options.exclusive then
    s.sendOpenFailure pending.childSession operation (.pathExists pending.path.number)
  else if options.access = .readOnly ∧ !options.create ∧ !options.truncate ∧
      options.allocation.isNone then
    s.spawnBlobRead env pending.childSession operation pending.path (some revision)
  else if options.access.canWrite ∧ options.truncate then
    match options.allocation with
    | none =>
        s.sendOpenFailure pending.childSession operation
          (.unsupported "fixed-length blob replacement requires allocation metadata")
    | some allocation =>
        s.spawnBlobWrite env pending.childSession operation pending.path allocation none
  else
    s.sendOpenFailure pending.childSession operation
      (.unsupported "non-truncating writable blob opens are not supported")

def openStreamNode (operation : ActorAddress) (pending : PendingOpen) (revision : ℕ) : Session :=
  if pending.options.forBlob then
    s.sendOpenFailure pending.childSession operation
      (.wrongEntryType pending.path.number .blob .stream)
  else
    match streamRole pending.options.access with
    | .error error => s.sendOpenFailure pending.childSession operation error
    | .ok role =>
        s.spawnStream env pending.childSession operation
          { path := pending.path.number, role := role, expectedRevision := some revision }

def openResolved (operation : ActorAddress) (result : Except NamespaceError NamespaceNode) :
    Session :=
  let s := { s with openLookups := s.openLookups.erase operation }
  match s.pendingOpens[operation]? with
  | none => s
  | some pending =>
      let s := { s with pendingOpens := s.pendingOpens.erase operation }
      let failed := fun error =>
        s.sendOpenFailure pending.childSession operation (HostError.ofNamespace error)
      match result with
      | .error (.pathNotFound path) =>
          if pending.options.create then s.openAbsent env operation pending
          else failed (.pathNotFound path)
      | .error error => failed error
      | .ok node =>
          match node.kind with
          | .blob => s.openBlob env operation pending node.revision
          | .stream => s.openStreamNode env operation pending node.revision

/-- A reserved open always has an allocation; without one the source panics. -/
def blobReserved (operation : ActorAddress) (reservedPath : DataPath) (reservation : OperationId)
    (result : Except NamespaceError Unit) : Session :=
  let s := { s with openLookups := s.openLookups.erase operation }
  match s.pendingOpens[operation]? with
  | none =>
      if result.isOk ∧ s.namespace then
        s.emit (.client (.cancelBlobReservation reservedPath reservation s.self))
      else s
  | some pending =>
      let s := { s with pendingOpens := s.pendingOpens.erase operation }
      match result with
      | .error error =>
          s.sendOpenFailure pending.childSession operation (HostError.ofNamespace error)
      | .ok () =>
          match pending.options.allocation with
          | none => { s with stopped := true }
          | some allocation =>
              s.spawnBlobWrite env pending.childSession operation pending.path allocation
                (some reservation)

def cancelOpen (s : Session) (operation : ActorAddress) : Session :=
  let lookup := s.openLookups[operation]?.toList.map SessionEffect.stopActor
  let streams := s.streamBindings[operation]?.toList.map fun binding =>
    SessionEffect.toStream binding (.close false none)
  { s.emitAll (lookup ++
      s.activeBindings.map (fun binding => .toBlob binding (.cancelOpen operation)) ++ streams) with
    pendingOpens := s.pendingOpens.erase operation
    openLookups := s.openLookups.erase operation }

/-- A message for a blob binding of the session is passed on. -/
def forward (binding : ActorAddress) (message : HostBindingIn) : Session :=
  if binding ∈ s.activeBindings then s.emit (.toBlob binding message) else s

/-- Only the execution id changes, and only before a child has attached. -/
def configureExecution (executionId : List Char) (replyTo : ActorAddress) : Session :=
  if s.state ≠ .awaitingAttachment ∨ s.childSession.isSome then
    s.emit (.reply replyTo (.error .sessionNotRunning))
  else
    let access := { s.access with executionId := executionId }
    match access.validate with
    | .ok () => { s with access := access }.emit (.reply replyTo (.ok ()))
    | .error error => s.emit (.reply replyTo (.error (.invalidPath error.display)))

def handle : HostSessionIn → Session
  | .attach childSession arenaGeneration sessionCapability childNode =>
      s.attach env childSession arenaGeneration sessionCapability childNode
  | .namespace operation request childSession =>
      s.controlNamespace env operation request childSession
  | .namespaceResolved operation childSession result =>
      let answered := if operation ∈ s.namespaceOperations then
          { s with
            namespaceOperations := s.namespaceOperations.erase operation }.sendNamespaceResult
            childSession operation result
        else s
      answered.maybeFinishClose
  | .cancelNamespace operation =>
      { s.emitAll (s.namespaceOperations[operation]?.toList.map SessionEffect.stopActor) with
        namespaceOperations := s.namespaceOperations.erase operation }.maybeFinishClose
  | .openPath path options policy childSession operation =>
      s.openPath env path options policy childSession operation
  | .openResolved operation result => s.openResolved env operation result
  | .blobReserved operation path reservation result =>
      s.blobReserved env operation path reservation result
  | .cancelOpen operation => s.cancelOpen operation
  | .streamControl binding message =>
      if s.streamBindings.toList.any fun entry => entry.2 = binding then
        s.emit (.toStream binding message)
      else s
  | .releaseBlob binding leaseId generation => s.forward binding (.release leaseId generation)
  | .sealWriteBlob binding operation lease metadata =>
      s.forward binding (.sealWrite operation lease metadata)
  | .abortWriteBlob binding operation leaseId generation =>
      s.forward binding (.abort operation leaseId generation)
  | .bindingFaulted binding operation error =>
      if binding ∈ s.activeBindings then
        s.emitAll (s.childSession.toList.map fun child =>
          .child child (.operationFailed operation error))
      else s
  | .bindingDone binding | .bindingDetached binding =>
      { s with
        activeBindings := s.activeBindings.erase binding
        streamBindings :=
          s.streamBindings.filter fun _ stream => stream ≠ binding }.maybeFinishClose
  | .configureExecution executionId replyTo => s.configureExecution executionId replyTo
  | .revoke => s.revokeSession true
  | .close replyTo => s.beginClose replyTo
  | .closeChild childSession => s.beginChildClose childSession

/-- One message. A session that has stopped handles none. -/
def step (input : HostSessionIn × SessionServices) : Session :=
  if s.stopped then { s with sent := [] } else { s with sent := [] }.handle input.2 input.1

end Session

end Swactor.Host
