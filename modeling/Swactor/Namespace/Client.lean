import Swactor.Namespace.Directory

/-!
# The proxy of the namespace

Actors do not talk to the directory but to a proxy on their node, which numbers their requests,
sends them, and sends them again at every tick until a reply comes. A request that is not answered
within the deadline fails. An open that is cancelled or that expires may have reached the
directory, so the proxy takes it back with a request of its own, which has no deadline.

The timer and the addresses of the directories are left out: whether a directory is known, which
epochs are accepted, what time it is, and in which order the table of requests is visited, are
inputs of every step.
-/
namespace Swactor.Namespace

open Std (ExtTreeMap)

/-- What an open asks for. -/
structure StreamOpen where
  path : DataPath
  role : StreamRole
  endpoint : ActorAddress
  descriptor : List UInt8
  replace : Bool
  ensure : Bool
  expectedRevision : Option ℕ
  operationId : OperationId
deriving DecidableEq, Repr

inductive NamespaceRequest
  | register (registration : BlobRegistration)
  | resolve (path : DataPath)
  | lookup (path : DataPath)
  | reserveBlob (path : DataPath) (operationId : OperationId)
  | releaseBlobReservation (path : DataPath) (operationId : OperationId)
  | unregister (path : DataPath) (operationId : OperationId)
  | rename (source destination : DataPath) (replace : Bool) (operationId : OperationId)
  | openStream (request : StreamOpen)
  | cancelStream (path : DataPath) (operationId : OperationId)
  | closeStream (path : DataPath) (incarnation : StreamIncarnation)
deriving DecidableEq, Repr

namespace NamespaceRequest

/-- The message that carries the request to the directory. -/
def message (requestId : ℕ) (replyTo : ActorAddress) : NamespaceRequest → DataDirectoryIn
  | .register registration => .register requestId registration replyTo
  | .resolve path => .resolve requestId path replyTo
  | .lookup path => .lookup requestId path replyTo
  | .reserveBlob path operationId => .reserveBlob requestId path operationId replyTo
  | .releaseBlobReservation path operationId =>
      .releaseBlobReservation requestId path operationId replyTo
  | .unregister path operationId => .unregister requestId path operationId replyTo
  | .rename source destination replace operationId =>
      .rename requestId source destination replace operationId replyTo
  | .openStream request =>
      .openStream ⟨requestId, request.path, request.role, request.endpoint, request.replace,
        request.ensure, request.expectedRevision, request.descriptor, request.operationId, replyTo⟩
  | .cancelStream path operationId => .cancelStream requestId path operationId (some replyTo)
  | .closeStream path incarnation => .closeStream requestId path incarnation replyTo

/-- The requests that take something back. They have no deadline and outlive their caller. -/
def isRetraction : NamespaceRequest → Bool
  | .closeStream _ _ | .cancelStream _ _ => true
  | _ => false

/-- The open that has to be taken back if the request is given up. -/
def opens : NamespaceRequest → Option (DataPath × OperationId)
  | .openStream request => some (request.path, request.operationId)
  | _ => none

end NamespaceRequest

/-- A reply of the directory as it reaches the proxy. -/
inductive DirectoryReply
  | plain (out : DataDirectoryOut)
  | streamOpened (requestId authorityEpoch : ℕ) (result : Except NamespaceError StreamMatch)
deriving DecidableEq

def DataDirectoryOut.requestId : DataDirectoryOut → ℕ
  | .registered requestId _ _ | .resolved requestId _ _ | .lookedUp requestId _ _
  | .blobReserved requestId _ _ | .blobReservationReleased requestId _ _
  | .unregistered requestId _ _ | .renamed requestId _ _ | .streamClosed requestId _ _
  | .streamCancelled requestId _ _ => requestId

def DataDirectoryOut.authorityEpoch : DataDirectoryOut → ℕ
  | .registered _ epoch _ | .resolved _ epoch _ | .lookedUp _ epoch _ | .blobReserved _ epoch _
  | .blobReservationReleased _ epoch _ | .unregistered _ epoch _ | .renamed _ epoch _
  | .streamClosed _ epoch _ | .streamCancelled _ epoch _ => epoch

namespace DirectoryReply

def requestId : DirectoryReply → ℕ
  | .plain out => out.requestId
  | .streamOpened requestId _ _ => requestId

def authorityEpoch : DirectoryReply → ℕ
  | .plain out => out.authorityEpoch
  | .streamOpened _ epoch _ => epoch

end DirectoryReply

/-- `expired_reply`. -/
def expiredReply (requestId : ℕ) (request : NamespaceRequest) : DirectoryReply :=
  let failure := NamespaceError.directoryUnavailable
    "no namespace authority was discoverable within the request deadline"
  match request with
  | .register _ => .plain (.registered requestId 0 (.error failure))
  | .resolve _ => .plain (.resolved requestId 0 (.error failure))
  | .lookup _ => .plain (.lookedUp requestId 0 (.error failure))
  | .reserveBlob _ _ => .plain (.blobReserved requestId 0 (.error failure))
  | .releaseBlobReservation _ _ => .plain (.blobReservationReleased requestId 0 (.error failure))
  | .unregister _ _ => .plain (.unregistered requestId 0 (.error failure))
  | .rename _ _ _ _ => .plain (.renamed requestId 0 (.error failure))
  | .openStream _ => .streamOpened requestId 0 (.error failure)
  | .cancelStream _ _ => .plain (.streamCancelled requestId 0 (.error failure))
  | .closeStream _ _ => .plain (.streamClosed requestId 0 (.error failure))

structure PendingRequest where
  request : NamespaceRequest
  replyTo : ActorAddress
  enqueued : ℕ
deriving DecidableEq, Repr

inductive NamespaceClientIn
  | request (request : NamespaceRequest) (replyTo : ActorAddress)
  | cancel (replyTo : ActorAddress)
  | cancelBlobReservation (path : DataPath) (operationId : OperationId) (replyTo : ActorAddress)
  | directoryReply (reply : DirectoryReply)
  | transferFailed (destination : ActorAddress) (transferId : ℕ) (reason : String)
  | retry
deriving DecidableEq

inductive ClientEffect
  | dispatched (message : DataDirectoryIn)
  | replied (target : ActorAddress) (reply : DirectoryReply)
  | transferFailed (destination : ActorAddress) (transferId : ℕ) (reason : String)
deriving DecidableEq

/-- What the proxy does not decide. -/
structure ClientServices where
  directory : Bool := true
  accepts : ℕ → Bool := fun _ => true
  now : ℕ := 0
  order : List ℕ := []

/-- `sent` is what the last step sent. -/
structure NamespaceClient where
  self : ActorAddress
  requestDeadline : ℕ
  nextRequestId : ℕ := 1
  pending : ExtTreeMap ℕ PendingRequest compare := ∅
  sent : List ClientEffect := []

namespace NamespaceClient

variable (client : NamespaceClient) (env : ClientServices)

def send (effect : ClientEffect) : NamespaceClient :=
  { client with sent := client.sent ++ [effect] }

def dispatch (requestId : ℕ) (request : NamespaceRequest) : NamespaceClient :=
  if env.directory then client.send (.dispatched (request.message requestId client.self))
  else client

/-- A request that is sent and waits for its reply. -/
def enqueue (nextRequestId : ℕ) (request : NamespaceRequest) (replyTo : ActorAddress) :
    NamespaceClient :=
  let requestId := client.nextRequestId
  let client := { client with nextRequestId := nextRequestId }.dispatch env requestId request
  { client with pending := client.pending.insert requestId ⟨request, replyTo, env.now⟩ }

def retractStreamOpen (path : DataPath) (operationId : OperationId) : NamespaceClient :=
  match checkedAdd client.nextRequestId 1 with
  | none => client
  | some next => client.enqueue env next (.cancelStream path operationId) client.self

/-- The waiting requests, in an order that the proxy does not choose. -/
def visited : List (ℕ × PendingRequest) :=
  (env.order.dedup.filterMap fun id => client.pending[id]?.map fun pending => (id, pending)) ++
    client.pending.toList.filter fun entry => entry.1 ∉ env.order

/-- What a cancelled caller leaves: its retractions now belong to the proxy, the rest goes. -/
def disown (replyTo : ActorAddress) : ExtTreeMap ℕ PendingRequest compare :=
  client.pending.filterMap fun _ pending =>
    if pending.replyTo ≠ replyTo then some pending
    else if pending.request.isRetraction then some { pending with replyTo := client.self }
    else none

def cancel (replyTo : ActorAddress) : NamespaceClient :=
  let cancelled := (client.visited env).filterMap fun entry =>
    if entry.2.replyTo = replyTo then entry.2.request.opens else none
  cancelled.foldl (fun client opened => client.retractStreamOpen env opened.1 opened.2)
    { client with pending := client.disown replyTo }

/-- A request that has waited too long. -/
def isExpired (pending : PendingRequest) : Bool :=
  !pending.request.isRetraction && decide (client.requestDeadline < env.now - pending.enqueued)

/-- The caller of an expired request is told, and an open is taken back. -/
def expire (entry : ℕ × PendingRequest) : NamespaceClient :=
  let client := { client with pending := client.pending.erase entry.1 }
  let client := match entry.2.request.opens with
    | none => client
    | some (path, operationId) => client.retractStreamOpen env path operationId
  client.send (.replied entry.2.replyTo (expiredReply entry.1 entry.2.request))

def retry : NamespaceClient :=
  let expired := (client.visited env).filter fun entry => client.isExpired env entry.2
  let client := expired.foldl (fun client entry => client.expire env entry) client
  (client.visited env).foldl (fun client entry => client.dispatch env entry.1 entry.2.request)
    client

def handle : NamespaceClientIn → NamespaceClient
  | .request request replyTo =>
      match checkedAdd client.nextRequestId 1 with
      | none =>
          client.send (.replied replyTo (.plain (.resolved client.nextRequestId 0
            (.error (.protocol "namespace client request IDs exhausted")))))
      | some next => client.enqueue env next request replyTo
  | .cancel replyTo => client.cancel env replyTo
  | .cancelBlobReservation path operationId replyTo =>
      let client := { client with
        pending := client.pending.filter fun _ pending => pending.replyTo ≠ replyTo }
      if env.directory then
        client.send (.dispatched (.releaseBlobReservation 0 path operationId client.self))
      else client
  | .directoryReply reply =>
      if !env.accepts reply.authorityEpoch then client
      else
        match client.pending[reply.requestId]? with
        | none => client
        | some pending =>
            { client with pending := client.pending.erase reply.requestId }.send
              (.replied pending.replyTo reply)
  | .transferFailed destination transferId reason =>
      client.send (.transferFailed destination transferId reason)
  | .retry => client.retry env

def step (input : NamespaceClientIn × ClientServices) : NamespaceClient :=
  { client with sent := [] }.handle input.2 input.1

end NamespaceClient

end Swactor.Namespace
