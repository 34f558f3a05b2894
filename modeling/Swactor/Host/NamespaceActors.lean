import Swactor.Host.Protocol

/-!
# The actors that make one request

A session and its bindings do not wait for the namespace themselves. Each request has an actor of
its own, which sends it to the proxy when it starts, turns the reply into a message for its parent
and stops; when it is stopped before, it cancels the request. The actors differ in what they ask,
in the replies they understand, and in whether they cancel a request that was answered.
-/
namespace Swactor.Host

open Namespace (DataPath OperationId StreamIncarnation NamespaceError BlobRegistration StreamOpen
  NamespaceRequest NamespaceClientIn DirectoryReply DataDirectoryOut)

/-- The first half of an address, as `namespace_operation_id` and the bindings of blobs use it. -/
def namespaceOperationId (address : ActorAddress) : OperationId := address.val / 2 ^ 128

/-- The bytes of a number of the given width, from the last. -/
def reverseBytes : ℕ → ℕ → ℕ
  | 0, _ => 0
  | width + 1, value => value % 256 * 256 ^ width + reverseBytes width (value / 256)

/-- `HostStreamBindingActor::operation_id`, which reads the same half from the other end. -/
def streamOperationId (address : ActorAddress) : OperationId :=
  reverseBytes 16 (namespaceOperationId address)

inductive HelperTask
  | control (operation childSession : ActorAddress) (request : NamespaceOperation DataPath)
  | openLookup (operation : ActorAddress) (path : DataPath)
  | blobReserve (operation : ActorAddress) (path : DataPath) (reservation : OperationId)
  | resolve (path : DataPath) (binding : ActorAddress)
  | publish (registration : BlobRegistration) (operation binding : ActorAddress)
  | reservationRelease (path : DataPath) (reservation : OperationId) (binding : ActorAddress)
  | unpublish (path : DataPath) (operationId : OperationId) (source : ActorAddress)
  | streamOpen (request : StreamOpen)
  | streamClose (path : DataPath) (incarnation : StreamIncarnation)
deriving DecidableEq

namespace HelperTask

/-- The request that is sent at the start. -/
def request : HelperTask → NamespaceRequest
  | .control _ _ (.lookup path) => .lookup path
  | .control operation _ (.unlink path) => .unregister path (namespaceOperationId operation)
  | .control operation _ (.rename source destination replace) =>
      .rename source destination replace (namespaceOperationId operation)
  | .openLookup _ path => .lookup path
  | .blobReserve _ path reservation => .reserveBlob path reservation
  | .resolve path _ => .resolve path
  | .publish registration _ _ => .register registration
  | .reservationRelease path reservation _ => .releaseBlobReservation path reservation
  | .unpublish path operationId _ => .unregister path operationId
  | .streamOpen request => .openStream request
  | .streamClose path incarnation => .closeStream path incarnation

/-- Whether an answered request is cancelled all the same when the actor stops. -/
def cancelsAnswered : HelperTask → Bool
  | .resolve _ _ | .reservationRelease _ _ _ | .unpublish _ _ _ | .streamClose _ _ => true
  | _ => false

end HelperTask

/-- What the actor sends, and to whom. -/
inductive HelperEffect
  | client (message : NamespaceClientIn)
  | session (message : HostSessionIn)
  | blob (binding : ActorAddress) (message : HostBindingIn)
  | stream (binding : ActorAddress) (message : HostStreamIn)
  | retire (source : ActorAddress)
deriving DecidableEq

/-- `completed` is set by the actors that do not cancel an answered request. -/
structure NamespaceHelper where
  self : ActorAddress
  task : HelperTask
  completed : Bool := false
  stopped : Bool := false
  sent : List HelperEffect := []
deriving DecidableEq

namespace HelperTask

/-- What the parent is told when the proxy cannot be reached. The actors of streams do not look. -/
def unreachable : HelperTask → Option (List HelperEffect)
  | .control operation childSession _ =>
      some [.session (.namespaceResolved operation childSession
        (.error (.sessionFailed "namespace client is unavailable")))]
  | .openLookup operation _ =>
      some [.session (.openResolved operation
        (.error (.directoryUnavailable "namespace client is unavailable")))]
  | .blobReserve operation path reservation =>
      some [.session (.blobReserved operation path reservation
        (.error (.directoryUnavailable "namespace client is unavailable")))]
  | .resolve _ binding =>
      some [.blob binding (.resolved (.error (.sessionFailed "namespace client is unavailable")))]
  | .publish _ _ binding =>
      some [.blob binding
        (.publicationRejected (.sessionFailed "namespace client is unavailable"))]
  | .reservationRelease _ _ binding =>
      some [.blob binding
        (.reservationReleased (.error (.sessionFailed "namespace client is unavailable")))]
  | .unpublish _ _ _ => some []
  | .streamOpen _ | .streamClose _ _ => none

/-- The actors that fail before they could ask and count the request as answered. -/
def completesUnreachable : HelperTask → Bool
  | .control _ _ _ | .openLookup _ _ | .blobReserve _ _ _ => true
  | _ => false

/-- What a reply of the namespace is for the child. -/
def controlResult : NamespaceOperation DataPath → DirectoryReply →
    Except HostError NamespaceOperationResult
  | .lookup _, .plain (.lookedUp _ _ result) =>
      (result.map NamespaceOperationResult.node).mapError HostError.ofNamespace
  | .unlink _, .plain (.unregistered _ _ result) | .rename _ _ _, .plain (.renamed _ _ result) =>
      (result.map fun receipt => NamespaceOperationResult.mutation receipt.revision).mapError
        HostError.ofNamespace
  | _, _ => .error (.sessionFailed "unexpected namespace control reply")

/-- What a reply makes the actor send before it stops. The actors that wait for one kind of reply
ignore the others. -/
def answer : HelperTask → DirectoryReply → Option (List HelperEffect)
  | .control operation childSession request, reply =>
      some [.session (.namespaceResolved operation childSession (controlResult request reply))]
  | .openLookup operation _, .plain (.lookedUp _ _ result) =>
      some [.session (.openResolved operation result)]
  | .openLookup operation _, _ =>
      some [.session (.openResolved operation (.error (.protocol "expected lookup reply")))]
  | .blobReserve operation path reservation, .plain (.blobReserved _ _ result) =>
      some [.session (.blobReserved operation path reservation result)]
  | .blobReserve operation path reservation, _ =>
      some [.session (.blobReserved operation path reservation
        (.error (.protocol "expected blob reservation reply")))]
  | .resolve _ binding, .plain (.resolved _ _ result) =>
      some [.blob binding (.resolved (result.mapError HostError.ofNamespace))]
  | .resolve _ _, _ => none
  | .publish _ operation binding, .plain (.registered _ _ (.ok _)) =>
      some [.blob binding (.publicationAccepted operation)]
  | .publish _ _ binding, .plain (.registered _ _ (.error error)) =>
      some [.blob binding (.publicationRejected (HostError.ofNamespace error))]
  | .publish _ _ _, _ => none
  | .reservationRelease _ _ binding, .plain (.blobReservationReleased _ _ result) =>
      some [.blob binding (.reservationReleased (result.mapError HostError.ofNamespace))]
  | .reservationRelease _ _ binding, _ =>
      some [.blob binding (.reservationReleased
        (.error (.sessionFailed "expected blob reservation release")))]
  | .unpublish _ _ source, .plain (.unregistered _ _ (.error (.pathNotFound _))) =>
      some [.retire source]
  | .unpublish _ _ _, .plain (.unregistered _ _ _) => some []
  | .unpublish _ _ _, _ => none
  | .streamOpen request, .streamOpened _ _ result =>
      some [.stream request.endpoint (.namespaceMatched result)]
  | .streamOpen request, _ =>
      some [.stream request.endpoint
        (.namespaceMatched (.error (.protocol "expected stream-open reply")))]
  | .streamClose _ _, _ => some []

end HelperTask

namespace NamespaceHelper

variable (h : NamespaceHelper)

def onStop : NamespaceHelper :=
  if h.completed && !h.task.cancelsAnswered then h
  else
    let message := match h.task with
      | .blobReserve _ path reservation =>
          NamespaceClientIn.cancelBlobReservation path reservation h.self
      | _ => .cancel h.self
    { h with sent := h.sent ++ [.client message] }

/-- The actor is done. -/
def finish (effects : List HelperEffect) (completed : Bool) : NamespaceHelper :=
  { h with sent := h.sent ++ effects, completed := completed, stopped := true }.onStop

/-- `on_start`, when the proxy can be reached or not. -/
def onStart (reachable : Bool) : NamespaceHelper :=
  if reachable then { h with sent := h.sent ++ [.client (.request h.task.request h.self)] }
  else
    match h.task.unreachable with
    | some effects => h.finish effects h.task.completesUnreachable
    | none => h

def handle (reply : DirectoryReply) : NamespaceHelper :=
  if h.stopped then h
  else
    match h.task.answer reply with
    | some effects => h.finish effects true
    | none => h

/-- The actor is stopped by its parent. -/
def stop : NamespaceHelper :=
  if h.stopped then h else { h with stopped := true }.onStop

/-- The effect is for another actor than the proxy. -/
def tells : HelperEffect → Bool
  | .client _ => false
  | _ => true

/-- A reply of the directory, or the parent stops the actor. -/
def step : Option DirectoryReply → NamespaceHelper
  | some reply => h.handle reply
  | none => h.stop

def told : ℕ := h.sent.countP tells

/-- The last word of the actor takes its request back. -/
def Cancelled : Prop :=
  ∃ m, h.sent.getLast? = some (.client m) ∧ ∀ request replyTo, m ≠ .request request replyTo

def Ordered : Prop :=
  if h.stopped then h.told = 0 ∧ h.Cancelled ∨ h.told = 1 else h.told = 0 ∧ h.completed = false

attribute [local grind] Ordered Cancelled told onStop finish HelperTask.cancelsAnswered tells

variable {h}

theorem answer_tells {task : HelperTask} {reply : DirectoryReply} {effects : List HelperEffect}
    (h : task.answer reply = some effects) : effects = [] ∧ task.cancelsAnswered = true ∨
      ∃ effect, effects = [effect] ∧ tells effect := by
  revert h
  fun_cases HelperTask.answer <;> grind

theorem ordered_step (hh : h.Ordered) (event : Option DirectoryReply) : (h.step event).Ordered := by
  cases event with
  | none => grind [step, stop]
  | some reply =>
    simp only [step, handle]
    split
    · exact hh
    · split
      · next effects heffects =>
        rcases answer_tells heffects with ⟨rfl, hcancels⟩ | ⟨effect, rfl, htells⟩ <;> grind
      · exact hh

end NamespaceHelper

end Swactor.Host
