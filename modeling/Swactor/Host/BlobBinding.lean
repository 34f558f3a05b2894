import Swactor.Host.NamespaceActors

/-!
# The host side of a blob

One actor serves one open of a blob. A read resolves the path and has another actor fetch the
content into a region of the arena; a write gets a region, waits until the child has sealed it,
and publishes it under the path. A published binding belongs to the directory: it stays until its
source is retired. On every way out the region is released, then the reservation of the path, and
then the session is told.

Actors are spawned and the routes are held and published outside; whether that works is an input
of every step. The addresses of the session, of the child and of the allocator are constant and
left out.
-/
namespace Swactor.Host

open Namespace (DataPath OperationId)
open DataPlane (BlobLease DataPlaneError)

inductive HostBindingState
  | resolving
  | allocated
  | filling
  | granted
  | sealing
  | publishing
  | published
  | unpublishing
  | releasing
  | released
  | faulted
deriving DecidableEq, Repr

/-- `routes`, `namespace` and `publisher` say whether the service is there. -/
inductive BindingMode
  | namespaceRead (expectedRevision : Option ℕ) (routes : Bool)
  | write (length : ℕ) (digest : Option ℕ) («namespace» publisher : Bool)
deriving DecidableEq, Repr

namespace BindingMode

def isRead : BindingMode → Bool
  | .namespaceRead _ _ => true
  | .write _ _ _ _ => false

/-- A write that can reach the namespace. -/
def hasNamespace : BindingMode → Bool
  | .write _ _ present _ => present
  | .namespaceRead _ _ => false

end BindingMode

inductive ReleaseOutcome
  | readReleased
  | writeAborted (operation : ActorAddress)
  | publishedReleased
  | sessionClosed
  | faulted
deriving DecidableEq, Repr

/-- What the binding sends and what it does to the routes. `helper` is the spawn of an actor that
makes a request of the namespace, `transfer` that of the actor that fetches the content. -/
inductive BlobEffect
  | allocate (length : ℕ) (digest : Option ℕ)
  | validateSealed (lease : BlobLease) (metadata : BlobMetadata)
  | createPublishedSource (lease : BlobLease) (metadata : BlobMetadata)
  | release (lease : BlobLease)
  | helper (actor : ActorAddress) (task : HelperTask)
  | cancelBlobReservation (path : DataPath) (reservation : OperationId)
  | transfer (actor source : ActorAddress) (length : ℕ)
  | cancelTransfer (actor : ActorAddress)
  | stopActor (actor : ActorAddress)
  | retainSource (source : ActorAddress) (node : NodeId)
  | releaseSource (source : ActorAddress)
  | retireSource (source : ActorAddress)
  | blobOpened (lease : BlobLease) (metadata : BlobMetadata)
  | writeBlobOpened (lease : BlobLease) (metadata : BlobMetadata)
  | writePublished (operation : ActorAddress)
  | writeAborted (operation : ActorAddress)
  | blobReleased
  | bindingFaulted (error : HostError)
  | bindingDetached
  | bindingDone
deriving DecidableEq

/-- What the calls of a step return. -/
structure BlobServices where
  spawn : Except String ActorAddress := .ok 0
  retain : Except String Unit := .ok ()
  publish : Except String NodeId := .ok 0

/-- `sent` is all that the binding has done so far; `stopped` is set by `stop_self`. -/
structure BlobBinding where
  self : ActorAddress
  operation : ActorAddress
  path : DataPath
  mode : BindingMode
  state : HostBindingState
  lease : Option BlobLease := none
  metadata : Option BlobMetadata := none
  releaseOutcome : Option ReleaseOutcome := none
  auxiliary : Option ActorAddress := none
  retainedSource : Option ActorAddress := none
  publishedSource : Option ActorAddress := none
  cancelled : Bool := false
  reservation : Option OperationId := none
  stopped : Bool := false
  sent : List BlobEffect := []

namespace BlobBinding

/-- `HostBlobBindingActor::namespace_read`. -/
def namespaceRead (self operation : ActorAddress) (path : DataPath) (expectedRevision : Option ℕ)
    (routes : Bool) : BlobBinding where
  self := self
  operation := operation
  path := path
  mode := .namespaceRead expectedRevision routes
  state := .resolving

/-- `HostBlobBindingActor::write`. -/
def write (self operation : ActorAddress) (path : DataPath) (length : ℕ) (digest : Option ℕ)
    (reservation : Option OperationId) («namespace» publisher : Bool) : BlobBinding where
  self := self
  operation := operation
  path := path
  mode := .write length digest «namespace» publisher
  state := .allocated
  reservation := reservation

variable (b : BlobBinding) (env : BlobServices)

def emit (effect : BlobEffect) : BlobBinding :=
  { b with sent := b.sent ++ [effect] }

def emitAll (effects : List BlobEffect) : BlobBinding :=
  { b with sent := b.sent ++ effects }

def releaseRetainedSource : BlobBinding :=
  match b.retainedSource with
  | none => b
  | some source =>
      let b := { b with retainedSource := none }
      match b.mode with
      | .namespaceRead _ true => b.emit (.releaseSource source)
      | _ => b

/-- Whether the reservation is to be released first, by an actor of its own. -/
def beginReservationRelease (outcome : ReleaseOutcome) : BlobBinding × Bool :=
  match b.reservation with
  | none => (b, false)
  | some reservation =>
      let b := { b with reservation := none }
      if !b.mode.hasNamespace then (b, false)
      else
        match env.spawn with
        | .ok releaser =>
            ({ b.emit (.helper releaser (.reservationRelease b.path reservation b.self)) with
              auxiliary := some releaser
              releaseOutcome := some outcome
              state := .releasing }, true)
        | .error _ => (b.emit (.cancelBlobReservation b.path reservation), false)

def finishWithoutLease (outcome : ReleaseOutcome) : BlobBinding :=
  match b.beginReservationRelease env outcome with
  | (b, true) => b
  | (b, false) =>
      let b := b.releaseRetainedSource
      let stop := b.auxiliary.toList.map BlobEffect.stopActor
      let report := match outcome with
        | .writeAborted operation => [BlobEffect.writeAborted operation]
        | .readReleased => [.blobReleased]
        | _ => []
      { b.emitAll (stop ++ report ++ [.bindingDone]) with
        state := .released
        auxiliary := none
        stopped := true }

def beginRelease (outcome : ReleaseOutcome) : BlobBinding :=
  match b.lease with
  | none => b.finishWithoutLease env outcome
  | some lease =>
      { b.releaseRetainedSource with
        state := .releasing
        releaseOutcome := some outcome }.emit (.release lease)

/-- A published binding does not wait for the allocator, which may be gone with its session. -/
def releasePublished (outcome : ReleaseOutcome) : BlobBinding :=
  ({ b with lease := none }.emitAll (b.lease.toList.map BlobEffect.release)).finishWithoutLease env
    outcome

def beginUnpublish (outcome : ReleaseOutcome) : BlobBinding :=
  match b.mode.hasNamespace, b.publishedSource with
  | true, some source =>
      let operationId := (namespaceOperationId b.self + 1) % 2 ^ 128
      match env.spawn with
      | .ok unpublisher =>
          { b.emit (.helper unpublisher (.unpublish b.path operationId source)) with
            auxiliary := some unpublisher
            releaseOutcome := some outcome
            state := .unpublishing }
      | .error _ => { b with state := .published }
  | _, _ => b.beginRelease env outcome

def fail (error : HostError) : BlobBinding :=
  let retire := b.publishedSource.toList.map BlobEffect.retireSource
  ({ b with state := .faulted, publishedSource := none }.emitAll
    (retire ++ [BlobEffect.bindingFaulted error])).beginRelease env .faulted

def leaseMatches (leaseId generation : ℕ) : Bool :=
  b.lease.any fun lease => lease.leaseId = leaseId ∧ lease.generation = generation

def onStart : BlobBinding :=
  match b.mode with
  | .namespaceRead _ _ =>
      let b := { b with state := .resolving }
      match env.spawn with
      | .ok resolver =>
          { b.emit (.helper resolver (.resolve b.path b.self)) with auxiliary := some resolver }
      | .error reason => b.fail env (.sessionFailed reason)
  | .write length digest _ _ => { b with state := .filling }.emit (.allocate length digest)

/-- The path of a read has been resolved. -/
def startTransfer (binding : Namespace.BlobBinding) (expectedRevision : Option ℕ) (routes : Bool) :
    BlobBinding :=
  if expectedRevision.any fun revision => revision ≠ binding.revision then
    b.fail env (.pathReplaced b.path)
  else
    let retained := if routes then env.retain else .ok ()
    match retained with
    | .error reason => b.fail env (.sessionFailed ("retain resolved blob source route: " ++ reason))
    | .ok () =>
        let b := { b.emitAll (if routes then [.retainSource binding.source binding.sourceNode]
          else []) with retainedSource := some binding.source }
        match env.spawn with
        | .ok transfer =>
            { b.emit (.transfer transfer binding.source binding.length) with
              auxiliary := some transfer
              state := .filling }
        | .error reason => b.fail env (.sessionFailed reason)

/-- The region is there: the child gets it, unless it has given the open up. -/
def grant (lease : BlobLease) (metadata : BlobMetadata) (opened : BlobEffect) : BlobBinding :=
  let b := { b with lease := some lease, metadata := some metadata, state := .granted }
  if b.cancelled then b.beginRelease env .faulted else b.emit opened

def publish (b : BlobBinding) (env : BlobServices) (source : ActorAddress) : BlobBinding :=
  match b.mode, b.metadata with
  | .write _ _ true true, some metadata =>
      match env.publish with
      | .error reason => (b.emit (.retireSource source)).fail env (.sessionFailed reason)
      | .ok node =>
          let b := { b with publishedSource := some source }
          match env.spawn with
          | .ok publisher =>
              { b.emit (.helper publisher (.publish
                  ⟨b.path, source, node, metadata.length, .actor source node (some b.self),
                    namespaceOperationId b.self, b.reservation⟩ b.operation b.self)) with
                auxiliary := some publisher }
          | .error reason => b.fail env (.sessionFailed reason)
  | _, _ =>
      (b.emit (.retireSource source)).fail env
        (.sessionFailed "namespace source publisher is unavailable")

/-- The child gives a write up. -/
def abort (operation : ActorAddress) (leaseId generation : ℕ) : BlobBinding :=
  if b.mode.isRead ∨ operation ≠ b.operation ∨ !b.leaseMatches leaseId generation then b
  else
    match b.state with
    | .granted | .sealing => b.beginRelease env (.writeAborted operation)
    | .publishing => { b with releaseOutcome := some (.writeAborted operation) }
    | .published => b.beginUnpublish env (.writeAborted operation)
    | _ => b

/-- The answer to a release. -/
def releaseAnswered (result : Except HostError Unit) : BlobBinding :=
  let report := match result with
    | .error error => [BlobEffect.bindingFaulted error]
    | .ok () => []
  ({ b with releaseOutcome := none }.emitAll report).finishWithoutLease env
    (b.releaseOutcome.getD .faulted)

/-- A read never asks for a region itself, so that `Allocated` cannot reach it. -/
def handle : HostBindingIn → BlobBinding
  | .resolved (.ok binding) =>
      match b.mode with
      | .namespaceRead expectedRevision routes =>
          if b.state = .resolving then
            { b with auxiliary := none }.startTransfer env binding expectedRevision routes
          else b
      | .write _ _ _ _ => b
  | .resolved (.error error) =>
      if b.state = .resolving then { b with auxiliary := none }.fail env error else b
  | .transferReady lease metadata =>
      if b.state = .filling ∧ b.mode.isRead then
        { b with auxiliary := none }.grant env lease metadata (.blobOpened lease metadata)
      else b
  | .cancelOpen operation =>
      if operation ≠ b.operation then b
      else
        let b := { b with cancelled := true }
        match b.state with
        | .resolving => b.finishWithoutLease env .faulted
        | .filling =>
            if b.mode.isRead then b.emitAll (b.auxiliary.toList.map BlobEffect.cancelTransfer)
            else b
        | .granted => b.beginRelease env .faulted
        | _ => b
  | .transferFailed error =>
      if b.state = .resolving ∨ b.state = .filling then
        { b with auxiliary := none }.fail env error
      else b
  | .allocated (.ok (lease, metadata)) =>
      if b.state = .filling then b.grant env lease metadata (.writeBlobOpened lease metadata)
      else b
  | .allocated (.error error) =>
      if b.state = .filling then b.fail env (.allocator error) else b
  | .release leaseId generation =>
      if b.state = .granted ∧ b.mode.isRead ∧ b.leaseMatches leaseId generation then
        b.beginRelease env .readReleased
      else b
  | .sealWrite operation lease metadata =>
      if b.state ≠ .granted ∨ b.mode.isRead then b
      else if operation ≠ b.operation ∨ b.lease ≠ some lease ∨ b.metadata ≠ some metadata then
        b.fail env (.allocator (.blob .invalidLease))
      else { b with state := .sealing }.emit (.validateSealed lease metadata)
  | .sealValidated (.ok ()) =>
      match b.state, b.lease, b.metadata with
      | .sealing, some lease, some metadata =>
          let b := { b with state := .publishing }
          if b.mode.hasNamespace then b.emit (.createPublishedSource lease metadata)
          else
            b.fail env (.sessionFailed "data namespace publication service is unavailable")
      | _, _, _ => b
  | .sealValidated (.error error) =>
      if b.state = .sealing then b.fail env (.allocator error) else b
  | .publishedSource (.ok source) =>
      if b.state = .publishing then b.publish env source else b
  | .publishedSource (.error error) =>
      if b.state = .publishing then b.fail env error else b
  | .abort operation leaseId generation => b.abort env operation leaseId generation
  | .publicationAccepted operation =>
      if b.state ≠ .publishing ∨ operation ≠ b.operation then b
      else
        let b := { b with auxiliary := none, reservation := none, state := .published }
        match b.releaseOutcome with
        | some outcome => { b with releaseOutcome := none }.beginUnpublish env outcome
        | none => b.emitAll [.bindingDetached, .writePublished operation]
  | .publicationRejected error =>
      if b.state = .publishing then { b with auxiliary := none }.fail env error else b
  | .releasePublished =>
      if b.state = .published ∨ b.state = .unpublishing then
        { b with releaseOutcome := none }.releasePublished env
          (b.releaseOutcome.getD .publishedReleased)
      else b
  | .sessionClosed =>
      match b.state with
      | .publishing | .published | .unpublishing | .released | .releasing => b
      | .filling =>
          if b.mode.isRead then
            match b.auxiliary with
            | some transfer => b.emit (.cancelTransfer transfer)
            | none => b.finishWithoutLease env .sessionClosed
          else b.beginRelease env .sessionClosed
      | _ => b.beginRelease env .sessionClosed
  | .released result =>
      if b.state = .releasing then b.releaseAnswered env (result.mapError .allocator) else b
  | .reservationReleased result => { b with auxiliary := none }.releaseAnswered env result

/-- One message. A binding that has stopped handles none. -/
def step (input : HostBindingIn × BlobServices) : BlobBinding :=
  if b.stopped then b else b.handle input.2 input.1

end BlobBinding

end Swactor.Host
