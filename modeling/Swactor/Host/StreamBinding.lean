import Swactor.DataPlane.Allocator
import Swactor.Namespace.Directory

/-!
# The host side of a stream endpoint

One actor binds a stream for a child process. It asks the allocator for a ring and the directory
for a peer, and the two answers, the offers and terminations of the peer, the notices of the
directory, the events of the transport and the wishes of the child arrive in any order. When it
becomes terminal it wakes who waits, tells the peer, gives the path up and releases the ring, as
soon as the transport is quiet and the peer has answered; then it stops.

What the calls into the transport, the arena and the runtime return is an input of every step.
The addresses of the child, of the session and of the allocator are constant and left out, and so
are the marks that the transport keeps in the ring and the handle of the route watch.
-/
namespace Swactor.Host

open Namespace (DataPath OperationId StreamIncarnation StreamMatch StreamRole NamespaceError)
open DataPlane (PlacedRing DataPlaneError)

/-- The errors of a stream binding. `namespace` and `allocator` are errors that are passed on. -/
inductive StreamError
  | pathReplaced (path : DataPath)
  | streamFault (reason : String)
  | streamClosed
  | operationCancelled
  | peerLost
  | sessionFailed (reason : String)
  | «namespace» (error : NamespaceError)
  | allocator (error : DataPlaneError)
deriving DecidableEq

/-- `namespace_error`. -/
def namespaceError : NamespaceError → StreamError
  | .pathReplaced path => .pathReplaced path
  | error => .namespace error

inductive StreamTransportEvent
  | ready
  | dataAvailable
  | capacityAvailable
  | quiesced
  | fault (reason : String)
deriving DecidableEq, Repr

inductive HostStreamIn
  | namespaceMatched (result : Except NamespaceError StreamMatch)
  | allocated (result : Except DataPlaneError PlacedRing)
  | peerOffer (incarnation : StreamIncarnation) (descriptor : List UInt8)
  | peerOfferAck (incarnation : StreamIncarnation)
  | peerOfferRetry (incarnation : StreamIncarnation)
  | routeChanged (incarnation : StreamIncarnation)
  | transport (event : StreamTransportEvent)
  | dataAvailable
  | capacityAvailable
  | waitData (replyTo : ActorAddress)
  | waitCapacity (replyTo : ActorAddress)
  | close (clean : Bool) (replyTo : Option ActorAddress)
  | peerTerminated (incarnation : StreamIncarnation) (error : StreamError)
      (replyTo : Option ActorAddress)
  | displaced (incarnation : StreamIncarnation) (replyTo : Option ActorAddress)
  | peerTerminationAck (incarnation : StreamIncarnation)
  | peerTerminationRetry (incarnation : StreamIncarnation)
  | releaseComplete (result : Except DataPlaneError Unit)
deriving DecidableEq

/-- What the binding sends and what it does to the transport. -/
inductive StreamEffect
  | allocateStream
  | openStream (role : StreamRole) (descriptor : List UInt8) (replace ensure : Bool)
      (expectedRevision : Option ℕ)
  | stopActor (actor : ActorAddress)
  | closeStream (path : DataPath) (incarnation : StreamIncarnation)
  | operationFailed (error : StreamError)
  | streamOpened (incarnation : StreamIncarnation) (ring : PlacedRing)
  | streamWake (replyTo : ActorAddress) (result : Except StreamError Unit)
  | streamDisplaced (replyTo : ActorAddress) (incarnation : StreamIncarnation)
  | peerOffer (peer : ActorAddress) (incarnation : StreamIncarnation) (descriptor : List UInt8)
  | peerOfferAck (peer : ActorAddress) (incarnation : StreamIncarnation)
  | peerTerminated (peer : ActorAddress) (incarnation : StreamIncarnation) (error : StreamError)
      (replyTo : ActorAddress)
  | peerTerminationAck (peer : ActorAddress) (incarnation : StreamIncarnation)
  | markPeerTerminated (ring : PlacedRing) (replaced : Bool)
  | install (incarnation : StreamIncarnation)
  | sourceProgress (incarnation : StreamIncarnation)
  | sinkProgress (incarnation : StreamIncarnation)
  | terminate (incarnation : StreamIncarnation)
  | releaseStream (ring : PlacedRing)
  | bindingDone
deriving DecidableEq

/-- What the calls of a step return. -/
structure StreamServices where
  allocate : Except String Unit := .ok ()
  spawnOpen : Except String ActorAddress := .ok 0
  spawnClose : Option ActorAddress := some 0
  attach : Except String Unit := .ok ()
  install : Except String Unit := .ok ()
  routable : ActorAddress → Bool := fun _ => true
  sinkHasData : Bool := false
  sourceHasCapacity : Bool := false

/-- `sent` is all that the binding has done so far; `stopped` is set by `stop_self`. The timers
are there or not. -/
structure StreamBinding where
  self : ActorAddress
  path : DataPath
  role : StreamRole
  replace : Bool := false
  ensure : Bool := false
  expectedRevision : Option ℕ := none
  localDescriptor : List UInt8 := []
  ring : Option PlacedRing := none
  ringAllocationPending : Bool := true
  matched : Option StreamMatch := none
  pendingDisplacements : StreamIncarnation → Option (List ActorAddress) := fun _ => none
  fencedDisplacements : List StreamIncarnation := []
  pendingPeerTerminations :
    StreamIncarnation → Option (StreamError × Option ActorAddress) := fun _ => none
  peerDescriptor : Option (List UInt8) := none
  peerOfferAcknowledged : Bool := false
  transportInstalled : Bool := false
  transportReady : Bool := false
  opened : Bool := false
  transportQuiesced : Bool := false
  terminal : Option StreamError := none
  dataWaiters : List ActorAddress := []
  capacityWaiters : List ActorAddress := []
  closeWaiters : List ActorAddress := []
  releaseStarted : Bool := false
  namespaceOpen : Option ActorAddress := none
  namespaceClose : Option ActorAddress := none
  peerAckPending : Bool := false
  offerRetry : Bool := false
  terminationRetry : Bool := false
  pendingPeerOffer : Option (StreamIncarnation × List UInt8) := none
  stopped : Bool := false
  sent : List StreamEffect := []

/-- What the session passes to the binding it spawns. -/
structure StreamSpawn where
  path : DataPath
  role : StreamRole
  replace : Bool := false
  ensure : Bool := false
  expectedRevision : Option ℕ := none
deriving DecidableEq, Repr

/-- The binding as the session spawns it. -/
def StreamSpawn.binding (spawn : StreamSpawn) (self : ActorAddress)
    (localDescriptor : List UInt8) : StreamBinding where
  self := self
  path := spawn.path
  role := spawn.role
  replace := spawn.replace
  ensure := spawn.ensure
  expectedRevision := spawn.expectedRevision
  localDescriptor := localDescriptor

namespace StreamBinding

variable (b : StreamBinding) (env : StreamServices)

def emit (effect : StreamEffect) : StreamBinding :=
  { b with sent := b.sent ++ [effect] }

def emitAll (effects : List StreamEffect) : StreamBinding :=
  { b with sent := b.sent ++ effects }

/-- The other end of the match. -/
def peer (matched : StreamMatch) : ActorAddress :=
  match b.role with
  | .source => matched.sink
  | .sink => matched.source

/-- The own end of the match. -/
def ownEnd (matched : StreamMatch) : ActorAddress :=
  match b.role with
  | .source => matched.source
  | .sink => matched.sink

/-- The binding is matched, in this incarnation. -/
def isMatchedAt (incarnation : StreamIncarnation) : Bool :=
  b.matched.any fun matched => matched.incarnation = incarnation

/-- `ring_peer_termination`: whether the path was replaced. -/
def ringPeerTermination : StreamError → Bool
  | .pathReplaced _ => true
  | _ => false

/-- The child is told that the open failed, unless it has an outcome. -/
def reportFailure (error : StreamError) : StreamBinding :=
  if !b.opened ∧ b.terminal.isNone then b.emit (.operationFailed error) else b

def sendPeerOffer : StreamBinding :=
  match b.matched with
  | none => b
  | some matched =>
      if b.role ≠ .sink ∨ matched.sinkDescriptor ≠ [] ∨ b.peerOfferAcknowledged ∨
          b.terminal.isSome ∨ !b.transportInstalled then b
      else
        let b := if env.routable matched.source then
            b.emit (.peerOffer matched.source matched.incarnation b.localDescriptor)
          else b
        { b with offerRetry := true }

def sendPeerTermination : StreamBinding :=
  if !b.peerAckPending then b
  else
    match b.matched with
    | none => b
    | some matched =>
        let error := if b.terminal = some .streamClosed then StreamError.streamClosed else .peerLost
        let b := if env.routable (b.peer matched) then
            b.emit (.peerTerminated (b.peer matched) matched.incarnation error b.self)
          else b
        { b with terminationRetry := true }

def wakeAll (waiters : List ActorAddress) (result : Except StreamError Unit) :
    List StreamEffect :=
  waiters.map fun replyTo => .streamWake replyTo result

def completeRelease (result : Except StreamError Unit) : StreamBinding :=
  { b.emitAll (wakeAll b.closeWaiters result ++ [.bindingDone]) with
    closeWaiters := []
    stopped := true }

def releaseRing : StreamBinding :=
  if b.releaseStarted ∨ b.ringAllocationPending then b
  else
    let b := { b with releaseStarted := true }
    match b.ring with
    | some ring => b.emit (.releaseStream ring)
    | none => b.completeRelease (.ok ())

/-- The first part of `begin_terminal`: the open is given up and who waits is woken. -/
def enterTerminal (error : StreamError) : StreamBinding :=
  let stop := b.namespaceOpen.toList.map StreamEffect.stopActor
  let mark := b.ring.toList.map fun ring =>
    StreamEffect.markPeerTerminated ring (ringPeerTermination error)
  { b.emitAll (stop ++ mark ++ wakeAll b.dataWaiters (.error error) ++
      wakeAll b.capacityWaiters (.error error)) with
    namespaceOpen := none
    terminal := some error
    offerRetry := false
    pendingPeerOffer := none
    dataWaiters := []
    capacityWaiters := [] }

def closeNamespace (incarnation : StreamIncarnation) : StreamBinding :=
  match env.spawnClose with
  | none => b
  | some actor =>
      { b.emit (.closeStream b.path incarnation) with namespaceClose := some actor }

/-- The second part: the peer of a matched stream is told, if it is to be. -/
def notifyEnd (notifyPeer : Bool) : StreamBinding :=
  if notifyPeer ∧ b.matched.isSome then
    { b with peerAckPending := true }.sendPeerTermination env
  else b

/-- The third part: a matched stream gives its path up and its transport is terminated, unless
it is to drain. -/
def leavePath (terminateTransport : Bool) : StreamBinding :=
  match b.matched with
  | none => b
  | some matched =>
      let b := b.closeNamespace env matched.incarnation
      if b.transportInstalled ∧ terminateTransport then b.emit (.terminate matched.incarnation)
      else b

/-- The ring of a matched stream is not released before its transport is quiet and the peer has
answered. -/
def beginTerminal (error : StreamError) (notifyPeer terminateTransport : Bool) : StreamBinding :=
  if b.terminal.isSome then b
  else
    let b := ((b.enterTerminal error).notifyEnd env notifyPeer).leavePath env terminateTransport
    if b.matched.isSome ∧ b.transportInstalled ∧ !b.transportQuiesced then b
    else if b.matched.isSome ∧ b.peerAckPending then b
    else b.releaseRing

def failOpen (error : StreamError) : StreamBinding :=
  (b.reportFailure error).beginTerminal env error true true

def displace : StreamBinding :=
  (b.reportFailure (.pathReplaced b.path)).beginTerminal env (.pathReplaced b.path) false true

/-- The notice and those that were kept for the incarnation are acknowledged. -/
def fenceDisplacement (incarnation : StreamIncarnation) (replyTo : Option ActorAddress) :
    StreamBinding :=
  let b := b.displace env
  let kept := (b.pendingDisplacements incarnation).getD []
  let replies := replyTo.elim kept kept.insert
  { b.emitAll (replies.map fun target => .streamDisplaced target incarnation) with
    fencedDisplacements := b.fencedDisplacements.insert incarnation
    pendingDisplacements := Function.update b.pendingDisplacements incarnation none }

def applyPeerTermination (incarnation : StreamIncarnation) (error : StreamError)
    (replyTo : Option ActorAddress) : StreamBinding :=
  ((b.reportFailure error).beginTerminal env error false true).emitAll
    (replyTo.toList.map fun target => .peerTerminationAck target incarnation)

def tryInstallTransport : StreamBinding :=
  if b.transportInstalled ∨ b.terminal.isSome then b
  else
    match b.ring, b.matched with
    | some _, some matched =>
        match env.attach with
        | .error reason => b.failOpen env (.streamFault ("attach host stream ring: " ++ reason))
        | .ok () =>
            if b.role = .source ∧ b.peerDescriptor.isNone then b
            else
              match env.install with
              | .error reason => b.failOpen env (.streamFault reason)
              | .ok () =>
                  let b := { b.emit (.install matched.incarnation) with transportInstalled := true }
                  if b.role = .sink ∧ matched.sinkDescriptor = [] then b.sendPeerOffer env else b
    | _, _ => b

def openIfReady : StreamBinding :=
  if b.opened ∨ !b.transportReady ∨ b.terminal.isSome then b
  else
    match b.ring, b.matched with
    | some ring, some matched =>
        { b.emit (.streamOpened matched.incarnation ring) with opened := true }
    | _, _ => b

/-- `on_start`. -/
def onStart : StreamBinding :=
  match env.allocate with
  | .error reason =>
      { b with ringAllocationPending := false }.failOpen env (.sessionFailed reason)
  | .ok () =>
      let b := b.emit .allocateStream
      match env.spawnOpen with
      | .error reason => b.failOpen env (.sessionFailed reason)
      | .ok actor =>
          { b.emit (.openStream b.role b.localDescriptor b.replace b.ensure b.expectedRevision) with
            namespaceOpen := some actor }

/-- The order of incarnations: first by epoch, then by revision. -/
def notAfter (known incarnation : StreamIncarnation) : Bool :=
  known.authorityEpoch < incarnation.authorityEpoch ∨
    known.authorityEpoch = incarnation.authorityEpoch ∧ known.revision ≤ incarnation.revision

/-- The part of a match that comes after the notices that had overtaken it. -/
def acceptMatch (matched : StreamMatch) : StreamBinding :=
  let b := match b.pendingPeerOffer with
    | some (incarnation, descriptor) =>
        let b := { b with pendingPeerOffer := none }
        if matched.incarnation = incarnation then
          { b.emit (.peerOfferAck matched.sink incarnation) with peerDescriptor := some descriptor }
        else b
    | none => b
  b.tryInstallTransport env

def namespaceMatched (matched : StreamMatch) : StreamBinding :=
  if b.ownEnd matched ≠ b.self then
    b.failOpen env (.streamFault "namespace matched the wrong stream endpoint")
  else
    let incarnation := matched.incarnation
    let termination := b.pendingPeerTerminations incarnation
    let b := { b with
      pendingPeerTerminations := Function.update b.pendingPeerTerminations incarnation none }
    let terminated := fun (b : StreamBinding) =>
      termination.elim b fun kept => b.applyPeerTermination env incarnation kept.1 kept.2
    if (b.pendingDisplacements incarnation).isSome then
      terminated ({ b with matched := some matched }.fenceDisplacement env incarnation none)
    else
      let b := if b.role = .source ∧ matched.sinkDescriptor ≠ [] then
          { b with peerDescriptor := some matched.sinkDescriptor }
        else b
      let b := { b with matched := some matched }
      if termination.isSome then terminated b else b.acceptMatch env matched

/-- A wish to be woken is answered at once if the stream is terminal or what is waited for is
there. -/
def waitAnswer (there : Bool) : Option (Except StreamError Unit) :=
  match b.terminal with
  | some error => some (.error error)
  | none => if b.matched.isSome ∧ there then some (.ok ()) else none

def handle : HostStreamIn → StreamBinding
  | .namespaceMatched result =>
      let b := { b with namespaceOpen := none }
      if b.terminal.isSome then b
      else
        match result with
        | .ok matched => b.namespaceMatched env matched
        | .error error => b.failOpen env (namespaceError error)
  | .allocated result =>
      let b := { b with ringAllocationPending := false }
      let b := match result with
        | .ok ring =>
            { b with ring := some ring }.emitAll (b.terminal.toList.map fun error =>
              .markPeerTerminated ring (ringPeerTermination error))
        | .error error => b.failOpen env (.allocator error)
      if b.terminal.isSome then b.releaseRing else b.tryInstallTransport env
  | .peerOffer incarnation descriptor =>
      if b.role ≠ .source ∨ b.terminal.isSome then b
      else
        match b.matched with
        | none =>
            if b.pendingPeerOffer.all fun known => notAfter known.1 incarnation then
              { b with pendingPeerOffer := some (incarnation, descriptor) }
            else b
        | some matched =>
            if matched.incarnation = incarnation then
              { b.emit (.peerOfferAck matched.sink incarnation) with
                peerDescriptor := some descriptor }.tryInstallTransport env
            else b
  | .peerOfferAck incarnation =>
      if b.role = .sink ∧ b.isMatchedAt incarnation then
        { b with peerOfferAcknowledged := true, offerRetry := false }
      else b
  | .peerOfferRetry incarnation =>
      if b.isMatchedAt incarnation then { b with offerRetry := false }.sendPeerOffer env else b
  | .routeChanged incarnation =>
      if b.isMatchedAt incarnation then
        let b := (b.sendPeerOffer env).sendPeerTermination env
        b.emitAll (b.matched.toList.flatMap fun matched =>
          if b.role = .source ∧ b.peerDescriptor.isSome ∧ b.terminal.isNone ∧
              matched.sinkDescriptor = [] then [.peerOfferAck matched.sink incarnation]
          else [])
      else b
  | .transport .ready => { b with transportReady := true }.openIfReady
  | .transport .dataAvailable =>
      { b.emitAll (wakeAll b.dataWaiters (.ok ())) with dataWaiters := [] }
  | .transport .capacityAvailable =>
      { b.emitAll (wakeAll b.capacityWaiters (.ok ())) with capacityWaiters := [] }
  | .transport (.fault reason) => b.failOpen env (.streamFault reason)
  | .transport .quiesced =>
      let b := { b with transportQuiesced := true }
      if b.terminal.isSome ∧ !b.peerAckPending then b.releaseRing else b
  | .dataAvailable =>
      b.emitAll (b.matched.toList.map fun matched => .sourceProgress matched.incarnation)
  | .capacityAvailable =>
      b.emitAll (b.matched.toList.map fun matched => .sinkProgress matched.incarnation)
  | .waitData replyTo =>
      match b.waitAnswer env.sinkHasData with
      | some result => b.emit (.streamWake replyTo result)
      | none => { b with dataWaiters := b.dataWaiters ++ [replyTo] }
  | .waitCapacity replyTo =>
      match b.waitAnswer env.sourceHasCapacity with
      | some result => b.emit (.streamWake replyTo result)
      | none => { b with capacityWaiters := b.capacityWaiters ++ [replyTo] }
  | .close clean replyTo =>
      let b := { b with closeWaiters := b.closeWaiters ++ replyTo.toList }
      if clean then b.beginTerminal env .streamClosed false false
      else b.failOpen env .operationCancelled
  | .peerTerminated incarnation error replyTo =>
      if b.isMatchedAt incarnation then b.applyPeerTermination env incarnation error replyTo
      else if b.matched.isNone then
        { b with
          pendingPeerTerminations :=
            Function.update b.pendingPeerTerminations incarnation (some (error, replyTo)) }
      else b
  | .displaced incarnation replyTo =>
      if b.isMatchedAt incarnation then b.fenceDisplacement env incarnation replyTo
      else if incarnation ∈ b.fencedDisplacements then
        b.emitAll (replyTo.toList.map fun target => .streamDisplaced target incarnation)
      else if b.matched.isNone then
        let kept := (b.pendingDisplacements incarnation).getD []
        { b with
          pendingDisplacements := Function.update b.pendingDisplacements incarnation
            (some (replyTo.elim kept kept.insert)) }
      else b
  | .peerTerminationAck incarnation =>
      if b.isMatchedAt incarnation then
        let b := { b with peerAckPending := false, terminationRetry := false }
        if b.terminal.isSome ∧ (!b.transportInstalled ∨ b.transportQuiesced) then b.releaseRing
        else b
      else b
  | .peerTerminationRetry incarnation =>
      if b.peerAckPending ∧ b.isMatchedAt incarnation then
        { b with terminationRetry := false }.sendPeerTermination env
      else b
  | .releaseComplete result =>
      let b := match result with
        | .error error => if !b.opened then b.emit (.operationFailed (.allocator error)) else b
        | .ok () => b
      b.completeRelease (result.mapError .allocator)

/-- `on_stop`. -/
def onStop : StreamBinding :=
  { b.emitAll (b.namespaceClose.toList.map StreamEffect.stopActor ++
      b.matched.toList.map fun matched => .terminate matched.incarnation) with
    namespaceClose := none }

/-- One message. A binding that has stopped handles none. -/
def step (input : HostStreamIn × StreamServices) : StreamBinding :=
  if b.stopped then b
  else
    let b := b.handle input.2 input.1
    if b.stopped then b.onStop else b

/-- The binding after its start. -/
def start : StreamBinding :=
  let b := b.onStart env
  if b.stopped then b.onStop else b

/-- The binding after its start and the messages it got. -/
def run (inputs : List (HostStreamIn × StreamServices)) : StreamBinding :=
  inputs.foldl step (b.start env)

end StreamBinding

end Swactor.Host
