import Swactor.Host.Path
import Swactor.Host.StreamBinding
import Swactor.Namespace.Client

/-!
# The messages of a session and of its blob bindings

A child asks its session to open paths and to change the namespace; the session has the actors
that serve it report back. The capability of the session and the node of the child are only
compared and are numbers. An error of the allocator and one of a stream binding are passed on.
-/
namespace Swactor.Host

open Namespace (DataPath OperationId EntryKind NamespaceError NamespaceNode MutationReceipt)
open DataPlane (BlobLease DataPlaneError BlobFailure)

inductive AccessMode
  | readOnly
  | writeOnly
  | readWrite
deriving DecidableEq, Repr

namespace AccessMode

def canRead : AccessMode → Bool
  | .readOnly | .readWrite => true
  | .writeOnly => false

def canWrite : AccessMode → Bool
  | .writeOnly | .readWrite => true
  | .readOnly => false

end AccessMode

inductive AttachmentFailure
  | sessionClosed
  | duplicateAttachment
  | routeRejected (reason : String)
  | arenaGenerationMismatch (expected found : ℕ)
  | capabilityRejected
deriving DecidableEq, Repr

/-- The errors that a session reports. -/
inductive HostError
  | invalidPath (reason : String)
  | invalidArgument (reason : String)
  | attachment (failure : AttachmentFailure)
  | sessionNotRunning
  | sessionFailed (reason : String)
  | unauthorized (path : DataPath) (access : AccessMode)
  | pathNotFound (path : DataPath)
  | pathExists (path : DataPath)
  | sourceFailure (reason : String)
  | operationCancelled
  | unsupported (reason : String)
  | busy (reason : String)
  | wrongEntryType (path : DataPath) (expected found : EntryKind)
  | pathReplaced (path : DataPath)
  | streamFault (reason : String)
  | allocator (error : DataPlaneError)
deriving DecidableEq

/-- `namespace_error`. -/
def HostError.ofNamespace : NamespaceError → HostError
  | .pathExists path => .pathExists path
  | .pathNotFound path => .pathNotFound path
  | .wrongEntryType path expected found => .wrongEntryType path expected found
  | .pathReplaced path => .pathReplaced path
  | .duplicateStreamRole path role =>
      .sessionFailed ("stream path " ++ toString path ++ " already has a " ++
        match role with
        | .source => "Source"
        | .sink => "Sink")
  | .staleIncarnation path incarnation =>
      .sessionFailed ("stream path " ++ toString path ++ " no longer names incarnation " ++
        toString incarnation.authorityEpoch ++ ":" ++ toString incarnation.revision)
  | .streamActive path =>
      .busy ("stream path " ++ toString path ++ " has active or pending endpoints")
  | .sourceRecovery reason => .sourceFailure reason
  | .directoryUnavailable reason | .storage reason | .protocol reason => .sessionFailed reason
  | .operationConflict operationId =>
      .sessionFailed ("namespace operation conflict: " ++ toString operationId)

structure BlobAllocation where
  length : ℕ
  digest : Option ℕ
deriving DecidableEq, Repr

structure OpenOptions where
  access : AccessMode
  create : Bool := false
  exclusive : Bool := false
  truncate : Bool := false
  nonblocking : Bool := false
  allocation : Option BlobAllocation := none
deriving DecidableEq, Repr

def OpenOptions.validate (options : OpenOptions) : Except HostError Unit :=
  if options.nonblocking then .error (.unsupported "O_NONBLOCK is not supported")
  else if options.exclusive ∧ !options.create then
    .error (.invalidArgument "O_EXCL requires O_CREAT")
  else if (options.create ∨ options.truncate) ∧ !options.access.canWrite then
    .error (.invalidArgument "creation and truncation require write access")
  else if options.allocation.isSome ∧ !(options.access.canWrite && options.truncate) then
    .error (.invalidArgument "blob allocation requires a truncating writable open")
  else .ok ()

/-- The open has flags that only make sense for blobs. -/
def OpenOptions.forBlob (options : OpenOptions) : Bool :=
  options.create || options.exclusive || options.truncate || options.allocation.isSome

inductive OpenPolicy
  | ordinary
  | ensureStream (replace : Bool)
deriving DecidableEq, Repr

/-- What a child asks of the namespace. -/
inductive NamespaceOperation (P : Type)
  | lookup (path : P)
  | unlink (path : P)
  | rename (source destination : P) (replace : Bool)
deriving DecidableEq, Repr

inductive NamespaceOperationResult
  | node (node : NamespaceNode)
  | mutation (revision : ℕ)
deriving DecidableEq, Repr

structure BlobMetadata where
  length : ℕ
  digest : Option ℕ
deriving DecidableEq, Repr

inductive HostBindingIn
  | resolved (result : Except HostError Namespace.BlobBinding)
  | transferReady (lease : BlobLease) (metadata : BlobMetadata)
  | transferFailed (error : HostError)
  | allocated (result : Except DataPlaneError (BlobLease × BlobMetadata))
  | cancelOpen (operation : ActorAddress)
  | release (leaseId generation : ℕ)
  | sealWrite (operation : ActorAddress) (lease : BlobLease) (metadata : BlobMetadata)
  | sealValidated (result : Except DataPlaneError Unit)
  | publishedSource (result : Except HostError ActorAddress)
  | abort (operation : ActorAddress) (leaseId generation : ℕ)
  | publicationAccepted (operation : ActorAddress)
  | publicationRejected (error : HostError)
  | reservationReleased (result : Except HostError Unit)
  | releasePublished
  | sessionClosed
  | released (result : Except DataPlaneError Unit)
deriving DecidableEq

inductive HostSessionIn
  | attach (childSession : ActorAddress) (arenaGeneration sessionCapability : ℕ)
      (childNode : Option NodeId)
  | openPath (path : Paths.DataPath) (options : OpenOptions) (policy : OpenPolicy)
      (childSession operation : ActorAddress)
  | openResolved (operation : ActorAddress) (result : Except NamespaceError NamespaceNode)
  | blobReserved (operation : ActorAddress) (path : DataPath) (reservation : OperationId)
      (result : Except NamespaceError Unit)
  | «namespace» (operation : ActorAddress) (request : NamespaceOperation Paths.DataPath)
      (childSession : ActorAddress)
  | namespaceResolved (operation childSession : ActorAddress)
      (result : Except HostError NamespaceOperationResult)
  | cancelNamespace (operation : ActorAddress)
  | cancelOpen (operation : ActorAddress)
  | streamControl (binding : ActorAddress) (message : HostStreamIn)
  | releaseBlob (binding : ActorAddress) (leaseId generation : ℕ)
  | sealWriteBlob (binding operation : ActorAddress) (lease : BlobLease) (metadata : BlobMetadata)
  | abortWriteBlob (binding operation : ActorAddress) (leaseId generation : ℕ)
  | bindingFaulted (binding operation : ActorAddress) (error : HostError)
  | bindingDone (binding : ActorAddress)
  | bindingDetached (binding : ActorAddress)
  | configureExecution (executionId : List Char) (replyTo : ActorAddress)
  | revoke
  | close (replyTo : Option ActorAddress)
  | closeChild (childSession : ActorAddress)
deriving DecidableEq

end Swactor.Host
