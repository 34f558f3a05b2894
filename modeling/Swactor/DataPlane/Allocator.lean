import Swactor.DataPlane.ArenaQueue
import Swactor.DataPlane.ByteRing

/-!
# The allocator actor

One actor owns the arena and leases it for blobs and for the rings of streams. A blob request
that is queued is cancelled at once, but its entry stays in the queue; a stream request that
is queued is not even cancelled. A later release serves the queue, so that its answer holds
more than the one event the actor expects, and a ring may be leased that nobody asks for any
more.

The content of the arena, the digests of the blobs and the addresses of the callers are left
out.
-/
namespace Swactor.DataPlane

open Tiling Machine ArenaManager List

/-- `BLOB_HEADER_LEN`. -/
def blobHeaderLen : ℕ := 128

/-- `DATA_OFFSET`: the header of a byte ring. -/
def dataOffset : ℕ := 128

/-- `BLOB_ALIGNMENT`. -/
def blobAlignment : ℕ := 64

/-- `STATE_OFFSET`: where the state word of a blob lies in its header. -/
def stateOffset : ℕ := 24

inductive BlobAccess
  | readOnly
  | writable
deriving DecidableEq, Repr

structure BlobLease where
  leaseId : ℕ
  offset : ℕ
  length : ℕ
  generation : ℕ
  access : BlobAccess
deriving DecidableEq, Repr

/-- A ring handle with its place in the arena and its lease. -/
structure PlacedRing extends RingHandle where
  offset : ℕ
  leaseId : ℕ
deriving DecidableEq, Repr

inductive AllocationKind
  | fillingRead (length : ℕ)
  | write (length : ℕ)
deriving DecidableEq, Repr

namespace AllocationKind

def length : AllocationKind → ℕ
  | .fillingRead length | .write length => length

def access : AllocationKind → BlobAccess
  | .fillingRead _ => .readOnly
  | .write _ => .writable

end AllocationKind

/-- `InstallError`. The alignment is never zero here. -/
inductive InstallError
  | zeroCapacity
  | zeroGeneration
  | leaseRejected (reason : RingLeaseRejection)
  | leaseQueued
  | unexpectedLeaseOutcome
  | io
deriving DecidableEq, Repr

/-- What the errors of blobs become at the protocol. -/
inductive BlobFailure
  | invalidLease
  | bounds
deriving DecidableEq, Repr

/-- The errors of the allocator. `installation` is the session failure `stream ring
installation failed` with the error in its text. -/
inductive DataPlaneError
  | arenaExhausted
  | sessionFailed (reason : String)
  | installation (error : InstallError)
  | blob (failure : BlobFailure)
  | streamFault (reason : String)
deriving DecidableEq, Repr

namespace ArenaManager

variable (m : ArenaManager) (allocation : RingLease)

/-- Whether a range lies inside the arena. -/
def regionPtr (offset len : ℕ) : Bool :=
  match checkedAdd offset len with
  | none => false
  | some stop => stop ≤ m.config.reservationCeiling

/-- Access to the state word of a blob. -/
def hostState (lease : BlobLease) : Except DataPlaneError Unit :=
  if !m.regionPtr lease.offset (blobHeaderLen + lease.length) then .error (.blob .invalidLease)
  else if (lease.offset + stateOffset) % 8 ≠ 0 then .error (.blob .bounds)
  else .ok ()

/-- `descriptor_from_allocation`. -/
def descriptorFromAllocation (generation length : ℕ) (access : BlobAccess) :
    Except DataPlaneError BlobLease :=
  if generation = 0 ∨ allocation.layout.headerOffset ≠ allocation.layout.startOffset ∨
      some allocation.layout.dataOffset ≠
        checkedAdd allocation.layout.startOffset blobHeaderLen ∨
      allocation.layout.dataBytes ≠ length then
    .error (.blob .invalidLease)
  else .ok ⟨allocation.ringId, allocation.layout.startOffset, length, generation, access⟩

/-- `install_writable_blob` and `install_filling_read_blob`: the header, and for a writable
blob the payload, must lie inside the arena. -/
def installBlob (generation : ℕ) (kind : AllocationKind) : Except DataPlaneError BlobLease := do
  let lease ← descriptorFromAllocation allocation generation kind.length kind.access
  if !m.regionPtr lease.offset (blobHeaderLen + lease.length) then .error (.blob .invalidLease)
  else if kind.access = .writable ∧ !m.regionPtr (lease.offset + blobHeaderLen) kind.length then
    .error (.blob .invalidLease)
  else .ok lease

/-- `byte_ring::install`: a request that is queued is given up without a word to the arena.
`writes` says whether the arena can be written. -/
def installRing (capacity generation requestId : ℕ) (writes : Bool) :
    ArenaManager × Except InstallError PlacedRing :=
  if capacity = 0 then (m, .error .zeroCapacity)
  else if generation = 0 then (m, .error .zeroGeneration)
  else
    match m.request (.leaseRing ⟨requestId, ⟨dataOffset, capacity, blobAlignment⟩⟩) with
    | (m, [.ringLeased lease]) =>
        if writes then
          (m, .ok ⟨⟨capacity, generation⟩, lease.layout.startOffset, lease.ringId⟩)
        else (m, .error .io)
    | (m, [.ringLeaseRejected _ reason]) => (m, .error (.leaseRejected reason))
    | (m, [.ringLeaseQueued _]) => (m, .error .leaseQueued)
    | (m, _) => (m, .error .unexpectedLeaseOutcome)

end ArenaManager

/-- `ArenaAllocatorActor`. `nextRequestId` starts at `FIRST_BLOB_REQUEST_ID`. -/
structure Allocator where
  arena : ArenaManager
  nextRequestId : ℕ := 2
  nextGeneration : ℕ

/-- The messages that allocate or release. `writes` is what the environment makes of the
writes to the arena. -/
inductive AllocatorIn
  | allocate (kind : AllocationKind)
  | allocateTransfer (kind : AllocationKind)
  | allocateStream (capacity : ℕ) (writes : Bool)
  | release (lease : BlobLease)
  | abortTransfer (lease : BlobLease)
  | releaseStream (ring : PlacedRing)
deriving DecidableEq, Repr

inductive AllocatorOut
  | allocated (result : Except DataPlaneError BlobLease)
  | streamAllocated (result : Except DataPlaneError PlacedRing)
  | released (result : Except DataPlaneError Unit)
deriving DecidableEq

namespace Allocator

variable (a : Allocator)

/-- The next request id and generation. -/
def takeIds (what : String) : Allocator × Except DataPlaneError (ℕ × ℕ) :=
  match checkedAdd a.nextRequestId 1 with
  | none => (a, .error (.sessionFailed (what ++ " request id exhausted")))
  | some nextRequestId =>
      let a' := { a with nextRequestId := nextRequestId }
      match checkedAdd a.nextGeneration 1 with
      | none => (a', .error (.sessionFailed (what ++ " generation exhausted")))
      | some nextGeneration =>
          ({ a' with nextGeneration := nextGeneration }, .ok (a.nextRequestId, a.nextGeneration))

def blobSpec (kind : AllocationKind) : RingSpec := ⟨blobHeaderLen, kind.length, blobAlignment⟩

/-- The lease of a blob after the arena answered. -/
def settleBlob (kind : AllocationKind) (generation : ℕ) :
    ArenaManager × List ArenaEvent → Allocator × Except DataPlaneError BlobLease
  | (m, [.ringLeased allocation]) =>
      match m.installBlob allocation generation kind with
      | .ok lease => ({ a with arena := m }, .ok lease)
      | .error error =>
          ({ a with arena := m.step (.releaseRing allocation.ringId true) }, .error error)
  | (m, [.ringLeaseQueued requestId]) =>
      ({ a with arena := m.step (.cancelLease requestId) }, .error .arenaExhausted)
  | (m, [.ringLeaseRejected _ _]) => ({ a with arena := m }, .error .arenaExhausted)
  | (m, _) =>
      ({ a with arena := m },
        .error (.sessionFailed "unexpected blob arena allocation outcome"))

def allocate (kind : AllocationKind) : Allocator × Except DataPlaneError BlobLease :=
  match a.takeIds "blob" with
  | (a, .error error) => (a, .error error)
  | (a, .ok (requestId, generation)) =>
      a.settleBlob kind generation (a.arena.request (.leaseRing ⟨requestId, blobSpec kind⟩))

def allocateStream (capacity : ℕ) (writes : Bool) : Allocator × Except DataPlaneError PlacedRing :=
  match a.takeIds "stream" with
  | (a, .error error) => (a, .error error)
  | (a, .ok (requestId, generation)) =>
      match a.arena.installRing capacity generation requestId writes with
      | (m, .ok ring) => ({ a with arena := m }, .ok ring)
      | (m, .error (.leaseRejected _)) => ({ a with arena := m }, .error .arenaExhausted)
      | (m, .error .leaseQueued) => ({ a with arena := m }, .error .arenaExhausted)
      | (m, .error error) => ({ a with arena := m }, .error (.installation error))

/-- The common end of the releases: it succeeds if the arena answers with one event. -/
def releaseRing (a : Allocator) (ringId : ℕ) (what : String) :
    Allocator × Except DataPlaneError Unit :=
  match a.arena.request (.releaseRing ringId true) with
  | (m, [.ringReleased _ _ _]) => ({ a with arena := m }, .ok ())
  | (m, _) =>
      ({ a with arena := m }, .error (.sessionFailed ("arena rejected " ++ what ++ " release")))

/-- The live lease that has the given place. -/
def placed (ringId offset length : ℕ) : Bool :=
  match a.arena.lookupLease ringId with
  | none => false
  | some allocation =>
      allocation.layout.startOffset = offset && allocation.layout.dataBytes = length

def release (lease : BlobLease) : Allocator × Except DataPlaneError Unit :=
  if !a.placed lease.leaseId lease.offset lease.length then (a, .error (.blob .invalidLease))
  else
    match a.arena.hostState lease with
    | .error error => (a, .error error)
    | .ok () => a.releaseRing lease.leaseId "blob"

/-- `abort_host_blob` and then `release`. -/
def abortTransfer (lease : BlobLease) : Allocator × Except DataPlaneError Unit :=
  match a.arena.hostState lease with
  | .error error => (a, .error error)
  | .ok () => a.release lease

def releaseStream (ring : PlacedRing) : Allocator × Except DataPlaneError Unit :=
  if !(a.arena.lookupLease ring.leaseId).isSome then
    (a, .error (.streamFault "stream arena lease is no longer live"))
  else if !a.placed ring.leaseId ring.offset ring.capacity then
    (a, .error (.streamFault "stream arena lease does not match ring handle"))
  else a.releaseRing ring.leaseId "stream"

def handle : AllocatorIn → Allocator × AllocatorOut
  | .allocate kind | .allocateTransfer kind =>
      let (a, result) := a.allocate kind
      (a, .allocated result)
  | .allocateStream capacity writes =>
      let (a, result) := a.allocateStream capacity writes
      (a, .streamAllocated result)
  | .release lease =>
      let (a, result) := a.release lease
      (a, .released result)
  | .abortTransfer lease =>
      let (a, result) := a.abortTransfer lease
      (a, .released result)
  | .releaseStream ring =>
      let (a, result) := a.releaseStream ring
      (a, .released result)

end Allocator

/-- The allocator with the ring ids of the leases that were returned and not released again,
as its callers know them. -/
structure Tenancy where
  allocator : Allocator
  held : List ℕ

namespace Tenancy

/-- What the answer to a release makes of the leases that are held. -/
def drop (held : List ℕ) (ringId : ℕ) : Except DataPlaneError Unit → List ℕ
  | .ok () => held.erase ringId
  | .error _ => held

/-- What a message and its answer make of the leases that are held. -/
def account (held : List ℕ) : AllocatorIn → AllocatorOut → List ℕ
  | _, .allocated (.ok lease) => held ++ [lease.leaseId]
  | _, .streamAllocated (.ok ring) => held ++ [ring.leaseId]
  | .release lease, .released result => drop held lease.leaseId result
  | .abortTransfer lease, .released result => drop held lease.leaseId result
  | .releaseStream ring, .released result => drop held ring.leaseId result
  | _, _ => held

def step (t : Tenancy) (message : AllocatorIn) : Tenancy :=
  let (allocator, answer) := t.allocator.handle message
  ⟨allocator, account t.held message answer⟩

/-- The arena decides the request at once: it is too large for the arena, or it fits a free
range and a ring id is left. -/
def Immediate (m : ArenaManager) (spec : RingSpec) : Prop :=
  m.config.requestLayoutAt spec 0 = none ∨ m.Fits spec ∧ m.nextRingId < u64Max

instance immediate_decidable (m : ArenaManager) (spec : RingSpec) :
    Decidable (Immediate m spec) :=
  inferInstanceAs (Decidable (_ ∨ _))

/-- No allocation is queued, and the arena can be written. -/
def Fair (t : Tenancy) : AllocatorIn → Prop
  | .allocate kind | .allocateTransfer kind =>
      Immediate t.allocator.arena (Allocator.blobSpec kind)
  | .allocateStream capacity writes =>
      Immediate t.allocator.arena ⟨dataOffset, capacity, blobAlignment⟩ ∧ writes = true
  | .release _ | .abortTransfer _ | .releaseStream _ => True

instance fair_decidable (t : Tenancy) : ∀ message, Decidable (t.Fair message)
  | .allocate kind | .allocateTransfer kind =>
      inferInstanceAs (Decidable (Immediate t.allocator.arena (Allocator.blobSpec kind)))
  | .allocateStream capacity writes =>
      inferInstanceAs (Decidable (Immediate t.allocator.arena
        ⟨dataOffset, capacity, blobAlignment⟩ ∧ writes = true))
  | .release _ | .abortTransfer _ | .releaseStream _ => inferInstanceAs (Decidable True)

end Tenancy

namespace ArenaManager

/-- The ring ids of the live leases. -/
def liveIds (m : ArenaManager) : List ℕ := m.liveOrder.map RingLease.ringId

/-- A partitioned arena in which nothing waits. -/
structure Idle (m : ArenaManager) : Prop where
  part : m.Partitioned fun _ => True
  ready : m.state = .ready
  empty : m.pending = []

variable {m : ArenaManager} {request : LeaseRing} {ringId : ℕ}

theorem Idle.grant (h : m.Idle) {layout : RingLayout} {free : List FreeRange}
    (hcarved : m.config.Carved request.ringSpec m.freeRanges layout free) :
    (m.grant request layout free).Idle :=
  ⟨h.part.grant trivial hcarved, h.ready, h.empty⟩

theorem liveIds_grant (m : ArenaManager) (request : LeaseRing) (layout : RingLayout)
    (free : List FreeRange) :
    (m.grant request layout free).liveIds = m.liveIds ++ [m.nextRingId] := by
  simp [liveIds, grant, newLease]

theorem Idle.nextRingId_notMem (h : m.Idle) : m.nextRingId ∉ m.liveIds := by
  intro hmem
  obtain ⟨lease, hlease, hid⟩ := mem_map.mp hmem
  exact (h.part.fresh lease hlease).ne hid

/-- A request that is decided at once is granted or refused. -/
theorem Idle.leaseRing (h : m.Idle) (hnow : Tenancy.Immediate m request.ringSpec) :
    (∃ layout free, m.config.Carved request.ringSpec m.freeRanges layout free ∧
        m.request (.leaseRing request) =
          (m.grant request layout free, [.ringLeased (m.newLease request layout)])) ∨
      m.request (.leaseRing request) = m.refuseLease request.requestId .cannotFitWithinCeiling := by
  rcases hnow with hnone | ⟨hfits, hid⟩
  · refine Or.inr ?_
    simp [ArenaManager.request, ArenaManager.leaseRing, h.ready, hnone]
  · obtain ⟨⟨layout, free⟩, hcarve⟩ := fits_iff_carve.mp hfits
    exact Or.inl ⟨layout, free, ArenaConfig.carved_of_carve hcarve,
      leaseRing_of_carve h.ready h.empty hid hcarve⟩

theorem Idle.refuseLease (h : m.Idle) (requestId : ℕ) (reason : RingLeaseRejection) :
    (m.refuseLease requestId reason).1.Idle :=
  ⟨h.part.withPending h.part.queued _ _ _, h.ready, h.empty⟩

/-- Releasing a live ring of an idle arena gives one event. -/
theorem Idle.releaseRing (h : m.Idle) (hlive : ringId ∈ m.liveIds) :
    ∃ m' start stop,
      m.request (.releaseRing ringId true) = (m', [.ringReleased ringId start stop]) ∧ m'.Idle ∧
        m'.liveIds = m.liveIds.erase ringId := by
  rcases releaseRing_cases h.part ringId true with
    ⟨reason, heq⟩ | ⟨index, lease, hindex, hlease, hid, -, ⟨hstate, -⟩ | ⟨-, heq⟩⟩
  · obtain ⟨index, hindex⟩ := getElem?_of_mem hlive
    rw [liveIds, getElem?_map] at hindex
    have hsome := (h.part.index ringId index).mpr hindex
    simp only [ArenaManager.releaseRing, hsome] at heq
    obtain ⟨lease, hlease, -⟩ := Option.map_eq_some_iff.mp hindex
    simp [hlease, refuseRelease, h.ready, unlease_state] at heq
  · exact absurd h.ready hstate
  · rw [h.empty] at heq
    refine ⟨_, _, _, heq, ⟨(h.part.unlease hlease).withPending (by simp) _ _ _, h.ready, rfl⟩, ?_⟩
    obtain ⟨hlt, rfl⟩ := List.getElem?_eq_some_iff.mp hlease
    change (m.liveOrder.eraseIdx index).map RingLease.ringId = _
    rw [← eraseIdx_map, ← h.part.index.nodup.erase_getElem index (by simpa using hlt), liveIds]
    simp [hid]

theorem installBlob_leaseId {allocation : RingLease} {generation : ℕ} {kind : AllocationKind}
    {lease : BlobLease} (h : m.installBlob allocation generation kind = .ok lease) :
    lease.leaseId = allocation.ringId := by
  unfold installBlob descriptorFromAllocation at h
  split_ifs at h with hbad
  · cases h
  · simp only [bind, Except.bind] at h
    split_ifs at h
    obtain rfl := Except.ok.inj h
    rfl

/-- Installing a ring leaves an idle arena with the ring it returned, or without a new one. -/
theorem Idle.installRing (h : m.Idle) {capacity generation requestId : ℕ}
    (hnow : Tenancy.Immediate m ⟨dataOffset, capacity, blobAlignment⟩) :
    (m.installRing capacity generation requestId true).1.Idle ∧
      (m.installRing capacity generation requestId true).1.liveIds = m.liveIds ++
        ((m.installRing capacity generation requestId true).2.toOption.map
          PlacedRing.leaseId).toList := by
  unfold ArenaManager.installRing
  split_ifs with hcap hgen hwrites
  · exact ⟨h, (append_nil _).symm⟩
  · exact ⟨h, (append_nil _).symm⟩
  · let request : LeaseRing := ⟨requestId, ⟨dataOffset, capacity, blobAlignment⟩⟩
    rcases h.leaseRing (show Tenancy.Immediate m request.ringSpec from hnow) with
      ⟨layout, free, hcarved, heq⟩ | heq
    · rw [heq]
      exact ⟨h.grant hcarved, m.liveIds_grant _ layout free⟩
    · rw [heq]
      exact ⟨h.refuseLease requestId .cannotFitWithinCeiling, (append_nil _).symm⟩
  · exact absurd rfl hwrites

end ArenaManager

namespace Allocator

variable {a a' : Allocator} {ringId : ℕ}

theorem takeIds_arena (a : Allocator) (what : String) : (a.takeIds what).1.arena = a.arena := by
  unfold takeIds
  split
  · rfl
  · split <;> rfl

/-- An allocation leaves an idle arena with the lease it returned, or without a new one. -/
structure Allocates (a a' : Allocator) (leaseId : Option ℕ) : Prop where
  idle : a'.arena.Idle
  live : a'.arena.liveIds = a.arena.liveIds ++ leaseId.toList

variable {kind : AllocationKind}

theorem allocates_settleBlob (h : a.arena.Idle) {generation requestId : ℕ}
    (hnow : Tenancy.Immediate a.arena (blobSpec kind)) :
    let r := a.settleBlob kind generation (a.arena.request (.leaseRing ⟨requestId, blobSpec kind⟩))
    Allocates a r.1 (r.2.toOption.map BlobLease.leaseId) := by
  let request : LeaseRing := ⟨requestId, blobSpec kind⟩
  rcases h.leaseRing (show Tenancy.Immediate a.arena request.ringSpec from hnow) with
    ⟨layout, free, hcarved, heq⟩ | heq
  · rw [heq]
    have hidle := h.grant hcarved
    have hlive := a.arena.liveIds_grant ⟨requestId, blobSpec kind⟩ layout free
    simp only [settleBlob]
    cases hinstall : (a.arena.grant ⟨requestId, blobSpec kind⟩ layout free).installBlob
        (a.arena.newLease ⟨requestId, blobSpec kind⟩ layout) generation kind with
    | ok lease =>
      refine ⟨hidle, ?_⟩
      have hid : lease.leaseId = a.arena.nextRingId := installBlob_leaseId hinstall
      simpa [hid, Except.toOption] using hlive
    | error error =>
      have hmem : a.arena.nextRingId ∈
          (a.arena.grant ⟨requestId, blobSpec kind⟩ layout free).liveIds := by simp [hlive]
      obtain ⟨m', start, stop, hreq, hidle', hlive'⟩ := hidle.releaseRing hmem
      have hstep : (a.arena.grant ⟨requestId, blobSpec kind⟩ layout free).step
          (.releaseRing a.arena.nextRingId true) = m' := congrArg Prod.fst hreq
      refine ⟨hstep.symm ▸ hidle', ?_⟩
      change liveIds (step _ (.releaseRing a.arena.nextRingId true)) = _
      rw [hstep, hlive', hlive, erase_append_right _ h.nextRingId_notMem]
      simp [Except.toOption]
  · rw [heq]
    exact ⟨h.refuseLease requestId .cannotFitWithinCeiling, (append_nil _).symm⟩

/-- Taking the ids leaves the arena alone. -/
theorem Allocates.of_takeIds {a a' a'' : Allocator} {leaseId : Option ℕ}
    (harena : a'.arena = a.arena) (h : Allocates a' a'' leaseId) : Allocates a a'' leaseId :=
  ⟨h.idle, harena ▸ h.live⟩

theorem allocates_nothing (h : a.arena.Idle) (harena : a'.arena = a.arena) : Allocates a a' none :=
  ⟨harena.symm ▸ h, by rw [harena]; exact (append_nil _).symm⟩

theorem allocates_allocate (h : a.arena.Idle) (hnow : Tenancy.Immediate a.arena (blobSpec kind)) :
    Allocates a (a.allocate kind).1 ((a.allocate kind).2.toOption.map BlobLease.leaseId) := by
  have harena := a.takeIds_arena "blob"
  unfold allocate
  rcases hids : a.takeIds "blob" with ⟨a', error | ⟨requestId, generation⟩⟩
  · rw [hids] at harena
    exact allocates_nothing h harena
  · rw [hids] at harena
    exact (allocates_settleBlob (harena.symm ▸ h) (harena.symm ▸ hnow)).of_takeIds harena

theorem allocates_allocateStream (h : a.arena.Idle) {capacity : ℕ}
    (hnow : Tenancy.Immediate a.arena ⟨dataOffset, capacity, blobAlignment⟩) :
    Allocates a (a.allocateStream capacity true).1
      ((a.allocateStream capacity true).2.toOption.map PlacedRing.leaseId) := by
  have harena := a.takeIds_arena "stream"
  unfold allocateStream
  rcases hids : a.takeIds "stream" with ⟨a', error | ⟨requestId, generation⟩⟩
  · rw [hids] at harena
    exact allocates_nothing h harena
  · rw [hids] at harena
    have hidle : a'.arena.Idle := harena.symm ▸ h
    have hinstall := @ArenaManager.Idle.installRing a'.arena hidle capacity generation requestId
      (harena.symm ▸ hnow)
    refine Allocates.of_takeIds harena ?_
    rcases hring : a'.arena.installRing capacity generation requestId true with ⟨m', error | ring⟩
    · rw [hring] at hinstall
      dsimp only
      rw [hring]
      cases error <;> exact ⟨hinstall.1, hinstall.2⟩
    · rw [hring] at hinstall
      dsimp only
      rw [hring]
      exact ⟨hinstall.1, hinstall.2⟩

/-- A release fails and changes nothing, or it removes the live lease and succeeds. -/
def Releases (a : Allocator) (ringId : ℕ) (r : Allocator × Except DataPlaneError Unit) : Prop :=
  (r.1 = a ∧ ∃ error, r.2 = .error error) ∨
    (r.2 = .ok () ∧ ringId ∈ a.arena.liveIds ∧ r.1.arena.Idle ∧
      r.1.arena.liveIds = a.arena.liveIds.erase ringId)

section

variable (h : a.arena.Idle)
include h

theorem mem_liveIds_of_placed {ringId offset length : ℕ}
    (hplaced : a.placed ringId offset length = true) : ringId ∈ a.arena.liveIds := by
  unfold placed at hplaced
  cases hlookup : a.arena.lookupLease ringId with
  | none => simp [hlookup] at hplaced
  | some allocation =>
    obtain ⟨index, hindex, hlease⟩ := Option.bind_eq_some_iff.mp hlookup
    have hid := (h.part.index ringId index).mp hindex
    rw [hlease] at hid
    exact mem_map.mpr ⟨allocation, mem_of_getElem? hlease, Option.some.inj hid⟩

theorem releases_releaseRing (hlive : ringId ∈ a.arena.liveIds) (what : String) :
    Releases a ringId (a.releaseRing ringId what) := by
  obtain ⟨m', start, stop, hreq, hidle, hlive'⟩ := h.releaseRing hlive
  unfold releaseRing
  rw [hreq]
  exact Or.inr ⟨rfl, hlive, hidle, hlive'⟩

theorem releases_release (lease : BlobLease) : Releases a lease.leaseId (a.release lease) := by
  unfold release
  split_ifs with hplaced
  · exact Or.inl ⟨rfl, _, rfl⟩
  · split
    · exact Or.inl ⟨rfl, _, rfl⟩
    · exact releases_releaseRing h (mem_liveIds_of_placed h (by simpa using hplaced)) _

theorem releases_abortTransfer (lease : BlobLease) :
    Releases a lease.leaseId (a.abortTransfer lease) := by
  unfold abortTransfer
  split
  · exact Or.inl ⟨rfl, _, rfl⟩
  · exact releases_release h lease

theorem releases_releaseStream (ring : PlacedRing) :
    Releases a ring.leaseId (a.releaseStream ring) := by
  unfold releaseStream
  split_ifs with hlive hplaced
  · exact Or.inl ⟨rfl, _, rfl⟩
  · exact Or.inl ⟨rfl, _, rfl⟩
  · exact releases_releaseRing h (mem_liveIds_of_placed h (by simpa using hplaced)) _

end

end Allocator

/-- The ring a message asks to release. -/
def AllocatorIn.releases : AllocatorIn → Option ℕ
  | .release lease | .abortTransfer lease => some lease.leaseId
  | .releaseStream ring => some ring.leaseId
  | .allocate _ | .allocateTransfer _ | .allocateStream _ _ => none

theorem Allocator.releases_handle {a : Allocator} (h : a.arena.Idle) {message : AllocatorIn}
    {ringId : ℕ} (hmessage : message.releases = some ringId) :
    ∃ result, (a.handle message).2 = .released result ∧
      Releases a ringId ((a.handle message).1, result) := by
  cases message with
  | release lease =>
    obtain rfl := Option.some.inj hmessage
    exact ⟨_, rfl, releases_release h lease⟩
  | abortTransfer lease =>
    obtain rfl := Option.some.inj hmessage
    exact ⟨_, rfl, releases_abortTransfer h lease⟩
  | releaseStream ring =>
    obtain rfl := Option.some.inj hmessage
    exact ⟨_, rfl, releases_releaseStream h ring⟩
  | allocate kind | allocateTransfer kind | allocateStream capacity writes => cases hmessage

namespace Tenancy

/-- The arena is idle and its live leases are those held. -/
structure Sound (t : Tenancy) : Prop where
  idle : t.allocator.arena.Idle
  live : t.allocator.arena.liveIds = t.held

theorem account_released {held : List ℕ} {message : AllocatorIn} {ringId : ℕ}
    (hmessage : message.releases = some ringId) (result : Except DataPlaneError Unit) :
    account held message (.released result) = drop held ringId result := by
  cases message with
  | release lease | abortTransfer lease | releaseStream ring =>
    obtain rfl := Option.some.inj hmessage
    rfl
  | allocate | allocateTransfer | allocateStream => cases hmessage

theorem account_allocated (held : List ℕ) (message : AllocatorIn)
    (result : Except DataPlaneError BlobLease) :
    account held message (.allocated result) =
      held ++ (result.toOption.map BlobLease.leaseId).toList := by
  cases result <;> simp [account, Except.toOption]

theorem account_streamAllocated (held : List ℕ) (message : AllocatorIn)
    (result : Except DataPlaneError PlacedRing) :
    account held message (.streamAllocated result) =
      held ++ (result.toOption.map PlacedRing.leaseId).toList := by
  cases result <;> simp [account, Except.toOption]

variable {t : Tenancy} {a' : Allocator} {ringId : ℕ}

theorem Sound.allocates {leaseId : Option ℕ} (h : t.Sound)
    (halloc : t.allocator.Allocates a' leaseId) : Sound ⟨a', t.held ++ leaseId.toList⟩ :=
  ⟨halloc.idle, h.live ▸ halloc.live⟩

theorem Sound.releases {result : Except DataPlaneError Unit} (h : t.Sound)
    (hrel : t.allocator.Releases ringId (a', result)) :
    Sound ⟨a', drop t.held ringId result⟩ := by
  rcases hrel with ⟨hsame, error, hresult⟩ | ⟨hresult, -, hidle, hlive⟩
  · dsimp only at hsame hresult
    rw [hsame, hresult]
    exact h
  · dsimp only at hresult
    rw [hresult]
    exact ⟨hidle, h.live ▸ hlive⟩

theorem Sound.step (h : t.Sound) (message : AllocatorIn) (hfair : t.Fair message) :
    (t.step message).Sound := by
  cases hmessage : message.releases with
  | some ringId =>
    obtain ⟨result, hanswer, hrel⟩ := Allocator.releases_handle h.idle hmessage
    simp only [Tenancy.step, hanswer, account_released hmessage]
    exact h.releases hrel
  | none =>
    cases message with
    | allocate kind | allocateTransfer kind =>
      simp only [Tenancy.step, Allocator.handle, account_allocated]
      exact h.allocates (Allocator.allocates_allocate h.idle hfair)
    | allocateStream capacity writes =>
      obtain ⟨hnow, rfl⟩ := hfair
      simp only [Tenancy.step, Allocator.handle, account_streamAllocated]
      exact h.allocates (Allocator.allocates_allocateStream h.idle hnow)
    | release lease | abortTransfer lease | releaseStream ring => cases hmessage

/-- A fresh allocator on an arena that was just booted. -/
def fresh (arena : ArenaManager) (generation : ℕ) : Tenancy :=
  ⟨{ arena := arena, nextGeneration := generation }, []⟩

/-- No lease leaks: in every run in which no allocation is queued and the arena can be written,
the live leases are those returned and not released, nothing waits in the arena, and a release
succeeds exactly if it removed the live lease. -/
theorem no_leak {config : ArenaConfig} {arena : ArenaManager}
    (hboot : boot config = .ok arena) (generation : ℕ) (messages : List AllocatorIn)
    (hfair : Guarded Fair step (fresh arena generation) messages) :
    let t := messages.foldl step (fresh arena generation)
    t.allocator.arena.liveIds = t.held ∧ t.allocator.arena.pending = [] ∧
      ∀ message ringId, message.releases = some ringId →
        ((t.allocator.handle message).2 = .released (.ok ()) ↔
          ringId ∈ t.allocator.arena.liveIds ∧
            ringId ∉ (t.allocator.handle message).1.arena.liveIds) := by
  intro t
  have hstart : (fresh arena generation).Sound := by
    obtain ⟨-, -, rfl⟩ := boot_eq_ok hboot
    exact ⟨⟨partitioned_boot hboot, rfl, rfl⟩, rfl⟩
  have hsound : t.Sound := hfair.invariant (fun t message h hf => h.step message hf) hstart
  refine ⟨hsound.live, hsound.idle.empty, fun message ringId hmessage => ?_⟩
  obtain ⟨result, hanswer, hrel⟩ := Allocator.releases_handle hsound.idle hmessage
  rw [hanswer]
  rcases hrel with ⟨hsame, error, rfl⟩ | ⟨rfl, hmem, -, hlive⟩
  · dsimp only at hsame
    simp [hsame]
  · have hnodup : t.allocator.arena.liveIds.Nodup := hsound.idle.part.index.nodup
    simp [hlive, hmem, hnodup.not_mem_erase]

/-- Two blobs and a stream come and go in an arena of four kibibytes. -/
theorem no_leak_mixed :
    let arena : ArenaManager := { config := ⟨0, 4096, 64⟩, freeRanges := [⟨0, 4096⟩] }
    let messages : List AllocatorIn := [.allocate (.write 100), .allocateStream 512 true,
      .allocateTransfer (.fillingRead 8192), .release ⟨1, 0, 100, 5, .writable⟩,
      .allocate (.write 64)]
    let t := messages.foldl step (fresh arena 5)
    t.held = [2, 3] ∧ t.allocator.arena.liveIds = t.held := by
  intro arena messages t
  have hboot : boot ⟨0, 4096, 64⟩ = .ok arena := rfl
  have hfair : Guarded Fair step (fresh arena 5) messages := by decide +kernel
  have hheld : t.held = [2, 3] := by decide +kernel
  clear_value arena messages
  exact ⟨hheld, (no_leak hboot 5 messages hfair).1⟩

/-- In an arena of `512` bytes the second of two allocations is queued and fails. When the
first is released, the second stream ring is leased to nobody; and for streams as for blobs
the release fails though it removed the lease. -/
theorem queued_allocation_leaks :
    let arena : ArenaManager := { config := ⟨0, 512, 64⟩, freeRanges := [⟨0, 512⟩] }
    let streams : List AllocatorIn := [.allocateStream 128 true, .allocateStream 256 true]
    let t := streams.foldl step (fresh arena 1)
    let released := t.allocator.handle (.releaseStream ⟨⟨128, 1⟩, 0, 1⟩)
    let blobs : List AllocatorIn := [.allocate (.write 128), .allocate (.write 256)]
    let t' := blobs.foldl step (fresh arena 1)
    let released' := t'.allocator.handle (.release ⟨1, 0, 128, 1, .writable⟩)
    boot ⟨0, 512, 64⟩ = .ok arena ∧
      t.held = [1] ∧ t.allocator.arena.pending.length = 1 ∧
      released.2 = .released (.error (.sessionFailed "arena rejected stream release")) ∧
      released.1.arena.liveIds = [2] ∧
      t'.held = [1] ∧
      released'.2 = .released (.error (.sessionFailed "arena rejected blob release")) ∧
      released'.1.arena.liveIds = [] := by
  intro arena streams t released blobs t' released'
  exact ⟨rfl, by decide +kernel, by decide +kernel, by decide +kernel, by decide +kernel,
    by decide +kernel, by decide +kernel, by decide +kernel⟩

end Tenancy

end Swactor.DataPlane
