import Swactor.Types
import Swactor.Lib.Tiling
import Swactor.Lib.Machine

/-!
# The arena

An arena is one reservation of shared memory from which rings are leased. The manager keeps
the free ranges, the live leases with an index by ring id, and a queue of requests that did
not fit when they were made. A request is served from the first free range that its layout
fits in. Releasing a ring joins its range with its free neighbours and then serves the queue
from its front.

Offsets, sizes and ids are `u64` with checked additions. The backing memory, the number and
the time of a sample are left out.
-/
namespace Swactor.DataPlane

open Tiling Machine

structure ArenaConfig where
  nodeId : ℕ
  reservationCeiling : ℕ
  baseAlignment : ℕ
deriving DecidableEq, Repr

structure RingSpec where
  headerBytes : ℕ
  dataBytes : ℕ
  alignment : ℕ
deriving DecidableEq, Repr

structure LeaseRing where
  requestId : ℕ
  ringSpec : RingSpec
deriving DecidableEq, Repr

structure RingLayout where
  startOffset : ℕ
  headerOffset : ℕ
  dataOffset : ℕ
  endOffset : ℕ
  dataBytes : ℕ
  alignment : ℕ
deriving DecidableEq, Repr

structure RingLease where
  requestId : ℕ
  ringId : ℕ
  nodeId : ℕ
  layout : RingLayout
  requestedAlignment : ℕ
deriving DecidableEq, Repr

/-- The range of the arena that a lease takes. -/
def RingLease.span (lease : RingLease) : Span ℕ :=
  ⟨lease.layout.startOffset, lease.layout.endOffset⟩

/-- `proof` is the `verified` flag of the quiescence proof. -/
inductive ArenaRequest
  | leaseRing (request : LeaseRing)
  | cancelLease (requestId : ℕ)
  | releaseRing (ringId : ℕ) (proof : Bool)
  | shutdown
deriving DecidableEq, Repr

inductive ArenaFault
  | invalidReservationCeiling
  | invalidBaseAlignment
deriving DecidableEq, Repr

inductive RingLeaseRejection
  | cannotFitWithinCeiling
  | arenaShuttingDown
deriving DecidableEq, Repr

inductive RingReleaseRejection
  | missingQuiescenceProof
  | unknownRingId
deriving DecidableEq, Repr

inductive ArenaEvent
  | ringLeased (lease : RingLease)
  | ringLeaseQueued (requestId : ℕ)
  | ringLeaseRejected (requestId : ℕ) (reason : RingLeaseRejection)
  | ringReleased (ringId startOffset endOffset : ℕ)
  | ringReleaseRejected (ringId : ℕ) (reason : RingReleaseRejection)
  | cancelledFreshLeaseReleased (requestId : ℕ)
deriving DecidableEq, Repr

inductive ArenaState
  | ready
  | shuttingDown
deriving DecidableEq, Repr

abbrev FreeRange := Span ℕ

structure QueuedLease where
  request : LeaseRing
  cancelled : Bool
deriving DecidableEq, Repr

structure ArenaManager where
  config : ArenaConfig
  state : ArenaState := .ready
  nextRingId : ℕ := 1
  freeRanges : List FreeRange
  pending : List QueuedLease := []
  liveOrder : List RingLease := []
  liveIndex : ℕ → Option ℕ := fun _ => none
  allocationFailuresTotal : ℕ := 0
  releaseFailuresTotal : ℕ := 0

structure ArenaSnapshot where
  capacityBytes : ℕ
  liveBytes : ℕ
  freeBytes : ℕ
  activeLeases : ℕ
  pendingLeases : ℕ
  largestFreeRangeBytes : ℕ
  allocationFailuresTotal : ℕ
  releaseFailuresTotal : ℕ
deriving DecidableEq, Repr

/-- The smallest multiple of the alignment from `value` on. -/
def alignUp (value alignment : ℕ) : Option ℕ :=
  if alignment = 0 then none
  else if value % alignment = 0 then some value
  else checkedAdd value (alignment - value % alignment)

/-- `a.checked_mul(b)` on `u64`. -/
def checkedMul (a b : ℕ) : Option ℕ := if a * b ≤ u64Max then some (a * b) else none

def lcm (left right : ℕ) : Option ℕ :=
  if left = 0 ∨ right = 0 then none else checkedMul (left / left.gcd right) right

/-- Where a ring would lie in a free range that starts at `rangeStart`. -/
def ArenaConfig.requestLayoutAt (config : ArenaConfig) (spec : RingSpec) (rangeStart : ℕ) :
    Option RingLayout := do
  let alignment ← lcm config.baseAlignment spec.alignment
  let startOffset ← alignUp rangeStart alignment
  let headerOffset := startOffset
  let afterHeader ← checkedAdd headerOffset spec.headerBytes
  let dataOffset ← alignUp afterHeader alignment
  let endOffset ← checkedAdd dataOffset spec.dataBytes
  if endOffset > config.reservationCeiling then none
  else some ⟨startOffset, headerOffset, dataOffset, endOffset, spec.dataBytes, alignment⟩

/-- The layout of a ring in a free range, if the range is large enough. -/
def ArenaConfig.fitIn (config : ArenaConfig) (spec : RingSpec) (range : FreeRange) :
    Option RingLayout :=
  (config.requestLayoutAt spec range.start).filter fun layout => layout.endOffset ≤ range.stop

/-- What a layout leaves of the free range it was put in. -/
def FreeRange.remainders (range : FreeRange) (layout : RingLayout) : List FreeRange :=
  (if range.start < layout.startOffset then [⟨range.start, layout.startOffset⟩] else []) ++
    if layout.endOffset < range.stop then [⟨layout.endOffset, range.stop⟩] else []

/-- The layout in the first range that is large enough, and the free ranges without it. -/
def ArenaConfig.carve (config : ArenaConfig) (spec : RingSpec) :
    List FreeRange → Option (RingLayout × List FreeRange)
  | [] => none
  | range :: rest =>
      match config.fitIn spec range with
      | some layout => some (layout, FreeRange.remainders range layout ++ rest)
      | none => (config.carve spec rest).map fun found => (found.1, range :: found.2)

/-- The loop over the sorted free ranges behind `last`, the last range kept so far. -/
def coalesceFrom (last : FreeRange) : List FreeRange → List FreeRange
  | [] => [last]
  | range :: rest =>
      if range.start = range.stop then coalesceFrom last rest
      else if range.start ≤ last.stop then
        coalesceFrom { last with stop := max last.stop range.stop } rest
      else last :: coalesceFrom range rest

/-- Empty ranges are dropped, ranges that touch or overlap are joined. -/
def coalesce : List FreeRange → List FreeRange
  | [] => []
  | range :: rest =>
      if range.start = range.stop then coalesce rest else coalesceFrom range rest

/-- `sort_by_key` is stable, as is `insertionSort`. -/
def insertFreeRange (freeRanges : List FreeRange) (range : FreeRange) : List FreeRange :=
  coalesce ((freeRanges ++ [range]).insertionSort fun r r' => r.start ≤ r'.start)

def rebuildLiveIndex (liveOrder : List RingLease) : ℕ → Option ℕ :=
  liveOrder.zipIdx.foldl (fun index entry => Function.update index entry.1.ringId (some entry.2))
    fun _ => none

namespace ArenaManager

/-- A ceiling or an alignment of zero is refused. -/
def boot (config : ArenaConfig) : Except ArenaFault ArenaManager :=
  if config.reservationCeiling = 0 then .error .invalidReservationCeiling
  else if config.baseAlignment = 0 then .error .invalidBaseAlignment
  else .ok { config := config, freeRanges := [⟨0, config.reservationCeiling⟩] }

variable (m : ArenaManager)

def lookupLease (ringId : ℕ) : Option RingLease :=
  (m.liveIndex ringId).bind fun index => m.liveOrder[index]?

def sample : ArenaSnapshot :=
  let freeBytes := (m.freeRanges.map Span.length).sum
  { capacityBytes := m.config.reservationCeiling
    liveBytes := m.config.reservationCeiling - freeBytes
    freeBytes := freeBytes
    activeLeases := m.liveOrder.length
    pendingLeases := m.pending.countP fun queued => !queued.cancelled
    largestFreeRangeBytes := (m.freeRanges.map Span.length).foldr max 0
    allocationFailuresTotal := m.allocationFailuresTotal
    releaseFailuresTotal := m.releaseFailuresTotal }

def newLease (request : LeaseRing) (layout : RingLayout) : RingLease :=
  ⟨request.requestId, m.nextRingId, m.config.nodeId, layout, request.ringSpec.alignment⟩

/-- The free ranges are cut before the next ring id is computed: without an id the request
fails and the space it was given is free no more. -/
def tryAllocate (request : LeaseRing) : Option RingLease × ArenaManager :=
  match m.config.carve request.ringSpec m.freeRanges with
  | none => (none, m)
  | some (layout, freeRanges) =>
      match checkedAdd m.nextRingId 1 with
      | none => (none, { m with freeRanges := freeRanges })
      | some nextRingId =>
          (some (m.newLease request layout),
            { m with
              freeRanges := freeRanges
              nextRingId := nextRingId
              liveIndex := Function.update m.liveIndex m.nextRingId (some m.liveOrder.length)
              liveOrder := m.liveOrder ++ [m.newLease request layout] })

def refuseLease (requestId : ℕ) (reason : RingLeaseRejection) : ArenaManager × List ArenaEvent :=
  ({ m with allocationFailuresTotal := saturatingAdd m.allocationFailuresTotal 1 },
    [.ringLeaseRejected requestId reason])

def leaseRing (request : LeaseRing) : ArenaManager × List ArenaEvent :=
  if m.state = .shuttingDown then m.refuseLease request.requestId .arenaShuttingDown
  else if (m.config.requestLayoutAt request.ringSpec 0).isNone then
    m.refuseLease request.requestId .cannotFitWithinCeiling
  else
    match if m.pending.isEmpty then m.tryAllocate request else (none, m) with
    | (some lease, m) => (m, [.ringLeased lease])
    | (none, m) =>
        ({ m with pending := m.pending ++ [⟨request, false⟩] },
          [.ringLeaseQueued request.requestId])

def cancelLease (requestId : ℕ) : ArenaManager :=
  { m with
    pending := m.pending.map fun queued =>
      if queued.request.requestId = requestId then { queued with cancelled := true }
      else queued }

/-- The queue is served from its front up to the first request that does not fit. -/
def retryPendingLeases (m : ArenaManager) : List QueuedLease → ArenaManager × List ArenaEvent
  | [] => ({ m with pending := [] }, [])
  | queued :: rest =>
      if queued.cancelled then
        let (m, events) := m.retryPendingLeases rest
        (m, .cancelledFreshLeaseReleased queued.request.requestId :: events)
      else
        match m.tryAllocate queued.request with
        | (some lease, m) =>
            let (m, events) := m.retryPendingLeases rest
            (m, .ringLeased lease :: events)
        | (none, m) => ({ m with pending := queued :: rest }, [])

def refuseRelease (ringId : ℕ) (reason : RingReleaseRejection) : ArenaManager × List ArenaEvent :=
  ({ m with releaseFailuresTotal := saturatingAdd m.releaseFailuresTotal 1 },
    [.ringReleaseRejected ringId reason])

/-- The live lease at an index leaves and its range becomes free. -/
def unlease (index : ℕ) (lease : RingLease) : ArenaManager :=
  { m with
    liveOrder := m.liveOrder.eraseIdx index
    liveIndex := rebuildLiveIndex (m.liveOrder.eraseIdx index)
    freeRanges := insertFreeRange m.freeRanges lease.span }

def releaseRing (ringId : ℕ) (proof : Bool) : ArenaManager × List ArenaEvent :=
  match m.liveIndex ringId with
  | none => m.refuseRelease ringId .unknownRingId
  | some index =>
      if proof = false then m.refuseRelease ringId .missingQuiescenceProof
      else
        match m.liveOrder[index]? with
        | none => (m, [])
        | some lease =>
            let m := m.unlease index lease
            let released :=
              .ringReleased ringId lease.layout.startOffset lease.layout.endOffset
            if m.state = .ready then
              let (m, events) := m.retryPendingLeases m.pending
              (m, released :: events)
            else (m, [released])

def shutdown : ArenaManager × List ArenaEvent :=
  ({ m with state := .shuttingDown, pending := [] },
    m.pending.map fun queued =>
      if queued.cancelled then .cancelledFreshLeaseReleased queued.request.requestId
      else .ringLeaseRejected queued.request.requestId .arenaShuttingDown)

def request (m : ArenaManager) : ArenaRequest → ArenaManager × List ArenaEvent
  | .leaseRing request => m.leaseRing request
  | .cancelLease requestId => (m.cancelLease requestId, [])
  | .releaseRing ringId proof => m.releaseRing ringId proof
  | .shutdown => m.shutdown

/-- The manager after a request. -/
def step (request : ArenaRequest) : ArenaManager := (m.request request).1

end ArenaManager

end Swactor.DataPlane
