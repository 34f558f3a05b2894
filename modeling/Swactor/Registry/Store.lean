import Swactor.Types

/-!
# The cluster registry

`ClusterRegistry` maps names to actor locations and is replicated by gossip. Its
entry map, its dissemination queue, its logical clock and its event buffer are
modelled with every operation that writes them. The entry map is a hash map in
the source: an operation that iterates over it takes the iteration order as the
argument `iter`.
-/
namespace Swactor.Registry
open Std (ExtTreeMap)

structure RegistryConfig where
  maxEvents : ℕ
  tombstoneTtl : ℕ
  gcInterval : ℕ
  disseminationLambda : ℕ

/-- `RegistryConfig::default()`. -/
def defaultConfig : RegistryConfig := ⟨256, 3600, 1000, 3⟩

/-- The unit of replication. -/
structure RegistryEntry where
  name : String
  actorAddr : ActorAddress
  nodeId : NodeId
  timestamp : ℕ
  generation : ℕ
  tombstone : Bool
  deriving DecidableEq, Repr

inductive RegistryEvent
  | registered (name : String) (actorAddr : ActorAddress) (nodeId : NodeId)
  | unregistered (name : String) (previousAddr : ActorAddress)
  deriving DecidableEq, Repr

/-- A queued entry with its remaining number of transmissions. -/
structure DisseminationEntry where
  entry : RegistryEntry
  remaining : ℕ
  deriving DecidableEq, Repr

structure ClusterRegistry where
  entries : ExtTreeMap String RegistryEntry compare
  dissemination : List DisseminationEntry
  clock : ℕ
  events : List RegistryEvent
  config : RegistryConfig
  tickCount : ℕ

/-- Higher timestamp, then higher generation, then higher node id. -/
def lwwWins (incoming existing : RegistryEntry) : Bool :=
  if incoming.timestamp ≠ existing.timestamp then incoming.timestamp > existing.timestamp
  else if incoming.generation ≠ existing.generation then
    incoming.generation > existing.generation
  else incoming.nodeId > existing.nodeId

namespace ClusterRegistry

def new (config : RegistryConfig) : ClusterRegistry := ⟨∅, [], 0, [], config, 0⟩

variable (r : ClusterRegistry) (name : String)

/-- The binding a lookup returns; a tombstone resolves to nothing. -/
def resolve : Option (ActorAddress × NodeId) :=
  r.entries[name]?.bind fun e => if e.tombstone then none else some (e.actorAddr, e.nodeId)

def nextGeneration : ℕ :=
  (r.entries[name]?.map fun e => wrappingAdd e.generation 1).getD 1

/-- `Λ * max(ceil(log2(max(n, 2))), 1)`. -/
def transmitBudget (clusterSize : ℕ) : ℕ :=
  r.config.disseminationLambda * max (Nat.clog 2 (max clusterSize 2)) 1

/-- Queue an entry, replacing the first queued entry of the same name. -/
def enqueue (entry : RegistryEntry) (clusterSize : ℕ) : ClusterRegistry :=
  let queued : DisseminationEntry := ⟨entry, r.transmitBudget clusterSize⟩
  if r.dissemination.any (fun d => d.entry.name = entry.name) then
    { r with dissemination := r.dissemination.replaceF (fun d =>
        if d.entry.name = entry.name then some queued else none) }
  else { r with dissemination := r.dissemination ++ [queued] }

/-- Append an event and drop the oldest ones beyond the configured bound. -/
def emitEvent (entry : RegistryEntry) : ClusterRegistry :=
  let event := if entry.tombstone then .unregistered entry.name entry.actorAddr
    else .registered entry.name entry.actorAddr entry.nodeId
  let events := r.events ++ [event]
  { r with events := events.drop (events.length - r.config.maxEvents) }

/-- Merge one entry and report whether the stored state changed. -/
def merge (remote : RegistryEntry) : ClusterRegistry × Bool :=
  let existing := r.entries[remote.name]?
  if existing.any (fun e => !lwwWins remote e) then (r, false)
  else
    let changed := existing.all (fun e => e ≠ remote)
    let r := if changed then
        let r := r.emitEvent remote
        if remote.timestamp ≥ r.clock then
          { r with clock := wrappingAdd remote.timestamp 1 } else r
      else r
    ({ r with entries := r.entries.insert remote.name remote }, changed)

def mergeAndEnqueue (entry : RegistryEntry) (clusterSize : ℕ) : ClusterRegistry :=
  let merged := r.merge entry
  if merged.2 then merged.1.enqueue entry clusterSize else merged.1

/-- Gossip received from a peer; changed entries are queued again. -/
def mergeBatch (entries : List RegistryEntry) (clusterSize : ℕ) : ClusterRegistry :=
  entries.foldl (fun r entry => r.mergeAndEnqueue entry clusterSize) r

/-- The common tail of the local writers: move the clock, stamp an entry with it and
with the name's next generation, merge it and queue it. -/
def writeAt (clock : ℕ) (name : String) (actorAddr : ActorAddress) (nodeId : NodeId)
    (tombstone : Bool) (clusterSize : ℕ) : ClusterRegistry :=
  let r := { r with clock := clock }
  r.mergeAndEnqueue ⟨name, actorAddr, nodeId, clock, r.nextGeneration name, tombstone⟩
    clusterSize

def register (actorAddr : ActorAddress) (nodeId : NodeId) (clusterSize : ℕ) : ClusterRegistry :=
  r.writeAt (wrappingAdd r.clock 1) name actorAddr nodeId false clusterSize

/-- Register with a caller-supplied logical timestamp. -/
def registerAt (actorAddr : ActorAddress) (nodeId : NodeId) (timestamp clusterSize : ℕ) :
    ClusterRegistry :=
  r.writeAt (max (saturatingAdd r.clock 1) timestamp) name actorAddr nodeId false clusterSize

/-- The address last bound to a name, or the zero address. -/
def boundAddr : ActorAddress :=
  (r.entries[name]?.map (·.actorAddr)).getD 0

/-- Write a tombstone. -/
def unregister (nodeId : NodeId) (clusterSize : ℕ) : ClusterRegistry :=
  r.writeAt (wrappingAdd r.clock 1) name (r.boundAddr name) nodeId true clusterSize

/-- The names whose live entry belongs to `node`, in iteration order. -/
def owned (iter : List String) (node : NodeId) : List String :=
  iter.filter fun name => r.entries[name]?.any fun e => e.nodeId = node && !e.tombstone

/-- The loop body of `tombstone_node`: one tombstone under the dead node's id. -/
def tombstoneName (deadNodeId : NodeId) (clusterSize : ℕ) (r : ClusterRegistry)
    (name : String) : ClusterRegistry :=
  r.writeAt (wrappingAdd r.clock 1) name (r.boundAddr name) deadNodeId true clusterSize

def tombstoneNode (iter : List String) (deadNodeId : NodeId) (clusterSize : ℕ) : ClusterRegistry :=
  (r.owned iter deadNodeId).foldl (tombstoneName deadNodeId clusterSize) r

/-- Queue every stored entry again, in iteration order. -/
def reDisseminateAll (iter : List String) (clusterSize : ℕ) : ClusterRegistry :=
  (iter.filterMap fun name => r.entries[name]?).foldl (fun r e => r.enqueue e clusterSize) r

/-- Take up to `maxCount` queued entries and spend one transmission of each. -/
def takePending (maxCount : ℕ) : ClusterRegistry × List RegistryEntry :=
  let count := min maxCount r.dissemination.length
  let taken := r.dissemination.take count
  let spent := taken.map fun d => { d with remaining := d.remaining - 1 }
  ({ r with dissemination := (spent ++ r.dissemination.drop count).filter (0 < ·.remaining) },
    taken.map (·.entry))

/-- Every `gcInterval` ticks, remove the old tombstones that are no longer queued. -/
def gcTick : ClusterRegistry :=
  let r := { r with tickCount := wrappingAdd r.tickCount 1 }
  if ¬ r.config.gcInterval ∣ r.tickCount then r
  else
    let pendingNames := r.dissemination.map (·.entry.name)
    { r with entries := r.entries.filter (fun name e =>
        if e.tombstone && !pendingNames.contains name then
          r.clock - e.timestamp < r.config.tombstoneTtl
        else true) }

end ClusterRegistry

end Swactor.Registry
