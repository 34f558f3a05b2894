import Swactor.Registry.LocalWrites
import Swactor.Swim.MemberList

/-!
# The registry actor and its acknowledgements

`RegistryActor` wraps a `ClusterRegistry`: it folds the membership stream, gossips
pending entries on every tick and answers directed delivery requests. The answer of
the peer directory and the iteration order of the hash map are given to `handle` by
its surroundings. The read mirror and the watchers, which only observe the registry,
are left out.

In a cluster every gossip frame that was sent may be delivered to any actor, at any
later time and any number of times.
-/
namespace Swactor.Registry
open LastWriter Machine ClusterRegistry List
open Std (ExtTreeSet)
open Swim (MemberState)

inductive RegistryDelivery
  | request (replyTo : ActorAddress)
  | acknowledged (replyTo : ActorAddress) (peer : NodeId)
  deriving DecidableEq, Repr

structure RegistryGossip where
  entries : List RegistryEntry
  delivery : Option RegistryDelivery
  deriving DecidableEq, Repr

/-- `RegistryIn`, without the watchers. -/
inductive RegistryIn
  | membership (nodeId : NodeId) (state : MemberState)
  | registerName (name : String) (actorAddr : ActorAddress)
  | registerNameAt (name : String) (actorAddr : ActorAddress) (timestamp : ℕ)
  | disseminateNameTo (name : String) (peers : List NodeId) (replyTo : ActorAddress)
  | nameAcknowledged (entry : RegistryEntry) (peer : NodeId)
  | unregisterName (name : String)
  | resolveName (name : String) (reply : ActorAddress)
  | gossip (g : RegistryGossip)
  | syncTo (peer : NodeId)
  | tick
  deriving DecidableEq, Repr

/-- What the actor sends. -/
inductive RegistryOut
  | gossip (g : RegistryGossip)
  | nameAcknowledged (entry : RegistryEntry) (peer : NodeId)
  | nameResolved (name : String) (binding : Option (ActorAddress × NodeId))
  deriving DecidableEq, Repr

/-- What a call of `handle` reads from outside the actor. -/
structure Surroundings where
  resolve : NodeId → Option ActorAddress
  iter : List String

structure RegistryActor where
  selfId : NodeId
  registry : ClusterRegistry
  alive : ExtTreeSet NodeId compare
  fanoutCursor : ℕ

namespace RegistryActor

def new (selfId : NodeId) (config : RegistryConfig) : RegistryActor :=
  ⟨selfId, .new config, ∅, 0⟩

section

variable (a : RegistryActor) (env : Surroundings)

def clusterSize : ℕ :=
  a.alive.size + 1

/-- The stored entries in iteration order. -/
def entries (a : RegistryActor) (env : Surroundings) : List RegistryEntry :=
  env.iter.filterMap fun name => a.registry.entries[name]?

/-- `entries().any(|current| current == &entry)`. -/
def holds (entry : RegistryEntry) : Bool :=
  a.registry.entries.toList.any fun current => current.2 = entry

/-- Send the next pending batch to one alive peer. -/
def disseminate : RegistryActor × List (ActorAddress × RegistryOut) :=
  let peers := a.alive.toList
  if peers.isEmpty then (a, [])
  else
    let taken := a.registry.takePending 8
    if taken.2.isEmpty then ({ a with registry := taken.1 }, [])
    else
      let sends := peers[a.fanoutCursor % peers.length]?.bind fun peer =>
        (env.resolve peer).map fun addr => (addr, RegistryOut.gossip ⟨taken.2, none⟩)
      ({ a with registry := taken.1, fanoutCursor := wrappingAdd a.fanoutCursor 1 },
        sends.toList)

/-- Send all stored entries to a peer, eight in a frame. -/
def syncTo (peer : NodeId) : List (ActorAddress × RegistryOut) :=
  match env.resolve peer with
  | some addr => (batches 8 (a.entries env)).map fun batch => (addr, .gossip ⟨batch, none⟩)
  | none => []

def onMembership (node : NodeId) :
    MemberState → RegistryActor
  | .alive =>
      if node ≠ a.selfId ∧ node ∉ a.alive then
        let a := { a with alive := a.alive.insert node }
        { a with registry := a.registry.reDisseminateAll env.iter a.clusterSize }
      else a
  | .dead =>
      let a := { a with alive := a.alive.erase node }
      { a with registry := a.registry.tombstoneNode env.iter node a.clusterSize }
  | .suspect => a

/-- Push the own live entry of a name to the given peers. -/
def disseminateNameTo (name : String) (peers : List NodeId) (replyTo : ActorAddress) :
    List (ActorAddress × RegistryOut) :=
  match (a.entries env).find? fun e => e.name = name && !e.tombstone && e.nodeId = a.selfId with
  | some entry => peers.filterMap fun peer => (env.resolve peer).map fun addr =>
      (addr, .gossip ⟨[entry], some (.request replyTo)⟩)
  | none => []

/-- Confirm the live entries of a request that are current winners after the merge. -/
def confirm (entries : List RegistryEntry) (replyTo : ActorAddress) :
    List (ActorAddress × RegistryOut) :=
  entries.filterMap fun entry =>
    if !entry.tombstone && a.holds entry then
      (env.resolve entry.nodeId).map fun addr =>
        (addr, .gossip ⟨[entry], some (.acknowledged replyTo a.selfId)⟩)
    else none

/-- Report the confirmed entries that are own, live and still current. -/
def acknowledge (entries : List RegistryEntry) (replyTo : ActorAddress) (peer : NodeId) :
    List (ActorAddress × RegistryOut) :=
  entries.filterMap fun entry =>
    if !entry.tombstone && entry.nodeId = a.selfId && a.holds entry then
      some (replyTo, .nameAcknowledged entry peer)
    else none

def onGossip (g : RegistryGossip) : RegistryActor × List (ActorAddress × RegistryOut) :=
  match g.delivery with
  | some (.acknowledged replyTo peer) => (a, a.acknowledge g.entries replyTo peer)
  | some (.request replyTo) =>
      let a := { a with registry := a.registry.mergeBatch g.entries a.clusterSize }
      (a, a.confirm env g.entries replyTo)
  | none => ({ a with registry := a.registry.mergeBatch g.entries a.clusterSize }, [])

def handle :
    RegistryIn → RegistryActor × List (ActorAddress × RegistryOut)
  | .membership node state => (a.onMembership env node state, [])
  | .registerName name addr =>
      ({ a with registry := a.registry.register name addr a.selfId a.clusterSize }, [])
  | .registerNameAt name addr ts =>
      ({ a with registry := a.registry.registerAt name addr a.selfId ts a.clusterSize }, [])
  | .disseminateNameTo name peers replyTo => (a, a.disseminateNameTo env name peers replyTo)
  | .nameAcknowledged _ _ => (a, [])
  | .unregisterName name =>
      ({ a with registry := a.registry.unregister name a.selfId a.clusterSize }, [])
  | .resolveName name reply => (a, [(reply, .nameResolved name (a.registry.resolve name))])
  | .gossip g => a.onGossip env g
  | .syncTo peer => (a, a.syncTo env peer)
  | .tick => { a with registry := a.registry.gcTick }.disseminate env

/-- The registry operations a message runs. -/
def ops : RegistryIn → List RegistryOp
  | .membership node .alive =>
      if node ≠ a.selfId ∧ node ∉ a.alive then
        [.reDisseminateAll env.iter ((a.alive.insert node).size + 1)]
      else []
  | .membership node .dead => [.tombstoneNode env.iter node ((a.alive.erase node).size + 1)]
  | .registerName name addr => [.register name addr a.selfId a.clusterSize]
  | .registerNameAt name addr ts => [.registerAt name addr a.selfId ts a.clusterSize]
  | .unregisterName name => [.unregister name a.selfId a.clusterSize]
  | .gossip g =>
      match g.delivery with
      | some (.acknowledged ..) => []
      | some (.request _) | none => [.mergeBatch g.entries a.clusterSize]
  | .tick => if a.alive.toList.isEmpty then [.gcTick] else [.gcTick, .takePending 8]
  | .membership _ .suspect | .disseminateNameTo .. | .nameAcknowledged .. | .resolveName ..
  | .syncTo _ => []

end

/-- The actor changes its registry only through the registry's operations. -/
theorem handle_registry (a : RegistryActor) (env : Surroundings) (msg : RegistryIn) :
    (a.handle env msg).1.registry = (a.ops env msg).foldl step a.registry := by
  cases msg with
  | membership node state =>
    cases state with
    | alive =>
      simp only [handle, onMembership, ops]
      split_ifs <;> rfl
    | dead => simp only [handle, onMembership, ops, foldl, step, clusterSize]
    | suspect => rfl
  | gossip g =>
    obtain ⟨entries, _ | delivery⟩ := g
    · rfl
    · cases delivery <;> rfl
  | tick =>
    simp only [handle, disseminate, ops]
    split_ifs <;> rfl
  | registerName | registerNameAt | unregisterName =>
    simp only [handle, ops, foldl, step]
  | disseminateNameTo | nameAcknowledged | resolveName | syncTo => rfl

@[simp] theorem handle_selfId (a : RegistryActor) (env : Surroundings) (msg : RegistryIn) :
    (a.handle env msg).1.selfId = a.selfId := by
  cases msg with
  | membership node state =>
    cases state with
    | alive =>
      simp only [handle, onMembership]
      split_ifs <;> rfl
    | dead => rfl
    | suspect => rfl
  | gossip g =>
    obtain ⟨entries, _ | delivery⟩ := g
    · rfl
    · cases delivery <;> rfl
  | tick =>
    simp only [handle, disseminate]
    split_ifs <;> rfl
  | _ => rfl

end RegistryActor

namespace ClusterRegistry

/-- Every entry is stored under its own name. -/
def Keyed (r : ClusterRegistry) : Prop :=
  ∀ (name : String) (e : RegistryEntry), r.entries[name]? = some e → e.name = name

theorem keyed_new (config : RegistryConfig) : (new config).Keyed := by
  intro name e h
  simp [new] at h

variable {r : ClusterRegistry}

theorem Keyed.of_entries_eq {r' : ClusterRegistry} (h : r.Keyed) (he : r'.entries = r.entries) :
    r'.Keyed := by
  intro name e hn
  rw [he] at hn
  exact h name e hn

theorem Keyed.merge (h : r.Keyed) (e : RegistryEntry) : (r.merge e).1.Keyed := by
  intro name x hx
  rw [merge_entries] at hx
  split_ifs at hx with hn
  · by_cases hr : Raises key r.entries[name]? e
    · rw [keep_of_raises hr] at hx
      obtain rfl := Option.some.inj hx
      exact hn
    · rw [keep_of_not_raises hr] at hx
      exact h name x hx
  · exact h name x hx

theorem Keyed.mergeAndEnqueue (h : r.Keyed) (e : RegistryEntry) (n : ℕ) :
    (r.mergeAndEnqueue e n).Keyed :=
  (h.merge e).of_entries_eq (mergeAndEnqueue_entries r e n)

theorem Keyed.writeAt (h : r.Keyed) (clock : ℕ) (name : String) (addr : ActorAddress)
    (node : NodeId) (t : Bool) (n : ℕ) : (r.writeAt clock name addr node t n).Keyed := by
  have hc : ({ r with clock := clock } : ClusterRegistry).Keyed := h.of_entries_eq rfl
  exact hc.mergeAndEnqueue _ n

theorem Keyed.step (h : r.Keyed) (op : RegistryOp) : (r.step op).Keyed := by
  cases op with
  | register name addr node n | registerAt name addr node ts n =>
    exact h.writeAt _ name addr node false n
  | unregister name node n => exact h.writeAt _ name _ node true n
  | tombstoneNode iter dead n =>
    exact foldlRecOn (motive := fun r' : ClusterRegistry => r'.Keyed) _ _ h
      fun r' hr' name _ => hr'.writeAt _ name _ dead true n
  | mergeBatch es n =>
    exact foldlRecOn (motive := fun r' : ClusterRegistry => r'.Keyed) _ _ h
      fun r' hr' e _ => hr'.mergeAndEnqueue e n
  | takePending k => exact h.of_entries_eq rfl
  | reDisseminateAll iter n =>
    exact foldlRecOn (motive := fun r' : ClusterRegistry => r'.Keyed) _ _ h
      fun r' hr' e _ => hr'.of_entries_eq (enqueue_entries r' e n)
  | gcTick =>
    simp only [ClusterRegistry.step, gcTick]
    split_ifs
    · intro name e he
      simp only [Std.ExtTreeMap.getElem?_filter', Option.filter_eq_some_iff] at he
      exact h name e he.1
    · exact h.of_entries_eq rfl

end ClusterRegistry

namespace RegistryActor

theorem handle_keyed {a : RegistryActor} (h : a.registry.Keyed) (env : Surroundings)
    (msg : RegistryIn) : (a.handle env msg).1.registry.Keyed := by
  rw [handle_registry]
  exact foldlRecOn (motive := fun r : ClusterRegistry => r.Keyed) _ _ h
    fun r hr op _ => hr.step op

/-- An entry held anywhere is the current winner of its name. -/
theorem holds_iff {a : RegistryActor} (h : a.registry.Keyed) (e : RegistryEntry) :
    a.holds e = true ↔ a.registry.entries[e.name]? = some e := by
  simp only [holds, any_eq_true, decide_eq_true_eq, Prod.exists,
    Std.ExtTreeMap.mem_toList_iff_getElem?_eq_some]
  constructor
  · rintro ⟨name, x, hx, rfl⟩
    rwa [h name x hx]
  · intro hx
    exact ⟨e.name, e, hx, rfl⟩

variable {a : RegistryActor} {env : Surroundings} {replyTo : ActorAddress}
  {o : ActorAddress × RegistryOut} {peer : NodeId} {entries : List RegistryEntry}

theorem mem_acknowledge :
    o ∈ a.acknowledge entries replyTo peer ↔ ∃ e ∈ entries, e.tombstone = false ∧
      e.nodeId = a.selfId ∧ a.holds e = true ∧ o = (replyTo, .nameAcknowledged e peer) := by
  simp only [acknowledge, mem_filterMap, Option.ite_none_right_eq_some, Bool.and_eq_true,
    Bool.not_eq_true', decide_eq_true_eq, Option.some.injEq, and_assoc, @eq_comm _ o]

theorem mem_confirm (h : o ∈ a.confirm env entries replyTo) :
    ∃ e ∈ entries, a.holds e = true ∧
      o.2 = .gossip ⟨[e], some (.acknowledged replyTo a.selfId)⟩ := by
  simp only [confirm, mem_filterMap, Option.ite_none_right_eq_some, Bool.and_eq_true,
    Option.map_eq_some_iff] at h
  obtain ⟨e, he, ⟨-, hheld⟩, addr, -, rfl⟩ := h
  exact ⟨e, he, hheld, rfl⟩

theorem mem_disseminateNameTo {name : String} {peers : List NodeId}
    (h : o ∈ a.disseminateNameTo env name peers replyTo) :
    ∃ e, o.2 = .gossip ⟨[e], some (.request replyTo)⟩ := by
  unfold disseminateNameTo at h
  split at h
  · simp only [mem_filterMap, Option.map_eq_some_iff] at h
    obtain ⟨peer, -, addr, -, rfl⟩ := h
    exact ⟨_, rfl⟩
  · simp at h

theorem mem_syncTo (h : o ∈ a.syncTo env peer) : ∃ batch, o.2 = .gossip ⟨batch, none⟩ := by
  unfold syncTo at h
  split at h
  · obtain ⟨batch, -, rfl⟩ := mem_map.mp h
    exact ⟨batch, rfl⟩
  · simp at h

theorem mem_disseminate (h : o ∈ (a.disseminate env).2) : ∃ batch, o.2 = .gossip ⟨batch, none⟩ := by
  simp only [disseminate] at h
  split_ifs at h
  · simp at h
  · simp at h
  · simp only [Option.mem_toList, Option.bind_eq_some_iff, Option.map_eq_some_iff] at h
    obtain ⟨peer, -, addr, -, rfl⟩ := h
    exact ⟨_, rfl⟩

/-- What `handle` can emit, by the kind of output. -/
theorem mem_handle {msg : RegistryIn} (h : o ∈ (a.handle env msg).2) :
    (∃ batch, o.2 = .gossip ⟨batch, none⟩) ∨
    (∃ e replyTo, o.2 = .gossip ⟨[e], some (.request replyTo)⟩) ∨
    (∃ entries replyTo, msg = .gossip ⟨entries, some (.request replyTo)⟩ ∧ ∃ e ∈ entries,
      (a.handle env msg).1.holds e = true ∧
      o.2 = .gossip ⟨[e], some (.acknowledged replyTo a.selfId)⟩) ∨
    (∃ entries replyTo peer, msg = .gossip ⟨entries, some (.acknowledged replyTo peer)⟩ ∧
      ∃ e ∈ entries, e.tombstone = false ∧ e.nodeId = a.selfId ∧ a.holds e = true ∧
      o = (replyTo, .nameAcknowledged e peer)) ∨
    (∃ name binding, o.2 = .nameResolved name binding) := by
  cases msg with
  | gossip g =>
    obtain ⟨entries, _ | delivery⟩ := g
    · simp [handle, onGossip] at h
    · cases delivery with
      | request replyTo => exact .inr (.inr (.inl ⟨entries, replyTo, rfl, mem_confirm h⟩))
      | acknowledged replyTo peer =>
        exact .inr (.inr (.inr (.inl ⟨entries, replyTo, peer, rfl, mem_acknowledge.mp h⟩)))
  | disseminateNameTo name peers replyTo =>
    obtain ⟨e, he⟩ := mem_disseminateNameTo h
    exact .inr (.inl ⟨e, replyTo, he⟩)
  | resolveName name reply =>
    obtain rfl := mem_singleton.mp h
    exact .inr (.inr (.inr (.inr ⟨name, _, rfl⟩)))
  | syncTo peer => exact .inl (mem_syncTo h)
  | tick => exact .inl (mem_disseminate h)
  | membership | registerName | registerNameAt | nameAcknowledged | unregisterName =>
    simp [handle] at h

end RegistryActor

/-- The actors of a cluster, and every gossip frame they have sent. -/
structure Network where
  actors : NodeId → RegistryActor
  sent : List RegistryGossip

/-- The actor of a node handles a message. -/
structure Event where
  node : NodeId
  env : Surroundings
  msg : RegistryIn

def RegistryOut.frame : RegistryOut → Option RegistryGossip
  | .gossip g => some g
  | .nameAcknowledged .. | .nameResolved .. => none

namespace Network

def init (config : NodeId → RegistryConfig) : Network :=
  ⟨fun id => .new id (config id), []⟩

/-- What the actor sends when it handles the message of an event. -/
def outputs (c : Network) (ev : Event) : List (ActorAddress × RegistryOut) :=
  ((c.actors ev.node).handle ev.env ev.msg).2

def step (c : Network) (ev : Event) : Network where
  actors := Function.update c.actors ev.node ((c.actors ev.node).handle ev.env ev.msg).1
  sent := c.sent ++ (c.outputs ev).filterMap fun o => o.2.frame

/-- Only gossip that was sent is received. -/
def Unforged (c : Network) (ev : Event) : Prop :=
  ∀ g, ev.msg = .gossip g → g ∈ c.sent

instance Unforged.decidable (c : Network) (ev : Event) : Decidable (c.Unforged ev) :=
  match hmsg : ev.msg with
  | .gossip g => decidable_of_iff (g ∈ c.sent) (by simp [Unforged, hmsg])
  | .membership .. | .registerName .. | .registerNameAt .. | .disseminateNameTo ..
  | .nameAcknowledged .. | .unregisterName _ | .resolveName .. | .syncTo _ | .tick =>
      isTrue (by simp [Unforged, hmsg])

/-- The state after a run from fresh actors. -/
def after (config : NodeId → RegistryConfig) (run : List Event) : Network :=
  run.foldl step (init config)

variable {config : NodeId → RegistryConfig}

theorem after_concat (run : List Event) (ev : Event) :
    after config (run ++ [ev]) = (after config run).step ev := by
  simp [after]

theorem after_selfId (run : List Event) (id : NodeId) :
    ((after config run).actors id).selfId = id := by
  induction run using reverseRecOn with
  | nil => rfl
  | append_singleton run ev ih =>
    rw [after_concat, step]
    by_cases hid : id = ev.node
    · subst hid
      simpa using ih
    · simpa [hid] using ih

theorem after_keyed (run : List Event) (id : NodeId) :
    ((after config run).actors id).registry.Keyed := by
  induction run using reverseRecOn with
  | nil => exact keyed_new (config id)
  | append_singleton run ev ih =>
    rw [after_concat, step]
    by_cases hid : id = ev.node
    · subst hid
      simpa using RegistryActor.handle_keyed ih ev.env ev.msg
    · simpa [hid] using ih

/-- Node `id` holds `entry` as the winner of its name. -/
def Wins (c : Network) (id : NodeId) (entry : RegistryEntry) : Prop :=
  (c.actors id).registry.entries[entry.name]? = some entry

/-- At some point of the run, `peer` received a delivery request for `entry` and held
the entry as its winner after it. -/
def Confirmed (config : NodeId → RegistryConfig) (run : List Event) (replyTo : ActorAddress)
    (peer : NodeId) (entry : RegistryEntry) : Prop :=
  ∃ pre env entries, entry ∈ entries ∧
    pre ++ [⟨peer, env, .gossip ⟨entries, some (.request replyTo)⟩⟩] <+: run ∧
    (after config (pre ++ [⟨peer, env, .gossip ⟨entries, some (.request replyTo)⟩⟩])).Wins
      peer entry

variable {run : List Event} {replyTo : ActorAddress} {peer : NodeId} {entry : RegistryEntry}
  {entries : List RegistryEntry}

theorem Confirmed.concat (h : Confirmed config run replyTo peer entry) (ev : Event) :
    Confirmed config (run ++ [ev]) replyTo peer entry := by
  obtain ⟨pre, env, entries, he, hpre, hwins⟩ := h
  exact ⟨pre, env, entries, he, hpre.trans (prefix_append run [ev]), hwins⟩

/-- A peer that confirms an entry holds it after the request it answers. -/
theorem confirmed_of_output {ev : Event} {addr : ActorAddress}
    (h : (addr, RegistryOut.gossip ⟨entries, some (.acknowledged replyTo peer)⟩) ∈
      (after config run).outputs ev)
    (he : entry ∈ entries) :
    Confirmed config (run ++ [ev]) replyTo peer entry := by
  have hself : ((after config run).actors ev.node).selfId = ev.node := after_selfId run ev.node
  have hkeyed : ((after config (run ++ [ev])).actors ev.node).registry.Keyed :=
    after_keyed (run ++ [ev]) ev.node
  rcases RegistryActor.mem_handle h with ⟨_, ho⟩ | ⟨_, _, ho⟩ | ⟨req, r, hmsg, e, hreq, hheld, ho⟩ |
    ⟨_, _, _, _, _, _, _, _, _, ho⟩ | ⟨_, _, ho⟩
  · simp at ho
  · simp at ho
  · obtain ⟨rfl, rfl, rfl⟩ := ho
    obtain rfl := mem_singleton.mp he
    obtain ⟨node, env, msg⟩ := ev
    obtain rfl : msg = _ := hmsg
    rw [hself]
    refine ⟨run, env, req, hreq, prefix_rfl, ?_⟩
    rw [after_concat, step] at hkeyed ⊢
    simp only [Wins, Function.update_self] at hkeyed ⊢
    exact (RegistryActor.holds_iff hkeyed entry).mp hheld
  · simp at ho
  · simp at ho

/-- In a run of unforged gossip every confirmation on its way was earned. -/
theorem confirmed_of_sent
    (h : ⟨entries, some (.acknowledged replyTo peer)⟩ ∈ (after config run).sent)
    (he : entry ∈ entries) : Confirmed config run replyTo peer entry := by
  induction run using reverseRecOn with
  | nil => simp [after, init] at h
  | append_singleton run ev ih =>
    rw [after_concat, step] at h
    rcases mem_append.mp h with h | h
    · exact (ih h).concat ev
    · obtain ⟨⟨addr, out⟩, hout, hframe⟩ := mem_filterMap.mp h
      cases out with
      | gossip g =>
        obtain rfl : g = _ := Option.some.inj hframe
        exact confirmed_of_output hout he
      | nameAcknowledged | nameResolved => simp [RegistryOut.frame] at hframe

/-- **Name acknowledgements are sound.** When the actor of a node reports that `peer`
acknowledged `entry`, the entry is live, owned by the node and its current winner, and
`peer` held it as its winner after an earlier delivery request of the same requester. -/
theorem name_acknowledged_sound (config : NodeId → RegistryConfig) (run : List Event) (ev : Event)
    (hrun : Guarded Unforged step (init config) (run ++ [ev])) {replyTo : ActorAddress}
    {entry : RegistryEntry} {peer : NodeId}
    (hout : (replyTo, RegistryOut.nameAcknowledged entry peer) ∈ (after config run).outputs ev) :
    entry.tombstone = false ∧ entry.nodeId = ev.node ∧ (after config run).Wins ev.node entry ∧
      Confirmed config run replyTo peer entry := by
  have hself : ((after config run).actors ev.node).selfId = ev.node := after_selfId run ev.node
  have hunforged : (after config run).Unforged ev := (guarded_append.mp hrun).2.1
  rcases RegistryActor.mem_handle hout with ⟨_, ho⟩ | ⟨_, _, ho⟩ | ⟨_, _, _, _, _, _, ho⟩ |
    ⟨entries, r, p, hmsg, e, he, hlive, hown, hheld, ho⟩ | ⟨_, _, ho⟩
  · simp at ho
  · simp at ho
  · simp at ho
  · obtain ⟨rfl, rfl, rfl⟩ := ho
    have hsent := hunforged _ hmsg
    refine ⟨hlive, hown.trans hself, ?_, confirmed_of_sent hsent he⟩
    exact (RegistryActor.holds_iff (after_keyed run ev.node) entry).mp hheld
  · simp at ho

/-- Node 1 registers a name, pushes it to node 2 and reports the confirmation. -/
theorem name_acknowledged_sound_directed :
    let env : Surroundings := ⟨some, ["db"]⟩
    let entry : RegistryEntry := ⟨"db", 7, 1, 1, 1, false⟩
    let run : List Event :=
      [⟨1, env, .registerName "db" 7⟩, ⟨1, env, .disseminateNameTo "db" [2] 9⟩,
        ⟨2, env, .gossip ⟨[entry], some (.request 9)⟩⟩]
    let ev : Event := ⟨1, env, .gossip ⟨[entry], some (.acknowledged 9 2)⟩⟩
    (9, .nameAcknowledged entry 2) ∈ (after (fun _ => defaultConfig) run).outputs ev ∧
      Confirmed (fun _ => defaultConfig) run 9 2 entry := by
  intro env entry run ev
  have hrun : Guarded Unforged step (init fun _ => defaultConfig) (run ++ [ev]) := by
    decide +kernel
  have hout : (9, .nameAcknowledged entry 2) ∈ (after (fun _ => defaultConfig) run).outputs ev := by
    decide +kernel
  exact ⟨hout, (name_acknowledged_sound (fun _ => defaultConfig) run ev hrun hout).2.2.2⟩

end Network

end Swactor.Registry
