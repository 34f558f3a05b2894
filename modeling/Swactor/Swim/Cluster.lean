import Swactor.Swim.Provenance

/-!
# A cluster of SWIM nodes

Every node starts fresh. A node turns the actions of a call into messages, which
stay in the network for ever: delivering one again duplicates it, delivering it
later delays or reorders it, never delivering it loses it. A cluster of some of
the nodes is a run in which the others take no step.
-/
namespace Swactor.Swim
open SwimNode List
open Machine (collect)

/-- The six kinds of messages between nodes. -/
inductive Message
  | ping (sender : NodeId) (sequence : ℕ) (piggyback : List MembershipUpdate)
  | ack (sender : NodeId) (sequence : ℕ) (piggyback : List MembershipUpdate)
  | pingReq (sender target : NodeId) (sequence : ℕ) (piggyback : List MembershipUpdate)
  | indirectAck (target : NodeId) (sequence : ℕ) (piggyback : List MembershipUpdate)
  | joinRequest (sender : NodeId)
  | joinResponse (members : List NodeRecord)
  deriving DecidableEq, Repr

namespace Message

/-- The call a node makes for a message it receives. -/
def call : Message → Call
  | ping sender sequence piggyback => .ping sender sequence piggyback
  | ack sender sequence piggyback => .ack sender sequence piggyback
  | pingReq sender target sequence piggyback => .pingReq sender target sequence piggyback
  | indirectAck target sequence piggyback => .indirectAck target sequence piggyback
  | joinRequest sender => .joinRequest sender
  | joinResponse members => .joinResponse members

/-- The records a message carries. -/
def records (m : Message) : List NodeRecord := m.call.records

end Message

structure Envelope where
  dest : NodeId
  message : Message
  deriving DecidableEq, Repr

/-- The message an action of node `self` stands for; notifications stay local. -/
def dispatch (self : NodeId) : NodeAction → Option Envelope
  | .sendPing dest sequence piggyback => some ⟨dest, .ping self sequence piggyback⟩
  | .sendPingReq relay target sequence piggyback =>
      some ⟨relay, .pingReq self target sequence piggyback⟩
  | .sendAck dest sequence piggyback => some ⟨dest, .ack self sequence piggyback⟩
  | .forwardAck dest target sequence piggyback =>
      some ⟨dest, .indirectAck target sequence piggyback⟩
  | .sendJoinResponse dest members => some ⟨dest, .joinResponse members⟩
  | .membershipChanged _ => none

structure Cluster where
  nodes : NodeId → SwimNode
  sent : List Envelope

namespace Cluster

/-- Every node fresh, each with its own configuration and start of the clock. -/
def init (config : NodeId → SwimConfig) (start : NodeId → ℕ) : Cluster :=
  ⟨fun id => .new id (config id) (start id), []⟩

/-- A node takes a call and sends the messages it leads to. -/
def act (c : Cluster) (id : NodeId) (call : Call) : Cluster :=
  let r := (c.nodes id).call call
  { nodes := Function.update c.nodes id r.1
    sent := c.sent ++ r.2.filterMap (dispatch id) }

inductive Step
  | deliver (envelope : Envelope)
  | tick (id : NodeId) (now : ℕ)
  | sendFailure (id target : NodeId)
  | join (id : NodeId) (seeds : List NodeId)
  | leave (id : NodeId)
  deriving DecidableEq, Repr

/-- One step of the cluster. Only a message that was sent can be delivered. -/
def step (c : Cluster) : Step → Cluster
  | .deliver envelope =>
      if envelope ∈ c.sent then c.act envelope.dest envelope.message.call else c
  | .tick id now => c.act id (.tick now)
  | .sendFailure id target => c.act id (.sendFailure target)
  | .join id seeds =>
      { c with sent := c.sent ++ seeds.map fun seed => ⟨seed, .joinRequest id⟩ }
  | .leave id => c.act id .leave

/-- The incarnation a node has reached. -/
def incarnation (c : Cluster) (id : NodeId) : ℕ := (c.nodes id).members.selfIncarnation

/-- No record held anywhere is ahead of the node it is about. -/
structure Grounded (c : Cluster) : Prop where
  members : ∀ holder id e, (c.nodes holder).members.get id = some e →
    e.incarnation ≤ c.incarnation id
  queued : ∀ holder, ∀ v ∈ (c.nodes holder).dissemination.updates,
    v.incarnation ≤ c.incarnation v.nodeId
  inFlight : ∀ envelope ∈ c.sent, ∀ r ∈ envelope.message.records,
    r.incarnation ≤ c.incarnation r.nodeId

/-- The nodes keep their identities and no record is ahead. -/
structure Inv (c : Cluster) : Prop extends Grounded c where
  selfId : ∀ id, (c.nodes id).members.selfId = id

variable {c : Cluster}

theorem records_dispatch {self : NodeId} {a : NodeAction} {envelope : Envelope}
    (h : dispatch self a = some envelope) : envelope.message.records = a.records := by
  cases a with
  | membershipChanged change => exact absurd h (by simp [dispatch])
  | sendPing | sendPingReq | sendAck | forwardAck | sendJoinResponse =>
    obtain rfl := Option.some.inj h
    rfl

/-- The bound the cluster puts on the records a node sees. -/
theorem Inv.cap_eq (h : Inv c) (holder id : NodeId) :
    cap (fun k => (c.incarnation k : ℕ∞)) (c.nodes holder) id = c.incarnation id := by
  unfold cap
  split_ifs with hid
  · rw [hid, h.selfId]
    rfl
  · rfl

theorem Inv.bounded (h : Inv c) (holder : NodeId) :
    Bounded (fun k => (c.incarnation k : ℕ∞)) (c.nodes holder) := by
  refine ⟨fun id e hg => ?_, fun v hv => ?_⟩
  · rw [h.cap_eq]
    exact_mod_cast h.members holder id e hg
  · rw [h.cap_eq]
    exact_mod_cast h.queued holder v hv

@[simp] theorem act_nodes_self (c : Cluster) (id : NodeId) (call : Call) :
    (c.act id call).nodes id = ((c.nodes id).call call).1 :=
  Function.update_self _ _ _

theorem act_nodes_of_ne (c : Cluster) {id k : NodeId} (h : k ≠ id) (call : Call) :
    (c.act id call).nodes k = c.nodes k :=
  Function.update_of_ne h _ _

/-- A call with records that are not ahead leads to no record that is ahead. -/
theorem Inv.act (h : Inv c) (id : NodeId) (call : Call)
    (hin : ∀ r ∈ call.records, r.incarnation ≤ c.incarnation r.nodeId) :
    Inv (c.act id call) := by
  have hkeeps := (c.nodes id).call_keeps (f := fun k => (c.incarnation k : ℕ∞)) call
    fun r hr => by exact_mod_cast hin r hr
  have hself : ∀ k, ((c.act id call).nodes k).members.selfId = k := by
    intro k
    by_cases hk : k = id
    · subst hk
      rw [act_nodes_self, hkeeps.selfId, h.selfId]
    · rw [c.act_nodes_of_ne hk, h.selfId]
  have hmono : ∀ k, c.incarnation k ≤ (c.act id call).incarnation k := by
    intro k
    unfold incarnation
    by_cases hk : k = id
    · subst hk
      rw [act_nodes_self]
      exact hkeeps.mono
    · rw [c.act_nodes_of_ne hk]
  have hcap : ∀ k, cap (fun k => (c.incarnation k : ℕ∞)) ((c.nodes id).call call).1 k =
      (c.act id call).incarnation k := by
    intro k
    unfold cap incarnation
    rw [hkeeps.selfId, h.selfId]
    split_ifs with hk
    · rw [hk, act_nodes_self]
    · rw [c.act_nodes_of_ne hk]
  have hbounded := hkeeps.bounded (h.bounded id)
  refine ⟨⟨fun holder k e hg => ?_, fun holder v hv => ?_, fun envelope he r hr => ?_⟩, hself⟩
  · by_cases hk : holder = id
    · subst hk
      rw [act_nodes_self] at hg
      have := hbounded.members k e hg
      rw [hcap] at this
      exact_mod_cast this
    · rw [c.act_nodes_of_ne hk] at hg
      exact (h.members holder k e hg).trans (hmono k)
  · by_cases hk : holder = id
    · subst hk
      rw [act_nodes_self] at hv
      have := hbounded.queued v hv
      rw [hcap] at this
      exact_mod_cast this
    · rw [c.act_nodes_of_ne hk] at hv
      exact (h.queued holder v hv).trans (hmono v.nodeId)
  · obtain he | he := mem_append.mp he
    · exact (h.inFlight envelope he r hr).trans (hmono r.nodeId)
    · obtain ⟨a, ha, hdisp⟩ := mem_filterMap.mp he
      rw [records_dispatch hdisp] at hr
      have := hkeeps.sent (h.bounded id) a ha r hr
      rw [hcap] at this
      exact_mod_cast this

theorem Inv.step (h : Inv c) (s : Step) : Inv (c.step s) := by
  cases s with
  | deliver envelope =>
    unfold Cluster.step
    dsimp only
    split_ifs with hsent
    · exact h.act envelope.dest envelope.message.call (h.inFlight envelope hsent)
    · exact h
  | tick id now => exact h.act id (.tick now) (by simp [Call.records])
  | sendFailure id target => exact h.act id (.sendFailure target) (by simp [Call.records])
  | join id seeds =>
    refine ⟨⟨h.members, h.queued, fun envelope he r hr => ?_⟩, h.selfId⟩
    obtain he | he := mem_append.mp he
    · exact h.inFlight envelope he r hr
    · obtain ⟨seed, -, rfl⟩ := mem_map.mp he
      exact absurd hr not_mem_nil
  | leave id => exact h.act id .leave (by simp [Call.records])

theorem init_inv (config : NodeId → SwimConfig) (start : NodeId → ℕ) :
    Inv (init config start) :=
  ⟨⟨fun _ _ e he => absurd he (by simp [init, new]),
    fun _ _ hv => absurd hv not_mem_nil, fun _ he => absurd he not_mem_nil⟩,
    fun _ => rfl⟩

/-- In every run of the cluster, a record about a node that is held or in flight anywhere has
an incarnation that the node has reached itself. -/
theorem incarnations_are_grounded (config : NodeId → SwimConfig) (start : NodeId → ℕ)
    (steps : List Step) : Grounded (steps.foldl step (init config start)) := by
  have h : Inv (steps.foldl step (init config start)) :=
    foldlRecOn steps step (init_inv config start) fun _ hc s _ => hc.step s
  exact h.toGrounded

end Cluster
end Swactor.Swim
