import Swactor.Swim.Cluster
import Swactor.Swim.Sequence

/-!
# Acks and the probes they answer

A probe in flight is matched with acks by target and sequence number only. A node pings a
target under its own numbers and, as a relay, under the numbers of others, so an ack may
answer a ping that was sent for somebody else. As long as no node pings one target under
one number on behalf of two nodes, every ack that completes a probe answers a ping that was
sent for it after it had started.
-/
namespace Swactor.Swim
open Machine SwimNode SwimNode.Call List

theorem Message.call_injective : Function.Injective Message.call := by
  intro m m' h
  cases m <;> cases m' <;> simp_all [Message.call]

/-- The node on whose behalf a call sends its pings. -/
def SwimNode.Call.principal (self : NodeId) (call : SwimNode.Call) : NodeId :=
  (call.request?.map (·.1)).getD self

namespace Cluster

/-- The node that takes a call in a step, and the call. -/
def acting (c : Cluster) : Step → Option (NodeId × SwimNode.Call)
  | .deliver envelope =>
      if envelope ∈ c.sent then some (envelope.dest, envelope.message.call) else none
  | .tick id now => some (id, .tick now)
  | .sendFailure id target => some (id, .sendFailure target)
  | .join .. => none
  | .leave id => some (id, .leave)

/-- In a step, node `x` sends a ping to `target` under `q` on behalf of `p`. -/
def PingsFor (c : Cluster) (s : Step) (x target : NodeId) (q : ℕ) (pb : List MembershipUpdate)
    (p : NodeId) : Prop :=
  ∃ call, c.acting s = some (x, call) ∧ .sendPing target q pb ∈ ((c.nodes x).call call).2 ∧
    call.principal x = p

variable {c : Cluster}

variable {s : Step}

theorem step_of_acting {id : NodeId} {call : SwimNode.Call} (h : c.acting s = some (id, call)) :
    c.step s = c.act id call := by
  cases s with
  | deliver envelope =>
    simp only [acting, Option.ite_none_right_eq_some, Option.some.injEq, Prod.mk.injEq] at h
    obtain ⟨hsent, rfl, rfl⟩ := h
    simp [step, hsent]
  | join id seeds => simp [acting] at h
  | tick | sendFailure | leave =>
    obtain ⟨rfl, rfl⟩ := h
    rfl

/-- A step in which no node takes a call sends at most join requests. -/
theorem step_of_not_acting (h : c.acting s = none) :
    (c.step s).nodes = c.nodes ∧
      ∀ e ∈ (c.step s).sent, e ∈ c.sent ∨ ∃ id, e.message = .joinRequest id := by
  cases s with
  | deliver envelope =>
    simp only [acting, ite_eq_right_iff, reduceCtorEq, imp_false] at h
    have hsame : c.step (.deliver envelope) = c := if_neg h
    rw [hsame]
    exact ⟨rfl, fun e he => Or.inl he⟩
  | join id seeds =>
    refine ⟨rfl, fun e he => ?_⟩
    rcases mem_append.mp he with he | he
    · exact Or.inl he
    · obtain ⟨seed, -, rfl⟩ := mem_map.mp he
      exact Or.inr ⟨id, rfl⟩
  | tick | sendFailure | leave => simp [acting] at h

/-- A message in the network was there before, is a join request or was sent in the step. -/
theorem mem_sent_step {e : Envelope} (h : e ∈ (c.step s).sent) :
    e ∈ c.sent ∨ (∃ id, e.message = .joinRequest id) ∨
      ∃ id call, c.acting s = some (id, call) ∧
        ∃ a ∈ ((c.nodes id).call call).2, dispatch id a = some e := by
  cases hact : c.acting s with
  | none => exact ((step_of_not_acting hact).2 e h).imp_right Or.inl
  | some who =>
    obtain ⟨id, call⟩ := who
    rw [step_of_acting hact] at h
    rcases mem_append.mp h with h | h
    · exact Or.inl h
    · obtain ⟨a, ha, hdisp⟩ := mem_filterMap.mp h
      exact Or.inr (Or.inr ⟨id, call, rfl, a, ha, hdisp⟩)

/-- A node changes only when it takes a call. -/
theorem step_node (c : Cluster) (s : Step) (id : NodeId) :
    (c.step s).nodes id = c.nodes id ∨
      ∃ call, c.acting s = some (id, call) ∧
        (c.step s).nodes id = ((c.nodes id).call call).1 := by
  cases hact : c.acting s with
  | none => exact Or.inl (by rw [(step_of_not_acting hact).1])
  | some who =>
    obtain ⟨k, call⟩ := who
    rw [step_of_acting hact]
    by_cases hk : id = k
    · subst hk
      exact Or.inr ⟨call, rfl, act_nodes_self c id call⟩
    · exact Or.inl (act_nodes_of_ne c hk call)

section Run

variable (config : NodeId → SwimConfig) (start : NodeId → ℕ)

/-- The state after a run. -/
def after (steps : List Step) : Cluster := steps.foldl step (init config start)

/-- The run takes the step `s` after `pre`. -/
def Took (steps pre : List Step) (s : Step) : Prop := pre ++ [s] <+: steps

/-- In a step taken after `pre`, no node pings a target under a number under which it
pinged that target before on behalf of another node. -/
def Unambiguous (pre : List Step) (s : Step) : Prop :=
  ∀ x target q pb p, (after config start pre).PingsFor s x target q pb p →
    ∀ pre' s', Took pre pre' s' → ∀ pb' p',
      (after config start pre').PingsFor s' x target q pb' p' → p' = p

/-- The probe of `target` under `q` that is in flight at `p` was started in the step `s`
taken after `pre`. -/
def Started (steps : List Step) (p target : NodeId) (q : ℕ) (pre : List Step) (s : Step) : Prop :=
  Took steps pre s ∧ ((after config start pre).nodes p).probe? ≠ some (target, q) ∧
    ∀ mid, pre ++ [s] <+: mid → mid <+: steps →
      ((after config start mid).nodes p).probe? = some (target, q)

/-- The target has handled a ping under `q` that was sent on behalf of `p` in the step in
which the probe in flight at `p` started or later. -/
def Answered (steps : List Step) (p target : NodeId) (q : ℕ) : Prop :=
  ∃ pre s, Started config start steps p target q pre s ∧
    ∃ x pb sent s' handled, Took handled sent s' ∧ pre.length ≤ sent.length ∧
      (after config start sent).PingsFor s' x target q pb p ∧
      Took steps handled (.deliver ⟨target, .ping x q pb⟩)

variable {config start}

theorem after_concat (steps : List Step) (s : Step) :
    after config start (steps ++ [s]) = (after config start steps).step s := by
  simp [after]

variable {steps pre pre' : List Step} {s s' : Step} {p target x : NodeId} {q : ℕ}
  {pb : List MembershipUpdate}

theorem Took.trans {mid : List Step} (h : Took mid pre s) (h' : Took steps mid s') :
    Took steps pre s :=
  List.IsPrefix.trans h ((prefix_append mid [s']).trans h')

theorem Took.length_lt (h : Took steps pre s) : pre.length < steps.length := by
  have := h.length_le
  simp only [length_append, length_singleton] at this
  omega

/-- Two steps of a run: one comes before the other, or they are the same. -/
theorem Took.compare (h : Took steps pre s) (h' : Took steps pre' s') :
    Took pre' pre s ∨ Took pre pre' s' ∨ (pre = pre' ∧ s = s') := by
  rcases lt_trichotomy pre.length pre'.length with hlt | heq | hlt
  · refine Or.inl (prefix_of_prefix_length_le h ((prefix_append pre' [s']).trans h') ?_)
    simp only [length_append, length_singleton]
    omega
  · have hboth : pre ++ [s] = pre' ++ [s'] :=
      (prefix_of_prefix_length_le h h' (by simp [heq])).eq_of_length (by simp [heq])
    have hinj := append_inj hboth heq
    exact Or.inr (Or.inr ⟨hinj.1, singleton_inj.mp hinj.2⟩)
  · refine Or.inr (Or.inl
      (prefix_of_prefix_length_le h' ((prefix_append pre [s]).trans h) ?_))
    simp only [length_append, length_singleton]
    omega

/-- Every message other than a join request was sent in a step of the run. -/
theorem took_of_sent {e : Envelope} (h : e ∈ (after config start steps).sent)
    (hjoin : ∀ id, e.message ≠ .joinRequest id) :
    ∃ pre s, Took steps pre s ∧ ∃ id call, (after config start pre).acting s = some (id, call) ∧
      ∃ a ∈ (((after config start pre).nodes id).call call).2, dispatch id a = some e := by
  induction steps using reverseRecOn with
  | nil => simp [after, init] at h
  | append_singleton steps s ih =>
    rw [after_concat] at h
    rcases mem_sent_step h with h | ⟨id, hid⟩ | h
    · obtain ⟨pre, s', htook, hrest⟩ := ih h
      exact ⟨pre, s', List.IsPrefix.trans htook (prefix_append steps [s]), hrest⟩
    · exact absurd hid (hjoin id)
    · exact ⟨steps, s, prefix_rfl, h⟩

theorem sequence_mono (config : NodeId → SwimConfig) (start : NodeId → ℕ) (h : pre <+: steps)
    (p : NodeId) :
    ((after config start pre).nodes p).sequence ≤
      ((after config start steps).nodes p).sequence := by
  obtain ⟨rest, rfl⟩ := h
  induction rest using reverseRecOn with
  | nil => simp
  | append_singleton rest s ih =>
    rw [← append_assoc, after_concat]
    refine ih.trans ?_
    obtain hsame | ⟨call, -, hcall⟩ := step_node (after config start (pre ++ rest)) s p
    · rw [hsame]
    · rw [hcall]
      exact (call_traffic _ call).mono

/-- Node `p` pings `target` under `q` of its own accord in the step taken after `pre`. -/
def PingsOwn (config : NodeId → SwimConfig) (start : NodeId → ℕ) (pre : List Step) (s : Step)
    (p target : NodeId) (q : ℕ) : Prop :=
  ∃ call pb, (after config start pre).acting s = some (p, call) ∧ call.request? = none ∧
    .sendPing target q pb ∈ (((after config start pre).nodes p).call call).2

theorem PingsOwn.pingsFor (h : PingsOwn config start pre s p target q) :
    ∃ pb, (after config start pre).PingsFor s p target q pb p := by
  obtain ⟨call, pb, hact, hown, hping⟩ := h
  exact ⟨pb, call, hact, hping, by simp [principal, hown]⟩

theorem PingsOwn.sequence_lt (h : PingsOwn config start pre s p target q) :
    ((after config start pre).nodes p).sequence < q ∧
      q ≤ ((after config start (pre ++ [s])).nodes p).sequence := by
  obtain ⟨call, pb, hact, hown, hping⟩ := h
  have := (call_traffic ((after config start pre).nodes p) call).own hown _ _ _ hping
  rwa [after_concat, step_of_acting hact, act_nodes_self]

/-- A node uses each of its numbers in one step only. -/
theorem PingsOwn.unique {target' : NodeId} (htook : Took steps pre s) (htook' : Took steps pre' s')
    (h : PingsOwn config start pre s p target q) (h' : PingsOwn config start pre' s' p target' q) :
    pre = pre' := by
  have hq := h.sequence_lt
  have hq' := h'.sequence_lt
  rcases htook.compare htook' with hlt | hlt | ⟨heq, -⟩
  · have hm := sequence_mono config start hlt p
    omega
  · have hm := sequence_mono config start hlt p
    omega
  · exact heq

/-- A probe in flight was started in a step in which its node sent the ping itself. -/
theorem started_of_inFlight (h : ((after config start steps).nodes p).probe? = some (target, q)) :
    ∃ pre s, Started config start steps p target q pre s ∧
      PingsOwn config start pre s p target q := by
  induction steps using reverseRecOn with
  | nil => simp [after, init, probe?, new, SwimProbe.new, ProbePhase.probe?] at h
  | append_singleton steps s ih =>
    by_cases hbefore : ((after config start steps).nodes p).probe? = some (target, q)
    · obtain ⟨pre, s', ⟨htook, hnot, hsince⟩, hown⟩ := ih hbefore
      refine ⟨pre, s', ⟨List.IsPrefix.trans htook (prefix_append steps [s]), hnot,
        fun mid hmid hsteps => ?_⟩, hown⟩
      rcases prefix_concat_iff.mp hsteps with rfl | hsteps
      · exact h
      · exact hsince mid hmid hsteps
    · refine ⟨steps, s, ⟨prefix_rfl, hbefore, fun mid hmid hsteps => ?_⟩, ?_⟩
      · rw [hsteps.eq_of_length (le_antisymm hsteps.length_le hmid.length_le)]
        exact h
      · rw [after_concat] at h
        obtain hsame | ⟨call, hact, hcall⟩ := step_node (after config start steps) s p
        · rw [hsame] at h
          exact absurd h hbefore
        · rw [hcall] at h
          have htraffic := call_traffic ((after config start steps).nodes p) call
          rcases htraffic.inFlight target q h with hfl | ⟨hown, pb, hping⟩
          · exact absurd hfl hbefore
          · exact ⟨call, pb, hact, hown, hping⟩

/-- A node takes the call of a message only when the message is delivered to it. -/
theorem acting_message {m : Message} (h : c.acting s = some (x, m.call)) :
    s = .deliver ⟨x, m⟩ ∧ ⟨x, m⟩ ∈ c.sent := by
  cases s with
  | deliver e =>
    simp only [acting, Option.ite_none_right_eq_some, Option.some.injEq, Prod.mk.injEq] at h
    obtain ⟨hsent, rfl, hcall⟩ := h
    obtain ⟨dest, message⟩ := e
    obtain rfl : message = m := Message.call_injective hcall
    exact ⟨rfl, hsent⟩
  | join => simp [acting] at h
  | tick | sendFailure | leave =>
    simp only [acting, Option.some.injEq, Prod.mk.injEq] at h
    cases m <;> simp [Message.call] at h

theorem call_of_request {call : SwimNode.Call} (h : call.request? = some (p, target, q)) :
    ∃ pb, call = (Message.pingReq p target q pb).call := by
  cases call <;> simp_all [request?, Message.call]

/-- An ack in the network answers a ping that its sender has handled. -/
theorem handled_of_ack (h : ⟨x, .ack target q pb⟩ ∈ (after config start steps).sent) :
    ∃ pb' handled sent s p, Took steps handled (.deliver ⟨target, .ping x q pb'⟩) ∧
      Took handled sent s ∧ (after config start sent).PingsFor s x target q pb' p := by
  obtain ⟨handled, s₂, htook, id, call, hact, a, ha, hdisp⟩ := took_of_sent h (by simp)
  obtain ⟨rfl, rfl⟩ : target = id ∧ a = .sendAck x q pb := by
    cases a <;> simp_all [dispatch]
  obtain ⟨pb', rfl⟩ := (call_traffic _ call).acks _ _ _ ha
  obtain ⟨rfl, hsent⟩ := acting_message (m := .ping x q pb') hact
  obtain ⟨sent, s, htook', id', call', hact', b, hb, hdisp'⟩ := took_of_sent hsent (by simp)
  obtain ⟨rfl, rfl⟩ : x = id' ∧ b = .sendPing target q pb' := by
    cases b <;> simp_all [dispatch]
  exact ⟨pb', handled, sent, s, _, htook, htook', call', hact', hb, rfl⟩

/-- A pending relay goes back to a request that was served with a ping. -/
theorem pingsFor_of_relay {r : PendingRelay}
    (h : r ∈ ((after config start steps).nodes x).pendingRelays) :
    ∃ pre s pb, Took steps pre s ∧
      (after config start pre).PingsFor s x r.target r.sequence pb r.requester := by
  induction steps using reverseRecOn with
  | nil => simp [after, init, new] at h
  | append_singleton steps s ih =>
    rw [after_concat] at h
    have hext := prefix_append steps [s]
    obtain hsame | ⟨call, hact, hcall⟩ := step_node (after config start steps) s x
    · rw [hsame] at h
      obtain ⟨pre, s', pb, htook, hping⟩ := ih h
      exact ⟨pre, s', pb, List.IsPrefix.trans htook hext, hping⟩
    · rw [hcall] at h
      have htraffic := call_traffic ((after config start steps).nodes x) call
      rcases htraffic.relays r h with h | hreq
      · obtain ⟨pre, s', pb, htook, hping⟩ := ih h
        exact ⟨pre, s', pb, List.IsPrefix.trans htook hext, hping⟩
      · obtain ⟨pb, hping⟩ := (htraffic.relayed _ _ _ hreq).1
        exact ⟨steps, s, pb, prefix_rfl, call, hact, hping,
          by simp [principal, hreq]⟩

/-- A ping that a node sends on behalf of a prober with a probe in flight under its number
is sent in the step in which the probe started or later. -/
theorem start_le_of_pingsFor {sent : List Step} (hstart : Took steps pre s)
    (hown : PingsOwn config start pre s p target q) (hsent : Took steps sent s')
    (hping : (after config start sent).PingsFor s' x target q pb p) : pre.length ≤ sent.length := by
  obtain ⟨call, hact, hmem, hprincipal⟩ := hping
  have htraffic := call_traffic ((after config start sent).nodes x) call
  cases hreq : call.request? with
  | none =>
    obtain rfl : x = p := by simpa [principal, hreq] using hprincipal
    have hown' : PingsOwn config start sent s' x target q := ⟨call, pb, hact, hreq, hmem⟩
    rw [hown.unique hstart hsent hown']
  | some r =>
    obtain ⟨p', target', q'⟩ := r
    obtain rfl : p' = p := by simpa [principal, hreq] using hprincipal
    obtain ⟨rfl, rfl⟩ := (htraffic.relayed _ _ _ hreq).2 _ _ _ hmem
    obtain ⟨pb', rfl⟩ := call_of_request hreq
    obtain ⟨-, hreqSent⟩ := acting_message hact
    obtain ⟨asked, s₀, htook, id, call₀, hact₀, a, ha, hdisp⟩ := took_of_sent hreqSent (by simp)
    obtain ⟨rfl, rfl⟩ : p' = id ∧ a = .sendPingReq x target q pb' := by
      cases a <;> simp_all [dispatch]
    have hasked : asked.length < sent.length := htook.length_lt
    have htraffic₀ := call_traffic ((after config start asked).nodes p') call₀
    rcases htraffic₀.requests _ _ _ _ ha with hfl | ⟨hreq₀, pb₀, hping₀⟩
    · obtain ⟨pre', s₁, hstarted, hown'⟩ := started_of_inFlight hfl
      have htook' : Took steps pre' s₁ := (hstarted.1.trans htook).trans hsent
      have hlt := hstarted.1.length_lt
      rw [hown.unique hstart htook' hown']
      omega
    · have hown' : PingsOwn config start asked s₀ p' target q := ⟨call₀, pb₀, hact₀, hreq₀, hping₀⟩
      rw [hown.unique hstart (htook.trans hsent) hown']
      omega

/-- In a run of unambiguous steps, the pings of a node to a target under one number are
all on behalf of the same node. -/
theorem principal_unique (hun : ∀ pre s, Took steps pre s → Unambiguous config start pre s)
    (htook : Took steps pre s) (htook' : Took steps pre' s') {p' : NodeId}
    {pb' : List MembershipUpdate} (h : (after config start pre).PingsFor s x target q pb p)
    (h' : (after config start pre').PingsFor s' x target q pb' p') : p = p' := by
  rcases htook.compare htook' with hlt | hlt | ⟨rfl, rfl⟩
  · exact hun pre' s' htook' x target q pb' p' h' pre s hlt pb p h
  · exact (hun pre s htook x target q pb p h pre' s' hlt pb' p' h').symm
  · obtain ⟨call, hact, -, rfl⟩ := h
    obtain ⟨call', hact', -, rfl⟩ := h'
    obtain ⟨-, rfl⟩ := Prod.mk.inj (Option.some.inj (hact.symm.trans hact'))
    rfl

/-- **An ack completes only the probe it answers**, in every run of unambiguous steps: when
the delivery of an ack or of a forwarded ack ends a probe in flight, the target has handled
a ping under its number that was sent on behalf of the prober, by the prober itself or by a
relay serving its request, in the step in which the probe started or later. -/
theorem ack_answers_probe (config : NodeId → SwimConfig) (start : NodeId → ℕ) (steps : List Step)
    (hun : ∀ pre s, Took steps pre s → Unambiguous config start pre s)
    (e : Envelope) (hsent : e ∈ (after config start steps).sent)
    (hkind : (∃ sender q pb, e.message = .ack sender q pb) ∨
      ∃ target q pb, e.message = .indirectAck target q pb)
    (target : NodeId) (q : ℕ)
    (hbefore : ((after config start steps).nodes e.dest).probe? = some (target, q))
    (hafter : ((after config start (steps ++ [.deliver e])).nodes e.dest).probe? ≠
      some (target, q)) : Answered config start steps e.dest target q := by
  obtain ⟨p, message⟩ := e
  obtain ⟨pre, s, hstarted, hown⟩ := started_of_inFlight hbefore
  have hact : (after config start steps).acting (.deliver ⟨p, message⟩) =
      some (p, message.call) := if_pos hsent
  rw [after_concat, step_of_acting hact, act_nodes_self] at hafter
  have hanswered (x : NodeId) (pb : List MembershipUpdate) (p' : NodeId)
      (handled sent : List Step) (s' : Step)
      (hhandled : Took steps handled (.deliver ⟨target, .ping x q pb⟩))
      (htook : Took handled sent s')
      (hping : (after config start sent).PingsFor s' x target q pb p')
      (hp : p' = p) : Answered config start steps p target q := by
    subst hp
    exact ⟨pre, s, hstarted, x, pb, sent, s', handled, htook,
      start_le_of_pingsFor hstarted.1 hown (htook.trans hhandled) hping, hping, hhandled⟩
  rcases hkind with ⟨sender, q', pb, rfl⟩ | ⟨sender, q', pb, rfl⟩
  · obtain ⟨rfl, rfl⟩ : sender = target ∧ q' = q := by
      rcases handleAck_probe _ sender q' pb with h | h
      · exact absurd (h.trans hbefore) hafter
      · simpa using h.symm.trans hbefore
    obtain ⟨pb', handled, sent, s', p', hhandled, htook, hping⟩ := handled_of_ack hsent
    obtain ⟨pb₀, hfor⟩ := hown.pingsFor
    exact hanswered p pb' p' handled sent s' hhandled htook hping
      (principal_unique hun (htook.trans hhandled) hstarted.1 hping hfor)
  · obtain ⟨rfl, rfl⟩ : sender = target ∧ q' = q := by
      rcases handleIndirectAck_probe _ sender q' pb with h | h
      · exact absurd (h.trans hbefore) hafter
      · simpa using h.symm.trans hbefore
    obtain ⟨forwarded, s₂, htook₂, x, call, hact₂, a, ha, hdisp⟩ := took_of_sent hsent (by simp)
    obtain rfl : a = .forwardAck p sender q' pb := by
      cases a <;> simp_all [dispatch]
    obtain ⟨⟨pb₁, rfl⟩, hrelay⟩ := (call_traffic _ call).forwards _ _ _ _ ha
    obtain ⟨-, hack⟩ := acting_message (m := .ack sender q' pb₁) hact₂
    obtain ⟨pb', handled, sent, s', p', hhandled, htook, hping⟩ := handled_of_ack hack
    obtain ⟨asked, s₃, pb₃, htook₃, hfor⟩ := pingsFor_of_relay hrelay
    exact hanswered x pb' p' handled sent s' (hhandled.trans htook₂) htook hping
      (principal_unique hun ((htook.trans hhandled).trans htook₂) (htook₃.trans htook₂) hping hfor)

theorem Took.mem (h : Took steps pre s) : s ∈ steps :=
  List.IsPrefix.subset h (by simp)

/-- Nodes that relay nothing ping on their own behalf only. -/
theorem unambiguous_of_no_requests
    (hnone : ∀ x p target q pb, .deliver ⟨x, .pingReq p target q pb⟩ ∉ steps)
    (htook : Took steps pre s) : Unambiguous config start pre s := by
  have hself (pre : List Step) (s : Step) (hmem : s ∈ steps) (x target p : NodeId) (q : ℕ)
      (pb : List MembershipUpdate) (h : (after config start pre).PingsFor s x target q pb p) :
      p = x := by
    obtain ⟨call, hact, -, rfl⟩ := h
    cases hreq : call.request? with
    | none => simp [principal, hreq]
    | some r =>
      obtain ⟨pb', rfl⟩ := call_of_request hreq
      obtain ⟨rfl, -⟩ := acting_message hact
      exact absurd hmem (hnone _ _ _ _ _)
  intro x target q pb p hping pre' s' htook' pb' p' hping'
  rw [hself pre s htook.mem x target p q pb hping,
    hself pre' s' (htook'.trans htook).mem x target p' q pb' hping']

end Run

/-- A direct probe of node 3 by node 1 and its ack. -/
theorem ack_answers_probe_direct :
    let steps : List Step := [.join 1 [3], .deliver ⟨3, .joinRequest 1⟩,
      .deliver ⟨1, .joinResponse [⟨1, .alive, 0⟩, ⟨3, .alive, 0⟩]⟩, .tick 1 1,
      .deliver ⟨3, .ping 1 1 []⟩]
    Answered (fun _ => .quick) (fun _ => 0) steps 1 3 1 := by
  intro steps
  refine ack_answers_probe (fun _ => .quick) (fun _ => 0) steps ?_
    ⟨1, .ack 3 1 [⟨1, .alive, 0⟩]⟩ (by decide +kernel) (Or.inl ⟨_, _, _, rfl⟩) 3 1
    (by decide +kernel) (by decide +kernel)
  intro pre s htook
  exact unambiguous_of_no_requests (by simp [steps]) htook

/-- Node 1 relays the first ping of node 2 to node 3 and then starts its own first probe of
node 3. The ack of the relayed ping, which node 3 handled before that probe started,
completes it. -/
theorem relayed_ack_completes_probe :
    let steps : List Step := [.join 1 [3], .deliver ⟨3, .joinRequest 1⟩,
      .deliver ⟨1, .joinResponse [⟨1, .alive, 0⟩, ⟨3, .alive, 0⟩]⟩, .join 2 [3],
      .deliver ⟨3, .joinRequest 2⟩,
      .deliver ⟨2, .joinResponse [⟨1, .alive, 0⟩, ⟨2, .alive, 0⟩, ⟨3, .alive, 0⟩]⟩,
      .tick 2 1, .tick 2 2, .deliver ⟨1, .pingReq 2 3 1 []⟩, .deliver ⟨3, .ping 1 1 []⟩,
      .tick 1 1]
    let e : Envelope := ⟨1, .ack 3 1 [⟨1, .alive, 0⟩, ⟨2, .alive, 0⟩]⟩
    let run := after (fun _ => .quick) (fun _ => 0)
    e ∈ (run steps).sent ∧ ((run steps).nodes 1).probe? = some (3, 1) ∧
      ((run (steps ++ [.deliver e])).nodes 1).probe? ≠ some (3, 1) ∧
      ¬ Answered (fun _ => .quick) (fun _ => 0) steps 1 3 1 := by
  intro steps e run
  refine ⟨by decide +kernel, by decide +kernel, by decide +kernel, ?_⟩
  rintro ⟨pre, s, ⟨htook, -, hsince⟩, x, pb, sent, s', handled, htook', hle, -, hhandled⟩
  have hlate : ∀ j < 11, ((run (steps.take j)).nodes 1).probe? ≠ some (3, 1) := by decide +kernel
  have hstart : 10 ≤ pre.length := by
    by_contra hlt
    have hfl := hsince _ prefix_rfl htook
    rw [prefix_iff_eq_take.mp htook] at hfl
    exact hlate _ (by simp; omega) hfl
  have hlt := htook'.length_lt
  have hlt' : handled.length < 11 := hhandled.length_lt
  omega

end Cluster
end Swactor.Swim
