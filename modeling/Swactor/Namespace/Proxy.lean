import Swactor.Namespace.Client
import Swactor.Lib.Machine

/-!
# The proxy answers once

Over whole runs of the proxy, with replies that come late or twice, ticks and cancellations, a
request is answered at most once, under the id that it was given.
-/
namespace Swactor.Namespace

open Machine List Relation Std

/-- An answer under the id. -/
def ClientEffect.answers (id : ℕ) : ClientEffect → Bool
  | .replied _ reply => reply.requestId = id
  | _ => false

namespace NamespaceClient

attribute [local grind =] ClientEffect.answers countP_append
attribute [local grind] send dispatch enqueue expire

/-- What handling a message is made of. -/
inductive Move (c : NamespaceClient) : NamespaceClient → Prop
  | enqueued {env request replyTo} :
      Move c (c.enqueue env (c.nextRequestId + 1) request replyTo)
  | kept {pending} (h : ∀ id : ℕ, id ∈ pending → id ∈ c.pending) :
      Move c { c with pending := pending }
  | expired {env} {entry : ℕ × PendingRequest} (h : c.pending[entry.1]? = some entry.2) :
      Move c (c.expire env entry)
  | answered {target} {reply : DirectoryReply} (h : reply.requestId ∈ c.pending) :
      Move c ({ c with pending := c.pending.erase reply.requestId }.send (.replied target reply))
  | refused {target} {reply : DirectoryReply} (hnext : u64Max ≤ c.nextRequestId)
      (hid : reply.requestId = c.nextRequestId) : Move c (c.send (.replied target reply))
  | noted {effect : ClientEffect} (h : ∀ id, effect.answers id = false) : Move c (c.send effect)

abbrev Moves := ReflTransGen Move

variable {c d : NamespaceClient} {env : ClientServices}

/-- Ids are given in order. -/
def Below (c : NamespaceClient) : Prop := ∀ id ∈ c.pending, id < c.nextRequestId

theorem requestId_expiredReply (id : ℕ) (request : NamespaceRequest) :
    (expiredReply id request).requestId = id := by
  cases request <;> rfl

theorem retract_eq (path : DataPath) (operationId : OperationId) :
    c.retractStreamOpen env path operationId = if c.nextRequestId + 1 ≤ u64Max then
      c.enqueue env (c.nextRequestId + 1) (.cancelStream path operationId) c.self else c := by
  unfold retractStreamOpen checkedAdd
  split_ifs <;> rfl

attribute [local grind =] requestId_expiredReply retract_eq

theorem mem_visited {entry : ℕ × PendingRequest} :
    entry ∈ c.visited env ↔ c.pending[entry.1]? = some entry.2 := by
  obtain ⟨id, p⟩ := entry
  by_cases h : id ∈ env.order <;> simp [visited, h, ExtTreeMap.mem_toList_iff_getElem?_eq_some]

theorem pairwise_visited : (c.visited env).Pairwise fun a b => a.1 ≠ b.1 := by
  refine pairwise_append.mpr ⟨Pairwise.filterMap _ ?_ (nodup_dedup _),
    (ExtTreeMap.distinct_keys_toList.imp ?_).filter _, ?_⟩
  · grind
  · simp
  · simp
    grind

theorem Below.move (h : c.Below) (hmove : Move c d) : d.Below := by
  cases hmove <;> grind [Below]

theorem moves_foldl {α : Type} {f : NamespaceClient → α → NamespaceClient} (entries : List α)
    (hf : ∀ c a, Moves c (f c a)) : Moves c (entries.foldl f c) := by
  induction entries generalizing c with
  | nil => exact .refl
  | cons a entries ih => exact (hf c a).trans ih

theorem moves_retract (path : DataPath) (operationId : OperationId) :
    Moves c (c.retractStreamOpen env path operationId) := by
  rw [retract_eq]
  split
  · exact .single .enqueued
  · exact .refl

theorem moves_expired {entries : List (ℕ × PendingRequest)} (h : c.Below)
    (hdistinct : entries.Pairwise fun a b => a.1 ≠ b.1)
    (hentries : ∀ entry ∈ entries, c.pending[entry.1]? = some entry.2) :
    Moves c (entries.foldl (fun c entry => c.expire env entry) c) := by
  induction entries generalizing c with
  | nil => exact .refl
  | cons entry entries ih =>
    rw [pairwise_cons] at hdistinct
    have hmove : Move c (c.expire env entry) := .expired (hentries entry mem_cons_self)
    refine .head hmove (ih (h.move hmove) hdistinct.2 fun other hother => ?_)
    have hpending := hentries other (mem_cons_of_mem _ hother)
    have hkey : other.1 < c.nextRequestId := h _ (by grind)
    have hne := hdistinct.1 other hother
    clear ih hentries hdistinct
    grind

theorem moves_handle (h : c.Below) (m : NamespaceClientIn) : Moves c (c.handle env m) := by
  cases m with
  | request request replyTo =>
    simp only [handle]
    split
    · exact .single (.refused (by grind [checkedAdd]) rfl)
    · next next hnext =>
      obtain rfl : next = c.nextRequestId + 1 := by grind [checkedAdd]
      exact .single .enqueued
  | cancel replyTo =>
    exact .head (.kept (by grind [disown])) (moves_foldl _ fun c opened => moves_retract _ _)
  | cancelBlobReservation path operationId replyTo =>
    simp only [handle]
    split
    · exact .head (.kept (by grind)) (.single (.noted fun _ => rfl))
    · exact .single (.kept (by grind))
  | directoryReply reply =>
    simp only [handle]
    split
    · exact .refl
    · split
      · exact .refl
      · exact .single (.answered (by grind))
  | transferFailed destination transferId reason => exact .single (.noted fun _ => rfl)
  | retry =>
    refine .trans (moves_expired h (pairwise_visited.filter _) ?_)
      (moves_foldl _ fun c entry => ?_)
    · exact fun entry hentry => mem_visited.mp (mem_filter.mp hentry).1
    · unfold dispatch
      split
      · exact .single (.noted fun _ => rfl)
      · exact .refl

/-- What every move keeps, every step keeps. -/
theorem step_rule {P : NamespaceClient → Prop} (hmove : ∀ {c d}, Move c d → P c → P d)
    (h : c.Below) (hc : P { c with sent := [] }) (input : NamespaceClientIn × ClientServices) :
    P (c.step input) := by
  have hmoves : Moves _ (c.step input) := moves_handle (c := { c with sent := [] }) h input.1
  generalize c.step input = d at hmoves ⊢
  induction hmoves with
  | refl => exact hc
  | tail _ h ih => exact hmove h ih

/-- What was answered under an id, and one more while the request waits or is still to come. -/
def weight (id : ℕ) (out : List ClientEffect) (c : NamespaceClient) : ℕ :=
  out.countP (·.answers id) + (if id ∈ c.pending then 1 else 0) +
    if id < c.nextRequestId then 0 else 1

section

variable {id : ℕ} (hid : id < u64Max)
include hid

theorem weight_move (h : Move c d) : weight id d.sent d ≤ weight id c.sent c := by
  cases h with
  | @expired env entry hp =>
    cases hopens : entry.2.request.opens <;> cases hdirectory : env.directory <;>
      simp only [expire, hopens, retract_eq, enqueue, dispatch, hdirectory] <;> grind [weight]
  | _ => grind [weight]

def call (c : NamespaceClient) (input : NamespaceClientIn × ClientServices) :
    NamespaceClient × List ClientEffect :=
  (c.step input, (c.step input).sent)

theorem weight_collect (h : c.Below) (inputs : List (NamespaceClientIn × ClientServices)) :
    weight id (collect call c inputs).2 (collect call c inputs).1 ≤ weight id [] c := by
  induction inputs generalizing c with
  | nil => exact le_rfl
  | cons input inputs ih =>
    have hstep : weight id (c.step input).sent (c.step input) ≤ weight id [] c :=
      step_rule (fun hmove hc => (weight_move hid hmove).trans hc) h le_rfl input
    have hrest := ih (step_rule (fun hmove hc => Below.move hc hmove) h h input)
    change weight id ((c.step input).sent ++ (collect call (c.step input) inputs).2)
      (collect call (c.step input) inputs).1 ≤ _
    simp only [weight, countP_append, countP_nil] at hstep hrest ⊢
    omega

/-- Over every run of a new proxy, at most one answer is sent under an id, and none while the
request waits or before the id is given. -/
theorem answered_at_most_once (self : ActorAddress) (requestDeadline : ℕ)
    (inputs : List (NamespaceClientIn × ClientServices)) :
    let run := collect call { self := self, requestDeadline := requestDeadline } inputs
    run.2.countP (·.answers id) ≤ 1 ∧
      (id ∈ run.1.pending ∨ run.1.nextRequestId ≤ id → run.2.countP (·.answers id) = 0) := by
  have hrun := weight_collect (c := { self := self, requestDeadline := requestDeadline }) hid
    (by simp [Below]) inputs
  have hstart : weight id [] { self := self, requestDeadline := requestDeadline } ≤ 1 := by
    grind [weight]
  dsimp only
  grind [weight]

end

/-- The reply of the directory comes twice. -/
theorem answered_at_most_once_twice :
    let reply : DirectoryReply := .plain (.resolved 1 0 (.error (.pathNotFound 0)))
    let run := collect call { self := 1, requestDeadline := 9 }
      [(.request (.resolve 0) 2, {}), (.directoryReply reply, {}), (.directoryReply reply, {})]
    run.2.countP (·.answers 1) ≤ 1 ∧
      (1 ∈ run.1.pending ∨ run.1.nextRequestId ≤ 1 → run.2.countP (·.answers 1) = 0) :=
  answered_at_most_once (by decide) 1 9 _

end NamespaceClient

end Swactor.Namespace
