import Swactor.Lib.Machine
import Swactor.Namespace.Handlers

/-!
# Reservations of blob paths

The directory keeps the reservations of the paths in memory and nothing of those that have ended. A
copy of the request that arrives after the end of its reservation makes a new one, exactly if it
finds the path neither bound nor reserved.
-/
namespace Swactor.Namespace

open DataDirectory Machine

/-- The directory holds the path for the reservation. -/
def DataDirectory.Reserves (d : DataDirectory) (path : DataPath) (id : OperationId) : Prop :=
  d.blobReservations[path]? = some id

section

variable {scope : Scope} {d d' : DataDirectory} {path : DataPath} {id : OperationId}
  (hm : ∀ requestId replyTo, scope.message ≠ .reserveBlob requestId path id replyTo)

include hm

theorem Move.reserves (h : Move scope d d') (hd' : d'.Reserves path id) : d.Reserves path id := by
  cases h with
  | failed | tried | said | opened | renewed | dropped | held | withdrawn | retiring => exact hd'
  | committed fates h => cases h <;> exact hd'
  | reserved known operationId hbinding hnode hmessage =>
    obtain ⟨rfl, rfl⟩ | ⟨-, hold⟩ := Maps.getElem?_insert_eq_some.mp hd'
    · obtain ⟨requestId, replyTo, hmessage⟩ := hmessage
      exact absurd hmessage (hm requestId replyTo)
    · exact hold
  | unreserved known => exact (Maps.getElem?_erase_eq_some.mp hd').2

theorem Settles.reserves (h : Settles scope d d') (hd' : d'.Reserves path id) :
    d.Reserves path id := by
  induction h with
  | refl => exact hd'
  | tail _ hmove ih =>
    obtain hmove | ⟨known, rfl⟩ := hmove
    · exact ih (hmove.reserves hm hd')
    · exact ih hd'

theorem Handled.reserves (h : Handled scope d d') (hown : ∀ request, scope.own request)
    (hd' : d'.Reserves path id) : d.Reserves path id := by
  cases h with
  | moved hmoves => exact hmoves.settles.reserves hm hd'
  | resumed hconfirms hbefore hafter =>
    have hresumed := hafter.settles.reserves hm hd'
    have hbegun := hbefore.settles.reserves hm ((settles_resume hown).reserves hm hresumed)
    obtain rfl | ⟨_, _, _, -, -, rfl⟩ := hconfirms <;> exact hbegun
  | rebound fates hbefore hrebind hafter =>
    have hbound := hafter.settles.reserves hm hd'
    refine hbefore.settles.reserves hm ?_
    cases hrebind with
    | registered requestId registration =>
      unfold Reserves DataDirectory.registered at hbound
      split_ifs at hbound
      · exact (Maps.getElem?_erase_eq_some.mp hbound).2
      · exact hbound
    | unregistered | renamed => exact hbound
  | refused => exact hd'

end

/-- A copy of the request for the reservation, at a directory in which the path is neither bound nor
reserved. -/
def DataDirectory.Revives (path : DataPath) (id : OperationId) (d : DataDirectory) :
    DataDirectoryIn → Prop
  | .reserveBlob _ known operationId _ => known = path ∧ operationId = id ∧
      path ∉ d.snapshot.bindings ∧ path ∉ d.snapshot.streamNodes ∧ path ∉ d.blobReservations
  | _ => False

variable {d : DataDirectory} {path : DataPath} {id : OperationId}

theorem reserves_handle_iff (env : Surroundings) (m : DataDirectoryIn)
    (hgone : ¬ d.Reserves path id) :
    (d.handle env m).Reserves path id ↔ d.Revives path id m := by
  by_cases hm : ∃ requestId replyTo, m = .reserveBlob requestId path id replyTo
  · obtain ⟨requestId, replyTo, rfl⟩ := hm
    change (d.reserveBlob path id).1.Reserves path id ↔ _
    unfold reserveBlob
    split_ifs with hbound
    · exact iff_of_false hgone fun h => hbound.elim h.2.2.1 h.2.2.2.1
    · rw [not_or] at hbound
      split
      next existing hexisting =>
        have hreserved : path ∈ d.blobReservations := by
          simp [Std.ExtTreeMap.mem_iff_isSome_getElem?, hexisting]
        exact iff_of_false (by split_ifs <;> exact hgone) fun h => h.2.2.2.2 hreserved
      next hvacant =>
        exact iff_of_true (Maps.getElem?_insert_eq_some.mpr (.inl ⟨rfl, rfl⟩))
          ⟨rfl, rfl, hbound.1, hbound.2, by
            simp [Std.ExtTreeMap.mem_iff_isSome_getElem?, hvacant]⟩
  · have hhandled := handled_handle (d := d) env m (fun _ => True) fun _ _ => trivial
    refine iff_of_false (fun h => hgone ?_) ?_
    · exact hhandled.reserves (fun _ _ heq => hm ⟨_, _, heq⟩) (fun _ => trivial) h
    · cases m with
      | reserveBlob requestId known operationId replyTo =>
        rintro ⟨rfl, rfl, -⟩
        exact hm ⟨_, _, rfl⟩
      | _ => exact fun h => h

namespace Authority

def Reserves (path : DataPath) (id : OperationId) (s : Authority) : Prop :=
  s.Holds (·.Reserves path id) fun _ => False

def Revives (path : DataPath) (id : OperationId) : Authority → AuthorityAction → Prop
  | .up d, .deliver message _ => d.Revives path id message
  | _, _ => False

/-- The reservation is released, or a registration uses it up. -/
def Frees (path : DataPath) (id : OperationId) (s : Authority) : AuthorityAction → Prop
  | .deliver (.releaseBlobReservation _ known operationId _) _ => known = path ∧ operationId = id
  | .deliver (.register requestId registration replyTo) env => s.Reserves path id ∧
      ¬ (s.step (.deliver (.register requestId registration replyTo) env)).Reserves path id
  | _ => False

variable {s : Authority} {a : AuthorityAction}

theorem reserves_step_iff (hgone : ¬ s.Reserves path id) :
    (s.step a).Reserves path id ↔ s.Revives path id a := by
  cases a with
  | deliver message env =>
    cases s with
    | down file => exact Iff.rfl
    | up d => exact reserves_handle_iff (d := d.received env) env message hgone
  | crash => cases s <;> exact Iff.rfl
  | restart env =>
    have hstart : (start env s.file).Holds (fun d => ¬ d.Reserves path id) fun _ => True :=
      holds_start trivial (fun _ => trivial) fun epoch fates =>
        (reserves_handle_iff env .retryRetirements
          (by simp [DataDirectory.Reserves, rebuild])).not.mpr fun h => h
    refine iff_of_false (fun h => ?_) (by cases s <;> exact fun h => h)
    change (start env s.file).Reserves path id at h
    generalize start env s.file = started at hstart h
    cases started with
    | down file => exact h
    | up d => exact hstart h

theorem Frees.gone (h : s.Frees path id a) : ¬ (s.step a).Reserves path id := by
  cases a with
  | crash | restart => exact h.elim
  | deliver message env =>
    cases message with
    | releaseBlobReservation requestId known operationId replyTo =>
      obtain ⟨rfl, rfl⟩ := h
      cases s with
      | down file => exact fun h => h
      | up d =>
        change ¬ ((d.received env).releaseBlobReservation known operationId).1.Reserves _ _
        unfold releaseBlobReservation
        split
        next existing hexisting =>
          split_ifs with hsame
          · exact fun h => (Maps.getElem?_erase_eq_some.mp h).1 rfl
          · exact fun h => hsame (Option.some.inj (hexisting.symm.trans h))
        next hvacant => exact fun h => nomatch hvacant.symm.trans h
    | register requestId registration replyTo => exact h.2
    | _ => exact h.elim

/-- Once a reservation has ended, the directory never holds the path for it again exactly if every
later copy of the request finds the path bound or reserved. -/
theorem reservation_stays_gone_iff (path : DataPath) (id : OperationId)
    (past rest : List AuthorityAction) (a : AuthorityAction) (hfreed : (run past).Frees path id a) :
    (∀ later, later <+: rest → ¬ (run (past ++ a :: later)).Reserves path id) ↔
      Guarded (fun s b => ¬ s.Revives path id b) step (run (past ++ [a])) rest := by
  have hgone : ¬ (run (past ++ [a])).Reserves path id := by
    rw [run_append]
    exact hfreed.gone
  have hlater (later : List AuthorityAction) :
      run (past ++ a :: later) = later.foldl step (run (past ++ [a])) := by
    rw [← run_append, List.append_assoc, List.singleton_append]
  rw [guarded_congr (P := fun s => ¬ s.Reserves path id)
    (fun _ _ _ hs => (reserves_step_iff hs).not.symm)
    (fun _ _ _ hs hb => (reserves_step_iff hs).not.mpr hb) (fun _ _ => trivial) hgone,
    guarded_iff_forall_past]
  constructor
  · intro h later b hrest
    have hheld := h (later ++ [b]) hrest
    rw [hlater, List.foldl_append] at hheld
    exact hheld
  · intro h later hrest
    rw [hlater]
    rcases List.eq_nil_or_concat' later with rfl | ⟨before, b, rfl⟩
    · exact hgone
    · rw [List.foldl_append]
      exact h before b hrest

/-- The late copy finds the path bound by a registration without a reservation. -/
theorem reservation_stays_gone_once_bound :
    let past := [.restart {}, .deliver (.reserveBlob 1 0 7 9) {}]
    let rest := [.deliver (.register 3 ⟨0, 1, 1, 8, .file "blob", 1, none⟩ 9) {},
      .deliver (.reserveBlob 1 0 7 9) {}]
    ∀ later, later <+: rest →
      ¬ (run (past ++ .deliver (.releaseBlobReservation 2 0 7 9) {} :: later)).Reserves 0 7 := by
  intro past rest
  exact (reservation_stays_gone_iff 0 7 past rest (.deliver (.releaseBlobReservation 2 0 7 9) {})
    ⟨rfl, rfl⟩).mpr ⟨fun h => h, fun h => h.2.2.1 (by decide +kernel), trivial⟩

/-- The release is answered, and a copy of the request that arrives after it reserves the path. -/
theorem late_copy_reserves_again :
    let past := [.restart {}, .deliver (.reserveBlob 1 0 7 9) {},
      .deliver (.releaseBlobReservation 2 0 7 9) {}]
    (∃ d, run past = .up d ∧ d.sent = [.reply 9 (.blobReservationReleased 2 1 (.ok ()))] ∧
      ¬ d.Reserves 0 7) ∧
      ∃ d, run (past ++ [.deliver (.reserveBlob 1 0 7 9) {}]) = .up d ∧ d.Reserves 0 7 := by
  unfold DataDirectory.Reserves
  refine ⟨⟨_, rfl, ?_⟩, _, rfl, ?_⟩ <;> decide +kernel

end Authority

end Swactor.Namespace
