import Swactor.DataPlane.ArenaPartition

/-!
# The queue of the arena

A request that does not fit waits in a queue, and so does every request behind it. The queue
is served only when a ring is released. As long as its oldest request that is not cancelled
stays, nothing that waits could be served: the free ranges only shrink between two releases.
When that request is cancelled nothing is served either, and the requests behind it wait for
the next release though they may fit.
-/
namespace Swactor.DataPlane.ArenaManager

open Tiling Machine List

/-- The oldest request that waits and is not cancelled. -/
def oldest (m : ArenaManager) : Option QueuedLease :=
  m.pending.find? fun queued => !queued.cancelled

/-- Some free range is large enough. -/
def Fits (m : ArenaManager) (spec : RingSpec) : Prop :=
  ∃ range ∈ m.freeRanges, (m.config.fitIn spec range).isSome = true

instance fits_decidable (m : ArenaManager) (spec : RingSpec) : Decidable (m.Fits spec) :=
  inferInstanceAs (Decidable (∃ _ ∈ _, _))

/-- The ring ids suffice, and the oldest request that waits is not cancelled. -/
def Prompt (m : ArenaManager) : ArenaRequest → Prop
  | .cancelLease requestId => ∀ queued ∈ m.oldest, queued.request.requestId ≠ requestId
  | r => m.Fair r

instance prompt_decidable (m : ArenaManager) : ∀ r, Decidable (m.Prompt r)
  | .cancelLease requestId =>
      inferInstanceAs (Decidable (∀ queued ∈ m.oldest, queued.request.requestId ≠ requestId))
  | .leaseRing request => inferInstanceAs (Decidable (m.Fair (.leaseRing request)))
  | .releaseRing ringId proof => inferInstanceAs (Decidable (m.Fair (.releaseRing ringId proof)))
  | .shutdown => inferInstanceAs (Decidable (m.Fair .shutdown))

theorem Prompt.fair {m : ArenaManager} {r : ArenaRequest} (h : m.Prompt r) : m.Fair r := by
  cases r with
  | cancelLease requestId | shutdown => trivial
  | leaseRing request | releaseRing ringId proof => exact h

/-- Either nothing waits, or a request that does not fit is the oldest that waits. -/
def Blocked (m : ArenaManager) : Prop :=
  m.pending = [] ∨ ∃ queued, m.oldest = some queued ∧ ¬ m.Fits queued.request.ringSpec

variable {m : ArenaManager} {request : LeaseRing}

theorem fits_iff_carve {spec : RingSpec} :
    m.Fits spec ↔ ∃ found, m.config.carve spec m.freeRanges = some found := by
  rw [← Option.ne_none_iff_exists', Ne, ArenaConfig.carve_eq_none]
  simp [Fits, Option.isSome_iff_ne_none]

variable {queued : QueuedLease}

/-- A request that waits behind nothing and does not fit blocks the queue. -/
theorem blocked_of_head {rest : List QueuedLease} (hpending : m.pending = queued :: rest)
    (hcancelled : queued.cancelled = false) (hfits : ¬ m.Fits queued.request.ringSpec) :
    m.Blocked :=
  Or.inr ⟨queued, by simp [oldest, hpending, hcancelled], hfits⟩

/-- A request that is not granted with a ring id left does not fit, and nothing changed. -/
theorem tryAllocate_eq_none (hid : m.nextRingId < u64Max) {m' : ArenaManager}
    (h : m.tryAllocate request = (none, m')) : m' = m ∧ ¬ m.Fits request.ringSpec := by
  rcases m.tryAllocate_cases request hid with ⟨hnone, heq⟩ | ⟨layout, free, -, heq⟩
  · obtain ⟨-, rfl⟩ := Prod.ext_iff.mp (heq.symm.trans h)
    refine ⟨rfl, ?_⟩
    rintro ⟨range, hrange, hsome⟩
    rw [hnone range hrange] at hsome
    cases hsome
  · rw [heq] at h
    cases h

theorem blocked_retryPendingLeases {pending : List QueuedLease}
    (hids : m.nextRingId + pending.length ≤ u64Max) : (m.retryPendingLeases pending).1.Blocked := by
  induction pending generalizing m with
  | nil => exact Or.inl rfl
  | cons queued rest ih =>
    rw [length_cons] at hids
    unfold retryPendingLeases
    split_ifs with hcancelled
    · exact ih (by omega)
    · rcases heq : m.tryAllocate queued.request with ⟨_ | lease, m'⟩
      · obtain ⟨rfl, hfits⟩ := tryAllocate_eq_none (by omega) heq
        exact blocked_of_head rfl (by simpa using hcancelled) hfits
      · rcases m.tryAllocate_cases queued.request (by omega) with ⟨-, heq'⟩ | ⟨_, _, -, heq'⟩
        · rw [heq] at heq'
          cases heq'
        · rw [heq] at heq'
          obtain ⟨-, rfl⟩ := Prod.ext_iff.mp heq'
          refine ih ?_
          change m.nextRingId + 1 + rest.length ≤ u64Max
          omega

/-- Requests behind the oldest that waits do not change it. -/
theorem oldest_append (h : m.oldest = some queued) (more : List QueuedLease) :
    ({ m with pending := m.pending ++ more } : ArenaManager).oldest = some queued := by
  simp only [oldest] at h ⊢
  rw [find?_append, h, Option.some_or]

/-- Cancelling other requests does not change the oldest that waits. -/
theorem oldest_cancelLease {requestId : ℕ} (h : m.oldest = some queued)
    (hid : queued.request.requestId ≠ requestId) :
    (m.cancelLease requestId).oldest = some queued := by
  unfold oldest at h
  simp only [oldest, cancelLease]
  generalize m.pending = pending at h
  induction pending with
  | nil => cases h
  | cons head rest ih =>
    rw [map_cons, find?_cons]
    cases hcancelled : head.cancelled with
    | true =>
      have hrest := ih (by simpa [find?_cons, hcancelled] using h)
      split_ifs
      · simpa using hrest
      · simpa [hcancelled] using hrest
    | false =>
      obtain rfl : head = queued := by simpa [find?_cons, hcancelled] using h
      rw [if_neg hid]
      simp [hcancelled]

/-- The queue is blocked, and empty once the arena shuts down. -/
structure Queueing (m : ArenaManager) : Prop where
  down : m.state = .shuttingDown → m.pending = []
  blocked : m.Blocked

theorem state_tryAllocate (m : ArenaManager) (request : LeaseRing) :
    (m.tryAllocate request).2.state = m.state ∧ (m.tryAllocate request).2.pending = m.pending := by
  unfold tryAllocate
  split
  · exact ⟨rfl, rfl⟩
  · split <;> exact ⟨rfl, rfl⟩

theorem state_retryPendingLeases (m : ArenaManager) (pending : List QueuedLease) :
    (m.retryPendingLeases pending).1.state = m.state :=
  keeps_retryPendingLeases (fun _ _ => rfl) (fun m request => (state_tryAllocate m request).1) m
    pending

theorem Queueing.leaseRing (h : m.Queueing) (hfair : m.Fair (.leaseRing request)) :
    (m.leaseRing request).1.Queueing := by
  unfold ArenaManager.leaseRing
  split_ifs with hdown hlayout hempty
  · exact ⟨h.down, h.blocked⟩
  · exact ⟨h.down, h.blocked⟩
  · have hpending : m.pending = [] := by simpa using hempty
    have hid : m.nextRingId < u64Max := hfair hpending
    rcases heq : m.tryAllocate request with ⟨_ | lease, m'⟩
    · obtain ⟨rfl, hfits⟩ := tryAllocate_eq_none hid heq
      refine ⟨fun hstate => absurd hstate hdown, ?_⟩
      have hlone : m'.pending ++ [(⟨request, false⟩ : QueuedLease)] = [⟨request, false⟩] := by
        rw [hpending, nil_append]
      exact blocked_of_head hlone rfl hfits
    · have halloc := state_tryAllocate m request
      rw [heq] at halloc
      exact ⟨fun _ => halloc.2.trans hpending, Or.inl (halloc.2.trans hpending)⟩
  · refine ⟨fun hstate => absurd hstate hdown, ?_⟩
    obtain ⟨queued, hqueued, hfits⟩ := h.blocked.resolve_left (by simpa using hempty)
    exact Or.inr ⟨queued, oldest_append hqueued _, hfits⟩

theorem Queueing.step {asked : LeaseRing → Prop} (h : m.Queueing) (hpart : m.Partitioned asked)
    (r : ArenaRequest) (hprompt : m.Prompt r) : (m.step r).Queueing := by
  cases r with
  | leaseRing request => exact h.leaseRing hprompt
  | cancelLease requestId =>
    refine ⟨fun hstate => ?_, ?_⟩
    · change m.pending.map _ = []
      rw [h.down hstate, map_nil]
    · rcases h.blocked with hempty | ⟨queued, hqueued, hfits⟩
      · refine Or.inl ?_
        change m.pending.map _ = []
        rw [hempty, map_nil]
      · exact Or.inr ⟨queued, oldest_cancelLease hqueued (hprompt queued hqueued), hfits⟩
  | releaseRing ringId proof =>
    simp only [ArenaManager.step, ArenaManager.request]
    rcases releaseRing_cases hpart ringId proof with
      ⟨reason, heq⟩ | ⟨index, lease, -, -, -, -, ⟨hstate, heq⟩ | ⟨hready, heq⟩⟩
    · rw [heq]
      exact ⟨h.down, h.blocked⟩
    · rw [heq]
      have hdown : m.state = .shuttingDown := by
        cases hs : m.state with
        | ready => exact absurd hs hstate
        | shuttingDown => rfl
      exact ⟨h.down, Or.inl (h.down hdown)⟩
    · rw [heq]
      refine ⟨fun hstate => ?_, blocked_retryPendingLeases hprompt⟩
      have := hstate.symm.trans (state_retryPendingLeases _ _)
      rw [unlease_state, hready] at this
      cases this
  | shutdown => exact ⟨fun _ => rfl, Or.inl rfl⟩

/-- No fitting request is stranded: in every run in which the oldest request that waits is
never cancelled and the ring ids last, the oldest request that waits and is not cancelled
fits no free range, and a new request that fits is granted at once when no such request
waits, unless the arena shuts down. -/
theorem oldest_waits {config : ArenaConfig} {boot : ArenaManager}
    (hboot : ArenaManager.boot config = .ok boot) (requests : List ArenaRequest)
    (hprompt : Guarded Prompt step boot requests) :
    let m := requests.foldl step boot
    (∀ queued, m.oldest = some queued → ¬ m.Fits queued.request.ringSpec) ∧
      ∀ request, m.state = .ready → m.Prompt (.leaseRing request) → m.oldest = none →
        m.Fits request.ringSpec →
        ∃ lease, lease.requestId = request.requestId ∧
          (m.request (.leaseRing request)).2 = [.ringLeased lease] := by
  intro m
  have hinv : m.Partitioned (fun _ => True) ∧ m.Queueing := by
    refine hprompt.invariant (P := fun m => m.Partitioned (fun _ => True) ∧ m.Queueing)
      (fun m r hm hr => ?_) ⟨partitioned_boot hboot, ?_⟩
    · exact ⟨hm.1.step r hr.fair fun _ _ => trivial, hm.2.step hm.1 r hr⟩
    · obtain ⟨-, -, rfl⟩ := boot_eq_ok hboot
      exact ⟨fun _ => rfl, Or.inl rfl⟩
  obtain ⟨-, hqueue⟩ := hinv
  refine ⟨fun queued hqueued => ?_, fun request hready hid hnone hfits => ?_⟩
  · rcases hqueue.blocked with hempty | ⟨queued', hqueued', hfits⟩
    · simp [oldest, hempty] at hqueued
    · obtain rfl : queued' = queued := Option.some.inj (hqueued'.symm.trans hqueued)
      exact hfits
  · have hpending : m.pending = [] := by
      refine hqueue.blocked.resolve_right ?_
      rintro ⟨queued, hqueued, -⟩
      rw [hnone] at hqueued
      cases hqueued
    obtain ⟨⟨layout, free⟩, hcarve⟩ := fits_iff_carve.mp hfits
    refine ⟨m.newLease request layout, rfl, ?_⟩
    simp only [ArenaManager.request]
    rw [leaseRing_of_carve hready hpending (hid hpending) hcarve]

/-- The second of two requests that wait is cancelled; the first does not fit, and after it
was served a request that fits is granted at once. -/
theorem oldest_waits_cancelled :
    let boot : ArenaManager := { config := ⟨0, 100, 1⟩, freeRanges := [⟨0, 100⟩] }
    let requests : List ArenaRequest := [.leaseRing ⟨1, ⟨0, 60, 1⟩⟩, .leaseRing ⟨2, ⟨0, 50, 1⟩⟩,
      .leaseRing ⟨3, ⟨0, 30, 1⟩⟩, .cancelLease 3, .releaseRing 1 true]
    let m := requests.foldl step boot
    m.pending = [] ∧ ∃ lease, lease.requestId = 4 ∧
      (m.request (.leaseRing ⟨4, ⟨0, 30, 1⟩⟩)).2 = [.ringLeased lease] := by
  intro boot requests m
  refine ⟨by decide +kernel, ?_⟩
  have hboot : ArenaManager.boot ⟨0, 100, 1⟩ = .ok boot := rfl
  exact (oldest_waits hboot requests (by decide +kernel)).2
    ⟨4, ⟨0, 30, 1⟩⟩ (by decide +kernel) (by decide +kernel) (by decide +kernel) (by decide +kernel)

/-- The request that blocks the queue is cancelled. The request behind it is now the oldest,
it fits and is not served; a new request that fits is queued though only cancelled ones wait
ahead of it. -/
theorem cancelled_head_strands :
    let boot : ArenaManager := { config := ⟨0, 100, 1⟩, freeRanges := [⟨0, 100⟩] }
    let behind : LeaseRing := ⟨3, ⟨0, 30, 1⟩⟩
    let m := [ArenaRequest.leaseRing ⟨1, ⟨0, 60, 1⟩⟩, .leaseRing ⟨2, ⟨0, 50, 1⟩⟩,
      .leaseRing behind, .cancelLease 2].foldl step boot
    let m' := [ArenaRequest.leaseRing ⟨1, ⟨0, 60, 1⟩⟩, .leaseRing ⟨2, ⟨0, 50, 1⟩⟩,
      .cancelLease 2].foldl step boot
    ArenaManager.boot ⟨0, 100, 1⟩ = .ok boot ∧
      m.oldest = some ⟨behind, false⟩ ∧ m.Fits behind.ringSpec ∧
      m'.oldest = none ∧ m'.Fits behind.ringSpec ∧
      (m'.request (.leaseRing behind)).2 = [.ringLeaseQueued 3] := by
  intro boot behind m m'
  exact ⟨rfl, by decide +kernel⟩

end Swactor.DataPlane.ArenaManager
