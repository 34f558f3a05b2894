import Swactor.Namespace.Handlers

/-!
# Where an open of a stream is

An open that a fence holds stays with the fence, is made when the fence is lifted, and then is
answered, waits at its path for the other side, or is held by the next fence. It leaves the
directory without an answer only when it is cancelled or when the directory goes down.
-/
namespace Swactor.Namespace

open Maps List
open Std (ExtTreeMap)

namespace DataDirectory

/-- The fence of its path holds the open, or it waits there for the other side. -/
def Pends (opening : StreamOpening) (d : DataDirectory) : Prop :=
  (∃ fence, d.streamReplacementFences[opening.path]? = some fence ∧
      ∃ request ∈ fence.requests, request.opening = opening) ∨
    ∃ pending, d.streams[opening.path]? = some (.pending pending) ∧
      pending.opening opening.path = opening

/-- The open is there or has been answered. -/
def Accounts (opening : StreamOpening) (d : DataDirectory) : Prop :=
  Answered d.sent opening ∨ d.Pends opening

variable {opening : StreamOpening} {scope : Scope} {d d' : DataDirectory}

theorem Accounts.frame (h : d.Accounts opening) (hstreams : d'.streams = d.streams)
    (hfences : d'.streamReplacementFences = d.streamReplacementFences)
    (hsent : d.sent ⊆ d'.sent) : d'.Accounts opening := by
  unfold Accounts Pends
  rw [hstreams, hfences]
  refine h.imp_left ?_
  rintro ⟨target, requestId, epoch, result, hmem⟩
  exact ⟨target, requestId, epoch, result, hsent hmem⟩

variable {requests : List StreamOpenRequest}

theorem exists_mem_hold {request known : StreamOpenRequest} (hmem : known ∈ requests)
    (hpath : known.path = request.path) :
    ∃ found ∈ hold request requests, found.opening = known.opening := by
  induction requests with
  | nil => cases hmem
  | cons first rest ih =>
    unfold hold
    split
    · next hsame =>
      rcases mem_cons.mp hmem with rfl | hmem
      · refine ⟨request, mem_cons_self, ?_⟩
        simp [StreamOpenRequest.opening, hpath, hsame]
      · exact ⟨known, mem_cons_of_mem _ hmem, rfl⟩
    · rcases mem_cons.mp hmem with rfl | hmem
      · exact ⟨known, mem_cons_self, rfl⟩
      · obtain ⟨found, hfound, hsame⟩ := ih hmem
        exact ⟨found, mem_cons_of_mem _ hfound, hsame⟩

theorem mem_hold_self (request : StreamOpenRequest) (requests : List StreamOpenRequest) :
    request ∈ hold request requests := by
  induction requests with
  | nil => exact mem_singleton.mpr rfl
  | cons first rest ih =>
    unfold hold
    split
    · exact mem_cons_self
    · exact mem_cons_of_mem _ ih

/-- The fence of a path holds other requests, among them the open. -/
theorem Accounts.insert_fence (h : d.Accounts opening) {path : DataPath}
    {fence : StreamReplacementFence} (hfence : d.streamReplacementFences[path]? = some fence)
    (hkept : opening.path = path → ∀ request ∈ fence.requests, request.opening = opening →
      ∃ found ∈ requests, found.opening = opening) :
    Accounts opening { d with
      streamReplacementFences := d.streamReplacementFences.insert path
        { fence with requests := requests } } := by
  rcases h with hanswered | ⟨known, hknown, request, hmem, hsame⟩ | hpending
  · exact .inl hanswered
  · by_cases hpath : path = opening.path
    · subst hpath
      obtain rfl : fence = known := by simpa [hfence] using hknown
      obtain ⟨found, hfound, hopening⟩ := hkept rfl request hmem hsame
      exact .inr (.inl ⟨{ fence with requests := requests },
        getElem?_insert_eq_some.mpr (.inl ⟨rfl, rfl⟩), found, hfound, hopening⟩)
    · exact .inr (.inl ⟨known, getElem?_insert_eq_some.mpr (.inr ⟨hpath, hknown⟩), request,
        hmem, hsame⟩)
  · exact .inr (.inr hpending)

/-- The entry of a path changes, and the open that waited there has been answered or still
waits. -/
theorem Accounts.change_stream (h : d.Accounts opening)
    (hfences : d'.streamReplacementFences = d.streamReplacementFences)
    (hsent : d.sent ⊆ d'.sent)
    (hstreams : ∀ pending, d.streams[opening.path]? = some (.pending pending) →
      pending.opening opening.path = opening → d'.Accounts opening) : d'.Accounts opening := by
  rcases h with ⟨target, requestId, epoch, result, hmem⟩ | hheld | ⟨pending, hpending, hsame⟩
  · exact .inl ⟨target, requestId, epoch, result, hsent hmem⟩
  · rw [← hfences] at hheld
    exact .inr (.inl hheld)
  · exact hstreams pending hpending hsame

/-- No fence stands at the path and no open waits there. -/
theorem Accounts.answered_of_vacant (h : d.Accounts opening)
    (hfence : d.streamReplacementFences[opening.path]? = none)
    (hvacant : ∀ pending, d.streams[opening.path]? ≠ some (.pending pending)) :
    Answered d.sent opening := by
  rcases h with hanswered | ⟨fence, hknown, -⟩ | ⟨pending, hpending, -⟩
  · exact hanswered
  · cases hfence.symm.trans hknown
  · exact absurd hpending (hvacant pending)

theorem Answered.mono {sent sent' : List Sent} (h : Answered sent opening)
    (hsent : sent ⊆ sent') : Answered sent' opening := by
  obtain ⟨target, requestId, epoch, result, hmem⟩ := h
  exact ⟨target, requestId, epoch, result, hsent hmem⟩

/-- A successful commit. -/
theorem Accounts.updated {next : NamespaceSnapshot} (h : d.Accounts opening)
    (hupdate : Update scope d next d') (fates : List CommitFate) :
    Accounts opening { d' with store := ⟨next, next, fates⟩ } := by
  cases hupdate with
  | recorded | retired | displaced | settled => exact h.frame rfl rfl fun _ => id
  | fenced request active hown hactive hfence =>
    by_cases hpath : request.path = opening.path
    · rw [hpath] at hactive hfence
      refine .inl (Answered.mono (h.answered_of_vacant hfence fun pending hpending => ?_)
        (subset_append_left _ _))
      cases hactive.symm.trans hpending
    · rcases h with hanswered | ⟨known, hknown, hheld⟩ | ⟨pending, hpending, hsame⟩
      · exact .inl (Answered.mono hanswered (subset_append_left _ _))
      · exact .inr (.inl ⟨known, getElem?_insert_eq_some.mpr (.inr ⟨hpath, hknown⟩), hheld⟩)
      · exact .inr (.inr ⟨pending, getElem?_erase_eq_some.mpr ⟨hpath, hpending⟩, hsame⟩)
  | joined request pending hown hpending hfence =>
    refine h.change_stream rfl (subset_append_left _ _) fun known hknown hsame => ?_
    by_cases hpath : request.path = opening.path
    · rw [hpath] at hpending
      obtain rfl : pending = known := by simpa [hpending] using hknown
      have hopening : pending.opening request.path = opening := by rw [hpath, hsame]
      refine .inl ⟨pending.replyTo, pending.requestId, d.authorityEpoch,
        .ok (d.matched request pending).binding, mem_append_right _ ?_⟩
      rw [hopening]
      exact mem_cons_self
    · exact .inr (.inr ⟨known, getElem?_insert_eq_some.mpr (.inr ⟨hpath, hknown⟩), hsame⟩)
  | bound request retired hown hvacant hfence =>
    refine h.change_stream rfl (fun _ => id) fun known hknown hsame => ?_
    refine .inr (.inr ⟨known, getElem?_insert_eq_some.mpr (.inr ⟨?_, hknown⟩), hsame⟩)
    intro hpath
    rw [hpath] at hvacant
    cases hvacant.symm.trans hknown

variable {own : StreamOpenRequest → Prop}

theorem Accounts.move (h : d.Accounts opening) (hheld : HeldOwn own d)
    (hcancel : ∀ requestId replyTo,
      scope.message ≠ .cancelStream requestId opening.path opening.operationId replyTo)
    (hmove : Move scope d d') : d'.Accounts opening := by
  cases hmove with
  | failed | tried | reserved | unreserved | retiring => exact h.frame rfl rfl fun _ => id
  | committed fates hupdate => exact h.updated hupdate fates
  | said | opened => exact h.frame rfl rfl (subset_append_left _ _)
  | renewed path pending requestId replyTo hpending =>
    refine h.change_stream rfl (fun _ => id) fun known hknown hsame => ?_
    by_cases hpath : path = opening.path
    · rw [hpath] at hpending
      obtain rfl : pending = known := by simpa [hpending] using hknown
      exact .inr (.inr ⟨_, getElem?_insert_eq_some.mpr (.inl ⟨hpath, rfl⟩), hsame⟩)
    · exact .inr (.inr ⟨known, getElem?_insert_eq_some.mpr (.inr ⟨hpath, hknown⟩), hsame⟩)
  | dropped path hexcused =>
    refine h.change_stream rfl (fun _ => id) fun known hknown hsame => ?_
    by_cases hpath : path = opening.path
    · subst hpath
      rcases hexcused known hknown with hanswered | ⟨requestId, replyTo, hm⟩
      · rw [hsame] at hanswered
        exact .inl hanswered
      · have hoperation : known.operationId = opening.operationId := by rw [← hsame]; rfl
        rw [hoperation] at hm
        exact absurd hm (hcancel requestId replyTo)
    · exact .inr (.inr ⟨known, getElem?_erase_eq_some.mpr ⟨hpath, hknown⟩, hsame⟩)
  | held request fence hown hfence =>
    refine h.insert_fence hfence fun _ known hmem hsame => ?_
    obtain ⟨found, hfound, hopening⟩ := exists_mem_hold hmem (hheld _ fence hfence known hmem).1
    exact ⟨found, hfound, hopening.trans hsame⟩
  | withdrawn path operationId fence hm hfence =>
    refine h.insert_fence hfence fun hpath known hmem hsame => ⟨known, ?_, hsame⟩
    refine mem_filter.mpr ⟨hmem, ?_⟩
    obtain ⟨requestId, replyTo, hm⟩ := hm
    have hoperation : known.operationId = opening.operationId := by rw [← hsame]; rfl
    by_contra hother
    have heq : known.operationId = operationId := by simpa using hother
    rw [← hpath, ← heq, hoperation] at hm
    exact hcancel requestId replyTo hm

theorem Accounts.moves (h : d.Accounts opening) (hheld : HeldOwn own d)
    (hscope : ∀ request, scope.own request → own request)
    (hcancel : ∀ requestId replyTo,
      scope.message ≠ .cancelStream requestId opening.path opening.operationId replyTo)
    (hmoves : Moves scope d d') : d'.Accounts opening ∧ HeldOwn own d' := by
  induction hmoves with
  | refl => exact ⟨h, hheld⟩
  | tail _ hmove ih => exact ⟨ih.1.move ih.2 hcancel hmove, heldOwn_move hscope hmove ih.2⟩

section Opens

variable {request : StreamOpenRequest}

section

variable (d : DataDirectory) (request : StreamOpenRequest)

theorem accounts_answerOpen (result : Except NamespaceError StreamMatch) :
    (d.answerOpen request result).Accounts request.opening :=
  .inl ⟨_, _, _, _, mem_append_right _ (mem_singleton.mpr rfl)⟩

theorem accounts_bindUnoccupied : (d.bindUnoccupied request).Accounts request.opening := by
  unfold bindUnoccupied
  split
  · exact accounts_answerOpen d request _
  · dsimp only
    split
    · exact .inr (.inr ⟨_, getElem?_insert_eq_some.mpr (.inl ⟨rfl, rfl⟩), rfl⟩)
    · exact accounts_answerOpen _ request _

theorem accounts_joinStream (pending : PendingStream) :
    (d.joinStream request pending).Accounts request.opening := by
  unfold joinStream
  split
  · exact accounts_answerOpen _ request _
  · exact .inl ⟨_, _, _, _, mem_append_right _ (mem_singleton.mpr rfl)⟩

theorem accounts_placeStream : (d.placeStream request).Accounts request.opening := by
  unfold placeStream
  split
  · exact accounts_bindUnoccupied d request
  · next pending hpending =>
    split
    · split
      · exact accounts_answerOpen d request _
      · next hsame hother =>
        obtain ⟨hrole, hendpoint⟩ := not_or.mp hother
        refine .inr (.inr ⟨_, getElem?_insert_eq_some.mpr (.inl ⟨rfl, rfl⟩), ?_⟩)
        simp [PendingStream.opening, StreamOpenRequest.opening, hsame, not_not.mp hrole,
          not_not.mp hendpoint]
    · split
      · exact accounts_joinStream d request pending
      · split
        · exact accounts_bindUnoccupied _ request
        · exact accounts_answerOpen d request _
  · next active hactive =>
    split
    · exact accounts_answerOpen d request _
    · split
      · unfold beginStreamReplacement
        dsimp only
        split
        · exact accounts_answerOpen _ request _
        · exact .inr (.inl ⟨_, getElem?_insert_eq_some.mpr (.inl ⟨rfl, rfl⟩), request,
            mem_singleton.mpr rfl, rfl⟩)
      · exact accounts_answerOpen d request _

/-- An open is answered or is in the directory. -/
theorem accounts_openStream : (d.openStream request).Accounts request.opening := by
  unfold openStream
  split
  · next fence hfence =>
    unfold holdStreamOpenForFence
    split
    · exact accounts_answerOpen d request _
    · refine .inr (.inl ⟨_, getElem?_insert_eq_some.mpr (.inl ⟨rfl, rfl⟩), ?_⟩)
      exact ⟨request, mem_hold_self request fence.requests, rfl⟩
  · unfold admitStream
    split
    · exact accounts_answerOpen d request _
    · split
      · exact accounts_answerOpen d request _
      · split
        · exact accounts_answerOpen d request _
        · exact accounts_placeStream d request
    · split
      · exact accounts_answerOpen d request _
      · exact accounts_placeStream d request

end

end Opens

section Handle

theorem HeldOwn.erase {own : StreamOpenRequest → Prop} (h : HeldOwn own d) (path : DataPath) :
    HeldOwn own (d.liftedFence path) :=
  fun known fence hfence => h known fence (getElem?_erase_eq_some.mp hfence).2

/-- The held requests are at the paths of their fences, whatever the handlers do. -/
theorem stable_heldOwn : Stable (HeldOwn fun _ => True) where
  move hmove h := heldOwn_move (fun _ _ => trivial) hmove h
  lift path h := h.erase path
  confirm hconfirms h := by
    obtain rfl | ⟨_, _, _, -, -, rfl⟩ := hconfirms <;> exact h
  rebind _ hrebind h := by
    cases hrebind <;> exact h
  refuse _ _ _ h := h

/-- The opens that a fence held are made. -/
theorem accounts_foldl_openStream {requests : List StreamOpenRequest}
    (hheld : HeldOwn (fun _ => True) d)
    (h : d.Accounts opening ∨ ∃ request ∈ requests, request.opening = opening) :
    (requests.foldl openStream d).Accounts opening := by
  induction requests generalizing d with
  | nil =>
    rcases h with h | ⟨request, hmem, -⟩
    · exact h
    · cases hmem
  | cons request rest ih =>
    have hmoves : Moves ⟨.retryRetirements, fun _ => True, fun _ => False⟩ d
        (d.openStream request) := Deeds.moves (deeds_openStream trivial)
    refine ih (stable_heldOwn.moves hmoves hheld) ?_
    rcases h with h | ⟨known, hmem, hsame⟩
    · have hcancel (requestId : ℕ) (replyTo : Option ActorAddress) :
          DataDirectoryIn.retryRetirements ≠
            .cancelStream requestId opening.path opening.operationId replyTo := nofun
      exact .inl (h.moves hheld (fun _ => id) hcancel hmoves).1
    · rcases mem_cons.mp hmem with rfl | hmem
      · rw [← hsame]
        exact .inl (accounts_openStream d known)
      · exact .inr ⟨known, hmem, hsame⟩

theorem Accounts.liftFence (h : d.Accounts opening) (hheld : HeldOwn (fun _ => True) d)
    (path : DataPath) : (d.liftFence path).Accounts opening := by
  unfold DataDirectory.liftFence
  cases hfence : d.streamReplacementFences[path]? with
  | none => exact h
  | some fence =>
    refine accounts_foldl_openStream (hheld.erase path) ?_
    rcases h with hanswered | ⟨known, hknown, request, hmem, hsame⟩ | hpending
    · exact .inl (.inl hanswered)
    · by_cases hpath : path = opening.path
      · subst hpath
        obtain rfl : fence = known := by simpa [hfence] using hknown
        exact .inr ⟨request, hmem, hsame⟩
      · exact .inl (.inr (.inl ⟨known, getElem?_erase_eq_some.mpr ⟨hpath, hknown⟩, request,
          hmem, hsame⟩))
    · exact .inl (.inr (.inr hpending))

theorem Accounts.resume (h : d.Accounts opening) (hheld : HeldOwn (fun _ => True) d) :
    d.resumeStreamReplacementFences.Accounts opening := by
  unfold resumeStreamReplacementFences
  generalize d.readyPaths = paths
  induction paths generalizing d with
  | nil => exact h
  | cons path paths ih =>
    have hsettles : Settles .all d (d.liftFence path) := settles_liftFence (fun _ => trivial) path
    exact ih (h.liftFence hheld path) (stable_heldOwn.settles hsettles hheld)

/-- Every message other than its cancellation leaves the open answered or in the directory. -/
theorem Accounts.handle (h : d.Accounts opening) (hheld : HeldOwn (fun _ => True) d)
    (env : Surroundings) (m : DataDirectoryIn)
    (hcancel : ∀ requestId replyTo,
      m ≠ .cancelStream requestId opening.path opening.operationId replyTo) :
    (d.handle env m).Accounts opening := by
  have hhandled := handled_handle (d := d) env m (fun _ => True) fun _ _ => trivial
  generalize d.handle env m = d' at hhandled
  cases hhandled with
  | moved hmoves => exact (h.moves hheld (fun _ => id) hcancel hmoves).1
  | @resumed d₀ _ _ hconfirms hbefore hafter =>
    have hconfirmed : d₀.Accounts opening := by
      obtain rfl | ⟨_, _, _, -, -, rfl⟩ := hconfirms
      · exact h
      · exact h.frame rfl rfl fun _ => id
    obtain ⟨hmoved, hheld'⟩ := hconfirmed.moves (stable_heldOwn.confirm hconfirms hheld)
      (fun _ => id) hcancel hbefore
    exact ((hmoved.resume hheld').moves (stable_heldOwn.resume hheld') (fun _ => id) hcancel
      hafter).1
  | rebound fates hbefore hrebind hafter =>
    obtain ⟨hmoved, hheld'⟩ := h.moves hheld (fun _ => id) hcancel hbefore
    refine (Accounts.moves ?_ (stable_heldOwn.rebind fates hrebind hheld') (fun _ => id) hcancel
      hafter).1
    cases hrebind with
    | registered requestId registration replyTo retired hm hnew hreservation hexcused =>
      refine hmoved.change_stream rfl (fun _ => id) fun known hknown hsame => ?_
      by_cases hpath : registration.path = opening.path
      · rw [hpath] at hexcused
        rcases hexcused known hknown with hanswered | ⟨_, _, hcancelled⟩
        · rw [hsame] at hanswered
          exact .inl hanswered
        · rw [hm] at hcancelled
          cases hcancelled
      · exact .inr (.inr ⟨known, getElem?_erase_eq_some.mpr ⟨hpath, hknown⟩, hsame⟩)
    | unregistered | renamed => exact hmoved.frame rfl rfl fun _ => id
  | refused => exact h.frame rfl rfl (subset_append_left _ _)

end Handle

end DataDirectory

end Swactor.Namespace
