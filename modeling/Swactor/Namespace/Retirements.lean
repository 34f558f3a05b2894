import Swactor.Namespace.Sources

/-!
# Retired sources along a run

Every handler keeps the sources apart from those that are to retire. A restart takes the
retirements from the file, so what was displaced before the directory went down is still asked to
stop afterwards.
-/
namespace Swactor.Namespace

open DataDirectory NamespaceSnapshot RuntimeSource Machine List
open Std (ExtTreeMap ExtTreeSet)

variable {maker : ActorAddress → Option OperationId}
  {handled watched displaced : ActorAddress → Prop} {d : DataDirectory} {actor : ActorAddress}

theorem mem_retirements_retire {snapshot : NamespaceSnapshot} {retired : Option ActorAddress} :
    actor ∈ (snapshot.retire retired).retirements ↔
      actor ∈ snapshot.retirements ∨ retired = some actor := by
  cases retired with
  | none => simp [retire]
  | some source =>
    unfold retire
    split
    · next hmem => grind
    · grind

theorem retirements_moved (snapshot : NamespaceSnapshot) (source destination : DataPath)
    (revision : ℕ) :
    (snapshot.moved source destination revision).retirements = snapshot.retirements := by
  unfold moved
  split <;> rfl

theorem mem_operations_mutated (store : NamespaceStore) (operationId : OperationId)
    (request : MutationRequest) (edit : ℕ → NamespaceSnapshot → NamespaceSnapshot) :
    operationId ∈ (store.mutated operationId request edit).operations :=
  ExtTreeMap.mem_insert_self

theorem getElem?_moveSource (sources : ExtTreeMap DataPath RuntimeSource compare)
    (source destination path : DataPath) :
    (moveSource sources source destination)[path]? =
      if path = destination then sources[source]?
      else if path = source then none
      else sources[path]? := by
  unfold moveSource
  cases hsource : sources[source]? with
  | none =>
    simp only [Maps.getElem?_erase_ite]
    grind
  | some runtime =>
    simp only [Maps.getElem?_insert_ite, Maps.getElem?_erase_ite]
    grind

/-- A registration brings addresses of its operation. -/
def Brings (maker : ActorAddress → Option OperationId) (registration : BlobRegistration) : Prop :=
  maker registration.source = some registration.operationId ∧
    ∀ actor node owner, registration.recovery = .actor actor node owner →
      maker actor = some registration.operationId

section Mutations

variable {operationId : OperationId} {retired : Option ActorAddress}

/-- The source of one path goes. -/
theorem rehomes_cleared (path : DataPath) (request : MutationRequest)
    (edit : ℕ → NamespaceSnapshot → NamespaceSnapshot) (hnew : operationId ∉ d.snapshot.operations)
    (hoperations : ∀ revision snapshot, (edit revision snapshot).operations = snapshot.operations)
    (hbindings : ∀ revision snapshot,
      (edit revision snapshot).bindings = snapshot.bindings.erase path)
    (hretirements : ∀ revision snapshot actor, actor ∈ (edit revision snapshot).retirements ↔
      actor ∈ snapshot.retirements ∨ d.boundSource path = some actor) :
    Rehomes maker d (d.store.mutated operationId request edit)
      (fun known => (d.sources.erase path)[known]?.bind actor?) operationId
      (d.boundSource path) (fun known => if known = path then none else some known)
      fun _ _ => False := by
  have hbound (known : DataPath) :
      (d.sources.erase path)[known]?.bind actor? =
        if path = known then none else d.boundSource known := by
    rw [Maps.getElem?_erase_ite]
    split <;> rfl
  constructor
  · exact hnew
  · exact mem_operations_mutated d.store operationId request edit
  · exact extends_mutated hnew request hoperations
  · exact hretirements _ _
  · rintro actor known ⟨binding, node, owner, hbinding, hrecovery⟩
    have herased : (d.snapshot.bindings.erase path)[known]? = some binding := by
      rw [← hbindings d.snapshot.nextRevision]
      exact hbinding
    obtain ⟨hne, hold⟩ := Maps.getElem?_erase_eq_some.mp herased
    exact .inl ⟨known, if_neg (Ne.symm hne), binding, node, owner, hold, hrecovery⟩
  · intro actor known hsource
    rw [hbound] at hsource
    split at hsource
    · cases hsource
    · next hne => exact .inl ⟨known, if_neg (Ne.symm hne), hsource⟩
  · intro known other before horigin horigin'
    grind
  · exact fun hbrought => hbrought.elim
  · exact fun hbrought => hbrought.elim
  · exact fun {actor} hretired => ⟨path, hretired, by grind⟩
  · intro actor before hsource
    by_cases hsame : path = before
    · subst hsame
      exact .inr hsource
    · refine .inl ⟨before, ?_⟩
      rw [hbound, if_neg hsame]
      exact hsource

/-- A path gets a source that no other operation has brought. -/
theorem rehomes_registered {registration : BlobRegistration} (hretired : retired =
      (d.boundSource registration.path).filter fun actor => actor ≠ registration.source)
    (hnew : registration.operationId ∉ d.snapshot.operations)
    (hbrings : Brings maker registration) :
    Rehomes maker d (d.store.mutated registration.operationId registration.request
        (registration.edit retired))
      (fun known => (d.sources.insert registration.path (.available registration.source
        registration.sourceNode registration.recovery.owner))[known]?.bind actor?)
      registration.operationId retired
      (fun known => if known = registration.path then none else some known)
      fun actor known => known = registration.path ∧
        (actor = registration.source ∨
          ∃ node owner, registration.recovery = .actor actor node owner) := by
  have hbound (known : DataPath) :
      (d.sources.insert registration.path (.available registration.source
        registration.sourceNode registration.recovery.owner))[known]?.bind actor? =
        if registration.path = known then some registration.source else d.boundSource known := by
    rw [Maps.getElem?_insert_ite]
    split <;> rfl
  constructor
  · exact hnew
  · exact mem_operations_mutated _ _ _ _
  · exact extends_mutated hnew _ fun _ _ => operations_retire _ _
  · intro actor
    exact mem_retirements_retire
  · rintro actor known ⟨binding, node, owner, hbinding, hnamed⟩
    have hinserted : (d.snapshot.bindings.insert registration.path ⟨registration.length,
        d.snapshot.nextRevision, registration.recovery⟩)[known]? = some binding := by
      rw [← hbinding]
      simp only [NamespaceStore.mutated, record, BlobRegistration.edit,
        bindings_retire, blobBound]
    rcases Maps.getElem?_insert_eq_some.mp hinserted with ⟨rfl, rfl⟩ | ⟨hne, hold⟩
    · exact .inr ⟨rfl, .inr ⟨node, owner, hnamed⟩⟩
    · exact .inl ⟨known, if_neg (Ne.symm hne), binding, node, owner, hold, hnamed⟩
  · intro actor known hknown
    rw [hbound] at hknown
    split at hknown
    · next heq =>
      cases hknown
      exact .inr ⟨heq.symm, .inl rfl⟩
    · next hne => exact .inl ⟨known, if_neg (Ne.symm hne), hknown⟩
  · intro known other before horigin horigin'
    grind
  · rintro actor known ⟨-, rfl | ⟨node, owner, hnamed⟩⟩
    · exact hbrings.1
    · exact hbrings.2 actor node owner hnamed
  · rintro actor known other ⟨rfl, -⟩ ⟨rfl, -⟩
    rfl
  · intro actor hleft
    rw [hretired, Option.filter_eq_some_iff] at hleft
    exact ⟨registration.path, hleft.1, by grind⟩
  · intro actor before hold
    by_cases hsame : registration.path = before
    · subst hsame
      by_cases hkept : actor = registration.source
      · subst hkept
        exact .inl ⟨registration.path, by rw [hbound, if_pos rfl]⟩
      · exact .inr (by rw [hretired, Option.filter_eq_some_iff]; exact ⟨hold, by simpa using hkept⟩)
    · refine .inl ⟨before, ?_⟩
      rw [hbound, if_neg hsame]
      exact hold

/-- The source of a path moves to another one, whose source goes. -/
theorem rehomes_renamed (source destination : DataPath) (request : MutationRequest)
    (hretired : retired = if source = destination then none else d.boundSource destination)
    (hnew : operationId ∉ d.snapshot.operations) :
    Rehomes maker d (d.store.mutated operationId request fun revision snapshot =>
        (snapshot.moved source destination revision).retire retired)
      (fun known => (moveSource d.sources source destination)[known]?.bind
        actor?) operationId retired
      (fun known => if known = destination then some source
        else if known = source then none else some known)
      fun _ _ => False := by
  have hbound (known : DataPath) :
      (moveSource d.sources source destination)[known]?.bind actor? =
        if known = destination then d.boundSource source
        else if known = source then none else d.boundSource known := by
    rw [getElem?_moveSource]
    split_ifs <;> rfl
  constructor
  · exact hnew
  · exact mem_operations_mutated _ _ _ _
  · exact extends_mutated hnew _ fun _ _ => (operations_retire _ _).trans (operations_moved _ _ _ _)
  · intro actor
    rw [← retirements_moved d.snapshot source destination d.snapshot.nextRevision]
    exact mem_retirements_retire
  · rintro actor known ⟨binding, node, owner, hbinding, hnamed⟩
    have hmoved : (d.snapshot.moved source destination d.snapshot.nextRevision).bindings[known]? =
        some binding := by
      rw [← hbinding]
      simp only [NamespaceStore.mutated, record,
        bindings_retire]
    rw [getElem?_bindings_moved] at hmoved
    left
    split at hmoved
    · obtain ⟨old, hold, rfl⟩ := Option.map_eq_some_iff.mp hmoved
      exact ⟨source, by simp [*], old, node, owner, hold, hnamed⟩
    · split at hmoved
      · cases hmoved
      · exact ⟨known, by simp [*], binding, node, owner, hmoved, hnamed⟩
  · intro actor known hknown
    rw [hbound] at hknown
    left
    split at hknown
    · exact ⟨source, by simp [*], hknown⟩
    · split at hknown
      · cases hknown
      · exact ⟨known, by simp [*], hknown⟩
  · intro known other before horigin horigin'
    grind
  · exact fun hbrought => hbrought.elim
  · exact fun hbrought => hbrought.elim
  · intro actor hleft
    rw [hretired] at hleft
    split at hleft
    · cases hleft
    · exact ⟨destination, hleft, by grind⟩
  · intro actor before hold
    by_cases hmoves : before = source
    · subst hmoves
      exact .inl ⟨destination, by rw [hbound, if_pos rfl]; exact hold⟩
    · by_cases hgoes : before = destination
      · subst hgoes
        exact .inr (by rw [hretired, if_neg (Ne.symm hmoves)]; exact hold)
      · exact .inl ⟨before, by rw [hbound, if_neg hgoes, if_neg hmoves]; exact hold⟩

theorem mem_pendingRetirements_queueRetired :
    actor ∈ (d.queueRetired retired).pendingRetirements ↔
      actor ∈ d.pendingRetirements ∨ retired = some actor := by
  cases retired with
  | none => simp [queueRetired]
  | some source =>
    show actor ∈ d.pendingRetirements.insert source ↔ _
    rw [ExtTreeSet.mem_insert, Std.compare_eq_iff_eq, Option.some_inj, or_comm]

section

variable (h : Exact maker handled watched displaced d)

include h

theorem Exact.send (message : Sent) : Exact maker handled watched displaced (d.send message) :=
  h.calm (.of_store rfl rfl rfl rfl)

/-- A mutation with its outcomes: it is committed, then the source that it retires is queued, or
it fails. -/
theorem Exact.mutation {request : MutationRequest} {accepted : Prop} {next : NamespaceSnapshot}
    {done : DataDirectory} {outcome : DataDirectory × Except NamespaceError MutationReceipt}
    {after : DataDirectory → DataDirectory}
    (hm : Mutation d operationId request accepted next done outcome)
    (hpending : done.pendingRetirements = d.pendingRetirements)
    (hretired : operationId ∈ d.snapshot.operations → retired = none)
    (hrehomes : operationId ∉ d.snapshot.operations → ∃ origin brought, Rehomes maker d next
      (fun known => done.sources[known]?.bind actor?) operationId retired origin
      brought)
    (hafter : ∀ {d}, Exact maker handled watched displaced (d.queueRetired retired) →
      Exact maker handled watched displaced (after d)) :
    Exact maker handled watched displaced
      (if outcome.2.isOk then after outcome.1 else outcome.1) := by
  cases hm with
  | @replayed result hreplay =>
    cases result with
    | error error => exact h
    | ok receipt =>
      refine hafter ?_
      rw [hretired (mem_operations_of_replay hreplay)]
      exact h
  | rejected rejection fates hnew =>
    have hextends := extends_record hnew request (.rejected rejection)
    exact h.calm ⟨rfl, rfl, rfl, rfl, hextends, .inr ⟨rfl, rfl, hextends⟩⟩
  | failed fates reason => exact h.calm (.of_store rfl rfl rfl rfl)
  | tried fates reason hnew hfile =>
    rcases hfile with ⟨rejection, rfl⟩ | ⟨-, rfl⟩
    · have hextends := extends_record hnew request (.rejected rejection)
      exact h.calm ⟨rfl, rfl, rfl, rfl, fun _ _ => id, .inr ⟨rfl, rfl, hextends⟩⟩
    · obtain ⟨origin, brought, hr⟩ := hrehomes hnew
      exact h.tried (hr.neat h) (fun actor hmem => .inr ((hr.retirements actor).mpr (.inl hmem))) _
  | committed fates hnew =>
    obtain ⟨origin, brought, hr⟩ := hrehomes hnew
    refine hafter (hr.exact h (fun path => ?_) ⟨fates, ?_⟩ fun actor => ?_)
    · cases retired <;> rfl
    · cases retired <;> rfl
    · rw [mem_pendingRetirements_queueRetired, ← hpending]

theorem Exact.unregister (env : Surroundings) (requestId : ℕ) (path : DataPath)
    (operationId : OperationId) (replyTo : ActorAddress) :
    Exact maker handled watched displaced
      (d.handle env (.unregister requestId path operationId replyTo)) := by
  simp only [handle]
  split
  · exact h.send _
  · refine Exact.send (h.mutation (Mutation.unregister path operationId _) rfl
      (fun hmem => retiredBy_of_mem hmem path) (fun hnew => ?_) id) _
    have hretired : d.retiredBy operationId path = d.boundSource path := if_neg hnew
    rw [hretired]
    exact ⟨_, _, rehomes_cleared path (.unregister path)
      (fun _ snapshot => (snapshot.unbound path).retire (d.boundSource path)) hnew
      (fun _ _ => operations_retire _ _) (fun _ _ => bindings_retire _ _)
      fun _ _ _ => mem_retirements_retire⟩

theorem Exact.rename (env : Surroundings) (requestId : ℕ) (source destination : DataPath)
    (replace : Bool) (operationId : OperationId) (replyTo : ActorAddress) :
    Exact maker handled watched displaced
      (d.handle env (.rename requestId source destination replace operationId replyTo)) := by
  refine Exact.send (h.mutation (Mutation.rename source destination replace operationId) rfl
    (fun hmem => ?_) (fun hnew => ?_) id) _
  · rw [retiredBy_of_mem hmem, ite_self]
  · rw [retiredBy, if_neg hnew]
    exact ⟨_, _, rehomes_renamed source destination (.rename source destination replace) rfl hnew⟩

end

end Mutations

section Opens

section

variable (h : Exact maker handled watched displaced d) (request : StreamOpenRequest)

include h

theorem Exact.answerOpen (result : Except NamespaceError StreamMatch) :
    Exact maker handled watched displaced (d.answerOpen request result) :=
  h.calm (.of_store rfl rfl rfl rfl)

theorem Exact.bindUnoccupied (hnew : request.operationId ∉ d.snapshot.operations) :
    Exact maker handled watched displaced (d.bindUnoccupied request) := by
  unfold DataDirectory.bindUnoccupied
  split
  · exact h.answerOpen request _
  · have hbound := h.mutation
      (Mutation.bindStream request.path request.operationId (d.boundSource request.path)) rfl
      (fun hmem => absurd hmem hnew) (fun hnew => ⟨_, _, rehomes_cleared request.path
        (.bindStream request.path) (fun revision snapshot =>
          (snapshot.streamBound request.path revision).retire (d.boundSource request.path)) hnew
        (fun _ _ => operations_retire _ _) (fun _ _ => bindings_retire _ _)
        fun _ _ _ => mem_retirements_retire⟩) id
    dsimp only
    generalize d.bindStream request.path request.operationId (d.boundSource request.path) =
      outcome at hbound ⊢
    obtain ⟨d₁, error | receipt⟩ := outcome
    · exact Exact.answerOpen hbound request _
    · exact Exact.calm hbound (.of_store rfl rfl rfl rfl)

end

theorem Deeds.exact {scope : Scope} {d' : DataDirectory} (hdeeds : Deeds scope d d')
    (h : Exact maker handled watched displaced d) : Exact maker handled watched displaced d' := by
  induction hdeeds with
  | refl => exact h
  | tail _ hdeed ih =>
    cases hdeed with
    | move hmove hrests => exact ih.calm (hmove.calm hrests)
    | bind request _ _ _ hnew => exact ih.bindUnoccupied request hnew

theorem Exact.openStream (h : Exact maker handled watched displaced d)
    (request : StreamOpenRequest) :
    Exact maker handled watched displaced (d.openStream request) := by
  have hdeeds : Deeds .all d (d.openStream request) := deeds_openStream trivial
  exact hdeeds.exact h

section

variable (h : Exact maker handled watched displaced d)

include h

theorem Exact.register (env : Surroundings) (requestId : ℕ) (registration : BlobRegistration)
    (replyTo : ActorAddress) (hbrings : Brings maker registration) :
    Exact maker handled watched displaced
      (d.handle env (.register requestId registration replyTo)) := by
  have hdisplaced (known : DataDirectory) :
      Deeds .all known (known.displaceStream registration.path) :=
    deeds_displaceStream fun _ _ => trivial
  refine Exact.send (h.mutation (Mutation.register registration _) rfl (fun hmem => ?_)
    (fun hnew => ⟨_, _, rehomes_registered ?_ hnew hbrings⟩)
    fun hqueued => (hdisplaced _).exact hqueued) _
  · rw [retiredBy_of_mem hmem]
    rfl
  · rw [retiredBy, if_neg hnew]

theorem Exact.resume : Exact maker handled watched displaced d.resumeStreamReplacementFences := by
  refine foldlRecOn _ _ h fun d h path _ => ?_
  unfold liftFence
  cases d.streamReplacementFences[path]? with
  | none => exact h
  | some fence =>
    have hlifted : Exact maker handled watched displaced
        { d with streamReplacementFences := d.streamReplacementFences.erase path } :=
      h.calm (.of_store rfl rfl rfl rfl)
    exact foldlRecOn _ _ hlifted fun _ h request _ => h.openStream request

theorem Exact.retryRetirement (env : Surroundings) (target : ActorAddress) :
    Exact maker handled watched displaced (d.retryRetirement env target) := by
  unfold DataDirectory.retryRetirement
  have hretried : Deeds .all d (d.retryDisplacement target) := deeds_retryDisplacement target
  have hresumed := (hretried.exact h).resume
  dsimp only
  split
  · exact hresumed.send _
  · exact hresumed

theorem Exact.retryRetirements (env : Surroundings) :
    Exact maker handled watched displaced (d.retryRetirements env) := by
  have hretried : Deeds .all d ((d.displacementOrder env).foldl retryDisplacement d) :=
    deeds_foldl (fun _ => deeds_retryDisplacement) _
  exact Exact.resume (foldlRecOn _ _ (hretried.exact h) fun _ h source _ => h.send _)

/-- The source has stopped. -/
theorem Exact.confirmRetirement (source : ActorAddress)
    (hhandled : source ∈ d.pendingRetirements → handled source) :
    Exact maker handled watched displaced (d.confirmRetirement source) := by
  unfold DataDirectory.confirmRetirement
  split
  · exact h
  · next hpending =>
    replace hhandled := hhandled (not_not.mp hpending)
    set next : NamespaceSnapshot := { d.snapshot with
      retirements := d.snapshot.retirements.filter fun retired => retired ≠ source } with hnext
    have hmem (actor : ActorAddress) : actor ∈ next.retirements ↔
        actor ∈ d.snapshot.retirements ∧ actor ≠ source := by
      simp [hnext, mem_filter]
    have hneat : Neat maker next := by
      refine ⟨h.neat.apart, fun hnames hretired => ?_, h.neat.made, fun hmentioned => ?_⟩
      · exact h.neat.live hnames ((hmem _).mp hretired).1
      · exact h.neat.recorded (hmentioned.imp_left fun hretired => ((hmem _).mp hretired).1)
    have hkept (actor : ActorAddress) (hmemory : actor ∈ d.snapshot.retirements) :
        handled actor ∨ actor ∈ next.retirements := by
      by_cases hsame : actor = source
      · exact .inl (hsame ▸ hhandled)
      · exact .inr ((hmem actor).mpr ⟨hmemory, hsame⟩)
    obtain ⟨fates, hok | ⟨error, hfail | hfail⟩⟩ := d.store.commit_cases next
    · rw [hok]
      have hretires (actor : ActorAddress) (hold : d.Retires handled actor) :
          DataDirectory.Retires handled { d with
            store := ⟨next, next, fates⟩
            pendingRetirements := d.pendingRetirements.erase source } actor := by
        rcases hold with hhandled | ⟨hmemory, -⟩
        · exact .inl hhandled
        · exact (hkept actor hmemory).imp_right fun hnoted => ⟨hnoted, hnoted⟩
      refine ⟨fun actor => ?_, h.apart, fun huses hretired => ?_, h.made,
        fun hmentioned => ?_, hneat, fun actor hwatched => ?_, fun actor hdisplaced => ?_⟩
      · have hdiffers : compare source actor ≠ .eq ↔ actor ≠ source := by
          rw [ne_eq, Std.compare_eq_iff_eq, eq_comm]
        rw [hmem, h.same, ExtTreeSet.mem_erase, hdiffers, and_comm]
      · exact h.live huses ((hmem _).mp hretired).1
      · exact h.recorded (hmentioned.imp_left fun hretired => ((hmem _).mp hretired).1)
      · exact (h.watched actor hwatched).imp_right (hretires actor)
      · exact hretires actor (h.displaced actor hdisplaced)
    · rw [hfail]
      exact h.calm (.of_store rfl rfl rfl rfl)
    · rw [hfail]
      exact h.tried hneat hkept fates

end

end Opens

/-- Every handler keeps the sources apart from those that retire. -/
theorem Exact.handle (h : Exact maker handled watched displaced d) (env : Surroundings)
    (message : DataDirectoryIn)
    (hbrings : ∀ requestId registration replyTo,
      message = .register requestId registration replyTo → Brings maker registration)
    (hhandled : ∀ source, message = .sourceRetired source → source ∈ d.pendingRetirements →
      handled source) :
    Exact maker handled watched displaced (d.handle env message) := by
  cases message with
  | register requestId registration replyTo =>
    exact h.register env requestId registration replyTo (hbrings requestId registration replyTo rfl)
  | unregister requestId path operationId replyTo =>
    exact h.unregister env requestId path operationId replyTo
  | rename requestId source destination replace operationId replyTo =>
    exact h.rename env requestId source destination replace operationId replyTo
  | openStream request => exact h.openStream request
  | sourceRetired source => exact h.confirmRetirement source (hhandled source rfl)
  | streamDisplaced endpoint incarnation =>
    simp only [DataDirectory.handle, DataDirectory.confirmStreamDisplacement]
    split
    · exact h
    · split
      · exact h
      · next pending _ _ =>
        have hconfirmed : Exact maker handled watched displaced
            { d with
              pendingStreamDisplacements := d.pendingStreamDisplacements.insert endpoint
                { pending with acknowledged := true } } := h.calm (.of_store rfl rfl rfl rfl)
        exact hconfirmed.retryRetirement env endpoint
  | retryRetirements => exact h.retryRetirements env
  | retirementRouteChanged target => exact h.retryRetirement env target
  | _ => exact Deeds.exact (deeds_handle env (fun _ => True) trivial) h

/-- What a restart finds: an actor that sources are recovered from is there again, and a source
that is read from a file is a new actor. -/
structure Recovers (maker : ActorAddress → Option OperationId) (env : Surroundings)
    (file : NamespaceSnapshot) : Prop where
  found : ∀ {path : DataPath} {binding : PersistedBinding} {actor known node node' owner},
    file.bindings[path]? = some binding → binding.recovery = .actor known node owner →
      env.recoverSource path binding.recovery binding.length = .ok (actor, node') → actor = known
  spawned : ∀ {path : DataPath} {binding : PersistedBinding} {actor name node},
    file.bindings[path]? = some binding → binding.recovery = .file name →
      env.recoverSource path binding.recovery binding.length = .ok (actor, node) →
        maker actor = none ∧ actor ∉ file.retirements
  distinct : ∀ {path path' : DataPath} {binding binding' : PersistedBinding}
      {actor name name' node node'},
    file.bindings[path]? = some binding → binding.recovery = .file name →
      env.recoverSource path binding.recovery binding.length = .ok (actor, node) →
    file.bindings[path']? = some binding' → binding'.recovery = .file name' →
      env.recoverSource path' binding'.recovery binding'.length = .ok (actor, node') →
        path = path'

/-- The source of a path after a restart. -/
theorem recovered_of_boundSource {env : Surroundings} {store : NamespaceStore}
    {file : NamespaceSnapshot} {path : DataPath}
    (h : (rebuild env store file).boundSource path = some actor) :
    ∃ binding node, file.bindings[path]? = some binding ∧
      env.recoverSource path binding.recovery binding.length = .ok (actor, node) := by
  have hsources : (file.bindings.map fun path binding =>
      recoverSource env path binding)[path]?.bind actor? =
        some actor := h
  rw [ExtTreeMap.getElem?_map] at hsources
  cases hbinding : file.bindings[path]? with
  | none => simp [hbinding] at hsources
  | some binding =>
    have hactor : (recoverSource env path binding).actor? = some actor := by
      simpa [hbinding] using hsources
    unfold recoverSource at hactor
    split at hactor
    · next found node hfound =>
      cases hactor
      exact ⟨binding, node, rfl, hfound⟩
    · cases hactor

/-- The file of a directory that is down, with the sources that were displaced before. -/
structure Filed (maker : ActorAddress → Option OperationId)
    (handled displaced : ActorAddress → Prop) (file : NamespaceSnapshot) : Prop where
  neat : Neat maker file
  displaced : ∀ actor, displaced actor → handled actor ∨ actor ∈ file.retirements

theorem Exact.filed (h : Exact maker handled watched displaced d) :
    Filed maker handled displaced d.store.file :=
  ⟨h.file, fun actor hdisplaced => (h.displaced actor hdisplaced).imp_right And.right⟩

theorem Filed.rebuild {file : NamespaceSnapshot} (h : Filed maker handled displaced file)
    (env : Surroundings) (hrecovers : Recovers maker env file) (epoch : ℕ)
    (fates : List CommitFate) :
    Exact maker handled (fun _ => False) displaced (restarted env file epoch fates) := by
  set d := restarted env file epoch fates with hd
  have hneat : Neat maker { file with authorityEpoch := epoch } :=
    h.neat.congr rfl rfl fun _ _ => id
  have huses {actor : ActorAddress} {path : DataPath} (hu : d.Uses actor path) :
      file.Names actor path ∨ ∃ binding name node, file.bindings[path]? = some binding ∧
        binding.recovery = .file name ∧
        env.recoverSource path binding.recovery binding.length = .ok (actor, node) := by
    rcases hu with hsource | hnames
    · obtain ⟨binding, node, hbinding, hfound⟩ := recovered_of_boundSource hsource
      cases hrecovery : binding.recovery with
      | file name => exact .inr ⟨binding, name, node, hbinding, hrecovery, hfound⟩
      | actor known node' owner =>
        obtain rfl := hrecovers.found hbinding hrecovery hfound
        exact .inl ⟨binding, node', owner, hbinding, hrecovery⟩
    · exact .inl hnames
  constructor
  · intro actor
    show actor ∈ file.retirements ↔ actor ∈ ExtTreeSet.ofList file.retirements compare
    rw [ExtTreeSet.mem_ofList, contains_iff_mem]
  · intro actor path path' hu hu'
    rcases huses hu with hnames | ⟨binding, name, node, hbinding, hrecovery, hfound⟩ <;>
    rcases huses hu' with hnames' | ⟨binding', name', node', hbinding', hrecovery', hfound'⟩
    · exact h.neat.apart hnames hnames'
    · have hnone := (hrecovers.spawned hbinding' hrecovery' hfound').1
      have hsome := h.neat.made hnames
      simp [hnone] at hsome
    · have hnone := (hrecovers.spawned hbinding hrecovery hfound).1
      have hsome := h.neat.made hnames'
      simp [hnone] at hsome
    · exact hrecovers.distinct hbinding hrecovery hfound hbinding' hrecovery' hfound'
  · intro actor path hu
    rcases huses hu with hnames | ⟨binding, name, node, hbinding, hrecovery, hfound⟩
    · exact h.neat.live hnames
    · exact (hrecovers.spawned hbinding hrecovery hfound).2
  · exact hneat.made
  · rintro actor operationId (hretired | ⟨path, hu⟩) hmaker
    · exact h.neat.recorded (.inl hretired) hmaker
    · rcases huses hu with hnames | ⟨binding, name, node, hbinding, hrecovery, hfound⟩
      · exact h.neat.recorded (.inr ⟨path, hnames⟩) hmaker
      · rw [(hrecovers.spawned hbinding hrecovery hfound).1] at hmaker
        cases hmaker
  · exact hneat
  · exact fun _ => False.elim
  · exact fun actor hdisplaced => (h.displaced actor hdisplaced).imp_right fun hmem => ⟨hmem, hmem⟩

namespace Authority

/-- The actor is the source of a path. -/
def Binds : Authority → ActorAddress → Prop
  | .down _, _ => False
  | .up d, actor => ∃ path, d.boundSource path = some actor

/-- A message is handled that leaves the source of a path without one. -/
def Displaces (actor : ActorAddress) (s : Authority) (a : AuthorityAction) : Prop :=
  (∃ message env, a = .deliver message env) ∧ s.Binds actor ∧ ¬(s.step a).Binds actor

/-- `SourceRetired` of a source that is to retire is handled. -/
def Retires (actor : ActorAddress) (s : Authority) (a : AuthorityAction) : Prop :=
  ∃ d env, s = .up d ∧ actor ∈ d.pendingRetirements ∧ a = .deliver (.sourceRetired actor) env

/-- Every registration brings addresses of its own, and a restart finds the actors that sources
are recovered from or spawns new ones. -/
def BringsOwn (maker : ActorAddress → Option OperationId) (s : Authority) :
    AuthorityAction → Prop
  | .deliver (.register _ registration _) _ => Brings maker registration
  | .restart env => Recovers maker env s.file
  | _ => True

variable {s : Authority} {actions : List AuthorityAction}

theorem filed_of_holds
    (hs : s.Holds (Exact maker handled watched displaced) (Filed maker handled displaced)) :
    Filed maker handled displaced s.file := by
  cases s with
  | down file => exact hs
  | up d => exact Exact.filed hs

/-- One action. The sources that are bound before it are bound or retire afterwards. -/
theorem exact_step (hs : s.Holds (Exact maker handled (fun _ => False) displaced)
      (Filed maker handled displaced)) (a : AuthorityAction) (hbrings : s.BringsOwn maker a) :
    (s.step a).Holds
      (Exact maker (fun actor => handled actor ∨ Retires actor s a)
        (fun actor => (∃ message env, a = .deliver message env) ∧ s.Binds actor) displaced)
      (Filed maker (fun actor => handled actor ∨ Retires actor s a) displaced) := by
  have hfiled : Filed maker (fun actor => handled actor ∨ Retires actor s a) displaced s.file :=
    ⟨(filed_of_holds hs).neat, fun actor hdisplaced =>
      ((filed_of_holds hs).displaced actor hdisplaced).imp_left .inl⟩
  cases a with
  | deliver message env =>
    cases s with
    | down file => exact hfiled
    | up d =>
      have hreceived : Exact maker
          (fun actor => handled actor ∨ Retires actor (.up d) (.deliver message env))
          (fun actor => (∃ message' env', AuthorityAction.deliver message env =
            .deliver message' env') ∧ (Authority.up d).Binds actor) displaced
          (d.received env) := by
        have hcalm : Calm d (d.received env) := .of_store rfl rfl rfl rfl
        have hexact := Exact.calm hs hcalm
        exact { hexact with
          watched := fun actor hwatched => .inl hwatched.2
          displaced := fun actor hdisplaced => (hexact.displaced actor hdisplaced).imp_left .inl }
      refine hreceived.handle env message ?_ ?_
      · rintro requestId registration replyTo rfl
        exact hbrings
      · rintro source rfl hpending
        exact .inr ⟨d, env, rfl, hpending, rfl⟩
  | crash => exact hfiled
  | restart env =>
    refine holds_start hfiled (fun epoch => ?_) fun epoch fates => ?_
    · exact ⟨hfiled.neat.congr rfl rfl fun _ _ => id, hfiled.displaced⟩
    · refine { (hfiled.rebuild env hbrings epoch fates).retryRetirements env with watched := ?_ }
      rintro actor ⟨⟨message, env', hdeliver⟩, -⟩
      cases hdeliver

/-- What is watched or retires is of no concern any more. -/
theorem exact_forget {handled' : ActorAddress → Prop}
    (hs : s.Holds (Exact maker handled watched displaced) (Filed maker handled displaced))
    (hhandled : ∀ actor, displaced actor → handled actor → handled' actor) :
    s.Holds (Exact maker handled' (fun _ => False) displaced)
      (Filed maker handled' displaced) := by
  cases s with
  | down file =>
    exact ⟨hs.neat, fun actor hdisplaced =>
      (hs.displaced actor hdisplaced).imp_left (hhandled actor hdisplaced)⟩
  | up d =>
    have hexact : Exact maker handled watched displaced d := hs
    exact { hexact with
      watched := fun _ => False.elim
      displaced := fun actor hdisplaced =>
        (hexact.displaced actor hdisplaced).imp_left (hhandled actor hdisplaced) }

/-- A run, with the retirements that were handled in it. -/
theorem exact_foldl (hs : s.Holds (Exact maker (fun _ => False) (fun _ => False) displaced)
      (Filed maker (fun _ => False) displaced))
    (h : Guarded (BringsOwn maker) step s actions) :
    (actions.foldl step s).Holds
      (Exact maker (fun actor => Happened (Retires actor) step s actions)
        (fun _ => False) displaced)
      (Filed maker (fun actor => Happened (Retires actor) step s actions) displaced) := by
  induction actions using reverseRecOn with
  | nil => exact hs
  | append_singleton actions a ih =>
    obtain ⟨hbefore, hbrings, -⟩ := guarded_append.mp h
    rw [foldl_append]
    exact exact_forget (exact_step (ih hbefore) a hbrings) fun actor _ =>
      happened_concat.mpr

theorem exact_run (h : Guarded (BringsOwn maker) step initial actions) :
    (run actions).Holds (Exact maker (fun _ => False) (fun _ => False) fun _ => False)
      (Filed maker (fun _ => False) fun _ => False) := by
  have hinitial : Filed maker (fun _ => False) (fun _ => False) ({} : NamespaceSnapshot) := by
    have hnames (actor : ActorAddress) (path : DataPath) :
        ¬({} : NamespaceSnapshot).Names actor path := by
      rintro ⟨binding, node, owner, hbinding, -⟩
      simp at hbinding
    refine ⟨⟨fun hu => (hnames _ _ hu).elim, fun hu => (hnames _ _ hu).elim,
      fun hu => (hnames _ _ hu).elim, ?_⟩, fun _ => False.elim⟩
    rintro actor operationId (hmem | ⟨path, hu⟩)
    · simp at hmem
    · exact (hnames _ _ hu).elim
  exact exact_forget (exact_foldl (s := initial) hinitial h) fun _ => False.elim

/-- A source that was displaced retires until its `SourceRetired` is handled. -/
theorem exact_displaced {before after : List AuthorityAction} {a : AuthorityAction}
    (h : Guarded (BringsOwn maker) step initial (before ++ a :: after))
    (hdisplaces : Displaces actor (run before) a) :
    (run (before ++ a :: after)).Holds
      (Exact maker (fun actor => Happened (Retires actor) step
        ((run before).step a) after) (fun _ => False) (· = actor))
      (Filed maker (fun actor => Happened (Retires actor) step
        ((run before).step a) after) (· = actor)) := by
  obtain ⟨hbefore, hbrings, hafter⟩ := guarded_append.mp h
  have hrun := exact_run hbefore
  rw [run_append, foldl_cons]
  refine exact_foldl ?_ hafter
  obtain ⟨hdeliver, hbinds, hgone⟩ := hdisplaces
  change BringsOwn maker (run before) a at hbrings
  generalize run before = s at *
  have hstep := exact_step hrun a hbrings
  cases s with
  | down file => exact hbinds.elim
  | up d =>
    have hidle : ¬Retires actor (.up d) a := by
      rintro ⟨d', env, hd, hpending, -⟩
      cases hd
      obtain ⟨path, hpath⟩ := hbinds
      exact hrun.live (.inl hpath) ((hrun.same actor).mpr hpending)
    obtain ⟨message, env, rfl⟩ := hdeliver
    refine ⟨hstep.same, hstep.apart, hstep.live, hstep.made, hstep.recorded, hstep.file,
      fun _ => False.elim, ?_⟩
    rintro other rfl
    rcases hstep.watched other ⟨⟨message, env, rfl⟩, hbinds⟩ with hbound | hfalse | hnoted
    · exact (hgone hbound).elim
    · exact (hidle (hfalse.resolve_left id)).elim
    · exact .inr hnoted

/-- The retirements of the snapshot are the pending ones, no path resolves to one of them, and a
source that lost its path is one of them, in memory and in the file, until its `SourceRetired` is
handled. -/
theorem retirements_exact (maker : ActorAddress → Option OperationId)
    {actions : List AuthorityAction}
    (hbrings : Guarded (BringsOwn maker) step initial actions) {d : DataDirectory}
    (hup : run actions = .up d) :
    (∀ actor, actor ∈ d.snapshot.retirements ↔ actor ∈ d.pendingRetirements) ∧
      (∀ path binding, d.resolve path = .ok binding → binding.source ∉ d.pendingRetirements) ∧
      ∀ actor before a after, actions = before ++ a :: after →
        Displaces actor (run before) a →
          Happened (Retires actor) step ((run before).step a) after ∨
            actor ∈ d.pendingRetirements ∧ actor ∈ d.store.file.retirements := by
  have hexact := exact_run hbrings
  rw [hup] at hexact
  refine ⟨hexact.same, fun path binding hresolve hpending => ?_, ?_⟩
  · have hbound : d.boundSource path = some binding.source := by
      unfold resolve at hresolve
      split_ifs at hresolve
      split at hresolve
      · cases hresolve
      · split at hresolve
        · next hsource =>
          cases hresolve
          simp [boundSource, hsource, actor?]
        · cases hresolve
        · cases hresolve
    exact hexact.live (.inl hbound) ((hexact.same _).mpr hpending)
  · rintro actor before a after rfl hdisplaces
    have hdisplaced := exact_displaced hbrings hdisplaces
    rw [hup] at hdisplaced
    exact (hdisplaced.displaced actor rfl).imp_right fun ⟨hmemory, hfile⟩ =>
      ⟨(hexact.same actor).mp hmemory, hfile⟩

/-- The operation that brings an actor has its number in the sample runs. -/
def sampleMaker (actor : ActorAddress) : Option OperationId := some actor.val

/-- The actors of the file are found again. -/
def sampleFound (fates : List CommitFate) : Surroundings where
  fates := fates
  recoverSource _ recovery _ := match recovery with
    | .actor actor node _ => .ok (actor, node)
    | .file _ => .error ""

/-- A source comes to a path. -/
def sampleSource (path : DataPath) (source : ActorAddress) : AuthorityAction :=
  .deliver (.register 0 ⟨path, source, 0, 0, .actor source 0 none, source.val, none⟩ 0) {}

/-- A source is displaced by another one after a restart. -/
def sampleRetired : List AuthorityAction :=
  [.restart (sampleFound []), sampleSource 1 4, .crash, .restart (sampleFound []),
    sampleSource 1 5]

theorem recovers_sampleFound (fates : List CommitFate) (file : NamespaceSnapshot) :
    Recovers sampleMaker (sampleFound fates) file := by
  constructor
  · intro path binding actor known node node' owner _ hrecovery hfound
    rw [hrecovery] at hfound
    cases hfound
    rfl
  · intro path binding actor name node _ hrecovery hfound
    rw [hrecovery] at hfound
    cases hfound
  · intro path path' binding binding' actor name name' node node' _ hrecovery hfound
    rw [hrecovery] at hfound
    cases hfound

theorem brings_sampleSource (path : DataPath) (source : ActorAddress) (s : Authority) :
    s.BringsOwn sampleMaker (sampleSource path source) := by
  refine ⟨rfl, ?_⟩
  rintro actor node owner ⟨⟩
  rfl

/-- Only the path has a source. -/
def sourceOnly (s : Authority) (path : DataPath) (actor : ActorAddress) : Bool :=
  match s with
  | .down _ => false
  | .up d => d.sources.toList.map (fun entry => (entry.1, entry.2.actor?)) = [(path, some actor)]

theorem binds_iff_of_sourceOnly {path : DataPath} {actor other : ActorAddress}
    (h : s.sourceOnly path actor = true) : s.Binds other ↔ other = actor := by
  cases s with
  | down file => simp [sourceOnly] at h
  | up d =>
    have hlist : d.sources.toList.map (fun entry => (entry.1, entry.2.actor?)) =
        [(path, some actor)] := by simpa [sourceOnly] using h
    have hbound (known : DataPath) : d.boundSource known = some other ↔
        (known, some other) ∈ [(path, some actor)] := by
      rw [← hlist, boundSource, Option.bind_eq_some_iff, mem_map]
      constructor
      · rintro ⟨runtime, hruntime, hactor⟩
        exact ⟨(known, runtime), ExtTreeMap.mem_toList_iff_getElem?_eq_some.mpr hruntime,
          by rw [hactor]⟩
      · rintro ⟨⟨found, runtime⟩, hmem, heq⟩
        obtain ⟨rfl, hactor⟩ : found = known ∧ runtime.actor? = some other := by simpa using heq
        exact ⟨runtime, ExtTreeMap.mem_toList_iff_getElem?_eq_some.mp hmem, hactor⟩
    simp only [Binds, hbound]
    simp

theorem retirements_exact_restarted :
    ∃ d, run sampleRetired = .up d ∧ (4 : ActorAddress) ∈ d.pendingRetirements ∧
      4 ∈ d.store.file.retirements := by
  have hbrings : Guarded (BringsOwn sampleMaker) step initial sampleRetired :=
    ⟨recovers_sampleFound _ _, brings_sampleSource _ _ _, trivial, recovers_sampleFound _ _,
      brings_sampleSource _ _ _, trivial⟩
  have hbefore : (run (sampleRetired.take 4)).sourceOnly 1 4 = true := by decide +kernel
  have hafter : (run sampleRetired).sourceOnly 1 5 = true := by decide +kernel
  have hdisplaces : Displaces 4 (run (sampleRetired.take 4)) (sampleSource 1 5) := by
    refine ⟨⟨_, _, rfl⟩, (binds_iff_of_sourceOnly hbefore).mpr rfl, fun hbinds => ?_⟩
    have heq : (4 : ActorAddress) = 5 := (binds_iff_of_sourceOnly hafter).mp hbinds
    exact absurd heq (by decide)
  cases hrun : run sampleRetired with
  | down file => simp [hrun, sourceOnly] at hafter
  | up d =>
    refine ⟨d, rfl, ?_⟩
    exact ((retirements_exact sampleMaker hbrings hrun).2.2 4 (sampleRetired.take 4) _ [] rfl
      hdisplaces).resolve_left id

/-- The directory runs, the path resolves to the actor, which is to retire in the file alone. -/
def resolvesRetired (s : Authority) (path : DataPath) (actor : ActorAddress) : Bool :=
  match s with
  | .down _ => false
  | .up d => actor ∉ d.pendingRetirements && actor ∈ d.store.file.retirements &&
      (d.resolve path).toOption.any fun binding => binding.source = actor

/-- A source is taken from its path by a commit that fails after the file was replaced. -/
def sampleTorn : List AuthorityAction :=
  [.restart (sampleFound []), sampleSource 1 4,
    .deliver (.unregister 0 1 5 0) { fates := [.failsAfter] }]

theorem retirement_in_file_alone :
    Guarded (BringsOwn sampleMaker) step initial sampleTorn ∧
      (run sampleTorn).resolvesRetired 1 4 = true :=
  ⟨⟨recovers_sampleFound _ _, brings_sampleSource _ _ _, trivial, trivial⟩, by decide +kernel⟩

end Authority

end Swactor.Namespace
