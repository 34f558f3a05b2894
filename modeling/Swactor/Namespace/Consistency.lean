import Swactor.Namespace.Handlers

/-!
# The namespace stays consistent

A path is a blob, a stream or free, and every revision in use belongs to one path. The volatile
maps agree with the snapshot in memory: a source for each blob, stream entries on their nodes,
reservations on free paths, and no stream entry behind a fence. The file is consistent as well and
never behind the memory, so a restart finds what it needs.
-/
namespace Swactor.Namespace

open NamespaceSnapshot DataDirectory BlobRegistration
open Std (ExtTreeMap)

namespace NamespaceSnapshot

/-- The revision is the one of the path, as a blob or as a stream. -/
def Uses (snapshot : NamespaceSnapshot) (path : DataPath) (revision : ℕ) : Prop :=
  (∃ binding, snapshot.bindings[path]? = some binding ∧ binding.revision = revision) ∨
    snapshot.streamNodes[path]? = some revision

structure Consistent (snapshot : NamespaceSnapshot) : Prop where
  disjoint : ∀ path, path ∈ snapshot.bindings → path ∉ snapshot.streamNodes
  inRange : ∀ {path revision}, snapshot.Uses path revision →
    revision ≠ 0 ∧ revision < snapshot.nextRevision
  unique : ∀ {path path' revision}, snapshot.Uses path revision →
    snapshot.Uses path' revision → path = path'
  positive : 0 < snapshot.nextRevision

variable {snapshot next : NamespaceSnapshot}

theorem consistent_default : ({} : NamespaceSnapshot).Consistent where
  disjoint := by simp
  inRange := by simp [Uses]
  unique := by simp [Uses]
  positive := Nat.one_pos

/-- The paths and the next revision are the same. -/
structure SamePaths (snapshot next : NamespaceSnapshot) : Prop where
  bindings : next.bindings = snapshot.bindings
  streamNodes : next.streamNodes = snapshot.streamNodes
  nextRevision : next.nextRevision = snapshot.nextRevision

theorem Consistent.congr (h : snapshot.Consistent) (hsame : SamePaths snapshot next) :
    next.Consistent := by
  have huses : ∀ path revision, next.Uses path revision → snapshot.Uses path revision := by
    intro path revision h
    rwa [Uses, hsame.bindings, hsame.streamNodes] at h
  constructor
  · rw [hsame.bindings, hsame.streamNodes]
    exact h.disjoint
  · intro path revision huse
    rw [hsame.nextRevision]
    exact h.inRange (huses _ _ huse)
  · exact fun huse huse' => h.unique (huses _ _ huse) (huses _ _ huse')
  · rw [hsame.nextRevision]
    exact h.positive

/-- One path may take the next revision, the others keep theirs or lose them. -/
theorem Consistent.rebind (h : snapshot.Consistent) (path : DataPath)
    (hnext : next.nextRevision = snapshot.nextRevision + 1)
    (hdisjoint : ∀ path, path ∈ next.bindings → path ∉ next.streamNodes)
    (huses : ∀ known revision, next.Uses known revision →
      snapshot.Uses known revision ∨ known = path ∧ revision = snapshot.nextRevision) :
    next.Consistent where
  disjoint := hdisjoint
  inRange := by
    intro known revision huse
    have hpositive := h.positive
    rcases huses _ _ huse with huse | ⟨-, rfl⟩
    · have hrange := h.inRange huse
      omega
    · omega
  unique := by
    intro known known' revision huse huse'
    rcases huses _ _ huse with huse | ⟨rfl, rfl⟩
    · rcases huses _ _ huse' with huse' | ⟨rfl, rfl⟩
      · exact h.unique huse huse'
      · have hrange := (h.inRange huse).2
        omega
    · rcases huses _ _ huse' with huse' | ⟨rfl, -⟩
      · have hrange := (h.inRange huse').2
        omega
      · rfl
  positive := by omega

section

variable (snapshot : NamespaceSnapshot)

theorem samePaths_retire (retired : Option ActorAddress) :
    SamePaths snapshot (snapshot.retire retired) := by
  cases retired with
  | none => exact ⟨rfl, rfl, rfl⟩
  | some source =>
    unfold retire
    dsimp only
    split <;> exact ⟨rfl, rfl, rfl⟩

theorem samePaths_displaceAll (endpoints : List ActorAddress) (incarnation : StreamIncarnation) :
    SamePaths snapshot (snapshot.displaceAll endpoints incarnation) := by
  obtain ⟨entries, hentries⟩ := displaceAll_eq snapshot endpoints incarnation
  rw [hentries]
  exact ⟨rfl, rfl, rfl⟩

@[grind =]
theorem bindings_retire (retired : Option ActorAddress) :
    (snapshot.retire retired).bindings = snapshot.bindings :=
  (samePaths_retire snapshot retired).bindings

@[grind =]
theorem streamNodes_retire (retired : Option ActorAddress) :
    (snapshot.retire retired).streamNodes = snapshot.streamNodes :=
  (samePaths_retire snapshot retired).streamNodes

end

end NamespaceSnapshot

section Mutations

variable {store : NamespaceStore} {operationId : OperationId} {request : MutationRequest}
  (retired : Option ActorAddress)

open NamespaceSnapshot

variable (edit : ℕ → NamespaceSnapshot → NamespaceSnapshot)

@[grind =]
theorem bindings_mutated :
    (store.mutated operationId request edit).bindings =
      (edit store.snapshot.nextRevision store.snapshot).bindings := rfl

@[grind =]
theorem streamNodes_mutated :
    (store.mutated operationId request edit).streamNodes =
      (edit store.snapshot.nextRevision store.snapshot).streamNodes := rfl

section

variable (h : store.snapshot.Consistent)
include h

theorem consistent_streamBound (path : DataPath) :
    (store.mutated operationId request fun revision snapshot =>
      (snapshot.streamBound path revision).retire retired).Consistent := by
  refine h.rebind path rfl ?_ ?_
  · intro known
    have hdisjoint := h.disjoint known
    grind [streamBound]
  · intro known revision
    unfold Uses
    grind [streamBound]

theorem consistent_blobBound (registration : BlobRegistration) :
    (store.mutated operationId request (registration.edit retired)).Consistent := by
  refine h.rebind registration.path rfl ?_ ?_
  · intro known
    have hdisjoint := h.disjoint known
    grind [edit, blobBound]
  · intro known revision
    unfold Uses
    grind [edit, blobBound]

theorem consistent_unbound (path : DataPath) :
    (store.mutated operationId request fun _ snapshot =>
      (snapshot.unbound path).retire retired).Consistent := by
  refine h.rebind path rfl ?_ ?_
  · intro known
    have hdisjoint := h.disjoint known
    grind [unbound]
  · intro known revision
    unfold Uses
    grind [unbound]

end

/-- What is at the paths after a rename. -/
theorem getElem?_bindings_moved (snapshot : NamespaceSnapshot) (source destination : DataPath)
    (revision : ℕ) (path : DataPath) :
    (snapshot.moved source destination revision).bindings[path]? =
      if path = destination then
        snapshot.bindings[source]?.map fun binding => { binding with revision := revision }
      else if path = source then none
      else snapshot.bindings[path]? := by
  unfold moved
  cases hbinding : snapshot.bindings[source]? with
  | none =>
    simp only [Maps.getElem?_erase_ite]
    grind
  | some binding =>
    simp only [Maps.getElem?_insert_ite, Maps.getElem?_erase_ite]
    grind

theorem getElem?_streamNodes_moved {snapshot : NamespaceSnapshot} (h : snapshot.Consistent)
    (source destination : DataPath) (revision : ℕ) (path : DataPath) :
    (snapshot.moved source destination revision).streamNodes[path]? =
      if path = destination then snapshot.streamNodes[source]?.map fun _ => revision
      else if path = source then none
      else snapshot.streamNodes[path]? := by
  have hdisjoint := h.disjoint source
  unfold moved
  cases hbinding : snapshot.bindings[source]? with
  | none =>
    dsimp only
    split
    · simp only [Maps.getElem?_insert_ite, Maps.getElem?_erase_ite]
      grind
    · simp only [Maps.getElem?_erase_ite]
      grind
  | some binding =>
    grind

theorem consistent_moved (h : store.snapshot.Consistent) (source destination : DataPath) :
    (store.mutated operationId request fun revision snapshot =>
      (snapshot.moved source destination revision).retire retired).Consistent := by
  have hbindings := getElem?_bindings_moved store.snapshot source destination
    store.snapshot.nextRevision
  have hnodes := getElem?_streamNodes_moved h source destination store.snapshot.nextRevision
  refine h.rebind destination rfl ?_ ?_
  · intro known
    have hdisjoint := h.disjoint known
    have hsource := h.disjoint source
    grind [ExtTreeMap.mem_iff_isSome_getElem?]
  · intro known revision
    unfold Uses
    grind

end Mutations

section Commits

variable {d d' : DataDirectory} {next : NamespaceSnapshot} {scope : Scope}

/-- Commits keep the paths and the next revision, or one path takes the next revision. -/
theorem Update.consistent (h : Update scope d next d') (hd : d.snapshot.Consistent) :
    next.Consistent := by
  cases h with
  | recorded | retired | settled | joined => exact hd.congr ⟨rfl, rfl, rfl⟩
  | displaced | fenced => exact hd.congr (samePaths_displaceAll _ _ _)
  | bound request retired => exact consistent_streamBound retired hd request.path

theorem Update.nextRevision_le (h : Update scope d next d') :
    d.snapshot.nextRevision ≤ next.nextRevision := by
  cases h with
  | recorded | retired | settled | joined => exact le_rfl
  | displaced | fenced => exact (samePaths_displaceAll _ _ _).nextRevision.ge
  | bound => exact Nat.le_succ _

variable {message : DataDirectoryIn}

theorem Rebind.consistent (h : Rebind message d next d') (hd : d.snapshot.Consistent) :
    next.Consistent := by
  cases h with
  | registered requestId registration replyTo retired =>
    exact consistent_blobBound retired hd registration
  | unregistered requestId path operationId replyTo retired =>
    exact consistent_unbound retired hd path
  | renamed requestId source destination replace operationId replyTo retired =>
    exact consistent_moved retired hd source destination

theorem Rebind.nextRevision_le (h : Rebind message d next d') :
    d.snapshot.nextRevision ≤ next.nextRevision := by
  cases h <;> exact Nat.le_succ _

/-- The next revision never decreases in memory. -/
theorem stable_nextRevision (revision : ℕ) :
    Stable fun d => revision ≤ d.snapshot.nextRevision where
  move hmove h := by
    cases hmove with
    | committed fates hupdate => exact h.trans hupdate.nextRevision_le
    | _ => exact h
  lift _ h := h
  confirm hconfirms h := by
    obtain rfl | ⟨_, _, _, -, -, rfl⟩ := hconfirms <;> exact h
  rebind _ hrebind h := h.trans hrebind.nextRevision_le
  refuse _ _ _ h := h

end Commits

/-- The revision of the node that the entry belongs to. -/
def RuntimeStream.revision : RuntimeStream → ℕ
  | .pending stream => stream.revision
  | .active stream => stream.binding.revision

structure DataDirectory.Consistent (d : DataDirectory) : Prop where
  memory : d.snapshot.Consistent
  file : d.store.file.Consistent
  ahead : d.snapshot.nextRevision ≤ d.store.file.nextRevision
  sources : ∀ path, path ∈ d.sources ↔ path ∈ d.snapshot.bindings
  streams : ∀ (path : DataPath) (entry : RuntimeStream), d.streams[path]? = some entry →
    d.snapshot.streamNodes[path]? = some entry.revision
  reserved : ∀ path, path ∈ d.blobReservations →
    path ∉ d.snapshot.bindings ∧ path ∉ d.snapshot.streamNodes
  fenced : ∀ path, path ∈ d.streamReplacementFences → path ∉ d.streams

namespace DataDirectory

variable {d d' : DataDirectory} {next : NamespaceSnapshot} {scope : Scope}

/-- A commit that keeps the paths keeps what the volatile maps say about them. -/
theorem Consistent.commit (h : d.Consistent) (hsame : d.snapshot.SamePaths d'.snapshot)
    (hfile : d'.store.file = d'.snapshot) (hsources : d'.sources = d.sources)
    (hstreams : d'.streams = d.streams)
    (hreservations : d'.blobReservations = d.blobReservations)
    (hfences : d'.streamReplacementFences = d.streamReplacementFences) : d'.Consistent := by
  have hmemory := h.memory.congr hsame
  constructor
  · exact hmemory
  · rw [hfile]
    exact hmemory
  · rw [hfile]
  · rw [hsources, hsame.bindings]
    exact h.sources
  · rw [hstreams, hsame.streamNodes]
    exact h.streams
  · rw [hreservations, hsame.bindings, hsame.streamNodes]
    exact h.reserved
  · rw [hfences, hstreams]
    exact h.fenced

variable {path : DataPath}

/-- An entry may be replaced by one of the same revision. -/
theorem Consistent.insert_stream (h : d.Consistent) {old entry : RuntimeStream}
    (hold : d.streams[path]? = some old) (hrevision : entry.revision = old.revision) :
    Consistent { d with streams := d.streams.insert path entry } where
  __ := h
  streams known other hother := by
    rcases Maps.getElem?_insert_eq_some.mp hother with ⟨rfl, rfl⟩ | ⟨-, hother⟩
    · rw [hrevision]
      exact h.streams _ _ hold
    · exact h.streams known other hother
  fenced known hknown := by
    have hvacant := h.fenced known hknown
    have hpath : path ∈ d.streams := by
      rw [ExtTreeMap.mem_iff_isSome_getElem?, hold]
      rfl
    grind

theorem Consistent.erase_stream (h : d.Consistent) (path : DataPath) :
    Consistent { d with streams := d.streams.erase path } where
  __ := h
  streams known other hother := h.streams known other (Maps.getElem?_erase_eq_some.mp hother).2
  fenced known hknown := by
    have hvacant := h.fenced known hknown
    grind

/-- A fence may be put on a path without an entry. -/
theorem Consistent.insert_fence (h : d.Consistent) (hvacant : path ∉ d.streams)
    (fence : StreamReplacementFence) :
    Consistent { d with
      streamReplacementFences := d.streamReplacementFences.insert path fence } where
  __ := h
  fenced known hknown := by
    have hold := h.fenced known
    grind

theorem Consistent.vacant_of_fence (h : d.Consistent) {fence : StreamReplacementFence}
    (hfence : d.streamReplacementFences[path]? = some fence) : path ∉ d.streams := by
  refine h.fenced path ?_
  rw [ExtTreeMap.mem_iff_isSome_getElem?, hfence]
  rfl

theorem revision_matched (request : StreamOpenRequest) (pending : PendingStream) :
    (d.matched request pending).binding.revision = pending.revision := by
  unfold matched
  cases request.role <;> rfl

/-- A stream is bound to a path that is neither reserved nor behind a fence. -/
theorem Consistent.bound (h : d.Consistent) (request : StreamOpenRequest)
    (retired : Option ActorAddress)
    (hfence : d.streamReplacementFences[request.path]? = none)
    (hfree : request.path ∉ d.blobReservations) (fates : List CommitFate) :
    let next := d.store.mutated request.operationId (.bindStream request.path)
      fun revision snapshot => (snapshot.streamBound request.path revision).retire retired
    Consistent { d with
      store := ⟨next, next, fates⟩
      sources := d.sources.erase request.path
      streams := d.streams.insert request.path
        (.pending (request.waiting d.snapshot.nextRevision)) } := by
  intro next
  have hconsistent : next.Consistent := consistent_streamBound retired h.memory request.path
  refine ⟨hconsistent, hconsistent, le_rfl, fun path => ?_, fun path entry hentry => ?_,
    fun path hpath => ?_, fun path hpath => ?_⟩
  · have hsource := h.sources path
    grind [streamBound]
  · have hnode := h.streams path
    grind [streamBound, RuntimeStream.revision, StreamOpenRequest.waiting]
  · have hunbound := h.reserved path hpath
    grind [streamBound]
  · have hold := h.fenced path hpath
    grind

theorem Consistent.updated (h : d.Consistent) (hupdate : Update scope d next d')
    (fates : List CommitFate) : Consistent { d' with store := ⟨next, next, fates⟩ } := by
  cases hupdate with
  | recorded | retired | settled => exact h.commit ⟨rfl, rfl, rfl⟩ rfl rfl rfl rfl rfl
  | displaced active endpoint =>
    exact h.commit (samePaths_displaceAll d.snapshot [endpoint]
      active.binding.incarnation) rfl rfl rfl rfl rfl
  | fenced request active hown hactive hfence =>
    have hfenced := (h.erase_stream request.path).insert_fence
      (by simp : request.path ∉ d.streams.erase request.path)
      ⟨active.binding.incarnation, active.endpoints, some active, [request]⟩
    exact hfenced.commit (samePaths_displaceAll d.snapshot active.endpoints
      active.binding.incarnation) rfl rfl rfl rfl rfl
  | joined request pending hown hpending hfence hnew =>
    have hinsert : Consistent { d with
        streams := d.streams.insert request.path (.active (d.matched request pending)) } :=
      h.insert_stream hpending (revision_matched request pending)
    exact hinsert.commit ⟨rfl, rfl, rfl⟩ rfl rfl rfl rfl rfl
  | bound request retired hown hvacant hfence hnew hfree =>
    exact h.bound request retired hfence hfree fates

/-- A failing commit can leave the next snapshot in the file. -/
theorem Consistent.tried (h : d.Consistent) (hnext : next.Consistent)
    (hahead : d.snapshot.nextRevision ≤ next.nextRevision) (fates : List CommitFate) :
    Consistent { d with store := ⟨next, d.snapshot, fates⟩ } :=
  { h with file := hnext, ahead := hahead }

theorem Consistent.moved (hmove : Move scope d d') (h : d.Consistent) : d'.Consistent := by
  cases hmove with
  | failed fates | said | opened | retiring => exact { h with }
  | tried fates hupdate =>
    exact h.tried (hupdate.consistent h.memory) hupdate.nextRevision_le fates
  | committed fates hupdate => exact h.updated hupdate fates
  | renewed path pending requestId replyTo hpending => exact h.insert_stream hpending rfl
  | dropped path => exact h.erase_stream path
  | held request fence hown hfence => exact h.insert_fence (h.vacant_of_fence hfence) _
  | withdrawn path operationId fence hm hfence =>
    exact h.insert_fence (h.vacant_of_fence hfence) _
  | reserved path operationId hbinding hnode | unreserved path =>
    refine { h with reserved := fun known hknown => ?_ }
    have hold := h.reserved known
    grind

/-- A registration takes the path off the streams and off the reservations. -/
theorem Consistent.registered (h : d.Consistent) (registration : BlobRegistration)
    (retired : Option ActorAddress)
    (hreservation : d.blobReservations[registration.path]? = registration.reservation)
    (fates : List CommitFate) :
    let next := d.store.mutated registration.operationId registration.request
      (registration.edit retired)
    Consistent { d.registered registration with store := ⟨next, next, fates⟩ } := by
  intro next
  have hconsistent : next.Consistent := consistent_blobBound retired h.memory registration
  refine ⟨hconsistent, hconsistent, le_rfl, fun path => ?_, fun path entry hentry => ?_,
    fun path hpath => ?_, fun path hpath => ?_⟩
  · have hsource := h.sources path
    grind [registered, edit, blobBound]
  · have hnode := h.streams path
    grind [registered, edit, blobBound]
  · have hunbound := h.reserved path
    grind [registered, edit, blobBound]
  · have hold := h.fenced path hpath
    show path ∉ d.streams.erase registration.path
    grind

theorem Consistent.unregistered (h : d.Consistent) (path : DataPath) (operationId : OperationId)
    (retired : Option ActorAddress) (hvacant : d.streams[path]? = none)
    (fates : List CommitFate) :
    let next := d.store.mutated operationId (.unregister path)
      fun _ snapshot => (snapshot.unbound path).retire retired
    Consistent { d with store := ⟨next, next, fates⟩, sources := d.sources.erase path } := by
  intro next
  have hconsistent : next.Consistent := consistent_unbound retired h.memory path
  refine ⟨hconsistent, hconsistent, le_rfl, fun known => ?_, fun known entry hentry => ?_,
    fun known hknown => ?_, h.fenced⟩
  · have hsource := h.sources known
    grind [unbound]
  · have hnode := h.streams known
    grind [unbound]
  · have hunbound := h.reserved known hknown
    grind [unbound]

theorem mem_moveSource (sources : ExtTreeMap DataPath RuntimeSource compare)
    (source destination path : DataPath) :
    path ∈ moveSource sources source destination ↔
      path = destination ∧ source ∈ sources ∨
        path ≠ destination ∧ path ≠ source ∧ path ∈ sources := by
  unfold moveSource
  cases hsource : sources[source]? with
  | none => grind
  | some runtime => grind

/-- A rename is accepted when both paths are neither reserved nor in use by a stream. -/
theorem free_of_accepted {source destination : DataPath} {replace : Bool}
    (h : d.renameRejection source destination replace = none) :
    source ∉ d.blobReservations ∧ destination ∉ d.blobReservations ∧
      source ∉ d.streams ∧ destination ∉ d.streams := by
  unfold renameRejection at h
  split_ifs at h
  exact ⟨by assumption, by assumption, by assumption, by assumption⟩

theorem Consistent.renamed (h : d.Consistent) (source destination : DataPath) (replace : Bool)
    (operationId : OperationId) (retired : Option ActorAddress)
    (haccepted : d.renameRejection source destination replace = none)
    (fates : List CommitFate) :
    let next := d.store.mutated operationId (.rename source destination replace)
      fun revision snapshot => (snapshot.moved source destination revision).retire retired
    Consistent { d with
      store := ⟨next, next, fates⟩
      sources := moveSource d.sources source destination } := by
  intro next
  obtain ⟨hsourceFree, hdestinationFree, hsourceVacant, hdestinationVacant⟩ :=
    free_of_accepted haccepted
  have hbindings := getElem?_bindings_moved d.snapshot source destination
    d.snapshot.nextRevision
  have hnodes := getElem?_streamNodes_moved h.memory source destination
    d.snapshot.nextRevision
  have hconsistent : next.Consistent := consistent_moved retired h.memory source destination
  refine ⟨hconsistent, hconsistent, le_rfl, fun path => ?_, fun path entry hentry => ?_,
    fun path hpath => ?_, h.fenced⟩
  · have hsource := h.sources path
    have hmoved := h.sources source
    grind [mem_moveSource, ExtTreeMap.mem_iff_isSome_getElem?]
  · have hnode := h.streams path entry hentry
    grind
  · have hunbound := h.reserved path hpath
    grind [ExtTreeMap.mem_iff_isSome_getElem?]

/-- Every handler keeps the directory consistent. -/
theorem stable_consistent : Stable Consistent where
  move hmove h := h.moved hmove
  lift path h := by
    refine { h with fenced := fun known hknown => h.fenced known ?_ }
    simp only [liftedFence] at hknown
    grind
  confirm hconfirms h := by
    obtain rfl | ⟨_, _, _, -, -, rfl⟩ := hconfirms
    · exact h
    · exact { h with }
  rebind fates hrebind h := by
    cases hrebind with
    | registered requestId registration replyTo retired hm hnew hreservation =>
      exact h.registered registration retired hreservation fates
    | unregistered requestId path operationId replyTo retired hm hnew hvacant =>
      exact h.unregistered path operationId retired hvacant fates
    | renamed requestId source destination replace operationId replyTo retired hm hnew
        haccepted =>
      exact h.renamed source destination replace operationId retired haccepted fates
  refuse fates hrebind hstore h := by
    have hmemory := h.memory
    have hahead := hrebind.nextRevision_le
    rw [snapshot, ← hstore] at hmemory
    rw [snapshot, hstore] at hahead
    exact h.tried (hrebind.consistent hmemory) hahead fates

theorem consistent_rebuild {file : NamespaceSnapshot} (h : file.Consistent) (env : Surroundings)
    (epoch : ℕ) (fates : List CommitFate) :
    Consistent (restarted env file epoch fates) where
  memory := h.congr ⟨rfl, rfl, rfl⟩
  file := h.congr ⟨rfl, rfl, rfl⟩
  ahead := le_rfl
  sources path := by simp [rebuild]
  streams path entry hentry := by simp [rebuild] at hentry
  reserved path hpath := by simp [rebuild] at hpath
  fenced path _ := by simp [rebuild]

/-- Consistency survives a crash, and the next revision does not fall behind. -/
theorem durable_consistent (revision : ℕ) :
    Durable (fun d => d.Consistent ∧ revision ≤ d.snapshot.nextRevision)
      (fun file => file.Consistent ∧ revision ≤ file.nextRevision) where
  stable := stable_consistent.and (stable_nextRevision revision)
  receive _ h := ⟨{ h.1 with }, h.2⟩
  file h := ⟨h.1.file, h.2.trans h.1.ahead⟩
  epoch _ h := ⟨h.1.congr ⟨rfl, rfl, rfl⟩, h.2⟩
  rebuild env epoch fates h := ⟨consistent_rebuild h.1 env epoch fates, h.2⟩

end DataDirectory

namespace Authority

/-- The next revision of the running directory, or else of the file. -/
def nextRevision : Authority → ℕ
  | .down file => file.nextRevision
  | .up d => d.snapshot.nextRevision

theorem holds_consistent {s : Authority} {revision : ℕ} :
    s.Holds (fun d => d.Consistent ∧ revision ≤ d.snapshot.nextRevision)
        (fun file => file.Consistent ∧ revision ≤ file.nextRevision) ↔
      s.Holds DataDirectory.Consistent NamespaceSnapshot.Consistent ∧
        revision ≤ s.nextRevision := by
  cases s <;> rfl

/-- After any messages, failing commits, crashes and restarts, the file and the running directory
are consistent, and the next revision has never decreased. -/
theorem namespace_consistent (actions rest : List AuthorityAction) :
    (run actions).file.Consistent ∧ (∀ d, run actions = .up d → d.Consistent) ∧
      (run actions).nextRevision ≤ (run (actions ++ rest)).nextRevision := by
  have hinitial : initial.Holds DataDirectory.Consistent NamespaceSnapshot.Consistent ∧
      0 ≤ initial.nextRevision :=
    ⟨consistent_default, Nat.zero_le _⟩
  have hrun := holds_consistent.mp
    ((durable_consistent 0).foldl actions (holds_consistent.mpr hinitial))
  have hlater := holds_consistent.mp
    ((durable_consistent (run actions).nextRevision).foldl rest
      (holds_consistent.mpr ⟨hrun.1, le_rfl⟩))
  refine ⟨?_, ?_, ?_⟩
  · exact ((durable_consistent 0).file_of_holds (holds_consistent.mpr hrun)).1
  · intro d hd
    have hup := hrun.1
    rw [show actions.foldl step initial = .up d from hd] at hup
    exact hup
  · rw [run_append]
    exact hlater.2

end Authority

end Swactor.Namespace
