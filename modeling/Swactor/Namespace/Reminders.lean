import Swactor.Namespace.Displacements

/-!
# Displaced streams along a run

The endpoints that are awaited are sent their displacement at every tick, and they are rebuilt
from the file when the directory restarts. So a generation that has left the table without being
closed is followed up until both its ends have acknowledged, whatever commits fail and whenever
the directory goes down.
-/
namespace Swactor.Namespace

open DataDirectory Machine List
open Std (ExtTreeMap)

variable {owner : ActorAddress → OperationId} {acked : ActorAddress → StreamIncarnation → Prop}
  {ended known : DataPath → StreamMatch → Prop}

section Ticks

variable {d : DataDirectory}

/-- What has been sent stays sent. -/
theorem stable_sent (message : Sent) : Stable fun d => message ∈ d.sent where
  move hmove h := by
    cases hmove with
    | committed fates hupdate =>
      cases hupdate with
      | fenced | joined => exact mem_append_left _ h
      | _ => exact h
    | said | opened => exact mem_append_left _ h
    | _ => exact h
  lift _ h := h
  confirm hconfirms h := by
    obtain rfl | ⟨_, _, _, -, -, rfl⟩ := hconfirms <;> exact h
  rebind _ hrebind h := by
    cases hrebind <;> exact h
  refuse _ _ _ h := h

variable {endpoint : ActorAddress} {incarnation : StreamIncarnation}

section

variable (h : d.Awaits endpoint incarnation)
include h

theorem awaits_retryDisplacement (other : ActorAddress) :
    (d.retryDisplacement other).Awaits endpoint incarnation := by
  unfold retryDisplacement
  cases hpending : d.pendingStreamDisplacements[other]? with
  | none => exact h
  | some pending =>
    dsimp only
    split
    · exact h
    · next hack =>
      split
      · exact h
      · refine Maps.getElem?_erase_eq_some.mpr ⟨?_, h⟩
        rintro rfl
        rw [DataDirectory.Awaits, hpending] at h
        cases h
        simp at hack

theorem sent_foldl_retryDisplacement {order : List ActorAddress} (hmem : endpoint ∈ order) :
    .displaced endpoint incarnation ∈ (order.foldl retryDisplacement d).sent := by
  induction order generalizing d with
  | nil => simp at hmem
  | cons other rest ih =>
    rw [foldl_cons]
    by_cases hsame : endpoint = other
    · subst hsame
      have hsaid : .displaced endpoint incarnation ∈ (d.retryDisplacement endpoint).sent := by
        unfold retryDisplacement
        rw [show d.pendingStreamDisplacements[endpoint]? = some ⟨incarnation, false⟩ from h]
        exact mem_append_right _ (mem_singleton.mpr rfl)
      have hmoves : Moves .all (d.retryDisplacement endpoint)
          (rest.foldl retryDisplacement (d.retryDisplacement endpoint)) :=
        Deeds.moves (deeds_foldl (fun _ => deeds_retryDisplacement) rest)
      exact (stable_sent _).moves hmoves hsaid
    · exact ih (awaits_retryDisplacement h other)
        ((mem_cons.mp hmem).resolve_left hsame)

/-- A tick sends the displacement again to every endpoint that is awaited. -/
theorem sent_retryRetirements (env : Surroundings) :
    .displaced endpoint incarnation ∈ (d.retryRetirements env).sent := by
  have hmem : endpoint ∈ d.displacementOrder env := by
    by_cases hordered : endpoint ∈ env.order
    · exact mem_append_left _ (mem_dedup.mpr hordered)
    · refine mem_append_right _ (mem_filter.mpr ⟨?_, by simpa using hordered⟩)
      rw [ExtTreeMap.mem_keys, ExtTreeMap.mem_iff_isSome_getElem?,
        show d.pendingStreamDisplacements[endpoint]? = some ⟨incarnation, false⟩ from h]
      rfl
  have hsaid := sent_foldl_retryDisplacement h hmem
  unfold retryRetirements
  generalize (d.displacementOrder env).foldl retryDisplacement d = d₁ at hsaid
  have hmoves : Moves .all d₁ ((d₁.retirementBatch env).foldl
      (fun d source => d.send (.retire source)) d₁) :=
    Deeds.moves (deeds_foldl deeds_retire _)
  exact (stable_sent _).resume ((stable_sent _).moves hmoves hsaid)

end

end Ticks

section Rebuild

variable {file : NamespaceSnapshot}

/-- What the file keeps while the directory is down. -/
structure Remembered (owner : ActorAddress → OperationId)
    (acked : ActorAddress → StreamIncarnation → Prop) (ended known : DataPath → StreamMatch → Prop)
    (file : NamespaceSnapshot) : Prop where
  recalls : Recalls owner ∅ file
  told : ∀ path binding, known path binding → ended path binding ∨
    ∀ endpoint, endpoint = binding.source ∨ endpoint = binding.sink →
      acked endpoint binding.incarnation ∨
        (endpoint, binding.incarnation) ∈ file.streamRetirements

/-- What is active when the directory goes down comes to an end. -/
theorem Tracked.remembered {d : DataDirectory} (h : Tracked owner acked ended known d)
    (hended : ∀ path binding, d.Serves path binding → ended path binding) :
    Remembered owner acked ended known d.store.file := by
  refine ⟨h.file.mono (by simp), fun path binding hknown => ?_⟩
  rcases h.told path binding hknown with hserves | hdone | hsettling
  · exact .inl (hended path binding hserves)
  · exact .inl hdone
  · exact .inr fun endpoint hend =>
      (hsettling endpoint hend).imp_right fun hawaits => h.file.awaited _ _ hawaits

theorem Remembered.mono {acked' : ActorAddress → StreamIncarnation → Prop}
    {ended' : DataPath → StreamMatch → Prop} (h : Remembered owner acked ended known file)
    (hacked : ∀ endpoint incarnation, acked endpoint incarnation → acked' endpoint incarnation)
    (hended : ∀ path binding, ended path binding → ended' path binding) :
    Remembered owner acked' ended' known file :=
  ⟨h.recalls, fun path binding hknown => (h.told path binding hknown).imp (hended path binding)
    fun hends endpoint hend => (hends endpoint hend).imp_left (hacked _ _)⟩

variable {entries : List (ActorAddress × StreamIncarnation)}
  {pending : ExtTreeMap ActorAddress PendingStreamDisplacement compare} {endpoint : ActorAddress}

/-- The endpoints of a list as the ones that are awaited. -/
theorem getElem?_foldl_awaited {displacement : PendingStreamDisplacement}
    (h : (entries.foldl (fun pending entry => pending.insert entry.1
      (⟨entry.2, false⟩ : PendingStreamDisplacement)) pending)[endpoint]? = some displacement) :
    pending[endpoint]? = some displacement ∨
      ∃ incarnation, (endpoint, incarnation) ∈ entries ∧ displacement = ⟨incarnation, false⟩ := by
  induction entries generalizing pending with
  | nil => exact .inl h
  | cons entry rest ih =>
    rcases ih h with hold | ⟨incarnation, hmem, hsame⟩
    · rcases Maps.getElem?_insert_eq_some.mp hold with ⟨rfl, rfl⟩ | ⟨-, hold⟩
      · exact .inr ⟨entry.2, mem_cons_self, rfl⟩
      · exact .inl hold
    · exact .inr ⟨incarnation, mem_cons_of_mem _ hmem, hsame⟩

theorem isSome_foldl_awaited
    (h : pending[endpoint]?.isSome ∨ ∃ incarnation, (endpoint, incarnation) ∈ entries) :
    (entries.foldl (fun pending entry => pending.insert entry.1
      (⟨entry.2, false⟩ : PendingStreamDisplacement)) pending)[endpoint]?.isSome := by
  induction entries generalizing pending with
  | nil => simpa using h
  | cons entry rest ih =>
    apply ih
    rw [Maps.getElem?_insert_ite]
    by_cases hsame : entry.1 = endpoint
    · simp [hsame]
    · rw [if_neg hsame]
      refine h.imp_right ?_
      rintro ⟨incarnation, hmem⟩
      rcases mem_cons.mp hmem with rfl | hmem
      · exact absurd rfl hsame
      · exact ⟨incarnation, hmem⟩

/-- A fence that is rebuilt holds nothing and does not know the stream that was displaced. -/
theorem rebuilt_fence {nodes : ExtTreeMap DataPath ℕ compare}
    {fences : ExtTreeMap DataPath StreamReplacementFence compare}
    (hfences : ∀ (path : DataPath) (fence : StreamReplacementFence), fences[path]? = some fence →
      fence.old = none ∧ fence.requests = []) :
    ∀ (path : DataPath) (fence : StreamReplacementFence),
      (entries.foldl (rebuildFence nodes) fences)[path]? = some fence →
        fence.old = none ∧ fence.requests = [] := by
  induction entries generalizing fences with
  | nil => exact hfences
  | cons entry rest ih =>
    refine ih fun path fence hfence => ?_
    unfold rebuildFence at hfence
    split at hfence
    · exact hfences path fence hfence
    · next node _ _ =>
      rcases Maps.getElem?_insert_eq_some.mp hfence with ⟨-, rfl⟩ | ⟨-, hfence⟩
      · have hold : (fences[node]?.getD ⟨entry.2, [], none, []⟩).old = none ∧
            (fences[node]?.getD ⟨entry.2, [], none, []⟩).requests = [] := by
          cases hknown : fences[node]? with
          | none => exact ⟨rfl, rfl⟩
          | some known => exact hfences node known hknown
        split
        · exact hold
        · exact hold
      · exact hfences path fence hfence

/-- The displacements that a restart finds are in the file. -/
theorem mem_of_rebuilt {displacement : PendingStreamDisplacement} {env : Surroundings}
    {store : NamespaceStore}
    (h : (rebuild env store file).pendingStreamDisplacements[endpoint]? =
      some displacement) :
    ∃ incarnation, (endpoint, incarnation) ∈ file.streamRetirements ∧
      displacement = ⟨incarnation, false⟩ :=
  (getElem?_foldl_awaited h).resolve_left (by simp)

/-- An endpoint of the file is awaited after a restart. -/
theorem Recalls.awaits_rebuild {env : Surroundings} {store : NamespaceStore}
    (h : Recalls owner pending file) {incarnation : StreamIncarnation}
    (hmem : (endpoint, incarnation) ∈ file.streamRetirements) :
    (rebuild env store file).Awaits endpoint incarnation := by
  have hsome : (rebuild env store file).pendingStreamDisplacements[
      endpoint]?.isSome := isSome_foldl_awaited (.inr ⟨incarnation, hmem⟩)
  obtain ⟨displacement, hdisplacement⟩ := Option.isSome_iff_exists.mp hsome
  obtain ⟨other, hother, rfl⟩ := mem_of_rebuilt hdisplacement
  rw [h.unique _ _ _ hother hmem] at hdisplacement
  exact hdisplacement

theorem Remembered.rebuild (h : Remembered owner acked ended known file) (env : Surroundings)
    (epoch : ℕ) (fates : List CommitFate) :
    Tracked owner acked ended known (restarted env file epoch fates) := by
  have hfences (path : DataPath) (fence : StreamReplacementFence)
      (hfence : (file.streamRetirements.foldl (rebuildFence file.streamNodes)
        ∅)[path]? = some fence) : fence.old = none ∧ fence.requests = [] :=
    rebuilt_fence (by simp) path fence hfence
  have hrecalls : Recalls owner (file.streamRetirements.foldl (fun pending entry =>
      pending.insert entry.1 (⟨entry.2, false⟩ : PendingStreamDisplacement)) ∅)
      { file with authorityEpoch := epoch } := by
    refine ⟨fun endpoint incarnation hknown => ?_, h.recalls.unique, h.recalls.opened⟩
    obtain ⟨other, hmem, hsame⟩ := (getElem?_foldl_awaited hknown).resolve_left (by simp)
    cases hsame
    exact hmem
  constructor
  · intro path entry hentry
    simp [DataDirectory.rebuild] at hentry
  · intro endpoint displacement hknown
    obtain ⟨incarnation, hmem, -⟩ := mem_of_rebuilt hknown
    refine ⟨h.recalls.opened endpoint incarnation hmem, fun path entry hentry => ?_⟩
    simp [DataDirectory.rebuild] at hentry
  · exact hrecalls
  · exact hrecalls
  · intro path fence hfence request hrequest
    rw [(hfences path fence hfence).2] at hrequest
    simp at hrequest
  · intro path fence old hfence hold
    rw [(hfences path fence hfence).1] at hold
    cases hold
  · intro path binding hknown
    right
    refine (h.told path binding hknown).imp_right fun hends endpoint hend => ?_
    exact (hends endpoint hend).imp_right h.recalls.awaits_rebuild
  · intro opening target requestId epoch binding hmem
    simp [DataDirectory.rebuild] at hmem

end Rebuild

namespace Authority

/-- What the last step sent. -/
def sent : Authority → List Sent
  | .down _ => []
  | .up d => d.sent

/-- The match is active at the path. -/
def Serves : Authority → DataPath → StreamMatch → Prop
  | .down _, _, _ => False
  | .up d, path, binding => d.Serves path binding

section

variable (owner : ActorAddress → OperationId) (s : Authority)

/-- The match has just been sent to an end of the stream at the path. -/
def Announces (path : DataPath) (binding : StreamMatch) : Prop :=
  ∃ opening target requestId epoch,
    Sent.opened opening target requestId epoch (.ok binding) ∈ s.sent ∧ opening.path = path

/-- The match is active after the step, or has been while the step was made. -/
def Matches (path : DataPath) (binding : StreamMatch) (s : Authority) (a : AuthorityAction) :
    Prop :=
  (s.step a).Serves path binding ∨ (s.step a).Announces path binding

/-- The active stream is closed, or the directory goes down. -/
def Ends (path : DataPath) (binding : StreamMatch) (s : Authority) (a : AuthorityAction) : Prop :=
  s.Serves path binding ∧
    ((∃ requestId replyTo env,
        a = .deliver (.closeStream requestId path binding.incarnation replyTo) env) ∨
      a = .crash ∨ ∃ env, a = .restart env)

/-- The endpoint acknowledges a displacement that is recorded. -/
def Acknowledges (endpoint : ActorAddress) (incarnation : StreamIncarnation) (s : Authority)
    (a : AuthorityAction) : Prop :=
  ∃ d acknowledged env, s = .up d ∧
    d.pendingStreamDisplacements[endpoint]? = some ⟨incarnation, acknowledged⟩ ∧
    a = .deliver (.streamDisplaced endpoint incarnation) env

/-- The acknowledgements after a step are those before it and that of the step. -/
def Notes (a : AuthorityAction) (acked acked' : ActorAddress → StreamIncarnation → Prop) : Prop :=
  ∀ endpoint incarnation, acked endpoint incarnation ∨ Acknowledges endpoint incarnation s a →
    acked' endpoint incarnation

/-- The displacement is recorded; when the directory is running, it is sent at every tick. -/
def Reminds : Authority → ActorAddress → StreamIncarnation → Prop
  | .down file, endpoint, incarnation => (endpoint, incarnation) ∈ file.streamRetirements
  | .up d, endpoint, incarnation =>
      d.pendingStreamDisplacements[endpoint]? = some ⟨incarnation, false⟩ ∧
        ∀ env, .displaced endpoint incarnation ∈
          (step (.up d) (.deliver .retryRetirements env)).sent

/-- A registration that is handled now records the ends of the active stream that it displaces. -/
def recordsEnds (s : Authority) (env : Surroundings) (registration : BlobRegistration) : Bool :=
  match s with
  | .down _ => true
  | .up d => (d.received env).recordsEnds registration

/-- Every open has an endpoint of its own, and a registration that displaces an active stream
succeeds in recording its ends. -/
def Careful : AuthorityAction → Prop
  | .deliver (.openStream request) _ => Owned owner request
  | .deliver (.register _ registration _) env => s.recordsEnds env registration = true
  | _ => True

/-- Along a run, with what has happened in it. -/
def Tracks (actions : List AuthorityAction) : Prop :=
  s.Holds
    (Tracked owner (fun endpoint incarnation =>
        Happened (Acknowledges endpoint incarnation) step initial actions)
      (fun path binding => Happened (Ends path binding) step initial actions)
      fun path binding => Happened (Matches path binding) step initial actions)
    (Remembered owner (fun endpoint incarnation =>
        Happened (Acknowledges endpoint incarnation) step initial actions)
      (fun path binding => Happened (Ends path binding) step initial actions)
      fun path binding => Happened (Matches path binding) step initial actions)

end

variable {s : Authority} {acked' : ActorAddress → StreamIncarnation → Prop}
  {ended' known' : DataPath → StreamMatch → Prop}

section

variable (hs : s.Holds (Tracked owner acked ended known) (Remembered owner acked ended known))

include hs

/-- What has just been matched is followed as well. -/
theorem holds_matched (hknown : ∀ path binding, known' path binding → known path binding ∨
      s.Serves path binding ∨ s.Announces path binding) :
    s.Holds (Tracked owner acked ended known') (Remembered owner acked ended known') := by
  cases s with
  | down file =>
    refine ⟨hs.recalls, fun path binding htold => hs.told path binding ?_⟩
    rcases hknown path binding htold with hold | hserves | ⟨_, _, _, _, hmem, -⟩
    · exact hold
    · exact hserves.elim
    · simp [sent] at hmem
  | up d =>
    have htracked : Tracked owner acked ended known d := hs
    refine { htracked with told := fun path binding htold => ?_ }
    rcases hknown path binding htold with hold | hserves |
      ⟨opening, target, requestId, epoch, hmem, rfl⟩
    · exact hs.told path binding hold
    · exact .inl hserves
    · exact hs.sent opening target requestId epoch binding hmem

/-- The file that the directory restarts from. -/
theorem remembered_file (hended : ∀ path binding, s.Serves path binding → ended path binding) :
    Remembered owner acked ended known s.file := by
  cases s with
  | down file => exact hs
  | up d => exact Tracked.remembered hs hended

theorem holds_step (a : AuthorityAction) (hcareful : s.Careful owner a)
    (hacked : s.Notes a acked acked')
    (hended : ∀ path binding, ended path binding ∨ Ends path binding s a → ended' path binding) :
    (s.step a).Holds (Tracked owner acked' ended' known)
      (Remembered owner acked' ended' known) := by
  have hs' : s.Holds (Tracked owner acked' ended' known)
      (Remembered owner acked' ended' known) := by
    cases s with
    | down file =>
      exact Remembered.mono hs (fun _ _ hold => hacked _ _ (.inl hold))
        fun _ _ hold => hended _ _ (.inl hold)
    | up d =>
      exact Tracked.mono hs (fun _ _ hold => hacked _ _ (.inl hold))
        fun _ _ hold => hended _ _ (.inl hold)
  cases a with
  | deliver message env =>
    cases s with
    | down file => exact hs'
    | up d =>
      have hreceived : Tracked owner acked' ended' known (d.received env) :=
        Tracked.frame hs' rfl rfl rfl (by simp [received]) .rfl
          hs'.memory hs'.file
      refine hreceived.handle env message ?_ (.inr ?_) ?_ ?_
      · rintro request rfl
        exact hcareful
      · rintro requestId registration replyTo rfl
        exact hcareful
      · rintro requestId path binding replyTo rfl hserves
        exact hended _ _ (.inr ⟨hserves, .inl ⟨requestId, replyTo, env, rfl⟩⟩)
      · rintro endpoint incarnation acknowledged rfl hpending
        exact hacked _ _ (.inr ⟨d, acknowledged, env, rfl, hpending, rfl⟩)
  | crash =>
    exact remembered_file hs' fun path binding hserves =>
      hended _ _ (.inr ⟨hserves, .inr (.inl rfl)⟩)
  | restart env =>
    have hfile : Remembered owner acked' ended' known s.file :=
      remembered_file hs' fun path binding hserves =>
        hended _ _ (.inr ⟨hserves, .inr (.inr ⟨env, rfl⟩)⟩)
    refine holds_start hfile (fun epoch => ?_) fun epoch fates =>
      (hfile.rebuild env epoch fates).handle env .retryRetirements nofun (.inr nofun) nofun nofun
    exact ⟨⟨hfile.recalls.awaited, hfile.recalls.unique, hfile.recalls.opened⟩, hfile.told⟩

end

theorem tracks_run {actions : List AuthorityAction}
    (h : Guarded (Careful owner) step initial actions) :
    (run actions).Tracks owner actions := by
  induction actions using reverseRecOn with
  | nil => exact ⟨⟨by simp, by simp, by simp⟩, fun _ _ hknown => hknown.elim⟩
  | append_singleton actions a ih =>
    obtain ⟨hbefore, hcareful, -⟩ := guarded_append.mp h
    rw [run_append]
    refine holds_matched (holds_step (ih hbefore) a hcareful ?_ ?_) ?_
    · exact fun _ _ => happened_concat.mpr
    · exact fun _ _ => happened_concat.mpr
    · exact fun _ _ => happened_concat.mp

/-- A stream that has been matched is at its path, was closed or lost in a restart, or was
displaced; then each of its ends has acknowledged, or is recorded and reminded at every tick. -/
theorem displaced_ends_remembered (owner : ActorAddress → OperationId)
    {actions : List AuthorityAction}
    (hcareful : Guarded (Careful owner) step initial actions) (path : DataPath)
    (binding : StreamMatch)
    (hmatched : Happened (Matches path binding) step initial actions) :
    (run actions).Serves path binding ∨
      Happened (Ends path binding) step initial actions ∨
      ∀ endpoint, endpoint = binding.source ∨ endpoint = binding.sink →
        Happened (Acknowledges endpoint binding.incarnation) step initial actions ∨
          (run actions).Reminds endpoint binding.incarnation := by
  have htracks := tracks_run hcareful
  generalize run actions = s at htracks
  cases s with
  | down file => exact .inr (htracks.told path binding hmatched)
  | up d =>
    refine (htracks.told path binding hmatched).imp_right (.imp_right fun hsettling => ?_)
    refine fun endpoint hend => (hsettling endpoint hend).imp_right fun hawaits => ⟨hawaits, ?_⟩
    intro env
    have hreceived : (d.received env).Awaits endpoint binding.incarnation := hawaits
    exact sent_retryRetirements hreceived env

/-- The operation of an endpoint has its number in the sample runs. -/
def sampleOwner (endpoint : ActorAddress) : OperationId := endpoint.val

/-- An open that replaces what is at the path. -/
def sampleOpen (path : DataPath) (role : StreamRole) (endpoint : ActorAddress)
    (operationId : OperationId) : AuthorityAction :=
  .deliver (.openStream ⟨0, path, role, endpoint, true, true, none, [], operationId, 0⟩) {}

def sampleRegister (path : DataPath) (operationId : OperationId) (fates : List CommitFate) :
    AuthorityAction :=
  .deliver (.register 0 ⟨path, 9, 0, 0, .file "", operationId, none⟩ 0) { fates := fates }

/-- A stream is matched and then displaced by a registration. -/
def sampleDisplaced (fates : List CommitFate) : List AuthorityAction :=
  [.restart {}, sampleOpen 1 .source 4 4, sampleOpen 1 .sink 5 5, sampleRegister 1 7 fates]

def sampleMatch : StreamMatch := ⟨⟨1, 1⟩, 4, [], [], 5, 1⟩

theorem displaced_ends_remembered_registered :
    (run (sampleDisplaced [])).Serves 1 sampleMatch ∨
      Happened (Ends 1 sampleMatch) step initial (sampleDisplaced []) ∨
      ∀ endpoint, endpoint = sampleMatch.source ∨ endpoint = sampleMatch.sink →
        Happened (Acknowledges endpoint sampleMatch.incarnation) step initial
            (sampleDisplaced []) ∨
          (run (sampleDisplaced [])).Reminds endpoint sampleMatch.incarnation := by
  have hcareful : Guarded (Careful sampleOwner) step initial (sampleDisplaced []) := by
    refine ⟨trivial, rfl, rfl, ?_, trivial⟩
    show recordsEnds _ _ _ = true
    decide +kernel
  have hmatched : Announces (run ((sampleDisplaced []).take 3)) 1 sampleMatch :=
    ⟨⟨1, .sink, 5, 5⟩, 0, 0, 1, by decide +kernel, rfl⟩
  exact displaced_ends_remembered sampleOwner hcareful 1 sampleMatch
    (.inr (.inr (.inl (.inr hmatched))))

/-- The directory runs, the path has no stream, and the displacement of the endpoint from the
generation is not recorded. -/
def forgets (s : Authority) (path : DataPath) (endpoint : ActorAddress)
    (incarnation : StreamIncarnation) : Bool :=
  match s with
  | .down _ => false
  | .up d => d.streams[path]?.isNone &&
      d.pendingStreamDisplacements[endpoint]?.all fun pending => pending.incarnation ≠ incarnation

/-- Two streams with a common source are displaced. -/
def sampleShared : List AuthorityAction :=
  [.restart {}, sampleOpen 1 .source 4 4, sampleOpen 1 .sink 5 5, sampleOpen 2 .source 4 6,
   sampleOpen 2 .sink 7 7, sampleRegister 1 8 [], sampleRegister 2 9 []]

/-- The source of a matched stream is forgotten when the commit fails that records it, and when
the stream is displaced that it takes part in besides. Nothing was acknowledged or closed. -/
theorem displaced_end_forgotten :
    (Sent.opened ⟨1, .sink, 5, 5⟩ 0 0 1 (.ok sampleMatch) ∈
        (run ((sampleDisplaced [.succeeds, .failsBefore]).take 3)).sent ∧
      (run (sampleDisplaced [.succeeds, .failsBefore])).forgets 1 4 ⟨1, 1⟩ = true) ∧
    (Sent.opened ⟨1, .sink, 5, 5⟩ 0 0 1 (.ok sampleMatch) ∈ (run (sampleShared.take 3)).sent ∧
      (run sampleShared).forgets 1 4 ⟨1, 1⟩ = true) := by
  decide +kernel

end Authority

end Swactor.Namespace
