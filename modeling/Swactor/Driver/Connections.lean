import Swactor.Types
import Swactor.Lib.Machine

/-!
# Duplicate connections between two nodes

Two nodes that dial each other at once, or one that dials twice, hold several
connections to one peer. Each end keeps one in its cache: it folds them in the
order in which it learns of them, prefers those initiated by the lesser node, and
closes the others. A close is seen by the other end at any later time.
-/
namespace Swactor.Driver

open Machine

/-- A connection between the ends `false` and `true`. -/
structure Connection where
  stableId : ℕ
  initiator : Bool
  deriving DecidableEq, Repr

structure CachedConnection where
  generation : ℕ
  conn : Connection
  deriving DecidableEq, Repr

/-- One end: its cache entry for the other one, the connections it closed, and the
closes of the other end it has seen. `folded` is what was given to its cache. -/
structure Endpoint where
  cached : Option CachedConnection := none
  nextGeneration : ℕ := 1
  closed : List Connection := []
  seen : List Connection := []
  folded : List Connection := []
  deriving DecidableEq, Repr

/-- The connection has a close reason at this end. -/
def Endpoint.HasCloseReason (e : Endpoint) (conn : Connection) : Prop :=
  conn ∈ e.closed ∨ conn ∈ e.seen

instance (e : Endpoint) (conn : Connection) : Decidable (e.HasCloseReason conn) :=
  inferInstanceAs (Decidable (_ ∨ _))

def Endpoint.held (e : Endpoint) : Option Connection := e.cached.map (·.conn)

def connectionIsPreferred (isClient : Bool) (selfId peer : NodeId) : Bool :=
  let initiator := if isClient then selfId else peer
  initiator == min selfId peer

def Endpoint.insert (e : Endpoint) (conn : Connection) : Endpoint :=
  { e with
    cached := some ⟨e.nextGeneration, conn⟩
    nextGeneration := max (wrappingAdd e.nextGeneration 1) 1 }

section

variable (node : Bool → NodeId) (conns : List Connection)

/-- The end `i` folds a connection into its cache. -/
def cacheConnection (i : Bool) (e : Endpoint) (conn : Connection) : Endpoint :=
  if e.HasCloseReason conn then e
  else match e.cached.filter fun existing => ¬e.HasCloseReason existing.conn with
    | none => e.insert conn
    | some existing =>
      if existing.conn.stableId = conn.stableId then e
      else if connectionIsPreferred (conn.initiator == i) (node i) (node !i) then
        { e with closed := existing.conn :: e.closed }.insert conn
      else { e with closed := conn :: e.closed }

/-- The report of a failed writer removes the entry of its own generation only. -/
def Endpoint.evict (e : Endpoint) (generation : ℕ) : Endpoint :=
  if e.cached.any (·.generation == generation) then { e with cached := none } else e

inductive EndpointAction where
  | fold (conn : Connection)
  | see (conn : Connection)
  | evict (generation : ℕ)
  deriving DecidableEq, Repr

def Endpoint.step (i : Bool) (e : Endpoint) : EndpointAction → Endpoint
  | .fold conn =>
    let e' := cacheConnection node i e conn
    { e' with folded := conn :: e'.folded }
  | .see conn => { e with seen := conn :: e.seen }
  | .evict generation => e.evict generation

abbrev Link := Bool → Endpoint

def Link.step (node : Bool → NodeId) (s : Link) (a : Bool × EndpointAction) : Link :=
  Function.update s a.1 ((s a.1).step node a.1 a.2)

/-- Only the given connections are folded, only closes of the other end are seen,
and the writer of an entry fails only after a close. -/
def Link.Ok (s : Link) : Bool × EndpointAction → Prop
  | (_, .fold conn) => conn ∈ conns
  | (i, .see conn) => conn ∈ (s !i).closed
  | (i, .evict generation) => ∀ existing ∈ (s i).cached,
      existing.generation = generation → (s i).HasCloseReason existing.conn

instance (conns : List Connection) (s : Link) : (a : Bool × EndpointAction) →
    Decidable (s.Ok conns a)
  | (_, .fold conn) => inferInstanceAs (Decidable (conn ∈ conns))
  | (i, .see conn) => inferInstanceAs (Decidable (conn ∈ (s !i).closed))
  | (i, .evict _) => inferInstanceAs (Decidable (∀ existing ∈ (s i).cached, _ → _))

/-- Both ends have folded every connection and seen every close. -/
def Link.Quiet (s : Link) : Prop :=
  ∀ i, conns ⊆ (s i).folded ∧ (s !i).closed ⊆ (s i).seen

/-- Exactly one of the connections is open, and it is cached at both ends. -/
def Link.Single (s : Link) : Prop :=
  ∃ conn ∈ conns, ∀ i, (s i).held = some conn ∧
    ∀ other ∈ conns, (s i).HasCloseReason other ↔ other ≠ conn

def Preferred (conn : Connection) : Prop :=
  node conn.initiator < node !conn.initiator

/-- One connection is alone, or alone preferred. -/
def Decided (conn : Connection) : Prop :=
  conn ∈ conns ∧ ∀ other ∈ conns, other ≠ conn → Preferred node conn ∧ ¬Preferred node other

end

section Run

variable {node : Bool → NodeId} {conns : List Connection} {conn : Connection} {e : Endpoint}

theorem connectionIsPreferred_iff (hne : node false ≠ node true) (i : Bool) (conn : Connection) :
    connectionIsPreferred (conn.initiator == i) (node i) (node !i) ↔ Preferred node conn := by
  cases i <;> cases hi : conn.initiator <;>
    simp [connectionIsPreferred, Preferred, hi, lt_iff_le_and_ne, hne, hne.symm]

/-- What holds at an end of the connection that is to survive. -/
structure Kept (conns : List Connection) (conn : Connection) (e : Endpoint) : Prop where
  unclosed : ¬e.HasCloseReason conn
  known : ∀ old, e.held = some old → old ∈ conns
  chosen : conn ∈ e.folded → e.held = some conn
  others : ∀ other ∈ e.folded, other ≠ conn → e.HasCloseReason other ∨ e.held = some other

theorem cacheConnection_cases (node : Bool → NodeId) (i : Bool) (e : Endpoint)
    (new : Connection) :
    let e' := cacheConnection node i e new
    e' = e ∧ (e.HasCloseReason new ∨ ∃ old, e.held = some old ∧ old.stableId = new.stableId) ∨
    e' = e.insert new ∧ (∀ old, e.held = some old → e.HasCloseReason old) ∨
    ∃ old, e.held = some old ∧ old.stableId ≠ new.stableId ∧
      if connectionIsPreferred (new.initiator == i) (node i) (node !i) then
        ¬e.HasCloseReason new ∧ e' = { e with closed := old :: e.closed }.insert new
      else e' = { e with closed := new :: e.closed } := by
  unfold cacheConnection Endpoint.held
  by_cases hnew : e.HasCloseReason new
  · simp [hnew]
  cases e.cached with
  | none => simp [hnew]
  | some existing =>
    by_cases hold : e.HasCloseReason existing.conn
    · simp [hnew, hold, Option.filter]
    by_cases hsame : existing.conn.stableId = new.stableId
    · simp [hnew, hold, hsame, Option.filter]
    · right; right
      refine ⟨existing.conn, rfl, hsame, ?_⟩
      split <;> simp_all [Option.filter]

theorem Kept.fold (hne : node false ≠ node true)
    (hdistinct : ∀ a ∈ conns, ∀ b ∈ conns, a.stableId = b.stableId → a = b)
    (hdecided : Decided node conns conn) (h : Kept conns conn e) (i : Bool)
    {new : Connection} (hnew : new ∈ conns) :
    let e' := cacheConnection node i e new
    Kept conns conn { e' with folded := new :: e'.folded } := by
  obtain ⟨hunclosed, hknown, hchosen, hothers⟩ := h
  obtain ⟨hmem, hsole⟩ := hdecided
  have hpreferred := connectionIsPreferred_iff hne i new
  obtain ⟨he, hcase⟩ | ⟨he, hcase⟩ | ⟨old, hold, hapart, hcase⟩ :=
    cacheConnection_cases node i e new
  · simp only [he]
    constructor <;> simp only [Endpoint.HasCloseReason, Endpoint.held] at * <;> grind
  · simp only [he]
    constructor <;>
      simp only [Endpoint.HasCloseReason, Endpoint.held, Endpoint.insert] at * <;> grind
  · split at hcase
    · simp only [hcase.2]
      constructor <;>
        simp only [Endpoint.HasCloseReason, Endpoint.held, Endpoint.insert] at * <;> grind
    · simp only [hcase]
      constructor <;> simp only [Endpoint.HasCloseReason, Endpoint.held] at * <;> grind

theorem Kept.evict (h : Kept conns conn e) {generation : ℕ} (hfailed : ∀ existing ∈ e.cached,
    existing.generation = generation → e.HasCloseReason existing.conn) :
    Kept conns conn (e.evict generation) := by
  unfold Endpoint.evict
  split
  · rename_i hcurrent
    obtain ⟨existing, hcached, hgeneration⟩ : ∃ existing, e.cached = some existing ∧
        existing.generation = generation := by simpa [Option.any_eq_true] using hcurrent
    have hclosed := hfailed existing hcached hgeneration
    obtain ⟨hunclosed, hknown, hchosen, hothers⟩ := h
    constructor <;> simp only [Endpoint.HasCloseReason, Endpoint.held] at * <;> grind
  · exact h

theorem Kept.see (h : Kept conns conn e) {closed : Connection} (hne : closed ≠ conn) :
    Kept conns conn { e with seen := closed :: e.seen } := by
  obtain ⟨hunclosed, hknown, hchosen, hothers⟩ := h
  constructor <;> simp only [Endpoint.HasCloseReason, Endpoint.held] at * <;> grind

theorem kept_step (hne : node false ≠ node true)
    (hdistinct : ∀ a ∈ conns, ∀ b ∈ conns, a.stableId = b.stableId → a = b)
    (hdecided : Decided node conns conn) (s : Link) (a : Bool × EndpointAction)
    (h : ∀ i, Kept conns conn (s i)) (hok : s.Ok conns a) :
    ∀ i, Kept conns conn (s.step node a i) := by
  obtain ⟨i, a⟩ := a
  refine (Function.forall_update_iff s _).mpr ⟨?_, fun j _ => h j⟩
  cases a with
  | fold new => exact (h i).fold hne hdistinct hdecided i hok
  | see other => exact (h i).see fun heq => (h !i).unclosed (.inl (heq ▸ hok))
  | evict generation => exact (h i).evict hok

/-- Two nodes are left with exactly one connection, whatever the orders in which
they fold the connections and see the closes, if only one connection was initiated
by the lesser node or there is only one. -/
theorem single_link_survives (node : Bool → NodeId) (hne : node false ≠ node true)
    (conns : List Connection)
    (hdistinct : ∀ a ∈ conns, ∀ b ∈ conns, a.stableId = b.stableId → a = b)
    (hdecided : ∃ conn, Decided node conns conn) (run : List (Bool × EndpointAction))
    (hrun : Guarded (Link.Ok conns) (Link.step node) (fun _ => {}) run)
    (hquiet : Link.Quiet conns (run.foldl (Link.step node) fun _ => {})) :
    Link.Single conns (run.foldl (Link.step node) fun _ => {}) := by
  obtain ⟨conn, hdecided⟩ := hdecided
  have hstart : ∀ i, Kept conns conn ((fun _ => {} : Link) i) := fun i =>
    ⟨by simp [Endpoint.HasCloseReason], by simp [Endpoint.held], by simp, by simp⟩
  have hkept := hrun.invariant (P := fun s => ∀ i, Kept conns conn (s i))
    (kept_step hne hdistinct hdecided) hstart
  refine ⟨conn, hdecided.1, fun i => ?_⟩
  have hheld := (hkept i).chosen ((hquiet i).1 hdecided.1)
  refine ⟨hheld, fun other hother => ⟨?_, fun hdiffers => ?_⟩⟩
  · rintro hclosed rfl
    exact (hkept i).unclosed hclosed
  · exact ((hkept i).others other ((hquiet i).1 hother) hdiffers).resolve_right fun h =>
      hdiffers (Option.some.inj (h.symm.trans hheld))

/-- Two connections that race from either side. -/
theorem single_link_survives_race :
    let conns : List Connection := [⟨1, false⟩, ⟨2, true⟩]
    let run : List (Bool × EndpointAction) := [(false, .fold ⟨1, false⟩), (true, .fold ⟨2, true⟩),
      (false, .fold ⟨2, true⟩), (true, .fold ⟨1, false⟩), (false, .see ⟨2, true⟩),
      (true, .see ⟨2, true⟩)]
    Link.Single conns (run.foldl (Link.step fun i => if i then 2 else 1) fun _ => {}) := by
  refine single_link_survives _ (by decide) _ (by decide) ⟨⟨1, false⟩, ?_⟩ _ (by decide) ?_
  · simp [Decided, Preferred]
  · unfold Link.Quiet
    decide

/-- Two connections of the lesser node, folded in different orders: each end closes
the one that the other keeps. -/
theorem duplicate_dials_leave_no_link :
    let conns : List Connection := [⟨1, false⟩, ⟨2, false⟩]
    let run : List (Bool × EndpointAction) := [(false, .fold ⟨1, false⟩), (false, .fold ⟨2, false⟩),
      (true, .fold ⟨2, false⟩), (true, .fold ⟨1, false⟩), (false, .see ⟨2, false⟩),
      (true, .see ⟨1, false⟩)]
    let s := run.foldl (Link.step fun i => if i then 2 else 1) fun _ => {}
    Guarded (Link.Ok conns) (Link.step fun i => if i then 2 else 1) (fun _ => {}) run ∧
      s.Quiet conns ∧ ∀ i, ∀ conn ∈ conns, (s i).HasCloseReason conn := by
  unfold Link.Quiet
  decide

end Run

end Swactor.Driver
