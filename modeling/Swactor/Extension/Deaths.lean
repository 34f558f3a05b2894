import Swactor.Extension.Names
import Swactor.Lib.Multimap
import Swactor.Runtime.Worker

/-!
# Watches, groups and the death of actors

Who watches an actor and in which groups it is are kept in pairs of tables, one for each direction.
When actors die, the extension first notifies the watchers of all of them and then removes every
trace of the dead: each pair of a watcher and a target that was registered since either of them
last died is reported once, also if watcher and target die together.
-/
namespace Swactor.Extension

open Machine Multimap
open List hiding beq_eq_decide
open Swactor.Runtime (DeadActor StopReason ExitValue)
open Std (ExtTreeMap ExtTreeSet)

inductive ExitReason
  | stopped
  | panicked
  | nodeDown
  | completed
deriving DecidableEq, Repr

structure ActorExited where
  addr : ActorAddress
  reason : ExitReason
  exitValue : Option ExitValue
deriving DecidableEq, Repr

structure WatchRegistry where
  watchers : ExtTreeMap ActorAddress (ExtTreeSet ActorAddress compare) compare := ∅
  watching : ExtTreeMap ActorAddress (ExtTreeSet ActorAddress compare) compare := ∅

namespace WatchRegistry

def watch (r : WatchRegistry) (watcher target : ActorAddress) : WatchRegistry :=
  ⟨add r.watchers target watcher, add r.watching watcher target⟩

def notifyDeath (r : WatchRegistry) (exited : ActorExited) :
    WatchRegistry × List (ActorAddress × ActorExited) :=
  let watchers := (valuesAt r.watchers exited.addr).toList
  (⟨r.watchers.erase exited.addr,
    watchers.foldl (fun watching watcher => drop watching watcher exited.addr) r.watching⟩,
    watchers.map fun watcher => (watcher, exited))

def cleanupWatcher (r : WatchRegistry) (watcher : ActorAddress) : WatchRegistry :=
  ⟨(valuesAt r.watching watcher).toList.foldl
      (fun watchers target => prune watchers target watcher) r.watchers,
    r.watching.erase watcher⟩

end WatchRegistry

structure GroupRegistry where
  groups : ExtTreeMap String (ExtTreeSet ActorAddress compare) compare := ∅
  memberships : ExtTreeMap ActorAddress (ExtTreeSet String compare) compare := ∅

namespace GroupRegistry

def join (r : GroupRegistry) (group : String) (addr : ActorAddress) : GroupRegistry :=
  ⟨add r.groups group addr, add r.memberships addr group⟩

def leave (r : GroupRegistry) (group : String) (addr : ActorAddress) : GroupRegistry :=
  ⟨prune r.groups group addr, drop r.memberships addr group⟩

def cleanup (r : GroupRegistry) (addr : ActorAddress) : GroupRegistry :=
  ⟨(valuesAt r.memberships addr).toList.foldl (fun groups name => prune groups name addr) r.groups,
    r.memberships.erase addr⟩

end GroupRegistry

def stopToExit : StopReason → ExitReason
  | .normal | .completed => .completed
  | .panicked => .panicked

/-- What the watchers of a dead actor are told. -/
def exitOf (dead : DeadActor) : ActorExited := ⟨dead.addr, stopToExit dead.reason, dead.exitValue⟩

structure StdExtension where
  nameRegistry : NameRegistry := {}
  watchRegistry : WatchRegistry := {}
  groupRegistry : GroupRegistry := {}

namespace StdExtension

def onActorDeath (e : StdExtension) (dead : List DeadActor) :
    StdExtension × List (ActorAddress × ActorExited) :=
  let notified := collect (fun r d => r.notifyDeath (exitOf d)) e.watchRegistry dead
  ({ e with watchRegistry := notified.1 }, notified.2)

def cleanupAddr (e : StdExtension) (addr : ActorAddress) : StdExtension where
  nameRegistry := e.nameRegistry.unregisterByAddr addr
  groupRegistry := e.groupRegistry.cleanup addr
  watchRegistry := e.watchRegistry.cleanupWatcher addr

def cleanupDead (e : StdExtension) (dead : List ActorAddress) : StdExtension :=
  dead.foldl cleanupAddr e

/-- The calls; the deaths of a pass come in one batch. -/
inductive Op
  | watch (watcher target : ActorAddress)
  | join (group : String) (addr : ActorAddress)
  | leave (group : String) (addr : ActorAddress)
  | deaths (dead : List DeadActor)

def call (e : StdExtension) : Op → StdExtension × List (ActorAddress × ActorExited)
  | .watch watcher target => ({ e with watchRegistry := e.watchRegistry.watch watcher target }, [])
  | .join group addr => ({ e with groupRegistry := e.groupRegistry.join group addr }, [])
  | .leave group addr => ({ e with groupRegistry := e.groupRegistry.leave group addr }, [])
  | .deaths dead =>
      let notified := e.onActorDeath dead
      (notified.1.cleanupDead (dead.map DeadActor.addr), notified.2)

/-- The extension after the calls of a run. -/
def run (ops : List Op) : StdExtension := ops.foldl (fun e op => (e.call op).1) {}

/-- The address is in the batch. -/
def Op.kills (addr : ActorAddress) : Op → Prop
  | .deaths dead => addr ∈ dead.map DeadActor.addr
  | _ => False

/-- The watch was registered, and neither end has died since. -/
def Registered (past : List Op) (watcher target : ActorAddress) : Prop :=
  Trace.Since (· = .watch watcher target) (fun op => op.kills watcher ∨ op.kills target) past

end StdExtension

/-! What each operation does to the two relations. -/

namespace WatchRegistry

/-- The watchers of a target are those that watch it. -/
def Converse (r : WatchRegistry) : Prop :=
  ∀ watcher target, watcher ∈ valuesAt r.watchers target ↔ target ∈ valuesAt r.watching watcher

variable {r : WatchRegistry} {watcher target : ActorAddress}

theorem converse_watch (h : r.Converse) : (r.watch watcher target).Converse := by
  intro w t
  simp only [watch, mem_valuesAt_add]
  rw [h w t, and_comm]

theorem mem_notifyDeath {exited : ActorExited} :
    watcher ∈ valuesAt (r.notifyDeath exited).1.watchers target ↔
      exited.addr ≠ target ∧ watcher ∈ valuesAt r.watchers target :=
  mem_valuesAt_erase

theorem converse_notifyDeath (h : r.Converse) (exited : ActorExited) :
    (r.notifyDeath exited).1.Converse := by
  intro w t
  rw [mem_notifyDeath]
  simp only [notifyDeath]
  rw [mem_valuesAt_foldl fun _ _ _ _ => mem_valuesAt_drop, ExtTreeSet.mem_toList, h w t]
  constructor
  · rintro ⟨hne, hmem⟩
    exact ⟨hmem, fun hdead => hne hdead.2⟩
  · rintro ⟨hmem, hdead⟩
    refine ⟨?_, hmem⟩
    rintro rfl
    exact hdead ⟨(h w exited.addr).mpr hmem, rfl⟩

theorem mem_cleanupWatcher (h : r.Converse) {addr : ActorAddress} :
    watcher ∈ valuesAt (r.cleanupWatcher addr).watchers target ↔
      watcher ≠ addr ∧ watcher ∈ valuesAt r.watchers target := by
  simp only [cleanupWatcher]
  rw [mem_valuesAt_foldl fun _ _ _ _ => mem_valuesAt_prune, ExtTreeSet.mem_toList]
  constructor
  · rintro ⟨hmem, hdead⟩
    refine ⟨?_, hmem⟩
    rintro rfl
    exact hdead ⟨(h watcher target).mp hmem, rfl⟩
  · rintro ⟨hne, hmem⟩
    exact ⟨hmem, fun hdead => hne hdead.2.symm⟩

theorem converse_cleanupWatcher (h : r.Converse) (addr : ActorAddress) :
    (r.cleanupWatcher addr).Converse := by
  intro w t
  rw [mem_cleanupWatcher h, h w t]
  simp only [cleanupWatcher, mem_valuesAt_erase, ne_comm]

/-- A notice to each watcher, once. -/
theorem count_notifyDeath {exited : ActorExited} :
    (r.notifyDeath exited).2.countP (fun n => n.1 = watcher ∧ n.2.addr = target) =
      if exited.addr = target ∧ watcher ∈ valuesAt r.watchers target then 1 else 0 := by
  have hnodup : (valuesAt r.watchers exited.addr).toList.Nodup :=
    ExtTreeSet.distinct_toList.imp fun hne heq => hne (by simp [heq])
  simp only [notifyDeath, countP_map]
  by_cases haddr : exited.addr = target
  · subst haddr
    have hsame : ((fun n : ActorAddress × ActorExited =>
        decide (n.1 = watcher ∧ n.2.addr = exited.addr)) ∘ fun w => (w, exited)) =
        fun w => w == watcher := by
      funext w
      simp [beq_eq_decide]
    rw [hsame]
    change count watcher _ = _
    rw [hnodup.count]
    simp
  · simp [haddr, Function.comp_def]

variable {dead : List DeadActor}

theorem mem_notify :
    watcher ∈ valuesAt (collect (fun r d => r.notifyDeath (exitOf d)) r dead).1.watchers target ↔
      target ∉ dead.map DeadActor.addr ∧ watcher ∈ valuesAt r.watchers target := by
  induction dead generalizing r with
  | nil => simp [collect]
  | cons d dead ih =>
    simp only [collect, andThen, map_cons, mem_cons, not_or]
    rw [ih, mem_notifyDeath, exitOf]
    constructor
    · rintro ⟨hlater, hnow, hmem⟩
      exact ⟨⟨hnow.symm, hlater⟩, hmem⟩
    · rintro ⟨⟨hnow, hlater⟩, hmem⟩
      exact ⟨hlater, Ne.symm hnow, hmem⟩

theorem converse_notify (h : r.Converse) :
    (collect (fun r d => r.notifyDeath (exitOf d)) r dead).1.Converse := by
  induction dead generalizing r with
  | nil => exact h
  | cons d dead ih => exact ih (converse_notifyDeath h (exitOf d))

/-- A batch reports each pair whose target is in it, once. -/
theorem count_notify : (collect (fun r d => r.notifyDeath (exitOf d)) r dead).2.countP
      (fun n => n.1 = watcher ∧ n.2.addr = target) =
    if target ∈ dead.map DeadActor.addr ∧ watcher ∈ valuesAt r.watchers target then 1 else 0 := by
  induction dead generalizing r with
  | nil => simp [collect]
  | cons d dead ih =>
    simp only [collect, andThen, countP_append, map_cons, mem_cons]
    rw [ih, count_notifyDeath]
    simp only [mem_notifyDeath, exitOf]
    by_cases hfirst : d.addr = target
    · simp [hfirst]
    · simp [hfirst, Ne.symm hfirst]

theorem mem_of_notified {n : ActorAddress × ActorExited}
    (hn : n ∈ (collect (fun r d => r.notifyDeath (exitOf d)) r dead).2) :
    n.1 ∈ valuesAt r.watchers n.2.addr ∧ ∃ d ∈ dead, n.2 = exitOf d := by
  induction dead generalizing r with
  | nil => simp [collect] at hn
  | cons d dead ih =>
    simp only [collect, andThen, mem_append] at hn
    rcases hn with hn | hn
    · obtain ⟨w, hw, rfl⟩ := mem_map.mp hn
      exact ⟨ExtTreeSet.mem_toList.mp hw, d, mem_cons_self, rfl⟩
    · obtain ⟨hmem, d', hd', heq⟩ := ih hn
      exact ⟨(mem_notifyDeath.mp hmem).2, d', mem_cons_of_mem d hd', heq⟩

end WatchRegistry

namespace GroupRegistry

/-- The members of a group are those that are in it. -/
def Converse (r : GroupRegistry) : Prop :=
  ∀ group addr, addr ∈ valuesAt r.groups group ↔ group ∈ valuesAt r.memberships addr

variable {r : GroupRegistry} {group : String} {addr : ActorAddress}

theorem converse_join (h : r.Converse) : (r.join group addr).Converse := by
  intro g a
  simp only [join, mem_valuesAt_add]
  rw [h g a, and_comm]

theorem converse_leave (h : r.Converse) : (r.leave group addr).Converse := by
  intro g a
  simp only [leave, mem_valuesAt_prune, mem_valuesAt_drop]
  rw [h g a, and_comm (a := group = g)]

theorem mem_cleanup (h : r.Converse) {dead : ActorAddress} :
    addr ∈ valuesAt (r.cleanup dead).groups group ↔
      addr ≠ dead ∧ addr ∈ valuesAt r.groups group := by
  simp only [cleanup]
  rw [mem_valuesAt_foldl fun _ _ _ _ => mem_valuesAt_prune, ExtTreeSet.mem_toList]
  constructor
  · rintro ⟨hmem, hdead⟩
    refine ⟨?_, hmem⟩
    rintro rfl
    exact hdead ⟨(h group addr).mp hmem, rfl⟩
  · rintro ⟨hne, hmem⟩
    exact ⟨hmem, fun hdead => hne hdead.2.symm⟩

theorem converse_cleanup (h : r.Converse) (dead : ActorAddress) : (r.cleanup dead).Converse := by
  intro g a
  rw [mem_cleanup h, h g a]
  simp only [cleanup, mem_valuesAt_erase, ne_comm]

end GroupRegistry

namespace StdExtension

variable {e : StdExtension}

/-- The two tables of each pair are converse to each other. -/
structure Converse (e : StdExtension) : Prop where
  watches : e.watchRegistry.Converse
  groups : e.groupRegistry.Converse

theorem Converse.cleanupDead (h : e.Converse) (dead : List ActorAddress) :
    (e.cleanupDead dead).Converse ∧
      (∀ watcher target, watcher ∈ valuesAt (e.cleanupDead dead).watchRegistry.watchers target ↔
        watcher ∉ dead ∧ watcher ∈ valuesAt e.watchRegistry.watchers target) ∧
      ∀ group addr, addr ∈ valuesAt (e.cleanupDead dead).groupRegistry.groups group ↔
        addr ∉ dead ∧ addr ∈ valuesAt e.groupRegistry.groups group := by
  induction dead generalizing e with
  | nil => simpa [StdExtension.cleanupDead] using h
  | cons a dead ih =>
    have hfirst : (e.cleanupAddr a).Converse :=
      ⟨WatchRegistry.converse_cleanupWatcher h.watches a, GroupRegistry.converse_cleanup h.groups a⟩
    obtain ⟨hconverse, hwatches, hgroups⟩ := ih hfirst
    refine ⟨hconverse, fun watcher target => ?_, fun group addr => ?_⟩
    · rw [StdExtension.cleanupDead, foldl_cons, ← StdExtension.cleanupDead, hwatches,
        mem_cons, not_or, and_comm (a := watcher ≠ a), and_assoc]
      exact and_congr_right fun _ => WatchRegistry.mem_cleanupWatcher h.watches
    · rw [StdExtension.cleanupDead, foldl_cons, ← StdExtension.cleanupDead, hgroups,
        mem_cons, not_or, and_comm (a := addr ≠ a), and_assoc]
      exact and_congr_right fun _ => GroupRegistry.mem_cleanup h.groups

/-- What the tables hold after a run. -/
structure Tracks (e : StdExtension) (past : List Op) : Prop extends Converse e where
  registered : ∀ watcher target, watcher ∈ valuesAt e.watchRegistry.watchers target ↔
    Registered past watcher target

variable {past : List Op}

theorem registered_concat {op : Op} {watcher target : ActorAddress} :
    Registered (past ++ [op]) watcher target ↔ op = .watch watcher target ∨
      Registered past watcher target ∧ ¬(op.kills watcher ∨ op.kills target) :=
  Trace.since_concat

theorem Tracks.deaths (h : Tracks e past) (dead : List DeadActor) :
    Tracks (e.call (.deaths dead)).1 (past ++ [.deaths dead]) ∧
      ∀ group, ∀ addr ∈ valuesAt (e.call (.deaths dead)).1.groupRegistry.groups group,
        addr ∉ dead.map DeadActor.addr := by
  have hnotified : (e.onActorDeath dead).1.Converse :=
    ⟨WatchRegistry.converse_notify h.watches, h.groups⟩
  obtain ⟨hconverse, hwatches, hgroups⟩ := hnotified.cleanupDead (dead.map DeadActor.addr)
  refine ⟨⟨hconverse, fun watcher target => ?_⟩, fun group addr haddr => ((hgroups _ _).mp haddr).1⟩
  rw [registered_concat, ← h.registered]
  refine (hwatches watcher target).trans ?_
  simp only [onActorDeath, WatchRegistry.mem_notify, Op.kills, reduceCtorEq, false_or]
  tauto

theorem Tracks.call (h : Tracks e past) (op : Op) : Tracks (e.call op).1 (past ++ [op]) := by
  cases op with
  | watch watcher target =>
    refine ⟨⟨WatchRegistry.converse_watch h.watches, h.groups⟩, fun w t => ?_⟩
    rw [registered_concat, ← h.registered]
    simp only [StdExtension.call, WatchRegistry.watch, mem_valuesAt_add, Op.kills, Op.watch.injEq]
    tauto
  | join group addr =>
    refine ⟨⟨h.watches, GroupRegistry.converse_join h.groups⟩, fun w t => ?_⟩
    simp [registered_concat, ← h.registered, StdExtension.call, Op.kills]
  | leave group addr =>
    refine ⟨⟨h.watches, GroupRegistry.converse_leave h.groups⟩, fun w t => ?_⟩
    simp [registered_concat, ← h.registered, StdExtension.call, Op.kills]
  | deaths dead => exact (h.deaths dead).1

theorem tracks_run (past : List Op) : Tracks (run past) past := by
  induction past using reverseRecOn with
  | nil =>
    refine ⟨⟨fun w t => ?_, fun g a => ?_⟩, fun w t => ?_⟩ <;> simp [run, Registered]
  | append_singleton past op ih =>
    rw [run, foldl_concat]
    exact ih.call op

/-- After every run the tables are converse relations. A batch of deaths reports to each watcher of
an actor in it once, with the reason of its death, and reports nothing else; afterwards the dead
are in no set of watchers, of targets or of members. -/
theorem deaths_reported_once (past : List Op) (dead : List DeadActor) :
    let e := run past
    let after := e.call (.deaths dead)
    (∀ watcher target, watcher ∈ valuesAt e.watchRegistry.watchers target ↔
      target ∈ valuesAt e.watchRegistry.watching watcher) ∧
    (∀ group addr, addr ∈ valuesAt e.groupRegistry.groups group ↔
      group ∈ valuesAt e.groupRegistry.memberships addr) ∧
    (∀ watcher target, target ∈ dead.map DeadActor.addr → Registered past watcher target →
      after.2.countP (fun n => n.1 = watcher ∧ n.2.addr = target) = 1) ∧
    (∀ n ∈ after.2, Registered past n.1 n.2.addr ∧ ∃ d ∈ dead, n.2 = exitOf d) ∧
    ∀ addr ∈ dead.map DeadActor.addr, ∀ other,
      (addr ∉ valuesAt after.1.watchRegistry.watchers other ∧
        other ∉ valuesAt after.1.watchRegistry.watchers addr) ∧
      (addr ∉ valuesAt after.1.watchRegistry.watching other ∧
        other ∉ valuesAt after.1.watchRegistry.watching addr) ∧
      ∀ group, addr ∉ valuesAt after.1.groupRegistry.groups group ∧
        group ∉ valuesAt after.1.groupRegistry.memberships addr := by
  intro e after
  have he := tracks_run past
  obtain ⟨hafter, hgroups⟩ := he.deaths dead
  have hgone : ∀ addr ∈ dead.map DeadActor.addr, ∀ other,
      addr ∉ valuesAt after.1.watchRegistry.watchers other ∧
        other ∉ valuesAt after.1.watchRegistry.watchers addr := by
    intro addr haddr other
    simp only [after, e, hafter.registered, registered_concat, Op.kills, reduceCtorEq, false_or]
    tauto
  refine ⟨he.watches, he.groups, fun watcher target htarget hregistered => ?_, fun n hn => ?_,
    fun addr haddr other => ⟨hgone addr haddr other, ?_, fun group => ?_⟩⟩
  · have hcount : after.2.countP (fun n => n.1 = watcher ∧ n.2.addr = target) = _ :=
      WatchRegistry.count_notify
    rw [hcount, if_pos ⟨htarget, (he.registered _ _).mpr hregistered⟩]
  · obtain ⟨hmem, hd⟩ := WatchRegistry.mem_of_notified hn
    exact ⟨(he.registered _ _).mp hmem, hd⟩
  · rw [← hafter.watches, ← hafter.watches]
    exact (hgone addr haddr other).symm
  · rw [← hafter.groups]
    exact ⟨fun hmem => hgroups group addr hmem haddr, fun hmem => hgroups group addr hmem haddr⟩

/-- A watcher and its target die in one batch. -/
example : ((run [.watch 1 2, .watch 3 2]).call
      (.deaths [⟨1, .normal, none⟩, ⟨2, .panicked, none⟩])).2 =
    [(1, ⟨2, .panicked, none⟩), (3, ⟨2, .panicked, none⟩)] := by
  decide +kernel

end StdExtension

end Swactor.Extension
