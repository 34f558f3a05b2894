import Swactor.Lib.Trace
import Swactor.Types

/-!
# Names of actors

The name registry maps names to addresses and, for the clean-up after an actor has died, addresses
back to names. An address may be registered under several names, but the second map keeps only the
last of them.
-/
namespace Swactor.Extension

open Machine
open Std (ExtTreeMap)

structure NameRegistry where
  names : ExtTreeMap String ActorAddress compare := ∅
  reverse : ExtTreeMap ActorAddress String compare := ∅

namespace NameRegistry

section

variable (r : NameRegistry) (name : String)

def register (addr : ActorAddress) : Except String NameRegistry :=
  if name ∈ r.names then .error "Name already registered"
  else .ok ⟨r.names.insert name addr, r.reverse.insert addr name⟩

def lookup : Option ActorAddress := r.names[name]?

def unregister : NameRegistry × Option ActorAddress :=
  match r.names[name]? with
  | none => (r, none)
  | some addr => (⟨r.names.erase name, r.reverse.erase addr⟩, some addr)

def unregisterByAddr (addr : ActorAddress) : NameRegistry :=
  match r.reverse[addr]? with
  | none => r
  | some name => ⟨r.names.erase name, r.reverse.erase addr⟩

/-- The operations that change the registry. -/
inductive Op
  | register (name : String) (addr : ActorAddress)
  | unregister (name : String)
  | unregisterByAddr (addr : ActorAddress)
deriving DecidableEq, Repr

def step : Op → NameRegistry
  | .register name addr => (r.register name addr).toOption.getD r
  | .unregister name => (r.unregister name).1
  | .unregisterByAddr addr => r.unregisterByAddr addr

/-- Every name of an address is the one that the address leads back to. -/
def Traceable : Prop :=
  ∀ name addr, r.lookup name = some addr → r.reverse[addr]? = some name

/-- No address that has a name is registered under another one. -/
def Unnamed : Op → Prop
  | .register name addr => r.lookup name = none → ∀ other, r.lookup other ≠ some addr
  | _ => True

end

variable {r : NameRegistry} {addr : ActorAddress}

theorem lookup_unregisterByAddr {name : String} :
    (r.unregisterByAddr addr).lookup name =
      if r.reverse[addr]? = some name then none else r.lookup name := by
  unfold unregisterByAddr lookup
  split
  · simp [*]
  · next other hother => simp [hother, Maps.getElem?_erase_ite]

/-- The death of an address removes its names exactly if it leads back to all of them. -/
theorem traceable_iff : r.Traceable ↔
    (∀ addr name, (r.unregisterByAddr addr).lookup name ≠ some addr) ∧
      ∀ name addr, r.lookup name = some addr → (r.unregisterByAddr addr).lookup name = none := by
  constructor
  · intro h
    constructor
    · intro addr name hname
      rw [lookup_unregisterByAddr] at hname
      split at hname
      · cases hname
      · next hother => exact hother (h name addr hname)
    · intro name addr hname
      rw [lookup_unregisterByAddr, if_pos (h name addr hname)]
  · rintro ⟨-, h⟩ name addr hname
    have hgone := h name addr hname
    rw [lookup_unregisterByAddr] at hgone
    split at hgone
    · assumption
    · rw [hname] at hgone
      cases hgone

theorem step_register {name : String} :
    r.step (.register name addr) =
      if r.lookup name = none then ⟨r.names.insert name addr, r.reverse.insert addr name⟩
      else r := by
  by_cases hname : name ∈ r.names
  · simp [step, register, lookup, hname, Except.toOption]
  · simp [step, register, lookup, hname, Except.toOption]

/-- A step keeps the names traceable exactly if it gives no second name to an address. -/
theorem traceable_step_iff {op : Op} (h : r.Traceable) : (r.step op).Traceable ↔ r.Unnamed op := by
  cases op with
  | register name addr =>
    rw [step_register]
    split
    · next hfree =>
      constructor
      · intro hstep _ other hother
        have hne : name ≠ other := by
          rintro rfl
          cases hfree.symm.trans hother
        have hback :=
          hstep other addr (by simpa [lookup, Maps.getElem?_insert_ite, hne] using hother)
        simp only [Maps.getElem?_insert_ite, if_true, Option.some.injEq] at hback
        exact hne hback
      · intro hnone other addr' hother
        simp only [lookup, Maps.getElem?_insert_ite] at hother ⊢
        split at hother
        · next hsame => simp_all
        · have hback := h other addr' hother
          rwa [if_neg]
          rintro rfl
          exact hnone hfree other hother
    · next hbound => exact ⟨fun _ hfree => absurd hfree hbound, fun _ => h⟩
  | unregister name =>
    refine ⟨fun _ => trivial, fun _ => ?_⟩
    simp only [step, unregister]
    split
    · exact h
    · next addr haddr =>
      intro other addr' hother
      simp only [lookup, Maps.getElem?_erase_ite] at hother ⊢
      split at hother
      · cases hother
      · next hne =>
        rw [if_neg]
        · exact h other addr' hother
        · rintro rfl
          exact hne (Option.some.inj ((h name addr haddr).symm.trans (h other addr hother)))
  | unregisterByAddr addr =>
    refine ⟨fun _ => trivial, fun _ => ?_⟩
    intro other addr' hother
    simp only [step, lookup_unregisterByAddr] at hother
    split at hother
    · cases hother
    · next hne =>
      have hback := h other addr' hother
      simp only [step, unregisterByAddr]
      split
      · exact hback
      · rw [Maps.getElem?_erase_ite, if_neg]
        · exact hback
        · rintro rfl
          exact hne hback

/-- Throughout a run an address that dies takes all its names with it, exactly if no address that
has a name is registered under another one. -/
theorem names_die_with_address_iff (ops : List Op) :
    (∀ past, past <+: ops →
      (∀ addr name, ((past.foldl step {}).unregisterByAddr addr).lookup name ≠ some addr) ∧
      ∀ name addr, (past.foldl step {}).lookup name = some addr →
        ((past.foldl step {}).unregisterByAddr addr).lookup name = none) ↔
      Guarded Unnamed step {} ops := by
  simp only [← traceable_iff]
  apply Trace.forall_prefix_iff_guarded (P := Traceable)
  · exact fun r op _ h => (traceable_step_iff h).mpr
  · exact fun r op _ h => (traceable_step_iff h).mp
  · exact fun _ => id
  · intro name addr hname
    simp [lookup] at hname

/-- The second name takes the place of the first in the way back, and the death of the address
leaves the first bound to it. -/
theorem first_name_outlives_address :
    ([.register "first" 1, .register "second" 1, .unregisterByAddr 1].foldl step {}).lookup
      "first" = some 1 := by
  decide +kernel

end NameRegistry

end Swactor.Extension
