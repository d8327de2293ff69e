/-
Slots that are used again, by tenants that never come back.

A tenant belongs to one slot.  It may be admitted while its slot is free, and
evicted; nobody is admitted a second time.  A table carries the proof that every
holder was admitted to the slot it holds.

* `departed_of_holds` — of two tenants of a slot, the one that does not hold it
  has left;
* `departed_step` — and it has left for good.

So a tenant seen in its slot twice has held it all the time between.
-/
import FlatpakDart.Machine
import Mathlib.Logic.Function.Basic

namespace Tenancy

variable {S T : Type*}

/-- Who holds each slot, and everybody who was ever admitted. -/
structure Table (slot : T → S) where
  holder : S → Option T
  admitted : List T
  holds : ∀ {i t}, holder i = some t → t ∈ admitted ∧ slot t = i

/-- A tenant moves in, or out. -/
inductive Change (T : Type*)
  | enter (t : T)
  | evict (t : T)

variable {slot : T → S}

namespace Table

def empty : Table slot := ⟨fun _ => none, [], nofun⟩

/-- It was there, and is gone. -/
def Departed (tb : Table slot) (t : T) : Prop := t ∈ tb.admitted ∧ tb.holder (slot t) ≠ some t

theorem admitted_of_holds {tb : Table slot} {i : S} {t : T} (h : tb.holder i = some t) :
    t ∈ tb.admitted := (tb.holds h).1

theorem slot_eq_of_holds {tb : Table slot} {i : S} {t : T} (h : tb.holder i = some t) :
    slot t = i := (tb.holds h).2

/-- Of two tenants of one slot, the one that does not hold it is gone. -/
theorem departed_of_holds {tb : Table slot} {i : S} {t u : T} (hu : u ∈ tb.admitted)
    (hslot : slot u = i) (ht : tb.holder i = some t) (hne : u ≠ t) : tb.Departed u := by
  refine ⟨hu, ?_⟩
  rw [hslot, ht]
  exact fun h => hne (Option.some_inj.mp h).symm

theorem Departed.not_holds {tb : Table slot} {t : T} (h : tb.Departed t) (i : S) :
    tb.holder i ≠ some t := by
  intro hi
  exact h.2 (slot_eq_of_holds hi ▸ hi)

/-! ### Moving in and out -/

variable [DecidableEq S] [DecidableEq T]

def enter (tb : Table slot) (t : T) : Table slot where
  holder := Function.update tb.holder (slot t) (some t)
  admitted := t :: tb.admitted
  holds {i u} h := by
    by_cases hi : i = slot t
    · subst hi
      rw [Function.update_self, Option.some_inj] at h
      exact ⟨by simp [h], congrArg slot h.symm⟩
    · rw [Function.update_of_ne hi] at h
      exact ⟨List.mem_cons_of_mem _ (tb.holds h).1, (tb.holds h).2⟩

def evict (tb : Table slot) (t : T) : Table slot where
  holder := Function.update tb.holder (slot t) none
  admitted := tb.admitted
  holds {i u} h := by
    by_cases hi : i = slot t
    · subst hi
      rw [Function.update_self] at h
      exact absurd h (by simp)
    · rw [Function.update_of_ne hi] at h
      exact tb.holds h

/-- A free slot is let to somebody new; a holder moves out. -/
def step (tb : Table slot) : Change T → Option (Table slot)
  | .enter t => if tb.holder (slot t) = none ∧ t ∉ tb.admitted then some (tb.enter t) else none
  | .evict t => if tb.holder (slot t) = some t then some (tb.evict t) else none

theorem admitted_step {tb tb' : Table slot} {c : Change T} (hstep : tb.step c = some tb') {t : T}
    (h : t ∈ tb.admitted) : t ∈ tb'.admitted := by
  cases c with
  | enter u =>
    obtain ⟨-, rfl⟩ := Option.ite_none_right_eq_some.mp hstep |>.imp_right Option.some_inj.mp
    exact List.mem_cons_of_mem _ h
  | evict u =>
    obtain ⟨-, rfl⟩ := Option.ite_none_right_eq_some.mp hstep |>.imp_right Option.some_inj.mp
    exact h

/-- **Gone for good.** -/
theorem departed_step {tb tb' : Table slot} {c : Change T} (hstep : tb.step c = some tb') {t : T}
    (h : tb.Departed t) : tb'.Departed t := by
  refine ⟨admitted_step hstep h.1, ?_⟩
  cases c with
  | enter u =>
    obtain ⟨⟨-, hnew⟩, rfl⟩ :=
      Option.ite_none_right_eq_some.mp hstep |>.imp_right Option.some_inj.mp
    by_cases hi : slot t = slot u
    · -- whoever moves in there is new
      rw [show (tb.enter u).holder (slot t) = some u by rw [hi]; exact Function.update_self ..]
      rintro heq
      exact hnew (Option.some_inj.mp heq ▸ h.1)
    · rw [show (tb.enter u).holder (slot t) = tb.holder (slot t) from Function.update_of_ne hi ..]
      exact h.2
  | evict u =>
    obtain ⟨-, rfl⟩ := Option.ite_none_right_eq_some.mp hstep |>.imp_right Option.some_inj.mp
    by_cases hi : slot t = slot u
    · rw [show (tb.evict u).holder (slot t) = none by rw [hi]; exact Function.update_self ..]
      simp
    · rw [show (tb.evict u).holder (slot t) = tb.holder (slot t) from Function.update_of_ne hi ..]
      exact h.2

end Table

end Tenancy
