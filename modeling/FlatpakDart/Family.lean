/-
Copies of one machine side by side, each with a key.

An action is one of one copy, so a run of the family is an interleaving of runs of
the copies.

* `run_lift`, `run_other` — a run of one copy is a run of the family, and leaves the
  other copies as they are;
* `atMostOne_update` — when a step of one copy keeps "at most one copy of a key".
-/
import FlatpakDart.Machine
import Mathlib.Logic.Function.Basic

namespace Family

variable {ι σ α κ : Type*} [DecidableEq ι] {step : σ → α → Option σ}

/-- One step of one copy. -/
def familyStep (step : σ → α → Option σ) (s : ι → σ) (a : ι × α) : Option (ι → σ) :=
  (step (s a.1) a.2).map (Function.update s a.1)

theorem familyStep_eq_some {s t : ι → σ} {a : ι × α} : familyStep step s a = some t ↔
    ∃ c, step (s a.1) a.2 = some c ∧ Function.update s a.1 c = t :=
  Option.map_eq_some_iff

/-- What the steps of a machine preserve, the family has in each copy. -/
theorem familyStep_invariant {I : σ → Prop} (hstep : ∀ {s a t}, step s a = some t → I s → I t)
    {s t : ι → σ} {a : ι × α} (h : familyStep step s a = some t) (hs : ∀ i, I (s i)) (i : ι) :
    I (t i) := by
  obtain ⟨c, hc, rfl⟩ := familyStep_eq_some.mp h
  rw [Function.update_apply]
  split
  · exact hstep hc (hs a.1)
  · exact hs i

theorem run_lift {s : ι → σ} {i : ι} {as : List α} {c : σ}
    (h : Machine.run step (s i) as = some c) :
    Machine.run (familyStep step) s (as.map (i, ·)) = some (Function.update s i c) := by
  induction as generalizing s with
  | nil =>
    obtain rfl := Option.some_inj.mp h
    rw [Function.update_eq_self]
    rfl
  | cons a as ih =>
    obtain ⟨d, hd, hrest⟩ := Machine.run_cons_eq_some.mp h
    refine Machine.run_cons_eq_some.mpr ⟨Function.update s i d, ?_, ?_⟩
    · exact familyStep_eq_some.mpr ⟨d, hd, rfl⟩
    · rw [ih (s := Function.update s i d) (by rwa [Function.update_self]), Function.update_idem]

theorem run_other {s t : ι → σ} {k : ι} {as : List (ι × α)} (hk : ∀ a ∈ as, a.1 ≠ k)
    (h : Machine.run (familyStep step) s as = some t) : t k = s k := by
  refine Machine.run_invariant_along (I := fun u => u k = s k) (fun u a v htakes hu => ?_) h rfl
  obtain ⟨c, -, rfl⟩ := familyStep_eq_some.mp htakes.step_eq
  rw [Function.update_of_ne (hk a htakes.mem).symm, hu]

/-! ### At most one copy of a key -/

/-- Of the copies with one key, at most one satisfies `P`. -/
def AtMostOne (key : ι → κ) (P : σ → Prop) (s : ι → σ) : Prop :=
  ∀ i j, key i = key j → P (s i) → P (s j) → i = j

theorem atMostOne_update {key : ι → κ} {P : σ → Prop} {s : ι → σ} (hs : AtMostOne key P s) (i : ι)
    (c : σ) : AtMostOne key P (Function.update s i c) ↔
      (P c → ∀ j, j ≠ i → key j = key i → ¬ P (s j)) := by
  constructor
  · intro h hc j hj hkey hPj
    refine hj (h j i hkey ?_ ?_)
    · rwa [Function.update_of_ne hj]
    · rwa [Function.update_self]
  · intro h j k hkey hj hk
    by_cases hji : j = i
    · by_cases hki : k = i
      · rw [hji, hki]
      · rw [hji, Function.update_self] at hj
        rw [Function.update_of_ne hki] at hk
        exact absurd hk (h hj k hki (by rw [← hkey, hji]))
    · rw [Function.update_of_ne hji] at hj
      by_cases hki : k = i
      · rw [hki, Function.update_self] at hk
        exact absurd hj (h hk j hji (by rw [hkey, hki]))
      · rw [Function.update_of_ne hki] at hk
        exact hs j k hkey hj hk

/-- A step after which `P` holds only if it did before keeps "at most one". -/
theorem atMostOne_of_imp {key : ι → κ} {P : σ → Prop} {s : ι → σ} (hs : AtMostOne key P s) {i : ι}
    {c : σ} (hc : P c → P (s i)) : AtMostOne key P (Function.update s i c) :=
  (atMostOne_update hs i c).mpr fun h j hj hkey hPj => hj (hs j i hkey hPj (hc h))

end Family
