/-
Lists of one length that differ in one place.

* `DifferOnce.split` — the place, with what lies before and behind it in common;
* `foldl_ne` — a fold tells such lists apart, if each of its steps can be undone and
  no step takes two elements for one.
-/
import Mathlib.Data.List.Basic
import Mathlib.Logic.ExistsUnique

variable {α σ : Type*}

/-- The lists have one length, and differ in exactly one position. -/
structure DifferOnce (xs ys : List α) : Prop where
  length_eq : xs.length = ys.length
  position : ∃! i : ℕ, xs[i]? ≠ ys[i]?

namespace DifferOnce

variable {xs ys : List α} {x y : α}

theorem ne (h : DifferOnce xs ys) : xs ≠ ys := by
  rintro rfl
  obtain ⟨i, hi, -⟩ := h.position
  exact hi rfl

/-- Behind a difference there is none. -/
theorem tail_eq (h : DifferOnce (x :: xs) (y :: ys)) (hne : x ≠ y) : xs = ys := by
  have hzero : (x :: xs)[0]? ≠ (y :: ys)[0]? := fun heq => hne (Option.some_inj.mp heq)
  refine List.ext_getElem? fun i => ?_
  by_contra hi
  have hsucc : (x :: xs)[i + 1]? ≠ (y :: ys)[i + 1]? := hi
  exact absurd (h.position.unique hzero hsucc) (Nat.succ_ne_zero i).symm

/-- Behind equal elements, the difference is still to come. -/
theorem tail (h : DifferOnce (x :: xs) (x :: ys)) : DifferOnce xs ys where
  length_eq := Nat.succ.inj h.length_eq
  position := by
    obtain ⟨i, hi, hunique⟩ := h.position
    cases i with
    | zero => exact absurd rfl hi
    | succ i => exact ⟨i, hi, fun j hj => Nat.succ.inj (hunique (j + 1) hj)⟩

/-- **The place where they differ.** -/
theorem split (h : DifferOnce xs ys) : ∃ front x y back,
    xs = front ++ x :: back ∧ ys = front ++ y :: back ∧ x ≠ y := by
  induction xs generalizing ys with
  | nil =>
    obtain rfl := List.eq_nil_of_length_eq_zero h.length_eq.symm
    exact absurd rfl h.ne
  | cons x xs ih =>
    cases ys with
    | nil => exact absurd h.length_eq (by simp)
    | cons y ys =>
      by_cases hne : x = y
      · subst hne
        obtain ⟨front, a, b, back, rfl, rfl, hab⟩ := ih h.tail
        exact ⟨x :: front, a, b, back, rfl, rfl, hab⟩
      · exact ⟨[], x, y, xs, rfl, by rw [h.tail_eq hne, List.nil_append], hne⟩

/-- One element in a common context makes such lists. -/
theorem of_split (front : List α) (hne : x ≠ y) (back : List α) :
    DifferOnce (front ++ x :: back) (front ++ y :: back) where
  length_eq := by simp
  position := by
    refine ⟨front.length, by simpa using hne, fun i hi => ?_⟩
    rcases Nat.lt_trichotomy i front.length with hlt | heq | hgt
    · exact absurd (by simp [List.getElem?_append_left hlt]) hi
    · exact heq
    · obtain ⟨k, rfl⟩ := Nat.exists_eq_add_of_lt hgt
      rw [Nat.add_assoc, List.getElem?_append_right (Nat.le_add_right _ _),
        List.getElem?_append_right (Nat.le_add_right _ _), Nat.add_sub_cancel_left] at hi
      exact absurd rfl hi

end DifferOnce

/-- A fold whose steps can be undone keeps states apart. -/
theorem foldl_injective {f : σ → α → σ} (hf : ∀ a, Function.Injective fun s => f s a)
    (xs : List α) : Function.Injective fun s => xs.foldl f s := by
  induction xs with
  | nil => exact Function.injective_id
  | cons x xs ih => exact ih.comp (hf x)

/-- **A fold tells lists apart that differ once.** -/
theorem foldl_ne {f : σ → α → σ} (hstate : ∀ a, Function.Injective fun s => f s a)
    (helement : ∀ s, Function.Injective (f s)) {xs ys : List α} (h : DifferOnce xs ys) (s : σ) :
    xs.foldl f s ≠ ys.foldl f s := by
  obtain ⟨front, x, y, back, rfl, rfl, hne⟩ := h.split
  rw [List.foldl_append, List.foldl_append, List.foldl_cons, List.foldl_cons]
  exact fun heq => hne (helement _ (foldl_injective hstate back heq))
