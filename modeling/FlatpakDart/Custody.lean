/-
Things that change hands.

A ledger says what each holder has in hand.  `Inv known hands` says that the
known things, and no others, are each in one pair of hands, and there once.

* `Inv.exists_unique` — a known thing has exactly one holder;
* `Inv.acquire`, `Inv.transfer` — a new thing comes in, and two holders share out
  between them what they had.
-/
import Mathlib.Data.List.Nodup
import Mathlib.Data.List.Perm.Basic
import Mathlib.Logic.Function.Basic

namespace Custody

variable {P α : Type*}

/-- Every known thing is in exactly one place of exactly one holder's list. -/
structure Inv (known : List α) (hands : P → List α) : Prop where
  nodup : ∀ p, (hands p).Nodup
  exclusive : ∀ {p q x}, x ∈ hands p → x ∈ hands q → p = q
  covered : ∀ x, x ∈ known ↔ ∃ p, x ∈ hands p

variable {known : List α} {hands : P → List α}

theorem inv_nil : Inv ([] : List α) (fun _ : P => []) where
  nodup _ := List.nodup_nil
  exclusive h := absurd h List.not_mem_nil
  covered x := by simp

theorem Inv.exists_unique (h : Inv known hands) {x : α} (hx : x ∈ known) : ∃! p, x ∈ hands p := by
  obtain ⟨p, hp⟩ := (h.covered x).mp hx
  exact ⟨p, hp, fun q hq => h.exclusive hq hp⟩

theorem Inv.known_of_mem (h : Inv known hands) {p : P} {x : α} (hx : x ∈ hands p) : x ∈ known :=
  (h.covered x).mpr ⟨p, hx⟩

variable [DecidableEq P]

theorem mem_update {p q : P} {xs : List α} {x : α} :
    x ∈ Function.update hands p xs q ↔ (q = p ∧ x ∈ xs) ∨ (q ≠ p ∧ x ∈ hands q) := by
  by_cases hq : q = p
  · subst hq
    simp
  · simp [hq]

/-- A thing that was not known comes into somebody's hands. -/
theorem Inv.acquire (h : Inv known hands) {x : α} (hx : x ∉ known) {p : P} {xs : List α}
    (hxs : xs.Perm (x :: hands p)) : Inv (x :: known) (Function.update hands p xs) where
  nodup q := by
    by_cases hq : q = p
    · subst hq
      rw [Function.update_self, hxs.nodup_iff, List.nodup_cons]
      exact ⟨fun hmem => hx (h.known_of_mem hmem), h.nodup q⟩
    · rw [Function.update_of_ne hq]
      exact h.nodup q
  exclusive {q r y} hq hr := by
    rw [mem_update, hxs.mem_iff, List.mem_cons] at hq hr
    -- either both hold the new thing, or both held it before
    have hback {q : P} (hq : q = p ∧ (y = x ∨ y ∈ hands p) ∨ q ≠ p ∧ y ∈ hands q) :
        q = p ∧ y = x ∨ y ∈ hands q := by
      rcases hq with ⟨rfl, hy | hy⟩ | ⟨-, hy⟩
      · exact .inl ⟨rfl, hy⟩
      · exact .inr hy
      · exact .inr hy
    rcases hback hq with ⟨hqp, hy⟩ | hq'
    · rcases hback hr with ⟨hrp, -⟩ | hr'
      · exact hqp.trans hrp.symm
      · exact absurd (h.known_of_mem hr') (hy ▸ hx)
    · rcases hback hr with ⟨-, hy⟩ | hr'
      · exact absurd (h.known_of_mem hq') (hy ▸ hx)
      · exact h.exclusive hq' hr'
  covered y := by
    simp only [mem_update, hxs.mem_iff, List.mem_cons, h.covered y]
    constructor
    · rintro (rfl | ⟨q, hq⟩)
      · exact ⟨p, .inl ⟨rfl, .inl rfl⟩⟩
      · by_cases hqp : q = p
        · exact ⟨q, .inl ⟨hqp, .inr (hqp ▸ hq)⟩⟩
        · exact ⟨q, .inr ⟨hqp, hq⟩⟩
    · rintro ⟨q, ⟨rfl, rfl | hq⟩ | ⟨-, hq⟩⟩
      · exact .inl rfl
      · exact .inr ⟨q, hq⟩
      · exact .inr ⟨q, hq⟩

theorem mem_update_update {p q : P} (hpq : p ≠ q) {xs ys : List α} {r : P} {x : α} :
    x ∈ Function.update (Function.update hands p xs) q ys r ↔
      (r = p ∧ x ∈ xs) ∨ (r = q ∧ x ∈ ys) ∨ (r ≠ p ∧ r ≠ q ∧ x ∈ hands r) := by
  simp only [mem_update]
  constructor
  · rintro (⟨rfl, hx⟩ | ⟨hrq, ⟨rfl, hx⟩ | ⟨hrp, hx⟩⟩)
    · exact .inr (.inl ⟨rfl, hx⟩)
    · exact .inl ⟨rfl, hx⟩
    · exact .inr (.inr ⟨hrp, hrq, hx⟩)
  · rintro (⟨rfl, hx⟩ | ⟨rfl, hx⟩ | ⟨hrp, hrq, hx⟩)
    · exact .inr ⟨hpq, .inl ⟨rfl, hx⟩⟩
    · exact .inl ⟨rfl, hx⟩
    · exact .inr ⟨hrq, .inr ⟨hrp, hx⟩⟩

/-- Two holders share out what they had. -/
theorem Inv.transfer (h : Inv known hands) {p q : P} (hpq : p ≠ q) {xs ys : List α}
    (hperm : (xs ++ ys).Perm (hands p ++ hands q)) :
    Inv known (Function.update (Function.update hands p xs) q ys) := by
  have hnodup : (xs ++ ys).Nodup := by
    rw [hperm.nodup_iff, List.nodup_append']
    exact ⟨h.nodup p, h.nodup q, fun x hx hx' => hpq (h.exclusive hx hx')⟩
  -- what the two have now is what they had
  have hshare (x : α) : x ∈ xs ∨ x ∈ ys ↔ x ∈ hands p ∨ x ∈ hands q := by
    rw [← List.mem_append, hperm.mem_iff, List.mem_append]
  have hdisjoint : ∀ x ∈ xs, x ∉ ys := fun x hx hy => (List.nodup_append'.mp hnodup).2.2 hx hy
  constructor
  case nodup =>
    intro r
    by_cases hq : r = q
    · subst hq
      rw [Function.update_self]
      exact (List.nodup_append'.mp hnodup).2.1
    · rw [Function.update_of_ne hq]
      by_cases hp : r = p
      · subst hp
        rw [Function.update_self]
        exact (List.nodup_append'.mp hnodup).1
      · rw [Function.update_of_ne hp]
        exact h.nodup r
  case exclusive =>
    intro r r' x hr hr'
    rw [mem_update_update hpq] at hr hr'
    -- a third holder has nothing of what the two share out
    have hout {r : P} (hrp : r ≠ p) (hrq : r ≠ q) (hx : x ∈ hands r) : ¬ (x ∈ xs ∨ x ∈ ys) := by
      rw [hshare]
      rintro (hx' | hx')
      · exact hrp (h.exclusive hx hx')
      · exact hrq (h.exclusive hx hx')
    rcases hr with ⟨rfl, hx⟩ | ⟨rfl, hx⟩ | ⟨hrp, hrq, hx⟩
    · rcases hr' with ⟨rfl, hx'⟩ | ⟨rfl, hx'⟩ | ⟨hrp', hrq', hx'⟩
      · rfl
      · exact absurd hx' (hdisjoint x hx)
      · exact absurd (.inl hx) (hout hrp' hrq' hx')
    · rcases hr' with ⟨rfl, hx'⟩ | ⟨rfl, hx'⟩ | ⟨hrp', hrq', hx'⟩
      · exact absurd hx (hdisjoint x hx')
      · rfl
      · exact absurd (.inr hx) (hout hrp' hrq' hx')
    · rcases hr' with ⟨rfl, hx'⟩ | ⟨rfl, hx'⟩ | ⟨-, -, hx'⟩
      · exact absurd (.inl hx') (hout hrp hrq hx)
      · exact absurd (.inr hx') (hout hrp hrq hx)
      · exact h.exclusive hx hx'
  case covered =>
    intro x
    rw [h.covered x]
    simp only [mem_update_update hpq]
    constructor
    · rintro ⟨r, hr⟩
      by_cases hrpq : r = p ∨ r = q
      · have hx : x ∈ hands p ∨ x ∈ hands q := by
          rcases hrpq with rfl | rfl
          · exact .inl hr
          · exact .inr hr
        rcases (hshare x).mpr hx with hx | hx
        · exact ⟨p, .inl ⟨rfl, hx⟩⟩
        · exact ⟨q, .inr (.inl ⟨rfl, hx⟩)⟩
      · rw [not_or] at hrpq
        exact ⟨r, .inr (.inr ⟨hrpq.1, hrpq.2, hr⟩)⟩
    · rintro ⟨r, ⟨rfl, hx⟩ | ⟨rfl, hx⟩ | ⟨-, -, hx⟩⟩
      · exact ((hshare x).mp (.inl hx)).elim (fun h => ⟨_, h⟩) fun h => ⟨_, h⟩
      · exact ((hshare x).mp (.inr hx)).elim (fun h => ⟨_, h⟩) fun h => ⟨_, h⟩
      · exact ⟨r, hx⟩

end Custody
