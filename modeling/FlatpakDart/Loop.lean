/-
Loops that return a value.

The body of a loop takes a state to the next one, or returns; `run` gives it a
number of steps to return in.

* `run_eq_some` — a loop whose rank falls with every step returns, and what it
  returns is what no step changes;
* `exists_last` — such a loop has a last round, and `run_of_last` — it returns there and
  not before;
* `after_invariant` — what every step carries on holds in every round.
-/
import Mathlib.Data.Nat.Notation

namespace Loop

variable {σ ρ : Type*}

/-- What the loop returns in at most `n` steps from `s`. -/
def run (body : σ → σ ⊕ ρ) : ℕ → σ → Option ρ
  | 0, _ => none
  | n + 1, s =>
    match body s with
    | .inl s' => run body n s'
    | .inr r => some r

/-- What holds of one step of a loop with the invariant `I`: it keeps the
invariant and the value to return, and the rank falls. -/
structure Ranked (body : σ → σ ⊕ ρ) (I : σ → Prop) (value : σ → ρ) (rank : σ → ℕ) : Prop where
  next : ∀ s s', I s → body s = .inl s' → I s' ∧ value s' = value s ∧ rank s' < rank s
  last : ∀ s r, I s → body s = .inr r → r = value s

/-- **Total correctness of a loop.** -/
theorem run_eq_some {body : σ → σ ⊕ ρ} {I : σ → Prop} {value : σ → ρ} {rank : σ → ℕ}
    (h : Ranked body I value rank) {s : σ} (hs : I s) {n : ℕ} (hn : rank s < n) :
    run body n s = some (value s) := by
  induction n generalizing s with
  | zero => exact absurd hn (Nat.not_lt_zero _)
  | succ n ih =>
    rw [run]
    cases hbody : body s with
    | inl s' =>
      obtain ⟨hs', hvalue, hrank⟩ := h.next s s' hs hbody
      rw [← hvalue]
      exact ih hs' (by omega)
    | inr r => exact congrArg some (h.last s r hs hbody)

/-! ### Rounds -/

/-- The state in which round `n` begins, if the loop has not returned before. -/
def after (body : σ → σ ⊕ ρ) : ℕ → σ → Option σ
  | 0, s => some s
  | n + 1, s =>
    match body s with
    | .inl s' => after body n s'
    | .inr _ => none

variable {body : σ → σ ⊕ ρ} {s u : σ}

@[simp] theorem after_zero (s : σ) : after body 0 s = some s := rfl

theorem after_next {s' : σ} (h : body s = .inl s') (n : ℕ) :
    after body (n + 1) s = after body n s' := by
  rw [after]
  simp only [h]

theorem after_succ_eq_some {n : ℕ} :
    after body (n + 1) s = some u ↔ ∃ s', body s = .inl s' ∧ after body n s' = some u := by
  rw [after]
  cases body s <;> simp

theorem run_next {s' : σ} (h : body s = .inl s') (n : ℕ) :
    run body (n + 1) s = run body n s' := by
  rw [run]
  simp only [h]

theorem run_return {r : ρ} (h : body s = .inr r) (n : ℕ) : run body (n + 1) s = some r := by
  rw [run]
  simp only [h]

/-- More steps change nothing. -/
theorem run_of_le {r : ρ} {n m : ℕ} (h : run body n s = some r) (hm : n ≤ m) :
    run body m s = some r := by
  induction n generalizing s m with
  | zero => cases h
  | succ n ih =>
    cases m with
    | zero => exact absurd hm (Nat.not_succ_le_zero n)
    | succ m =>
      cases hbody : body s with
      | inl s' =>
        rw [run_next hbody] at h ⊢
        exact ih h (Nat.le_of_succ_le_succ hm)
      | inr r' =>
        rw [run_return hbody] at h ⊢
        exact h

/-- A round that is reached comes after all earlier ones, each of which went on. -/
theorem after_of_lt {n m : ℕ} (h : after body n s = some u) (hm : m < n) :
    ∃ v v', after body m s = some v ∧ body v = .inl v' ∧ after body (m + 1) s = some v' := by
  induction n generalizing s m with
  | zero => exact absurd hm (Nat.not_lt_zero m)
  | succ n ih =>
    obtain ⟨s', hs, hrest⟩ := after_succ_eq_some.mp h
    cases m with
    | zero => exact ⟨s, s', after_zero s, hs, by rw [after_next hs, after_zero]⟩
    | succ m =>
      obtain ⟨v, v', hv, hbody, hnext⟩ := ih hrest (Nat.lt_of_succ_lt_succ hm)
      exact ⟨v, v', by rw [after_next hs, hv], hbody, by rw [after_next hs, hnext]⟩

/-- **Invariant rule**: what every step carries from one round to the next. -/
theorem after_invariant {I : ℕ → σ → Prop}
    (hstep : ∀ m s s', I m s → body s = .inl s' → I (m + 1) s') {n : ℕ}
    (h : after body n s = some u) (hs : I 0 s) : I n u := by
  induction n generalizing u with
  | zero => exact Option.some_inj.mp h ▸ hs
  | succ n ih =>
    obtain ⟨v, v', hv, hbody, hnext⟩ := after_of_lt h (Nat.lt_succ_self n)
    obtain rfl := Option.some_inj.mp (hnext.symm.trans h)
    exact hstep n v v' (ih hv) hbody

/-- The loop returns in its last round, and not before. -/
theorem run_of_last {n : ℕ} {r : ρ} (h : after body n s = some u) (hbody : body u = .inr r) :
    run body (n + 1) s = some r ∧ ∀ m ≤ n, run body m s = none := by
  induction n generalizing s with
  | zero =>
    obtain rfl := Option.some_inj.mp h
    refine ⟨run_return hbody 0, fun m hm => ?_⟩
    rw [Nat.le_zero.mp hm, run]
  | succ n ih =>
    obtain ⟨s', hs, hrest⟩ := after_succ_eq_some.mp h
    obtain ⟨hrun, hnone⟩ := ih hrest
    refine ⟨by rw [run_next hs, hrun], fun m hm => ?_⟩
    cases m with
    | zero => rw [run]
    | succ m => rw [run_next hs, hnone m (Nat.le_of_succ_le_succ hm)]

/-- **Termination**: a loop whose rank falls has a last round. -/
theorem exists_last {I : σ → Prop} {rank : σ → ℕ}
    (hstep : ∀ s s', I s → body s = .inl s' → I s' ∧ rank s' < rank s) (hs : I s) :
    ∃ n u r, after body n s = some u ∧ body u = .inr r := by
  induction hrank : rank s using Nat.strongRecOn generalizing s with
  | ind k ih =>
    cases hbody : body s with
    | inr r => exact ⟨0, s, r, after_zero s, hbody⟩
    | inl s' =>
      obtain ⟨hs', hlt⟩ := hstep s s' hs hbody
      obtain ⟨n, u, r, hafter, hlast⟩ := ih (rank s') (hrank ▸ hlt) hs' rfl
      exact ⟨n + 1, u, r, by rw [after_next hbody, hafter], hlast⟩

end Loop
