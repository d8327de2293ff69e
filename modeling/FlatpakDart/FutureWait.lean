/-
Waiting for several futures (`Future.wait` of `dart:async`).

The futures complete in any order; their values are kept by position.  Once all have
completed, the future of the list completes, with an error if one of them did.

`wait_perm` — whatever the order is, the list is that of the values.
-/
import Mathlib.Data.List.Induction
import Mathlib.Data.List.Range

namespace FutureWait

variable {α : Type*}

/-- The values so far, with `none` after an error, and how many futures have not
completed yet. -/
structure Wait (α : Type*) where
  values : Option (List (Option α))
  remaining : ℕ

def start (n : ℕ) : Wait α := ⟨some (List.replicate n none), n⟩

/-- The future at `pos` completes, with `none` for an error. -/
def Wait.complete (w : Wait α) (pos : ℕ) : Option α → Wait α
  | some value => ⟨w.values.map (·.set pos (some value)), w.remaining - 1⟩
  | none => ⟨none, w.remaining - 1⟩

/-- All the values, if none is missing. -/
def allSome : List (Option α) → Option (List α)
  | [] => some []
  | none :: _ => none
  | some a :: l => (allSome l).map (a :: ·)

/-- `none` while there are futures that have not completed. -/
def Wait.result (w : Wait α) : Option (Option (List α)) :=
  if w.remaining = 0 then some (w.values.bind allSome) else none

/-- The futures complete in this order. -/
def completeAll (outcomes : List (Option α)) (order : List ℕ) : Wait α :=
  order.foldl (fun w i => w.complete i (outcomes[i]?).join) (start outcomes.length)

/-- `Future.wait`, when the futures complete in this order. -/
def wait (outcomes : List (Option α)) (order : List ℕ) : Option (Option (List α)) :=
  (completeAll outcomes order).result

/-! ### The order does not matter -/

/-- What has come in from the futures that have completed. -/
def received (outcomes : List (Option α)) (done : List ℕ) : List (Option α) :=
  (List.range outcomes.length).map fun i => if i ∈ done then (outcomes[i]?).join else none

theorem completeAll_append (outcomes : List (Option α)) (done : List ℕ) (i : ℕ) :
    completeAll outcomes (done ++ [i]) =
      (completeAll outcomes done).complete i (outcomes[i]?).join := by
  rw [completeAll, List.foldl_append]
  rfl

theorem received_append {outcomes : List (Option α)} {done : List ℕ} {i : ℕ} {a : α}
    (h : (outcomes[i]?).join = some a) :
    received outcomes (done ++ [i]) = (received outcomes done).set i (some a) := by
  refine List.ext_getElem (by simp [received]) fun j hj hj' => ?_
  by_cases hij : i = j
  · subst hij
    simp [received, h]
  · simp [received, List.getElem_set_ne hij, Ne.symm hij]

theorem completeAll_spec (outcomes : List (Option α)) (done : List ℕ) :
    (completeAll outcomes done).remaining = outcomes.length - done.length ∧
      ((∀ i ∈ done, (outcomes[i]?).join ≠ none) →
        (completeAll outcomes done).values = some (received outcomes done)) ∧
      ((∃ i ∈ done, (outcomes[i]?).join = none) →
        (completeAll outcomes done).values = none) := by
  induction done using List.reverseRecOn with
  | nil => simp [completeAll, start, received, List.map_const']
  | append_singleton done i ih =>
    obtain ⟨hremaining, hvalues, herror⟩ := ih
    rw [completeAll_append]
    cases hi : (outcomes[i]?).join with
    | none =>
      refine ⟨?_, fun h => absurd hi (h i (by simp)), fun _ => rfl⟩
      show (completeAll outcomes done).remaining - 1 = _
      simp only [hremaining, List.length_append, List.length_singleton]
      omega
    | some a =>
      refine ⟨?_, fun h => ?_, ?_⟩
      · show (completeAll outcomes done).remaining - 1 = _
        simp only [hremaining, List.length_append, List.length_singleton]
        omega
      · rw [received_append hi, Wait.complete,
          hvalues fun j hj => h j (List.mem_append_left _ hj), Option.map_some]
      · rintro ⟨j, hj, hnone⟩
        have hj' : j ∈ done := by
          rcases List.mem_append.mp hj with hj | hj
          · exact hj
          · rw [List.mem_singleton.mp hj, hi] at hnone
            cases hnone
        rw [Wait.complete, herror ⟨j, hj', hnone⟩, Option.map_none]

theorem allSome_eq_none {l : List (Option α)} (h : none ∈ l) : allSome l = none := by
  induction l with
  | nil => cases h
  | cons o l ih =>
    cases o with
    | none => rfl
    | some a =>
      rw [allSome, ih ((List.mem_cons.mp h).resolve_left (by simp)), Option.map_none]

/-- **The values in their own order**, whatever the order of the completions is. -/
theorem wait_perm {outcomes : List (Option α)} {order : List ℕ}
    (h : order.Perm (List.range outcomes.length)) :
    wait outcomes order = some (allSome outcomes) := by
  have hlength : order.length = outcomes.length := by simpa using h.length_eq
  have hmem : ∀ i, i ∈ order ↔ i < outcomes.length := fun i => by
    rw [h.mem_iff, List.mem_range]
  have hreceived : received outcomes order = outcomes := by
    refine List.ext_getElem (by simp [received]) fun i hi hi' => ?_
    simp [received, hmem, hi']
  obtain ⟨hremaining, hvalues, herror⟩ := completeAll_spec outcomes order
  rw [wait, Wait.result, if_pos (by omega)]
  by_cases hfailed : ∃ i ∈ order, (outcomes[i]?).join = none
  · obtain ⟨i, hi, hnone⟩ := hfailed
    have hi' := (hmem i).mp hi
    rw [List.getElem?_eq_getElem hi', Option.join_some] at hnone
    rw [herror ⟨i, hi, by simp [hi', hnone]⟩, allSome_eq_none (hnone ▸ List.getElem_mem hi')]
    rfl
  · rw [hvalues fun i hi hnone => hfailed ⟨i, hi, hnone⟩, hreceived]
    rfl

theorem allSome_map_some (l : List α) : allSome (l.map some) = some l := by
  induction l with
  | nil => rfl
  | cons a l ih => rw [List.map_cons, allSome, ih, Option.map_some]

/-- Without an error every future has a value. -/
theorem ne_none_of_allSome {outcomes : List (Option α)} {values : List α}
    (h : allSome outcomes = some values) : none ∉ outcomes := by
  intro hnone
  rw [allSome_eq_none hnone] at h
  cases h

end FutureWait
