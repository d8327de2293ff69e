/-
Fields of a line: trimming, and splitting at runs of separators.

* `trim_eq_self` — a list that neither begins nor ends with a separator is kept;
* `trim_surround`, `trim_append` — what is kept of a list that others are put around;
* `splitRuns_joinRuns` — words with runs of separators between them are read back.
-/
import Mathlib.Data.List.DropRight

namespace Fields

variable {α : Type*} {p : α → Bool}

/-! ### Trimming -/

/-- Neither end of the list is a separator. -/
def Trimmed (p : α → Bool) (l : List α) : Prop :=
  ∀ c, l.head? = some c ∨ l.getLast? = some c → p c = false

instance (p : α → Bool) (l : List α) : Decidable (Trimmed p l) :=
  decidable_of_iff ((∀ c ∈ l.head?, p c = false) ∧ ∀ c ∈ l.getLast?, p c = false)
    (by simp only [Trimmed, or_imp, forall_and, Option.mem_def])

/-- The list without the separators at its ends. -/
def trim (p : α → Bool) (l : List α) : List α := (l.dropWhile p).rdropWhile p

theorem trim_eq_self {l : List α} (h : Trimmed p l) : trim p l = l := by
  have hfront : l.dropWhile p = l := by
    cases l with
    | nil => rfl
    | cons c cs => exact List.dropWhile_cons_of_neg (by simp [h c (.inl rfl)])
  rw [trim, hfront, List.rdropWhile_eq_self_iff]
  intro hne
  simp [h (l.getLast hne) (.inr (List.getLast?_eq_some_getLast hne))]

theorem trim_ne_nil {l : List α} {c : α} (hc : c ∈ l) (h : p c = false) : trim p l ≠ [] := by
  intro hnil
  -- the end that is left is a separator, or nothing is left at the front
  have hfront : ∀ x ∈ l.dropWhile p, p x = true := List.rdropWhile_eq_nil_iff.mp hnil
  have hmem : c ∈ l.takeWhile p ++ l.dropWhile p := by rwa [List.takeWhile_append_dropWhile]
  rcases List.mem_append.mp hmem with hmem | hmem
  · rw [List.mem_takeWhile_imp hmem] at h
    cases h
  · rw [hfront c hmem] at h
    cases h

/-- Separators around a list are taken away with its own. -/
theorem trim_surround {front back : List α} (hfront : ∀ c ∈ front, p c = true)
    (hback : ∀ c ∈ back, p c = true) (l : List α) : trim p (front ++ l ++ back) = trim p l := by
  have hdrop : ∀ l : List α, (l ++ back).rdropWhile p = l.rdropWhile p := by
    intro l
    rw [List.rdropWhile, List.reverse_append,
      List.dropWhile_append_of_pos fun c hc => hback c (List.mem_reverse.mp hc), ← List.rdropWhile]
  rw [trim, trim, List.append_assoc, List.dropWhile_append_of_pos hfront, List.dropWhile_append]
  split
  · next hnil =>
    -- nothing is left at the front, so the list is separators only
    rw [List.isEmpty_iff.mp hnil, List.rdropWhile_nil, List.rdropWhile_eq_nil_iff]
    exact fun c hc => hback c ((List.dropWhile_sublist p).subset hc)
  · exact hdrop _

theorem trimmed_trim (l : List α) : Trimmed p (trim p l) := by
  rintro c (hc | hc)
  · -- the first one that was kept is the first one of what was not dropped
    obtain ⟨rest, hrest⟩ := List.rdropWhile_prefix p (l := l.dropWhile p)
    rw [trim] at hc
    have hhead : (l.dropWhile p).head? = some c := by
      rw [← hrest, List.head?_append, hc]
      rfl
    have hnot := List.head?_dropWhile_not p l
    rwa [hhead] at hnot
  · have hne : trim p l ≠ [] := List.ne_nil_of_mem (List.mem_of_getLast? hc)
    have hlast := List.rdropWhile_last_not p (l.dropWhile p) hne
    rw [List.getLast?_eq_some_getLast hne] at hc
    obtain rfl := Option.some.inj hc
    exact Bool.eq_false_iff.mpr hlast

/-- A list is what is kept of it, between separators. -/
theorem takeWhile_trim (p : α → Bool) (l : List α) :
    l.takeWhile p ++ (trim p l ++ (l.dropWhile p).rtakeWhile p) = l := by
  rw [trim, List.rdropWhile_append_rtakeWhile, List.takeWhile_append_dropWhile]

theorem trimmed_nil : Trimmed p [] := by
  rintro c (hc | hc)
  · cases hc
  · cases hc

/-- Behind a beginning without separators at its ends, a list is cut at its end only. -/
theorem trim_append {a : List α} (hne : a ≠ []) (ha : Trimmed p a) (r : List α) :
    ∃ r', r' <+: r ∧ trim p (a ++ r) = a ++ r' ∧ trim p r' = trim p r := by
  have hnone : ∀ c ∈ ([] : List α), p c = true := by simp
  by_cases hkept : trim p r = []
  · have hspace : ∀ c ∈ r, p c = true := fun c hc => by
      by_contra h
      exact trim_ne_nil hc (Bool.eq_false_iff.mpr h) hkept
    have h := trim_surround hnone hspace a
    rw [List.nil_append, trim_eq_self ha] at h
    exact ⟨[], List.nil_prefix, by rw [h, List.append_nil], by rw [hkept]; rfl⟩
  · have hends : Trimmed p (a ++ (r.takeWhile p ++ trim p r)) := by
      rintro c (hc | hc)
      · rw [List.head?_append_of_ne_nil _ hne] at hc
        exact ha c (.inl hc)
      · rw [← List.append_assoc, List.getLast?_append_of_ne_nil _ hkept] at hc
        exact trimmed_trim r c (.inr hc)
    have hfront : ∀ c ∈ r.takeWhile p, p c = true := fun c hc => List.mem_takeWhile_imp hc
    have hback : ∀ c ∈ (r.dropWhile p).rtakeWhile p, p c = true :=
      fun c hc => List.mem_rtakeWhile_imp hc
    have h := trim_surround hnone hback (a ++ (r.takeWhile p ++ trim p r))
    rw [trim_eq_self hends, List.nil_append, List.append_assoc, List.append_assoc,
      takeWhile_trim] at h
    have hvalue := trim_surround hfront hnone (trim p r)
    rw [List.append_nil, trim_eq_self (trimmed_trim r)] at hvalue
    refine ⟨r.takeWhile p ++ trim p r, ⟨(r.dropWhile p).rtakeWhile p, ?_⟩, h, hvalue⟩
    rw [List.append_assoc, takeWhile_trim]

/-- A list without a separator. -/
theorem trimmed_of_free {l : List α} (h : ∀ c ∈ l, p c = false) : Trimmed p l := by
  rintro c (hc | hc)
  · exact h c (List.mem_of_head? hc)
  · exact h c (List.mem_of_getLast? hc)

/-! ### Joining with one separator -/

theorem mem_intercalate {s c : α} {ws : List (List α)} :
    c ∈ List.intercalate [s] ws ↔ (c = s ∧ 2 ≤ ws.length) ∨ ∃ w ∈ ws, c ∈ w := by
  induction ws with
  | nil => simp [List.intercalate_nil]
  | cons w ws ih =>
    cases ws with
    | nil => simp [List.intercalate_singleton]
    | cons w' ws =>
      rw [List.intercalate_cons_cons, List.mem_append, List.mem_append, List.mem_singleton, ih]
      simp only [List.length_cons, List.mem_cons, exists_eq_or_imp]
      constructor
      · rintro ((h | h) | ⟨h, -⟩ | h)
        · exact .inr (.inl h)
        · exact .inl ⟨h, by omega⟩
        · exact .inl ⟨h, by omega⟩
        · exact .inr (.inr h)
      · rintro (⟨h, -⟩ | h | h)
        · exact .inl (.inr h)
        · exact .inl (.inl h)
        · exact .inr (.inr h)

/-! ### Splitting at runs -/

/-- The list split at every longest run of separators; `inRun` if a separator
was read last. -/
def splitRuns (p : α → Bool) (inRun : Bool) : List α → List (List α)
  | [] => [[]]
  | c :: cs =>
    if p c then (if inRun then splitRuns p true cs else [] :: splitRuns p true cs)
    else (splitRuns p false cs).modifyHead (c :: ·)

/-- The words with a run between each and the next: `gap 0` after the first one,
and so on. -/
def joinRuns : (ℕ → List α) → List (List α) → List α
  | _, [] => []
  | _, [w] => w
  | gap, w :: w' :: ws => w ++ gap 0 ++ joinRuns (fun k => gap (k + 1)) (w' :: ws)

theorem splitRuns_free {w : List α} (hw : ∀ c ∈ w, p c = false) (inRun : Bool) :
    splitRuns p inRun w = [w] := by
  induction w generalizing inRun with
  | nil => rfl
  | cons c w ih =>
    rw [splitRuns, if_neg (by simp [hw c (by simp)]),
      ih (fun d hd => hw d (List.mem_cons_of_mem c hd)), List.modifyHead_cons]

/-- After a separator, the rest of the run is skipped. -/
theorem splitRuns_run {s : List α} (hs : ∀ c ∈ s, p c = true) (rest : List α) :
    splitRuns p true (s ++ rest) = splitRuns p true rest := by
  induction s with
  | nil => rfl
  | cons c s ih =>
    rw [List.cons_append, splitRuns, if_pos (hs c (by simp)), if_pos rfl,
      ih fun d hd => hs d (List.mem_cons_of_mem c hd)]

theorem splitRuns_word {w s : List α} (hne : w ≠ []) (hw : ∀ c ∈ w, p c = false) (hsne : s ≠ [])
    (hs : ∀ c ∈ s, p c = true) (inRun : Bool) (rest : List α) :
    splitRuns p inRun (w ++ s ++ rest) = w :: splitRuns p true rest := by
  -- the run, after a word that `cs` is the end of
  have hend : ∀ cs : List α, (∀ c ∈ cs, p c = false) →
      splitRuns p false (cs ++ s ++ rest) = cs :: splitRuns p true rest := by
    intro cs hcs
    induction cs with
    | nil =>
      obtain ⟨d, s, rfl⟩ := List.exists_cons_of_ne_nil hsne
      rw [List.nil_append, List.cons_append, splitRuns, if_pos (hs d (by simp)),
        if_neg Bool.false_ne_true, splitRuns_run fun c hc => hs c (List.mem_cons_of_mem d hc)]
    | cons c cs ih =>
      rw [List.cons_append, List.cons_append, splitRuns, if_neg (by simp [hcs c (by simp)]),
        ih (fun d hd => hcs d (List.mem_cons_of_mem c hd)), List.modifyHead_cons]
  obtain ⟨c, w, rfl⟩ := List.exists_cons_of_ne_nil hne
  rw [List.cons_append, List.cons_append, splitRuns, if_neg (by simp [hw c (by simp)]),
    hend w (fun d hd => hw d (List.mem_cons_of_mem c hd)), List.modifyHead_cons]

theorem splitRuns_joinRuns {gap : ℕ → List α} (hgap : ∀ k, gap k ≠ [] ∧ ∀ c ∈ gap k, p c = true)
    {ws : List (List α)} (hws : ∀ w ∈ ws, w ≠ [] ∧ ∀ c ∈ w, p c = false) (hne : ws ≠ [])
    (inRun : Bool) : splitRuns p inRun (joinRuns gap ws) = ws := by
  fun_induction joinRuns gap ws generalizing inRun with
  | case1 => exact absurd rfl hne
  | case2 gap w => exact splitRuns_free (hws w (by simp)).2 inRun
  | case3 gap w w' ws ih =>
    obtain ⟨hw, hfree⟩ := hws w (by simp)
    obtain ⟨hs, hrun⟩ := hgap 0
    rw [splitRuns_word hw hfree hs hrun,
      ih (fun k => hgap (k + 1)) (fun v hv => hws v (List.mem_cons_of_mem w hv)) (by simp)]

/-- What is joined comes from a word or from a run. -/
theorem mem_joinRuns {gap : ℕ → List α} {ws : List (List α)} {c : α} (h : c ∈ joinRuns gap ws) :
    (∃ w ∈ ws, c ∈ w) ∨ ∃ k, c ∈ gap k := by
  fun_induction joinRuns gap ws with
  | case1 => cases h
  | case2 gap w => exact .inl ⟨w, by simp, h⟩
  | case3 gap w w' ws ih =>
    rcases List.mem_append.mp h with h | h
    · rcases List.mem_append.mp h with h | h
      · exact .inl ⟨w, by simp, h⟩
      · exact .inr ⟨0, h⟩
    · rcases ih h with ⟨v, hv, hc⟩ | ⟨k, hk⟩
      · exact .inl ⟨v, List.mem_cons_of_mem w hv, hc⟩
      · exact .inr ⟨k + 1, hk⟩

theorem joinRuns_ne_nil {gap : ℕ → List α} {ws : List (List α)} (hws : ∀ w ∈ ws, w ≠ [])
    (hne : ws ≠ []) : joinRuns gap ws ≠ [] := by
  fun_cases joinRuns gap ws with
  | case1 => exact absurd rfl hne
  | case2 gap w => exact hws w (by simp)
  | case3 gap w w' ws => simp [hws w (by simp)]

/-- Words without separators begin and end what they are joined to. -/
theorem trimmed_joinRuns {gap : ℕ → List α} {ws : List (List α)}
    (hws : ∀ w ∈ ws, w ≠ [] ∧ ∀ c ∈ w, p c = false) : Trimmed p (joinRuns gap ws) := by
  have hlast : ∀ c, (joinRuns gap ws).getLast? = some c → p c = false := by
    fun_induction joinRuns gap ws with
    | case1 => exact fun c hc => trimmed_nil c (.inr hc)
    | case2 gap w => exact fun c hc => (hws w (by simp)).2 c (List.mem_of_getLast? hc)
    | case3 gap w w' ws ih =>
      have hrest : ∀ v ∈ w' :: ws, v ≠ [] ∧ ∀ c ∈ v, p c = false :=
        fun v hv => hws v (List.mem_cons_of_mem w hv)
      intro c hc
      rw [List.getLast?_append_of_ne_nil _
        (joinRuns_ne_nil (fun v hv => (hrest v hv).1) (by simp))] at hc
      exact ih hrest c hc
  rintro c (hc | hc)
  · fun_cases joinRuns gap ws with
    | case1 => exact trimmed_nil c (.inl hc)
    | case2 gap w => exact (hws w (by simp)).2 c (List.mem_of_head? hc)
    | case3 gap w w' ws =>
      obtain ⟨hw, hfree⟩ := hws w (by simp)
      rw [joinRuns, List.append_assoc, List.head?_append_of_ne_nil _ hw] at hc
      exact hfree c (List.mem_of_head? hc)
  · exact hlast c hc

end Fields
