/-
Detecting changes by a summary.

Something is looked at again and again; a look may fail.  The detector keeps a
summary of the last look, of a failed one too, and signals when the summary of
the next is another.  What it should signal is news: something was read, and it
is not what was read last.

* `signals_iff_news` — after looks of the right kind, a signal is news and news a
  signal exactly if the next look is of the right kind too;
* `exact_iff` — so over a whole history the signals are the news exactly if every
  look is of the right kind after the one before it.
-/
import Mathlib.Data.List.Chain
import Mathlib.Data.List.Induction

namespace ChangeDetector

variable {ο ι κ : Type*}

/-! ### Every two that follow each other -/

/-- A property of every place in a list is a relation between neighbours, if it is one
where the relation held so far. -/
theorem forall_place_iff_isChain {α : Type*} {R : α → α → Prop} {P : List α → α → α → Prop}
    (h : ∀ before prev cur, (before ++ [prev]).IsChain R → (P before prev cur ↔ R prev cur))
    (l : List α) :
    (∀ before prev cur after, l = before ++ prev :: cur :: after → P before prev cur) ↔
      l.IsChain R := by
  induction l using List.reverseRecOn with
  | nil => simp
  | append_singleton l cur ih =>
    rcases List.eq_nil_or_concat l with rfl | ⟨before, prev, rfl⟩
    · refine iff_of_true (fun before prev cur after h => ?_) (List.isChain_singleton _)
      have hlength := congrArg List.length h
      simp at hlength
      omega
    rw [List.concat_eq_append] at ih ⊢
    rw [List.append_assoc, List.singleton_append, List.isChain_append_cons_cons]
    constructor
    · intro hall
      -- the places of the shorter list are places of the longer one
      have hchain : (before ++ [prev]).IsChain R := ih.mp fun b p c after heq =>
        hall b p c (after ++ [cur]) (by
          rw [← List.singleton_append, ← List.append_assoc, heq]
          simp)
      exact ⟨hchain, (h before prev cur hchain).mp (hall before prev cur [] rfl),
        List.isChain_singleton _⟩
    · rintro ⟨hchain, hlast, -⟩ b p c after heq
      rcases List.eq_nil_or_concat after with rfl | ⟨after, d, rfl⟩
      · have hends : before ++ [prev] ++ [cur] = b ++ [p] ++ [c] := by simpa using heq
        obtain ⟨hinit, hcur⟩ := List.append_inj' hends rfl
        obtain ⟨rfl, hprev⟩ := List.append_inj' hinit rfl
        obtain ⟨rfl, -⟩ := List.cons_eq_cons.mp hcur
        obtain ⟨rfl, -⟩ := List.cons_eq_cons.mp hprev
        exact (h before prev cur hchain).mpr hlast
      · refine ih.mpr hchain b p c after ?_
        have hends : before ++ [prev] ++ [cur] = (b ++ p :: c :: after) ++ [d] := by
          simpa using heq
        exact (List.append_inj' hends rfl).1

/-! ### Looks -/

/-- The last of the looks that could be read. -/
def lastRead (seen : List (Option ο)) : Option ο := (seen.filterMap id).getLast?

@[simp] theorem lastRead_append_some (seen : List (Option ο)) (s : ο) :
    lastRead (seen ++ [some s]) = some s := by
  simp [lastRead, List.filterMap_append]

@[simp] theorem lastRead_append_none (seen : List (Option ο)) :
    lastRead (seen ++ [none]) = lastRead seen := by
  simp [lastRead, List.filterMap_append]

/-- Something was read, and it is not what was read last; `first` says whether the
first thing that is ever read is news. -/
def IsNews (ident : ο → ι) (first : Prop) (last cur : Option ο) : Prop :=
  ∃ s, cur = some s ∧ match last with
    | none => first
    | some t => ident s ≠ ident t

/-- The summary is another one. -/
def Signals (view : Option ο → κ) (prev cur : Option ο) : Prop := view cur ≠ view prev

/-- A look after which the summary tells the news. -/
def Tells (ident : ο → ι) (view : Option ο → κ) (first : Prop) : Option ο → Option ο → Prop
  | none, none => True
  | none, some _ => first
  | some _, none => False
  | some t, some s => ident s ≠ ident t → view (some s) ≠ view (some t)

section Exact

variable {ident : ο → ι} {view : Option ο → κ} {first : Prop}

/-- If no look has failed after one was read, nothing was read before one that fails. -/
theorem lastRead_eq_of_isChain {seen : List (Option ο)} {prev : Option ο}
    (h : (seen ++ [prev]).IsChain (Tells ident view first)) : lastRead (seen ++ [prev]) = prev := by
  cases prev with
  | some t => exact lastRead_append_some seen t
  | none =>
    rw [lastRead_append_none]
    -- back to the beginning, every look has failed
    induction seen using List.reverseRecOn with
    | nil => rfl
    | append_singleton seen o ih =>
      rw [List.append_assoc, List.singleton_append, List.isChain_append_cons_cons] at h
      obtain ⟨hseen, ho, -⟩ := h
      cases o with
      | some t => exact ho.elim
      | none =>
        rw [lastRead_append_none]
        exact ih hseen

variable (hfail : ∀ s, view none ≠ view (some s))
  (hident : ∀ s t, ident s = ident t → view (some s) = view (some t))

include hfail hident

/-- **One look.** -/
theorem signals_iff_news {seen : List (Option ο)} {prev cur : Option ο}
    (h : (seen ++ [prev]).IsChain (Tells ident view first)) :
    (Signals view prev cur ↔ IsNews ident first (lastRead (seen ++ [prev])) cur) ↔
      Tells ident view first prev cur := by
  rw [lastRead_eq_of_isChain h]
  cases prev with
  | none =>
    cases cur with
    | none => simp [Signals, IsNews, Tells]
    | some s => simp [Signals, IsNews, Tells, (hfail s).symm]
  | some t =>
    cases cur with
    | none => simp [Signals, IsNews, Tells, hfail t]
    | some s =>
      simp only [Signals, IsNews, Tells, Option.some.injEq, exists_eq_left']
      exact ⟨fun h => h.mpr, fun h => ⟨fun hview heq => hview (hident s t heq), h⟩⟩

/-- **A whole history.** -/
theorem exact_iff (seen : List (Option ο)) :
    (∀ before prev cur after, seen = before ++ prev :: cur :: after →
        (Signals view prev cur ↔ IsNews ident first (lastRead (before ++ [prev])) cur)) ↔
      seen.IsChain (Tells ident view first) := by
  refine forall_place_iff_isChain (P := fun before prev cur => Signals view prev cur ↔
    IsNews ident first (lastRead (before ++ [prev])) cur) ?_ seen
  intro before prev cur h
  exact signals_iff_news hfail hident h

end Exact

end ChangeDetector
