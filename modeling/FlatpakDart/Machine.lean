/-
Partial step machines and their runs.

A machine is a function `step : σ → α → Option σ`, with `none` where an action
is not enabled; `run` takes a list of actions in order.  This file has the
rules the models of concurrent code are proved with:

* `run_invariant` — what every step preserves holds after every run;
* `run_invariant_along` — the same, when only the steps the run really takes
  are known to preserve it (`Takes`);
* `run_invariant_history` — the same for a property of the state and of the
  actions so far, and `run_invariant_outputs` of what the steps put out;
* `reaches_iff_takes` — a property holds in every state a run reaches exactly if
  each step it takes meets the condition under which the step preserves it;
* `run_refines` — a machine that simulates another step by step reaches only
  states whose abstraction the other one reaches.

Actions stand for the atomic steps of several threads, so a list of actions is
one interleaving and "for every list of actions" is "for every interleaving".
-/
import Mathlib.Data.List.Induction

namespace Machine

variable {σ τ α β : Type*} {step : σ → α → Option σ}

/-- Take a list of actions in order; `none` as soon as one is not enabled. -/
def run (step : σ → α → Option σ) : σ → List α → Option σ
  | s, [] => some s
  | s, a :: as => (step s a).bind (run step · as)

@[simp] theorem run_nil (s : σ) : run step s [] = some s := rfl

theorem run_cons (s : σ) (a : α) (as : List α) :
    run step s (a :: as) = (step s a).bind (run step · as) := rfl

theorem run_cons_eq_some {s u : σ} {a : α} {as : List α} :
    run step s (a :: as) = some u ↔ ∃ t, step s a = some t ∧ run step t as = some u := by
  rw [run_cons, Option.bind_eq_some_iff]

@[simp] theorem run_singleton (s : σ) (a : α) : run step s [a] = step s a := by
  rw [run_cons]
  exact Option.bind_fun_some _

theorem run_append (s : σ) (as bs : List α) :
    run step s (as ++ bs) = (run step s as).bind (run step · bs) := by
  induction as generalizing s with
  | nil => rfl
  | cons a as ih =>
    rw [List.cons_append, run_cons, run_cons]
    cases step s a with
    | none => rfl
    | some t => exact ih t

theorem run_append_eq_some {s u : σ} {as bs : List α} :
    run step s (as ++ bs) = some u ↔ ∃ t, run step s as = some t ∧ run step t bs = some u := by
  rw [run_append, Option.bind_eq_some_iff]

/-- A run that exists and ends well, from a computation. -/
theorem exists_run (step : σ → α → Option σ) (s : σ) (as : List α) {p : σ → Bool}
    (h : (run step s as).any p = true) : ∃ t, run step s as = some t ∧ p t = true :=
  (Option.any_eq_true _ _).mp h

/-- **Invariant rule.** -/
theorem run_invariant {I : σ → Prop} (hstep : ∀ {s a t}, step s a = some t → I s → I t)
    {s t : σ} {as : List α} (h : run step s as = some t) (hs : I s) : I t := by
  induction as generalizing s with
  | nil => exact Option.some_inj.mp h ▸ hs
  | cons a as ih =>
    obtain ⟨u, hu, hrest⟩ := run_cons_eq_some.mp h
    exact ih hrest (hstep hu hs)

/-! ### The steps a run takes -/

/-- The run of `as` from `s₀` takes the step `s –a→ t`. -/
def Takes (step : σ → α → Option σ) (s₀ : σ) (as : List α) (s : σ) (a : α) (t : σ) : Prop :=
  ∃ before after, as = before ++ a :: after ∧ run step s₀ before = some s ∧ step s a = some t

theorem Takes.step_eq {s₀ s t : σ} {a : α} {as : List α} (h : Takes step s₀ as s a t) :
    step s a = some t := by
  obtain ⟨_, _, _, _, h⟩ := h
  exact h

/-- The state before a step of a run is itself the end of a run. -/
theorem Takes.reached {s₀ s t : σ} {a : α} {as : List α} (h : Takes step s₀ as s a t) :
    ∃ before, run step s₀ before = some s := by
  obtain ⟨before, _, _, h, _⟩ := h
  exact ⟨before, h⟩

theorem Takes.mem {s₀ s t : σ} {a : α} {as : List α} (h : Takes step s₀ as s a t) : a ∈ as := by
  obtain ⟨before, after, rfl, _⟩ := h
  simp

/-- The run goes on from the state after a step it takes. -/
theorem Takes.run_after {s₀ s t u : σ} {a : α} {as : List α} (h : Takes step s₀ as s a t)
    (hrun : run step s₀ as = some u) : ∃ after, run step t after = some u := by
  obtain ⟨before, after, rfl, hbefore, hstep⟩ := h
  obtain ⟨s', hs', hrest⟩ := run_append_eq_some.mp hrun
  obtain rfl := Option.some_inj.mp (hbefore.symm.trans hs')
  obtain ⟨t', ht', hafter⟩ := run_cons_eq_some.mp hrest
  obtain rfl := Option.some_inj.mp (hstep.symm.trans ht')
  exact ⟨after, hafter⟩

theorem Takes.append {s₀ s t : σ} {a : α} {as : List α} (bs : List α)
    (h : Takes step s₀ as s a t) : Takes step s₀ (as ++ bs) s a t := by
  obtain ⟨before, after, rfl, hrun, hstep⟩ := h
  exact ⟨before, after ++ bs, by simp, hrun, hstep⟩

/-- A step of a run in two parts is a step of the first part, or the second part
has its action. -/
theorem Takes.of_append {s₀ s t : σ} {a : α} {as bs : List α}
    (h : Takes step s₀ (as ++ bs) s a t) : Takes step s₀ as s a t ∨ a ∈ bs := by
  obtain ⟨before, after, heq, hrun, hstep⟩ := h
  -- the step lies in `bs`, or what comes before it ends inside `as`
  rcases List.append_eq_append_iff.mp heq with ⟨mid, -, hbs⟩ | ⟨mid, has, hmid⟩
  · exact .inr (by simp [hbs])
  · cases mid with
    | nil =>
      rw [List.nil_append] at hmid
      exact .inr (by simp [← hmid])
    | cons c mid =>
      obtain ⟨rfl, -⟩ := List.cons_eq_cons.mp hmid
      exact .inl ⟨before, mid, has, hrun, hstep⟩

theorem takes_last {s₀ s t : σ} {a : α} {as : List α} (hrun : run step s₀ as = some s)
    (hstep : step s a = some t) : Takes step s₀ (as ++ [a]) s a t :=
  ⟨as, [], rfl, hrun, hstep⟩

/-- **Invariant rule along a run**: it is enough that the steps the run takes
preserve `I`. -/
theorem run_invariant_along {I : σ → Prop} {s₀ u : σ} {as : List α}
    (hstep : ∀ s a t, Takes step s₀ as s a t → I s → I t)
    (h : run step s₀ as = some u) (h₀ : I s₀) : I u := by
  -- from the end, as the steps of a part of the run are steps of the run
  induction as using List.reverseRecOn generalizing u with
  | nil => exact Option.some_inj.mp h ▸ h₀
  | append_singleton as a ih =>
    obtain ⟨t, hrun, hlast⟩ := run_append_eq_some.mp h
    rw [run_singleton] at hlast
    have ht : I t := ih (fun s b t' htakes hs => hstep s b t' (htakes.append [a]) hs) hrun
    exact hstep t a u (takes_last hrun hlast) ht

/-- **Invariant rule with history**: an invariant of the state and the actions
taken so far. -/
theorem run_invariant_history {I : List α → σ → Prop} {s₀ u : σ} {as : List α}
    (hstep : ∀ before s a t, a ∈ as → step s a = some t → I before s → I (before ++ [a]) t)
    (h : run step s₀ as = some u) (h₀ : I [] s₀) : I as u := by
  induction as using List.reverseRecOn generalizing u with
  | nil => exact Option.some_inj.mp h ▸ h₀
  | append_singleton as a ih =>
    obtain ⟨t, hrun, hlast⟩ := run_append_eq_some.mp h
    rw [run_singleton] at hlast
    have ht := ih (fun before s b t hb => hstep before s b t (List.mem_append_left _ hb)) hrun
    exact hstep as t a u (by simp) hlast ht

/-- What the steps of a run put out, in order. -/
def outputs (step : σ → α → Option σ) (out : σ → α → List β) : σ → List α → List β
  | _, [] => []
  | s, a :: as =>
    match step s a with
    | none => []
    | some t => out s a ++ outputs step out t as

/-- **Invariant rule with outputs**: an invariant of the state and of what was put out so
far. -/
theorem run_invariant_outputs {out : σ → α → List β} {I : List β → σ → Prop}
    (hstep : ∀ {past s a t}, step s a = some t → I past s → I (past ++ out s a) t)
    {past : List β} {s u : σ} {as : List α} (h : run step s as = some u) (hs : I past s) :
    I (past ++ outputs step out s as) u := by
  induction as generalizing past s with
  | nil =>
    rw [outputs, List.append_nil]
    exact Option.some_inj.mp h ▸ hs
  | cons a as ih =>
    obtain ⟨t, ht, hrest⟩ := run_cons_eq_some.mp h
    simp only [outputs, ht]
    rw [← List.append_assoc]
    exact ih hrest (hstep ht hs)

/-- Evaluate a test before each step of a run. -/
def along (step : σ → α → Option σ) (p : σ → α → Bool) : σ → List α → Bool
  | _, [] => true
  | s, a :: as =>
    match step s a with
    | none => true
    | some t => p s a && along step p t as

/-- What every step of a run meets, from a computation. -/
theorem takes_of_along {p : σ → α → Bool} {s₀ : σ} {as : List α} (h : along step p s₀ as = true) :
    ∀ s a t, Takes step s₀ as s a t → p s a = true := by
  rintro s a t ⟨before, after, rfl, hrun, hstep⟩
  induction before generalizing s₀ with
  | nil =>
    obtain rfl := Option.some_inj.mp hrun
    simp only [List.nil_append, along, hstep, Bool.and_eq_true] at h
    exact h.1
  | cons b before ih =>
    obtain ⟨u, hu, hrest⟩ := run_cons_eq_some.mp hrun
    simp only [List.cons_append, along, hu, Bool.and_eq_true] at h
    exact ih h.2 hrest

/-- The run of `as` from `s₀` comes through the state `u`. -/
def Reaches (step : σ → α → Option σ) (s₀ : σ) (as : List α) (u : σ) : Prop :=
  ∃ before after, as = before ++ after ∧ run step s₀ before = some u

theorem Takes.reaches {s₀ s t : σ} {a : α} {as : List α} (h : Takes step s₀ as s a t) :
    Reaches step s₀ as s ∧ Reaches step s₀ as t := by
  obtain ⟨before, after, rfl, hrun, hstep⟩ := h
  refine ⟨⟨before, a :: after, rfl, hrun⟩, before ++ [a], after, by simp, ?_⟩
  exact run_append_eq_some.mpr ⟨s, hrun, by rwa [run_singleton]⟩

/-- **Exact invariant rule**: if a step from a state with `S` leads to one with
`S` exactly when it meets `C`, then `S` holds all along a run exactly when every
step of the run meets `C`. -/
theorem reaches_iff_takes {S : σ → Prop} {C : σ → α → Prop} {s₀ : σ} (h₀ : S s₀) (as : List α)
    (hstep : ∀ s a t, Takes step s₀ as s a t → S s → (S t ↔ C s a)) :
    (∀ u, Reaches step s₀ as u → S u) ↔ ∀ s a t, Takes step s₀ as s a t → C s a := by
  constructor
  · intro hall s a t htakes
    exact (hstep s a t htakes (hall s htakes.reaches.1)).mp (hall t htakes.reaches.2)
  · rintro hall u ⟨before, after, rfl, hrun⟩
    refine run_invariant_along (fun s a t htakes hs => ?_) hrun h₀
    have htakes' := htakes.append after
    exact (hstep s a t htakes' hs).mpr (hall s a t htakes')

/-! ### Refinement -/

/-- **Refinement rule**: if every step from a state with `I` is matched by a
run of the abstract machine, every run is. -/
theorem run_refines {stepA : τ → β → Option τ} {I : σ → Prop} (abs : σ → τ)
    (hinv : ∀ {s a t}, step s a = some t → I s → I t)
    (hsim : ∀ {s a t}, step s a = some t → I s → ∃ bs, run stepA (abs s) bs = some (abs t))
    {s t : σ} {as : List α} (h : run step s as = some t) (hs : I s) :
    ∃ bs, run stepA (abs s) bs = some (abs t) := by
  -- one abstract run for each step, put together
  induction as generalizing s with
  | nil => exact ⟨[], congrArg (fun u => some (abs u)) (Option.some_inj.mp h)⟩
  | cons a as ih =>
    obtain ⟨u, hu, hrest⟩ := run_cons_eq_some.mp h
    obtain ⟨bs, hbs⟩ := hsim hu hs
    obtain ⟨cs, hcs⟩ := ih hrest (hinv hu hs)
    exact ⟨bs ++ cs, run_append_eq_some.mpr ⟨abs u, hbs, hcs⟩⟩

end Machine
