/-
Programs that make requests.

A program returns, or makes a request and goes on with the reply.  Who replies has a state
of its own, which may change with every request; the trace of a run has each request with
the state in which it was made.

* `runs_bind_iff` — the runs of one program after another;
* `Runs.keeps` — what no reply changes;
* `Runs.forEach` — what a loop keeps that stops at the first error;
* `exists_runs` — where every request gets a reply, every program returns.
-/
import Mathlib.Data.List.Basic

namespace Requests

universe u v w

/-- It returns a value, or makes a request and goes on with the reply. -/
inductive Program (ι : Type u) (ρ : ι → Type v) (α : Type w)
  | done (a : α)
  | ask (i : ι) (next : ρ i → Program ι ρ α)

variable {ι : Type u} {ρ : ι → Type v} {α β : Type w} {σ ε X : Type*}

namespace Program

/-- One program and then another. -/
def bind : Program ι ρ α → (α → Program ι ρ β) → Program ι ρ β
  | done a, f => f a
  | ask i next, f => ask i fun r => (next r).bind f

/-- A single request. -/
def request (i : ι) : Program ι ρ (ρ i) := ask i done

/-- Go on unless it failed. -/
def andThen (p : Program ι ρ (Except ε α)) (f : α → Program ι ρ (Except ε β)) :
    Program ι ρ (Except ε β) :=
  p.bind fun
    | .error e => done (.error e)
    | .ok a => f a

/-- One element after another, up to the first failure. -/
def forEach (f : X → Program ι ρ (Except ε PUnit)) : List X → Program ι ρ (Except ε PUnit)
  | [] => done (.ok ⟨⟩)
  | x :: xs => (f x).andThen fun _ => forEach f xs

end Program

open Program

/-- What a request made in a state may be replied, and the state at the reply. -/
abbrev Replies (ι : Type u) (ρ : ι → Type v) (σ : Type*) := σ → (i : ι) → ρ i → σ → Prop

/-- The program may run from one state to another, with this trace and this result. -/
inductive Runs (R : Replies ι ρ σ) : σ → Program ι ρ α → List (σ × ι) → σ → α → Prop
  | done (s : σ) (a : α) : Runs R s (done a) [] s a
  | ask {s s' s'' : σ} {i : ι} {r : ρ i} {next : ρ i → Program ι ρ α} {trace : List (σ × ι)}
      {a : α} (hreply : R s i r s') (hnext : Runs R s' (next r) trace s'' a) :
      Runs R s (ask i next) ((s, i) :: trace) s'' a

variable {R : Replies ι ρ σ} {s s' : σ} {trace : List (σ × ι)} {a : α} {b : β}

@[simp] theorem runs_done_iff {c : α} :
    Runs R s (.done c) trace s' a ↔ trace = [] ∧ s' = s ∧ a = c := by
  constructor
  · rintro ⟨⟩
    exact ⟨rfl, rfl, rfl⟩
  · rintro ⟨rfl, rfl, rfl⟩
    exact .done _ _

theorem runs_ask_iff {i : ι} {next : ρ i → Program ι ρ α} :
    Runs R s (.ask i next) trace s' a ↔
      ∃ r t rest, R s i r t ∧ Runs R t (next r) rest s' a ∧ trace = (s, i) :: rest := by
  constructor
  · rintro ⟨⟩
    next r hreply hnext => exact ⟨_, _, _, hreply, hnext, rfl⟩
  · rintro ⟨r, t, rest, hreply, hnext, rfl⟩
    exact .ask hreply hnext

/-- A run of two programs is a run of each. -/
theorem runs_bind_iff {p : Program ι ρ α} {f : α → Program ι ρ β} :
    Runs R s (p.bind f) trace s' b ↔
      ∃ t a before after, Runs R s p before t a ∧ Runs R t (f a) after s' b ∧
        trace = before ++ after := by
  induction p generalizing s trace with
  | done c =>
    constructor
    · exact fun h => ⟨s, c, [], trace, .done s c, h, rfl⟩
    · rintro ⟨t, a, before, after, hfirst, hthen, rfl⟩
      obtain ⟨rfl, rfl, rfl⟩ := runs_done_iff.mp hfirst
      exact hthen
  | ask i next ih =>
    show Runs R s (.ask i fun r => (next r).bind f) trace s' b ↔ _
    rw [runs_ask_iff]
    constructor
    · rintro ⟨r, t, rest, hreply, hrun, rfl⟩
      obtain ⟨t', a, before, after, hfirst, hthen, rfl⟩ := (ih r).mp hrun
      exact ⟨t', a, (s, i) :: before, after, .ask hreply hfirst, hthen, rfl⟩
    · rintro ⟨t', a, before, after, hfirst, hthen, rfl⟩
      obtain ⟨r, t, rest, hreply, hrun, rfl⟩ := runs_ask_iff.mp hfirst
      exact ⟨r, t, rest ++ after, hreply, (ih r).mpr ⟨t', a, rest, after, hrun, hthen, rfl⟩, rfl⟩

theorem runs_request_iff {i : ι} {r : ρ i} :
    Runs R s (request i) trace s' r ↔ R s i r s' ∧ trace = [(s, i)] := by
  rw [request, runs_ask_iff]
  constructor
  · rintro ⟨r, t, rest, hreply, hrun, rfl⟩
    obtain ⟨rfl, rfl, rfl⟩ := runs_done_iff.mp hrun
    exact ⟨hreply, rfl⟩
  · rintro ⟨hreply, rfl⟩
    exact ⟨r, s', [], hreply, .done s' r, rfl⟩

/-- The first program failed, or the second one ran too. -/
theorem runs_andThen_iff {p : Program ι ρ (Except ε α)} {f : α → Program ι ρ (Except ε β)}
    {b : Except ε β} :
    Runs R s (p.andThen f) trace s' b ↔
      (∃ e, b = .error e ∧ Runs R s p trace s' (.error e)) ∨
      ∃ t a before after, Runs R s p before t (.ok a) ∧ Runs R t (f a) after s' b ∧
        trace = before ++ after := by
  rw [andThen, runs_bind_iff]
  constructor
  · rintro ⟨t, r, before, after, hfirst, hthen, rfl⟩
    cases r with
    | error e =>
      obtain ⟨rfl, rfl, rfl⟩ := runs_done_iff.mp hthen
      exact .inl ⟨e, rfl, (List.append_nil before).symm ▸ hfirst⟩
    | ok a => exact .inr ⟨t, a, before, after, hfirst, hthen, rfl⟩
  · rintro (⟨e, rfl, hfirst⟩ | ⟨t, a, before, after, hfirst, hthen, rfl⟩)
    · exact ⟨s', .error e, trace, [], hfirst, .done _ _, (List.append_nil trace).symm⟩
    · exact ⟨t, .ok a, before, after, hfirst, hthen, rfl⟩

/-- What no reply changes holds wherever a request is made. -/
theorem Runs.keeps {P : σ → Prop} (hkeep : ∀ {s i r s'}, R s i r s' → P s → P s')
    {p : Program ι ρ α} (h : Runs R s p trace s' a) (hs : P s) :
    (∀ asked ∈ trace, P asked.1) ∧ P s' := by
  induction h with
  | done s a => exact ⟨fun asked hasked => absurd hasked List.not_mem_nil, hs⟩
  | ask hreply _ ih =>
    obtain ⟨hrest, hend⟩ := ih (hkeep hreply hs)
    exact ⟨List.forall_mem_cons.mpr ⟨hs, hrest⟩, hend⟩

/-- **A loop that stops at the first failure**: what each element keeps that succeeds,
with the elements and the requests so far, holds at the end or was so where it stopped. -/
theorem Runs.forEach {f : X → Program ι ρ (Except ε PUnit)}
    {I : List X → List (σ × ι) → σ → Prop}
    (hstep : ∀ past x requests s trace s', I past requests s →
      Runs R s (f x) trace s' (.ok ⟨⟩) → I (past ++ [x]) (requests ++ trace) s')
    {xs past : List X} {requests : List (σ × ι)} {r : Except ε PUnit}
    (hI : I past requests s) (h : Runs R s (forEach f xs) trace s' r) :
    (r = .ok ⟨⟩ ∧ I (past ++ xs) (requests ++ trace) s') ∨
    ∃ e before x after t begun last, r = .error e ∧ xs = before ++ x :: after ∧
      I (past ++ before) (requests ++ begun) t ∧ Runs R t (f x) last s' (.error e) ∧
      trace = begun ++ last := by
  induction xs generalizing past requests s trace with
  | nil =>
    obtain ⟨rfl, rfl, rfl⟩ := runs_done_iff.mp h
    exact .inl ⟨rfl, by rwa [List.append_nil, List.append_nil]⟩
  | cons x xs ih =>
    rw [Program.forEach, runs_andThen_iff] at h
    rcases h with ⟨e, rfl, hfirst⟩ | ⟨t, ⟨⟩, begun, rest, hfirst, hrest, rfl⟩
    · exact .inr ⟨e, [], x, xs, s, [], trace, rfl, rfl,
        by rwa [List.append_nil, List.append_nil], hfirst, rfl⟩
    · rcases ih (hstep _ _ _ _ _ _ hI hfirst) hrest with ⟨rfl, hend⟩ |
          ⟨e, before, x', after, t', begun', last, rfl, rfl, hthere, hlast, rfl⟩
      · refine .inl ⟨rfl, ?_⟩
        rwa [List.append_assoc, List.append_assoc] at hend
      · refine .inr ⟨e, x :: before, x', after, t', begun ++ begun', last, rfl, rfl, ?_, hlast,
          (List.append_assoc _ _ _).symm⟩
        rwa [List.append_assoc, List.append_assoc] at hthere

/-- What returns, and whatever it returns goes on to return, returns. -/
theorem exists_runs_bind {p : Program ι ρ α} {f : α → Program ι ρ β}
    (hfirst : ∃ trace t a, Runs R s p trace t a)
    (hthen : ∀ t a, ∃ trace s' b, Runs R t (f a) trace s' b) :
    ∃ trace s' b, Runs R s (p.bind f) trace s' b := by
  obtain ⟨before, t, a, hfirst⟩ := hfirst
  obtain ⟨after, s', b, hthen⟩ := hthen t a
  exact ⟨before ++ after, s', b, runs_bind_iff.mpr ⟨t, a, before, after, hfirst, hthen, rfl⟩⟩

/-- Where every request gets a reply, every program returns. -/
theorem exists_runs (hreplies : ∀ s i, ∃ r s', R s i r s') (s : σ) (p : Program ι ρ α) :
    ∃ trace s' a, Runs R s p trace s' a := by
  induction p generalizing s with
  | done a => exact ⟨[], s, a, .done s a⟩
  | ask i next ih =>
    obtain ⟨r, t, hreply⟩ := hreplies s i
    obtain ⟨trace, s', a, hrun⟩ := ih r t
    exact ⟨(s, i) :: trace, s', a, .ask hreply hrun⟩

end Requests
