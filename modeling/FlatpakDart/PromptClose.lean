/-
What `close` does to the runs in progress (`lib/src/portal/permission_flow.dart`).

* `close_iff` — after `close` no prompt is made and none fails, what was undecided and
  not answered becomes `ask`, and every run comes to its end, exactly if no run finds a
  permission unset while a listener has not been given its done event;
* `left_step` — the steps of a run, and the done events, that are left after `close`.
-/
import FlatpakDart.PromptContract

open Machine PermissionStore

namespace PermissionFlow

/-! ### What is left of a run -/

/-- How many steps a run will still take, at most. -/
def Phase.rank : Phase → ℕ
  | .idle => 32
  | .metadata => 31
  | .get _ rest => 5 * rest.length + 5
  | .got _ _ rest => 5 * rest.length + 4
  | .prompt _ _ rest => 5 * rest.length + 3
  | .set _ _ rest => 5 * rest.length + 2
  | .stored _ _ rest => 5 * rest.length + 1
  | .completed | .failed _ => 0

theorem Phase.rank_next (rest : List String) : (next rest).rank = 5 * rest.length := by
  cases rest with
  | nil => rfl
  | cons p rest => simp [next, rank, Nat.mul_add]

/-- The run was called and has not ended. -/
def Phase.inProgress : Phase → Prop
  | .idle | .completed | .failed _ => False
  | _ => True

/-- The run's own steps, and the done events. -/
def Due (r : ℕ) : Action → Prop
  | .metadata r' _ | .serve r' _ | .resume r' => r' = r
  | .done => True
  | _ => False

/-- The steps of the run and the done events that are left. -/
def State.left (s : State) (r : ℕ) : ℕ := (s.runs r).phase.rank + s.listeners

/-- The step does not find a permission unset while there is a listener. -/
def Calm (s : State) : Action → Prop
  | .resume r => ∀ permission rest, (s.runs r).phase = .got .notSet permission rest →
    s.listeners = 0
  | _ => True

variable {s t c : State}

/-- A step of one run brings it nearer to its end. -/
theorem left_setRun {r r' : ℕ} {x : Run} (hruns : t.runs = Function.update s.runs r x)
    (hlisteners : t.listeners = s.listeners) (hrank : x.phase.rank < (s.runs r).phase.rank) :
    t.left r' ≤ s.left r' ∧ (r = r' → t.left r' < s.left r') := by
  unfold State.left
  rw [hruns, hlisteners]
  by_cases hr : r' = r
  · subst hr
    rw [Function.update_self]
    omega
  · rw [Function.update_of_ne hr]
    exact ⟨Nat.le_refl _, fun h => absurd h.symm hr⟩

/-- After `close`, every step that is due brings a run nearer to its end, and no step
takes it away from there. -/
theorem left_step {a : Action} (h : step s a = some t) (hclosed : s.closed = true) (r : ℕ) :
    t.left r ≤ s.left r ∧ (Due r a → t.left r < s.left r) := by
  cases step_cases h with
  | call hphase =>
    refine And.imp_right (fun _ hdue => hdue.elim) (left_setRun rfl rfl ?_)
    rw [hphase]
    simp [Phase.rank]
  | noMetadata hphase => exact left_setRun rfl rfl (by rw [hphase]; simp [Phase.rank])
  -- at most six permissions are asked for
  | @derived r' metadata hphase =>
    refine left_setRun rfl rfl ?_
    have := derivePermissions_length metadata
    rw [hphase, Phase.rank_next, Phase.rank]
    omega
  | got hphase _ => exact left_setRun rfl rfl (by rw [hphase]; simp [Phase.rank])
  | stored hphase => exact left_setRun rfl rfl (by rw [hphase]; simp [Phase.rank])
  | storeFailed hphase =>
    refine left_setRun rfl rfl ?_
    rcases hphase with ⟨p, rest, hphase⟩ | ⟨status, p, rest, hphase⟩ <;>
      rw [hphase] <;> simp [Phase.rank]
  | decided hphase _ =>
    exact left_setRun rfl rfl (by rw [hphase, Run.settle_phase, Phase.rank_next]; simp [Phase.rank])
  | unheard hphase _ =>
    exact left_setRun rfl rfl (by rw [hphase, Run.settle_phase, Phase.rank_next]; simp [Phase.rank])
  -- after `close` a prompt is cancelled when it is raised
  | prompted hphase _ =>
    refine left_setRun rfl rfl ?_
    rw [hphase, if_pos hclosed]
    simp [Phase.rank]
  | answered hphase _ _ => exact left_setRun rfl rfl (by rw [hphase]; simp [Phase.rank])
  | cancelled hphase _ _ =>
    exact left_setRun rfl rfl (by rw [hphase, Run.settle_phase, Phase.rank_next]; simp [Phase.rank])
  | settled hphase =>
    exact left_setRun rfl rfl (by rw [hphase, Run.settle_phase, Phase.rank_next]; simp [Phase.rank])
  | @respond id granted =>
    refine ⟨?_, fun hdue => hdue.elim⟩
    unfold State.respond
    split <;> exact Nat.le_refl _
  | listeners hn ha =>
    refine ⟨Nat.add_le_add_left (hn hclosed) _, ?_⟩
    rcases ha with rfl | rfl <;> exact fun hdue => hdue.elim
  -- one listener less to be told
  | done hsome =>
    have hless : s.listeners - 1 < s.listeners := Nat.sub_one_lt hsome
    exact ⟨Nat.add_le_add_left (Nat.le_of_lt hless) _, fun _ => Nat.add_lt_add_left hless _⟩
  | close => exact ⟨Nat.le_refl _, fun hdue => hdue.elim⟩
  | external => exact ⟨Nat.le_refl _, fun hdue => hdue.elim⟩

/-! ### The contract of `close` -/

/-- What is promised of every state `u` after a `close` that led to the state `c`. -/
structure Closed (c u : State) : Prop where
  /-- No pending entry remains. -/
  pending : u.pending = ∅
  /-- No prompt is made or raised. -/
  prompts : u.prompts = c.prompts
  raised : u.raised = c.raised
  /-- No run fails because of the close. -/
  noneFails : ∀ r, (u.runs r).phase = .failed .closedController →
    (c.runs r).phase = .failed .closedController
  /-- What was undecided and had not been answered becomes `ask`. -/
  ask : ∀ {r p status listened}, (u.runs r).result p = some status →
    (u.runs r).read p = some (.notSet, listened) →
    (∀ {k x granted}, c.prompts k = some x → x.run = r → x.permission = p →
      x.completion ≠ .answered granted) → status = .ask
  /-- A run that completes has a result for every permission. -/
  complete : ∀ {r p}, (u.runs r).phase = .completed → p ∈ (u.runs r).requested →
    ((u.runs r).result p).isSome
  /-- A run in progress has a step to take, and comes nearer to its end with each. -/
  goesOn : ∀ {r}, (u.runs r).phase.inProgress →
    ∃ a t, Due r a ∧ Calm u a ∧ step u a = some t
  ends : ∀ {r a t}, step u a = some t → t.left r ≤ u.left r ∧ (Due r a → t.left r < u.left r)

/-- The part of the contract that can fail. -/
structure Undisturbed (c u : State) : Prop where
  pending : u.pending = ∅
  prompts : u.prompts = c.prompts
  raised : u.raised = c.raised
  noneFails : ∀ r, (u.runs r).phase = .failed .closedController →
    (c.runs r).phase = .failed .closedController

/-- With nothing pending, every prompt is settled. -/
theorem Inv.allSettled (hs : Inv s) (hpending : s.pending = ∅) {k : ℕ} {x : Prompt}
    (hk : s.prompts k = some x) : x.completion ≠ .waiting := by
  intro hx
  have hlookup := hs.pending.mpr ⟨x, hk, rfl, hx⟩
  simp [hpending] at hlookup

/-- A run in progress can go on, or a done event is due. -/
theorem Inv.goesOn (hs : Inv s) (hclosed : s.closed = true) (hpending : s.pending = ∅) {r : ℕ}
    (hprogress : (s.runs r).phase.inProgress) :
    ∃ a t, Due r a ∧ Calm s a ∧ step s a = some t := by
  cases hphase : (s.runs r).phase with
  | idle => simp [hphase, Phase.inProgress] at hprogress
  | metadata => exact ⟨.metadata r (some []), _, rfl, trivial, by simp [step, hphase]; rfl⟩
  | get p rest => exact ⟨.serve r true, _, rfl, trivial, by simp [step, State.serve, hphase]; rfl⟩
  | got status p rest =>
    by_cases hunset : status = .notSet
    · subst hunset
      by_cases hnone : s.listeners = 0
      · exact ⟨.resume r, _, rfl, fun _ _ _ => hnone,
          by simp [step, State.resume, hphase, hnone]; rfl⟩
      -- the listener has not been given its done event
      · exact ⟨.done, _, trivial, trivial, by simp [step, hclosed, hnone]; rfl⟩
    · exact ⟨.resume r, _, rfl, by simp [Calm, hphase, hunset],
        by simp [step, State.resume, hphase, hunset]; rfl⟩
  | prompt k p rest =>
    obtain ⟨x, hk, -⟩ := (hs.runs r).awaits hphase
    have hsettled := hs.allSettled hpending hk
    cases hx : x.completion with
    | waiting => exact absurd hx hsettled
    | answered granted =>
      exact ⟨.resume r, _, rfl, by simp [Calm, hphase],
        by simp [step, State.resume, hphase, hk, hx]; rfl⟩
    | cancelled =>
      exact ⟨.resume r, _, rfl, by simp [Calm, hphase],
        by simp [step, State.resume, hphase, hk, hx]; rfl⟩
  | set status p rest =>
    exact ⟨.serve r true, _, rfl, trivial, by simp [step, State.serve, hphase]; rfl⟩
  | stored status p rest =>
    exact ⟨.resume r, _, rfl, by simp [Calm, hphase], by simp [step, State.resume, hphase]; rfl⟩
  | completed => simp [hphase, Phase.inProgress] at hprogress
  | failed failure => simp [hphase, Phase.inProgress] at hprogress

theorem Undisturbed.closed {u : State} (h : Undisturbed c u) (hu : Inv u)
    (hclosed : u.closed = true) : Closed c u where
  pending := h.pending
  prompts := h.prompts
  raised := h.raised
  noneFails := h.noneFails
  ask hresult hread hunanswered := by
    have hout := (hu.runs _).outcome hresult
    rw [hread] at hout
    cases hout with
    | decided hset => exact absurd rfl hset
    | unheard => rfl
    | answered hk hrun hp hy => exact absurd hy (hunanswered (h.prompts ▸ hk) hrun hp)
    | cancelled hk hrun hp hy => rfl
  complete hcompleted hp := by
    rcases (hu.runs _).covered _ hp with hsome | hmem | ⟨failure, hfailed⟩
    · exact hsome
    · simp [hcompleted, Phase.unsettled] at hmem
    · simp [hcompleted] at hfailed
  goesOn := hu.goesOn hclosed h.pending
  ends hstep := left_step hstep hclosed _

/-- A step of one run that leaves the prompts as they are. -/
theorem Undisturbed.ofRun (h : Undisturbed c s) {r : ℕ} {x : Run}
    (hruns : t.runs = Function.update s.runs r x) (hpending : t.pending = s.pending)
    (hprompts : t.prompts = s.prompts) (hraised : t.raised = s.raised)
    (hx : x.phase ≠ .failed .closedController) : Undisturbed c t where
  pending := hpending.trans h.pending
  prompts := hprompts.trans h.prompts
  raised := hraised.trans h.raised
  noneFails r' hfailed := by
    rw [hruns] at hfailed
    by_cases hr : r' = r
    · subst hr
      rw [Function.update_self] at hfailed
      exact absurd hfailed hx
    · rw [Function.update_of_ne hr] at hfailed
      exact h.noneFails r' hfailed

theorem Phase.next_ne_failed (rest : List String) (failure : Failure) :
    next rest ≠ .failed failure := by
  cases rest <;> simp [next]

theorem step_undisturbed {a : Action} (hstep : step s a = some t) (hs : Inv s)
    (h : Undisturbed c s) : Undisturbed c t ↔ Calm s a := by
  cases step_cases hstep with
  | call hphase => exact iff_of_true (h.ofRun rfl rfl rfl rfl (by simp)) trivial
  | noMetadata hphase => exact iff_of_true (h.ofRun rfl rfl rfl rfl (by simp)) trivial
  | derived hphase =>
    exact iff_of_true (h.ofRun rfl rfl rfl rfl (Phase.next_ne_failed _ _)) trivial
  | got hphase _ => exact iff_of_true (h.ofRun rfl rfl rfl rfl (by simp)) trivial
  | stored hphase => exact iff_of_true (h.ofRun rfl rfl rfl rfl (by simp)) trivial
  | storeFailed hphase => exact iff_of_true (h.ofRun rfl rfl rfl rfl (by simp)) trivial
  | decided hphase hset =>
    refine iff_of_true (h.ofRun rfl rfl rfl rfl (Phase.next_ne_failed _ _)) ?_
    intro p rest hphase'
    simp [hphase, hset] at hphase'
  | unheard hphase hnone =>
    exact iff_of_true (h.ofRun rfl rfl rfl rfl (Phase.next_ne_failed _ _)) fun _ _ _ => hnone
  | @prompted r p rest hphase hsome =>
    -- a pending entry is made
    refine iff_of_false (fun ht => ?_) fun hcalm => hsome (hcalm _ _ hphase)
    have hlookup := congrArg (AList.lookup (promptId (s.runs r).app p s.seq)) ht.pending
    rw [State.prompt, Run.see, AList.lookup_insert, AList.lookup_empty] at hlookup
    exact Option.some_ne_none _ hlookup
  | answered hphase hk hx =>
    exact iff_of_true (h.ofRun rfl rfl rfl rfl (by simp)) (by simp [Calm, hphase])
  | cancelled hphase hk hx =>
    exact iff_of_true (h.ofRun rfl rfl rfl rfl (Phase.next_ne_failed _ _)) (by simp [Calm, hphase])
  | settled hphase =>
    exact iff_of_true (h.ofRun rfl rfl rfl rfl (Phase.next_ne_failed _ _)) (by simp [Calm, hphase])
  | @respond id granted =>
    rw [respond_none granted (by simp [h.pending])]
    exact iff_of_true h trivial
  | listeners hn ha =>
    rcases ha with rfl | rfl <;> exact iff_of_true { h with } trivial
  | done hsome => exact iff_of_true { h with } trivial
  | close =>
    refine iff_of_true ⟨rfl, ?_, h.raised, h.noneFails⟩ trivial
    rw [← h.prompts]
    funext k
    rw [hs.close_prompts]
    cases hk : s.prompts k with
    | none => rfl
    | some x => simp [Completion.complete_of_ne (hs.allSettled h.pending hk)]
  | external => exact iff_of_true { h with } trivial

/-! ### When it holds -/

theorem closed_step {a : Action} (h : step s a = some t) (hclosed : s.closed = true) :
    t.closed = true := by
  cases step_cases h with
  | @respond id granted =>
    unfold State.respond
    split <;> exact hclosed
  | close => rfl
  | _ => exact hclosed

/-- **The contract of `close`** holds in every state after it, exactly if no run finds a
permission unset while a listener has not been given its done event. -/
theorem close_iff {store : Cell → List String} {before : List Action}
    (hrun : run step (init store) before = some s) (after : List Action) :
    (∀ u, Reaches step s.close after u → Closed s.close u) ↔
      ∀ s' a t, Takes step s.close after s' a t → Calm s' a := by
  have hs : Inv s.close := (run_inv hrun).close
  have hreached : ∀ {as u}, run step s.close as = some u → Inv u ∧ u.closed = true := fun h =>
    ⟨run_invariant step_inv h hs,
      run_invariant (I := fun u => u.closed = true) closed_step h rfl⟩
  refine reaches_iff_takes ?_ after fun s' a t htakes hclosed => ?_
  · exact Undisturbed.closed ⟨rfl, rfl, rfl, fun _ => id⟩ hs rfl
  · obtain ⟨as, has⟩ := htakes.reached
    obtain ⟨hinv, hclosed'⟩ := hreached has
    have hundisturbed : Undisturbed s.close s' :=
      ⟨hclosed.pending, hclosed.prompts, hclosed.raised, hclosed.noneFails⟩
    rw [← step_undisturbed htakes.step_eq hinv hundisturbed]
    refine ⟨fun ht => ⟨ht.pending, ht.prompts, ht.raised, ht.noneFails⟩, fun ht => ?_⟩
    exact ht.closed (step_inv htakes.step_eq hinv) (closed_step htakes.step_eq hclosed')

/-! ### Between the answer of the store and the prompt -/

/-- An app asks for the location, and the store answers that it is not set. -/
def readRun : List Action :=
  [.listen, .call 0 "org.x", .metadata 0 (some [⟨"Session Bus Policy",
    "org.freedesktop.portal.Location", "talk"⟩]), .serve 0 true]

/-- The done event comes before the run goes on. -/
theorem close_iff_done : ∃ s u, run step (init fun _ => []) readRun = some s ∧
    run step s.close [.done, .resume 0] = some u ∧ Closed s.close u ∧
    (u.runs 0).phase = .completed ∧ (u.runs 0).result "location" = some .ask := by
  obtain ⟨s, hrun, hp⟩ := exists_run step (init fun _ => []) readRun
    (p := fun s => along step (fun s a => match a with
        | .resume _ => s.listeners = 0
        | _ => true) s.close [.done, .resume 0] &&
      (run step s.close [.done, .resume 0]).any fun u =>
        (u.runs 0).phase = .completed ∧ (u.runs 0).result "location" = some .ask)
    (by decide +kernel)
  obtain ⟨hcalm, hp⟩ := (Bool.and_eq_true _ _).mp hp
  obtain ⟨u, hafter, hu⟩ := exists_run step s.close [.done, .resume 0] hp
  obtain ⟨hphase, hresult⟩ := of_decide_eq_true hu
  refine ⟨s, u, hrun, hafter, (close_iff hrun [.done, .resume 0]).mpr ?_ u
    ⟨[.done, .resume 0], [], rfl, hafter⟩, hphase, hresult⟩
  intro s' a t htakes
  have ha := takes_of_along hcalm s' a t htakes
  cases a with
  | resume r => exact fun _ _ _ => by simpa using ha
  | _ => trivial

/-- The run goes on before the done event: it fails, and leaves a pending entry. -/
theorem close_fails_run : ∃ s u, run step (init fun _ => []) readRun = some s ∧
    run step s.close [.resume 0] = some u ∧ (u.runs 0).phase = .failed .closedController ∧
    u.pending.lookup "org.x:location:0" = some 0 ∧ ¬ Closed s.close u := by
  obtain ⟨s, hrun, hp⟩ := exists_run step (init fun _ => []) readRun
    (p := fun s => (run step s.close [.resume 0]).any fun u =>
      (u.runs 0).phase = .failed .closedController ∧
        u.pending.lookup "org.x:location:0" = some 0) (by decide +kernel)
  obtain ⟨u, hafter, hu⟩ := exists_run step s.close [.resume 0] hp
  obtain ⟨hphase, hlookup⟩ := of_decide_eq_true hu
  refine ⟨s, u, hrun, hafter, hphase, hlookup, fun hclosed => ?_⟩
  simp [hclosed.pending] at hlookup

end PermissionFlow
