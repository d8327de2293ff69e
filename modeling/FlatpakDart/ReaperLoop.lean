/-
Who will look at what is queued (`native/src/child_reaper.cpp`).

`add` starts a loop if `running_` is false, and the loop clears `running_` when it
is on its way out: after `take_pending` found nothing more, or after `poll` failed.

* `calm_attended` — with no `add` in progress a queued child has a loop that will
  call `take_pending`, in every run where `poll` fails only while nothing is queued
  and nothing is queued between that and clearing `running_`;
* `willTake_step` — such a loop comes to `take_pending`, unless `poll` fails;
* `failed_poll_strands` — where `poll` fails on a reaper with a queued child, that
  child is left to the next `add`.
-/
import FlatpakDart.ReaperAccounts

open Machine

namespace ChildReaper

/-! ### Who has `running_` -/

/-- The call has set `running_`, and will construct a loop. -/
def AddPhase.starts : AddPhase → Bool
  | .starting | .joining | .spawning => true
  | _ => false

/-- The loop has not cleared `running_`. -/
def LoopPhase.runs : LoopPhase → Bool
  | .top | .polling | .reaping _ _ _ | .reaped _ _ _ | .orphaned _ _ _ | .failing => true
  | _ => false

/-- The loop will call `take_pending` again. -/
def LoopPhase.willTake : LoopPhase → Bool
  | .failing => false
  | phase => phase.runs

theorem LoopPhase.live_of_runs {p : LoopPhase} (h : p.runs = true) : p.live = true := by
  cases p <;> first | rfl | exact absurd h (by simp [runs])

theorem LoopPhase.runs_of_willTake {p : LoopPhase} (h : p.willTake = true) : p.runs = true := by
  cases p <;> first | exact h | exact absurd h (by simp [willTake])

/-- `running_` is set exactly while one call is starting a loop or one loop has not
cleared it. -/
structure Running (s : State) : Prop where
  token : s.running = true → (∃ k, (s.adds k).starts = true) ∨ ∃ l, (s.loops l).phase.runs = true
  start : ∀ k, (s.adds k).starts = true → s.running = true
  loop : ∀ l, (s.loops l).phase.runs = true → s.running = true
  once : ∀ j k, (s.adds j).starts = true → (s.adds k).starts = true → j = k
  alone : ∀ k l, (s.adds k).starts = true → (s.loops l).phase.runs = false

theorem Running.congr {s t : State} (hs : Running s) (hrunning : t.running = s.running)
    (hadds : ∀ k, (t.adds k).starts = (s.adds k).starts)
    (hloops : ∀ l, (t.loops l).phase.runs = (s.loops l).phase.runs) : Running t := by
  constructor
  case token =>
    simp only [hrunning, hadds, hloops]
    exact hs.token
  case start =>
    simp only [hrunning, hadds]
    exact hs.start
  case loop =>
    simp only [hrunning, hloops]
    exact hs.loop
  case once =>
    simp only [hadds]
    exact hs.once
  case alone =>
    simp only [hadds, hloops]
    exact hs.alone

/-- A call that goes on, and has its part of `running_` as before. -/
theorem Running.setAdd {s t : State} (hs : Running s) {k : ℕ} {phase : AddPhase}
    (hphase : phase.starts = (s.adds k).starts) (hrunning : t.running = s.running)
    (hadds : t.adds = (s.setAdd k phase).adds) (hloops : t.loops = s.loops) : Running t := by
  refine hs.congr hrunning (fun j => ?_) fun l => by rw [hloops]
  rw [hadds]
  by_cases hj : j = k
  · subst hj
    rw [State.setAdd_self, hphase]
  · rw [State.setAdd_ne s phase hj]

/-- A loop that goes on, and has its part of `running_` as before. -/
theorem Running.setLoop {s t : State} (hs : Running s) {l : ℕ} {x : Loop}
    (hx : x.phase.runs = (s.loops l).phase.runs) (hrunning : t.running = s.running)
    (hadds : t.adds = s.adds) (hloops : t.loops = (s.setLoop l x).loops) : Running t := by
  refine hs.congr hrunning (fun k => by rw [hadds]) fun m => ?_
  rw [hloops]
  by_cases hm : m = l
  · subst hm
    rw [State.setLoop_self, hx]
  · rw [State.setLoop_ne s x hm]

/-- The loop clears `running_`: nobody else had set it. -/
theorem Running.clear {s : State} (hs : Running s) (hthreads : Threads s) {l : ℕ} {x : Loop}
    (hl : (s.loops l).phase.runs = true) (hx : x.phase.runs = false) (pending : List ℕ) :
    Running { s.setLoop l x with pending := pending, running := false } := by
  have hstarts (k : ℕ) : (s.adds k).starts = false := by
    refine Bool.eq_false_iff.mpr fun hk => ?_
    rw [hs.alone k l hk] at hl
    exact absurd hl (by simp)
  have hruns (m : ℕ) : ((s.setLoop l x).loops m).phase.runs = false := by
    by_cases hm : m = l
    · subst hm
      rwa [State.setLoop_self]
    · rw [State.setLoop_ne s x hm]
      refine Bool.eq_false_iff.mpr fun hm' => hm ?_
      exact hthreads.live_unique (LoopPhase.live_of_runs hm') (LoopPhase.live_of_runs hl)
  refine ⟨fun h => absurd h (by simp), fun k hk => ?_, fun m hm => ?_, fun j k hj => ?_,
    fun k m hk => ?_⟩
  · exact absurd ((hstarts k).symm.trans hk) (by simp)
  · exact absurd ((hruns m).symm.trans hm) (by simp)
  · exact absurd ((hstarts j).symm.trans hj) (by simp)
  · exact hruns m

/-- The first `add` after `running_` was cleared is the one to start a loop. -/
theorem Running.enqueue {s : State} (hs : Running s) {k : ℕ} (hrunning : s.running = false)
    (pending added : List ℕ) :
    Running { s.setAdd k .starting with pending := pending, running := true, added := added } := by
  have hstarts (j : ℕ) : (s.adds j).starts = false :=
    Bool.eq_false_iff.mpr fun hj => by simp [hs.start j hj] at hrunning
  have hruns (l : ℕ) : (s.loops l).phase.runs = false :=
    Bool.eq_false_iff.mpr fun hl => by simp [hs.loop l hl] at hrunning
  have honly {j : ℕ} (hj : ((s.setAdd k .starting).adds j).starts = true) : j = k := by
    by_contra hjk
    rw [State.setAdd_ne s .starting hjk, hstarts j] at hj
    exact absurd hj (by simp)
  exact ⟨fun _ => .inl ⟨k, by simp [State.setAdd, AddPhase.starts]⟩, fun _ _ => rfl, fun _ _ => rfl,
    fun i j hi hj => (honly hi).trans (honly hj).symm, fun _ l _ => hruns l⟩

/-- The call hands `running_` over to the loop it constructs. -/
theorem Running.spawnLoop {s : State} (hs : Running s) {k : ℕ} (hk : s.adds k = .spawning) :
    Running { (s.setLoop s.started ⟨[], .top⟩).setAdd k (.assigning s.started) with
      started := s.started + 1 } := by
  have hk' : (s.adds k).starts = true := by rw [hk]; rfl
  have hstarts (j : ℕ) : ((s.setAdd k (.assigning s.started)).adds j).starts = false := by
    by_cases hj : j = k
    · subst hj
      rw [State.setAdd_self]
      rfl
    · rw [State.setAdd_ne s _ hj]
      exact Bool.eq_false_iff.mpr fun hj' => hj (hs.once j k hj' hk')
  refine ⟨fun _ => .inr ⟨s.started, by simp [State.setAdd, State.setLoop, LoopPhase.runs]⟩,
    fun j hj => ?_, fun _ _ => hs.start k hk', fun j i hj => ?_, fun j l hj => ?_⟩
  · exact absurd ((hstarts j).symm.trans hj) (by simp)
  · exact absurd ((hstarts j).symm.trans hj) (by simp)
  · exact absurd ((hstarts j).symm.trans hj) (by simp)

theorem step_running {s t : State} {a : Action} (h : Step s a t) (hthreads : Threads s)
    (hs : Running s) : Running t := by
  cases h with
  | pidfdOpen hk | noPidfd hk | enqueueStopping hk | lockThread hk | joinThread hk
  | storeThread hk | wake hk => exact hs.setAdd (by rw [hk]; rfl) rfl rfl rfl
  | @enqueue k hk =>
    cases hrunning : s.running with
    | true =>
      rw [if_pos rfl]
      exact hs.setAdd (by rw [hk]; rfl) hrunning.symm rfl rfl
    | false => exact hs.enqueue hrunning _ _
  | spawnLoop hk => exact hs.spawnLoop hk
  | takeEnd hl => exact hs.clear hthreads (by rw [hl]; rfl) rfl []
  | clearRunning hl => exact hs.clear hthreads (by rw [hl]; rfl) rfl s.pending
  | takePending hl | ready hl | interrupted hl | pollFailed hl | keep hl | reap hl | closeReaped hl
  | closeOrphan hl | resize hl | drainWait hl | drainClose hl | loopReturn hl | orphan hl
  | detach hl => exact hs.setLoop (by rw [hl]; rfl) rfl rfl rfl
  | _ => exact hs.congr rfl (fun _ => rfl) fun _ => rfl

/-! ### Who looks at the queue -/

/-- A queued child has somebody who will look. -/
def Attended (s : State) : Prop :=
  s.pending ≠ [] → (∃ k, (s.adds k).starts = true) ∨ ∃ l, (s.loops l).phase.willTake = true

/-- `poll` fails only while nothing is queued, and nothing is queued while a loop is
between that and clearing `running_`. -/
def Calm (s : State) : Action → Prop
  | .loop _ (.poll .failed) => s.pending = []
  | .add _ .enqueue => ∀ l < s.started, (s.loops l).phase ≠ .failing
  | _ => True

theorem Attended.setAdd {s t : State} (hs : Attended s) {k : ℕ} {phase : AddPhase}
    (hphase : phase.starts = (s.adds k).starts) (hpending : t.pending = s.pending)
    (hadds : t.adds = (s.setAdd k phase).adds) (hloops : t.loops = s.loops) : Attended t := by
  intro hne
  rw [hpending] at hne
  rw [hadds, hloops]
  refine (hs hne).imp_left ?_
  rintro ⟨j, hj⟩
  refine ⟨j, ?_⟩
  by_cases hjk : j = k
  · subst hjk
    rwa [State.setAdd_self, hphase]
  · rwa [State.setAdd_ne s phase hjk]

theorem Attended.setLoop {s t : State} (hs : Attended s) {l : ℕ} {x : Loop}
    (hx : x.phase.willTake = (s.loops l).phase.willTake) (hpending : t.pending = s.pending)
    (hadds : t.adds = s.adds) (hloops : t.loops = (s.setLoop l x).loops) : Attended t := by
  intro hne
  rw [hpending] at hne
  rw [hadds, hloops]
  refine (hs hne).imp_right ?_
  rintro ⟨m, hm⟩
  refine ⟨m, ?_⟩
  by_cases hml : m = l
  · subst hml
    rwa [State.setLoop_self, hx]
  · rwa [State.setLoop_ne s x hml]

/-- A child that is queued while `running_` is set has the loop that has not cleared
it, or the one about to be started. -/
theorem Running.attends {s : State} (hs : Running s) (hwf : Wf s) (hrunning : s.running = true)
    (hcalm : ∀ l < s.started, (s.loops l).phase ≠ .failing) :
    (∃ k, (s.adds k).starts = true) ∨ ∃ l, (s.loops l).phase.willTake = true := by
  refine (hs.token hrunning).imp_right ?_
  rintro ⟨l, hl⟩
  refine ⟨l, ?_⟩
  have hlt : l < s.started := by
    by_contra hge
    rw [hwf.unborn l (Nat.le_of_not_lt hge)] at hl
    exact absurd hl (by simp [LoopPhase.runs])
  cases hphase : (s.loops l).phase with
  | failing => exact absurd hphase (hcalm l hlt)
  | _ =>
    rw [hphase] at hl
    exact hl

theorem step_attended {s t : State} {a : Action} (h : Step s a t) (hwf : Wf s)
    (hrunning : Running s) (hcalm : Calm s a) (hs : Attended s) : Attended t := by
  cases h with
  | pidfdOpen hk | noPidfd hk | enqueueStopping hk | lockThread hk | joinThread hk
  | storeThread hk | wake hk => exact hs.setAdd (by rw [hk]; rfl) rfl rfl rfl
  | @enqueue k hk =>
    intro _
    cases hrun : s.running with
    | true =>
      refine (hrunning.attends hwf hrun hcalm).imp_left ?_
      rintro ⟨j, hj⟩
      refine ⟨j, ?_⟩
      have hjk : j ≠ k := by
        rintro rfl
        rw [hk] at hj
        exact absurd hj (by simp [AddPhase.starts])
      rwa [← State.setAdd_ne s .waking hjk] at hj
    | false => exact .inl ⟨k, by simp [State.setAdd, AddPhase.starts]⟩
  | spawnLoop => exact fun _ => .inr ⟨s.started, by simp [State.setAdd, State.setLoop,
      LoopPhase.willTake, LoopPhase.runs]⟩
  | takeEnd | takePending | takeLeftover => exact fun hne => absurd rfl hne
  | pollFailed => exact fun hne => absurd hcalm hne
  | clearRunning hl | ready hl | interrupted hl | keep hl | reap hl | closeReaped hl
  | closeOrphan hl | resize hl | drainWait hl | drainClose hl | loopReturn hl | orphan hl
  | detach hl => exact hs.setLoop (by rw [hl]; rfl) rfl rfl rfl
  | _ => exact hs

/-- A call between its two ends is in progress. -/
def Listed (s : State) : Prop := ∀ k, s.adds k ≠ .idle → s.adds k ≠ .returned → k ∈ s.adding

theorem Listed.setAdd {s t : State} (hs : Listed s) {k : ℕ} {phase : AddPhase}
    (hk : phase ≠ .returned → k ∈ t.adding) (hadds : t.adds = (s.setAdd k phase).adds)
    (hadding : ∀ j, j ≠ k → j ∈ s.adding → j ∈ t.adding) : Listed t := by
  intro j hidle hreturned
  rw [hadds] at hidle hreturned
  by_cases hjk : j = k
  · subst hjk
    exact hk (by simpa using hreturned)
  · rw [State.setAdd_ne s phase hjk] at hidle hreturned
    exact hadding j hjk (hs j hidle hreturned)

theorem step_listed {s t : State} {a : Action} (h : Step s a t) (hs : Listed s) : Listed t := by
  cases h with
  | pidfdOpen => exact hs.setAdd (fun _ => List.mem_cons_self) rfl fun j _ => List.mem_cons_of_mem _
  | noPidfd => exact hs.setAdd (fun hne => absurd rfl hne) rfl fun _ _ h => h
  | enqueueStopping | wake =>
    exact hs.setAdd (fun hne => absurd rfl hne) rfl
      fun j hjk h => (List.mem_erase_of_ne hjk).mpr h
  | enqueue hk | lockThread hk | joinThread hk | spawnLoop hk | storeThread hk =>
    exact hs.setAdd (fun _ => hs _ (by simp [hk]) (by simp [hk])) rfl fun _ _ h => h
  | _ => exact hs

/-! ### On the way to `take_pending` -/

/-- How far a loop is from calling `take_pending`. -/
def Loop.rank (x : Loop) : ℕ :=
  match x.phase with
  | .polling => 2 * x.watched.length + 2
  | .reaping _ i _ => 2 * (x.watched.length - i) + 1
  | .reaped _ i _ | .orphaned _ i _ => 2 * (x.watched.length - i)
  | _ => 0

/-- `poll` filled in one entry for each descriptor. -/
def Polled (s : State) : Prop := ∀ l, match (s.loops l).phase with
  | .reaping revents _ _ | .reaped revents _ _ | .orphaned revents _ _ =>
    revents.length = (s.loops l).watched.length + s.offset
  | _ => True

/-- Each step of such a loop brings it nearer, unless it gets there or `poll` fails. -/
theorem willTake_step {s t : State} {l : ℕ} {a : LoopAction} (h : step s (.loop l a) = some t)
    (hl : (s.loops l).phase.willTake = true) :
    a = .takePending ∨ a = .poll .failed ∨
      (t.loops l).phase.willTake = true ∧ (t.loops l).rank < (s.loops l).rank := by
  have hnear {u : State} {x : Loop} (hx : x.phase.willTake = true)
      (hrank : x.rank < (s.loops l).rank) :
      ((u.setLoop l x).loops l).phase.willTake = true ∧
        ((u.setLoop l x).loops l).rank < (s.loops l).rank := by
    rw [State.setLoop_self]
    exact ⟨hx, hrank⟩
  cases step_cases h with
  | takeEnd | takePending => exact .inl rfl
  | pollFailed => exact .inr (.inl rfl)
  | ready hp => exact .inr (.inr (hnear rfl (by simp [Loop.rank, hp])))
  | interrupted hp => exact .inr (.inr (hnear rfl (by simp [Loop.rank, hp])))
  | keep hp hc =>
    have hi := lt_of_getElem?_eq_some hc
    refine .inr (.inr (hnear rfl ?_))
    simp only [Loop.rank, hp, List.length_set]
    omega
  | reap hp hc | orphan hp hc =>
    refine .inr (.inr (hnear rfl ?_))
    simp [Loop.rank, hp]
  | closeReaped hp hc | closeOrphan hp hc =>
    have hi := lt_of_getElem?_eq_some hc
    refine .inr (.inr (hnear rfl ?_))
    simp only [Loop.rank, hp]
    omega
  | resize hp => exact .inr (.inr (hnear rfl (by simp [Loop.rank, hp])))
  | clearRunning hp | detach hp | drainWait hp | drainClose hp | loopReturn hp =>
    rw [hp] at hl
    exact absurd hl (by simp [LoopPhase.willTake, LoopPhase.runs])

/-- And there is always one to take. -/
theorem willTake_enabled {s : State} {l : ℕ} (hwf : Wf s) (hpolled : Polled s)
    (hl : (s.loops l).phase.willTake = true) :
    ∃ a, a ≠ .poll .failed ∧ (step s (.loop l a)).isSome = true := by
  have hwf' := hwf.loops l
  have hpolled' := hpolled l
  cases hp : (s.loops l).phase with
  | top => exact ⟨.takePending, by simp, by simp [step, State.loopStep, hp]⟩
  | polling => exact ⟨.poll .interrupted, by simp, by simp [step, State.loopStep, hp]⟩
  | reaping revents i kept =>
    have hle := (hwf'.reaping hp).2
    rw [hp] at hpolled'
    by_cases hi : i = (s.loops l).watched.length
    · exact ⟨.resize, by simp, by simp [step, State.loopStep, hp, hi]⟩
    · have hlt : i < (s.loops l).watched.length := Nat.lt_of_le_of_ne hle hi
      have hlt' : i + s.offset < revents.length := by omega
      cases hr : revents[i + s.offset] with
      | false =>
        refine ⟨.keep, by simp, ?_⟩
        simp [step, State.loopStep, hp, List.getElem?_eq_getElem hlt, List.getElem?_eq_getElem hlt',
          hr]
      | true =>
        refine ⟨.waitpid, by simp, ?_⟩
        simp only [step, State.loopStep, hp, List.getElem?_eq_getElem hlt,
          List.getElem?_eq_getElem hlt', hr]
        split <;> rfl
  | reaped revents i kept | orphaned revents i kept =>
    have hlt : i < (s.loops l).watched.length := by
      rw [Loop.Wf, hp] at hwf'
      exact hwf'.2
    refine ⟨.close, by simp, ?_⟩
    simp [step, State.loopStep, hp, List.getElem?_eq_getElem hlt]
  | _ =>
    rw [hp] at hl
    exact absurd hl (by simp [LoopPhase.willTake, LoopPhase.runs])

theorem Polled.congr {s t : State} (hs : Polled s) (hpipe : t.wakePipe = s.wakePipe)
    (hloops : t.loops = s.loops) : Polled t := by
  intro l
  rw [State.offset, hpipe, hloops]
  exact hs l

theorem Polled.setLoop {s t : State} (hs : Polled s) {l : ℕ} {x : Loop}
    (hx : match x.phase with
      | .reaping revents _ _ | .reaped revents _ _ | .orphaned revents _ _ =>
        revents.length = x.watched.length + s.offset
      | _ => True)
    (hpipe : t.wakePipe = s.wakePipe) (hloops : t.loops = (s.setLoop l x).loops) : Polled t := by
  intro m
  rw [State.offset, hpipe, hloops]
  by_cases hm : m = l
  · subst hm
    rw [State.setLoop_self]
    exact hx
  · rw [State.setLoop_ne s x hm]
    exact hs m

theorem step_polled {s t : State} {a : Action} (h : Step s a t) (hs : Polled s) : Polled t := by
  cases h with
  | spawnLoop | takeEnd | takePending | interrupted | pollFailed | resize | clearRunning | detach
  | drainWait | drainClose | loopReturn => exact hs.setLoop trivial rfl rfl
  | ready _ hlength => exact hs.setLoop hlength rfl rfl
  | @keep l revents i kept c hl =>
    have hlength := hs l
    rw [hl] at hlength
    exact hs.setLoop (by simpa using hlength) rfl rfl
  | @reap l revents i kept c hl | @orphan l revents i kept c hl
  | @closeReaped l revents i kept c hl | @closeOrphan l revents i kept c hl =>
    have hlength := hs l
    rw [hl] at hlength
    exact hs.setLoop hlength rfl rfl
  | _ => exact hs.congr rfl rfl

/-- **A loop that will look does look**: it can always go on, and after as many of its
own steps as its rank says it is at `take_pending`, or `poll` has failed. -/
theorem willTake_progress {wakePipe : Bool} {as : List Action} {s : State}
    (hrun : run step (init wakePipe) as = some s) {l : ℕ}
    (hl : (s.loops l).phase.willTake = true) :
    (∃ a, a ≠ .poll .failed ∧ (step s (.loop l a)).isSome = true) ∧
    ∀ a t, step s (.loop l a) = some t → a = .takePending ∨ a = .poll .failed ∨
      (t.loops l).phase.willTake = true ∧ (t.loops l).rank < (s.loops l).rank := by
  have hpolled : Polled s :=
    run_invariant (I := Polled) (fun hstep hs => step_polled (step_cases hstep) hs) hrun
      fun _ => trivial
  exact ⟨willTake_enabled (ChildReaper.run_inv hrun).wf hpolled hl, fun a t h => willTake_step h hl⟩

/-! ### In a calm run nobody is stranded -/

/-- Between calls, a child is queued and no loop will look. -/
def Stranded (s : State) : Prop :=
  s.adding = [] ∧ (s.dtor = .alive ∨ s.dtor = .returned) ∧ s.pending ≠ [] ∧
    ∀ l, (s.loops l).phase.willTake = false

structure LoopInv (s : State) : Prop where
  running : Running s
  listed : Listed s
  attended : Attended s

theorem LoopInv.not_stranded {s : State} (hs : LoopInv s) : ¬ Stranded s := by
  rintro ⟨hadding, -, hpending, hloops⟩
  rcases hs.attended hpending with ⟨k, hk⟩ | ⟨l, hl⟩
  · have hmem : k ∈ s.adding := by
      refine hs.listed k (fun h => ?_) fun h => ?_
      · rw [h] at hk
        exact absurd hk (by simp [AddPhase.starts])
      · rw [h] at hk
        exact absurd hk (by simp [AddPhase.starts])
    rw [hadding] at hmem
    exact absurd hmem List.not_mem_nil
  · exact absurd hl (by simp [hloops l])

/-- **Nobody is stranded** in a calm run. -/
theorem calm_attended (wakePipe : Bool) (as : List Action)
    (h : ∀ s a t, Takes step (init wakePipe) as s a t → Calm s a) :
    ∀ u, Reaches step (init wakePipe) as u → ¬ Stranded u := by
  rintro u ⟨before, after, rfl, hrun⟩
  have hinit : LoopInv (init wakePipe) :=
    ⟨⟨nofun, nofun, nofun, nofun, nofun⟩, fun _ h => absurd rfl h, fun h => absurd rfl h⟩
  refine (run_invariant_along (I := LoopInv) (fun s a t htakes hs => ?_) hrun hinit).not_stranded
  obtain ⟨reach, hreach⟩ := htakes.reached
  have hstep := step_cases htakes.step_eq
  have hinv := run_inv hreach
  exact ⟨step_running hstep hinv.threads hs.running, step_listed hstep hs.listed,
    step_attended hstep hinv.wf hs.running (h s a t (htakes.append after)) hs.attended⟩

/-- One child reaped while another is added, and `poll` fails on an empty queue. -/
def calmRun : List Action :=
  [.add 0 (.pidfdOpen true), .add 0 .enqueue, .add 0 .lockThread, .add 0 .joinThread,
    .add 0 .spawnLoop, .loop 0 .takePending, .add 0 .storeThread, .add 0 .wake,
    .loop 0 (.poll .failed), .loop 0 .clearRunning, .add 1 (.pidfdOpen true), .add 1 .enqueue,
    .loop 0 .detach, .add 1 .lockThread, .add 1 .joinThread, .add 1 .spawnLoop,
    .add 1 .storeThread, .add 1 .wake]

instance (s : State) (a : Action) : Decidable (Calm s a) := by
  cases a with
  | add k a =>
    cases a with
    | enqueue => exact Nat.decidableBallLT _ _
    | _ => exact inferInstanceAs (Decidable True)
  | loop l a =>
    cases a with
    | poll r =>
      cases r with
      | failed => exact inferInstanceAs (Decidable (s.pending = []))
      | _ => exact inferInstanceAs (Decidable True)
    | _ => exact inferInstanceAs (Decidable True)
  | _ => exact inferInstanceAs (Decidable True)

theorem calm_attended_restart : ∃ t, run step (init true) calmRun = some t ∧ ¬ Stranded t ∧
    t.adding = [] ∧ t.pending = [1] ∧ (t.loops 1).phase = .top := by
  obtain ⟨t, hrun, ht⟩ := exists_run step (init true) calmRun
    (p := fun t => t.adding = [] ∧ t.pending = [1] ∧ (t.loops 1).phase = .top) (by decide +kernel)
  have hcalm : along step (fun s a => decide (Calm s a)) (init true) calmRun = true := by
    decide +kernel
  refine ⟨t, hrun, ?_, of_decide_eq_true ht⟩
  exact calm_attended true calmRun
    (fun s a u htakes => of_decide_eq_true (takes_of_along hcalm s a u htakes)) t
    ⟨calmRun, [], by simp, hrun⟩

/-! ### A poll that fails -/

/-- The loop goes, whatever is queued. -/
theorem failed_poll_strands {wakePipe : Bool} {as : List Action} {s : State}
    (hrun : run step (init wakePipe) as = some s) {l : ℕ} (hl : (s.loops l).phase = .failing)
    (hpending : s.pending ≠ []) (hadding : s.adding = []) (hdtor : s.dtor = .alive) :
    ∃ t, step s (.loop l .clearRunning) = some t ∧ Stranded t := by
  have hinv := ChildReaper.run_inv hrun
  have hstep : step s (.loop l .clearRunning) = some
      { s.setLoop l { s.loops l with phase := .cleared } with running := false } := if_pos hl
  refine ⟨_, hstep, hadding, .inl hdtor, hpending, fun m => ?_⟩
  show ((s.setLoop l { s.loops l with phase := .cleared }).loops m).phase.willTake = false
  by_cases hm : m = l
  · subst hm
    rw [State.setLoop_self]
    rfl
  · -- no other loop is live
    rw [State.setLoop_ne s _ hm]
    refine Bool.eq_false_iff.mpr fun h => hm ?_
    exact hinv.threads.live_unique (LoopPhase.live_of_runs (LoopPhase.runs_of_willTake h))
      (by rw [hl]; rfl)

/-- The second child is queued while the loop is in `poll`, and `poll` fails. -/
def failedPollRun : List Action :=
  [.add 0 (.pidfdOpen true), .add 0 .enqueue, .add 0 .lockThread, .add 0 .joinThread,
    .add 0 .spawnLoop, .add 0 .storeThread, .add 0 .wake, .loop 0 .takePending,
    .add 1 (.pidfdOpen true), .add 1 .enqueue, .add 1 .wake, .loop 0 (.poll .failed),
    .loop 0 .clearRunning, .loop 0 .detach]

/-- No `add` is in progress, the second child is queued, and there is no loop. -/
theorem failed_poll_leaves_child : ∃ t, run step (init true) failedPollRun = some t ∧
    t.adding = [] ∧ t.dtor = .alive ∧ t.pending = [1] ∧ t.running = false ∧
    (∀ l, (t.loops l).phase.live = false) ∧ Stranded t := by
  obtain ⟨t, hrun, ht⟩ := exists_run step (init true) failedPollRun
    (p := fun t => t.adding = [] ∧ t.dtor = .alive ∧ t.pending = [1] ∧ t.running = false ∧
      t.started = 1 ∧ (t.loops 0).phase = .returned) (by decide +kernel)
  obtain ⟨hadding, hdtor, hpending, hrunning, hstarted, hloop⟩ := of_decide_eq_true ht
  have hlive (l : ℕ) : (t.loops l).phase.live = false := by
    cases l with
    | zero =>
      rw [hloop]
      rfl
    | succ l =>
      rw [(ChildReaper.run_inv hrun).wf.unborn (l + 1) (by omega)]
      rfl
  refine ⟨t, hrun, hadding, hdtor, hpending, hrunning, hlive, hadding, .inl hdtor,
    by simp [hpending], fun l => ?_⟩
  refine Bool.eq_false_iff.mpr fun h => ?_
  have hl := LoopPhase.live_of_runs (LoopPhase.runs_of_willTake h)
  rw [hlive l] at hl
  exact absurd hl (by simp)

end ChildReaper
