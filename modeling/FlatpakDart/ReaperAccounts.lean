/-
What becomes of every child and of every pidfd (`native/src/child_reaper.cpp`).

* `accounted` — at every moment of every run each child taken over is in one
  place, no child was given to two waiters, no pidfd was closed twice, the pidfd
  of a child that is done with is closed or is the next thing the loop closes,
  and one loop thread at most is live;
* `orphan_done_before_close` — a waiter can be done with a child whose pidfd the
  loop has still to close.
-/
import FlatpakDart.ChildReaper
import FlatpakDart.Custody

open Machine

namespace ChildReaper

/-! ### Who has a child -/

/-- Where a child can be. -/
inductive Place
  | pending
  | loop (l : ℕ)
  | waiter (w : ℕ)
  | destructor
  | finished
  deriving DecidableEq

/-- The children a loop still has: while it compacts `watched` in place, those it
has kept and those it has not looked at. -/
def Loop.held (x : Loop) : List ℕ :=
  match x.phase with
  | .unborn | .returned => []
  | .reaping _ i kept | .reaped _ i kept => x.watched.take kept ++ x.watched.drop i
  | .orphaned _ i kept => x.watched.take kept ++ x.watched.drop (i + 1)
  | .draining i | .waited i => x.watched.drop i
  | .top | .polling | .failing | .cleared => x.watched

/-- Between giving a child away and closing its pidfd. -/
def Loop.orphan (x : Loop) : List ℕ :=
  match x.phase with
  | .orphaned _ i _ => x.watched[i]?.toList
  | _ => []

def State.held (s : State) : Place → List ℕ
  | .pending => s.pending
  | .loop l => (s.loops l).held
  | .waiter w => (s.waiters w).todo
  | .destructor => s.leftover
  | .finished => s.finished

/-- Who has to close a pidfd. -/
inductive FdPlace
  | adder (k : ℕ)
  | pending
  | loop (l : ℕ)
  | orphan (l : ℕ)
  | waiter (w : ℕ)
  | destructor
  | closed
  deriving DecidableEq

def AddPhase.held (k : ℕ) : AddPhase → List ℕ
  | .opened => [k]
  | _ => []

/-- A waiter without pidfds has none to close. -/
def Waiter.heldFds (x : Waiter) : List ℕ := if x.closes then x.todo else []

def State.heldFds (s : State) : FdPlace → List ℕ
  | .adder k => (s.adds k).held k
  | .pending => s.pending
  | .loop l => (s.loops l).held
  | .orphan l => (s.loops l).orphan
  | .waiter w => (s.waiters w).heldFds
  | .destructor => s.leftover
  | .closed => s.closed

namespace State

theorem held_setLoop (s : State) (l : ℕ) (x : Loop) :
    (s.setLoop l x).held = Function.update s.held (.loop l) x.held := by
  funext p
  cases p with
  | loop m =>
    by_cases hm : m = l
    · subst hm
      simp [held, setLoop]
    · simp [held, setLoop, hm]
  | _ => simp [held, setLoop]

theorem held_setWaiter (s : State) (w : ℕ) (x : Waiter) :
    (s.setWaiter w x).held = Function.update s.held (.waiter w) x.todo := by
  funext p
  cases p with
  | waiter v =>
    by_cases hv : v = w
    · subst hv
      simp [held, setWaiter]
    · simp [held, setWaiter, hv]
  | _ => simp [held, setWaiter]

theorem held_detach (s : State) (todo : List ℕ) (closes : Bool) :
    (s.detach todo closes).held = Function.update s.held (.waiter s.detached) todo :=
  held_setWaiter s s.detached ⟨todo, closes, false⟩

theorem held_finish (s : State) (c : ℕ) :
    (s.finish c).held = Function.update s.held .finished (c :: s.finished) := by
  funext p
  cases p <;> simp [held, finish]

theorem heldFds_setLoop (s : State) (l : ℕ) (x : Loop) :
    (s.setLoop l x).heldFds =
      Function.update (Function.update s.heldFds (.orphan l) x.orphan) (.loop l) x.held := by
  funext p
  cases p with
  | loop m =>
    by_cases hm : m = l
    · subst hm
      simp [heldFds, setLoop]
    · simp [heldFds, setLoop, hm]
  | orphan m =>
    by_cases hm : m = l
    · subst hm
      simp [heldFds, setLoop]
    · simp [heldFds, setLoop, hm]
  | _ => simp [heldFds, setLoop]

theorem heldFds_setWaiter (s : State) (w : ℕ) (x : Waiter) :
    (s.setWaiter w x).heldFds = Function.update s.heldFds (.waiter w) x.heldFds := by
  funext p
  cases p with
  | waiter v =>
    by_cases hv : v = w
    · subst hv
      simp [heldFds, setWaiter]
    · simp [heldFds, setWaiter, hv]
  | _ => simp [heldFds, setWaiter]

theorem heldFds_detach (s : State) (todo : List ℕ) (closes : Bool) :
    (s.detach todo closes).heldFds =
      Function.update s.heldFds (.waiter s.detached) (if closes then todo else []) :=
  heldFds_setWaiter s s.detached ⟨todo, closes, false⟩

theorem heldFds_setAdd (s : State) (k : ℕ) (phase : AddPhase) :
    (s.setAdd k phase).heldFds = Function.update s.heldFds (.adder k) (phase.held k) := by
  funext p
  cases p with
  | adder j =>
    by_cases hj : j = k
    · subst hj
      simp [heldFds, setAdd]
    · simp [heldFds, setAdd, hj]
  | _ => simp [heldFds, setAdd]

theorem heldFds_close (s : State) (c : ℕ) :
    (s.close c).heldFds = Function.update s.heldFds .closed (c :: s.closed) := by
  funext p
  cases p <;> simp [heldFds, close]

/-- A step of a loop that leaves it what it has. -/
theorem held_setLoop_same {s : State} {l : ℕ} {x : Loop} (hx : x.held = (s.loops l).held) :
    (s.setLoop l x).held = s.held := by
  rw [held_setLoop, hx]
  exact Function.update_eq_self ..

theorem heldFds_setLoop_kept {s : State} {l : ℕ} {x : Loop}
    (hx : x.orphan = (s.loops l).orphan) :
    (s.setLoop l x).heldFds = Function.update s.heldFds (.loop l) x.held := by
  rw [heldFds_setLoop, hx]
  congr 1
  exact Function.update_eq_self ..

theorem heldFds_setLoop_same {s : State} {l : ℕ} {x : Loop} (hx : x.held = (s.loops l).held)
    (hx' : x.orphan = (s.loops l).orphan) : (s.setLoop l x).heldFds = s.heldFds := by
  rw [heldFds_setLoop_kept hx', hx]
  exact Function.update_eq_self ..

/-- An `add` that neither takes a pidfd nor gives one away. -/
theorem heldFds_setAdd_same {s : State} {k : ℕ} {phase : AddPhase}
    (hphase : phase.held k = (s.adds k).held k) : (s.setAdd k phase).heldFds = s.heldFds := by
  rw [heldFds_setAdd, hphase]
  exact Function.update_eq_self ..

end State

/-! ### What the phases say -/

/-- `i` and `kept` are where they can be. -/
def Loop.Wf (x : Loop) : Prop :=
  match x.phase with
  | .reaping _ i kept => kept ≤ i ∧ i ≤ x.watched.length
  | .reaped _ i kept | .orphaned _ i kept => kept ≤ i ∧ i < x.watched.length
  | _ => True

/-- Threads that have not been started have nothing, and neither has the
destructor before it takes what is left; a child is new to the reaper until its
`add` has taken it over. -/
structure Wf (s : State) : Prop where
  loops : ∀ l, (s.loops l).Wf
  unborn : ∀ l, s.started ≤ l → (s.loops l).phase = .unborn
  undetached : ∀ w, s.detached ≤ w → (s.waiters w).todo = []
  leftover : s.dtor ≠ .waiting → s.dtor ≠ .waited → s.leftover = []
  opened : ∀ k ∈ s.opened, s.adds k ≠ .idle
  added : ∀ k ∈ s.added, s.adds k ≠ .idle ∧ s.adds k ≠ .opened

section Loop

variable {x : Loop} {revents : List Bool} {i kept : ℕ}

theorem Loop.Wf.reaping (h : x.Wf) (hl : x.phase = .reaping revents i kept) :
    kept ≤ i ∧ i ≤ x.watched.length := by
  rwa [Loop.Wf, hl] at h

/-- The loop is not past a child whose pidfd it has still to close. -/
theorem Loop.Wf.closing (h : x.Wf)
    (hl : x.phase = .reaped revents i kept ∨ x.phase = .orphaned revents i kept) :
    kept ≤ i ∧ i < x.watched.length := by
  rcases hl with hl | hl <;> rwa [Loop.Wf, hl] at h

end Loop

theorem lt_of_getElem?_eq_some {xs : List ℕ} {i c : ℕ} (h : xs[i]? = some c) : i < xs.length :=
  (List.getElem?_eq_some_iff.mp h).1

theorem setLoop_wf {s : State} (hs : ∀ m, (s.loops m).Wf) {l : ℕ} {x : Loop} (hx : x.Wf) (m : ℕ) :
    ((s.setLoop l x).loops m).Wf :=
  (Function.forall_update_iff s.loops fun _ x => Loop.Wf x).mpr ⟨hx, fun m _ => hs m⟩ m

theorem step_loops_wf {s t : State} {a : Action} (h : Step s a t) (hs : ∀ l, (s.loops l).Wf) :
    ∀ l, (t.loops l).Wf := by
  cases h with
  | spawnLoop => exact setLoop_wf hs trivial
  | takeEnd => exact setLoop_wf hs trivial
  | takePending => exact setLoop_wf hs trivial
  | ready => exact setLoop_wf hs ⟨Nat.le_refl 0, Nat.zero_le _⟩
  | interrupted => exact setLoop_wf hs trivial
  | pollFailed => exact setLoop_wf hs trivial
  | @keep l revents i kept c hl hc =>
    refine setLoop_wf hs ⟨Nat.succ_le_succ ((hs l).reaping hl).1, ?_⟩
    rw [List.length_set]
    exact lt_of_getElem?_eq_some hc
  | @reap l revents i kept c hl hc =>
    exact setLoop_wf hs ⟨((hs l).reaping hl).1, lt_of_getElem?_eq_some hc⟩
  | @orphan l revents i kept c hl hc =>
    exact setLoop_wf hs ⟨((hs l).reaping hl).1, lt_of_getElem?_eq_some hc⟩
  | @closeReaped l revents i kept c hl hc =>
    have hwf := (hs l).closing (.inl hl)
    exact setLoop_wf hs ⟨Nat.le_succ_of_le hwf.1, hwf.2⟩
  | @closeOrphan l revents i kept c hl hc =>
    have hwf := (hs l).closing (.inr hl)
    exact setLoop_wf hs ⟨Nat.le_succ_of_le hwf.1, hwf.2⟩
  | resize => exact setLoop_wf hs trivial
  | clearRunning => exact setLoop_wf hs trivial
  | detach => exact setLoop_wf hs trivial
  | drainWait => exact setLoop_wf hs trivial
  | drainClose => exact setLoop_wf hs trivial
  | loopReturn => exact setLoop_wf hs trivial
  | _ => exact hs

/-- Only a thread that has been started takes steps. -/
theorem setLoop_unborn {s : State} (hs : ∀ m, s.started ≤ m → (s.loops m).phase = .unborn) {l : ℕ}
    {x : Loop} (hl : (s.loops l).phase ≠ .unborn) (m : ℕ) (hm : s.started ≤ m) :
    ((s.setLoop l x).loops m).phase = .unborn := by
  have hne : m ≠ l := by
    rintro rfl
    exact hl (hs m hm)
  rw [State.setLoop_ne s x hne]
  exact hs m hm

theorem step_unborn {s t : State} {a : Action} (h : Step s a t)
    (hs : ∀ l, s.started ≤ l → (s.loops l).phase = .unborn) :
    ∀ l, t.started ≤ l → (t.loops l).phase = .unborn := by
  cases h with
  | spawnLoop =>
    intro l hl
    have hlt : s.started < l := hl
    have hold := hs l (Nat.le_of_lt hlt)
    rwa [← State.setLoop_ne s ⟨[], .top⟩ (Nat.ne_of_gt hlt)] at hold
  | takeEnd hl | takePending hl | ready hl | interrupted hl | pollFailed hl | keep hl | reap hl
  | orphan hl | closeReaped hl | closeOrphan hl | resize hl | clearRunning hl | detach hl
  | drainWait hl | drainClose hl | loopReturn hl => exact setLoop_unborn hs (by simp [hl])
  | _ => exact hs

theorem setWaiter_undetached {s : State} (hs : ∀ v, s.detached ≤ v → (s.waiters v).todo = [])
    {w : ℕ} {x : Waiter} (hw : (s.waiters w).todo = [] → x.todo = []) (v : ℕ)
    (hv : s.detached ≤ v) : ((s.setWaiter w x).waiters v).todo = [] := by
  by_cases hne : v = w
  · subst hne
    rw [State.setWaiter_self]
    exact hw (hs v hv)
  · rw [State.setWaiter_ne s x hne]
    exact hs v hv

theorem detach_undetached {s : State} (hs : ∀ w, s.detached ≤ w → (s.waiters w).todo = [])
    {todo : List ℕ} {closes : Bool} (w : ℕ) (hw : s.detached + 1 ≤ w) :
    ((s.detach todo closes).waiters w).todo = [] := by
  have hold := hs w (Nat.le_of_succ_le hw)
  rwa [← State.setWaiter_ne s ⟨todo, closes, false⟩ (Nat.ne_of_gt hw)] at hold

theorem step_undetached {s t : State} {a : Action} (h : Step s a t)
    (hs : ∀ w, s.detached ≤ w → (s.waiters w).todo = []) :
    ∀ w, t.detached ≤ w → (t.waiters w).todo = [] := by
  cases h with
  | noPidfd | enqueueStopping | orphan | detach => exact detach_undetached hs
  | waited hw | waiterDone hw | waiterClose hw => exact setWaiter_undetached hs (by simp [hw])
  | _ => exact hs

theorem step_leftover {s t : State} {a : Action} (h : Step s a t)
    (hs : s.dtor ≠ .waiting → s.dtor ≠ .waited → s.leftover = []) :
    t.dtor ≠ .waiting → t.dtor ≠ .waited → t.leftover = [] := by
  cases h with
  | dtorStop hdtor | dtorLock hdtor | dtorJoin hdtor =>
    exact fun _ _ => hs (by simp [hdtor]) (by simp [hdtor])
  | takeLeftover | dtorClose => exact fun hne => absurd rfl hne
  | dtorWait => exact fun _ hne => absurd rfl hne
  | dtorReturn _ hleft => exact fun _ _ => hleft
  | _ => exact hs

theorem setAdd_all {s : State} {known : List ℕ} {P : AddPhase → Prop}
    (hs : ∀ j ∈ known, P (s.adds j)) {k : ℕ} {phase : AddPhase} (hphase : k ∈ known → P phase) :
    ∀ j ∈ known, P ((s.setAdd k phase).adds j) := by
  intro j hj
  by_cases hjk : j = k
  · subst hjk
    simpa using hphase hj
  · rw [State.setAdd_ne s phase hjk]
    exact hs j hj

theorem step_opened {s t : State} {a : Action} (h : Step s a t)
    (hs : ∀ k ∈ s.opened, s.adds k ≠ .idle) : ∀ k ∈ t.opened, t.adds k ≠ .idle := by
  have hkeep {k : ℕ} {phase : AddPhase} (hphase : phase ≠ .idle) :
      ∀ j ∈ s.opened, (s.setAdd k phase).adds j ≠ .idle :=
    setAdd_all (P := (· ≠ .idle)) hs fun _ => hphase
  cases h with
  | pidfdOpen =>
    intro j hj
    rcases List.mem_cons.mp hj with rfl | hj
    · simp [State.setAdd]
    · exact hkeep (by simp) j hj
  | enqueue => exact hkeep (by split <;> simp)
  | noPidfd | enqueueStopping | lockThread | joinThread | spawnLoop | storeThread | wake =>
    exact hkeep (by simp)
  | _ => exact hs

theorem step_added {s t : State} {a : Action} (h : Step s a t)
    (hs : ∀ k ∈ s.added, s.adds k ≠ .idle ∧ s.adds k ≠ .opened) :
    ∀ k ∈ t.added, t.adds k ≠ .idle ∧ t.adds k ≠ .opened := by
  -- the child of the call, and then the others
  have hnew {k : ℕ} {phase : AddPhase} (hphase : phase ≠ .idle ∧ phase ≠ .opened) :
      ∀ j ∈ k :: s.added,
        (s.setAdd k phase).adds j ≠ .idle ∧ (s.setAdd k phase).adds j ≠ .opened := by
    intro j hj
    rcases List.mem_cons.mp hj with rfl | hj
    · simpa using hphase
    · exact setAdd_all (P := fun p => p ≠ .idle ∧ p ≠ .opened) hs (fun _ => hphase) j hj
  cases h with
  | pidfdOpen hk =>
    exact setAdd_all (P := fun p => p ≠ .idle ∧ p ≠ .opened) hs fun hmem => absurd hk (hs _ hmem).1
  | enqueue => exact hnew (by split <;> simp)
  | noPidfd | enqueueStopping => exact hnew (by simp)
  | lockThread | joinThread | spawnLoop | storeThread | wake =>
    exact setAdd_all (P := fun p => p ≠ .idle ∧ p ≠ .opened) hs fun _ => by simp
  | _ => exact hs

theorem step_wf {s t : State} {a : Action} (h : Step s a t) (hs : Wf s) : Wf t where
  loops := step_loops_wf h hs.loops
  unborn := step_unborn h hs.unborn
  undetached := step_undetached h hs.undetached
  leftover := step_leftover h hs.leftover
  opened := step_opened h hs.opened
  added := step_added h hs.added

/-! ### The compaction of `watched` -/

section Compaction

variable {x : Loop} {revents : List Bool} {i kept c : ℕ}

/-- Moving child `i` to the front keeps it. -/
theorem Loop.held_keep (hwf : x.Wf) (hl : x.phase = .reaping revents i kept)
    (hc : x.watched[i]? = some c) :
    Loop.held ⟨x.watched.set kept c, .reaping revents (i + 1) (kept + 1)⟩ = x.held := by
  obtain ⟨hkept, -⟩ := hwf.reaping hl
  obtain ⟨hi, rfl⟩ := List.getElem?_eq_some_iff.mp hc
  have htake : (x.watched.set kept x.watched[i]).take (kept + 1) =
      x.watched.take kept ++ [x.watched[i]] := by
    rw [List.take_add_one, List.take_set_of_le (Nat.le_refl kept),
      List.getElem?_set_self (by omega), Option.toList_some]
  have hdrop : (x.watched.set kept x.watched[i]).drop (i + 1) = x.watched.drop (i + 1) :=
    List.drop_set_of_lt (by omega)
  have hheld : x.held = x.watched.take kept ++ x.watched.drop i := by rw [Loop.held, hl]
  rw [hheld, List.drop_eq_getElem_cons hi]
  show _ ++ _ = _
  rw [htake, hdrop, List.append_assoc]
  rfl

/-- Passing child `i` by drops it. -/
theorem Loop.held_pass (hl : x.phase = .reaping revents i kept ∨ x.phase = .reaped revents i kept)
    (hc : x.watched[i]? = some c) {phase : LoopPhase}
    (hphase : phase = .orphaned revents i kept ∨ phase = .reaping revents (i + 1) kept) :
    x.held.Perm (c :: Loop.held { x with phase := phase }) := by
  obtain ⟨hi, rfl⟩ := List.getElem?_eq_some_iff.mp hc
  have hheld : x.held = x.watched.take kept ++ x.watched.drop i := by
    rcases hl with hl | hl <;> rw [Loop.held, hl]
  have hheld' : Loop.held { x with phase := phase } =
      x.watched.take kept ++ x.watched.drop (i + 1) := by
    rcases hphase with rfl | rfl <;> rfl
  rw [hheld, hheld', List.drop_eq_getElem_cons hi]
  exact List.perm_middle

/-- So does going on to the next child after the loop was told to stop. -/
theorem Loop.held_drain (hl : x.phase = .waited i) (hc : x.watched[i]? = some c) :
    x.held.Perm (c :: Loop.held { x with phase := .draining (i + 1) }) := by
  obtain ⟨hi, rfl⟩ := List.getElem?_eq_some_iff.mp hc
  have hheld : x.held = x.watched.drop i := by rw [Loop.held, hl]
  rw [hheld, List.drop_eq_getElem_cons hi]
  exact List.Perm.refl _

end Compaction

/-! ### Children -/

theorem detach_children {s : State} (hwf : Wf s) (hs : Custody.Inv s.added s.held) {k : ℕ}
    (hk : k ∉ s.added) {closes : Bool} :
    Custody.Inv (k :: s.added) (s.detach [k] closes).held := by
  rw [State.held_detach]
  refine hs.acquire hk ?_
  rw [show s.held (.waiter s.detached) = [] from hwf.undetached _ (Nat.le_refl _)]

/-- A loop is done with a child. -/
theorem finish_children {s : State} (hs : Custody.Inv s.added s.held) {l c : ℕ} {x : Loop}
    (hx : (s.loops l).held.Perm (c :: x.held)) :
    Custody.Inv s.added ((s.finish c).setLoop l x).held := by
  rw [State.held_setLoop, State.held_finish]
  refine hs.transfer (by simp) ?_
  exact (List.perm_middle.symm.trans (hx.symm.append_left s.finished))

/-- A loop gives children to a new waiter. -/
theorem orphan_children {s : State} (hwf : Wf s) (hs : Custody.Inv s.added s.held) {l : ℕ}
    {x : Loop} {todo : List ℕ} {closes : Bool} (hx : (s.loops l).held.Perm (todo ++ x.held)) :
    Custody.Inv s.added ((s.detach todo closes).setLoop l x).held := by
  rw [State.held_setLoop, State.held_detach]
  refine hs.transfer (by simp) ?_
  rw [show s.held (.waiter s.detached) = [] from hwf.undetached _ (Nat.le_refl _)]
  exact hx.symm

/-- A waiter is done with its first child. -/
theorem waiter_children {s : State} (hs : Custody.Inv s.added s.held) {w c : ℕ} {x : Waiter}
    (hx : (s.waiters w).todo = c :: x.todo) :
    Custody.Inv s.added ((s.finish c).setWaiter w x).held := by
  rw [State.held_setWaiter, State.held_finish]
  refine hs.transfer (by simp) ?_
  rw [show s.held (.waiter w) = c :: x.todo from hx]
  exact List.perm_middle.symm

/-- `take_pending` moves what is queued to the loop. -/
theorem takePending_children {s : State} (hs : Custody.Inv s.added s.held) {l : ℕ} {x : Loop}
    (hx : x.held = (s.loops l).held ++ s.pending) (r : Bool) :
    Custody.Inv s.added ({ s.setLoop l x with pending := [], running := r } : State).held := by
  have hheld : ({ s.setLoop l x with pending := [], running := r } : State).held =
      Function.update (Function.update s.held .pending []) (.loop l) x.held := by
    rw [Function.update_comm (by simp), ← State.held_setLoop]
    funext p
    cases p <;> simp [State.held]
  rw [hheld]
  refine hs.transfer (by simp) ?_
  rw [hx, List.nil_append]
  exact List.perm_append_comm

theorem step_children {s t : State} {a : Action} (h : Step s a t) (hwf : Wf s)
    (hs : Custody.Inv s.added s.held) : Custody.Inv t.added t.held := by
  -- a child that is added now was not added before
  have hnew {k : ℕ} (hk : s.adds k = .idle ∨ s.adds k = .opened) : k ∉ s.added := by
    intro hmem
    rcases hk with hk | hk
    · exact (hwf.added k hmem).1 hk
    · exact (hwf.added k hmem).2 hk
  have hloop {l : ℕ} {x : Loop} (hx : x.held = (s.loops l).held) :
      Custody.Inv s.added (s.setLoop l x).held := by
    rw [State.held_setLoop_same hx]
    exact hs
  cases h with
  | noPidfd hk => exact detach_children hwf hs (hnew (.inl hk))
  | enqueueStopping hk => exact detach_children hwf hs (hnew (.inr hk))
  -- a new child, which is pending
  | @enqueue k hk =>
    have hheld : (State.held { s with pending := s.pending ++ [k] }) =
        Function.update s.held .pending (s.pending ++ [k]) := by
      funext p
      cases p <;> simp [State.held]
    show Custody.Inv (k :: s.added) (State.held { s with pending := s.pending ++ [k] })
    rw [hheld]
    exact hs.acquire (hnew (.inr hk)) (List.perm_append_singleton k s.pending)
  | spawnLoop =>
    refine hloop ?_
    rw [Loop.held, Loop.held, hwf.unborn _ (Nat.le_refl _)]
  | takeEnd hl => exact takePending_children hs (by simp [Loop.held, hl]) false
  | takePending hl => exact takePending_children hs (by simp [Loop.held, hl]) s.running
  | ready hl => exact hloop (by simp [Loop.held, hl])
  | interrupted hl => exact hloop (by simp [Loop.held, hl])
  | pollFailed hl => exact hloop (by simp [Loop.held, hl])
  | @keep l revents i kept c hl hc => exact hloop (Loop.held_keep (hwf.loops l) hl hc)
  | reap hl => exact hloop (by simp [Loop.held, hl])
  | orphan hl hc => exact orphan_children hwf hs (Loop.held_pass (.inl hl) hc (.inl rfl))
  | closeReaped hl hc => exact finish_children hs (Loop.held_pass (.inr hl) hc (.inr rfl))
  | closeOrphan hl => exact hloop (by simp [Loop.held, hl])
  | resize hl hi => exact hloop (by simp [Loop.held, hl, hi])
  | clearRunning hl => exact hloop (by simp [Loop.held, hl])
  | detach hl =>
    refine orphan_children hwf hs ?_
    simp [Loop.held, hl]
  | drainWait hl => exact hloop (by simp [Loop.held, hl])
  | drainClose hl hc => exact finish_children hs (Loop.held_drain hl hc)
  | loopReturn hl hi => exact hloop (by simp [Loop.held, hl, hi])
  | waited hw =>
    rw [show (s.setWaiter _ _).held = s.held by
      rw [State.held_setWaiter]
      exact Function.update_eq_self_iff.mpr (by simp [State.held, hw])]
    exact hs
  | waiterDone hw => exact waiter_children hs (by simp [hw])
  | waiterClose hw => exact waiter_children hs (by simp [hw])
  -- the destructor takes what is pending, and held nothing before
  | takeLeftover hdtor =>
    have hleft := hwf.leftover (by simp [hdtor]) (by simp [hdtor])
    have hheld : (State.held { s with leftover := s.pending, pending := [] }) =
        Function.update (Function.update s.held .pending []) .destructor s.pending := by
      funext p
      cases p <;> simp [State.held]
    show Custody.Inv s.added (State.held { s with leftover := s.pending, pending := [] })
    rw [hheld]
    refine hs.transfer (by simp) ?_
    simp [State.held, hleft]
  | @dtorClose c rest hdtor hleft =>
    have hheld : (State.held { s.finish c with leftover := rest }) =
        Function.update (Function.update s.held .destructor rest) .finished (c :: s.finished) := by
      funext p
      cases p <;> simp [State.held, State.finish]
    show Custody.Inv s.added (State.held { s.finish c with leftover := rest })
    rw [hheld]
    refine hs.transfer (by simp) ?_
    rw [show s.held .destructor = c :: rest from hleft]
    exact List.perm_middle
  | _ => exact hs

/-! ### Pidfds -/

/-- A waiter that has no pidfds changes nothing. -/
theorem heldFds_detach_none {s : State} (hwf : Wf s) (todo : List ℕ) :
    (s.detach todo false).heldFds = s.heldFds := by
  rw [State.heldFds_detach]
  refine Function.update_eq_self_iff.mpr ?_
  simp [State.heldFds, Waiter.heldFds, hwf.undetached _ (Nat.le_refl _)]

/-- A loop closes the pidfd of a child it has. -/
theorem close_fds {s : State} (hs : Custody.Inv s.opened s.heldFds) {l c : ℕ} {x : Loop}
    (hx : (s.loops l).held.Perm (c :: x.held)) (hx' : x.orphan = (s.loops l).orphan) :
    Custody.Inv s.opened ((s.close c).setLoop l x).heldFds := by
  rw [State.heldFds_setLoop_kept (s := s.close c) hx', State.heldFds_close]
  refine hs.transfer (by simp) ?_
  exact List.perm_middle.symm.trans (hx.symm.append_left s.closed)

/-- A loop closes the pidfd of a child it has given away. -/
theorem closeOrphan_fds {s : State} (hs : Custody.Inv s.opened s.heldFds) {l c : ℕ} {x : Loop}
    (hx : x.held = (s.loops l).held) (hx' : x.orphan = []) (hc : (s.loops l).orphan = [c]) :
    Custody.Inv s.opened ((s.close c).setLoop l x).heldFds := by
  have heq : ((s.close c).setLoop l x).heldFds =
      Function.update (Function.update s.heldFds .closed (c :: s.closed)) (.orphan l) [] := by
    rw [State.heldFds_setLoop, State.heldFds_close, hx, hx']
    refine Function.update_eq_self_iff.mpr ?_
    simp [State.heldFds]
  rw [heq]
  refine hs.transfer (by simp) ?_
  rw [show s.heldFds (.orphan l) = [c] from hc, List.append_nil]
  exact (List.perm_append_singleton c s.closed).symm

/-- A loop gives a child away, and keeps its pidfd. -/
theorem orphan_fds {s : State} (hwf : Wf s) (hs : Custody.Inv s.opened s.heldFds) {l : ℕ}
    {x : Loop} {c : ℕ} (hx : (s.loops l).held.Perm (c :: x.held)) (hc : x.orphan = [c])
    (hx' : (s.loops l).orphan = []) :
    Custody.Inv s.opened ((s.detach [c] false).setLoop l x).heldFds := by
  rw [State.heldFds_setLoop, heldFds_detach_none hwf, hc]
  refine hs.transfer (by simp) ?_
  rw [show s.heldFds (.orphan l) = [] from hx']
  exact hx.symm

/-- A loop gives children away with their pidfds. -/
theorem detach_fds {s : State} (hwf : Wf s) (hs : Custody.Inv s.opened s.heldFds) {l : ℕ}
    {x : Loop} {todo : List ℕ} (hx : (s.loops l).held.Perm (todo ++ x.held))
    (hx' : x.orphan = (s.loops l).orphan) :
    Custody.Inv s.opened ((s.detach todo true).setLoop l x).heldFds := by
  rw [State.heldFds_setLoop_kept (s := s.detach todo true) hx', State.heldFds_detach]
  refine hs.transfer (by simp) ?_
  rw [show s.heldFds (.waiter s.detached) = [] by
    simp [State.heldFds, Waiter.heldFds, hwf.undetached _ (Nat.le_refl _)]]
  exact hx.symm

theorem takePending_fds {s : State} (hs : Custody.Inv s.opened s.heldFds) {l : ℕ} {x : Loop}
    (hx : x.held = (s.loops l).held ++ s.pending) (hx' : x.orphan = (s.loops l).orphan) (r : Bool) :
    Custody.Inv s.opened ({ s.setLoop l x with pending := [], running := r } : State).heldFds := by
  have heq : ({ s.setLoop l x with pending := [], running := r } : State).heldFds =
      Function.update (Function.update s.heldFds .pending []) (.loop l) x.held := by
    rw [Function.update_comm (by simp), ← State.heldFds_setLoop_kept hx']
    funext p
    cases p <;> simp [State.heldFds]
  rw [heq]
  refine hs.transfer (by simp) ?_
  rw [hx, List.nil_append]
  exact List.perm_append_comm

theorem step_fds {s t : State} {a : Action} (h : Step s a t) (hwf : Wf s)
    (hs : Custody.Inv s.opened s.heldFds) : Custody.Inv t.opened t.heldFds := by
  -- where nothing changes hands: a loop, an adder or a waiter goes on with what it holds
  have hloop {l : ℕ} {x : Loop} (hx : x.held = (s.loops l).held)
      (hx' : x.orphan = (s.loops l).orphan) : Custody.Inv s.opened (s.setLoop l x).heldFds := by
    rw [State.heldFds_setLoop_same hx hx']
    exact hs
  have hadd {k : ℕ} {phase : AddPhase} (hphase : phase.held k = (s.adds k).held k) :
      Custody.Inv s.opened (s.setAdd k phase).heldFds := by
    rw [State.heldFds_setAdd_same hphase]
    exact hs
  have hwaiter {w : ℕ} {x : Waiter} (hx : x.heldFds = (s.waiters w).heldFds) :
      Custody.Inv s.opened (s.setWaiter w x).heldFds := by
    rw [State.heldFds_setWaiter, hx]
    exact (Function.update_eq_self (FdPlace.waiter w) s.heldFds).symm ▸ hs
  cases h with
  -- the only step that opens a descriptor
  | @pidfdOpen k hk =>
    show Custody.Inv (k :: s.opened) (s.setAdd k .opened).heldFds
    rw [State.heldFds_setAdd]
    refine hs.acquire (fun hmem => hwf.opened k hmem hk) ?_
    simp [AddPhase.held, State.heldFds, hk]
  -- without a pidfd the waiter is given a child and no descriptor
  | @noPidfd k hk =>
    show Custody.Inv s.opened ((s.detach [k] false).setAdd k .returned).heldFds
    rw [State.heldFds_setAdd_same (by simp [AddPhase.held, State.detach, hk]),
      heldFds_detach_none hwf]
    exact hs
  | @enqueueStopping k hk =>
    show Custody.Inv s.opened ((s.detach [k] true).setAdd k .returned).heldFds
    rw [State.heldFds_setAdd, State.heldFds_detach]
    refine hs.transfer (by simp) ?_
    simp [State.heldFds, Waiter.heldFds, AddPhase.held, hk, hwf.undetached _ (Nat.le_refl _)]
  -- from the adder to the end of `pending_`
  | @enqueue k hk =>
    have heq : State.heldFds { s.setAdd k (if s.running then .waking else .starting) with
        pending := s.pending ++ [k] } =
          Function.update (Function.update s.heldFds (.adder k) [])
            .pending (s.pending ++ [k]) := by
      have hheld : (if s.running then AddPhase.waking else .starting).held k = [] := by
        split <;> rfl
      rw [← hheld, ← State.heldFds_setAdd]
      funext p
      cases p <;> simp [State.heldFds, State.setAdd]
    show Custody.Inv s.opened (State.heldFds { s.setAdd k (if s.running then .waking else .starting)
      with pending := s.pending ++ [k] })
    rw [heq]
    refine hs.transfer (by simp) ?_
    rw [show s.heldFds (.adder k) = [k] by simp [State.heldFds, AddPhase.held, hk],
      List.nil_append]
    exact List.perm_append_comm
  | lockThread hk | joinThread hk | storeThread hk | wake hk =>
    exact hadd (by simp [AddPhase.held, hk])
  | @spawnLoop k hk =>
    show Custody.Inv s.opened
      ((s.setLoop s.started ⟨[], .top⟩).setAdd k (.assigning s.started)).heldFds
    have hunborn := hwf.unborn s.started (Nat.le_refl _)
    rw [State.heldFds_setAdd_same (by simp [AddPhase.held, State.setLoop, hk])]
    exact hloop (by simp [Loop.held, hunborn]) (by simp [Loop.orphan, hunborn])
  -- from `pending_` to the loop
  | takeEnd hl =>
    exact takePending_fds hs (by simp [Loop.held, hl]) (by simp [Loop.orphan, hl]) false
  | takePending hl =>
    exact takePending_fds hs (by simp [Loop.held, hl]) (by simp [Loop.orphan, hl]) s.running
  | ready hl | interrupted hl | pollFailed hl | reap hl | clearRunning hl | drainWait hl =>
    exact hloop (by simp [Loop.held, hl]) (by simp [Loop.orphan, hl])
  | @keep l revents i kept c hl hc =>
    exact hloop (Loop.held_keep (hwf.loops l) hl hc) (by simp [Loop.orphan, hl])
  | orphan hl hc =>
    exact orphan_fds hwf hs (Loop.held_pass (.inl hl) hc (.inl rfl)) (by simp [Loop.orphan, hc])
      (by simp [Loop.orphan, hl])
  | closeReaped hl hc =>
    exact close_fds hs (Loop.held_pass (.inr hl) hc (.inr rfl)) (by simp [Loop.orphan, hl])
  | closeOrphan hl hc =>
    exact closeOrphan_fds hs (by simp [Loop.held, hl]) rfl (by simp [Loop.orphan, hl, hc])
  | resize hl hi | loopReturn hl hi =>
    exact hloop (by simp [Loop.held, hl, hi]) (by simp [Loop.orphan, hl])
  | detach hl =>
    refine detach_fds hwf hs ?_ (by simp [Loop.orphan, hl])
    simp [Loop.held, hl]
  | drainClose hl hc => exact close_fds hs (Loop.held_drain hl hc) (by simp [Loop.orphan, hl])
  | waited hw => exact hwaiter (by simp [Waiter.heldFds, hw])
  | waiterDone hw => exact hwaiter (by simp [Waiter.heldFds, hw])
  -- from the waiter, the first of those it holds, to the closed ones
  | @waiterClose w c rest hw =>
    show Custody.Inv s.opened ((s.close c).setWaiter w ⟨rest, true, false⟩).heldFds
    rw [State.heldFds_setWaiter, State.heldFds_close]
    refine hs.transfer (by simp) ?_
    rw [show s.heldFds (.waiter w) = c :: rest by simp [State.heldFds, Waiter.heldFds, hw]]
    exact List.perm_middle.symm
  -- the destructor takes what is pending, and held nothing before
  | takeLeftover hdtor =>
    have hleft := hwf.leftover (by simp [hdtor]) (by simp [hdtor])
    have heq : (State.heldFds { s with leftover := s.pending, pending := [] }) =
        Function.update (Function.update s.heldFds .pending []) .destructor s.pending := by
      funext p
      cases p <;> simp [State.heldFds]
    show Custody.Inv s.opened (State.heldFds { s with leftover := s.pending, pending := [] })
    rw [heq]
    refine hs.transfer (by simp) ?_
    simp [State.heldFds, hleft]
  | @dtorClose c rest hdtor hleft =>
    have heq : (State.heldFds { s.close c with leftover := rest }) =
        Function.update (Function.update s.heldFds .destructor rest) .closed (c :: s.closed) := by
      funext p
      cases p <;> simp [State.heldFds, State.close]
    show Custody.Inv s.opened (State.heldFds { s.close c with leftover := rest })
    rw [heq]
    refine hs.transfer (by simp) ?_
    rw [show s.heldFds .destructor = c :: rest from hleft]
    exact List.perm_middle
  | _ => exact hs

/-! ### Waiters -/

/-- In the hands of a waiter, or done with. -/
def State.Waiting (s : State) (c : ℕ) : Prop :=
  c ∈ s.leftover ∨ c ∈ s.finished ∨ ∃ w, c ∈ (s.waiters w).todo

/-- Each child was given to one waiter, and has not come back. -/
structure Handed (s : State) : Prop where
  once : s.handed.Nodup
  waiting : ∀ c ∈ s.handed, s.Waiting c

theorem waiting_exclusive {s : State} (hs : Custody.Inv s.added s.held) {c : ℕ} {p : Place}
    (hp : p = .pending ∨ ∃ l, p = .loop l) (hc : c ∈ s.held p) : ¬ s.Waiting c := by
  rintro (h | h | ⟨w, h⟩)
  · have := hs.exclusive hc (show c ∈ s.held .destructor from h)
    rcases hp with rfl | ⟨l, rfl⟩ <;> cases this
  · have := hs.exclusive hc (show c ∈ s.held .finished from h)
    rcases hp with rfl | ⟨l, rfl⟩ <;> cases this
  · have := hs.exclusive hc (show c ∈ s.held (.waiter w) from h)
    rcases hp with rfl | ⟨l, rfl⟩ <;> cases this

theorem waiting_added {s : State} (hs : Custody.Inv s.added s.held) {c : ℕ} (h : s.Waiting c) :
    c ∈ s.added := by
  rcases h with h | h | ⟨w, h⟩
  · exact hs.known_of_mem (p := .destructor) h
  · exact hs.known_of_mem (p := .finished) h
  · exact hs.known_of_mem (p := .waiter w) h

/-- A waiter that was busy stays so when another one is started. -/
theorem waiting_detach {s : State} (hwf : Wf s) {todo : List ℕ} {closes : Bool} {c : ℕ}
    (h : c ∈ todo ∨ s.Waiting c) : (s.detach todo closes).Waiting c := by
  rcases h with h | h | h | ⟨w, h⟩
  · exact .inr (.inr ⟨s.detached, by simpa [State.detach, State.setWaiter] using h⟩)
  · exact .inl h
  · exact .inr (.inl h)
  · have hne : w ≠ s.detached := by
      rintro rfl
      rw [hwf.undetached _ (Nat.le_refl _)] at h
      exact absurd h List.not_mem_nil
    exact .inr (.inr ⟨w, by simpa [State.detach, State.setWaiter, hne] using h⟩)

theorem Handed.detach {s : State} (hwf : Wf s) (hs : Handed s) {todo : List ℕ} (closes : Bool)
    (hnodup : todo.Nodup) (hnew : ∀ c ∈ todo, ¬ s.Waiting c) : Handed (s.detach todo closes) where
  once := List.nodup_append'.mpr
    ⟨hnodup, hs.once, fun c hc hhanded => hnew c hc (hs.waiting c hhanded)⟩
  waiting c hc := waiting_detach hwf ((List.mem_append.mp hc).imp_right (hs.waiting c))

/-- A waiter goes on, and what it has no more is done with. -/
theorem waiting_setWaiter {s t : State} {w : ℕ} {x : Waiter} (ht : t.waiters = s.waiters)
    (hleft : t.leftover = s.leftover)
    (hx : ∀ c, c ∈ (s.waiters w).todo ∨ c ∈ s.finished → c ∈ x.todo ∨ c ∈ t.finished) {c : ℕ}
    (h : s.Waiting c) : (t.setWaiter w x).Waiting c := by
  have hcase (h : c ∈ x.todo ∨ c ∈ t.finished) : (t.setWaiter w x).Waiting c :=
    h.elim (fun h => .inr (.inr ⟨w, by simpa using h⟩)) fun h => .inr (.inl h)
  rcases h with h | h | ⟨v, h⟩
  · exact .inl (hleft ▸ h)
  · exact hcase (hx c (.inr h))
  · by_cases hv : v = w
    · subst hv
      exact hcase (hx c (.inl h))
    · exact .inr (.inr ⟨v, by rwa [State.setWaiter_ne t x hv, ht]⟩)

theorem step_handed {s t : State} {a : Action} (h : Step s a t) (hwf : Wf s)
    (hchildren : Custody.Inv s.added s.held) (hs : Handed s) : Handed t := by
  have hnew {k : ℕ} (hk : s.adds k = .idle ∨ s.adds k = .opened) : ∀ c ∈ [k], ¬ s.Waiting c := by
    intro c hc hwaiting
    obtain rfl := List.mem_singleton.mp hc
    have hadded := hwf.added c (waiting_added hchildren hwaiting)
    exact hk.elim hadded.1 hadded.2
  -- what a waiter has waited for is finished
  have hrest {w c : ℕ} {rest : List ℕ} {closes waited : Bool}
      (hw : s.waiters w = ⟨c :: rest, closes, waited⟩) (c' : ℕ)
      (hc' : c' ∈ (s.waiters w).todo ∨ c' ∈ s.finished) : c' ∈ rest ∨ c' ∈ c :: s.finished := by
    rw [hw, List.mem_cons] at hc'
    rcases hc' with (rfl | hc') | hc'
    · exact .inr List.mem_cons_self
    · exact .inl hc'
    · exact .inr (List.mem_cons_of_mem _ hc')
  cases h with
  | noPidfd hk =>
    have hdetach := hs.detach hwf false (List.nodup_singleton _) (hnew (.inl hk))
    exact ⟨hdetach.once, hdetach.waiting⟩
  | enqueueStopping hk =>
    have hdetach := hs.detach hwf true (List.nodup_singleton _) (hnew (.inr hk))
    exact ⟨hdetach.once, hdetach.waiting⟩
  -- the loop held the child, so no one waits for it yet
  | @orphan l revents i kept c hl hc =>
    have hheld : c ∈ s.held (.loop l) :=
      (Loop.held_pass (.inl hl) hc (.inl rfl)).symm.subset List.mem_cons_self
    have hdetach := hs.detach hwf false (List.nodup_singleton c)
      fun c' hc' => List.mem_singleton.mp hc' ▸ waiting_exclusive hchildren (.inr ⟨l, rfl⟩) hheld
    exact ⟨hdetach.once, hdetach.waiting⟩
  | @detach l hl =>
    have hheld : s.held (.loop l) = (s.loops l).watched := by simp [State.held, Loop.held, hl]
    have hdetach := hs.detach hwf true
      (hheld ▸ hchildren.nodup (.loop l))
      fun c hc => waiting_exclusive hchildren (.inr ⟨l, rfl⟩) (hheld ▸ hc)
    exact ⟨hdetach.once, hdetach.waiting⟩
  | closeReaped | drainClose =>
    refine ⟨hs.once, fun c hc => ?_⟩
    exact (hs.waiting c hc).imp_right fun h => h.imp_left (List.mem_cons_of_mem _)
  | waited hw =>
    exact ⟨hs.once, fun c hc => waiting_setWaiter rfl rfl (by simp [hw]) (hs.waiting c hc)⟩
  | @waiterDone w c rest hw =>
    refine ⟨hs.once, fun c' hc' =>
      waiting_setWaiter (s := s) (t := s.finish c) rfl rfl ?_ (hs.waiting c' hc')⟩
    exact hrest hw
  | @waiterClose w c rest hw =>
    refine ⟨hs.once, fun c' hc' =>
      waiting_setWaiter (s := s) (t := (s.close c).finish c) rfl rfl ?_ (hs.waiting c' hc')⟩
    exact hrest hw
  -- what is pending was handed to no one
  | takeLeftover hdtor =>
    have hleft := hwf.leftover (by simp [hdtor]) (by simp [hdtor])
    refine ⟨List.nodup_append'.mpr ⟨hchildren.nodup .pending, hs.once, fun c hc hhanded => ?_⟩,
      fun c hc => ?_⟩
    · exact waiting_exclusive hchildren (.inl rfl) hc (hs.waiting c hhanded)
    · rcases List.mem_append.mp hc with hc | hc
      · exact .inl hc
      · refine (hs.waiting c hc).imp_left fun h => ?_
        rw [hleft] at h
        exact absurd h List.not_mem_nil
  | dtorClose _ hleft =>
    refine ⟨hs.once, fun c hc => ?_⟩
    rcases hs.waiting c hc with h | h | h
    · rw [hleft] at h
      rcases List.mem_cons.mp h with rfl | h
      · exact .inr (.inl List.mem_cons_self)
      · exact .inl h
    · exact .inr (.inl (List.mem_cons_of_mem _ h))
    · exact .inr (.inr h)
  | _ => exact ⟨hs.once, hs.waiting⟩

/-! ### Loop threads -/

def LoopPhase.live : LoopPhase → Bool
  | .unborn | .returned => false
  | _ => true

/-- The call holds `thread_mu_`. -/
def AddPhase.locks : AddPhase → Bool
  | .joining | .spawning | .assigning _ => true
  | _ => false

/-- The call has joined the old loop, and the new one is not in `thread_` yet. -/
def AddPhase.replaces : AddPhase → Bool
  | .spawning | .assigning _ => true
  | _ => false

/-- Who starts a loop holds `thread_mu_`, and a loop that is live is in `thread_`
or is being put there. -/
structure Threads (s : State) : Prop where
  mu : ∀ k, (s.adds k).locks = true → s.threadMu = some (.add k)
  dtor : s.dtor = .joining → s.threadMu = some .dtor
  replaced : ∀ k, (s.adds k).replaces = true → s.thread = none
  live : ∀ l, (s.loops l).phase.live = true →
    s.thread = some l ∨ ∃ k, s.adds k = .assigning l

/-- **One loop at most** is live. -/
theorem Threads.live_unique {s : State} (hs : Threads s) {l m : ℕ}
    (hl : (s.loops l).phase.live = true) (hm : (s.loops m).phase.live = true) : l = m := by
  have hother {k l m : ℕ} (hk : s.adds k = .assigning l) : s.thread ≠ some m := by
    rw [hs.replaced k (by rw [hk]; rfl)]
    simp
  rcases hs.live l hl with hl | ⟨k, hk⟩ <;> rcases hs.live m hm with hm | ⟨j, hj⟩
  · exact Option.some_inj.mp (hl.symm.trans hm)
  · exact absurd hl (hother hj)
  · exact absurd hm (hother hk)
  · have hmu := hs.mu k (by rw [hk]; rfl)
    have hmu' := hs.mu j (by rw [hj]; rfl)
    obtain rfl : k = j := by simpa [hmu] using hmu'
    simpa [hk] using hj

theorem AddPhase.locks_of_replaces {p : AddPhase} (h : p.replaces = true) : p.locks = true := by
  cases p <;> first | rfl | exact absurd h (by simp [replaces])

/-- A step of a loop that is live. -/
theorem Threads.setLoop {s : State} (hs : Threads s) {l : ℕ} {x : Loop}
    (hl : (s.loops l).phase.live = true) : Threads (s.setLoop l x) where
  mu := hs.mu
  dtor := hs.dtor
  replaced := hs.replaced
  live m hm := by
    by_cases hml : m = l
    · subst hml
      exact hs.live m hl
    · rw [State.setLoop_ne s x hml] at hm
      exact hs.live m hm

/-- A step of a call that does not hold the lock. -/
theorem Threads.setAdd {s : State} (hs : Threads s) {k : ℕ} (hk : (s.adds k).locks = false)
    {phase : AddPhase} (hphase : phase.locks = false) : Threads (s.setAdd k phase) where
  mu j hj := by
    by_cases hjk : j = k
    · subst hjk
      rw [State.setAdd_self, hphase] at hj
      exact absurd hj (by simp)
    · rw [State.setAdd_ne s phase hjk] at hj
      exact hs.mu j hj
  dtor := hs.dtor
  replaced j hj := by
    by_cases hjk : j = k
    · subst hjk
      have hlocks := AddPhase.locks_of_replaces hj
      rw [State.setAdd_self, hphase] at hlocks
      exact absurd hlocks (by simp)
    · rw [State.setAdd_ne s phase hjk] at hj
      exact hs.replaced j hj
  live l hl := by
    refine (hs.live l hl).imp_right ?_
    rintro ⟨j, hj⟩
    refine ⟨j, ?_⟩
    rwa [State.setAdd_ne]
    rintro rfl
    rw [hj] at hk
    exact absurd hk (by simp [AddPhase.locks])

/-- Nobody else holds the lock. -/
theorem Threads.locks_unique {s : State} (hs : Threads s) {j k : ℕ} (hj : (s.adds j).locks = true)
    (hk : (s.adds k).locks = true) : j = k := by
  simpa [hs.mu j hj] using hs.mu k hk

theorem Threads.not_locks {s : State} (hs : Threads s)
    (h : s.threadMu = none ∨ s.threadMu = some .dtor) (k : ℕ) : (s.adds k).locks = false := by
  refine Bool.eq_false_iff.mpr fun hk => ?_
  rw [hs.mu k hk] at h
  simp at h

/-- The other calls when `k`, which holds the lock, goes on. -/
theorem Threads.others {s : State} (hs : Threads s) {j k : ℕ} (hk : (s.adds k).locks = true)
    (p : AddPhase) (hj : ((s.setAdd k p).adds j).locks = true) : j = k := by
  by_contra hjk
  rw [State.setAdd_ne s p hjk] at hj
  exact hjk (hs.locks_unique hj hk)

/-- The lock was free, so this call is the only one that holds it. -/
theorem Threads.lockThread {s : State} (hs : Threads s) (hmu : s.threadMu = none) {k : ℕ} :
    Threads { s.setAdd k .joining with threadMu := some (.add k) } := by
  have hnone := hs.not_locks (.inl hmu)
  have hothers {j : ℕ} (hj : ((s.setAdd k .joining).adds j).locks = true) : j = k := by
    by_contra hjk
    rw [State.setAdd_ne s .joining hjk, hnone j] at hj
    exact absurd hj (by simp)
  refine ⟨fun j hj => ?_, fun hdtor => ?_, fun j hj => ?_, fun l hl => ?_⟩
  · rw [hothers hj]
  · exact absurd ((hs.dtor hdtor).symm.trans hmu) (by simp)
  · obtain rfl := hothers (AddPhase.locks_of_replaces hj)
    simp [AddPhase.replaces] at hj
  · refine (hs.live l hl).imp_right ?_
    rintro ⟨j, hj⟩
    exact absurd (hnone j) (by simp [hj, AddPhase.locks])

theorem Threads.joinThread {s : State} (hs : Threads s) {k : ℕ} (hk : s.adds k = .joining)
    (hjoin : ∀ l, s.thread = some l → (s.loops l).phase = .returned) :
    Threads ({ s with thread := none }.setAdd k .spawning) where
  mu j hj := by
    obtain rfl := hs.others (by rw [hk]; rfl) .spawning hj
    exact hs.mu j (by rw [hk]; rfl)
  dtor := hs.dtor
  replaced _ _ := rfl
  live l hl := by
    rcases hs.live l hl with hthread | ⟨j, hj⟩
    · have hreturned := hjoin l hthread
      have hlive : (s.loops l).phase.live = true := hl
      rw [hreturned] at hlive
      exact absurd hlive (by simp [LoopPhase.live])
    · refine .inr ⟨j, ?_⟩
      rwa [State.setAdd_ne]
      rintro rfl
      exact absurd (hk.symm.trans hj) (by simp)

theorem Threads.spawnLoop {s : State} (hs : Threads s) {k : ℕ} (hk : s.adds k = .spawning) :
    Threads { (s.setLoop s.started ⟨[], .top⟩).setAdd k (.assigning s.started) with
      started := s.started + 1 } where
  mu j hj := by
    obtain rfl := hs.others (by rw [hk]; rfl) (.assigning s.started) hj
    exact hs.mu j (by rw [hk]; rfl)
  dtor := hs.dtor
  replaced _ _ := hs.replaced k (by rw [hk]; rfl)
  live l hl := by
    by_cases hls : l = s.started
    · subst hls
      exact .inr ⟨k, State.setAdd_self ..⟩
    · have hlive : ((s.setLoop s.started ⟨[], .top⟩).loops l).phase.live = true := hl
      rw [State.setLoop_ne s _ hls] at hlive
      rcases hs.live l hlive with hthread | ⟨j, hj⟩
      · rw [hs.replaced k (by rw [hk]; rfl)] at hthread
        exact absurd hthread (by simp)
      · have hjk := hs.locks_unique (j := j) (k := k) (by rw [hj]; rfl) (by rw [hk]; rfl)
        rw [hjk, hk] at hj
        exact absurd hj (by simp)

theorem Threads.storeThread {s : State} (hs : Threads s) {k l : ℕ} (hk : s.adds k = .assigning l) :
    Threads { s.setAdd k .waking with thread := some l, threadMu := none } := by
  have hlocks : (s.adds k).locks = true := by rw [hk]; rfl
  have hnone (j : ℕ) : ((s.setAdd k .waking).adds j).locks = false := by
    refine Bool.eq_false_iff.mpr fun hj => ?_
    obtain rfl := hs.others hlocks .waking hj
    simp [AddPhase.locks] at hj
  refine ⟨fun j hj => absurd hj (by simp [hnone j]), fun hdtor => ?_, fun j hj => ?_,
    fun m hm => ?_⟩
  · have hmu := (hs.dtor hdtor).symm.trans (hs.mu k hlocks)
    exact absurd hmu (by simp)
  · exact absurd (AddPhase.locks_of_replaces hj) (by simp [hnone j])
  · rcases hs.live m hm with hthread | ⟨j, hj⟩
    · rw [hs.replaced k (by rw [hk]; rfl)] at hthread
      exact absurd hthread (by simp)
    · have hjk := hs.locks_unique (j := j) (k := k) (by rw [hj]; rfl) hlocks
      rw [hjk, hk] at hj
      exact .inl (congrArg some (AddPhase.assigning.inj hj))

theorem Threads.congr {s t : State} (hs : Threads s) (hmu : t.threadMu = s.threadMu)
    (hdtor : t.dtor = s.dtor) (hadds : t.adds = s.adds) (hthread : t.thread = s.thread)
    (hloops : t.loops = s.loops) : Threads t := by
  constructor
  case mu =>
    rw [hmu, hadds]
    exact hs.mu
  case dtor =>
    rw [hmu, hdtor]
    exact hs.dtor
  case replaced =>
    rw [hthread, hadds]
    exact hs.replaced
  case live =>
    rw [hthread, hadds, hloops]
    exact hs.live

theorem step_threads {s t : State} {a : Action} (h : Step s a t) (hs : Threads s) : Threads t := by
  cases h with
  | pidfdOpen hk | noPidfd hk | enqueueStopping hk | wake hk =>
    exact (hs.setAdd (by rw [hk]; rfl) rfl).congr rfl rfl rfl rfl rfl
  | enqueue hk =>
    exact (hs.setAdd (by rw [hk]; rfl) (by split <;> rfl)).congr rfl rfl rfl rfl rfl
  | lockThread _ hmu => exact hs.lockThread hmu
  | joinThread hk hjoin => exact hs.joinThread hk hjoin
  | spawnLoop hk => exact hs.spawnLoop hk
  | storeThread hk => exact hs.storeThread hk
  | takeEnd hl | takePending hl | clearRunning hl | ready hl | interrupted hl | pollFailed hl
  | keep hl | reap hl | closeReaped hl | closeOrphan hl | resize hl | drainWait hl | drainClose hl
  | loopReturn hl | orphan hl | detach hl =>
    exact (hs.setLoop (by rw [hl]; rfl)).congr rfl rfl rfl rfl rfl
  | dtorStop => exact ⟨hs.mu, fun hdtor => absurd hdtor (by simp), hs.replaced, hs.live⟩
  | dtorLock _ hmu =>
    exact ⟨fun k hk => absurd hk (by simp [hs.not_locks (.inl hmu) k]), fun _ => rfl, hs.replaced,
      hs.live⟩
  | dtorJoin hdtor hjoin =>
    have hnone := hs.not_locks (.inr (hs.dtor hdtor))
    refine ⟨fun k hk => absurd hk (by simp [hnone k]), fun h => absurd h (by simp), fun _ _ => rfl,
      fun l hl => ?_⟩
    rcases hs.live l hl with hthread | ⟨k, hk⟩
    · exact absurd hl (by simp [hjoin l hthread, LoopPhase.live])
    · exact absurd (hnone k) (by simp [hk, AddPhase.locks])
  | takeLeftover | dtorWait | dtorClose | dtorReturn =>
    exact ⟨hs.mu, fun hdtor => absurd hdtor (by simp), hs.replaced, hs.live⟩
  | _ => exact hs.congr rfl rfl rfl rfl rfl

/-! ### The accounts -/

structure Inv (s : State) : Prop where
  wf : Wf s
  children : Custody.Inv s.added s.held
  fds : Custody.Inv s.opened s.heldFds
  handed : Handed s
  threads : Threads s

theorem init_inv (wakePipe : Bool) : Inv (init wakePipe) where
  wf := ⟨fun _ => trivial, fun _ _ => rfl, fun _ _ => rfl, fun _ _ => rfl, nofun, nofun⟩
  children := by
    rw [show (init wakePipe).held = fun _ => [] by funext p; cases p <;> rfl]
    exact Custody.inv_nil
  fds := by
    rw [show (init wakePipe).heldFds = fun _ => [] by funext p; cases p <;> rfl]
    exact Custody.inv_nil
  handed := ⟨List.nodup_nil, nofun⟩
  threads := ⟨nofun, nofun, nofun, nofun⟩

theorem step_inv {s t : State} {a : Action} (h : step s a = some t) (hs : Inv s) : Inv t where
  wf := step_wf (step_cases h) hs.wf
  children := step_children (step_cases h) hs.wf hs.children
  fds := step_fds (step_cases h) hs.wf hs.fds
  handed := step_handed (step_cases h) hs.wf hs.children hs.handed
  threads := step_threads (step_cases h) hs.threads

theorem run_inv {wakePipe : Bool} {as : List Action} {t : State}
    (h : run step (init wakePipe) as = some t) : Inv t :=
  run_invariant step_inv h (init_inv wakePipe)

/-- Every child has its place, and every pidfd its end. -/
structure Accounted (s : State) : Prop where
  /-- a child that was taken over is queued, watched by a loop, in the hands of one
  waiter or done with, and there once -/
  placed : ∀ c ∈ s.added, ∃! p, c ∈ s.held p
  once : ∀ p, (s.held p).Nodup
  /-- it is given to one waiter at most -/
  handed : s.handed.Nodup
  /-- a pidfd is closed at most once, and only after it was opened -/
  closed : s.closed.Nodup
  opened : ∀ c ∈ s.closed, c ∈ s.opened
  /-- of a child that is done with, the pidfd is closed, or the loop that gave the
  child away is about to close it -/
  done : ∀ c ∈ s.finished, c ∈ s.opened → c ∈ s.closed ∨ ∃ l, c ∈ (s.loops l).orphan
  live : ∀ l m, (s.loops l).phase.live = true → (s.loops m).phase.live = true → l = m

theorem Inv.done {s : State} (hs : Inv s) {c : ℕ} (hc : c ∈ s.finished) (hopened : c ∈ s.opened) :
    c ∈ s.closed ∨ ∃ l, c ∈ (s.loops l).orphan := by
  have hfinished : c ∈ s.held .finished := hc
  obtain ⟨p, hp⟩ := (hs.fds.covered c).mp hopened
  -- whoever else has the pidfd has the child
  cases p with
  | adder k =>
    have hadds := (hs.wf.added c (hs.children.known_of_mem hfinished)).2
    cases hk : s.adds k with
    | opened =>
      obtain rfl : c = k := by simpa [State.heldFds, AddPhase.held, hk] using hp
      exact absurd hk hadds
    | _ => simp [State.heldFds, AddPhase.held, hk] at hp
  | pending => exact absurd (hs.children.exclusive (p := .pending) hp hfinished) (by simp)
  | loop l => exact absurd (hs.children.exclusive (p := .loop l) hp hfinished) (by simp)
  | orphan l => exact .inr ⟨l, hp⟩
  | waiter w =>
    have htodo : c ∈ (s.waiters w).todo := by
      simp only [State.heldFds, Waiter.heldFds] at hp
      split at hp
      · exact hp
      · exact absurd hp List.not_mem_nil
    exact absurd (hs.children.exclusive (p := .waiter w) htodo hfinished) (by simp)
  | destructor => exact absurd (hs.children.exclusive (p := .destructor) hp hfinished) (by simp)
  | closed => exact .inl hp

/-- **The accounts balance** in every state of every run. -/
theorem accounted (wakePipe : Bool) (as : List Action) (t : State)
    (h : run step (init wakePipe) as = some t) : Accounted t where
  placed _ hc := (run_inv h).children.exists_unique hc
  once := (run_inv h).children.nodup
  handed := (run_inv h).handed.once
  closed := (run_inv h).fds.nodup .closed
  opened _ hc := (run_inv h).fds.known_of_mem (p := .closed) hc
  done _ hc hopened := (run_inv h).done hc hopened
  live _ _ hl hm := (run_inv h).threads.live_unique hl hm

/-- One child, from its `add` to the end of the loop. -/
def quietRun : List Action :=
  [.add 0 (.pidfdOpen true), .add 0 .enqueue, .add 0 .lockThread, .add 0 .joinThread,
    .add 0 .spawnLoop, .loop 0 .takePending, .add 0 .storeThread, .add 0 .wake, .exit 0,
    .loop 0 (.poll (.ready [true, true])), .loop 0 .waitpid, .loop 0 .close, .loop 0 .resize,
    .loop 0 .takePending, .loop 0 .return]

theorem accounted_quiet : ∃ t, run step (init true) quietRun = some t ∧ Accounted t ∧
    t.finished = [0] ∧ t.closed = [0] := by
  obtain ⟨t, hrun, ht⟩ := exists_run step (init true) quietRun
    (p := fun t => t.finished = [0] ∧ t.closed = [0]) (by decide +kernel)
  exact ⟨t, hrun, accounted true quietRun t hrun, of_decide_eq_true ht⟩

/-- `poll` reports a child that still runs; it ends, and its waiter is done before
the loop closes its pidfd. -/
def orphanRun : List Action :=
  [.add 0 (.pidfdOpen true), .add 0 .enqueue, .add 0 .lockThread, .add 0 .joinThread,
    .add 0 .spawnLoop, .loop 0 .takePending, .loop 0 (.poll (.ready [false, true])),
    .loop 0 .waitpid, .exit 0, .waiter 0 .wait]

theorem orphan_done_before_close : ∃ t, run step (init true) orphanRun = some t ∧
    t.finished = [0] ∧ t.opened = [0] ∧ t.closed = [] ∧
    ¬ ∀ c ∈ t.finished, c ∈ t.opened → c ∈ t.closed := by
  obtain ⟨t, hrun, ht⟩ := exists_run step (init true) orphanRun
    (p := fun t => t.finished = [0] ∧ t.opened = [0] ∧ t.closed = []) (by decide +kernel)
  obtain ⟨hfinished, hopened, hclosed⟩ := of_decide_eq_true ht
  refine ⟨t, hrun, hfinished, hopened, hclosed, fun h => ?_⟩
  have hmem := h 0 (by simp [hfinished]) (by simp [hopened])
  rw [hclosed] at hmem
  exact absurd hmem List.not_mem_nil

end ChildReaper
