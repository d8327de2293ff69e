/-
What a transaction gets when its worker is destroyed.

`loop()` looks at `stop_` before it looks at the queue, and the destructor joins
it without draining: whatever is queued when `stop_` is set stays there.

* `destructor_answers_iff` — by the time the destructor returns every enqueued
  transaction has had one terminal frame and has been released once, exactly if
  nothing was queued when `stop_` was set (and no add of it was rejected);
* `destructor_drops_backlog` — a run that leaves one behind.
-/
import FlatpakDart.TransactionBridge

open TransactionWorker

namespace TransactionBridge

/-- One terminal frame on its port, and both of its references released once. -/
structure Answered (w : Worker) (item : PendingTx) : Prop where
  frame : ((w.posts item.port).filter isTerminal).length = 1
  tx : w.unrefTx.count item.tx = 1
  cancel : w.unrefCancel.count item.cancel = 1

/-! ### Nothing leaves the queue after `stop_` -/

theorem stop_keeps_queue {s t : State} {a : Action} (h : step s a = some t) (hs : Inv s)
    (hstop : s.worker.stop = true) :
    t.worker.stop = true ∧ t.worker.queue = s.worker.queue := by
  have hdead : s.worker.dtor ≠ .alive := hs.worker.stopping.mp hstop
  -- nobody calls in any more, and the thread returns instead of popping
  cases step_cases hs.handles h with
  | create halive => exact absurd halive hdead
  | add halive hk => exact absurd halive hdead
  | submit halive hk => exact absurd halive hdead
  | deliver hmsg hk hopen => exact ⟨hstop, rfl⟩
  | cancel hk hdtor =>
    rw [cancelCurrent_eq]
    exact ⟨hstop, rfl⟩
  | loop hw =>
    cases loopStep_cases hw with
    | dequeue hloop hrunning hqueue => exact absurd hstop (by simp [hrunning])
    | _ => exact ⟨hstop, rfl⟩
  | dtorStop hw => exact absurd (dtorStop_cases hw).1 hdead
  | dtorJoin hw =>
    obtain ⟨-, -, rfl⟩ := dtorJoin_cases hw
    exact ⟨hstop, rfl⟩

theorem run_keeps_queue {s t : State} {as : List Action} (h : Machine.run step s as = some t)
    (hs : Inv s) (hstop : s.worker.stop = true) :
    t.worker.stop = true ∧ t.worker.queue = s.worker.queue := by
  have hkept := Machine.run_invariant
    (I := fun u => Inv u ∧ u.worker.stop = true ∧ u.worker.queue = s.worker.queue)
    (fun hstep hu => by
      obtain ⟨hu, hustop, huqueue⟩ := hu
      obtain ⟨htstop, htqueue⟩ := stop_keeps_queue hstep hu hustop
      exact ⟨step_inv hstep hu, htstop, htqueue.trans huqueue⟩)
    h ⟨hs, hstop, rfl⟩
  exact hkept.2

/-- What is queued at the destructor's critical section is queued for good. -/
theorem backlog_stays {s q q' : State} {as : List Action}
    (h : Machine.run step init as = some s) (hstop : Machine.Takes step init as q .dtorStop q') :
    s.worker.queue = q.worker.queue := by
  obtain ⟨before, hbefore⟩ := hstop.reached
  obtain ⟨after, hafter⟩ := hstop.run_after h
  have hq' : Inv q' := step_inv hstop.step_eq (run_inv hbefore)
  obtain ⟨w, hw, rfl⟩ := Option.map_eq_some_iff.mp hstop.step_eq
  obtain ⟨-, rfl⟩ := dtorStop_cases hw
  exact (run_keeps_queue hafter hq' rfl).2

/-- A destructor that is past its critical section went through it. -/
theorem dtorStop_taken {s : State} {as : List Action} (h : Machine.run step init as = some s)
    (hdtor : s.worker.dtor ≠ .alive) : ∃ q q', Machine.Takes step init as q .dtorStop q' := by
  -- alive until the run takes that step
  refine (Machine.run_invariant_along (I := fun u => u.worker.dtor = .alive ∨
    ∃ q q', Machine.Takes step init as q .dtorStop q') (fun q a q' htakes hq => ?_) h
    (Or.inl rfl)).resolve_left hdtor
  rcases hq with halive | hfound
  · obtain ⟨before, hbefore⟩ := htakes.reached
    cases step_cases (run_inv hbefore).handles htakes.step_eq with
    | dtorStop hw => exact Or.inr ⟨q, _, htakes⟩
    | @create answer _ => cases answer <;> exact Or.inl halive
    | @add k op answer _ _ => cases op <;> cases answer <;> exact Or.inl halive
    | cancel hk hdtor =>
      left
      rw [cancelCurrent_eq]
      exact halive
    | loop hw => cases loopStep_cases hw <;> exact Or.inl halive
    | dtorJoin hw =>
      obtain ⟨-, hstopping, -⟩ := dtorJoin_cases hw
      exact absurd hstopping (by simp [halive])
    | _ => exact Or.inl halive
  · exact Or.inr hfound

/-! ### Who is answered -/

theorem dequeued_frames {s : State} (hs : Inv s) (hloop : s.worker.loop = .returned)
    {x : PendingTx} (hx : x ∈ s.worker.dequeued) :
    ((s.worker.posts x.port).filter isTerminal).length = (s.worker.rejected x.tx).length + 1 := by
  have hreturned : s.submits x.tx = .returned := hs.submitted x (hs.worker.dequeued_subset hx)
  -- a thread that has returned has nothing in hand
  have hanswered : x.tx ∈ s.worker.answered := by
    rw [Worker.answered, (hs.worker.returned_released hloop).1]
    exact List.mem_append_left _ (List.mem_map_of_mem hx)
  have hport : x.port = x.tx := by
    rw [hs.worker.dequeued_of hx]
    rfl
  rw [hport]
  exact Sent.terminals_length (hs.framed x.tx (by simp [hreturned])) hanswered

/-- What is still queued has not been released. -/
theorem queued_not_released {w : Worker} (hw : w.Inv) {x : PendingTx} (hx : x ∈ w.queue) :
    w.unrefTx.count x.tx = 0 := by
  refine List.count_eq_zero_of_not_mem fun hmem => ?_
  exact (hw.answered_not_pending (List.mem_append_left _ hmem)).2 (List.mem_map_of_mem hx)

/-- **The destructor and the backlog**: when it has returned, every enqueued
transaction has been answered once and released once if and only if nothing was
queued when it set `stop_` and libflatpak had rejected none of their adds. -/
theorem destructor_answers_iff {s : State} {as : List Action}
    (h : Machine.run step init as = some s) (hdtor : s.worker.dtor = .returned) :
    (∀ item ∈ s.worker.enqueued, Answered s.worker item) ↔
      (∀ q q', Machine.Takes step init as q .dtorStop q' → q.worker.queue = []) ∧
      ∀ item ∈ s.worker.enqueued, s.worker.rejected item.tx = [] := by
  have hs : Inv s := run_inv h
  have hloop : s.worker.loop = .returned := hs.worker.joined hdtor
  constructor
  · intro hall
    -- what is queued was never released
    have hqueue : s.worker.queue = [] := by
      refine List.eq_nil_iff_forall_not_mem.mpr fun x hx => ?_
      have hx' : x ∈ s.worker.enqueued := by
        rw [hs.worker.enqueued_eq]
        exact List.mem_append_right _ hx
      exact absurd ((hall x hx').tx.symm.trans (queued_not_released hs.worker hx)) (by simp)
    refine ⟨fun q q' htakes => (backlog_stays h htakes).symm.trans hqueue, ?_⟩
    intro x hx
    have hx' : x ∈ s.worker.dequeued := by
      rwa [hs.worker.enqueued_eq, hqueue, List.append_nil] at hx
    -- a rejected add has left one terminal frame more
    have hcount := (dequeued_frames hs hloop hx').symm.trans (hall x hx).frame
    exact List.eq_nil_of_length_eq_zero (by omega)
  · rintro ⟨hempty, hrejected⟩ x hx
    obtain ⟨q, q', htakes⟩ := dtorStop_taken h (by simp [hdtor])
    have hqueue : s.worker.queue = [] := (backlog_stays h htakes).trans (hempty q q' htakes)
    have hx' : x ∈ s.worker.dequeued := by
      rwa [hs.worker.enqueued_eq, hqueue, List.append_nil] at hx
    obtain ⟨htx, hcancel⟩ := hs.worker.released_once hx' (by simp [hloop, Loop.inHand])
    refine ⟨?_, htx, hcancel⟩
    rw [dequeued_frames hs hloop hx', hrejected x hx, List.length_nil]

/-- One transaction submitted, run and answered, then the destructor. -/
def quietRun : List Action :=
  [.create .accepted, .submit 0, .loop .dequeue, .loop .runBegin, .loop (.runReturn none),
    .loop .postResult, .loop .clearCurrent, .loop .unrefCancel, .loop .unrefTx, .dtorStop,
    .loop .observeStop, .dtorJoin]

/-- If this step calls the destructor, nothing is queued. -/
def stopsEmpty (s : State) : Action → Bool
  | .dtorStop => s.worker.queue.isEmpty
  | _ => true

/-- What was submitted is answered. -/
theorem destructor_answers_quiet :
    ∃ s, Machine.run step init quietRun = some s ∧ s.worker.enqueued = [.of 0] ∧
      ∀ item ∈ s.worker.enqueued, Answered s.worker item := by
  obtain ⟨s, hrun, hs⟩ := Machine.exists_run step init quietRun
    (p := fun s => s.worker.dtor = .returned ∧ s.worker.enqueued = [.of 0] ∧
      s.worker.rejected 0 = []) (by decide +kernel)
  obtain ⟨hdtor, henqueued, hrejected⟩ := of_decide_eq_true hs
  have hempty : Machine.along step stopsEmpty init quietRun = true := by decide +kernel
  have hqueue : ∀ q q', Machine.Takes step init quietRun q .dtorStop q' → q.worker.queue = [] :=
    fun q q' htakes => List.isEmpty_iff.mp (Machine.takes_of_along hempty q .dtorStop q' htakes)
  refine ⟨s, hrun, henqueued, (destructor_answers_iff hrun hdtor).mpr
    ⟨hqueue, fun item hitem => ?_⟩⟩
  rw [henqueued, List.mem_singleton] at hitem
  rw [hitem]
  exact hrejected

/-- A second transaction waits behind the first when the destructor is called. -/
def backlogRun : List Action :=
  [.create .accepted, .submit 0, .create .accepted, .submit 1, .loop .dequeue, .loop .runBegin,
    .dtorStop, .loop (.runReturn none), .loop .postResult, .loop .clearCurrent,
    .loop .unrefCancel, .loop .unrefTx, .loop .observeStop, .dtorJoin]

/-- The destructor returns, and the transaction that waited has had no frame
and is never released. -/
theorem destructor_drops_backlog :
    ∃ s, Machine.run step init backlogRun = some s ∧ s.worker.dtor = .returned ∧
      .of 1 ∈ s.worker.enqueued ∧ s.worker.posts 1 = [] ∧ 1 ∉ s.worker.unrefTx ∧
      1 ∉ s.worker.unrefCancel := by
  obtain ⟨s, hrun, hs⟩ := Machine.exists_run step init backlogRun
    (p := fun s => s.worker.dtor = .returned ∧ .of 1 ∈ s.worker.enqueued ∧
      s.worker.posts 1 = [] ∧ 1 ∉ s.worker.unrefTx ∧ 1 ∉ s.worker.unrefCancel)
    (by decide +kernel)
  exact ⟨s, hrun, of_decide_eq_true hs⟩

end TransactionBridge
