/-
What `FlatpakTransaction.cancel()` cancels.

The call reaches the worker without its transaction and signals whatever is
current.  `CancelContract` is what a caller may expect of it, `CancelCondition`
what has to hold at the call for the worker to keep to it:

* `drain_succeeds` — a worker that is not stopping can run all it has queued;
* `cancel_contract_iff` — in every run, all `cancel()` calls keep the contract
  exactly if all of them meet the condition;
* `cancel_strays` — cancelling a completed transaction signals another one.
-/
import FlatpakDart.TransactionShutdown

open TransactionWorker

namespace TransactionWorker

/-! ### A worker that is not stopping runs what is queued -/

theorem Worker.LoopStep.eq_some {w w' : Worker} {a : LoopAction} (h : w.LoopStep a w') :
    w.loopStep a = some w' := by
  cases h with
  | dequeue hloop hstop hqueue => simp [Worker.loopStep, hloop, hstop, hqueue]
  | changed hloop hctx => simp [Worker.loopStep, hloop, hctx]
  | runReturn hloop herr =>
    simp only [Worker.loopStep, hloop]
    rw [if_neg herr]
  | observeStop hloop hstop => simp [Worker.loopStep, hloop, hstop]
  | runBegin hloop | newOperation hloop | operationDone hloop | postResult hloop
  | clearCurrent hloop | unrefCancel hloop | unrefTx hloop => simp [Worker.loopStep, hloop]

/-- The thread can get back to `cv_.wait` by itself, having taken nothing more. -/
def Worker.Parks (w : Worker) : Prop :=
  ∃ as w', Machine.run Worker.loopStep w as = some w' ∧ w'.loop = .waiting ∧
    w'.queue = w.queue ∧ w'.stop = w.stop ∧ w'.signalled = w.signalled ∧ w.outcomes ⊆ w'.outcomes

namespace Worker

variable {w w' : Worker}

theorem Parks.step {a : LoopAction} (h : w'.Parks) (hstep : w.LoopStep a w')
    (hqueue : w'.queue = w.queue) (hstop : w'.stop = w.stop)
    (hsignalled : w'.signalled = w.signalled) (houtcomes : w.outcomes ⊆ w'.outcomes) :
    w.Parks := by
  obtain ⟨as, v, hrun, hloop, hvqueue, hvstop, hvsignalled, hvoutcomes⟩ := h
  exact ⟨a :: as, v, Machine.run_cons_eq_some.mpr ⟨w', hstep.eq_some, hrun⟩, hloop,
    hvqueue.trans hqueue, hvstop.trans hstop, hvsignalled.trans hsignalled,
    List.Subset.trans houtcomes hvoutcomes⟩

theorem parks_waiting (h : w.loop = .waiting) : w.Parks :=
  ⟨[], w, rfl, h, rfl, rfl, rfl, List.Subset.refl _⟩

variable {item : PendingTx}

theorem parks_cancelReleased (h : w.loop = .cancelReleased item) : w.Parks :=
  (parks_waiting rfl).step (.unrefTx h) rfl rfl rfl (List.Subset.refl _)

theorem parks_cleared (h : w.loop = .cleared item) : w.Parks :=
  (parks_cancelReleased rfl).step (.unrefCancel h) rfl rfl rfl (List.Subset.refl _)

theorem parks_posted (h : w.loop = .posted item) : w.Parks :=
  (parks_cleared rfl).step (.clearCurrent h) rfl rfl rfl (List.Subset.refl _)

theorem parks_ran {err : Option CString} (h : w.loop = .ran item err) : w.Parks :=
  (parks_posted rfl).step (.postResult h) rfl rfl rfl (List.Subset.refl _)

theorem parks_running {cancelled : Bool} {ctxs : List ProgressCtx}
    (h : w.loop = .running item cancelled ctxs) : w.Parks := by
  -- the run can always fail
  have hreturn : LoopStep w (.runReturn (some (.lit "" (by decide)))) _ := .runReturn h (by simp)
  exact (parks_ran rfl).step hreturn rfl rfl rfl (List.subset_append_left _ _)

theorem parks_popped (h : w.loop = .popped item) : w.Parks :=
  (parks_running rfl).step (.runBegin h) rfl rfl rfl (List.Subset.refl _)

theorem parks (h : w.loop ≠ .returned) : w.Parks := by
  cases hloop : w.loop with
  | waiting => exact parks_waiting hloop
  | popped item => exact parks_popped hloop
  | running item cancelled ctxs => exact parks_running hloop
  | ran item err => exact parks_ran hloop
  | posted item => exact parks_posted hloop
  | cleared item => exact parks_cleared hloop
  | cancelReleased item => exact parks_cancelReleased hloop
  | returned => exact absurd hloop h

/-- A parked thread can take the first item and run it to success, unless its
cancellable was signalled. -/
theorem execute_head {rest : List PendingTx} (hloop : w.loop = .waiting) (hstop : w.stop = false)
    (hqueue : w.queue = item :: rest) (hsignalled : item.cancel ∉ w.signalled) :
    ∃ as w', Machine.run Worker.loopStep w as = some w' ∧ w'.loop = .waiting ∧ w'.queue = rest ∧
      w'.stop = false ∧ w'.signalled = w.signalled ∧ (item, none) ∈ w'.outcomes := by
  have hdequeue := (LoopStep.dequeue hloop hstop hqueue).eq_some
  -- the states on the way, each computed from the one before
  set w₁ : Worker := { w with
    queue := rest
    currentCancel := some item.cancel
    loop := .popped item
    dequeued := w.dequeued ++ [item] } with hw₁
  have hpopped : w₁.loop = .popped item := rfl
  have hbegin := (LoopStep.runBegin hpopped).eq_some
  have hclean : decide (item.cancel ∈ w₁.signalled) = false := decide_eq_false hsignalled
  rw [hclean] at hbegin
  set w₂ : Worker := { w₁ with
    loop := .running item false []
    executed := w₁.executed ++ [item] } with hw₂
  have hrunning : w₂.loop = .running item false [] := rfl
  have hreturn : LoopStep w₂ (.runReturn none) _ := .runReturn hrunning (by simp)
  have hran : ({ w₂ with loop := .ran item none, outcomes := w₂.outcomes ++ [(item, none)] } :
      Worker).loop = .ran item none := rfl
  obtain ⟨as, v, hrun, hvloop, hvqueue, hvstop, hvsignalled, hvoutcomes⟩ := parks_ran hran
  refine ⟨.dequeue :: .runBegin :: .runReturn none :: as, v, ?_, hvloop, hvqueue,
    hvstop.trans hstop, hvsignalled,
    hvoutcomes (List.mem_append_right _ (List.mem_singleton_self _))⟩
  rw [Machine.run_cons, hdequeue, Option.bind_some, Machine.run_cons, hbegin, Option.bind_some,
    Machine.run_cons, hreturn.eq_some, Option.bind_some, hrun]

/-- A parked thread can come to any queued item and run it to success. -/
theorem drain_succeeds {before after : List PendingTx} (hloop : w.loop = .waiting)
    (hstop : w.stop = false) (hqueue : w.queue = before ++ item :: after)
    (hsignalled : ∀ x ∈ w.queue, x.cancel ∉ w.signalled) :
    ∃ as w', Machine.run Worker.loopStep w as = some w' ∧ (item, none) ∈ w'.outcomes := by
  -- the items in front of it are run first
  induction before generalizing w with
  | nil =>
    obtain ⟨as, v, hrun, -, -, -, -, hmem⟩ :=
      execute_head hloop hstop hqueue (hsignalled item (by simp [hqueue]))
    exact ⟨as, v, hrun, hmem⟩
  | cons x before ih =>
    obtain ⟨as, v, hrun, hvloop, hvqueue, hvstop, hvsignalled, -⟩ :=
      execute_head hloop hstop hqueue (hsignalled x (by simp [hqueue]))
    have hrest : ∀ y ∈ v.queue, y.cancel ∉ v.signalled := by
      intro y hy
      rw [hvsignalled]
      refine hsignalled y ?_
      rw [hqueue]
      exact List.mem_cons_of_mem x (hvqueue ▸ hy)
    obtain ⟨bs, u, hrun', hmem⟩ := ih hvloop hvstop hvqueue hrest
    exact ⟨as ++ bs, u, Machine.run_append_eq_some.mpr ⟨v, hrun, hrun'⟩, hmem⟩

end Worker

end TransactionWorker

namespace TransactionBridge

/-- Steps of the thread are steps of the system. -/
theorem run_loop {s : State} {w : Worker} {as : List LoopAction}
    (h : Machine.run Worker.loopStep s.worker as = some w) :
    Machine.run step s (as.map .loop) = some { s with worker := w } := by
  -- the other fields of the state are as they were
  induction as generalizing s with
  | nil =>
    obtain rfl := Option.some_inj.mp h
    rfl
  | cons a as ih =>
    obtain ⟨v, hv, hrest⟩ := Machine.run_cons_eq_some.mp h
    have hstep : step s (.loop a) = some { s with worker := v } := by rw [step, hv, Option.map_some]
    rw [List.map_cons, Machine.run_cons, hstep, Option.bind_some]
    exact ih (s := { s with worker := v }) hrest

/-! ### The contract of `cancel()` -/

/-- `flatpak_transaction_run` succeeded on transaction `k`. -/
def Succeeded (s : State) (k : ℕ) : Prop := (.of k, none) ∈ s.worker.outcomes

/-- The worker has posted the result of transaction `k`. -/
def Completed (s : State) (k : ℕ) : Prop := k ∈ s.worker.answered

def Queued (s : State) (k : ℕ) : Prop := .of k ∈ s.worker.queue

/-- What a caller expects of `cancel()` on transaction `k`, called in `s` and
leading to `t`. -/
structure CancelContract (s : State) (k : ℕ) (t : State) : Prop where
  /-- it signals no other transaction's cancellable -/
  own : ∃ new, t.worker.signalled = s.worker.signalled ++ new ∧ ∀ c ∈ new, c = k
  /-- on a completed transaction it does nothing -/
  completed : Completed s k → t = s
  /-- a queued transaction does not run to success any more -/
  queued : Queued s k → ∀ as u, Machine.run step t as = some u → ¬ Succeeded u k

/-- Nothing is current but `k` itself, before its result is posted, and `k` is
not queued in a worker that goes on. -/
structure CancelCondition (s : State) (k : ℕ) : Prop where
  current : ∀ c, s.worker.currentCancel = some c → c = k ∧ ¬ Completed s k
  queued : Queued s k → s.worker.stop = true

/-- What succeeded has left the queue. -/
theorem succeeded_not_queued {s : State} (hs : Inv s) {k : ℕ} (h : Succeeded s k) :
    ¬ Queued s k := by
  intro hk
  -- an item is enqueued once, and popped for good
  have hdistinct : s.worker.enqueued.Nodup := hs.worker.distinct.of_map
  rw [hs.worker.enqueued_eq] at hdistinct
  exact List.disjoint_of_nodup_append hdistinct (hs.worker.outcomes _ h) hk

/-- Queued transactions have never been signalled. -/
theorem queued_not_signalled {s : State} (hs : Inv s) {x : PendingTx} (hx : x ∈ s.worker.queue) :
    x.cancel ∉ s.worker.signalled := by
  intro hsignalled
  have hx' : x ∈ s.worker.enqueued := by
    rw [hs.worker.enqueued_eq]
    exact List.mem_append_right _ hx
  have hsame : x.cancel = x.tx := by
    rw [hs.worker.items x hx']
    rfl
  have hdequeued := hs.worker.signalled _ hsignalled
  rw [hs.worker.dequeued_cancel, hsame] at hdequeued
  have hdistinct := hs.worker.distinct
  rw [hs.worker.enqueued_eq, List.map_append] at hdistinct
  exact List.disjoint_of_nodup_append hdistinct hdequeued (List.mem_map_of_mem hx)

/-- A transaction queued in a worker that goes on can still succeed. -/
theorem queued_may_succeed {s : State} (hs : Inv s) {k : ℕ} (hk : Queued s k)
    (hstop : s.worker.stop = false) : ∃ as u, Machine.run step s as = some u ∧ Succeeded u k := by
  have hreturned : s.worker.loop ≠ .returned := fun h => by
    simp [hs.worker.sawStop h] at hstop
  -- first what is in hand comes to an end, and then the queue
  obtain ⟨as, v, hrun, hloop, hqueue, hvstop, hsignalled, -⟩ := Worker.parks hreturned
  obtain ⟨before, after, hsplit⟩ := List.append_of_mem hk
  have hclean : ∀ x ∈ v.queue, x.cancel ∉ v.signalled := by
    intro x hx
    rw [hsignalled]
    exact queued_not_signalled hs (hqueue ▸ hx)
  obtain ⟨bs, u, hrun', hmem⟩ :=
    Worker.drain_succeeds hloop (hvstop.trans hstop) (hqueue.trans hsplit) hclean
  exact ⟨_, _, run_loop (Machine.run_append_eq_some.mpr ⟨v, hrun, hrun'⟩), hmem⟩

/-- A transaction queued in a worker that stops never succeeds. -/
theorem queued_never_succeeds {s t : State} {as : List Action} (hs : Inv s) {k : ℕ}
    (hk : Queued s k) (hstop : s.worker.stop = true) (h : Machine.run step s as = some t) :
    ¬ Succeeded t k := by
  have ht : Inv t := Machine.run_invariant (I := Inv) step_inv h hs
  refine fun hsucceeded => succeeded_not_queued ht hsucceeded ?_
  rw [Queued, (run_keeps_queue h hs hstop).2]
  exact hk

theorem cancel_step {s t : State} {k : ℕ} (h : step s (.cancel k) = some t) :
    t = { s with worker := { s.worker with
      signalled := s.worker.signalled ++ s.worker.currentCancel.toList } } := by
  simp only [step] at h
  split at h
  · rw [← cancelCurrent_eq]
    exact (Option.some_inj.mp h).symm
  · exact absurd h (by simp)

/-- One call of `cancel()` keeps the contract exactly if it meets the condition. -/
theorem cancel_step_contract_iff {s t : State} (hs : Inv s) {k : ℕ}
    (h : step s (.cancel k) = some t) : CancelContract s k t ↔ CancelCondition s k := by
  have ht : Inv t := step_inv h hs
  obtain rfl := cancel_step h
  constructor
  · intro hcontract
    refine ⟨fun c hc => ⟨?_, ?_⟩, ?_⟩
    -- what is signalled is the cancellable of the run in progress
    · obtain ⟨new, hnew, hown⟩ := hcontract.own
      obtain rfl := List.append_cancel_left hnew
      exact hown c (by simp [hc])
    · intro hcompleted
      -- a signal shows in the state
      have hsame := congrArg (fun s => s.worker.signalled.length) (hcontract.completed hcompleted)
      simp [hc] at hsame
    · intro hqueued
      -- nobody has told the worker, which can still run it to success
      by_contra hstop
      obtain ⟨as, u, hrun, hsucceeded⟩ := queued_may_succeed ht hqueued (by simpa using hstop)
      exact hcontract.queued hqueued as u hrun hsucceeded
  · intro hcondition
    refine ⟨⟨_, rfl, ?_⟩, ?_, ?_⟩
    · intro c hc
      exact (hcondition.current c (by simpa using hc)).1
    · intro hcompleted
      cases hcurrent : s.worker.currentCancel with
      | none => simp
      | some c => exact absurd hcompleted (hcondition.current c hcurrent).2
    · intro hqueued as u hrun
      exact queued_never_succeeds ht hqueued (hcondition.queued hqueued) hrun

/-- **`cancel()`**: in every run, every call keeps the contract if and only if
every call meets the condition. -/
theorem cancel_contract_iff (as : List Action) :
    (∀ k q q', Machine.Takes step init as q (.cancel k) q' → CancelContract q k q') ↔
      ∀ k q q', Machine.Takes step init as q (.cancel k) q' → CancelCondition q k := by
  refine forall_congr' fun k => forall_congr' fun q => forall_congr' fun q' =>
    forall_congr' fun htakes => ?_
  obtain ⟨before, hbefore⟩ := htakes.reached
  exact cancel_step_contract_iff (run_inv hbefore) htakes.step_eq

/-- The second transaction runs when `cancel()` of the first is called. -/
def strayRun : List Action :=
  [.create .accepted, .submit 0, .create .accepted, .submit 1, .loop .dequeue, .loop .runBegin,
    .loop (.runReturn none), .loop .postResult, .loop .clearCurrent, .loop .unrefCancel,
    .loop .unrefTx, .loop .dequeue, .loop .runBegin]

/-- Cancelling a completed transaction signals the one that runs. -/
theorem cancel_strays :
    ∃ s t, Machine.run step init strayRun = some s ∧ step s (.cancel 0) = some t ∧
      Completed s 0 ∧ s.worker.signalled = [] ∧ t.worker.signalled = [1] := by
  obtain ⟨s, hrun, hs⟩ := Machine.exists_run step init strayRun
    (p := fun s => 0 ∈ s.worker.answered ∧ s.worker.signalled = [] ∧
      (step s (.cancel 0)).any fun t => t.worker.signalled = [1]) (by decide +kernel)
  obtain ⟨hcompleted, hnone, hstep⟩ := of_decide_eq_true hs
  obtain ⟨t, ht, hone⟩ := (Option.any_eq_true _ _).mp hstep
  exact ⟨s, t, hrun, ht, hcompleted, hnone, of_decide_eq_true hone⟩

end TransactionBridge
