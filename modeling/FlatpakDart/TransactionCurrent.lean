/-
What `current_cancel_` points at (`native/src/transaction_bridge.cpp`).

The calls of the C ABI come from any thread, and at any time until the destructor has
returned; `callStep` is one of them, or a step of the worker's own thread.

* `callStep_owned` — each of them keeps `Owned`: a handle's objects are the handle's
  until it is submitted, and what the thread took it runs in turn;
* `run_custody` — `current_cancel_` is of the item in hand, items run in the order in
  which they came, and what the thread ran it releases once;
* `bridge_refines` — what Dart does with a worker are such calls.
-/
import FlatpakDart.TransactionCancel

namespace TransactionWorker

/-! ### Calls -/

/-- The calls on a worker and on its handles, and the steps of its thread. -/
inductive Call
  /-- `flatpak_tx_create`, on a port of its own -/
  | create (answer : Answer)
  /-- one of the `flatpak_tx_add_*` on the `k`-th handle -/
  | add (k : ℕ) (op : AddOp) (answer : Answer)
  | submit (k : ℕ)
  | cancelCurrent
  | loop (a : LoopAction)
  | dtorStop
  | dtorJoin

/-- One step.  No call may come after the destructor, but it may come while the
destructor waits for the thread. -/
def callStep (w : Worker) : Call → Option Worker
  | .create answer =>
    if w.dtor = .returned then none else some (w.flatpakTxCreate w.created answer)
  | .add k op answer =>
    match w.handles k with
    | none => none
    | some h => if w.dtor = .returned then none else some (w.add h op answer)
  | .submit k =>
    match w.handles k with
    | none => none
    | some h => if w.dtor = .returned then none else some (w.flatpakTxSubmit k h)
  | .cancelCurrent => if w.dtor = .returned then none else some w.cancelCurrent
  | .loop a => w.loopStep a
  | .dtorStop => w.dtorStop
  | .dtorJoin => w.dtorJoin

/-! ### What is in whose hands -/

/-- The item in hand, before `flatpak_transaction_run` is called. -/
def Loop.toExecute : Loop → List PendingTx
  | .popped item => [item]
  | _ => []

/-- The item in hand, while `flatpak_transaction_run` runs. -/
def Loop.inRun : Loop → List PendingTx
  | .running item _ _ => [item]
  | _ => []

/-- The handle owns the objects of its number, or was submitted. -/
def Worker.HandleOwns (w : Worker) (k : ℕ) (h : TxHandle) : Prop :=
  h = ⟨none, k⟩ ∨ (h = ⟨some ⟨k, k⟩, k⟩ ∧ k ∉ w.enqueued.map PendingTx.tx)

/-- The items the thread took are run in turn, and what is not submitted is not its. -/
structure Worker.Owned (w : Worker) : Prop where
  inv : w.Inv
  fresh : ∀ k, w.created ≤ k → w.handles k = none
  handles : ∀ k h, w.handles k = some h → w.HandleOwns k h
  enqueued : ∀ x ∈ w.enqueued, x.tx < w.created
  executed : w.dequeued = w.executed ++ w.loop.toExecute
  outcomes : w.executed = w.outcomes.map Prod.fst ++ w.loop.inRun

theorem init_owned : Worker.init.Owned where
  inv := init_inv
  fresh _ _ := rfl
  handles k h hk := absurd hk (by simp [Worker.init])
  enqueued x hx := absurd hx (by simp [Worker.init])
  executed := rfl
  outcomes := rfl

namespace Worker

variable {w w' : Worker}

/-- A call that leaves the thread, the queue and the handles as they are. -/
theorem Owned.quiet (hw : w.Owned) (hinv : w'.Inv) (hcreated : w'.created = w.created)
    (hhandles : w'.handles = w.handles) (henqueued : w'.enqueued = w.enqueued)
    (hexecuted : w'.dequeued = w'.executed ++ w'.loop.toExecute)
    (houtcomes : w'.executed = w'.outcomes.map Prod.fst ++ w'.loop.inRun) : w'.Owned where
  inv := hinv
  fresh k hk := by
    rw [hhandles]
    exact hw.fresh k (hcreated ▸ hk)
  handles k h hk := by
    rw [HandleOwns, henqueued]
    exact hw.handles k h (hhandles ▸ hk)
  enqueued x hx := by
    rw [hcreated]
    exact hw.enqueued x (henqueued ▸ hx)
  executed := hexecuted
  outcomes := houtcomes

/-- **The thread** runs what it took, and nothing else. -/
theorem loopStep_owned {a : LoopAction} (hw : w.Owned) (h : w.loopStep a = some w') : w'.Owned := by
  have hinv := loopStep_inv hw.inv h
  have hexecuted := hw.executed
  have houtcomes := hw.outcomes
  cases loopStep_cases h with
  | dequeue hloop =>
    rw [hloop] at hexecuted houtcomes
    exact hw.quiet hinv rfl rfl rfl (by simp [hexecuted, Loop.toExecute]) houtcomes
  | runBegin hloop =>
    rw [hloop] at hexecuted houtcomes
    refine hw.quiet hinv rfl rfl rfl (by simpa [Loop.toExecute] using hexecuted) ?_
    simp [houtcomes, Loop.inRun]
  | runReturn hloop =>
    rw [hloop] at hexecuted houtcomes
    exact hw.quiet hinv rfl rfl rfl hexecuted (by simp [houtcomes, Loop.inRun])
  | changed | operationDone => exact hw.quiet hinv rfl rfl rfl hexecuted houtcomes
  | observeStop hloop | newOperation hloop | postResult hloop | clearCurrent hloop
  | unrefCancel hloop | unrefTx hloop =>
    rw [hloop] at hexecuted houtcomes
    exact hw.quiet hinv rfl rfl rfl hexecuted houtcomes

theorem create_owned (hw : w.Owned) (answer : Answer) :
    (w.flatpakTxCreate w.created answer).Owned := by
  have hinv := flatpakTxCreate_inv hw.inv w.created answer
  have hlt : ∀ x ∈ w.enqueued, x.tx < w.created + 1 :=
    fun x hx => Nat.lt_succ_of_lt (hw.enqueued x hx)
  cases answer with
  | rejected err =>
    exact {
      inv := hinv
      fresh := fun k hk => hw.fresh k (Nat.le_of_succ_le hk)
      handles := hw.handles
      enqueued := hlt
      executed := hw.executed
      outcomes := hw.outcomes }
  | accepted =>
    have hnew : w.created ∉ w.enqueued.map PendingTx.tx := by
      intro hmem
      obtain ⟨x, hx, heq⟩ := List.mem_map.mp hmem
      exact Nat.ne_of_lt (hw.enqueued x hx) heq
    refine ⟨hinv, fun k hk => ?_, fun k h hk => ?_, hlt, hw.executed, hw.outcomes⟩
    · have hne : k ≠ w.created := Nat.ne_of_gt hk
      exact (Function.update_of_ne hne _ _).trans (hw.fresh k (Nat.le_of_succ_le hk))
    · rcases eq_or_ne k w.created with rfl | hne
      · have hself : (w.flatpakTxCreate w.created .accepted).handles w.created =
            some ⟨some ⟨w.created, w.created⟩, w.created⟩ := Function.update_self ..
        obtain rfl := Option.some_inj.mp (hself.symm.trans hk)
        exact .inr ⟨rfl, hnew⟩
      · exact hw.handles k h ((Function.update_of_ne hne _ _).symm.trans hk)

theorem add_owned (hw : w.Owned) (h : TxHandle) (op : AddOp) (answer : Answer) :
    (w.add h op answer).Owned := by
  have hbody (fallback : CString) : (w.txAdd op fallback h answer).Owned := by
    have hinv := txAdd_inv hw.inv op fallback h answer
    rcases h with ⟨_ | objects, port⟩
    · exact hw
    · cases answer <;> exact hw.quiet hinv rfl rfl rfl hw.executed hw.outcomes
  cases op <;> exact hbody _

/-- The objects go over to the worker, which did not have them. -/
theorem submit_owned (hw : w.Owned) {k : ℕ} {h : TxHandle} (hk : w.handles k = some h) :
    (w.flatpakTxSubmit k h).Owned := by
  have hlt : k < w.created := by
    by_contra hle
    exact absurd (hk.symm.trans (hw.fresh k (not_lt.mp hle))) (by simp)
  rcases hw.handles k h hk with rfl | ⟨rfl, hnew⟩
  · -- submitted before: an error on the port, and nothing else
    exact hw.quiet { hw.inv with } rfl rfl rfl hw.executed hw.outcomes
  · have hinv : ({ w with handles := Function.update w.handles k (some ⟨none, k⟩) } : Worker).Inv :=
      { hw.inv with }
    refine ⟨enqueue_inv hinv hnew, fun j hj => ?_, fun j h' hj => ?_, fun x hx => ?_, hw.executed,
      hw.outcomes⟩
    · have hne : j ≠ k := by
        rintro rfl
        exact absurd hlt (not_lt.mpr hj)
      exact (Function.update_of_ne hne _ _).trans (hw.fresh j hj)
    · rcases eq_or_ne j k with rfl | hne
      · have hself : (w.flatpakTxSubmit j ⟨some ⟨j, j⟩, j⟩).handles j = some ⟨none, j⟩ :=
          Function.update_self ..
        obtain rfl := Option.some_inj.mp (hself.symm.trans hj)
        exact .inl rfl
      · refine (hw.handles j h' ((Function.update_of_ne hne _ _).symm.trans hj)).imp_right
          fun hold => ⟨hold.1, ?_⟩
        show j ∉ (w.enqueued ++ [PendingTx.of k]).map PendingTx.tx
        rw [List.map_append, List.mem_append, not_or]
        exact ⟨hold.2, by simpa [PendingTx.of] using hne⟩
    · rcases List.mem_append.mp hx with hx | hx
      · exact hw.enqueued x hx
      · rw [List.mem_singleton.mp hx]
        exact hlt

theorem callStep_owned {c : Call} (h : callStep w c = some w') (hw : w.Owned) : w'.Owned := by
  cases c with
  | create answer =>
    simp only [callStep, Option.ite_none_left_eq_some, Option.some.injEq] at h
    obtain ⟨-, rfl⟩ := h
    exact create_owned hw answer
  | add k op answer =>
    simp only [callStep] at h
    split at h
    · exact absurd h (by simp)
    · simp only [Option.ite_none_left_eq_some, Option.some.injEq] at h
      obtain ⟨-, rfl⟩ := h
      exact add_owned hw _ op answer
  | submit k =>
    simp only [callStep] at h
    split at h
    · exact absurd h (by simp)
    · next hk =>
      simp only [Option.ite_none_left_eq_some, Option.some.injEq] at h
      obtain ⟨-, rfl⟩ := h
      exact submit_owned hw hk
  | cancelCurrent =>
    simp only [callStep, Option.ite_none_left_eq_some, Option.some.injEq] at h
    obtain ⟨-, rfl⟩ := h
    have hinv := cancelCurrent_inv hw.inv
    rw [cancelCurrent_eq] at hinv ⊢
    exact hw.quiet hinv rfl rfl rfl hw.executed hw.outcomes
  | loop a => exact loopStep_owned hw h
  | dtorStop =>
    have hinv := dtorStop_inv hw.inv h
    obtain ⟨-, rfl⟩ := dtorStop_cases h
    exact hw.quiet hinv rfl rfl rfl hw.executed hw.outcomes
  | dtorJoin =>
    have hinv := dtorJoin_inv hw.inv h
    obtain ⟨-, -, rfl⟩ := dtorJoin_cases h
    exact hw.quiet hinv rfl rfl rfl hw.executed hw.outcomes

theorem run_owned {cs : List Call} (h : Machine.run callStep Worker.init cs = some w) : w.Owned :=
  Machine.run_invariant (I := Worker.Owned) callStep_owned h init_owned

/-! ### What follows -/

/-- What is executed, once for each time it was enqueued, and in the same order. -/
theorem Owned.executed_initial (hw : w.Owned) : w.executed <+: w.enqueued := by
  rw [hw.inv.enqueued_eq, hw.executed, List.append_assoc]
  exact List.prefix_append _ _

/-- The thread's reference to the cancellable in hand is not released. -/
theorem Owned.held_not_released (hw : w.Owned) {c : ℕ} (hc : c ∈ w.loop.holdsCancel) :
    c ∉ w.unrefCancel := by
  have hnodup := hw.inv.dequeued_cancel_nodup
  rw [hw.inv.cancelRefs] at hnodup
  exact fun hmem => List.disjoint_of_nodup_append hnodup hmem hc

/-- The item in hand is the one that was dequeued last. -/
theorem Owned.inHand_last (hw : w.Owned) {item : PendingTx} (h : w.loop.inHand = [item]) :
    w.dequeued.getLast? = some item := by
  have hlast : (w.dequeued.map PendingTx.tx).getLast? = some item.tx := by
    rw [hw.inv.txRefs, h]
    simp
  rw [List.getLast?_map, Option.map_eq_some_iff] at hlast
  obtain ⟨x, hx, htx⟩ := hlast
  -- there is one item of each number
  have hitem := hw.inv.dequeued_of (hw.inv.inHand item (by simp [h]))
  rw [hx, hw.inv.dequeued_of (List.mem_of_getLast? hx), htx, ← hitem]

/-- **What `current_cancel_` points at** is the cancellable of the item dequeued last,
and the thread has not released it. -/
theorem Owned.current_held (hw : w.Owned) {c : ℕ} (hc : w.currentCancel = some c) :
    (∃ item, w.dequeued.getLast? = some item ∧ item.cancel = c) ∧ c ∉ w.unrefCancel := by
  rw [hw.inv.current] at hc
  refine ⟨?_, hw.held_not_released (Loop.current_held hc).2⟩
  obtain ⟨item, hhand, hcancel⟩ : ∃ item, w.loop.inHand = [item] ∧ item.cancel = c := by
    cases hloop : w.loop <;> simp_all [Loop.current, Loop.inHand]
  exact ⟨item, hw.inHand_last hhand, hcancel⟩

/-- What is released is what was run, in the same order, and the run had returned. -/
theorem Owned.released_initial (hw : w.Owned) :
    w.unrefTx <+: w.outcomes.map (·.1.tx) ∧ w.unrefCancel <+: w.outcomes.map (·.1.cancel) := by
  have houtcomes : w.dequeued = w.outcomes.map Prod.fst ++ (w.loop.inRun ++ w.loop.toExecute) := by
    rw [hw.executed, hw.outcomes, List.append_assoc]
  have htx := hw.inv.txRefs
  have hcancel := hw.inv.cancelRefs
  rw [houtcomes, List.map_append, List.map_map] at htx hcancel
  -- an item in hand whose run has not returned is the last one on both sides
  cases hloop : w.loop with
  | popped item | running item =>
    simp only [hloop, Loop.inRun, Loop.toExecute, Loop.inHand, Loop.holdsCancel] at htx hcancel
    exact ⟨(List.append_inj_left' htx rfl).symm ▸ List.prefix_refl _,
      (List.append_inj_left' hcancel rfl).symm ▸ List.prefix_refl _⟩
  | _ =>
    simp only [hloop, Loop.inRun, Loop.toExecute, List.append_nil, List.map_nil] at htx hcancel
    exact ⟨⟨_, htx.symm⟩, ⟨_, hcancel.symm⟩⟩

theorem loopStep_executed {a : LoopAction} (h : w.loopStep a = some w') :
    w.executed <+: w'.executed := by
  cases loopStep_cases h with
  | runBegin => exact List.prefix_append _ _
  | _ => exact List.prefix_refl _

/-- The thread can come to release what it has run, without being given anything. -/
theorem Owned.releases (hw : w.Owned) (hloop : w.loop ≠ .returned) :
    ∃ as u, Machine.run loopStep w as = some u ∧ ∀ item ∈ w.executed,
      u.unrefTx.count item.tx = 1 ∧ u.unrefCancel.count item.cancel = 1 := by
  obtain ⟨as, u, hrun, hwaiting, -⟩ := parks hloop
  have hu : u.Owned ∧ w.executed <+: u.executed :=
    Machine.run_invariant (I := fun v => Owned v ∧ w.executed <+: v.executed)
      (fun hstep hv => ⟨loopStep_owned hv.1 hstep, hv.2.trans (loopStep_executed hstep)⟩) hrun
      ⟨hw, List.prefix_refl _⟩
  refine ⟨as, u, hrun, fun item hitem =>
    hu.1.inv.released_once ?_ (by simp [hwaiting, Loop.inHand])⟩
  rw [hu.1.executed]
  exact List.mem_append_left _ (hu.2.subset hitem)

/-! ### Every interleaving -/

/-- What the order of the worker's critical sections is for. -/
structure Custody (w : Worker) : Prop where
  /-- `current_cancel_` is of the item dequeued last, and not released -/
  current : ∀ c, w.currentCancel = some c →
    (∃ item, w.dequeued.getLast? = some item ∧ item.cancel = c) ∧ c ∉ w.unrefCancel
  /-- `cancel_current` signals nothing that is released -/
  signals : ∃ new, w.cancelCurrent.signalled = w.signalled ++ new ∧ ∀ c ∈ new, c ∉ w.unrefCancel
  inOrder : w.executed <+: w.enqueued
  once : (w.executed.map PendingTx.tx).Nodup
  /-- what is released was run before, to the end -/
  afterRun : w.unrefTx <+: w.outcomes.map (·.1.tx) ∧
    w.unrefCancel <+: w.outcomes.map (·.1.cancel)
  releasedOnce : ∀ item ∈ w.executed,
    w.unrefTx.count item.tx ≤ 1 ∧ w.unrefCancel.count item.cancel ≤ 1 ∧
      (item ∉ w.loop.inHand →
        w.unrefTx.count item.tx = 1 ∧ w.unrefCancel.count item.cancel = 1)

/-- **The worker's custody** of its transactions and cancellables, whoever calls it and
when; and unless the destructor has stopped it, its thread can come to release all
that it has run. -/
theorem run_custody {cs : List Call} (h : Machine.run callStep Worker.init cs = some w) :
    w.Custody ∧ (w.loop ≠ .returned →
      ∃ as u, Machine.run loopStep w as = some u ∧ ∀ item ∈ w.executed,
        u.unrefTx.count item.tx = 1 ∧ u.unrefCancel.count item.cancel = 1) := by
  have hw := run_owned h
  have htxs := hw.inv.dequeued_nodup
  have hcancels := hw.inv.dequeued_cancel_nodup
  rw [hw.inv.txRefs] at htxs
  rw [hw.inv.cancelRefs] at hcancels
  refine ⟨?_, hw.releases⟩
  constructor
  case current => exact fun c hc => hw.current_held hc
  case signals =>
    refine ⟨w.currentCancel.toList, by rw [cancelCurrent_eq], fun c hc => ?_⟩
    exact (hw.current_held (Option.mem_toList.mp hc)).2
  case inOrder => exact hw.executed_initial
  case once => exact (hw.inv.distinct).sublist (hw.executed_initial.sublist.map _)
  case afterRun => exact hw.released_initial
  case releasedOnce =>
    intro item hitem
    refine ⟨List.nodup_iff_count_le_one.mp htxs.of_append_left _,
      List.nodup_iff_count_le_one.mp hcancels.of_append_left _, hw.inv.released_once ?_⟩
    rw [hw.executed]
    exact List.mem_append_left _ hitem

/-- Two transactions, and a cancel between the run of the first and its release. -/
def cancelledBetween : List Call :=
  [.create .accepted, .create .accepted, .submit 0, .submit 1, .loop .dequeue, .loop .runBegin,
    .loop (.runReturn none), .loop .postResult, .cancelCurrent, .loop .clearCurrent,
    .loop .unrefCancel, .loop .unrefTx, .loop .dequeue, .loop .runBegin, .dtorStop]

theorem run_custody_between :
    ∃ w, Machine.run callStep Worker.init cancelledBetween = some w ∧
      w.executed = [.of 0, .of 1] ∧ w.unrefCancel.count 0 = 1 ∧ w.currentCancel = some 1 ∧
      1 ∉ w.unrefCancel := by
  obtain ⟨w, hrun, hw⟩ := Machine.exists_run callStep Worker.init cancelledBetween
    (p := fun w => w.executed = [.of 0, .of 1] ∧ w.loop.inHand = [.of 1] ∧
      w.currentCancel = some 1) (by decide +kernel)
  obtain ⟨hexecuted, hhand, hcurrent⟩ := of_decide_eq_true hw
  have hcustody := (run_custody hrun).1
  have hfirst := (hcustody.releasedOnce (.of 0) (by simp [hexecuted])).2.2
    (by rw [hhand]; decide)
  exact ⟨w, hrun, hexecuted, hfirst.2, hcurrent, (hcustody.current 1 hcurrent).2⟩

end Worker

/-! ### The calls of one `TransactionBridge` -/

/-- What the bridge does with its worker are calls. -/
theorem bridge_calls {s t : TransactionBridge.State} {a : TransactionBridge.Action}
    (h : TransactionBridge.step s a = some t) (hs : TransactionBridge.Inv s) :
    ∃ cs, Machine.run callStep s.worker cs = some t.worker := by
  cases TransactionBridge.step_cases hs.handles h with
  | @create answer halive =>
    refine ⟨[.create answer], ?_⟩
    rw [Machine.run_singleton, callStep, if_neg (by simp [halive])]
    rfl
  | @add k op answer halive hk =>
    refine ⟨[.add k op answer], ?_⟩
    simp [callStep, hs.handles k hk, halive]
  | @submit k halive hk =>
    refine ⟨[.submit k], ?_⟩
    simp [callStep, hs.handles k hk, halive]
  | deliver => exact ⟨[], rfl⟩
  | cancel _ hdtor =>
    refine ⟨[.cancelCurrent], ?_⟩
    rw [Machine.run_singleton, callStep, if_neg hdtor]
  | @loop a _ hw => exact ⟨[.loop a], by rw [Machine.run_singleton]; exact hw⟩
  | dtorStop hw => exact ⟨[.dtorStop], by rw [Machine.run_singleton]; exact hw⟩
  | dtorJoin hw => exact ⟨[.dtorJoin], by rw [Machine.run_singleton]; exact hw⟩

/-- **Refinement**: a run of the bridge is a run of calls for its worker. -/
theorem bridge_refines {s : TransactionBridge.State} {as : List TransactionBridge.Action}
    (h : Machine.run TransactionBridge.step TransactionBridge.init as = some s) :
    ∃ cs, Machine.run callStep Worker.init cs = some s.worker :=
  Machine.run_refines (I := TransactionBridge.Inv) TransactionBridge.State.worker
    TransactionBridge.step_inv bridge_calls h TransactionBridge.init_inv

end TransactionWorker
