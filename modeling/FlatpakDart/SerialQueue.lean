/-
`SerialQueue` (`native/include/serial_queue.h`): one background thread that
drains a FIFO of work items, and a shutdown that hands the backlog to a cancel
callback.

The state is the object's fields together with where the worker and each
`stop()` call stand; an action is one critical section, or one boundary of a
handler call.  On top of it:

* `abs_refines` — the queue is a first-in first-out server (`FifoServer`);
* `serialQueue_contract` — every accepted item is handled exactly once by the
  time any `stop()` returns, in acceptance order, one handler call at a time,
  and a refused item never is.
-/
import FlatpakDart.FifoServer
import Mathlib.Data.List.Nodup

namespace SerialQueue

/-- One call of `push`: its number among all calls, and the item it passed. -/
structure Call (Item : Type*) where
  number : ℕ
  item : Item
  deriving DecidableEq

/-- Where the worker thread stands in `loop()`. -/
inductive Worker (Item : Type*)
  /-- at `cv_.wait`, or on its way to `mu_` -/
  | waiting
  /-- item popped and lock released, `run_` not yet called -/
  | popped (c : Call Item)
  /-- inside `run_(item)` -/
  | running (c : Call Item)
  /-- backlog swapped out, between two `cancel_` calls -/
  | draining (pending : List (Call Item))
  /-- inside `cancel_(pending.front())`, with what follows it -/
  | cancelling (c : Call Item) (pending : List (Call Item))
  /-- `loop()` has returned -/
  | returned

/-- Where one call of `stop()` stands. -/
inductive StopCall
  /-- `stop_` set and `mu_` released -/
  | requested
  /-- holding `join_mu_` -/
  | joining
  | returned
  deriving DecidableEq

/-- The members of a `SerialQueue`, its threads, and the history of its calls. -/
structure State (Item : Type*) where
  stop : Bool
  queue : List (Call Item)
  /-- `join_mu_` is held -/
  joinMu : Bool
  /-- `thread_.joinable()` -/
  joinable : Bool
  worker : Worker Item
  /-- the `stop()` calls made so far, in the order of their first section -/
  stops : List StopCall
  /-- number of `push` calls made so far -/
  pushes : ℕ
  /-- calls of `push` that returned true, in order -/
  accepted : List (Call Item)
  /-- calls of `push` that returned false, in order -/
  refused : List (Call Item)
  /-- items passed to `run_`, in order -/
  runCalls : List (Call Item)
  /-- items passed to `cancel_`, in order -/
  cancelCalls : List (Call Item)
  /-- handler calls that have begun and not ended -/
  inProgress : List (Call Item)

/-- The atomic steps of the worker, the pushers and the stoppers. -/
inductive Action (Item : Type*)
  | push (item : Item)
  | wake
  | runBegin
  | runEnd
  | cancelBegin
  | cancelEnd
  | loopReturn
  | stopRequest
  | stopLock (k : ℕ)
  | stopJoin (k : ℕ)
  | stopReturn (k : ℕ)

variable {Item : Type*}

/-- A queue just constructed: its worker is started and parks. -/
def init : State Item where
  stop := false
  queue := []
  joinMu := false
  joinable := true
  worker := .waiting
  stops := []
  pushes := 0
  accepted := []
  refused := []
  runCalls := []
  cancelCalls := []
  inProgress := []

/-- `push(item)`: its critical section and the answer it returns. -/
def State.push (q : State Item) (item : Item) : State Item × Bool :=
  let c : Call Item := ⟨q.pushes, item⟩
  -- read in the section that appends, so nothing is accepted once it is set
  if q.stop then
    ({ q with pushes := q.pushes + 1, refused := q.refused ++ [c] }, false)
  else
    ({ q with
        pushes := q.pushes + 1
        queue := q.queue ++ [c]
        accepted := q.accepted ++ [c] }, true)

/-- The worker gets past `cv_.wait`: it pops one item, or swaps the backlog
out when `stop_` is set. -/
def State.wake (q : State Item) : Option (State Item) :=
  match q.worker with
  | .waiting =>
    -- before the queue: no item is run once `stop_` is set
    if q.stop then
      some { q with queue := [], worker := .draining q.queue }
    else
      match q.queue with
      | [] => none
      | c :: rest => some { q with queue := rest, worker := .popped c }
  | _ => none

/-- A handler call on `c` ends. -/
def State.handlerDone (q : State Item) (c : Call Item) : List (Call Item) :=
  q.inProgress.filter (·.number ≠ c.number)

/-- One atomic step; `none` where the thread it belongs to is elsewhere. -/
def step (q : State Item) : Action Item → Option (State Item)
  | .push item => some (q.push item).1
  | .wake => q.wake
  | .runBegin =>
    match q.worker with
    | .popped c =>
      some { q with
        worker := .running c
        runCalls := q.runCalls ++ [c]
        inProgress := q.inProgress ++ [c] }
    | _ => none
  | .runEnd =>
    match q.worker with
    | .running c => some { q with worker := .waiting, inProgress := q.handlerDone c }
    | _ => none
  | .cancelBegin =>
    match q.worker with
    | .draining (c :: pending) =>
      some { q with
        worker := .cancelling c pending
        cancelCalls := q.cancelCalls ++ [c]
        inProgress := q.inProgress ++ [c] }
    | _ => none
  | .cancelEnd =>
    match q.worker with
    | .cancelling c pending =>
      some { q with worker := .draining pending, inProgress := q.handlerDone c }
    | _ => none
  | .loopReturn =>
    match q.worker with
    | .draining [] => some { q with worker := .returned }
    | _ => none
  | .stopRequest => some { q with stop := true, stops := q.stops ++ [.requested] }
  | .stopLock k =>
    if q.stops[k]? = some .requested ∧ q.joinMu = false then
      some { q with joinMu := true, stops := q.stops.set k .joining }
    else none
  | .stopJoin k =>
    -- `thread_.join()` returns only once `loop()` has
    match q.worker with
    | .returned =>
      if q.stops[k]? = some .joining ∧ q.joinable = true then
        some { q with joinable := false }
      else none
    | _ => none
  | .stopReturn k =>
    -- joined by this call or by an earlier one
    if q.stops[k]? = some .joining ∧ q.joinable = false then
      some { q with joinMu := false, stops := q.stops.set k .returned }
    else none

/-! ### What the worker holds -/

/-- The item whose handler the worker is inside. -/
def Worker.handling : Worker Item → List (Call Item)
  | .running c => [c]
  | .cancelling c _ => [c]
  | _ => []

/-- Items the worker has taken out of `queue_` and not yet passed to a handler. -/
def Worker.outstanding : Worker Item → List (Call Item)
  | .popped c => [c]
  | .draining pending => pending
  | .cancelling _ pending => pending
  | _ => []

/-- The worker has seen `stop_`. -/
def Worker.SawStop : Worker Item → Prop
  | .draining _ | .cancelling _ _ | .returned => True
  | _ => False

/-- The invariant of every reachable state. -/
structure Inv (q : State Item) : Prop where
  handlers : q.inProgress = q.worker.handling
  sawStop : q.worker.SawStop → q.stop = true ∧ q.queue = []
  noCancel : ¬ q.worker.SawStop → q.cancelCalls = []
  joined : q.joinable = false → q.worker = .returned
  stopped : .returned ∈ q.stops → q.joinable = false
  numbered : ∀ c ∈ q.accepted ++ q.refused, c.number < q.pushes
  distinct : (q.accepted ++ q.refused).Nodup

theorem init_inv : Inv (init : State Item) where
  handlers := rfl
  sawStop := fun h => h.elim
  noCancel := fun _ => rfl
  joined := fun h => absurd h (by simp [init])
  stopped := fun h => absurd h (by simp [init])
  numbered := fun c hc => absurd hc (by simp [init])
  distinct := by simp [init]

/-- The two ways past `cv_.wait`. -/
theorem wake_cases {q q' : State Item} (h : q.wake = some q') :
    q.worker = .waiting ∧
      ((q.stop = true ∧ q' = { q with queue := [], worker := .draining q.queue }) ∨
        ∃ c rest, q.stop = false ∧ q.queue = c :: rest ∧
          q' = { q with queue := rest, worker := .popped c }) := by
  rw [State.wake] at h
  split at h
  · next hw =>
    refine ⟨hw, ?_⟩
    split at h
    · next hs => exact Or.inl ⟨hs, (Option.some_inj.mp h).symm⟩
    · next hs =>
      split at h
      · exact absurd h (by simp)
      · next c rest hq =>
        exact Or.inr ⟨c, rest, by simpa using hs, hq, (Option.some_inj.mp h).symm⟩
  · exact absurd h (by simp)

/-- A `push` call gets a number of its own. -/
theorem push_numbered {q : State Item} (hq : Inv q) (item : Item) {l : List (Call Item)}
    (hl : l.Perm ((q.accepted ++ q.refused) ++ [⟨q.pushes, item⟩])) :
    (∀ c ∈ l, c.number < q.pushes + 1) ∧ l.Nodup := by
  constructor
  · intro c hc
    rcases List.mem_append.mp (hl.mem_iff.mp hc) with hc | hc
    · exact Nat.lt_succ_of_lt (hq.numbered c hc)
    · rw [List.mem_singleton.mp hc]
      exact Nat.lt_succ_self _
  · refine hl.nodup_iff.mpr (List.Nodup.append hq.distinct (List.nodup_singleton _) ?_)
    intro c hc hc'
    have hlt := hq.numbered c hc
    rw [List.mem_singleton.mp hc'] at hlt
    exact Nat.lt_irrefl _ hlt

theorem push_inv {q : State Item} (hq : Inv q) (item : Item) : Inv (q.push item).1 := by
  rw [State.push]
  split
  · have hnum := push_numbered hq item (l := q.accepted ++ (q.refused ++ [⟨q.pushes, item⟩]))
      (by rw [List.append_assoc])
    exact { hq with numbered := hnum.1, distinct := hnum.2 }
  · next hs =>
    have hnum := push_numbered hq item (l := (q.accepted ++ [⟨q.pushes, item⟩]) ++ q.refused)
      (by simpa using (@List.perm_append_comm _ [_] _).append_left q.accepted)
    -- accepted, so `stop_` is not set and the worker has not seen it
    exact { hq with
      sawStop := fun h => absurd (hq.sawStop h).1 hs
      numbered := hnum.1
      distinct := hnum.2 }

theorem wake_inv {q q' : State Item} (hq : Inv q) (h : q.wake = some q') : Inv q' := by
  obtain ⟨hw, ⟨hs, rfl⟩ | ⟨c, rest, hs, hc, rfl⟩⟩ := wake_cases h
  -- at `cv_.wait` the worker has not drained, so nothing is cancelled yet
  · have hrun : q.cancelCalls = [] := hq.noCancel (by simp [hw, Worker.SawStop])
    exact { hq with
      handlers := by simpa [hw, Worker.handling] using hq.handlers
      sawStop := fun _ => ⟨hs, rfl⟩
      noCancel := fun _ => hrun
      joined := fun hj => absurd (hq.joined hj) (by simp [hw]) }
  · exact { hq with
      handlers := by simpa [hw, Worker.handling] using hq.handlers
      sawStop := fun h => h.elim
      noCancel := fun _ => hq.noCancel (by simp [hw, Worker.SawStop])
      joined := fun hj => absurd (hq.joined hj) (by simp [hw]) }

/-- Changing where one `stop()` call stands touches nothing else. -/
theorem stops_inv {q : State Item} (hq : Inv q) {b : Bool} {k : ℕ} {c : StopCall}
    (hc : c = .returned → q.joinable = false) :
    Inv { q with joinMu := b, stops := q.stops.set k c } :=
  { hq with
    stopped := fun h => by
      rcases List.mem_or_eq_of_mem_set h with h | h
      · exact hq.stopped h
      · exact hc h.symm }

theorem step_inv {q q' : State Item} {a : Action Item} (h : step q a = some q') (hq : Inv q) :
    Inv q' := by
  cases a with
  | push item =>
    obtain rfl := Option.some_inj.mp h
    exact push_inv hq item
  | wake => exact wake_inv hq h
  -- the thread goes on with an item; it has not seen `stop_`
  | runBegin =>
    simp only [step] at h
    split at h
    · next c hw =>
      obtain rfl := Option.some_inj.mp h
      exact { hq with
        handlers := by simp [hq.handlers, hw, Worker.handling]
        sawStop := fun h => h.elim
        noCancel := fun _ => hq.noCancel (by simp [hw, Worker.SawStop])
        joined := fun hj => absurd (hq.joined hj) (by simp [hw]) }
    · exact absurd h (by simp)
  | runEnd =>
    simp only [step] at h
    split at h
    · next c hw =>
      obtain rfl := Option.some_inj.mp h
      exact { hq with
        handlers := by simp [State.handlerDone, hq.handlers, hw, Worker.handling]
        sawStop := fun h => h.elim
        noCancel := fun _ => hq.noCancel (by simp [hw, Worker.SawStop])
        joined := fun hj => absurd (hq.joined hj) (by simp [hw]) }
    · exact absurd h (by simp)
  -- it has seen `stop_`, and refuses what was left
  | cancelBegin =>
    simp only [step] at h
    split at h
    · next c pending hw =>
      obtain rfl := Option.some_inj.mp h
      exact { hq with
        handlers := by simp [hq.handlers, hw, Worker.handling]
        sawStop := fun _ => hq.sawStop (by simp [hw, Worker.SawStop])
        noCancel := fun h => absurd trivial h
        joined := fun hj => absurd (hq.joined hj) (by simp [hw]) }
    · exact absurd h (by simp)
  | cancelEnd =>
    simp only [step] at h
    split at h
    · next c pending hw =>
      obtain rfl := Option.some_inj.mp h
      exact { hq with
        handlers := by simp [State.handlerDone, hq.handlers, hw, Worker.handling]
        sawStop := fun _ => hq.sawStop (by simp [hw, Worker.SawStop])
        noCancel := fun h => absurd trivial h
        joined := fun hj => absurd (hq.joined hj) (by simp [hw]) }
    · exact absurd h (by simp)
  | loopReturn =>
    simp only [step] at h
    split at h
    · next hw =>
      obtain rfl := Option.some_inj.mp h
      exact { hq with
        handlers := by simp [hq.handlers, hw, Worker.handling]
        sawStop := fun _ => hq.sawStop (by simp [hw, Worker.SawStop])
        noCancel := fun h => absurd trivial h
        joined := fun _ => rfl }
    · exact absurd h (by simp)
  -- the flag is set, and never taken back
  | stopRequest =>
    obtain rfl := Option.some_inj.mp h
    exact { hq with
      sawStop := fun hw => ⟨rfl, (hq.sawStop hw).2⟩
      stopped := fun hm => hq.stopped (by simpa using hm) }
  | stopLock k =>
    simp only [step] at h
    split at h
    · obtain rfl := Option.some_inj.mp h
      exact stops_inv hq (fun hc => absurd hc (by simp))
    · exact absurd h (by simp)
  -- the join is over only when the thread has returned
  | stopJoin k =>
    simp only [step] at h
    split at h
    · next hw =>
      split at h
      · obtain rfl := Option.some_inj.mp h
        exact { hq with joined := fun _ => hw, stopped := fun _ => rfl }
      · exact absurd h (by simp)
    · exact absurd h (by simp)
  | stopReturn k =>
    simp only [step] at h
    split at h
    · next hk =>
      obtain rfl := Option.some_inj.mp h
      exact stops_inv hq (fun _ => hk.2)
    · exact absurd h (by simp)

/-! ### The queue is a first-in first-out server -/

/-- The ledger of a queue: an item is served when its handler is called. -/
def abs (q : State Item) : FifoServer.Ledger (Call Item) where
  accepted := q.accepted
  served := q.runCalls ++ q.cancelCalls
  waiting := q.worker.outstanding ++ q.queue

open FifoServer in
/-- Every atomic step is a run of ledger moves: one `accept`, one `serve`, or
nothing at all. -/
theorem abs_step {q q' : State Item} {a : Action Item} (h : step q a = some q') (hq : Inv q) :
    ∃ ms, Machine.run Ledger.step (abs q) ms = some (abs q') := by
  cases a with
  | push item =>
    obtain rfl := Option.some_inj.mp h
    rw [State.push]
    split
    · exact ⟨[], rfl⟩
    · refine ⟨[.accept ⟨q.pushes, item⟩], ?_⟩
      rw [Machine.run_singleton, Ledger.step_accept]
      simp [abs]
  -- popped or swapped out, the items still wait, in the same order
  | wake =>
    obtain ⟨hw, ⟨hs, rfl⟩ | ⟨c, rest, hs, hc, rfl⟩⟩ := wake_cases h
    · exact ⟨[], by simp [abs, hw, Worker.outstanding]⟩
    · exact ⟨[], by simp [abs, hw, hc, Worker.outstanding]⟩
  | runBegin =>
    simp only [step] at h
    split at h
    · next c hw =>
      obtain rfl := Option.some_inj.mp h
      -- no `cancel_` comes before a `run_`, so the item is the last one served
      have hcancel : q.cancelCalls = [] := hq.noCancel (by simp [hw, Worker.SawStop])
      refine ⟨[.serve], ?_⟩
      rw [Machine.run_singleton, Ledger.step_serve (x := c) (r := q.queue)
        (by simp [abs, hw, Worker.outstanding])]
      simp [abs, hcancel, Worker.outstanding]
    · exact absurd h (by simp)
  | runEnd =>
    simp only [step] at h
    split at h
    · next c hw =>
      obtain rfl := Option.some_inj.mp h
      exact ⟨[], by simp [abs, hw, Worker.outstanding]⟩
    · exact absurd h (by simp)
  | cancelBegin =>
    simp only [step] at h
    split at h
    · next c pending hw =>
      obtain rfl := Option.some_inj.mp h
      refine ⟨[.serve], ?_⟩
      rw [Machine.run_singleton, Ledger.step_serve (x := c) (r := pending ++ q.queue)
        (by simp [abs, hw, Worker.outstanding])]
      simp [abs, Worker.outstanding]
    · exact absurd h (by simp)
  | cancelEnd =>
    simp only [step] at h
    split at h
    · next c pending hw =>
      obtain rfl := Option.some_inj.mp h
      exact ⟨[], by simp [abs, hw, Worker.outstanding]⟩
    · exact absurd h (by simp)
  | loopReturn =>
    simp only [step] at h
    split at h
    · next hw =>
      obtain rfl := Option.some_inj.mp h
      exact ⟨[], by simp [abs, hw, Worker.outstanding]⟩
    · exact absurd h (by simp)
  | stopRequest =>
    obtain rfl := Option.some_inj.mp h
    exact ⟨[], rfl⟩
  | stopLock k =>
    simp only [step] at h
    split at h
    · obtain rfl := Option.some_inj.mp h
      exact ⟨[], rfl⟩
    · exact absurd h (by simp)
  | stopJoin k =>
    simp only [step] at h
    split at h
    · split at h
      · obtain rfl := Option.some_inj.mp h
        exact ⟨[], rfl⟩
      · exact absurd h (by simp)
    · exact absurd h (by simp)
  | stopReturn k =>
    simp only [step] at h
    split at h
    · obtain rfl := Option.some_inj.mp h
      exact ⟨[], rfl⟩
    · exact absurd h (by simp)

theorem run_inv {q : State Item} {as : List (Action Item)}
    (h : Machine.run step init as = some q) : Inv q :=
  Machine.run_invariant (I := Inv) step_inv h init_inv

/-- The ledger of a reachable queue is balanced. -/
theorem abs_balanced {q : State Item} {as : List (Action Item)}
    (h : Machine.run step init as = some q) : (abs q).Balanced := by
  obtain ⟨ms, hms⟩ := Machine.run_refines abs step_inv abs_step h init_inv
  exact FifoServer.run_balanced hms

/-- Once a `stop()` has returned, the worker has, and nothing waits. -/
theorem returned_drained {q : State Item} (hq : Inv q) (h : .returned ∈ q.stops) :
    (abs q).waiting = [] ∧ q.inProgress = [] := by
  have hw : q.worker = .returned := hq.joined (hq.stopped h)
  have hempty : q.queue = [] := (hq.sawStop (by simp [hw, Worker.SawStop])).2
  exact ⟨by simp [abs, hw, hempty, Worker.outstanding],
    by simp [hq.handlers, hw, Worker.handling]⟩

theorem handling_length (w : Worker Item) : w.handling.length ≤ 1 := by
  cases w <;> simp [Worker.handling]

/-- **The contract of `SerialQueue`**, after every interleaving of pushers,
stoppers and the worker: once any `stop()` has returned, the items passed to
`run_` followed by those passed to `cancel_` are the accepted ones in
acceptance order, and no handler call is left; at all times no item is handled
twice or by both handlers, no refused one is handled, and at most one handler
call is in progress. -/
theorem serialQueue_contract {q : State Item} {as : List (Action Item)}
    (h : Machine.run step init as = some q) :
    (.returned ∈ q.stops → q.runCalls ++ q.cancelCalls = q.accepted ∧ q.inProgress = []) ∧
    (q.runCalls ++ q.cancelCalls).Nodup ∧
    (q.runCalls ++ q.cancelCalls <+: q.accepted) ∧
    (∀ c ∈ q.refused, c ∉ q.runCalls ∧ c ∉ q.cancelCalls) ∧
    q.inProgress.length ≤ 1 := by
  have hq : Inv q := run_inv h
  have hbal : (abs q).Balanced := abs_balanced h
  have hsub : q.runCalls ++ q.cancelCalls ⊆ q.accepted := FifoServer.served_subset hbal
  refine ⟨?_, ?_, FifoServer.served_initial hbal, ?_, ?_⟩
  · intro hstop
    obtain ⟨hwait, hprog⟩ := returned_drained hq hstop
    exact ⟨FifoServer.served_eq_accepted hbal hwait, hprog⟩
  · exact FifoServer.served_nodup hbal (List.Nodup.of_append_left hq.distinct)
  · intro c hc
    -- the number of a call is on one of the two lists only
    have hnot : c ∉ q.accepted := fun hca => List.disjoint_of_nodup_append hq.distinct hca hc
    exact ⟨fun hr => hnot (hsub (List.mem_append_left _ hr)),
      fun hr => hnot (hsub (List.mem_append_right _ hr))⟩
  · rw [hq.handlers]
    exact handling_length _

/-- One item in flight, one queued behind it, one refused. -/
def backlogRun : List (Action ℕ) :=
  [.push 7, .push 8, .wake, .runBegin, .stopRequest, .push 9, .runEnd, .wake, .cancelBegin,
    .cancelEnd, .loopReturn, .stopLock 0, .stopJoin 0, .stopReturn 0]

theorem serialQueue_contract_backlog :
    ∃ q, Machine.run step init backlogRun = some q ∧
      q.accepted = [⟨0, 7⟩, ⟨1, 8⟩] ∧ q.refused = [⟨2, 9⟩] ∧
      q.runCalls ++ q.cancelCalls = q.accepted ∧ q.inProgress = [] := by
  obtain ⟨q, hrun, hq⟩ := Machine.exists_run step init backlogRun
    (p := fun q => q.stops = [.returned] ∧ q.accepted = [⟨0, 7⟩, ⟨1, 8⟩] ∧ q.refused = [⟨2, 9⟩])
    (by decide +kernel)
  obtain ⟨hstops, haccepted, hrefused⟩ := of_decide_eq_true hq
  have hreturned : StopCall.returned ∈ q.stops := by simp [hstops]
  exact ⟨q, hrun, haccepted, hrefused, (serialQueue_contract hrun).1 hreturned⟩

end SerialQueue
