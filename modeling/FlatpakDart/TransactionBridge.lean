/-
`TransactionBridge` (`lib/src/transaction.dart`): what Dart does with a worker.

`_submit` opens a port, makes a handle, adds the operations, listens, and hands
the handle to the worker; `cancel` of any transaction goes to the worker; the
listener turns frames into progress events and the `result` future.  A step of
the whole system is one of these or one of the worker's:

* `run_inv` — every reachable state satisfies `Inv`;
* `run_framed` — what a port was sent is the errors of rejected adds, then
  progress, then the one result of the run.
-/
import FlatpakDart.GlazeCodec
import FlatpakDart.TransactionWorker

open Glz Native FlatpakNc Dart TransactionWorker

namespace TransactionBridge

/-! ### The listener -/

/-- `TransactionProgress`. -/
structure TransactionProgress where
  op : String
  ref : String
  progressPercent : ℤ
  bytesTransferred : ℤ
  bytesTotal : ℤ
  status : String
  deriving DecidableEq

/-- `FlatpakTransactionException`. -/
structure FlatpakTransactionException where
  message : String
  ref : String
  deriving DecidableEq

/-- What the progress stream emits. -/
inductive Event
  | data (p : TransactionProgress)
  | error (ex : FlatpakTransactionException)
  deriving DecidableEq

/-- The `result` future. -/
inductive Result
  | pending
  | completed
  | failed (ex : FlatpakTransactionException)
  deriving DecidableEq

/-- `ctrl`, `done` and `port` of one `_submit`. -/
structure Listener where
  /-- what `ctrl` emitted, in order -/
  events : List Event
  ctrlClosed : Bool
  result : Result
  portOpen : Bool
  deriving DecidableEq

def Listener.init : Listener := ⟨[], false, .pending, true⟩

/-- `if (!done.isCompleted) done.complete…`. -/
def Result.settle : Result → Result → Result
  | .pending, r => r
  | r, _ => r

/-- The callback of `port.listen`; where it throws, nothing more happens. -/
def Listener.onMessage (l : Listener) (msg : List UInt8) : Listener :=
  match msg.head? with
  | some 0x10 =>
    match GlazeCodec.decodeTransactionProgress (.ofList msg) 1 with
    -- the decoder throws out of the callback
    | none => l
    | some p =>
      if l.ctrlClosed then l
      else
        { l with
          events := l.events ++ [.data ⟨p.op, p.ref, p.progressPercent, p.bytesTransferred,
            p.bytesTotal, p.status⟩] }
  | some 0x01 =>
    -- closing the port, it hears no later frame
    { l with
      ctrlClosed := true
      result := l.result.settle .completed
      portOpen := false }
  | some 0x02 =>
    match GlazeCodec.decodeError (.ofList msg) 1 with
    | none => l
    | some err =>
      -- `addError` on a closed controller throws
      if l.ctrlClosed then l
      else
        { l with
          events := l.events ++ [.error ⟨err, ""⟩]
          result := l.result.settle (.failed ⟨err, ""⟩)
          portOpen := false }
  | _ => l

/-! ### The system -/

/-- Where one call of `_submit` stands. -/
inductive Submit
  | absent
  /-- between `txCreate` and `txSubmit` -/
  | building
  /-- `txCreate` returned null, which the next call dereferences -/
  | nullHandle
  | returned
  deriving DecidableEq

/-- The worker, and the calls of `_submit` numbered as their handles are. -/
structure State where
  worker : Worker
  submits : ℕ → Submit
  listeners : ℕ → Listener
  /-- messages the listener of each port has handled -/
  delivered : ℕ → ℕ

/-- The steps of the system. -/
inductive Action
  /-- `_submit` opens its port and calls `txCreate` -/
  | create (answer : Answer)
  /-- `addOps` adds one operation to the `k`-th handle -/
  | add (k : ℕ) (op : AddOp) (answer : Answer)
  /-- `txSubmit`, and `_submit` returns the `FlatpakTransaction` -/
  | submit (k : ℕ)
  /-- the event loop hands the next message to the `k`-th listener -/
  | deliver (k : ℕ)
  /-- `cancel()` on the `k`-th `FlatpakTransaction` -/
  | cancel (k : ℕ)
  | loop (a : LoopAction)
  | dtorStop
  | dtorJoin

def init : State where
  worker := .init
  submits := fun _ => .absent
  listeners := fun _ => .init
  delivered := fun _ => 0

/-- `_submit` up to `txCreate`. -/
def State.create (s : State) (answer : Answer) : State :=
  { s with
    worker := s.worker.flatpakTxCreate s.worker.created answer
    submits := Function.update s.submits s.worker.created
      (match answer with
        | .accepted => .building
        | .rejected _ => .nullHandle) }

/-- One step; `none` where it is not enabled.  Calls into the worker need it
alive, and the destructor does not overlap a `_submit`. -/
def step (s : State) : Action → Option State
  | .create answer => if s.worker.dtor = .alive then some (s.create answer) else none
  | .add k op answer =>
    match s.worker.handles k with
    | none => none
    | some h =>
      if s.worker.dtor = .alive ∧ s.submits k = .building then
        some { s with worker := s.worker.add h op answer }
      else none
  | .submit k =>
    match s.worker.handles k with
    | none => none
    | some h =>
      if s.worker.dtor = .alive ∧ s.submits k = .building then
        some { s with
          worker := s.worker.flatpakTxSubmit k h
          submits := Function.update s.submits k .returned }
      else none
  | .deliver k =>
    match (s.worker.posts k)[s.delivered k]? with
    | none => none
    | some msg =>
      if s.submits k = .returned ∧ (s.listeners k).portOpen = true then
        some { s with
          listeners := Function.update s.listeners k ((s.listeners k).onMessage msg)
          delivered := Function.update s.delivered k (s.delivered k + 1) }
      else none
  | .cancel k =>
    -- `FlatpakTransaction.cancel` knows the worker only, whichever `k` is
    if s.submits k = .returned ∧ s.worker.dtor ≠ .returned then
      some { s with worker := s.worker.cancelCurrent }
    else none
  | .loop a => (s.worker.loopStep a).map fun w => { s with worker := w }
  | .dtorStop => s.worker.dtorStop.map fun w => { s with worker := w }
  | .dtorJoin => s.worker.dtorJoin.map fun w => { s with worker := w }

/-- What a step of a system does whose handles are as `_submit` makes them. -/
inductive Step (s : State) : Action → State → Prop
  | create {answer : Answer} (halive : s.worker.dtor = .alive) :
      Step s (.create answer) (s.create answer)
  | add {k : ℕ} {op : AddOp} {answer : Answer} (halive : s.worker.dtor = .alive)
      (hk : s.submits k = .building) :
      Step s (.add k op answer) { s with worker := s.worker.add ⟨some ⟨k, k⟩, k⟩ op answer }
  | submit {k : ℕ} (halive : s.worker.dtor = .alive) (hk : s.submits k = .building) :
      Step s (.submit k) { s with
        worker := s.worker.flatpakTxSubmit k ⟨some ⟨k, k⟩, k⟩
        submits := Function.update s.submits k .returned }
  | deliver {k : ℕ} {msg : List UInt8} (hmsg : (s.worker.posts k)[s.delivered k]? = some msg)
      (hk : s.submits k = .returned) (hopen : (s.listeners k).portOpen = true) :
      Step s (.deliver k) { s with
        listeners := Function.update s.listeners k ((s.listeners k).onMessage msg)
        delivered := Function.update s.delivered k (s.delivered k + 1) }
  | cancel {k : ℕ} (hk : s.submits k = .returned) (hdtor : s.worker.dtor ≠ .returned) :
      Step s (.cancel k) { s with worker := s.worker.cancelCurrent }
  | loop {a : LoopAction} {w : Worker} (hw : s.worker.loopStep a = some w) :
      Step s (.loop a) { s with worker := w }
  | dtorStop {w : Worker} (hw : s.worker.dtorStop = some w) :
      Step s .dtorStop { s with worker := w }
  | dtorJoin {w : Worker} (hw : s.worker.dtorJoin = some w) :
      Step s .dtorJoin { s with worker := w }

/-- Handles between `txCreate` and `txSubmit` own the objects of their number. -/
def State.HandlesMade (s : State) : Prop :=
  ∀ k, s.submits k = .building → s.worker.handles k = some ⟨some ⟨k, k⟩, k⟩

theorem step_cases {s t : State} {a : Action} (hs : s.HandlesMade) (h : step s a = some t) :
    Step s a t := by
  cases a with
  | create answer =>
    simp only [step] at h
    split at h
    · next halive =>
      obtain rfl := Option.some_inj.mp h
      exact .create halive
    · exact absurd h (by simp)
  -- only a handle that was made is given to an add
  | add k op answer =>
    simp only [step] at h
    split at h
    · exact absurd h (by simp)
    · next hd hhandle =>
      split at h
      · next hk =>
        obtain rfl := Option.some_inj.mp h
        obtain rfl := Option.some_inj.mp ((hs k hk.2).symm.trans hhandle)
        exact .add hk.1 hk.2
      · exact absurd h (by simp)
  | submit k =>
    simp only [step] at h
    split at h
    · exact absurd h (by simp)
    · next hd hhandle =>
      split at h
      · next hk =>
        obtain rfl := Option.some_inj.mp h
        obtain rfl := Option.some_inj.mp ((hs k hk.2).symm.trans hhandle)
        exact .submit hk.1 hk.2
      · exact absurd h (by simp)
  -- the listener gets the next message of its port
  | deliver k =>
    simp only [step] at h
    split at h
    · exact absurd h (by simp)
    · next msg hmsg =>
      split at h
      · next hk =>
        obtain rfl := Option.some_inj.mp h
        exact .deliver hmsg hk.1 hk.2
      · exact absurd h (by simp)
  | cancel k =>
    simp only [step] at h
    split at h
    · next hk =>
      obtain rfl := Option.some_inj.mp h
      exact .cancel hk.1 hk.2
    · exact absurd h (by simp)
  | loop a =>
    obtain ⟨w, hw, rfl⟩ := Option.map_eq_some_iff.mp h
    exact .loop hw
  | dtorStop =>
    obtain ⟨w, hw, rfl⟩ := Option.map_eq_some_iff.mp h
    exact .dtorStop hw
  | dtorJoin =>
    obtain ⟨w, hw, rfl⟩ := Option.map_eq_some_iff.mp h
    exact .dtorJoin hw

/-! ### What a port is sent -/

/-- A frame on which the listener settles `result`. -/
def isTerminal (frame : List UInt8) : Bool := frame.head? = some 0x01 ∨ frame.head? = some 0x02

/-- A `TransactionProgress` frame. -/
def isProgress (frame : List UInt8) : Bool := frame.head? = some 0x10

/-- The frames a port was sent: one error for each rejection, progress if the
transaction was `taken` by the thread, and one result if it was `answered`. -/
def Sent (frames : List (List UInt8)) (rejections : ℕ) (taken answered : Prop) : Prop :=
  ∃ errors progress result, frames = errors ++ (progress ++ result) ∧
    (errors.length = rejections ∧ ∀ f ∈ errors, isTerminal f) ∧
    ((¬ taken → progress = []) ∧ ∀ f ∈ progress, isProgress f) ∧
    ((¬ answered → result = []) ∧ (answered → ∃ f, result = [f] ∧ isTerminal f))

namespace Sent

variable {frames : List (List UInt8)} {n : ℕ} {taken answered : Prop} {f : List UInt8}

theorem empty (taken : Prop) {answered : Prop} (h : ¬ answered) : Sent [] 0 taken answered :=
  ⟨[], [], [], rfl, ⟨rfl, by simp⟩, ⟨fun _ => rfl, by simp⟩, fun _ => rfl, fun ha => absurd ha h⟩

theorem congr {taken' answered' : Prop} (h : Sent frames n taken answered)
    (htaken : taken → taken') (hanswered : answered' ↔ answered) :
    Sent frames n taken' answered' := by
  obtain ⟨errors, progress, result, hframes, herrors, ⟨hnone, hprogress⟩, hresult⟩ := h
  refine ⟨errors, progress, result, hframes, herrors, ⟨fun ht => hnone (mt htaken ht), hprogress⟩,
    ?_⟩
  rwa [hanswered]

theorem error (h : Sent frames n taken answered) (ht : ¬ taken) (ha : ¬ answered)
    (hf : isTerminal f) : Sent (frames ++ [f]) (n + 1) taken answered := by
  obtain ⟨errors, progress, result, rfl, ⟨hlength, herrors⟩, ⟨hnone, hprogress⟩, hempty, -⟩ := h
  -- neither progress nor result yet, so the error comes last of the errors
  refine ⟨errors ++ [f], [], [], by simp [hnone ht, hempty ha], ⟨by simp [hlength], ?_⟩,
    ⟨fun _ => rfl, by simp⟩, fun _ => rfl, fun h => absurd h ha⟩
  intro g hg
  rcases List.mem_append.mp hg with hg | hg
  · exact herrors g hg
  · rwa [List.mem_singleton.mp hg]

theorem progress (h : Sent frames n taken answered) (ht : taken) (ha : ¬ answered)
    (hf : isProgress f) : Sent (frames ++ [f]) n taken answered := by
  obtain ⟨errors, progress, result, rfl, herrors, ⟨-, hprogress⟩, hempty, -⟩ := h
  refine ⟨errors, progress ++ [f], [], by simp [hempty ha], herrors,
    ⟨fun h => absurd ht h, ?_⟩, fun _ => rfl, fun h => absurd h ha⟩
  intro g hg
  rcases List.mem_append.mp hg with hg | hg
  · exact hprogress g hg
  · rwa [List.mem_singleton.mp hg]

theorem result {answered' : Prop} (h : Sent frames n taken answered) (ha : ¬ answered)
    (ha' : answered') (hf : isTerminal f) : Sent (frames ++ [f]) n taken answered' := by
  obtain ⟨errors, progress, result, rfl, herrors, hprogress, hempty, -⟩ := h
  exact ⟨errors, progress, [f], by simp [hempty ha], herrors, hprogress,
    fun h => absurd ha' h, fun _ => ⟨f, rfl, hf⟩⟩

theorem not_isTerminal (hf : isProgress f) : isTerminal f = false := by
  rw [isProgress, decide_eq_true_iff] at hf
  simp [isTerminal, hf]

/-- One terminal frame for each rejection, and one for the result. -/
theorem terminals_length (h : Sent frames n taken answered) (ha : answered) :
    (frames.filter isTerminal).length = n + 1 := by
  obtain ⟨errors, progress, result, rfl, ⟨hlength, herrors⟩, ⟨-, hprogress⟩, -, hsome⟩ := h
  obtain ⟨r, rfl, hr⟩ := hsome ha
  -- a progress frame is not terminal
  have hnone : progress.filter isTerminal = [] :=
    List.filter_eq_nil_iff.mpr fun g hg => by simp [not_isTerminal (hprogress g hg)]
  rw [List.filter_append, List.filter_append, List.filter_eq_self.mpr herrors, hnone,
    List.nil_append, List.filter_cons_of_pos hr]
  simp [hlength]

/-- With nothing rejected, an answered port has its result at the end, after
all progress. -/
theorem result_last (h : Sent frames 0 taken answered) (ha : answered) :
    ∃ progress r, frames = progress ++ [r] ∧ (∀ f ∈ progress, isProgress f) ∧ isTerminal r := by
  obtain ⟨errors, progress, result, rfl, ⟨hlength, -⟩, ⟨-, hprogress⟩, -, hsome⟩ := h
  obtain ⟨r, rfl, hr⟩ := hsome ha
  obtain rfl := List.eq_nil_of_length_eq_zero hlength
  exact ⟨progress, r, rfl, hprogress, hr⟩

/-- With nothing rejected, a terminal frame is the run's result. -/
theorem answered_of_terminal (h : Sent frames 0 taken answered) (hmem : f ∈ frames)
    (hf : isTerminal f) : answered := by
  obtain ⟨errors, progress, result, rfl, ⟨hlength, -⟩, ⟨-, hprogress⟩, hempty, -⟩ := h
  obtain rfl := List.eq_nil_of_length_eq_zero hlength
  by_contra ha
  rw [hempty ha, List.nil_append, List.append_nil] at hmem
  exact absurd (hprogress f hmem) (by
    intro hp
    simp [not_isTerminal hp] at hf)

end Sent

/-- What port `k` was sent is what the worker's history says. -/
def Framed (w : Worker) (k : ℕ) : Prop :=
  Sent (w.posts k) (w.rejected k).length (k ∈ w.dequeued.map PendingTx.tx) (k ∈ w.answered)

section framed

variable {w w' : Worker} {k : ℕ}

/-- A step that posts nothing, and answers nobody. -/
theorem Framed.quiet (h : Framed w k) (hposts : w'.posts k = w.posts k)
    (hrejected : w'.rejected k = w.rejected k)
    (hdequeued : k ∈ w.dequeued.map PendingTx.tx → k ∈ w'.dequeued.map PendingTx.tx)
    (hanswered : w'.answered = w.answered) : Framed w' k := by
  rw [Framed, hposts, hrejected]
  exact h.congr hdequeued (by rw [hanswered])

theorem post_posts (w : Worker) (port : ℕ) (frame : List UInt8) :
    (w.post port frame).posts k = if k = port then w.posts k ++ [frame] else w.posts k := by
  show Function.update w.posts port (w.posts port ++ [frame]) k = _
  rw [Function.update_apply]
  split
  · next h => rw [h]
  · rfl

/-- The port of an item in hand is its number. -/
theorem inHand_port (hw : w.Inv) {item : PendingTx} (h : item ∈ w.loop.inHand) :
    item.port = item.tx := by
  rw [hw.dequeued_of (hw.inHand item h)]
  rfl

/-- The transaction of an unanswered item in hand is taken and not answered. -/
theorem unanswered_taken (hw : w.Inv) (h : k ∈ w.loop.unanswered) :
    k ∈ w.dequeued.map PendingTx.tx ∧ k ∉ w.answered := by
  refine ⟨?_, fun ha => (hw.answered_not_pending ha).1 h⟩
  rw [hw.txRefs, Loop.inHand_map_tx]
  exact List.mem_append_right _ (List.mem_append_right _ h)

theorem Framed.progress (h : Framed w k) (hw : w.Inv) {item : PendingTx} {cancelled : Bool}
    {ctxs : List ProgressCtx} (hloop : w.loop = .running item cancelled ctxs) {frame : List UInt8}
    (hframe : isProgress frame) : Framed (w.post item.port frame) k := by
  rw [Framed, post_posts]
  split
  · next hk =>
    have hport : item.port = item.tx := inHand_port hw (by simp [hloop, Loop.inHand])
    have htaken := unanswered_taken hw (k := k) (by simp [hloop, Loop.unanswered, hk, hport])
    exact Sent.progress h htaken.1 htaken.2 hframe
  · exact h

theorem isProgress_postGlaze {T : Type} [Reflectable T] (value : T) :
    isProgress (postGlaze 0x10 value) := by
  rw [isProgress, postGlaze, postFramed_head]
  rfl

theorem isTerminal_postError (msg : CString) : isTerminal (postError msg) := by
  rw [isTerminal, postError, postFramedError_head]
  rfl

theorem isTerminal_resultFrame (err : Option CString) : isTerminal (resultFrame err) := by
  cases err with
  | none => rfl
  | some msg => exact isTerminal_postError msg

theorem Framed.loopStep {a : LoopAction} (h : Framed w k) (hw : w.Inv)
    (hstep : w.loopStep a = some w') : Framed w' k := by
  cases loopStep_cases hstep with
  | dequeue hloop hstop hqueue =>
    refine h.quiet rfl rfl (fun hk => ?_) (by simp [Worker.answered, hloop, Loop.answered])
    rw [List.map_append]
    exact List.mem_append_left _ hk
  | observeStop hloop hstop =>
    exact h.quiet rfl rfl id (by simp [Worker.answered, hloop, Loop.answered])
  | runBegin hloop => exact h.quiet rfl rfl id (by simp [Worker.answered, hloop, Loop.answered])
  | newOperation hloop =>
    refine (h.progress hw hloop (isProgress_postGlaze _)).quiet rfl rfl id ?_
    simp [Worker.answered, Worker.post, hloop, Loop.answered]
  | @changed item cancelled ctxs ctx i progress bytesTransferred status hloop hctx =>
    -- all contexts of a run post on the port of its item
    have hports : ∀ ctx ∈ ctxs, ctx.port = item.port := by
      simpa [hloop, Loop.CtxsOnPort] using hw.ctxs
    rw [hports ctx (List.mem_of_getElem? hctx)]
    exact h.progress hw hloop (isProgress_postGlaze _)
  | operationDone hloop => exact h.progress hw hloop (isProgress_postGlaze _)
  | runReturn hloop herr =>
    exact h.quiet rfl rfl id (by simp [Worker.answered, hloop, Loop.answered])
  | @postResult item err hloop =>
    have hanswered : w.answered = w.unrefTx := by simp [Worker.answered, hloop, Loop.answered]
    have hport : item.port = item.tx := inHand_port hw (by simp [hloop, Loop.inHand])
    rw [Framed]
    simp only [post_posts, hport]
    -- port `k` is the one that gets its result, or not concerned
    split
    · next hk =>
      have htaken := unanswered_taken hw (k := k) (by simp [hloop, Loop.unanswered, hk])
      exact Sent.result h htaken.2 (by simp [Worker.answered, Loop.answered, hk])
        (isTerminal_resultFrame err)
    · next hk =>
      refine Sent.congr h id ?_
      rw [hanswered]
      simp [Worker.answered, Worker.post, Loop.answered, hk]
  | clearCurrent hloop => exact h.quiet rfl rfl id (by simp [Worker.answered, hloop, Loop.answered])
  | unrefCancel hloop => exact h.quiet rfl rfl id (by simp [Worker.answered, hloop, Loop.answered])
  | unrefTx hloop => exact h.quiet rfl rfl id (by simp [Worker.answered, hloop, Loop.answered])

/-- An add on a handle not submitted yet posts one error if it is rejected. -/
theorem Framed.add (h : Framed w k) {j : ℕ} (hw : w.Inv)
    (hj : j ∉ w.dequeued.map PendingTx.tx) (op : AddOp) (answer : Answer) :
    Framed (w.add ⟨some ⟨j, j⟩, j⟩ op answer) k := by
  -- not even taken
  have hanswered : j ∉ w.answered := by
    intro ha
    refine hj ?_
    rw [hw.txRefs, Loop.inHand_map_tx, ← List.append_assoc]
    exact List.mem_append_left _ ha
  have hbody (fallback : CString) : Framed (w.txAdd op fallback ⟨some ⟨j, j⟩, j⟩ answer) k := by
    cases answer with
    | accepted => exact h
    | rejected err =>
      simp only [Framed, Worker.txAdd, post_posts, Function.update_apply]
      split
      · next hk =>
        subst hk
        rw [List.length_append]
        exact Sent.error h hj hanswered (isTerminal_postError _)
      · exact h
  cases op <;> exact hbody _

end framed

/-! ### The invariant -/

/-- The invariant of every reachable state. -/
structure Inv (s : State) : Prop where
  worker : s.worker.Inv
  fresh : ∀ k, s.worker.created ≤ k → s.submits k = .absent
  handles : s.HandlesMade
  submitted : ∀ x ∈ s.worker.enqueued, s.submits x.tx = .returned
  framed : ∀ k, s.submits k ≠ .nullHandle → Framed s.worker k
  settled : ∀ k, (s.listeners k).result ≠ .pending → ∃ f ∈ s.worker.posts k, isTerminal f
  listening : ∀ k, (s.listeners k).result ≠ .pending → s.submits k = .returned

theorem init_inv : Inv init where
  worker := TransactionWorker.init_inv
  fresh := fun _ _ => rfl
  handles := fun k hk => absurd hk (by simp [init])
  submitted := fun x hx => absurd hx (by simp [init, Worker.init])
  framed := fun k _ => Sent.empty _ (by simp [init, Worker.init, Worker.answered, Loop.answered])
  settled := fun k hk => absurd hk (by simp [init, Listener.init])
  listening := fun k hk => absurd hk (by simp [init, Listener.init])

/-- Only a terminal frame settles `result`. -/
theorem onMessage_settles {l : Listener} {msg : List UInt8}
    (h : (l.onMessage msg).result ≠ .pending) : l.result ≠ .pending ∨ isTerminal msg := by
  rw [Listener.onMessage] at h
  split at h
  · left
    split at h
    · exact h
    · split at h <;> exact h
  · next hhead => exact Or.inr (by simp [isTerminal, hhead])
  · next hhead => exact Or.inr (by simp [isTerminal, hhead])
  · exact Or.inl h

section posts

variable {w w' : Worker} (k : ℕ)

theorem post_grows (port : ℕ) (frame : List UInt8) :
    w.posts k <+: (w.post port frame).posts k := by
  rw [post_posts]
  split
  · exact List.prefix_append _ _
  · exact List.prefix_refl _

theorem loopStep_grows {a : LoopAction} (h : w.loopStep a = some w') :
    w.posts k <+: w'.posts k := by
  cases loopStep_cases h with
  | dequeue | observeStop | runBegin | runReturn | clearCurrent | unrefCancel | unrefTx =>
    exact List.prefix_refl _
  | newOperation | changed | operationDone | postResult => exact post_grows k _ _

theorem create_grows (port : ℕ) (answer : Answer) :
    w.posts k <+: (w.flatpakTxCreate port answer).posts k := by
  cases answer with
  | accepted => exact List.prefix_refl _
  | rejected err => exact post_grows k _ _

theorem add_grows (h : TxHandle) (op : AddOp) (answer : Answer) :
    w.posts k <+: (w.add h op answer).posts k := by
  have hbody (fallback : CString) : w.posts k <+: (w.txAdd op fallback h answer).posts k := by
    rw [Worker.txAdd]
    split
    · exact List.prefix_refl _
    · cases answer with
      | accepted => exact List.prefix_refl _
      | rejected err => exact post_grows k _ _
  cases op <;> exact hbody _

end posts

/-- A handle not submitted yet is not in the worker. -/
theorem Inv.not_enqueued {s : State} (hs : Inv s) {k : ℕ} (hk : s.submits k ≠ .returned) :
    k ∉ s.worker.enqueued.map PendingTx.tx := by
  intro hmem
  obtain ⟨x, hx, rfl⟩ := List.mem_map.mp hmem
  exact hk (hs.submitted x hx)

theorem Inv.not_dequeued {s : State} (hs : Inv s) {k : ℕ} (hk : s.submits k ≠ .returned) :
    k ∉ s.worker.dequeued.map PendingTx.tx := by
  intro hmem
  obtain ⟨x, hx, rfl⟩ := List.mem_map.mp hmem
  exact hk (hs.submitted x (hs.worker.dequeued_subset hx))

theorem create_inv {s : State} (hs : Inv s) (answer : Answer) : Inv (s.create answer) := by
  -- the number of the handle was not in use, and nothing else changes
  have hnew : s.submits s.worker.created = .absent := hs.fresh _ le_rfl
  have hother : ∀ {k}, k ≠ s.worker.created → (s.create answer).submits k = s.submits k :=
    fun hk => Function.update_of_ne hk _ _
  have hkeep : ∀ {k}, s.submits k = .returned → (s.create answer).submits k = .returned := by
    intro k hk
    rw [hother (fun h => by simp [h, hnew] at hk), hk]
  have hcreated : (s.create answer).worker.created = s.worker.created + 1 := by
    cases answer <;> rfl
  have hsame : (s.create answer).worker.enqueued = s.worker.enqueued := by cases answer <;> rfl
  refine ⟨Worker.flatpakTxCreate_inv hs.worker _ answer, ?_, ?_,
    ?_, ?_, ?_, fun k hk => hkeep (hs.listening k hk)⟩
  · intro k hk
    rw [hcreated] at hk
    exact (hother (by omega)).trans (hs.fresh k (by omega))
  · intro k hk
    rcases eq_or_ne k s.worker.created with rfl | hne
    · cases answer with
      | accepted => exact Function.update_self _ _ _
      | rejected err => exact absurd hk (by simp [State.create])
    · have hk' := hs.handles k ((hother hne).symm.trans hk)
      cases answer with
      | accepted => exact (Function.update_of_ne hne _ _).trans hk'
      | rejected err => exact hk'
  · intro x hx
    rw [hsame] at hx
    exact hkeep (hs.submitted x hx)
  · intro k hk
    rcases eq_or_ne k s.worker.created with rfl | hne
    · cases answer with
      | accepted => exact hs.framed _ (by simp [hnew])
      -- its port has an error, and no handle
      | rejected err => exact absurd (by simp [State.create]) hk
    · have hk' := hs.framed k (fun h => hk ((hother hne).trans h))
      cases answer with
      | accepted => exact hk'
      | rejected err => exact hk'.quiet ((post_posts _ _ _).trans (if_neg hne)) rfl id rfl
  · intro k hk
    obtain ⟨f, hf, hterminal⟩ := hs.settled k hk
    exact ⟨f, (create_grows k _ answer).subset hf, hterminal⟩

theorem submit_inv {s : State} (hs : Inv s) {k : ℕ} (hk : s.submits k = .building) :
    Inv { s with
      worker := s.worker.flatpakTxSubmit k ⟨some ⟨k, k⟩, k⟩
      submits := Function.update s.submits k .returned } := by
  have hother : ∀ {j}, j ≠ k → Function.update s.submits k .returned j = s.submits j :=
    fun hj => Function.update_of_ne hj _ _
  have hkeep : ∀ {j}, s.submits j = .returned →
      Function.update s.submits k .returned j = .returned := by
    intro j hj
    rw [Function.update_apply, hj, ite_self]
  -- the objects leave the handle, of which the worker knows nothing
  have hworker : ({ s.worker with
      handles := Function.update s.worker.handles k (some ⟨none, k⟩) } : Worker).Inv :=
    { hs.worker with }
  refine ⟨Worker.enqueue_inv hworker (hs.not_enqueued (by simp [hk])), ?_, ?_, ?_, ?_, hs.settled,
    fun j hj => hkeep (hs.listening j hj)⟩
  · intro j hj
    have hj' : s.submits j = .absent := hs.fresh j hj
    exact (hother (fun h => by simp [h, hk] at hj')).trans hj'
  · intro j hj
    have hne : j ≠ k := fun h => by simp [h] at hj
    have hhandle := hs.handles j ((hother hne).symm.trans hj)
    exact (Function.update_of_ne hne _ _).trans hhandle
  · intro x hx
    rcases List.mem_append.mp hx with hx | hx
    · exact hkeep (hs.submitted x hx)
    · rw [List.mem_singleton.mp hx]
      exact Function.update_self _ _ _
  · intro j hj
    refine (hs.framed j fun h => hj ?_).quiet rfl rfl id rfl
    exact (hother (fun hjk => by simp [hjk, hk] at h)).trans h

theorem deliver_inv {s : State} (hs : Inv s) {k : ℕ} {msg : List UInt8}
    (hmsg : (s.worker.posts k)[s.delivered k]? = some msg) (hk : s.submits k = .returned) :
    Inv { s with
      listeners := Function.update s.listeners k ((s.listeners k).onMessage msg)
      delivered := Function.update s.delivered k (s.delivered k + 1) } := by
  -- who has settled did so before, or on this frame
  have hcase : ∀ {j}, (Function.update s.listeners k ((s.listeners k).onMessage msg) j).result
      ≠ .pending → (s.listeners j).result ≠ .pending ∨ (j = k ∧ isTerminal msg) := by
    intro j hj
    rcases eq_or_ne j k with rfl | hne
    · rw [Function.update_self] at hj
      exact (onMessage_settles hj).imp_right fun hterminal => ⟨rfl, hterminal⟩
    · rw [Function.update_of_ne hne] at hj
      exact Or.inl hj
  refine { hs with settled := fun j hj => ?_, listening := fun j hj => ?_ }
  · rcases hcase hj with hj | ⟨rfl, hterminal⟩
    · exact hs.settled j hj
    · exact ⟨msg, List.mem_of_getElem? hmsg, hterminal⟩
  · rcases hcase hj with hj | ⟨rfl, -⟩
    · exact hs.listening j hj
    · exact hk

/-- Steps of the worker alone, which neither make nor take handles. -/
theorem worker_inv {s : State} (hs : Inv s) {w : Worker} (hw : w.Inv)
    (hcreated : w.created = s.worker.created) (hhandles : w.handles = s.worker.handles)
    (henqueued : w.enqueued = s.worker.enqueued) (hframed : ∀ k, Framed s.worker k → Framed w k)
    (hposts : ∀ k, s.worker.posts k <+: w.posts k) : Inv { s with worker := w } where
  worker := hw
  fresh := fun k hk => hs.fresh k (hcreated ▸ hk)
  handles := fun k hk => (congrFun hhandles k).trans (hs.handles k hk)
  submitted := fun x hx => hs.submitted x (henqueued ▸ hx)
  framed := fun k hk => hframed k (hs.framed k hk)
  settled := fun k hk => by
    obtain ⟨f, hf, hterminal⟩ := hs.settled k hk
    exact ⟨f, (hposts k).subset hf, hterminal⟩
  listening := hs.listening

theorem step_inv {s t : State} {a : Action} (h : step s a = some t) (hs : Inv s) : Inv t := by
  cases step_cases hs.handles h with
  | create halive => exact create_inv hs _
  | @add k op answer halive hk =>
    have htaken : k ∉ s.worker.dequeued.map PendingTx.tx := hs.not_dequeued (by simp [hk])
    refine worker_inv hs (Worker.add_inv hs.worker _ op answer) ?_ ?_ ?_
      (fun j hj => hj.add hs.worker htaken op answer) (fun j => add_grows j _ op answer) <;>
    cases op <;> cases answer <;> rfl
  | submit halive hk => exact submit_inv hs hk
  | deliver hmsg hk hopen => exact deliver_inv hs hmsg hk
  | cancel hk hdtor =>
    have hinv := Worker.cancelCurrent_inv hs.worker
    rw [cancelCurrent_eq] at hinv ⊢
    exact worker_inv hs hinv rfl rfl rfl (fun k hk => hk) fun k => List.prefix_refl _
  | loop hw =>
    refine worker_inv hs (Worker.loopStep_inv hs.worker hw) ?_ ?_ ?_
      (fun k hk => hk.loopStep hs.worker hw) (fun k => loopStep_grows k hw) <;>
    cases loopStep_cases hw <;> rfl
  | dtorStop hw =>
    have hinv := Worker.dtorStop_inv hs.worker hw
    obtain ⟨-, rfl⟩ := dtorStop_cases hw
    exact worker_inv hs hinv rfl rfl rfl (fun k hk => hk) fun k => List.prefix_refl _
  | dtorJoin hw =>
    have hinv := Worker.dtorJoin_inv hs.worker hw
    obtain ⟨-, -, rfl⟩ := dtorJoin_cases hw
    exact worker_inv hs hinv rfl rfl rfl (fun k hk => hk) fun k => List.prefix_refl _

theorem run_inv {s : State} {as : List Action} (h : Machine.run step init as = some s) : Inv s :=
  Machine.run_invariant (I := Inv) step_inv h init_inv

/-- What a submitted transaction's port was sent, in every reachable state. -/
theorem run_framed {s : State} {as : List Action} (h : Machine.run step init as = some s) {k : ℕ}
    (hk : s.submits k = .returned) : Framed s.worker k :=
  (run_inv h).framed k (by simp [hk])

end TransactionBridge
