/-
`TransactionWorker` (`native/src/transaction_bridge.cpp`): the serial queue that
runs one installation's transactions, and the C ABI in front of it.

The state is the object's fields, where its thread stands in `loop()`, and the
history of what was posted, signalled and released.  The functions of the C ABI
are functions on it; `loopStep` is the thread, one critical section, one call
into libflatpak or one signal handler at a time.  `Inv` is what all of them
keep:

* `loopStep_inv`, `enqueue_inv`, `cancelCurrent_inv` — the steps preserve it;
* `answered_not_pending` — an answered transaction is neither queued nor run;
* `released_once` — what the thread took and no longer has in hand, it has released
  once;
* `returned_released` — when the thread is gone, what it took it has released.
-/
import FlatpakDart.FifoServer
import FlatpakDart.FlatpakPost
import FlatpakDart.FlatpakTypes
import Mathlib.Data.List.Nodup
import Mathlib.Logic.Function.Basic

open Glz Native FlatpakNc

namespace TransactionWorker

/-! ### Frames -/

/-- `post_glaze`. -/
def postGlaze {T : Type} [Reflectable T] (discriminator : UInt8) (value : T) : List UInt8 :=
  postFramed discriminator (writeBinary value)

/-- `post_sentinel`. -/
def postSentinel : List UInt8 := [0x01]

/-- `post_error`. -/
def postError (msg : CString) : List UInt8 := postFramedError 0x02 msg

/-- `FlatpakTransactionOperationType`. -/
inductive OperationType
  | install
  | update
  | installBundle
  | uninstall
  | other

/-- `op_kind_str`. -/
def opKindStr : OperationType → CppString
  | .install => .lit "install" (by decide)
  | .update => .lit "update" (by decide)
  | .installBundle => .lit "install" (by decide)
  | .uninstall => .lit "uninstall" (by decide)
  | .other => .lit "unknown" (by decide)

/-! ### State -/

/-- The two objects a handle owns until it is submitted. -/
structure TxObjects where
  tx : ℕ
  cancel : ℕ
  deriving DecidableEq

/-- `tx` and `cancel` of a handle are set together and nulled together. -/
structure TxHandle where
  objects : Option TxObjects
  port : ℕ
  deriving DecidableEq

structure PendingTx where
  tx : ℕ
  cancel : ℕ
  port : ℕ
  deriving DecidableEq

structure ProgressCtx where
  port : ℕ
  ref : CppString
  opKind : CppString

/-- An operation added to a transaction before it is submitted. -/
inductive AddOp
  | install (remote ref : CString)
  | update (ref : CString)
  | uninstall (ref : CString)
  | installBundle (bundlePath : CString)

/-- What libflatpak answers: a failure may come without a `GError`. -/
inductive Answer
  | accepted
  | rejected (err : Option CString)

/-- Where the thread stands in `loop()`. -/
inductive Loop
  /-- at `cv_.wait`, or on its way to `mu_` -/
  | waiting
  /-- item popped and lock released, `flatpak_transaction_run` not yet called -/
  | popped (item : PendingTx)
  /-- inside `flatpak_transaction_run`; `cancelled` says whether the cancellable
  was signalled before, `ctxs` are the operations announced so far -/
  | running (item : PendingTx) (cancelled : Bool) (ctxs : List ProgressCtx)
  /-- `flatpak_transaction_run` has returned -/
  | ran (item : PendingTx) (err : Option CString)
  /-- the terminal frame is posted -/
  | posted (item : PendingTx)
  /-- `current_cancel_` is null again -/
  | cleared (item : PendingTx)
  /-- `item.cancel` is released -/
  | cancelReleased (item : PendingTx)
  /-- `loop()` has returned -/
  | returned

/-- Where the destructor stands. -/
inductive Dtor
  | alive
  /-- `stop_` set, in `thread_.join()` -/
  | stopping
  | returned
  deriving DecidableEq

/-- The members of a `TransactionWorker`, its thread, the handles made for it,
and the history of its calls.  Objects, handles and ports are numbered. -/
structure Worker where
  queue : List PendingTx
  currentCancel : Option ℕ
  stop : Bool
  loop : Loop
  dtor : Dtor
  /-- calls of `flatpak_tx_create` so far -/
  created : ℕ
  handles : ℕ → Option TxHandle
  /-- operations a `FlatpakTransaction` object holds -/
  ops : ℕ → List AddOp
  /-- operations libflatpak refused to add to it -/
  rejected : ℕ → List AddOp
  /-- frames posted on each port, in order -/
  posts : ℕ → List (List UInt8)
  /-- items passed to `enqueue`, in order -/
  enqueued : List PendingTx
  /-- items popped from `queue_`, in order -/
  dequeued : List PendingTx
  /-- items passed to `flatpak_transaction_run`, in order -/
  executed : List PendingTx
  /-- what `flatpak_transaction_run` returned, and for which item -/
  outcomes : List (PendingTx × Option CString)
  /-- cancellables passed to `g_cancellable_cancel`, in order -/
  signalled : List ℕ
  /-- cancellables the thread released, in order -/
  unrefCancel : List ℕ
  /-- transactions the thread released, in order -/
  unrefTx : List ℕ

/-- A worker just constructed: its thread is started and parks. -/
def Worker.init : Worker where
  queue := []
  currentCancel := none
  stop := false
  loop := .waiting
  dtor := .alive
  created := 0
  handles := fun _ => none
  ops := fun _ => []
  rejected := fun _ => []
  posts := fun _ => []
  enqueued := []
  dequeued := []
  executed := []
  outcomes := []
  signalled := []
  unrefCancel := []
  unrefTx := []

/-- `Dart_PostCObject_DL` appends to the port's messages. -/
def Worker.post (w : Worker) (port : ℕ) (frame : List UInt8) : Worker :=
  { w with posts := Function.update w.posts port (w.posts port ++ [frame]) }

/-! ### The C ABI -/

/-- `TransactionWorker::enqueue`. -/
def Worker.enqueue (w : Worker) (item : PendingTx) : Worker :=
  { w with
    queue := w.queue ++ [item]
    enqueued := w.enqueued ++ [item] }

/-- `TransactionWorker::cancel_current`. -/
def Worker.cancelCurrent (w : Worker) : Worker :=
  match w.currentCancel with
  | some cancel => { w with signalled := w.signalled ++ [cancel] }
  | none => w

/-- `flatpak_tx_create`: two new objects, or an error on the port and no handle. -/
def Worker.flatpakTxCreate (w : Worker) (port : ℕ) : Answer → Worker
  | .accepted =>
    { w with
      created := w.created + 1
      handles := Function.update w.handles w.created (some ⟨some ⟨w.created, w.created⟩, port⟩) }
  | .rejected err =>
    { w.post port (postError (err.getD (.lit "failed to create transaction" (by decide)))) with
      created := w.created + 1 }

/-- The body the four `flatpak_tx_add_*` functions share. -/
def Worker.txAdd (w : Worker) (op : AddOp) (fallback : CString) (h : TxHandle)
    (answer : Answer) : Worker :=
  match h.objects with
  | none => w
  | some objects =>
    match answer with
    | .accepted =>
      { w with ops := Function.update w.ops objects.tx (w.ops objects.tx ++ [op]) }
    -- the port is the one that gets the result of the run
    | .rejected err =>
      { w.post h.port (postError (err.getD fallback)) with
        rejected := Function.update w.rejected objects.tx (w.rejected objects.tx ++ [op]) }

def Worker.flatpakTxAddInstall (w : Worker) (h : TxHandle) (remote ref : CString) :
    Answer → Worker :=
  w.txAdd (.install remote ref) (.lit "add_install failed" (by decide)) h

def Worker.flatpakTxAddUpdate (w : Worker) (h : TxHandle) (ref : CString) : Answer → Worker :=
  w.txAdd (.update ref) (.lit "add_update failed" (by decide)) h

def Worker.flatpakTxAddUninstall (w : Worker) (h : TxHandle) (ref : CString) : Answer → Worker :=
  w.txAdd (.uninstall ref) (.lit "add_uninstall failed" (by decide)) h

def Worker.flatpakTxAddInstallBundle (w : Worker) (h : TxHandle) (bundlePath : CString) :
    Answer → Worker :=
  w.txAdd (.installBundle bundlePath) (.lit "add_install_bundle failed" (by decide)) h

/-- The call that adds an operation. -/
def Worker.add (w : Worker) (h : TxHandle) : AddOp → Answer → Worker
  | .install remote ref => w.flatpakTxAddInstall h remote ref
  | .update ref => w.flatpakTxAddUpdate h ref
  | .uninstall ref => w.flatpakTxAddUninstall h ref
  | .installBundle bundlePath => w.flatpakTxAddInstallBundle h bundlePath

/-- `flatpak_tx_submit` on handle `k`: the worker owns the objects from here. -/
def Worker.flatpakTxSubmit (w : Worker) (k : ℕ) (h : TxHandle) : Worker :=
  match h.objects with
  -- submitted before
  | none => w.post h.port (postError (.lit "No transaction created" (by decide)))
  | some objects =>
    { w with handles := Function.update w.handles k (some ⟨none, h.port⟩) }.enqueue
      ⟨objects.tx, objects.cancel, h.port⟩

/-! ### The thread -/

/-- `on_new_operation`'s frame. -/
def startingProgress (type : OperationType) (ref : Option CString) : TransactionProgress where
  op := opKindStr type
  ref := safeStr ref
  progress := 0
  bytesTransferred := 0
  bytesTotal := 0
  status := .lit "Starting" (by decide)

/-- The frame of the "changed" handler that `on_new_operation` connects. -/
def changedProgress (ctx : ProgressCtx) (progress : UInt32) (bytesTransferred : UInt64)
    (status : Option CString) : TransactionProgress where
  op := ctx.opKind
  ref := ctx.ref
  progress := progress
  bytesTransferred := bytesTransferred
  bytesTotal := 0
  status := safeStr status

/-- `on_operation_done`'s frame. -/
def doneProgress (type : OperationType) (ref : Option CString) : TransactionProgress where
  op := opKindStr type
  ref := safeStr ref
  progress := 100
  bytesTransferred := 0
  bytesTotal := 0
  status := .lit "Done" (by decide)

/-- The steps of the thread. -/
inductive LoopAction
  | dequeue
  | observeStop
  | runBegin
  | newOperation (type : OperationType) (ref : Option CString)
  /-- "changed" on the progress object of the `i`-th announced operation -/
  | changed (i : ℕ) (progress : UInt32) (bytesTransferred : UInt64) (status : Option CString)
  | operationDone (type : OperationType) (ref : Option CString)
  /-- `flatpak_transaction_run` returns; `none` is success -/
  | runReturn (err : Option CString)
  | postResult
  | clearCurrent
  | unrefCancel
  | unrefTx

/-- `ok ? post_sentinel(item.port) : post_error(item.port, err->message)`. -/
def resultFrame : Option CString → List UInt8
  | none => postSentinel
  | some msg => postError msg

/-- One step of `loop()` and of the `execute()` inside it.  A run whose
cancellable was signalled before it began does not succeed. -/
def Worker.loopStep (w : Worker) (a : LoopAction) : Option Worker :=
  match w.loop, a with
  | .waiting, .dequeue =>
    if w.stop then none
    else
      match w.queue with
      | [] => none
      | item :: rest =>
        some { w with
          queue := rest
          currentCancel := some item.cancel
          loop := .popped item
          dequeued := w.dequeued ++ [item] }
  | .waiting, .observeStop => if w.stop then some { w with loop := .returned } else none
  | .popped item, .runBegin =>
    -- `cancelled` is what libflatpak can see of a cancel that came first
    some { w with
      loop := .running item (decide (item.cancel ∈ w.signalled)) []
      executed := w.executed ++ [item] }
  | .running item cancelled ctxs, .newOperation type ref =>
    some { w.post item.port (postGlaze 0x10 (startingProgress type ref)) with
      loop := .running item cancelled (ctxs ++ [⟨item.port, safeStr ref, opKindStr type⟩]) }
  | .running _ _ ctxs, .changed i progress bytesTransferred status =>
    -- the handlers stay connected, so an earlier operation may still report
    match ctxs[i]? with
    | none => none
    | some ctx =>
      some (w.post ctx.port
        (postGlaze 0x10 (changedProgress ctx progress bytesTransferred status)))
  | .running item _ _, .operationDone type ref =>
    some (w.post item.port (postGlaze 0x10 (doneProgress type ref)))
  | .running item cancelled _, .runReturn err =>
    if cancelled ∧ err.isNone then none
    else some { w with loop := .ran item err, outcomes := w.outcomes ++ [(item, err)] }
  | .ran item err, .postResult =>
    -- `current_cancel_` still points at the cancellable of this item
    some { w.post item.port (resultFrame err) with loop := .posted item }
  | .posted item, .clearCurrent => some { w with currentCancel := none, loop := .cleared item }
  | .cleared item, .unrefCancel =>
    some { w with unrefCancel := w.unrefCancel ++ [item.cancel], loop := .cancelReleased item }
  | .cancelReleased item, .unrefTx =>
    some { w with unrefTx := w.unrefTx ++ [item.tx], loop := .waiting }
  | _, _ => none

/-- The destructor's critical section. -/
def Worker.dtorStop (w : Worker) : Option Worker :=
  if w.dtor = .alive then some { w with stop := true, dtor := .stopping } else none

/-- `thread_.join()` returns once `loop()` has. -/
def Worker.dtorJoin (w : Worker) : Option Worker :=
  match w.loop with
  | .returned => if w.dtor = .stopping then some { w with dtor := .returned } else none
  | _ => none

/-- Everything a step of the thread can do. -/
inductive Worker.LoopStep (w : Worker) : LoopAction → Worker → Prop
  | dequeue {item : PendingTx} {rest : List PendingTx} (hloop : w.loop = .waiting)
      (hstop : w.stop = false) (hqueue : w.queue = item :: rest) :
      LoopStep w .dequeue { w with
        queue := rest
        currentCancel := some item.cancel
        loop := .popped item
        dequeued := w.dequeued ++ [item] }
  | observeStop (hloop : w.loop = .waiting) (hstop : w.stop = true) :
      LoopStep w .observeStop { w with loop := .returned }
  | runBegin {item : PendingTx} (hloop : w.loop = .popped item) :
      LoopStep w .runBegin { w with
        loop := .running item (decide (item.cancel ∈ w.signalled)) []
        executed := w.executed ++ [item] }
  | newOperation {item : PendingTx} {cancelled : Bool} {ctxs : List ProgressCtx}
      {type : OperationType} {ref : Option CString}
      (hloop : w.loop = .running item cancelled ctxs) :
      LoopStep w (.newOperation type ref)
        { w.post item.port (postGlaze 0x10 (startingProgress type ref)) with
          loop := .running item cancelled (ctxs ++ [⟨item.port, safeStr ref, opKindStr type⟩]) }
  | changed {item : PendingTx} {cancelled : Bool} {ctxs : List ProgressCtx} {ctx : ProgressCtx}
      {i : ℕ} {progress : UInt32} {bytesTransferred : UInt64} {status : Option CString}
      (hloop : w.loop = .running item cancelled ctxs) (hctx : ctxs[i]? = some ctx) :
      LoopStep w (.changed i progress bytesTransferred status)
        (w.post ctx.port (postGlaze 0x10 (changedProgress ctx progress bytesTransferred status)))
  | operationDone {item : PendingTx} {cancelled : Bool} {ctxs : List ProgressCtx}
      {type : OperationType} {ref : Option CString}
      (hloop : w.loop = .running item cancelled ctxs) :
      LoopStep w (.operationDone type ref)
        (w.post item.port (postGlaze 0x10 (doneProgress type ref)))
  | runReturn {item : PendingTx} {cancelled : Bool} {ctxs : List ProgressCtx}
      {err : Option CString} (hloop : w.loop = .running item cancelled ctxs)
      (herr : ¬ (cancelled ∧ err.isNone)) :
      LoopStep w (.runReturn err)
        { w with loop := .ran item err, outcomes := w.outcomes ++ [(item, err)] }
  | postResult {item : PendingTx} {err : Option CString} (hloop : w.loop = .ran item err) :
      LoopStep w .postResult { w.post item.port (resultFrame err) with loop := .posted item }
  | clearCurrent {item : PendingTx} (hloop : w.loop = .posted item) :
      LoopStep w .clearCurrent { w with currentCancel := none, loop := .cleared item }
  | unrefCancel {item : PendingTx} (hloop : w.loop = .cleared item) :
      LoopStep w .unrefCancel
        { w with unrefCancel := w.unrefCancel ++ [item.cancel], loop := .cancelReleased item }
  | unrefTx {item : PendingTx} (hloop : w.loop = .cancelReleased item) :
      LoopStep w .unrefTx { w with unrefTx := w.unrefTx ++ [item.tx], loop := .waiting }

theorem loopStep_cases {w w' : Worker} {a : LoopAction} (h : w.loopStep a = some w') :
    w.LoopStep a w' := by
  unfold Worker.loopStep at h
  -- one bullet for each line of `loopStep`
  split at h
  · next hloop =>
    split at h
    · exact absurd h (by simp)
    · next hstop =>
      split at h
      · exact absurd h (by simp)
      · next item rest hqueue =>
        obtain rfl := Option.some_inj.mp h
        exact .dequeue hloop (by simpa using hstop) hqueue
  · next hloop =>
    split at h
    · next hstop =>
      obtain rfl := Option.some_inj.mp h
      exact .observeStop hloop hstop
    · exact absurd h (by simp)
  · next hloop =>
    obtain rfl := Option.some_inj.mp h
    exact .runBegin hloop
  · next hloop =>
    obtain rfl := Option.some_inj.mp h
    exact .newOperation hloop
  · next hloop =>
    split at h
    · exact absurd h (by simp)
    · next ctx hctx =>
      obtain rfl := Option.some_inj.mp h
      exact .changed hloop hctx
  · next hloop =>
    obtain rfl := Option.some_inj.mp h
    exact .operationDone hloop
  · next hloop =>
    split at h
    · exact absurd h (by simp)
    · next herr =>
      obtain rfl := Option.some_inj.mp h
      exact .runReturn hloop herr
  · next hloop =>
    obtain rfl := Option.some_inj.mp h
    exact .postResult hloop
  · next hloop =>
    obtain rfl := Option.some_inj.mp h
    exact .clearCurrent hloop
  · next hloop =>
    obtain rfl := Option.some_inj.mp h
    exact .unrefCancel hloop
  · next hloop =>
    obtain rfl := Option.some_inj.mp h
    exact .unrefTx hloop
  · exact absurd h (by simp)

theorem cancelCurrent_eq (w : Worker) :
    w.cancelCurrent = { w with signalled := w.signalled ++ w.currentCancel.toList } := by
  rw [Worker.cancelCurrent]
  split
  · next c hc =>
    have hlist : w.currentCancel.toList = [c] := by rw [hc, Option.toList_some]
    rw [hlist]
  · next hc =>
    have hlist : w.currentCancel.toList = [] := by rw [hc, Option.toList_none]
    rw [hlist, List.append_nil]

theorem dtorStop_cases {w w' : Worker} (h : w.dtorStop = some w') :
    w.dtor = .alive ∧ w' = { w with stop := true, dtor := .stopping } := by
  rw [Worker.dtorStop] at h
  split at h
  · next hdtor => exact ⟨hdtor, (Option.some_inj.mp h).symm⟩
  · exact absurd h (by simp)

theorem dtorJoin_cases {w w' : Worker} (h : w.dtorJoin = some w') :
    w.loop = .returned ∧ w.dtor = .stopping ∧ w' = { w with dtor := .returned } := by
  rw [Worker.dtorJoin] at h
  split at h
  · next hloop =>
    split at h
    · next hdtor => exact ⟨hloop, hdtor, (Option.some_inj.mp h).symm⟩
    · exact absurd h (by simp)
  · exact absurd h (by simp)

/-! ### What the thread holds -/

/-- The item the thread works on. -/
def Loop.inHand : Loop → List PendingTx
  | .popped item | .running item _ _ | .ran item _ | .posted item | .cleared item
  | .cancelReleased item => [item]
  | _ => []

/-- Cancellables the thread has a reference to. -/
def Loop.holdsCancel : Loop → List ℕ
  | .popped item | .running item _ _ | .ran item _ | .posted item | .cleared item => [item.cancel]
  | _ => []

/-- The cancellable `current_cancel_` points at. -/
def Loop.current : Loop → Option ℕ
  | .popped item | .running item _ _ | .ran item _ | .posted item => some item.cancel
  | _ => none

/-- The transaction in hand, once its terminal frame is posted. -/
def Loop.answered : Loop → List ℕ
  | .posted item | .cleared item | .cancelReleased item => [item.tx]
  | _ => []

/-- The transaction in hand, until its terminal frame is posted. -/
def Loop.unanswered : Loop → List ℕ
  | .popped item | .running item _ _ | .ran item _ => [item.tx]
  | _ => []

/-- The progress contexts of the run in progress post on its port. -/
def Loop.CtxsOnPort : Loop → Prop
  | .running item _ ctxs => ∀ ctx ∈ ctxs, ctx.port = item.port
  | _ => True

theorem Loop.inHand_map_tx (l : Loop) : l.inHand.map PendingTx.tx = l.answered ++ l.unanswered := by
  cases l <;> rfl

/-- What `current_cancel_` points at, the thread has a reference to. -/
theorem Loop.current_held {l : Loop} {c : ℕ} (h : l.current = some c) :
    c ∈ l.inHand.map PendingTx.cancel ∧ c ∈ l.holdsCancel := by
  cases l <;> simp_all [Loop.current, Loop.inHand, Loop.holdsCancel]

/-- A cancellable the thread holds is of the item in hand. -/
theorem Loop.holdsCancel_inHand {l : Loop} {c : ℕ} (h : c ∈ l.holdsCancel) :
    ∃ item ∈ l.inHand, item.cancel = c := by
  cases l <;> simp_all [Loop.holdsCancel, Loop.inHand]

/-- Transactions whose terminal frame the thread has posted. -/
def Worker.answered (w : Worker) : List ℕ := w.unrefTx ++ w.loop.answered

/-- The queue as a first-in first-out server, which serves by popping. -/
def Worker.ledger (w : Worker) : FifoServer.Ledger PendingTx where
  accepted := w.enqueued
  served := w.dequeued
  waiting := w.queue

/-- The item of the `k`-th handle. -/
def PendingTx.of (k : ℕ) : PendingTx := ⟨k, k, k⟩

/-- The invariant of every reachable worker. -/
structure Worker.Inv (w : Worker) : Prop where
  items : ∀ x ∈ w.enqueued, x = .of x.tx
  distinct : (w.enqueued.map PendingTx.tx).Nodup
  balanced : w.ledger.Balanced
  inHand : ∀ x ∈ w.loop.inHand, x ∈ w.dequeued
  txRefs : w.dequeued.map PendingTx.tx = w.unrefTx ++ w.loop.inHand.map PendingTx.tx
  cancelRefs : w.dequeued.map PendingTx.cancel = w.unrefCancel ++ w.loop.holdsCancel
  current : w.currentCancel = w.loop.current
  ctxs : w.loop.CtxsOnPort
  signalled : ∀ c ∈ w.signalled, c ∈ w.dequeued.map PendingTx.cancel
  outcomes : ∀ o ∈ w.outcomes, o.1 ∈ w.dequeued
  stopping : w.stop = true ↔ w.dtor ≠ .alive
  sawStop : w.loop = .returned → w.stop = true
  joined : w.dtor = .returned → w.loop = .returned

theorem init_inv : Worker.init.Inv where
  items := fun x hx => absurd hx (by simp [Worker.init])
  distinct := List.nodup_nil
  balanced := rfl
  inHand := fun x hx => absurd hx (by simp [Worker.init, Loop.inHand])
  txRefs := rfl
  cancelRefs := rfl
  current := rfl
  ctxs := trivial
  signalled := fun c hc => absurd hc (by simp [Worker.init])
  outcomes := fun o ho => absurd ho (by simp [Worker.init])
  stopping := by simp [Worker.init]
  sawStop := fun h => absurd h (by simp [Worker.init])
  joined := fun h => absurd h (by simp [Worker.init])

namespace Worker

variable {w w' : Worker}

/-! ### The thread keeps the invariant -/

/-- The thread moves on with the same item and the same references. -/
theorem Inv.move (hw : w.Inv) {l : Loop} (hhand : l.inHand = w.loop.inHand)
    (hcancel : l.holdsCancel = w.loop.holdsCancel) (hcurrent : l.current = w.loop.current)
    (hctxs : l.CtxsOnPort) (hl : l ≠ .returned) (hloop : w.loop ≠ .returned) :
    ({ w with loop := l } : Worker).Inv :=
  { hw with
    inHand := by simpa only [hhand] using hw.inHand
    txRefs := by simpa only [hhand] using hw.txRefs
    cancelRefs := by simpa only [hcancel] using hw.cancelRefs
    current := by simpa only [hcurrent] using hw.current
    ctxs := hctxs
    sawStop := fun h => absurd h hl
    joined := fun h => absurd (hw.joined h) hloop }

theorem dequeue_inv (hw : w.Inv) {item : PendingTx} {rest : List PendingTx}
    (hloop : w.loop = .waiting) (hqueue : w.queue = item :: rest) :
    ({ w with
      queue := rest
      currentCancel := some item.cancel
      loop := .popped item
      dequeued := w.dequeued ++ [item] } : Worker).Inv := by
  have hserve : w.ledger.step .serve = some ⟨w.enqueued, w.dequeued ++ [item], rest⟩ :=
    FifoServer.Ledger.step_serve hqueue
  exact { hw with
    balanced := FifoServer.Ledger.step_balanced hserve hw.balanced
    inHand := fun x hx => List.mem_append_right _ hx
    txRefs := by simp [hw.txRefs, hloop, Loop.inHand]
    cancelRefs := by simp [hw.cancelRefs, hloop, Loop.holdsCancel]
    current := rfl
    ctxs := trivial
    signalled := fun c hc => by
      rw [List.map_append]
      exact List.mem_append_left _ (hw.signalled c hc)
    outcomes := fun o ho => List.mem_append_left _ (hw.outcomes o ho)
    sawStop := fun h => absurd h (by simp)
    joined := fun h => absurd (hw.joined h) (by simp [hloop]) }

theorem loopStep_inv {a : LoopAction} (hw : w.Inv) (h : w.loopStep a = some w') : w'.Inv := by
  cases loopStep_cases h with
  | dequeue hloop hstop hqueue => exact dequeue_inv hw hloop hqueue
  | observeStop hloop hstop =>
    exact { hw with
      inHand := fun x hx => absurd hx (by simp [Loop.inHand])
      txRefs := by simp [hw.txRefs, hloop, Loop.inHand]
      cancelRefs := by simp [hw.cancelRefs, hloop, Loop.holdsCancel]
      current := by simp [hw.current, hloop, Loop.current]
      ctxs := trivial
      sawStop := fun _ => hstop
      joined := fun _ => rfl }
  | @runBegin item hloop =>
    exact { hw.move (l := .running item (decide (item.cancel ∈ w.signalled)) [])
      (by rw [hloop]; rfl) (by rw [hloop]; rfl) (by rw [hloop]; rfl)
      (fun ctx hctx => absurd hctx (by simp)) (by simp) (by simp [hloop]) with }
  | @newOperation item cancelled ctxs type ref hloop =>
    -- the new context posts where the earlier ones do
    have hports : ∀ ctx ∈ ctxs, ctx.port = item.port := by
      simpa [hloop, Loop.CtxsOnPort] using hw.ctxs
    have hctxs : (Loop.running item cancelled
        (ctxs ++ [⟨item.port, safeStr ref, opKindStr type⟩])).CtxsOnPort := by
      intro ctx hctx
      rcases List.mem_append.mp hctx with hctx | hctx
      · exact hports ctx hctx
      · rw [List.mem_singleton.mp hctx]
    exact { hw.move (by rw [hloop]; rfl) (by rw [hloop]; rfl) (by rw [hloop]; rfl) hctxs
      (by simp) (by simp [hloop]) with }
  | changed hloop hctx => exact { hw with }
  | operationDone hloop => exact { hw with }
  | @runReturn item cancelled ctxs err hloop herr =>
    -- what comes to an outcome was popped
    have hitem : item ∈ w.dequeued := hw.inHand item (by simp [hloop, Loop.inHand])
    refine { hw.move (l := .ran item err) (by rw [hloop]; rfl) (by rw [hloop]; rfl)
      (by rw [hloop]; rfl) trivial (by simp) (by simp [hloop]) with outcomes := fun o ho => ?_ }
    rcases List.mem_append.mp ho with ho | ho
    · exact hw.outcomes o ho
    · rw [List.mem_singleton.mp ho]
      exact hitem
  | @postResult item err hloop =>
    exact { hw.move (l := .posted item) (by rw [hloop]; rfl) (by rw [hloop]; rfl)
      (by rw [hloop]; rfl) trivial (by simp) (by simp [hloop]) with }
  | clearCurrent hloop =>
    exact { hw with
      inHand := by simpa [hloop, Loop.inHand] using hw.inHand
      txRefs := by simp [hw.txRefs, hloop, Loop.inHand]
      cancelRefs := by simp [hw.cancelRefs, hloop, Loop.holdsCancel]
      current := rfl
      ctxs := trivial
      sawStop := fun h => absurd h (by simp)
      joined := fun h => absurd (hw.joined h) (by simp [hloop]) }
  | unrefCancel hloop =>
    exact { hw with
      inHand := by simpa [hloop, Loop.inHand] using hw.inHand
      txRefs := by simp [hw.txRefs, hloop, Loop.inHand]
      cancelRefs := by simp [hw.cancelRefs, hloop, Loop.holdsCancel]
      current := by simp [hw.current, hloop, Loop.current]
      ctxs := trivial
      sawStop := fun h => absurd h (by simp)
      joined := fun h => absurd (hw.joined h) (by simp [hloop]) }
  | unrefTx hloop =>
    exact { hw with
      inHand := fun x hx => absurd hx (by simp [Loop.inHand])
      txRefs := by simp [hw.txRefs, hloop, Loop.inHand]
      cancelRefs := by simp [hw.cancelRefs, hloop, Loop.holdsCancel]
      current := by simp [hw.current, hloop, Loop.current]
      ctxs := trivial
      sawStop := fun h => absurd h (by simp)
      joined := fun h => absurd (hw.joined h) (by simp [hloop]) }

/-! ### The C ABI keeps the invariant -/

theorem enqueue_inv (hw : w.Inv) {k : ℕ} (hk : k ∉ w.enqueued.map PendingTx.tx) :
    (w.enqueue (.of k)).Inv := by
  have haccept := FifoServer.Ledger.step_accept w.ledger (.of k)
  exact { hw with
    items := fun x hx => by
      rcases List.mem_append.mp hx with hx | hx
      · exact hw.items x hx
      · rw [List.mem_singleton.mp hx]
        rfl
    distinct := by
      rw [Worker.enqueue, List.map_append]
      -- a handle is submitted once, so its number is new
      refine List.Nodup.append hw.distinct (List.nodup_singleton _) fun t ht ht' => hk ?_
      rwa [List.mem_singleton.mp ht'] at ht
    balanced := FifoServer.Ledger.step_balanced haccept hw.balanced }

theorem cancelCurrent_inv (hw : w.Inv) : w.cancelCurrent.Inv := by
  rw [cancelCurrent_eq]
  refine { hw with signalled := fun c hc => ?_ }
  rcases List.mem_append.mp hc with hc | hc
  · exact hw.signalled c hc
  · rw [Option.mem_toList, hw.current] at hc
    -- the signal goes to the item in hand, which was popped
    obtain ⟨x, hx, rfl⟩ := List.mem_map.mp (Loop.current_held hc).1
    exact List.mem_map_of_mem (hw.inHand x hx)

theorem flatpakTxCreate_inv (hw : w.Inv) (port : ℕ) (answer : Answer) :
    (w.flatpakTxCreate port answer).Inv := by
  cases answer <;> exact { hw with }

theorem txAdd_inv (hw : w.Inv) (op : AddOp) (fallback : CString) (h : TxHandle)
    (answer : Answer) : (w.txAdd op fallback h answer).Inv := by
  rw [Worker.txAdd]
  split
  · exact hw
  · cases answer <;> exact { hw with }

theorem add_inv (hw : w.Inv) (h : TxHandle) (op : AddOp) (answer : Answer) :
    (w.add h op answer).Inv := by
  cases op <;> exact txAdd_inv hw _ _ h answer

theorem dtorStop_inv (hw : w.Inv) (h : w.dtorStop = some w') : w'.Inv := by
  obtain ⟨-, rfl⟩ := dtorStop_cases h
  exact { hw with
    stopping := by simp
    sawStop := fun _ => rfl
    joined := fun h => absurd h (by simp) }

theorem dtorJoin_inv (hw : w.Inv) (h : w.dtorJoin = some w') : w'.Inv := by
  obtain ⟨hloop, hdtor, rfl⟩ := dtorJoin_cases h
  have hstop : w.stop = true := hw.stopping.mpr (by simp [hdtor])
  exact { hw with
    stopping := by simp [hstop]
    joined := fun _ => hloop }

/-! ### What follows -/

theorem Inv.enqueued_eq (hw : w.Inv) : w.enqueued = w.dequeued ++ w.queue := hw.balanced

theorem Inv.dequeued_subset (hw : w.Inv) {x : PendingTx} (h : x ∈ w.dequeued) :
    x ∈ w.enqueued := by
  rw [hw.enqueued_eq]
  exact List.mem_append_left _ h

theorem Inv.dequeued_of (hw : w.Inv) {x : PendingTx} (h : x ∈ w.dequeued) : x = .of x.tx :=
  hw.items x (hw.dequeued_subset h)

/-- Where each transaction stands: answered, in hand, or queued. -/
theorem Inv.places (hw : w.Inv) :
    w.enqueued.map PendingTx.tx
      = w.answered ++ (w.loop.unanswered ++ w.queue.map PendingTx.tx) := by
  rw [hw.enqueued_eq, List.map_append, hw.txRefs, Loop.inHand_map_tx, Worker.answered]
  simp only [List.append_assoc]

/-- An answered transaction is neither queued nor run. -/
theorem Inv.answered_not_pending (hw : w.Inv) {k : ℕ} (h : k ∈ w.answered) :
    k ∉ w.loop.unanswered ∧ k ∉ w.queue.map PendingTx.tx := by
  have hdistinct := hw.distinct
  rw [hw.places] at hdistinct
  have hdisjoint := List.disjoint_of_nodup_append hdistinct
  exact ⟨fun hk => hdisjoint h (List.mem_append_left _ hk),
    fun hk => hdisjoint h (List.mem_append_right _ hk)⟩

/-- Cancellables are dequeued as their transactions are. -/
theorem Inv.dequeued_cancel (hw : w.Inv) :
    w.dequeued.map PendingTx.cancel = w.dequeued.map PendingTx.tx := by
  refine List.map_congr_left fun x hx => ?_
  rw [hw.dequeued_of hx]
  rfl

theorem Inv.dequeued_nodup (hw : w.Inv) : (w.dequeued.map PendingTx.tx).Nodup := by
  have hall := hw.distinct
  rw [hw.enqueued_eq, List.map_append] at hall
  exact hall.of_append_left

theorem Inv.dequeued_cancel_nodup (hw : w.Inv) : (w.dequeued.map PendingTx.cancel).Nodup := by
  rw [hw.dequeued_cancel]
  exact hw.dequeued_nodup

/-- What the thread took and is done with, it has released once. -/
theorem Inv.released_once (hw : w.Inv) {item : PendingTx} (hitem : item ∈ w.dequeued)
    (hdone : item ∉ w.loop.inHand) :
    w.unrefTx.count item.tx = 1 ∧ w.unrefCancel.count item.cancel = 1 := by
  have hown : item = .of item.tx := hw.dequeued_of hitem
  -- an object in hand is one of an item in hand
  have hhand : ∀ x ∈ w.loop.inHand, x.tx ≠ item.tx := by
    intro x hx htx
    rw [hown, ← htx, ← hw.dequeued_of (hw.inHand x hx)] at hdone
    exact hdone hx
  have htx : item.tx ∈ w.unrefTx := by
    have hmem : item.tx ∈ w.dequeued.map PendingTx.tx := List.mem_map_of_mem hitem
    rw [hw.txRefs] at hmem
    refine (List.mem_append.mp hmem).resolve_right fun h => ?_
    obtain ⟨x, hx, heq⟩ := List.mem_map.mp h
    exact hhand x hx heq
  have hcancel : item.cancel ∈ w.unrefCancel := by
    have hmem : item.cancel ∈ w.dequeued.map PendingTx.cancel := List.mem_map_of_mem hitem
    rw [hw.cancelRefs] at hmem
    refine (List.mem_append.mp hmem).resolve_right fun h => ?_
    obtain ⟨x, hx, heq⟩ := Loop.holdsCancel_inHand h
    have hsame : x.cancel = x.tx := by
      rw [hw.dequeued_of (hw.inHand x hx)]
      rfl
    refine hhand x hx ?_
    rw [← hsame, heq, hown]
    rfl
  have htxs := hw.dequeued_nodup
  have hcancels := hw.dequeued_cancel_nodup
  rw [hw.txRefs] at htxs
  rw [hw.cancelRefs] at hcancels
  exact ⟨List.count_eq_one_of_mem htxs.of_append_left htx,
    List.count_eq_one_of_mem hcancels.of_append_left hcancel⟩

/-- When the thread is gone, it has released what it took. -/
theorem Inv.returned_released (hw : w.Inv) (h : w.loop = .returned) :
    w.unrefTx = w.dequeued.map PendingTx.tx ∧ w.unrefCancel = w.dequeued.map PendingTx.tx := by
  constructor
  · simp [hw.txRefs, h, Loop.inHand]
  · rw [← hw.dequeued_cancel]
    simp [hw.cancelRefs, h, Loop.holdsCancel]

end Worker

end TransactionWorker
