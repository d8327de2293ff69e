/-
The child reaper (`native/src/child_reaper.cpp`, `native/include/child_reaper.h`).

Any number of threads call `add`, loop threads and detached waiters run, children
end, and the destructor is called once no `add` is in progress.  What happens under
`mu_` is one step; `thread_mu_` is held over a join, so taking it, the join and
the release are steps of their own, as is every system call.  A child is named by
the `add` call that handed it over, and so is its pidfd.

`step_cases` says once what each step can do; the accounts of children and pidfds
are in `ReaperAccounts`, who will look at `pending_` is in `ReaperLoop`.
-/
import FlatpakDart.Machine
import Mathlib.Logic.Function.Basic

open Machine

namespace ChildReaper

/-! ### The state -/

/-- Where `loop` is: about to call `take_pending`, in `poll`, in `reap_signalled`
(about to look at child `i`, or to close its pidfd after `waitpid` has told its
status or that it runs on), after a `poll` that failed, before and after it has
cleared `running_`, or waiting for what is left after `take_pending` said to stop. -/
inductive LoopPhase
  | unborn
  | top
  | polling
  | reaping (revents : List Bool) (i kept : ℕ)
  | reaped (revents : List Bool) (i kept : ℕ)
  | orphaned (revents : List Bool) (i kept : ℕ)
  | failing
  | cleared
  | draining (i : ℕ)
  | waited (i : ℕ)
  | returned
  deriving DecidableEq

/-- A loop thread and its `watched` vector. -/
structure Loop where
  watched : List ℕ
  phase : LoopPhase
  deriving DecidableEq

/-- A detached thread that waits for children, and closes their pidfds if it was
given these. -/
structure Waiter where
  todo : List ℕ
  closes : Bool
  waited : Bool
  deriving DecidableEq

/-- Where an `add` call is: the pidfd opened, then on its way to start the loop
(about to lock `thread_mu_`, to join, to construct the thread, to store it in
`thread_`), or about to call `wake`. -/
inductive AddPhase
  | idle
  | opened
  | starting
  | joining
  | spawning
  | assigning (l : ℕ)
  | waking
  | returned
  deriving DecidableEq

inductive DtorPhase
  | alive
  | stopped
  | joining
  | joined
  | waiting
  | waited
  | returned
  deriving DecidableEq

/-- Who has locked `thread_mu_`. -/
inductive Owner
  | add (k : ℕ)
  | dtor
  deriving DecidableEq

/-- The reaper, its threads, and the children that have ended, on which `waitpid`
does not block any more.  The last five lists are not in the source: the children
that were taken over, those given to a blocking waiter, the pidfds opened and
closed, and the children that are done with. -/
structure State where
  wakePipe : Bool
  pending : List ℕ
  running : Bool
  stopping : Bool
  threadMu : Option Owner
  thread : Option ℕ
  loops : ℕ → Loop
  started : ℕ
  waiters : ℕ → Waiter
  detached : ℕ
  adds : ℕ → AddPhase
  adding : List ℕ
  dtor : DtorPhase
  leftover : List ℕ
  exited : List ℕ
  added : List ℕ
  handed : List ℕ
  opened : List ℕ
  closed : List ℕ
  finished : List ℕ

/-- A new reaper; `pipe2` may have failed. -/
def init (wakePipe : Bool) : State where
  wakePipe := wakePipe
  pending := []
  running := false
  stopping := false
  threadMu := none
  thread := none
  loops := fun _ => ⟨[], .unborn⟩
  started := 0
  waiters := fun _ => ⟨[], false, false⟩
  detached := 0
  adds := fun _ => .idle
  adding := []
  dtor := .alive
  leftover := []
  exited := []
  added := []
  handed := []
  opened := []
  closed := []
  finished := []

namespace State

/-- The wake pipe comes first in `fds`, if there is one. -/
def offset (s : State) : ℕ := if s.wakePipe then 1 else 0

def setAdd (s : State) (k : ℕ) (phase : AddPhase) : State :=
  { s with adds := Function.update s.adds k phase }

def setLoop (s : State) (l : ℕ) (x : Loop) : State :=
  { s with loops := Function.update s.loops l x }

def setWaiter (s : State) (w : ℕ) (x : Waiter) : State :=
  { s with waiters := Function.update s.waiters w x }

@[simp] theorem setAdd_self (s : State) (k : ℕ) (phase : AddPhase) :
    (s.setAdd k phase).adds k = phase := Function.update_self ..

theorem setAdd_ne (s : State) {j k : ℕ} (phase : AddPhase) (h : j ≠ k) :
    (s.setAdd k phase).adds j = s.adds j := Function.update_of_ne h ..

@[simp] theorem setLoop_self (s : State) (l : ℕ) (x : Loop) : (s.setLoop l x).loops l = x :=
  Function.update_self ..

theorem setLoop_ne (s : State) {l m : ℕ} (x : Loop) (h : m ≠ l) :
    (s.setLoop l x).loops m = s.loops m := Function.update_of_ne h ..

@[simp] theorem setWaiter_self (s : State) (w : ℕ) (x : Waiter) :
    (s.setWaiter w x).waiters w = x := Function.update_self ..

theorem setWaiter_ne (s : State) {v w : ℕ} (x : Waiter) (h : v ≠ w) :
    (s.setWaiter w x).waiters v = s.waiters v := Function.update_of_ne h ..

/-- `std::thread(...).detach()` of a thread that waits for these children. -/
def detach (s : State) (todo : List ℕ) (closes : Bool) : State :=
  { s with
    waiters := Function.update s.waiters s.detached ⟨todo, closes, false⟩
    detached := s.detached + 1
    handed := todo ++ s.handed }

/-- `close(pidfd)`. -/
def close (s : State) (c : ℕ) : State := { s with closed := c :: s.closed }

/-- Nobody has anything more to do for this child. -/
def finish (s : State) (c : ℕ) : State := { s with finished := c :: s.finished }

/-- The call returns. -/
def returnAdd (s : State) (k : ℕ) : State :=
  { s with adds := Function.update s.adds k .returned, adding := s.adding.erase k }

end State

/-! ### The steps -/

inductive AddAction
  | pidfdOpen (ok : Bool)
  | enqueue
  | lockThread
  | joinThread
  | spawnLoop
  | storeThread
  | wake

/-- What `poll` returns: which descriptors have events, or an error. -/
inductive PollResult
  | ready (revents : List Bool)
  | interrupted
  | failed

inductive LoopAction
  | takePending
  | poll (r : PollResult)
  | keep
  | waitpid
  | close
  | resize
  | clearRunning
  | detach
  | drainWait
  | drainClose
  | return

inductive WaiterAction
  | wait
  | close

inductive DtorAction
  | stop
  | lockThread
  | joinThread
  | takeLeftover
  | wait
  | close
  | return

inductive Action
  | add (k : ℕ) (a : AddAction)
  | loop (l : ℕ) (a : LoopAction)
  | waiter (w : ℕ) (a : WaiterAction)
  | dtor (a : DtorAction)
  | exit (c : ℕ)

/-- `thread_.join()`, if it is joinable. -/
def State.join (s : State) : Option State :=
  match s.thread with
  | none => some s
  | some l => if (s.loops l).phase = .returned then some { s with thread := none } else none

/-- `add`. -/
def State.addStep (s : State) (k : ℕ) : AddAction → Option State
  | .pidfdOpen ok =>
    if s.adds k = .idle ∧ s.dtor = .alive then
      if ok then some { s.setAdd k .opened with adding := k :: s.adding, opened := k :: s.opened }
      else some { (s.detach [k] false).setAdd k .returned with added := k :: s.added }
    else none
  | .enqueue =>
    if s.adds k = .opened then
      if s.stopping then some { (s.detach [k] true).returnAdd k with added := k :: s.added }
      else some { s.setAdd k (if s.running then .waking else .starting) with
        pending := s.pending ++ [k]
        running := true
        added := k :: s.added }
    else none
  | .lockThread =>
    if s.adds k = .starting ∧ s.threadMu = none then
      some { s.setAdd k .joining with threadMu := some (.add k) }
    else none
  | .joinThread => if s.adds k = .joining then s.join.map (·.setAdd k .spawning) else none
  | .spawnLoop =>
    if s.adds k = .spawning then
      some { (s.setLoop s.started ⟨[], .top⟩).setAdd k (.assigning s.started) with
        started := s.started + 1 }
    else none
  | .storeThread =>
    match s.adds k with
    | .assigning l => some { s.setAdd k .waking with thread := some l, threadMu := none }
    | _ => none
  | .wake => if s.adds k = .waking then some (s.returnAdd k) else none

/-- `take_pending`. -/
def State.takePending (s : State) (l : ℕ) : State :=
  let watched := (s.loops l).watched ++ s.pending
  if s.stopping ∨ watched = [] then
    { s.setLoop l ⟨watched, .draining 0⟩ with pending := [], running := false }
  else { s.setLoop l ⟨watched, .polling⟩ with pending := [] }

/-- `loop`, with `reap_signalled` one child after the other. -/
def State.loopStep (s : State) (l : ℕ) : LoopAction → Option State
  | .takePending => if (s.loops l).phase = .top then some (s.takePending l) else none
  | .poll r =>
    if (s.loops l).phase = .polling then
      match r with
      | .ready revents =>
        if revents.length = (s.loops l).watched.length + s.offset then
          some (s.setLoop l { s.loops l with phase := .reaping revents 0 0 })
        else none
      | .interrupted => some (s.setLoop l { s.loops l with phase := .top })
      | .failed => some (s.setLoop l { s.loops l with phase := .failing })
    else none
  | .keep =>
    match (s.loops l).phase with
    | .reaping revents i kept =>
      match (s.loops l).watched[i]?, revents[i + s.offset]? with
      | some c, some false =>
        some (s.setLoop l
          ⟨(s.loops l).watched.set kept c, .reaping revents (i + 1) (kept + 1)⟩)
      | _, _ => none
    | _ => none
  | .waitpid =>
    match (s.loops l).phase with
    | .reaping revents i kept =>
      match (s.loops l).watched[i]?, revents[i + s.offset]? with
      | some c, some true =>
        if c ∈ s.exited then some (s.setLoop l { s.loops l with phase := .reaped revents i kept })
        -- readable but not reapable
        else some ((s.detach [c] false).setLoop l
          { s.loops l with phase := .orphaned revents i kept })
      | _, _ => none
    | _ => none
  | .close =>
    match (s.loops l).phase with
    | .reaped revents i kept =>
      (s.loops l).watched[i]?.map fun c =>
        ((s.close c).finish c).setLoop l { s.loops l with phase := .reaping revents (i + 1) kept }
    | .orphaned revents i kept =>
      (s.loops l).watched[i]?.map fun c =>
        (s.close c).setLoop l { s.loops l with phase := .reaping revents (i + 1) kept }
    | _ => none
  | .resize =>
    match (s.loops l).phase with
    | .reaping _ i kept =>
      if i = (s.loops l).watched.length then
        some (s.setLoop l ⟨(s.loops l).watched.take kept, .top⟩)
      else none
    | _ => none
  | .clearRunning =>
    if (s.loops l).phase = .failing then
      some { s.setLoop l { s.loops l with phase := .cleared } with running := false }
    else none
  | .detach =>
    if (s.loops l).phase = .cleared then
      some ((s.detach (s.loops l).watched true).setLoop l ⟨[], .returned⟩)
    else none
  | .drainWait =>
    match (s.loops l).phase with
    | .draining i =>
      match (s.loops l).watched[i]? with
      | some c =>
        if c ∈ s.exited then some (s.setLoop l { s.loops l with phase := .waited i }) else none
      | none => none
    | _ => none
  | .drainClose =>
    match (s.loops l).phase with
    | .waited i =>
      (s.loops l).watched[i]?.map fun c =>
        ((s.close c).finish c).setLoop l { s.loops l with phase := .draining (i + 1) }
    | _ => none
  | .return =>
    match (s.loops l).phase with
    | .draining i =>
      if i = (s.loops l).watched.length then some (s.setLoop l ⟨[], .returned⟩) else none
    | _ => none

/-- A detached thread: `wait_for(pid)`, then `close(pidfd)`. -/
def State.waiterStep (s : State) (w : ℕ) : WaiterAction → Option State
  | .wait =>
    match s.waiters w with
    | ⟨c :: rest, closes, false⟩ =>
      if c ∈ s.exited then
        if closes then some (s.setWaiter w ⟨c :: rest, true, true⟩)
        else some ((s.finish c).setWaiter w ⟨rest, false, false⟩)
      else none
    | _ => none
  | .close =>
    match s.waiters w with
    | ⟨c :: rest, true, true⟩ => some (((s.close c).finish c).setWaiter w ⟨rest, true, false⟩)
    | _ => none

/-- `~ChildReaper`, called when no `add` is in progress. -/
def State.dtorStep (s : State) : DtorAction → Option State
  | .stop =>
    if s.dtor = .alive ∧ s.adding = [] then some { s with stopping := true, dtor := .stopped }
    else none
  | .lockThread =>
    if s.dtor = .stopped ∧ s.threadMu = none then
      some { s with threadMu := some .dtor, dtor := .joining }
    else none
  | .joinThread =>
    if s.dtor = .joining then s.join.map fun t => { t with threadMu := none, dtor := .joined }
    else none
  | .takeLeftover =>
    if s.dtor = .joined then
      some { s with
        leftover := s.pending, pending := [], handed := s.pending ++ s.handed, dtor := .waiting }
    else none
  | .wait =>
    match s.dtor, s.leftover with
    | .waiting, c :: _ => if c ∈ s.exited then some { s with dtor := .waited } else none
    | _, _ => none
  | .close =>
    match s.dtor, s.leftover with
    | .waited, c :: rest =>
      some { (s.close c).finish c with leftover := rest, dtor := .waiting }
    | _, _ => none
  | .return =>
    if s.dtor = .waiting ∧ s.leftover = [] then some { s with dtor := .returned } else none

def step (s : State) : Action → Option State
  | .add k a => s.addStep k a
  | .loop l a => s.loopStep l a
  | .waiter w a => s.waiterStep w a
  | .dtor a => s.dtorStep a
  | .exit c => some { s with exited := c :: s.exited }

/-! ### What a step can do -/

theorem State.join_eq_some {s t : State} (h : s.join = some t) :
    t = { s with thread := none } ∧ ∀ l, s.thread = some l → (s.loops l).phase = .returned := by
  rw [join] at h
  cases hthread : s.thread with
  | none =>
    rw [hthread] at h
    obtain rfl := Option.some_inj.mp h
    exact ⟨by rw [← hthread], nofun⟩
  | some l =>
    simp only [hthread, Option.ite_none_right_eq_some, Option.some_inj] at h
    obtain ⟨hreturned, rfl⟩ := h
    refine ⟨rfl, ?_⟩
    rintro m ⟨⟩
    exact hreturned

/-- The steps of the reaper, one constructor for each way a step can go. -/
inductive Step (s : State) : Action → State → Prop
  | pidfdOpen {k : ℕ} (hk : s.adds k = .idle) :
      Step s (.add k (.pidfdOpen true))
        { s.setAdd k .opened with adding := k :: s.adding, opened := k :: s.opened }
  | noPidfd {k : ℕ} (hk : s.adds k = .idle) :
      Step s (.add k (.pidfdOpen false))
        { (s.detach [k] false).setAdd k .returned with added := k :: s.added }
  | enqueueStopping {k : ℕ} (hk : s.adds k = .opened) (hstop : s.stopping = true) :
      Step s (.add k .enqueue) { (s.detach [k] true).returnAdd k with added := k :: s.added }
  | enqueue {k : ℕ} (hk : s.adds k = .opened) (hstop : s.stopping = false) :
      Step s (.add k .enqueue) { s.setAdd k (if s.running then .waking else .starting) with
        pending := s.pending ++ [k]
        running := true
        added := k :: s.added }
  | lockThread {k : ℕ} (hk : s.adds k = .starting) (hmu : s.threadMu = none) :
      Step s (.add k .lockThread) { s.setAdd k .joining with threadMu := some (.add k) }
  | joinThread {k : ℕ} (hk : s.adds k = .joining)
      (hjoin : ∀ l, s.thread = some l → (s.loops l).phase = .returned) :
      Step s (.add k .joinThread) ({ s with thread := none }.setAdd k .spawning)
  | spawnLoop {k : ℕ} (hk : s.adds k = .spawning) :
      Step s (.add k .spawnLoop)
        { (s.setLoop s.started ⟨[], .top⟩).setAdd k (.assigning s.started) with
          started := s.started + 1 }
  | storeThread {k l : ℕ} (hk : s.adds k = .assigning l) :
      Step s (.add k .storeThread) { s.setAdd k .waking with thread := some l, threadMu := none }
  | wake {k : ℕ} (hk : s.adds k = .waking) : Step s (.add k .wake) (s.returnAdd k)
  | takeEnd {l : ℕ} (hl : (s.loops l).phase = .top) :
      Step s (.loop l .takePending)
        { s.setLoop l ⟨(s.loops l).watched ++ s.pending, .draining 0⟩ with
          pending := [], running := false }
  | takePending {l : ℕ} (hl : (s.loops l).phase = .top) :
      Step s (.loop l .takePending)
        { s.setLoop l ⟨(s.loops l).watched ++ s.pending, .polling⟩ with pending := [] }
  | ready {l : ℕ} {revents : List Bool} (hl : (s.loops l).phase = .polling)
      (hlength : revents.length = (s.loops l).watched.length + s.offset) :
      Step s (.loop l (.poll (.ready revents)))
        (s.setLoop l { s.loops l with phase := .reaping revents 0 0 })
  | interrupted {l : ℕ} (hl : (s.loops l).phase = .polling) :
      Step s (.loop l (.poll .interrupted)) (s.setLoop l { s.loops l with phase := .top })
  | pollFailed {l : ℕ} (hl : (s.loops l).phase = .polling) :
      Step s (.loop l (.poll .failed)) (s.setLoop l { s.loops l with phase := .failing })
  | keep {l : ℕ} {revents : List Bool} {i kept c : ℕ}
      (hl : (s.loops l).phase = .reaping revents i kept) (hc : (s.loops l).watched[i]? = some c) :
      Step s (.loop l .keep) (s.setLoop l
        ⟨(s.loops l).watched.set kept c, .reaping revents (i + 1) (kept + 1)⟩)
  | reap {l : ℕ} {revents : List Bool} {i kept c : ℕ}
      (hl : (s.loops l).phase = .reaping revents i kept) (hc : (s.loops l).watched[i]? = some c) :
      Step s (.loop l .waitpid) (s.setLoop l { s.loops l with phase := .reaped revents i kept })
  | orphan {l : ℕ} {revents : List Bool} {i kept c : ℕ}
      (hl : (s.loops l).phase = .reaping revents i kept) (hc : (s.loops l).watched[i]? = some c) :
      Step s (.loop l .waitpid) ((s.detach [c] false).setLoop l
        { s.loops l with phase := .orphaned revents i kept })
  | closeReaped {l : ℕ} {revents : List Bool} {i kept c : ℕ}
      (hl : (s.loops l).phase = .reaped revents i kept) (hc : (s.loops l).watched[i]? = some c) :
      Step s (.loop l .close) (((s.close c).finish c).setLoop l
        { s.loops l with phase := .reaping revents (i + 1) kept })
  | closeOrphan {l : ℕ} {revents : List Bool} {i kept c : ℕ}
      (hl : (s.loops l).phase = .orphaned revents i kept) (hc : (s.loops l).watched[i]? = some c) :
      Step s (.loop l .close) ((s.close c).setLoop l
        { s.loops l with phase := .reaping revents (i + 1) kept })
  | resize {l : ℕ} {revents : List Bool} {i kept : ℕ}
      (hl : (s.loops l).phase = .reaping revents i kept) (hi : i = (s.loops l).watched.length) :
      Step s (.loop l .resize) (s.setLoop l ⟨(s.loops l).watched.take kept, .top⟩)
  | clearRunning {l : ℕ} (hl : (s.loops l).phase = .failing) :
      Step s (.loop l .clearRunning)
        { s.setLoop l { s.loops l with phase := .cleared } with running := false }
  | detach {l : ℕ} (hl : (s.loops l).phase = .cleared) :
      Step s (.loop l .detach)
        ((s.detach (s.loops l).watched true).setLoop l ⟨[], .returned⟩)
  | drainWait {l i c : ℕ} (hl : (s.loops l).phase = .draining i)
      (hc : (s.loops l).watched[i]? = some c) :
      Step s (.loop l .drainWait) (s.setLoop l { s.loops l with phase := .waited i })
  | drainClose {l i c : ℕ} (hl : (s.loops l).phase = .waited i)
      (hc : (s.loops l).watched[i]? = some c) :
      Step s (.loop l .drainClose)
        (((s.close c).finish c).setLoop l { s.loops l with phase := .draining (i + 1) })
  | loopReturn {l i : ℕ} (hl : (s.loops l).phase = .draining i)
      (hi : i = (s.loops l).watched.length) :
      Step s (.loop l .return) (s.setLoop l ⟨[], .returned⟩)
  | waited {w c : ℕ} {rest : List ℕ} (hw : s.waiters w = ⟨c :: rest, true, false⟩) :
      Step s (.waiter w .wait) (s.setWaiter w ⟨c :: rest, true, true⟩)
  | waiterDone {w c : ℕ} {rest : List ℕ} (hw : s.waiters w = ⟨c :: rest, false, false⟩) :
      Step s (.waiter w .wait) ((s.finish c).setWaiter w ⟨rest, false, false⟩)
  | waiterClose {w c : ℕ} {rest : List ℕ} (hw : s.waiters w = ⟨c :: rest, true, true⟩) :
      Step s (.waiter w .close) (((s.close c).finish c).setWaiter w ⟨rest, true, false⟩)
  | dtorStop (hdtor : s.dtor = .alive) (hadding : s.adding = []) :
      Step s (.dtor .stop) { s with stopping := true, dtor := .stopped }
  | dtorLock (hdtor : s.dtor = .stopped) (hmu : s.threadMu = none) :
      Step s (.dtor .lockThread) { s with threadMu := some .dtor, dtor := .joining }
  | dtorJoin (hdtor : s.dtor = .joining)
      (hjoin : ∀ l, s.thread = some l → (s.loops l).phase = .returned) :
      Step s (.dtor .joinThread) { s with thread := none, threadMu := none, dtor := .joined }
  | takeLeftover (hdtor : s.dtor = .joined) :
      Step s (.dtor .takeLeftover) { s with
        leftover := s.pending, pending := [], handed := s.pending ++ s.handed, dtor := .waiting }
  | dtorWait (hdtor : s.dtor = .waiting) : Step s (.dtor .wait) { s with dtor := .waited }
  | dtorClose {c : ℕ} {rest : List ℕ} (hdtor : s.dtor = .waited) (hleft : s.leftover = c :: rest) :
      Step s (.dtor .close) { (s.close c).finish c with leftover := rest, dtor := .waiting }
  | dtorReturn (hdtor : s.dtor = .waiting) (hleft : s.leftover = []) :
      Step s (.dtor .return) { s with dtor := .returned }
  | exit {c : ℕ} : Step s (.exit c) { s with exited := c :: s.exited }

theorem addStep_cases {s t : State} {k : ℕ} {a : AddAction} (h : s.addStep k a = some t) :
    Step s (.add k a) t := by
  cases a with
  | pidfdOpen ok =>
    obtain ⟨⟨hk, -⟩, h⟩ := Option.ite_none_right_eq_some.mp h
    cases ok with
    | true =>
      obtain rfl := Option.some_inj.mp h
      exact .pidfdOpen hk
    | false =>
      obtain rfl := Option.some_inj.mp h
      exact .noPidfd hk
  | enqueue =>
    obtain ⟨hk, h⟩ := Option.ite_none_right_eq_some.mp h
    split at h
    · next hstop =>
      obtain rfl := Option.some_inj.mp h
      exact .enqueueStopping hk hstop
    · next hstop =>
      obtain rfl := Option.some_inj.mp h
      exact .enqueue hk (Bool.eq_false_iff.mpr hstop)
  | lockThread =>
    obtain ⟨⟨hk, hmu⟩, rfl⟩ := Option.ite_none_right_eq_some.mp h |>.imp_right Option.some_inj.mp
    exact .lockThread hk hmu
  | joinThread =>
    obtain ⟨hk, h⟩ := Option.ite_none_right_eq_some.mp h
    obtain ⟨u, hu, rfl⟩ := Option.map_eq_some_iff.mp h
    obtain ⟨rfl, hjoin⟩ := State.join_eq_some hu
    exact .joinThread hk hjoin
  | spawnLoop =>
    obtain ⟨hk, rfl⟩ := Option.ite_none_right_eq_some.mp h |>.imp_right Option.some_inj.mp
    exact .spawnLoop hk
  | storeThread =>
    simp only [State.addStep] at h
    split at h
    · next hk =>
      obtain rfl := Option.some_inj.mp h
      exact .storeThread hk
    · exact absurd h (by simp)
  | wake =>
    obtain ⟨hk, rfl⟩ := Option.ite_none_right_eq_some.mp h |>.imp_right Option.some_inj.mp
    exact .wake hk

theorem reapStep_cases {s t : State} {l : ℕ} {a : LoopAction} (ha : a = .keep ∨ a = .waitpid)
    (h : s.loopStep l a = some t) : Step s (.loop l a) t := by
  rcases ha with rfl | rfl
  · simp only [State.loopStep] at h
    split at h
    · next hl =>
      split at h
      · next hc _ =>
        obtain rfl := Option.some_inj.mp h
        exact .keep hl hc
      · exact absurd h (by simp)
    · exact absurd h (by simp)
  · simp only [State.loopStep] at h
    split at h
    · next hl =>
      split at h
      · next hc _ =>
        split at h
        · obtain rfl := Option.some_inj.mp h
          exact .reap hl hc
        · obtain rfl := Option.some_inj.mp h
          exact .orphan hl hc
      · exact absurd h (by simp)
    · exact absurd h (by simp)

theorem loopStep_cases {s t : State} {l : ℕ} {a : LoopAction} (h : s.loopStep l a = some t) :
    Step s (.loop l a) t := by
  cases a with
  | takePending =>
    obtain ⟨hl, rfl⟩ := Option.ite_none_right_eq_some.mp h |>.imp_right Option.some_inj.mp
    simp only [State.takePending]
    split
    · exact .takeEnd hl
    · exact .takePending hl
  -- `poll` returns with events, is interrupted or fails
  | poll r =>
    obtain ⟨hl, h⟩ := Option.ite_none_right_eq_some.mp h
    cases r with
    | ready revents =>
      obtain ⟨hlength, rfl⟩ := Option.ite_none_right_eq_some.mp h |>.imp_right Option.some_inj.mp
      exact .ready hl hlength
    | interrupted =>
      obtain rfl := Option.some_inj.mp h
      exact .interrupted hl
    | failed =>
      obtain rfl := Option.some_inj.mp h
      exact .pollFailed hl
  | keep => exact reapStep_cases (.inl rfl) h
  | waitpid => exact reapStep_cases (.inr rfl) h
  -- a descriptor is closed behind a child that was reaped, or handed to a waiter
  | close =>
    simp only [State.loopStep] at h
    split at h
    · next hl =>
      obtain ⟨c, hc, rfl⟩ := Option.map_eq_some_iff.mp h
      exact .closeReaped hl hc
    · next hl =>
      obtain ⟨c, hc, rfl⟩ := Option.map_eq_some_iff.mp h
      exact .closeOrphan hl hc
    · exact absurd h (by simp)
  | resize =>
    simp only [State.loopStep] at h
    split at h
    · next hl =>
      obtain ⟨hi, rfl⟩ := Option.ite_none_right_eq_some.mp h |>.imp_right Option.some_inj.mp
      exact .resize hl hi
    · exact absurd h (by simp)
  | clearRunning =>
    obtain ⟨hl, rfl⟩ := Option.ite_none_right_eq_some.mp h |>.imp_right Option.some_inj.mp
    exact .clearRunning hl
  | detach =>
    obtain ⟨hl, rfl⟩ := Option.ite_none_right_eq_some.mp h |>.imp_right Option.some_inj.mp
    exact .detach hl
  | drainWait =>
    simp only [State.loopStep] at h
    split at h
    · next hl =>
      split at h
      · next hc =>
        obtain ⟨-, rfl⟩ := Option.ite_none_right_eq_some.mp h |>.imp_right Option.some_inj.mp
        exact .drainWait hl hc
      · exact absurd h (by simp)
    · exact absurd h (by simp)
  | drainClose =>
    simp only [State.loopStep] at h
    split at h
    · next hl =>
      obtain ⟨c, hc, rfl⟩ := Option.map_eq_some_iff.mp h
      exact .drainClose hl hc
    · exact absurd h (by simp)
  | «return» =>
    simp only [State.loopStep] at h
    split at h
    · next hl =>
      obtain ⟨hi, rfl⟩ := Option.ite_none_right_eq_some.mp h |>.imp_right Option.some_inj.mp
      exact .loopReturn hl hi
    · exact absurd h (by simp)

theorem waiterStep_cases {s t : State} {w : ℕ} {a : WaiterAction} (h : s.waiterStep w a = some t) :
    Step s (.waiter w a) t := by
  cases a with
  | wait =>
    simp only [State.waiterStep] at h
    split at h
    · next c rest closes hw =>
      obtain ⟨-, h⟩ := Option.ite_none_right_eq_some.mp h
      cases closes with
      | true =>
        obtain rfl := Option.some_inj.mp h
        exact .waited hw
      | false =>
        obtain rfl := Option.some_inj.mp h
        exact .waiterDone hw
    · exact absurd h (by simp)
  | close =>
    simp only [State.waiterStep] at h
    split at h
    · next hw =>
      obtain rfl := Option.some_inj.mp h
      exact .waiterClose hw
    · exact absurd h (by simp)

theorem dtorStep_cases {s t : State} {a : DtorAction} (h : s.dtorStep a = some t) :
    Step s (.dtor a) t := by
  cases a with
  | stop =>
    obtain ⟨⟨hdtor, hadding⟩, rfl⟩ :=
      Option.ite_none_right_eq_some.mp h |>.imp_right Option.some_inj.mp
    exact .dtorStop hdtor hadding
  | lockThread =>
    obtain ⟨⟨hdtor, hmu⟩, rfl⟩ :=
      Option.ite_none_right_eq_some.mp h |>.imp_right Option.some_inj.mp
    exact .dtorLock hdtor hmu
  | joinThread =>
    obtain ⟨hdtor, h⟩ := Option.ite_none_right_eq_some.mp h
    obtain ⟨u, hu, rfl⟩ := Option.map_eq_some_iff.mp h
    obtain ⟨rfl, hjoin⟩ := State.join_eq_some hu
    exact .dtorJoin hdtor hjoin
  | takeLeftover =>
    obtain ⟨hdtor, rfl⟩ := Option.ite_none_right_eq_some.mp h |>.imp_right Option.some_inj.mp
    exact .takeLeftover hdtor
  | wait =>
    simp only [State.dtorStep] at h
    split at h
    · next hdtor _ =>
      obtain ⟨-, rfl⟩ := Option.ite_none_right_eq_some.mp h |>.imp_right Option.some_inj.mp
      exact .dtorWait hdtor
    · exact absurd h (by simp)
  | close =>
    simp only [State.dtorStep] at h
    split at h
    · next hdtor hleft =>
      obtain rfl := Option.some_inj.mp h
      exact .dtorClose hdtor hleft
    · exact absurd h (by simp)
  | «return» =>
    obtain ⟨⟨hdtor, hleft⟩, rfl⟩ :=
      Option.ite_none_right_eq_some.mp h |>.imp_right Option.some_inj.mp
    exact .dtorReturn hdtor hleft

theorem step_cases {s t : State} {a : Action} (h : step s a = some t) : Step s a t := by
  cases a with
  | add k a => exact addStep_cases h
  | loop l a => exact loopStep_cases h
  | waiter w a => exact waiterStep_cases h
  | dtor a => exact dtorStep_cases h
  | exit c =>
    obtain rfl := Option.some_inj.mp h
    exact .exit

end ChildReaper
