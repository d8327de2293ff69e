/-
The launch queue of the reader (`native/src/installation_reader.cpp`,
`native/include/installation_reader.h`): one thread that runs launches in the
order they were asked for, and a destructor that cancels what still waits.

The state is the members with the launch thread and the destructor; an action is
one critical section, one frame that is posted, or a boundary of `launch_impl`.

* `abs_step` — the queue is a first-in first-out server (`FifoServer`);
* `launchQueue_contract` — each launch is answered, once and in the right order of
  frames, by the time the destructor has returned; launches are started in call
  order, one at a time, and the cancelled ones are the last;
* `framesOn_launch` — a port gets what `InstallationReader.launch` posts.
-/
import FlatpakDart.FifoServer
import FlatpakDart.ReaderOperations
import Mathlib.Data.List.Nodup

open Glz Native Libflatpak

namespace LaunchQueue

/-! ### Requests and answers -/

/-- `LaunchRequest`. -/
structure LaunchRequest where
  port : ℕ
  appId : CppString
  arch : CppString
  branch : CppString
  commit : CppString

/-- A call of `launch`, by its number. -/
structure Call where
  number : ℕ
  request : LaunchRequest

/-- What the calls inside `launch_impl` answer. -/
structure Outcome where
  installation : Installation
  launchFull : CString → CString → Option CString → Except (Option LaunchError) Instance
  reread : CString → Int32

/-- The frames that `launch_impl` posts. -/
def Outcome.frames (o : Outcome) (r : LaunchRequest) : List (List UInt8) :=
  InstallationReader.launchImpl o.installation r.appId.cStr (some r.arch.cStr)
    (some r.branch.cStr) (some r.commit.cStr) o.launchFull o.reread

theorem closedBeforeStart_fits :
    0 ∉ Text.utf8Encode "reader closed before launch started" ∧
      (Text.utf8Encode "reader closed before launch started").length < 2 ^ 63 := by
  decide +kernel

/-- The answer to a launch that the destructor finds waiting. -/
def cancelFrame : List UInt8 :=
  InstallationReader.postOpError (.lit "reader closed before launch started" closedBeforeStart_fits)

/-- What `InstallationReader.launch` says of a queued launch. -/
def Outcome.launch (o : Outcome) (cancelled : Bool) (r : LaunchRequest) : List (List UInt8) :=
  InstallationReader.launch cancelled o.installation r.appId.cStr (some r.arch.cStr)
    (some r.branch.cStr) (some r.commit.cStr) o.launchFull o.reread

theorem Outcome.launch_eq (o : Outcome) (cancelled : Bool) (r : LaunchRequest) :
    o.launch cancelled r = if cancelled then [cancelFrame] else o.frames r := rfl

/-! ### The queue -/

/-- Where the launch thread stands in `launch_loop`. -/
inductive Thread
  /-- at `launch_cv_.wait` -/
  | waiting
  /-- request popped and lock released -/
  | popped (c : Call)
  /-- inside `launch_impl`, which has posted nothing -/
  | launching (c : Call)
  /-- inside `launch_impl`, with the frames it still has to post -/
  | posting (c : Call) (frames : List (List UInt8))
  /-- backlog swapped out -/
  | draining (pending : List Call)
  | returned

/-- Where `~InstallationReader` stands. -/
inductive Dtor
  | alive
  /-- `launch_stop_` set -/
  | stopping
  /-- `appstream_queue_` stopped -/
  | joining
  | returned
  deriving DecidableEq

/-- The members of the reader that belong to the queue, and the history. -/
structure State where
  launchStop : Bool
  launchQueue : List Call
  thread : Thread
  dtor : Dtor
  /-- calls of `launch`, in order -/
  calls : List Call
  /-- launches for which `launch_impl` was called, in order -/
  started : List Call
  /-- launches answered with `cancelFrame` out of the backlog, in order -/
  cancelled : List Call
  /-- calls of `launch_impl` that have not returned -/
  inProgress : List Call
  /-- frames posted, each with the launch it answers -/
  posted : List (Call × List UInt8)

inductive Action
  | launch (r : LaunchRequest)
  | wake
  | enter
  | answer (o : Outcome)
  | post
  | leave
  | cancel
  | loopReturn
  | dtorStop
  | dtorAppstream
  | dtorJoin

/-- A reader just constructed. -/
def init : State := ⟨false, [], .waiting, .alive, [], [], [], [], []⟩

/-- `launch`. -/
def State.launch (q : State) (r : LaunchRequest) : State :=
  let c : Call := ⟨q.calls.length, r⟩
  { q with launchQueue := q.launchQueue ++ [c], calls := q.calls ++ [c] }

/-- The thread gets past `launch_cv_.wait`. -/
def State.wake (q : State) : Option State :=
  match q.thread with
  | .waiting =>
    -- looked at before the queue
    if q.launchStop then some { q with launchQueue := [], thread := .draining q.launchQueue }
    else
      match q.launchQueue with
      | [] => none
      | c :: rest => some { q with launchQueue := rest, thread := .popped c }
  | _ => none

/-- `launch_impl` returns. -/
def State.finished (q : State) (c : Call) : List Call :=
  q.inProgress.filter (·.number ≠ c.number)

/-- One atomic step; `none` where the thread it belongs to is elsewhere. -/
def step (q : State) : Action → Option State
  | .launch r =>
    match q.dtor with
    | .alive => some (q.launch r)
    -- no call overlaps the destructor
    | _ => none
  | .wake => q.wake
  | .enter =>
    match q.thread with
    | .popped c =>
      some { q with
        thread := .launching c
        started := q.started ++ [c]
        inProgress := q.inProgress ++ [c] }
    | _ => none
  | .answer o =>
    match q.thread with
    | .launching c => some { q with thread := .posting c (o.frames c.request) }
    | _ => none
  | .post =>
    match q.thread with
    | .posting c (f :: frames) =>
      some { q with thread := .posting c frames, posted := q.posted ++ [(c, f)] }
    | _ => none
  | .leave =>
    match q.thread with
    | .posting c [] => some { q with thread := .waiting, inProgress := q.finished c }
    | _ => none
  | .cancel =>
    match q.thread with
    | .draining (c :: pending) =>
      some { q with
        thread := .draining pending
        cancelled := q.cancelled ++ [c]
        posted := q.posted ++ [(c, cancelFrame)] }
    | _ => none
  | .loopReturn =>
    match q.thread with
    | .draining [] => some { q with thread := .returned }
    | _ => none
  | .dtorStop =>
    match q.dtor with
    | .alive => some { q with launchStop := true, dtor := .stopping }
    | _ => none
  | .dtorAppstream =>
    match q.dtor with
    | .stopping => some { q with dtor := .joining }
    | _ => none
  | .dtorJoin =>
    match q.dtor, q.thread with
    | .joining, .returned => some { q with dtor := .returned }
    | _, _ => none

/-- What a launch was answered so far, on the port of its request. -/
def State.frames (q : State) (c : Call) : List (List UInt8) :=
  (q.posted.filter (·.1.number = c.number)).map (·.2)

/-- What was posted on a port. -/
def State.framesOn (q : State) (port : ℕ) : List (List UInt8) :=
  (q.posted.filter (·.1.request.port = port)).map (·.2)

/-! ### The steps -/

/-- What a step does, where it is enabled. -/
inductive Steps (q : State) : Action → State → Prop
  | launch (r : LaunchRequest) (h : q.dtor = .alive) : Steps q (.launch r) (q.launch r)
  | pop {c : Call} {rest : List Call} (h : q.thread = .waiting) (hstop : q.launchStop = false)
      (hqueue : q.launchQueue = c :: rest) :
      Steps q .wake { q with launchQueue := rest, thread := .popped c }
  | drain (h : q.thread = .waiting) (hstop : q.launchStop = true) :
      Steps q .wake { q with launchQueue := [], thread := .draining q.launchQueue }
  | enter {c : Call} (h : q.thread = .popped c) :
      Steps q .enter { q with
        thread := .launching c
        started := q.started ++ [c]
        inProgress := q.inProgress ++ [c] }
  | answer {c : Call} (o : Outcome) (h : q.thread = .launching c) :
      Steps q (.answer o) { q with thread := .posting c (o.frames c.request) }
  | post {c : Call} {f : List UInt8} {frames : List (List UInt8)}
      (h : q.thread = .posting c (f :: frames)) :
      Steps q .post { q with thread := .posting c frames, posted := q.posted ++ [(c, f)] }
  | leave {c : Call} (h : q.thread = .posting c []) :
      Steps q .leave { q with thread := .waiting, inProgress := q.finished c }
  | cancel {c : Call} {pending : List Call} (h : q.thread = .draining (c :: pending)) :
      Steps q .cancel { q with
        thread := .draining pending
        cancelled := q.cancelled ++ [c]
        posted := q.posted ++ [(c, cancelFrame)] }
  | loopReturn (h : q.thread = .draining []) : Steps q .loopReturn { q with thread := .returned }
  | dtorStop (h : q.dtor = .alive) :
      Steps q .dtorStop { q with launchStop := true, dtor := .stopping }
  | dtorAppstream (h : q.dtor = .stopping) : Steps q .dtorAppstream { q with dtor := .joining }
  | dtorJoin (h : q.dtor = .joining) (hthread : q.thread = .returned) :
      Steps q .dtorJoin { q with dtor := .returned }

theorem step_cases {q q' : State} {a : Action} (h : step q a = some q') : Steps q a q' := by
  cases a with
  | wake =>
    simp only [step, State.wake] at h
    split at h
    · next hthread =>
      split at h
      · next hstop =>
        obtain rfl := Option.some_inj.mp h
        exact .drain hthread hstop
      · next hstop =>
        split at h
        · exact absurd h (by simp)
        · next c rest hqueue =>
          obtain rfl := Option.some_inj.mp h
          exact .pop hthread (by simpa using hstop) hqueue
    · exact absurd h (by simp)
  | dtorJoin =>
    simp only [step] at h
    split at h
    · next hdtor hthread =>
      obtain rfl := Option.some_inj.mp h
      exact .dtorJoin hdtor hthread
    · exact absurd h (by simp)
  | _ =>
    -- one place where the step is enabled
    simp only [step] at h
    split at h
    · next hplace =>
      obtain rfl := Option.some_inj.mp h
      constructor
      exact hplace
    · exact absurd h (by simp)

/-! ### What the thread holds -/

/-- The launch whose `launch_impl` the thread is inside. -/
def Thread.working : Thread → List Call
  | .launching c => [c]
  | .posting c _ => [c]
  | _ => []

/-- Launches taken out of `launch_queue_` and neither started nor cancelled. -/
def Thread.outstanding : Thread → List Call
  | .popped c => [c]
  | .draining pending => pending
  | _ => []

/-- The thread has seen `launch_stop_`. -/
def Thread.SawStop : Thread → Prop
  | .draining _ | .returned => True
  | _ => False

/-- The invariant of every reachable state. -/
structure Inv (q : State) : Prop where
  working : q.inProgress = q.thread.working
  entered : ∀ c ∈ q.thread.working, c ∈ q.started
  sawStop : q.thread.SawStop → q.launchStop = true ∧ q.launchQueue = []
  noCancel : ¬ q.thread.SawStop → q.cancelled = []
  stopped : q.launchStop = true → q.dtor ≠ .alive
  joined : q.dtor = .returned → q.thread = .returned
  numbered : q.calls.map Call.number = List.range q.calls.length

theorem init_inv : Inv init where
  working := rfl
  entered c hc := absurd hc (by simp [init, Thread.working])
  sawStop h := h.elim
  noCancel _ := rfl
  stopped h := absurd h (by simp [init])
  joined h := absurd h (by simp [init])
  numbered := rfl

/-- The thread goes on with the launch it is inside. -/
theorem Inv.keepWorking {q : State} (hq : Inv q) {t : Thread} {posted : List (Call × List UInt8)}
    (hworking : t.working = q.thread.working) (hbefore : ¬ q.thread.SawStop) (ht : ¬ t.SawStop) :
    Inv { q with thread := t, posted := posted } :=
  { hq with
    working := by simpa [hworking] using hq.working
    entered := by simpa [hworking] using hq.entered
    sawStop := fun hs => absurd hs ht
    noCancel := fun _ => hq.noCancel hbefore
    joined := fun hj => absurd (by rw [hq.joined hj]; trivial) hbefore }

theorem step_inv {q q' : State} {a : Action} (h : step q a = some q') (hq : Inv q) : Inv q' := by
  -- the steps of the thread find it elsewhere than returned
  cases step_cases h with
  | launch r hdtor =>
    have hlive : q.launchStop ≠ true := fun hs => hq.stopped hs hdtor
    exact { hq with
      sawStop := fun hs => absurd (hq.sawStop hs).1 hlive
      numbered := by simp [State.launch, hq.numbered, List.range_succ] }
  | pop hthread hstop hqueue =>
    exact { hq with
      working := by simpa [hthread, Thread.working] using hq.working
      entered := fun c hc => absurd hc (by simp [Thread.working])
      sawStop := fun hs => hs.elim
      noCancel := fun _ => hq.noCancel (by simp [hthread, Thread.SawStop])
      joined := fun hj => absurd (hq.joined hj) (by simp [hthread]) }
  | drain hthread hstop =>
    have hnone : q.cancelled = [] := hq.noCancel (by simp [hthread, Thread.SawStop])
    exact { hq with
      working := by simpa [hthread, Thread.working] using hq.working
      entered := fun c hc => absurd hc (by simp [Thread.working])
      sawStop := fun _ => ⟨hstop, rfl⟩
      noCancel := fun _ => hnone
      joined := fun hj => absurd (hq.joined hj) (by simp [hthread]) }
  | enter hthread =>
    exact { hq with
      working := by simp [hq.working, hthread, Thread.working]
      entered := fun c hc => List.mem_append_right _ hc
      sawStop := fun hs => hs.elim
      noCancel := fun _ => hq.noCancel (by simp [hthread, Thread.SawStop])
      joined := fun hj => absurd (hq.joined hj) (by simp [hthread]) }
  | answer o hthread =>
    exact hq.keepWorking (by simp [hthread, Thread.working]) (by simp [hthread, Thread.SawStop]) id
  | post hthread =>
    exact hq.keepWorking (by simp [hthread, Thread.working]) (by simp [hthread, Thread.SawStop]) id
  | leave hthread =>
    exact { hq with
      working := by simp [State.finished, hq.working, hthread, Thread.working]
      entered := fun c hc => absurd hc (by simp [Thread.working])
      sawStop := fun hs => hs.elim
      noCancel := fun _ => hq.noCancel (by simp [hthread, Thread.SawStop])
      joined := fun hj => absurd (hq.joined hj) (by simp [hthread]) }
  | cancel hthread =>
    exact { hq with
      working := by simpa [hthread, Thread.working] using hq.working
      entered := fun c hc => absurd hc (by simp [Thread.working])
      sawStop := fun _ => hq.sawStop (by simp [hthread, Thread.SawStop])
      noCancel := fun hs => absurd trivial hs
      joined := fun hj => absurd (hq.joined hj) (by simp [hthread]) }
  | loopReturn hthread =>
    exact { hq with
      working := by simpa [hthread, Thread.working] using hq.working
      entered := fun c hc => absurd hc (by simp [Thread.working])
      sawStop := fun _ => hq.sawStop (by simp [hthread, Thread.SawStop])
      noCancel := fun hs => absurd trivial hs
      joined := fun _ => rfl }
  | dtorStop hdtor =>
    exact { hq with
      sawStop := fun hs => ⟨rfl, (hq.sawStop hs).2⟩
      stopped := fun _ => by simp
      joined := fun hj => absurd hj (by simp) }
  | dtorAppstream hdtor =>
    exact { hq with
      stopped := fun _ => by simp
      joined := fun hj => absurd hj (by simp) }
  | dtorJoin hdtor hthread =>
    exact { hq with
      stopped := fun _ => by simp
      joined := fun _ => hthread }

theorem run_inv {q : State} {as : List Action} (h : Machine.run step init as = some q) : Inv q :=
  Machine.run_invariant (I := Inv) step_inv h init_inv

/-! ### The queue is a first-in first-out server -/

/-- A launch is served when it is started or cancelled. -/
def abs (q : State) : FifoServer.Ledger Call where
  accepted := q.calls
  served := q.started ++ q.cancelled
  waiting := q.thread.outstanding ++ q.launchQueue

open FifoServer in
theorem abs_step {q q' : State} {a : Action} (h : step q a = some q') (hq : Inv q) :
    ∃ ms, Machine.run Ledger.step (abs q) ms = some (abs q') := by
  cases step_cases h with
  | launch r hdtor =>
    refine ⟨[.accept ⟨q.calls.length, r⟩], ?_⟩
    rw [Machine.run_singleton, Ledger.step_accept]
    simp [abs, State.launch]
  -- popped or swapped out, the launches still wait, in the same order
  | pop hthread hstop hqueue => exact ⟨[], by simp [abs, hthread, hqueue, Thread.outstanding]⟩
  | drain hthread hstop => exact ⟨[], by simp [abs, hthread, Thread.outstanding]⟩
  | @enter c hthread =>
    -- nothing is cancelled yet, so the launch is the last one served
    have hnone : q.cancelled = [] := hq.noCancel (by simp [hthread, Thread.SawStop])
    refine ⟨[.serve], ?_⟩
    rw [Machine.run_singleton, Ledger.step_serve (x := c) (r := q.launchQueue)
      (by simp [abs, hthread, Thread.outstanding])]
    simp [abs, hnone, Thread.outstanding]
  | answer o hthread => exact ⟨[], by simp [abs, hthread, Thread.outstanding]⟩
  | post hthread => exact ⟨[], by simp [abs, hthread, Thread.outstanding]⟩
  | leave hthread => exact ⟨[], by simp [abs, hthread, Thread.outstanding]⟩
  | @cancel c pending hthread =>
    refine ⟨[.serve], ?_⟩
    rw [Machine.run_singleton, Ledger.step_serve (x := c) (r := pending ++ q.launchQueue)
      (by simp [abs, hthread, Thread.outstanding])]
    simp [abs, Thread.outstanding]
  | loopReturn hthread => exact ⟨[], by simp [abs, hthread, Thread.outstanding]⟩
  | dtorStop hdtor => exact ⟨[], rfl⟩
  | dtorAppstream hdtor => exact ⟨[], rfl⟩
  | dtorJoin hdtor hthread => exact ⟨[], rfl⟩

theorem abs_balanced {q : State} {as : List Action} (h : Machine.run step init as = some q) :
    (abs q).Balanced := by
  obtain ⟨ms, hms⟩ := Machine.run_refines abs step_inv abs_step h init_inv
  exact FifoServer.run_balanced hms

/-- Calls have numbers of their own. -/
theorem Inv.number_inj {q : State} (hq : Inv q) {c d : Call} (hc : c ∈ q.calls)
    (hd : d ∈ q.calls) (h : c.number = d.number) : c = d := by
  have hnodup : (q.calls.map Call.number).Nodup := hq.numbered ▸ List.nodup_range
  exact List.inj_on_of_nodup_map hnodup hc hd h

theorem Inv.calls_nodup {q : State} (hq : Inv q) : q.calls.Nodup := by
  have hnodup : (q.calls.map Call.number).Nodup := hq.numbered ▸ List.nodup_range
  exact hnodup.of_map

/-! ### What each launch is answered -/

/-- The frames of every launch, by how far it is. -/
structure Answers (q : State) : Prop where
  known : ∀ p ∈ q.posted, p.1 ∈ q.calls
  waiting : ∀ c ∈ q.thread.outstanding ++ q.launchQueue, q.frames c = []
  launching : ∀ c, q.thread = .launching c → q.frames c = []
  posting : ∀ c frames, q.thread = .posting c frames →
    ∃ o : Outcome, q.frames c ++ frames = o.frames c.request
  ran : ∀ c ∈ q.started, c ∉ q.thread.working → ∃ o : Outcome, q.frames c = o.frames c.request
  cancelled : ∀ c ∈ q.cancelled, q.frames c = [cancelFrame]

theorem init_answers : Answers init where
  known p hp := absurd hp (by simp [init])
  waiting c hc := rfl
  launching c hc := rfl
  posting c frames hc := absurd hc (by simp [init])
  ran c hc := absurd hc (by simp [init])
  cancelled c hc := absurd hc (by simp [init])

theorem frames_post {q q' : State} {c : Call} {f : List UInt8}
    (h : q'.posted = q.posted ++ [(c, f)]) (d : Call) :
    q'.frames d = q.frames d ++ if c.number = d.number then [f] else [] := by
  rw [State.frames, h, List.filter_append, List.map_append]
  by_cases hcd : c.number = d.number
  · simp [State.frames, hcd]
  · simp [State.frames, hcd]

theorem frames_post_self {q q' : State} {c : Call} {f : List UInt8}
    (h : q'.posted = q.posted ++ [(c, f)]) : q'.frames c = q.frames c ++ [f] := by
  rw [frames_post h, if_pos rfl]

theorem Inv.frames_post_other {q q' : State} (hq : Inv q) {c d : Call} {f : List UInt8}
    (h : q'.posted = q.posted ++ [(c, f)]) (hc : c ∈ q.calls) (hd : d ∈ q.calls) (hne : d ≠ c) :
    q'.frames d = q.frames d := by
  have hnumber : c.number ≠ d.number := fun heq => hne (hq.number_inj hc hd heq).symm
  rw [frames_post h, if_neg hnumber, List.append_nil]

theorem Answers.known_post {q q' : State} (ha : Answers q) {c : Call} {f : List UInt8}
    (hc : c ∈ q.calls) (h : q'.posted = q.posted ++ [(c, f)]) : ∀ p ∈ q'.posted, p.1 ∈ q.calls := by
  intro p hp
  rw [h] at hp
  rcases List.mem_append.mp hp with hp | hp
  · exact ha.known p hp
  · obtain rfl := List.mem_singleton.mp hp
    exact hc

/-- Nobody has posted for a call that was not made. -/
theorem Answers.frames_new {q : State} (ha : Answers q) (hq : Inv q) (r : LaunchRequest) :
    q.frames ⟨q.calls.length, r⟩ = [] := by
  rw [State.frames, List.map_eq_nil_iff, List.filter_eq_nil_iff]
  intro p hp
  have hlt : p.1.number ∈ List.range q.calls.length :=
    hq.numbered ▸ List.mem_map_of_mem (ha.known p hp)
  have hne := (List.mem_range.mp hlt).ne
  simpa using hne

section Places

variable {q : State} (hq : Inv q) (hbal : (abs q).Balanced)

include hbal

theorem calls_eq :
    q.calls = (q.started ++ q.cancelled) ++ (q.thread.outstanding ++ q.launchQueue) := hbal

theorem started_calls {c : Call} (hc : c ∈ q.started) : c ∈ q.calls := by
  rw [calls_eq hbal]
  simp [hc]

theorem cancelled_calls {c : Call} (hc : c ∈ q.cancelled) : c ∈ q.calls := by
  rw [calls_eq hbal]
  simp [hc]

theorem waiting_calls {c : Call} (hc : c ∈ q.thread.outstanding ++ q.launchQueue) :
    c ∈ q.calls := by
  rw [calls_eq hbal]
  exact List.mem_append_right _ hc

include hq

theorem places_nodup :
    ((q.started ++ q.cancelled) ++ (q.thread.outstanding ++ q.launchQueue)).Nodup :=
  calls_eq hbal ▸ hq.calls_nodup

/-- A launch that is started or cancelled does not wait. -/
theorem served_ne_waiting {c d : Call} (hc : c ∈ q.started ++ q.cancelled)
    (hd : d ∈ q.thread.outstanding ++ q.launchQueue) : d ≠ c := by
  rintro rfl
  exact List.disjoint_of_nodup_append (places_nodup hq hbal) hc hd

theorem started_ne_cancelled {c d : Call} (hc : c ∈ q.started) (hd : d ∈ q.cancelled) :
    d ≠ c := by
  rintro rfl
  exact List.disjoint_of_nodup_append (List.Nodup.of_append_left (places_nodup hq hbal)) hc hd

end Places

theorem step_answers {q q' : State} {a : Action} (h : step q a = some q') (hq : Inv q)
    (hbal : (abs q).Balanced) (ha : Answers q) : Answers q' := by
  cases step_cases h with
  -- a new launch has a number of its own, under which nothing was posted
  | launch r hdtor =>
    exact { ha with
      known := fun p hp => List.mem_append_left _ (ha.known p hp)
      waiting := fun c hc => by
        rw [State.launch, ← List.append_assoc, List.mem_append, List.mem_singleton] at hc
        rcases hc with hc | rfl
        · exact ha.waiting c hc
        · exact ha.frames_new hq r }
  | pop hthread hstop hqueue =>
    exact { ha with
      waiting := fun c hc => ha.waiting c (by simpa [hthread, hqueue, Thread.outstanding] using hc)
      launching := fun c hc => absurd hc (by simp)
      posting := fun c frames hc => absurd hc (by simp)
      ran := fun c hc _ => ha.ran c hc (by simp [hthread, Thread.working]) }
  | drain hthread hstop =>
    exact { ha with
      waiting := fun c hc => ha.waiting c (by simpa [hthread, Thread.outstanding] using hc)
      launching := fun c hc => absurd hc (by simp)
      posting := fun c frames hc => absurd hc (by simp)
      ran := fun c hc _ => ha.ran c hc (by simp [hthread, Thread.working]) }
  -- it comes from the backlog, of which nothing was answered
  | @enter c hthread =>
    have hsilent : q.frames c = [] := ha.waiting c (by simp [hthread, Thread.outstanding])
    exact { ha with
      waiting := fun d hd => ha.waiting d (List.mem_append_right _ hd)
      launching := fun d hd => by
        obtain rfl := Thread.launching.inj hd
        exact hsilent
      posting := fun d frames hd => absurd hd (by simp)
      ran := fun d hd hdone => by
        rcases List.mem_append.mp hd with hd | hd
        · exact ha.ran d hd (by simp [hthread, Thread.working])
        · exact absurd hd hdone }
  -- what will be posted is the answer of this outcome
  | @answer c o hthread =>
    have hsilent : q.frames c = [] := ha.launching c hthread
    exact { ha with
      waiting := fun d hd => ha.waiting d (by simpa [hthread, Thread.outstanding] using hd)
      launching := fun d hd => absurd hd (by simp)
      posting := fun d frames hd => by
        obtain ⟨rfl, rfl⟩ := Thread.posting.inj hd
        exact ⟨o, congrArg (· ++ o.frames c.request) hsilent⟩
      ran := fun d hd hdone => ha.ran d hd (by simpa [hthread, Thread.working] using hdone) }
  -- the frame is posted for the launch at work; no other one has its number
  | @post c f frames hthread =>
    have hc : c ∈ q.started := hq.entered c (by simp [hthread, Thread.working])
    have hcalls : c ∈ q.calls := started_calls hbal hc
    obtain ⟨o, ho⟩ := ha.posting c _ hthread
    exact {
      known := ha.known_post hcalls rfl
      waiting := fun d hd => by
        have hd' : d ∈ q.thread.outstanding ++ q.launchQueue := by
          simpa [hthread, Thread.outstanding] using hd
        have hne := served_ne_waiting hq hbal (List.mem_append_left _ hc) hd'
        rw [hq.frames_post_other rfl hcalls (waiting_calls hbal hd') hne]
        exact ha.waiting d hd'
      launching := fun d hd => absurd hd (by simp)
      posting := fun d rest hd => by
        obtain ⟨rfl, rfl⟩ := Thread.posting.inj hd
        refine ⟨o, ?_⟩
        rw [frames_post_self rfl, List.append_assoc, List.singleton_append, ho]
      ran := fun d hd hdone => by
        have hne : d ≠ c := by simpa [Thread.working] using hdone
        rw [hq.frames_post_other rfl hcalls (started_calls hbal hd) hne]
        exact ha.ran d hd (by simpa [hthread, Thread.working] using hne)
      cancelled := fun d hd => by
        have hne := started_ne_cancelled hq hbal hc hd
        rw [hq.frames_post_other rfl hcalls (cancelled_calls hbal hd) hne]
        exact ha.cancelled d hd }
  -- nothing is left to post, so the answer is whole
  | @leave c hthread =>
    obtain ⟨o, ho⟩ := ha.posting c [] hthread
    exact { ha with
      waiting := fun d hd => ha.waiting d (by simpa [hthread, Thread.outstanding] using hd)
      launching := fun d hd => absurd hd (by simp)
      posting := fun d frames hd => absurd hd (by simp)
      ran := fun d hd _ => by
        by_cases hdc : d = c
        · subst hdc
          exact ⟨o, (List.append_nil _).symm.trans ho⟩
        · exact ha.ran d hd (by simpa [hthread, Thread.working] using hdc) }
  -- the first of the backlog gets its one frame
  | @cancel c pending hthread =>
    have hc : c ∈ q.thread.outstanding ++ q.launchQueue := by simp [hthread, Thread.outstanding]
    have hcalls : c ∈ q.calls := waiting_calls hbal hc
    exact {
      known := ha.known_post hcalls rfl
      waiting := fun d hd => by
        have hd' : d ∈ q.thread.outstanding ++ q.launchQueue := by
          have hmem : d ∈ pending ++ q.launchQueue := hd
          rw [hthread]
          exact List.mem_cons_of_mem _ hmem
        -- the backlog has no launch twice
        have hne : d ≠ c := by
          have hnodup := List.Nodup.of_append_right (places_nodup hq hbal)
          rw [hthread] at hnodup
          rintro rfl
          exact (List.nodup_cons.mp hnodup).1 hd
        rw [hq.frames_post_other rfl hcalls (waiting_calls hbal hd') hne]
        exact ha.waiting d hd'
      launching := fun d hd => absurd hd (by simp)
      posting := fun d frames hd => absurd hd (by simp)
      ran := fun d hd _ => by
        have hne := (served_ne_waiting hq hbal (List.mem_append_left _ hd) hc).symm
        rw [hq.frames_post_other rfl hcalls (started_calls hbal hd) hne]
        exact ha.ran d hd (by simp [hthread, Thread.working])
      cancelled := fun d hd => by
        rcases List.mem_append.mp hd with hd | hd
        · have hne := (served_ne_waiting hq hbal (List.mem_append_right _ hd) hc).symm
          rw [hq.frames_post_other rfl hcalls (cancelled_calls hbal hd) hne]
          exact ha.cancelled d hd
        · obtain rfl := List.mem_singleton.mp hd
          rw [frames_post_self rfl, ha.waiting d hc, List.nil_append] }
  | loopReturn hthread =>
    exact { ha with
      waiting := fun d hd => ha.waiting d (by simpa [hthread, Thread.outstanding] using hd)
      launching := fun d hd => absurd hd (by simp)
      posting := fun d frames hd => absurd hd (by simp)
      ran := fun d hd _ => ha.ran d hd (by simp [hthread, Thread.working]) }
  | dtorStop hdtor => exact { ha with }
  | dtorAppstream hdtor => exact { ha with }
  | dtorJoin hdtor hthread => exact { ha with }

theorem run_answers {q : State} {as : List Action} (h : Machine.run step init as = some q) :
    Answers q := by
  have hall : (Inv q ∧ (abs q).Balanced) ∧ Answers q :=
    Machine.run_invariant (I := fun q => (Inv q ∧ (abs q).Balanced) ∧ Answers q)
      (fun hstep hs => by
        obtain ⟨⟨hq, hbal⟩, ha⟩ := hs
        obtain ⟨ms, hms⟩ := abs_step hstep hq
        exact ⟨⟨step_inv hstep hq, Machine.run_invariant (I := FifoServer.Ledger.Balanced)
          FifoServer.Ledger.step_balanced hms hbal⟩, step_answers hstep hq hbal ha⟩)
      h ⟨⟨init_inv, rfl⟩, init_answers⟩
  exact hall.2

/-- If each launch has a port of its own, that port gets what answers it. -/
theorem framesOn_eq {q : State} (hq : Inv q) (ha : Answers q)
    (hports : (q.calls.map (·.request.port)).Nodup) {c : Call} (hc : c ∈ q.calls) :
    q.framesOn c.request.port = q.frames c := by
  have hsame : ∀ p ∈ q.posted,
      decide (p.1.request.port = c.request.port) = decide (p.1.number = c.number) := by
    intro p hp
    have hmem : p.1 ∈ q.calls := ha.known p hp
    by_cases hpc : p.1 = c
    · simp [hpc]
    · have hport : p.1.request.port ≠ c.request.port :=
        fun heq => hpc (List.inj_on_of_nodup_map hports hmem hc heq)
      have hnumber : p.1.number ≠ c.number := fun heq => hpc (hq.number_inj hmem hc heq)
      simp [hport, hnumber]
  rw [State.framesOn, State.frames, List.filter_congr hsame]

/-! ### The order of the frames -/

/-- After this frame nothing comes. -/
def isTerminal (f : List UInt8) : Bool :=
  f.head? = some 0x02 || f.head? = some 0x03 || f.head? = some 0xFF

/-- Before the sentinel there is one instance and nothing else, before an error
nothing. -/
def Ordered (frames : List (List UInt8)) : Prop :=
  ∀ before f after, frames = before ++ f :: after →
    (f.head? = some 0xFF →
      ∃ info : FpInstance, before = [InstallationReader.postGlaze info]) ∧
    (f.head? = some 0x02 ∨ f.head? = some 0x03 → before = [])

theorem Ordered.initial {frames rest : List (List UInt8)} (h : Ordered (frames ++ rest)) :
    Ordered frames := by
  intro before f after heq
  exact h before f (after ++ rest) (by simp [heq])

/-- One frame, if it is not the sentinel. -/
theorem ordered_singleton {f : List UInt8} (h : f.head? ≠ some 0xFF) : Ordered [f] := by
  intro before g after heq
  cases before with
  | nil =>
    obtain ⟨rfl, -⟩ := List.cons_eq_cons.mp heq
    exact ⟨fun hf => absurd hf h, fun _ => rfl⟩
  | cons e before => exact absurd (List.cons_eq_cons.mp heq).2 (by simp)

open InstallationReader in
/-- An answer has one terminal frame, and is in order. -/
theorem isTerminal_answer {frames : List (List UInt8)} (h : LaunchAnswer frames) :
    frames.countP isTerminal = 1 ∧ Ordered frames := by
  cases h with
  | error msg => exact ⟨rfl, ordered_singleton (by simp [postError])⟩
  | opError msg => exact ⟨rfl, ordered_singleton (by simp [postOpError])⟩
  | launched info =>
    refine ⟨rfl, fun before f after heq => ?_⟩
    rcases before with _ | ⟨e, before⟩
    · obtain ⟨rfl, -⟩ := List.cons_eq_cons.mp heq
      exact ⟨fun hf => absurd hf (by simp [postGlaze]), fun _ => rfl⟩
    · obtain ⟨rfl, hlast⟩ := List.cons_eq_cons.mp heq
      rcases before with _ | ⟨d, before⟩
      · obtain ⟨rfl, -⟩ := List.cons_eq_cons.mp hlast
        exact ⟨fun _ => ⟨info, rfl⟩, fun hf => absurd hf (by simp [postSentinel])⟩
      · exact absurd (List.cons_eq_cons.mp hlast).2 (by simp)

theorem Outcome.answer (o : Outcome) (r : LaunchRequest) :
    InstallationReader.LaunchAnswer (o.frames r) :=
  InstallationReader.launchImpl_answer _ _ _ _ _ _ _

theorem cancelFrame_answer : InstallationReader.LaunchAnswer [cancelFrame] := .opError _

/-! ### The contract -/

/-- What holds of the launches of a reader. -/
structure Contract (q : State) : Prop where
  /-- started in call order, and only the launches behind them cancelled -/
  inOrder : q.started ++ q.cancelled <+: q.calls
  oneAtATime : q.inProgress.length ≤ 1
  ordered : ∀ c ∈ q.calls, Ordered (q.frames c)
  atMostOnce : ∀ c ∈ q.calls, (q.frames c).countP isTerminal ≤ 1
  ran : ∀ c ∈ q.started, c ∉ q.inProgress → ∃ o : Outcome, q.frames c = o.frames c.request
  cancelled : ∀ c ∈ q.cancelled, q.frames c = [cancelFrame]
  answered : q.dtor = .returned → ∀ c ∈ q.calls, (q.frames c).countP isTerminal = 1
  suffix : q.dtor = .returned → q.calls = q.started ++ q.cancelled

/-- What a launch was answered is the beginning of an answer, and all of one when its turn
is over. -/
theorem frames_answer {q : State} (hbal : (abs q).Balanced) (ha : Answers q) {c : Call}
    (hc : c ∈ q.calls) :
    (∃ rest, InstallationReader.LaunchAnswer (q.frames c ++ rest)) ∧
      (c ∉ q.thread.working → c ∉ q.thread.outstanding ++ q.launchQueue →
        InstallationReader.LaunchAnswer (q.frames c)) := by
  rw [calls_eq hbal] at hc
  rcases List.mem_append.mp hc with hc | hc
  · rcases List.mem_append.mp hc with hc | hc
    · by_cases hwork : c ∈ q.thread.working
      · refine ⟨?_, fun hidle => absurd hwork hidle⟩
        cases hthread : q.thread with
        | launching d =>
          obtain rfl : c = d := by simpa [hthread, Thread.working] using hwork
          refine ⟨[cancelFrame], ?_⟩
          rw [ha.launching c hthread]
          exact cancelFrame_answer
        | posting d frames =>
          obtain rfl : c = d := by simpa [hthread, Thread.working] using hwork
          obtain ⟨o, ho⟩ := ha.posting c frames hthread
          exact ⟨frames, ho ▸ o.answer c.request⟩
        | _ => exact absurd hwork (by simp [hthread, Thread.working])
      · obtain ⟨o, ho⟩ := ha.ran c hc hwork
        rw [ho]
        exact ⟨⟨[], (List.append_nil _).symm ▸ o.answer c.request⟩, fun _ _ => o.answer c.request⟩
    · rw [ha.cancelled c hc]
      exact ⟨⟨[], cancelFrame_answer⟩, fun _ _ => cancelFrame_answer⟩
  · rw [ha.waiting c hc]
    exact ⟨⟨_, cancelFrame_answer⟩, fun _ hidle => absurd hc hidle⟩

/-- The destructor has waited for the thread, which leaves nothing behind. -/
theorem Inv.returned_idle {q : State} (hq : Inv q) (h : q.dtor = .returned) :
    q.thread.working = [] ∧ q.thread.outstanding ++ q.launchQueue = [] := by
  have hthread := hq.joined h
  have hempty : q.launchQueue = [] := (hq.sawStop (by simp [hthread, Thread.SawStop])).2
  simp [hthread, hempty, Thread.working, Thread.outstanding]

theorem served_of_returned {q : State} (hq : Inv q) (hbal : (abs q).Balanced)
    (h : q.dtor = .returned) : q.calls = q.started ++ q.cancelled :=
  (FifoServer.served_eq_accepted hbal (hq.returned_idle h).2).symm

/-- **A port of its own gets what `InstallationReader.launch` posts**, for a launch that was
started or for one that was cancelled. -/
theorem framesOn_launch {q : State} {as : List Action}
    (h : Machine.run step init as = some q) (hreturned : q.dtor = .returned)
    (hports : (q.calls.map (·.request.port)).Nodup) {c : Call} (hc : c ∈ q.calls) :
    (c ∈ q.started ∧ ∃ o : Outcome, q.framesOn c.request.port = o.launch false c.request) ∨
      c ∈ q.cancelled ∧ ∀ o : Outcome, q.framesOn c.request.port = o.launch true c.request := by
  have hq : Inv q := run_inv h
  have ha : Answers q := run_answers h
  rw [framesOn_eq hq ha hports hc]
  rw [served_of_returned hq (abs_balanced h) hreturned] at hc
  rcases List.mem_append.mp hc with hstarted | hcancelled
  · obtain ⟨o, ho⟩ := ha.ran c hstarted (by simp [(hq.returned_idle hreturned).1])
    exact .inl ⟨hstarted, o, ho.trans (o.launch_eq false c.request).symm⟩
  · have hframe := ha.cancelled c hcancelled
    exact .inr ⟨hcancelled, fun o => hframe.trans (o.launch_eq true c.request).symm⟩

/-- **The contract of the launch queue**, after every interleaving of calls, thread and
destructor. -/
theorem launchQueue_contract {q : State} {as : List Action}
    (h : Machine.run step init as = some q) : Contract q := by
  have hq : Inv q := run_inv h
  have hbal : (abs q).Balanced := abs_balanced h
  have ha : Answers q := run_answers h
  exact {
    inOrder := FifoServer.served_initial hbal
    oneAtATime := by
      rw [hq.working]
      cases q.thread <;> simp [Thread.working]
    ordered := fun c hc => by
      obtain ⟨⟨rest, hanswer⟩, -⟩ := frames_answer hbal ha hc
      exact (isTerminal_answer hanswer).2.initial
    atMostOnce := fun c hc => by
      obtain ⟨⟨rest, hanswer⟩, -⟩ := frames_answer hbal ha hc
      have hcount := (isTerminal_answer hanswer).1
      rw [List.countP_append] at hcount
      omega
    ran := fun c hc hdone => ha.ran c hc (hq.working ▸ hdone)
    cancelled := ha.cancelled
    answered := fun hreturned c hc => by
      obtain ⟨hwork, hwait⟩ := hq.returned_idle hreturned
      obtain ⟨-, hanswer⟩ := frames_answer hbal ha hc
      exact (isTerminal_answer (hanswer (by simp [hwork]) (by simp [hwait]))).1
    suffix := fun hreturned => served_of_returned hq hbal hreturned }

/-- Two launches of an app; the destructor runs while the first one starts. -/
def closingRun : List Action :=
  let r : LaunchRequest :=
    ⟨0, .ofCString InstallationReader.foreignBuild.name, .empty, .empty, .empty⟩
  let o : Outcome :=
    { installation := InstallationReader.twoBuilds
      launchFull := fun _ _ _ => .ok ⟨none, none, none, none, none, none, 0, 0, true⟩
      reread := fun _ => 0 }
  [.launch r, .launch { r with port := 1 }, .wake, .enter, .answer o, .post, .dtorStop, .post,
    .leave, .wake, .cancel, .loopReturn, .dtorAppstream, .dtorJoin]

/-- The first one is answered with its instance, the second one is cancelled. -/
theorem launchQueue_contract_closing :
    ∃ q, Machine.run step init closingRun = some q ∧ q.dtor = .returned ∧
      q.started.map Call.number = [0] ∧ q.cancelled.map Call.number = [1] ∧ Contract q := by
  obtain ⟨q, hrun, hq⟩ := Machine.exists_run step init closingRun
    (p := fun q => q.dtor = .returned ∧ q.started.map Call.number = [0] ∧
      q.cancelled.map Call.number = [1])
    (by decide +kernel)
  obtain ⟨hdtor, hstarted, hcancelled⟩ := of_decide_eq_true hq
  exact ⟨q, hrun, hdtor, hstarted, hcancelled, launchQueue_contract hrun⟩

end LaunchQueue
