/-
What the caller of a transaction hears (`lib/src/transaction.dart`): the progress stream
and the `result` future, over all frames that its port may receive.

* `Listener.after_progress` — progress frames are emitted, in order;
* `finished_iff` — with the first terminal frame the stream and the future come to their
  end together exactly if that frame reports success;
* `failed_session` — with the other one, all but the stream do;
* `run_listener` — the listener of a transaction is such a one, in every run.
-/
import FlatpakDart.TransactionBridge

open Dart TransactionWorker

namespace TransactionBridge

/-- A message reaches the callback while the port is open. -/
def Listener.receive (l : Listener) (msg : List UInt8) : Listener :=
  if l.portOpen then l.onMessage msg else l

/-- `ctrl`, `done` and `port` after these messages. -/
def Listener.after (msgs : List (List UInt8)) : Listener := msgs.foldl Listener.receive .init

/-- What a progress frame has to tell; `none` where the decoder throws. -/
def progressEvent (frame : List UInt8) : Option Event :=
  (GlazeCodec.decodeTransactionProgress (.ofList frame) 1).map fun p =>
    .data ⟨p.op, p.ref, p.progressPercent, p.bytesTransferred, p.bytesTotal, p.status⟩

/-- What a port receives up to the first terminal frame. -/
structure Session where
  progress : List (List UInt8)
  terminal : List UInt8
  isProgress : ∀ frame ∈ progress, isProgress frame
  isTerminal : isTerminal terminal

/-- The frames of a session, and more. -/
def Session.frames (s : Session) (more : List (List UInt8)) : List (List UInt8) :=
  s.progress ++ s.terminal :: more

/-- The listener when the terminal frame has been handled. -/
def Session.listener (s : Session) : Listener := .after (s.frames [])

/-- The transaction has come to its end for everyone who listens. -/
structure Finished (s : Session) : Prop where
  completed : s.terminal.head? = some 0x01 → s.listener.result = .completed ∧
    s.listener.events = s.progress.filterMap progressEvent
  failed : s.terminal.head? = some 0x02 → ∃ err,
    GlazeCodec.decodeError (.ofList s.terminal) 1 = some err ∧
      s.listener.result = .failed ⟨err, ""⟩ ∧
      s.listener.events = s.progress.filterMap progressEvent ++ [.error ⟨err, ""⟩]
  /-- the listeners of the stream get done -/
  closed : s.listener.ctrlClosed = true
  /-- whatever comes after it -/
  silent : ∀ more, (Listener.after (s.frames more)).events = s.listener.events ∧
    (Listener.after (s.frames more)).result = s.listener.result

/-! ### Frame by frame -/

namespace Listener

variable {l : Listener}

theorem receive_closed (h : l.portOpen = false) (msg : List UInt8) : l.receive msg = l := by
  rw [receive, h]
  rfl

theorem foldl_closed (h : l.portOpen = false) (msgs : List (List UInt8)) :
    msgs.foldl receive l = l := by
  induction msgs with
  | nil => rfl
  | cons msg msgs ih => rw [List.foldl_cons, receive_closed h, ih]

/-- A progress frame before any terminal one. -/
theorem receive_progress {frame : List UInt8} (h : isProgress frame) (events : List Event) :
    receive ⟨events, false, .pending, true⟩ frame =
      ⟨events ++ (progressEvent frame).toList, false, .pending, true⟩ := by
  have hhead : frame.head? = some 0x10 := of_decide_eq_true h
  show onMessage ⟨events, false, .pending, true⟩ frame = _
  rw [onMessage, hhead]
  simp only [progressEvent]
  cases GlazeCodec.decodeTransactionProgress (.ofList frame) 1 with
  | none => simp
  | some p => rfl

/-- **Progress** is emitted in the order in which it came. -/
theorem foldl_progress {frames : List (List UInt8)} (h : ∀ f ∈ frames, isProgress f)
    (events : List Event) : frames.foldl receive ⟨events, false, .pending, true⟩ =
      ⟨events ++ frames.filterMap progressEvent, false, .pending, true⟩ := by
  induction frames generalizing events with
  | nil => simp
  | cons f frames ih =>
    have hrest := fun g hg => h g (List.mem_cons_of_mem f hg)
    rw [List.foldl_cons, receive_progress (h f List.mem_cons_self), ih hrest]
    cases hf : progressEvent f with
    | none => rw [List.filterMap_cons_none hf, Option.toList_none, List.append_nil]
    | some e =>
      rw [List.filterMap_cons_some hf, Option.toList_some, List.append_assoc,
        List.singleton_append]

/-- Only success closes the stream. -/
theorem onMessage_ctrlClosed {msg : List UInt8} (h : msg.head? ≠ some 0x01) :
    (l.onMessage msg).ctrlClosed = l.ctrlClosed := by
  rw [onMessage]
  split
  · split
    · rfl
    · split <;> rfl
  · next hhead => exact absurd hhead h
  · split
    · rfl
    · split <;> rfl
  · rfl

end Listener

/-! ### Sessions -/

namespace Session

variable (s : Session)

/-- The state in which the terminal frame is handled. -/
theorem after_frames (more : List (List UInt8)) : Listener.after (s.frames more) =
    more.foldl Listener.receive
      (Listener.onMessage ⟨s.progress.filterMap progressEvent, false, .pending, true⟩
        s.terminal) := by
  rw [Listener.after, frames, List.foldl_append]
  have hprogress := Listener.foldl_progress s.isProgress []
  rw [List.nil_append] at hprogress
  rw [Listener.init, hprogress, List.foldl_cons]
  rfl

theorem listener_eq : s.listener =
    Listener.onMessage ⟨s.progress.filterMap progressEvent, false, .pending, true⟩ s.terminal :=
  s.after_frames []

/-- Once the port is closed, what comes after is not heard. -/
theorem after_closed (h : s.listener.portOpen = false) (more : List (List UInt8)) :
    Listener.after (s.frames more) = s.listener := by
  rw [s.after_frames, ← s.listener_eq, Listener.foldl_closed h]

variable {s}

theorem listener_completed (h : s.terminal.head? = some 0x01) :
    s.listener = ⟨s.progress.filterMap progressEvent, true, .completed, false⟩ := by
  rw [s.listener_eq, Listener.onMessage, h]
  rfl

theorem listener_failed {err : String} (h : s.terminal.head? = some 0x02)
    (herr : GlazeCodec.decodeError (.ofList s.terminal) 1 = some err) :
    s.listener = ⟨s.progress.filterMap progressEvent ++ [.error ⟨err, ""⟩], false,
      .failed ⟨err, ""⟩, false⟩ := by
  rw [s.listener_eq, Listener.onMessage, h]
  simp only [herr]
  rfl

end Session

/-- A failure settles the future and ends what is heard, and leaves the stream open. -/
theorem failed_session {s : Session} {err : String} (h : s.terminal.head? = some 0x02)
    (herr : GlazeCodec.decodeError (.ofList s.terminal) 1 = some err)
    (more : List (List UInt8)) : Listener.after (s.frames more) =
      ⟨s.progress.filterMap progressEvent ++ [.error ⟨err, ""⟩], false, .failed ⟨err, ""⟩,
        false⟩ := by
  have hlistener := Session.listener_failed h herr
  rw [s.after_closed (by rw [hlistener]), hlistener]

/-- **The end of a transaction**: `result`, the stream and the port are done together,
with all progress emitted and nothing to come, if and only if the first terminal frame
is a success. -/
theorem finished_iff (s : Session) : Finished s ↔ s.terminal.head? = some 0x01 := by
  constructor
  · intro hfinished
    by_contra hhead
    -- nothing else closes the stream
    have hclosed := hfinished.closed
    rw [s.listener_eq, Listener.onMessage_ctrlClosed hhead] at hclosed
    cases hclosed
  · intro hhead
    have hlistener := Session.listener_completed hhead
    constructor
    case completed => exact fun _ => by rw [hlistener]; exact ⟨rfl, rfl⟩
    case failed =>
      intro hfailed
      rw [hhead] at hfailed
      cases hfailed
    case closed => rw [hlistener]
    case silent =>
      intro more
      rw [s.after_closed (by rw [hlistener])]
      exact ⟨rfl, rfl⟩

/-- No progress, and a failure. -/
def failingSession : Session where
  progress := []
  terminal := [0x02, 2, 0, 0, 0, 0x6E, 0x6F]
  isProgress := by simp
  isTerminal := by decide

/-- The future has failed, and the stream is open. -/
theorem failure_leaves_open : ¬ (∀ s : Session, Finished s) ∧
    failingSession.listener = ⟨[.error ⟨"no", ""⟩], false, .failed ⟨"no", ""⟩, false⟩ := by
  have hlistener : failingSession.listener =
      ⟨[.error ⟨"no", ""⟩], false, .failed ⟨"no", ""⟩, false⟩ := by decide +kernel
  refine ⟨fun h => ?_, hlistener⟩
  have hclosed := (h failingSession).closed
  rw [hlistener] at hclosed
  cases hclosed

/-! ### The listeners of a run -/

/-- Each listener is what the messages delivered to it, a beginning of what its port
was sent, make of it. -/
def Heard (s : State) : Prop :=
  ∀ k, s.delivered k ≤ (s.worker.posts k).length ∧
    s.listeners k = .after ((s.worker.posts k).take (s.delivered k))

theorem Heard.grow {s : State} (hs : Heard s) {w : Worker} {submits : ℕ → Submit}
    (hposts : ∀ k, s.worker.posts k <+: w.posts k) :
    Heard { s with worker := w, submits } := by
  intro k
  obtain ⟨hle, hlistener⟩ := hs k
  obtain ⟨more, hmore⟩ := hposts k
  rw [← hmore, List.length_append]
  refine ⟨hle.trans (Nat.le_add_right _ _), hlistener.trans ?_⟩
  rw [List.take_append_of_le_length hle]

theorem Heard.deliver {s : State} (hs : Heard s) {k : ℕ} {msg : List UInt8}
    (hmsg : (s.worker.posts k)[s.delivered k]? = some msg)
    (hopen : (s.listeners k).portOpen = true) : Heard { s with
      listeners := Function.update s.listeners k ((s.listeners k).onMessage msg)
      delivered := Function.update s.delivered k (s.delivered k + 1) } := by
  intro j
  rcases eq_or_ne j k with rfl | hne
  · obtain ⟨hlt, hget⟩ := List.getElem?_eq_some_iff.mp hmsg
    have hreceive : (s.listeners j).receive msg = (s.listeners j).onMessage msg := by
      rw [Listener.receive, hopen]
      rfl
    simp only [Function.update_self]
    refine ⟨hlt, ?_⟩
    rw [List.take_succ_eq_append_getElem hlt, hget, Listener.after, List.foldl_append,
      ← Listener.after, ← (hs j).2, List.foldl_cons, List.foldl_nil, hreceive]
  · simp only [Function.update_of_ne hne]
    exact hs j

theorem step_heard {s t : State} {a : Action} (h : step s a = some t) (hs : Inv s)
    (hheard : Heard s) : Heard t := by
  cases step_cases hs.handles h with
  | create halive => exact hheard.grow fun k => create_grows k _ _
  | add halive hk => exact hheard.grow fun k => add_grows k _ _ _
  | submit halive hk => exact hheard.grow fun k => List.prefix_refl _
  | deliver hmsg hk hopen => exact hheard.deliver hmsg hopen
  | cancel hk hdtor =>
    rw [cancelCurrent_eq]
    exact hheard.grow fun k => List.prefix_refl _
  | loop hw => exact hheard.grow fun k => loopStep_grows k hw
  | dtorStop hw =>
    obtain ⟨-, rfl⟩ := dtorStop_cases hw
    exact hheard.grow fun k => List.prefix_refl _
  | dtorJoin hw =>
    obtain ⟨-, -, rfl⟩ := dtorJoin_cases hw
    exact hheard.grow fun k => List.prefix_refl _

/-- What the caller of a transaction hears in a run is what the delivered messages make
of a listener. -/
theorem run_listener {s : State} {as : List Action} (h : Machine.run step init as = some s) :
    Heard s :=
  (Machine.run_invariant (I := fun s => Inv s ∧ Heard s)
    (fun hstep hs => ⟨step_inv hstep hs.1, step_heard hstep hs.1 hs.2⟩) h
    ⟨init_inv, fun _ => ⟨Nat.zero_le _, rfl⟩⟩).2

end TransactionBridge
