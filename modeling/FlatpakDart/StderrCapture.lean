/-
What `HostFlatpak.launch` keeps of a run's stderr (`lib/src/host_flatpak.dart`).

The stream is drained to its end; chunks are kept until the launch is decided, and no
more than `_stderrCap` code units of them.

* `capture_take` — one chunk more, wherever it meets the cap;
* `stderrBuf_eq_take` — the buffer is the beginning of the text that came while capturing,
  however that was cut into chunks, and so it is in every launch.
-/
import FlatpakDart.HostLaunch

namespace HostLaunch

/-- What happens to the buffer. -/
inductive StderrEvent
  /-- the callback of `forEach` -/
  | chunk (text : DartString)
  /-- `capturing = false` -/
  | switchOff

/-- The variables of the callback. -/
structure Capture where
  stderrBuf : DartString
  capturing : Bool
  deriving DecidableEq

namespace Capture

def init : Capture := ⟨[], true⟩

def onEvent (s : Capture) : StderrEvent → Capture
  | .chunk text => if s.capturing then { s with stderrBuf := capture s.stderrBuf text } else s
  | .switchOff => { s with capturing := false }

/-- The variables after these events. -/
def run (events : List StderrEvent) : Capture := events.foldl onEvent init

end Capture

/-- The chunks delivered while capturing. -/
def delivered : List StderrEvent → List DartString
  | [] => []
  | .chunk text :: events => text :: delivered events
  | .switchOff :: _ => []

/-- All chunks, in order. -/
def chunks (events : List StderrEvent) : List DartString :=
  events.filterMap fun
    | .chunk text => some text
    | .switchOff => none

/-- The chunks of a launch, in order. -/
def stderrChunks (as : List Action) : List DartString :=
  as.filterMap fun
    | .stderr text => some text
    | _ => none

/-! ### The buffer -/

/-- **One chunk**: what fits of it is kept. -/
theorem capture_take (text chunk : DartString) :
    capture (text.take stderrCap) chunk = (text ++ chunk).take stderrCap := by
  have hlength : (text.take stderrCap).length = min stderrCap text.length := List.length_take
  rw [List.take_append, capture, hlength]
  split_ifs with hroom hfits
  · -- the buffer is full
    have hfull : stderrCap - text.length = 0 := by omega
    rw [hfull, List.take_zero, List.append_nil]
  · have hmore : chunk.length ≤ stderrCap - text.length := by omega
    rw [List.take_of_length_le hmore]
  · have hsame : stderrCap - min stderrCap text.length = stderrCap - text.length := by omega
    rw [hsame]

/-- Once switched off, the buffer stays as it is. -/
theorem foldl_off (buf : DartString) (events : List StderrEvent) :
    events.foldl Capture.onEvent ⟨buf, false⟩ = ⟨buf, false⟩ := by
  induction events with
  | nil => rfl
  | cons e events ih => cases e <;> exact ih

theorem foldl_capture (text : DartString) (events : List StderrEvent) :
    (events.foldl Capture.onEvent ⟨text.take stderrCap, true⟩).stderrBuf =
      (text ++ (delivered events).flatten).take stderrCap := by
  induction events generalizing text with
  | nil => rw [delivered, List.flatten_nil, List.append_nil, List.foldl_nil]
  | cons e events ih =>
    cases e with
    | chunk c =>
      have hstep : Capture.onEvent ⟨text.take stderrCap, true⟩ (.chunk c) =
          ⟨(text ++ c).take stderrCap, true⟩ := by
        rw [← capture_take]
        rfl
      rw [List.foldl_cons, hstep, ih, delivered, List.flatten_cons, List.append_assoc]
    | switchOff =>
      have hoff : Capture.onEvent ⟨text.take stderrCap, true⟩ .switchOff =
          ⟨text.take stderrCap, false⟩ := rfl
      rw [List.foldl_cons, hoff, foldl_off, delivered, List.flatten_nil, List.append_nil]

theorem run_stderrBuf (events : List StderrEvent) :
    (Capture.run events).stderrBuf = (delivered events).flatten.take stderrCap :=
  foldl_capture [] events

/-! ### The launch -/

/-- A step of a launch is an event of the buffer, or nothing to it. -/
theorem step_stderr {c : LaunchCall} {s t : State} {a : Action} (h : step c s a = some t) :
    ∃ events, chunks events = stderrChunks [a] ∧
      (⟨t.stderrBuf, t.capturing⟩ : Capture) =
        events.foldl Capture.onEvent ⟨s.stderrBuf, s.capturing⟩ := by
  -- the decision switches off, or goes on to report a failure
  have hdecide : ∀ (u : State) (started : Option Dart.FlatpakInstance),
      u.stderrBuf = s.stderrBuf → u.capturing = s.capturing →
      ∃ events, chunks events = [] ∧ (⟨(u.decide started).stderrBuf,
        (u.decide started).capturing⟩ : Capture) =
          events.foldl Capture.onEvent ⟨s.stderrBuf, s.capturing⟩ := by
    intro u started hbuf hcapturing
    rcases exit_cases u with hlives | ⟨code, hexit, hcode⟩
    · rw [decide_survived hlives, ← hbuf]
      exact ⟨[.switchOff], rfl, rfl⟩
    · rw [decide_failed hexit hcode, ← hbuf, ← hcapturing]
      exact ⟨[], rfl, rfl⟩
  have hloop : ∀ (u : State) (past : Bool),
      u.stderrBuf = s.stderrBuf → u.capturing = s.capturing →
      ∃ events, chunks events = [] ∧ (⟨(u.loop past).stderrBuf,
        (u.loop past).capturing⟩ : Capture) =
          events.foldl Capture.onEvent ⟨s.stderrBuf, s.capturing⟩ := by
    intro u past hbuf hcapturing
    rw [State.loop]
    split
    · exact hdecide u none hbuf hcapturing
    · exact ⟨[], rfl, by rw [← hbuf, ← hcapturing]; rfl⟩
  cases step_cases h with
  | @stderr chunk hphase =>
    refine ⟨[.chunk chunk], rfl, ?_⟩
    show _ = if s.capturing then _ else _
    split <;> rfl
  | spawned hphase => exact hloop _ _ rfl rfl
  | wake hphase =>
    split
    · exact hdecide s none rfl rfl
    · exact ⟨[], rfl, rfl⟩
  | pollFound hphase hlist hfirst => exact hdecide s _ rfl rfl
  | pollNone hphase hlist hfirst => exact hloop s _ rfl rfl
  | _ => exact ⟨[], rfl, rfl⟩

/-- In every launch, the buffer is what such events make of it. -/
theorem run_stderr {c : LaunchCall} {as : List Action} {s : State}
    (h : Machine.run (step c) init as = some s) :
    ∃ events, chunks events = stderrChunks as ∧
      Capture.run events = ⟨s.stderrBuf, s.capturing⟩ := by
  refine Machine.run_invariant_history (I := fun as s => ∃ events,
    chunks events = stderrChunks as ∧ Capture.run events = ⟨s.stderrBuf, s.capturing⟩)
    (fun before s a t _ hstep hs => ?_) h ⟨[], rfl, rfl⟩
  obtain ⟨events, hchunks, hrun⟩ := hs
  obtain ⟨more, hmore, hnext⟩ := step_stderr hstep
  refine ⟨events ++ more, ?_, ?_⟩
  · rw [chunks, List.filterMap_append, stderrChunks, List.filterMap_append]
    exact congrArg₂ _ hchunks hmore
  · rw [Capture.run, List.foldl_append, hnext, ← hrun]
    rfl

/-- **Bounded capture**: for all chunks and every point at which capturing is switched
off, the buffer is the first 8192 code units of the text delivered while capturing, or
all of it; it depends on that text only, and never is longer.  The buffer of a launch
is such a one. -/
theorem stderrBuf_eq_take :
    (∀ events : List StderrEvent,
      (Capture.run events).stderrBuf =
        (delivered events).flatten.take (min 8192 (delivered events).flatten.length) ∧
      (Capture.run events).stderrBuf.length ≤ 8192 ∧
      ∀ events', (delivered events').flatten = (delivered events).flatten →
        (Capture.run events').stderrBuf = (Capture.run events).stderrBuf) ∧
    ∀ (c : LaunchCall) (as : List Action) (s : State),
      Machine.run (step c) init as = some s →
      ∃ events, chunks events = stderrChunks as ∧
        Capture.run events = ⟨s.stderrBuf, s.capturing⟩ := by
  refine ⟨fun events => ⟨?_, ?_, fun events' htext => ?_⟩, fun c as s h => run_stderr h⟩
  · rw [run_stderrBuf, ← List.take_eq_take_min]
    rfl
  · rw [run_stderrBuf]
    exact List.length_take_le _ _
  · rw [run_stderrBuf, run_stderrBuf, htext]

end HostLaunch
