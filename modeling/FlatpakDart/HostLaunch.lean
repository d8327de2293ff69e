/-
`HostFlatpak.launch` (`lib/src/host_flatpak.dart`): a launch on the host, from one
`await` to the next.

The exit of the spawned `flatpak run`, the timer and the answers of `flatpak ps` come
in any order.  An exit is looked at when the race is over and once more when the loop
is left; a `flatpak ps` that is asked after that is not followed by a look.

* `own_instance_iff` — an instance that was up before is reported only for a run that
  exited with 0, exactly if no listing names such an instance first when it must not;
* `failure_reported_iff` — a run that failed is reported, exactly if none fails before
  the last listing has succeeded.
-/
import FlatpakDart.DartString
import FlatpakDart.HostPs
import FlatpakDart.Machine

open Dart

namespace HostLaunch

/-! ### The call, and the texts of its errors -/

/-- The arguments of `launch`. -/
structure LaunchCall where
  appId : String
  arch : String
  branch : String
  commit : String

/-- `s.trim()`, of code units. -/
def trim (s : DartString) : DartString :=
  Fields.trim (fun u => DartText.isWhitespace (Char.ofNat u.toNat)) s

/-- `'$n'`. -/
def digits (n : ℤ) : DartString := DartString.lit (String.ofList (DartText.decimal n))

/-- `launch`, where `_start` throws a `ProcessException`. -/
def spawnError (c : LaunchCall) (message : DartString) : DartString :=
  .lit "flatpak-spawn --host failed for \"" ++ .lit c.appId ++ .lit "\": " ++ message

/-- `_runOnHost`, where `_run` throws one. -/
def runOnHostError (command : String) (message : DartString) : DartString :=
  .lit "flatpak-spawn --host " ++ .lit command ++ .lit " failed: " ++ message

/-- `listRunning`, where `flatpak ps` fails. -/
def psError (exitCode : ℤ) (stderr : DartString) : DartString :=
  .lit "flatpak ps on the host exited " ++ digits exitCode ++ .lit ": " ++ trim stderr

/-- `launch`, where `flatpak run` fails. -/
def runError (c : LaunchCall) (code : ℤ) (stderrBuf : DartString) : DartString :=
  .lit "flatpak run \"" ++ .lit c.appId ++ .lit "\" on the host exited " ++ digits code ++
    (if trim stderrBuf = [] then [] else .lit ": " ++ trim stderrBuf)

/-! ### What a launch reads -/

/-- `_stderrCap`. -/
def stderrCap : ℕ := 8 * 1024

/-- `stderrBuf` after one more chunk. -/
def capture (stderrBuf chunk : DartString) : DartString :=
  let room := stderrCap - stderrBuf.length
  if room = 0 then stderrBuf
  else stderrBuf ++ if chunk.length ≤ room then chunk else chunk.take room

/-- How a `flatpak ps` on the host ends. -/
inductive PsAnswer
  | processException (message : DartString)
  | completed (exitCode : ℤ) (stdout : String) (stderr : DartString)

/-- `listRunning`, with the message of the exception it throws. -/
def listRunning : PsAnswer → Except DartString (List FlatpakInstance)
  | .processException message => .error (runOnHostError "flatpak" message)
  | .completed exitCode stdout stderr =>
    if exitCode ≠ 0 then .error (psError exitCode stderr)
    else .ok (HostPs.parseHostPsOutput stdout)

/-- `_firstInstanceOf`. -/
def firstInstanceOf (appId : String) (instances : List FlatpakInstance) : Option FlatpakInstance :=
  instances.find? (·.appId = appId)

/-! ### The launch -/

/-- Where `launch` stands. -/
inductive Phase
  /-- at `await _start` -/
  | spawning
  /-- at `await Future.any` -/
  | racing
  /-- at `await listRunning()` in the loop -/
  | polling
  /-- at `await stderrDone`, with the code it will report -/
  | flushing (code : ℤ)
  /-- at `await listRunning()` behind the loop -/
  | lastPoll
  | returned (instance_ : FlatpakInstance)
  /-- a `FlatpakLaunchException` -/
  | threw (message : DartString)

/-- The variables of `launch`. -/
structure State where
  phase : Phase
  /-- `proc.pid` -/
  pid : ℤ
  /-- what runs on the host when the run is spawned -/
  up : List FlatpakInstance
  /-- set with `exited` -/
  exitCode : Option ℤ
  stderrBuf : DartString
  capturing : Bool

/-- The events of a launch.  `past` says whether the deadline is past where the loop
asks. -/
inductive Action
  | spawnFailed (message : DartString)
  | spawned (pid : ℤ) (up : List FlatpakInstance) (past : Bool)
  /-- `proc.exitCode` completes -/
  | exit (code : ℤ)
  | stderr (chunk : DartString)
  /-- `Future.any` completes -/
  | wake
  /-- `flatpak ps` completes -/
  | listed (answer : PsAnswer) (past : Bool)
  | stderrDone

def init : State := ⟨.spawning, 0, [], none, [], true⟩

/-- `exited`. -/
def State.exited (s : State) : Bool := s.exitCode.isSome

/-- The instance for a launch that is not listed yet. -/
def State.synthetic (s : State) (c : LaunchCall) : FlatpakInstance where
  appId := c.appId
  instanceId := ""
  arch := c.arch
  branch := c.branch
  commit := c.commit
  runtime := ""
  pid := s.pid
  childPid := 0
  isRunning := !s.exited

/-- From `capturing = false` on. -/
def State.settle (s : State) (started : Option FlatpakInstance) : State :=
  { s with
    capturing := false
    phase :=
      match started with
      | some instance_ => .returned instance_
      | none => .lastPoll }

/-- Behind the loop. -/
def State.decide (s : State) (started : Option FlatpakInstance) : State :=
  match s.exitCode with
  | some code => if code ≠ 0 then { s with phase := .flushing code } else s.settle started
  | none => s.settle started

/-- `while (!exited)`, and the look at the deadline. -/
def State.loop (s : State) (past : Bool) : State :=
  if s.exited ∨ past then s.decide none else { s with phase := .racing }

/-- From one `await` to the next; `none` where the event cannot come. -/
def step (c : LaunchCall) (s : State) : Action → Option State
  | .spawnFailed message =>
    match s.phase with
    | .spawning => some { s with phase := .threw (spawnError c message) }
    | _ => none
  | .spawned pid up past =>
    match s.phase with
    | .spawning => some ({ s with pid, up }.loop past)
    | _ => none
  | .exit code =>
    match s.phase with
    | .racing | .polling | .lastPoll =>
      if s.exited then none else some { s with exitCode := some code }
    | _ => none
  | .stderr chunk =>
    match s.phase with
    | .racing | .polling | .flushing _ | .lastPoll =>
      some (if s.capturing then { s with stderrBuf := capture s.stderrBuf chunk } else s)
    | _ => none
  | .wake =>
    match s.phase with
    | .racing => some (if s.exited then s.decide none else { s with phase := .polling })
    | _ => none
  | .listed answer past =>
    match s.phase, listRunning answer with
    | .polling, .error message => some { s with phase := .threw message }
    | .polling, .ok instances =>
      match firstInstanceOf c.appId instances with
      | some started => some (s.decide (some started))
      | none => some (s.loop past)
    | .lastPoll, .error message => some { s with phase := .threw message }
    | .lastPoll, .ok instances =>
      some { s with
        phase := .returned ((firstInstanceOf c.appId instances).getD (s.synthetic c)) }
    | _, _ => none
  | .stderrDone =>
    match s.phase with
    | .flushing code => some { s with phase := .threw (runError c code s.stderrBuf) }
    | _ => none

/-! ### The steps -/

/-- `launch` has neither returned nor thrown. -/
def Phase.Pending : Phase → Prop
  | .returned _ => False
  | .threw _ => False
  | _ => True

/-- What an event does, where it can come. -/
inductive Steps (c : LaunchCall) (s : State) : Action → State → Prop
  | spawnFailed {message : DartString} (h : s.phase = .spawning) :
      Steps c s (.spawnFailed message) { s with phase := .threw (spawnError c message) }
  | spawned {pid : ℤ} {up : List FlatpakInstance} {past : Bool} (h : s.phase = .spawning) :
      Steps c s (.spawned pid up past) ({ s with pid, up }.loop past)
  | exit {code : ℤ} (h : s.phase.Pending) (hexit : s.exitCode = none) :
      Steps c s (.exit code) { s with exitCode := some code }
  | stderr {chunk : DartString} (h : s.phase.Pending) : Steps c s (.stderr chunk)
      (if s.capturing then { s with stderrBuf := capture s.stderrBuf chunk } else s)
  | wake (h : s.phase = .racing) :
      Steps c s .wake (if s.exited then s.decide none else { s with phase := .polling })
  | listThrew {answer : PsAnswer} {past : Bool} {message : DartString}
      (h : s.phase = .polling ∨ s.phase = .lastPoll) (hlist : listRunning answer = .error message) :
      Steps c s (.listed answer past) { s with phase := .threw message }
  | pollFound {answer : PsAnswer} {past : Bool} {instances : List FlatpakInstance}
      {started : FlatpakInstance} (h : s.phase = .polling)
      (hlist : listRunning answer = .ok instances)
      (hfirst : firstInstanceOf c.appId instances = some started) :
      Steps c s (.listed answer past) (s.decide (some started))
  | pollNone {answer : PsAnswer} {past : Bool} {instances : List FlatpakInstance}
      (h : s.phase = .polling) (hlist : listRunning answer = .ok instances)
      (hfirst : firstInstanceOf c.appId instances = none) :
      Steps c s (.listed answer past) (s.loop past)
  | lastListed {answer : PsAnswer} {past : Bool} {instances : List FlatpakInstance}
      (h : s.phase = .lastPoll) (hlist : listRunning answer = .ok instances) :
      Steps c s (.listed answer past) { s with
        phase := .returned ((firstInstanceOf c.appId instances).getD (s.synthetic c)) }
  | stderrDone {code : ℤ} (h : s.phase = .flushing code) :
      Steps c s .stderrDone { s with phase := .threw (runError c code s.stderrBuf) }

theorem step_cases {c : LaunchCall} {s t : State} {a : Action} (h : step c s a = some t) :
    Steps c s a t := by
  cases a with
  | exit code =>
    simp only [step] at h
    split at h
    case h_4 => exact absurd h (by simp)
    all_goals
      next hphase =>
        split at h
        · exact absurd h (by simp)
        · next hexited =>
          obtain rfl := Option.some_inj.mp h
          exact .exit (by rw [hphase]; trivial) (by simpa [State.exited] using hexited)
  | stderr chunk =>
    simp only [step] at h
    split at h
    case h_5 => exact absurd h (by simp)
    all_goals
      next hphase =>
        obtain rfl := Option.some_inj.mp h
        exact .stderr (by rw [hphase]; trivial)
  | listed answer past =>
    simp only [step] at h
    split at h
    · next hphase hlist =>
      obtain rfl := Option.some_inj.mp h
      exact .listThrew (.inl hphase) hlist
    · next hphase hlist =>
      split at h
      · next hfirst =>
        obtain rfl := Option.some_inj.mp h
        exact .pollFound hphase hlist hfirst
      · next hfirst =>
        obtain rfl := Option.some_inj.mp h
        exact .pollNone hphase hlist hfirst
    · next hphase hlist =>
      obtain rfl := Option.some_inj.mp h
      exact .listThrew (.inr hphase) hlist
    · next hphase hlist =>
      obtain rfl := Option.some_inj.mp h
      exact .lastListed hphase hlist
    · exact absurd h (by simp)
  | _ =>
    -- one place where the event can come
    simp only [step] at h
    split at h
    · next hphase =>
      obtain rfl := Option.some_inj.mp h
      constructor
      exact hphase
    · exact absurd h (by simp)

/-! ### The decision -/

section decide

variable {c : LaunchCall} {s : State}

theorem decide_failed {code : ℤ} (hexit : s.exitCode = some code) (hcode : code ≠ 0)
    (started : Option FlatpakInstance) : s.decide started = { s with phase := .flushing code } := by
  rw [State.decide, hexit]
  exact if_pos hcode

theorem decide_survived (hexit : s.exitCode = none ∨ s.exitCode = some 0)
    (started : Option FlatpakInstance) : s.decide started = s.settle started := by
  rcases hexit with hexit | hexit
  · rw [State.decide, hexit]
  · rw [State.decide, hexit]
    exact if_neg (not_not.mpr rfl)

theorem exit_cases (s : State) : (s.exitCode = none ∨ s.exitCode = some 0) ∨
    ∃ code, s.exitCode = some code ∧ code ≠ 0 := by
  cases hexit : s.exitCode with
  | none => exact .inl (.inl rfl)
  | some code =>
    by_cases hcode : code = 0
    · exact .inl (.inr (by rw [hcode]))
    · exact .inr ⟨code, rfl, hcode⟩

theorem decide_pending (s : State) : (s.decide none).phase.Pending := by
  rcases exit_cases s with hexit | ⟨code, hexit, hcode⟩
  · rw [decide_survived hexit]
    trivial
  · rw [decide_failed hexit hcode]
    trivial

theorem loop_pending (s : State) (past : Bool) : (s.loop past).phase.Pending := by
  rw [State.loop]
  split
  · exact decide_pending s
  · trivial

/-- `launch` has not returned: it is at an `await`, or has thrown. -/
def Phase.Unreturned (p : Phase) : Prop := p.Pending ∨ ∃ message, p = .threw message

theorem Phase.Unreturned.ne_returned {p : Phase} (h : p.Unreturned) (instance_ : FlatpakInstance) :
    p ≠ .returned instance_ := by
  rintro rfl
  rcases h with h | ⟨_, h⟩
  · exact h
  · cases h

/-- What an event comes to: a listing that names an instance of the app, in the loop;
a listing behind it; or nothing that `launch` returns. -/
inductive Outcome (c : LaunchCall) (s : State) : Action → State → Prop
  | found {answer : PsAnswer} {past : Bool} {instances : List FlatpakInstance}
      {started : FlatpakInstance} (h : s.phase = .polling)
      (hlist : listRunning answer = .ok instances)
      (hfirst : firstInstanceOf c.appId instances = some started) :
      Outcome c s (.listed answer past) (s.decide (some started))
  | last {answer : PsAnswer} {past : Bool} {instances : List FlatpakInstance}
      (h : s.phase = .lastPoll) (hlist : listRunning answer = .ok instances) :
      Outcome c s (.listed answer past) { s with
        phase := .returned ((firstInstanceOf c.appId instances).getD (s.synthetic c)) }
  | unreturned {a : Action} {t : State} (ht : t.phase.Unreturned)
      (ha : ∀ answer past instances, a = .listed answer past →
        listRunning answer = .ok instances →
          s.phase = .polling ∧ firstInstanceOf c.appId instances = none) : Outcome c s a t

theorem step_outcome {t : State} {a : Action} (h : step c s a = some t) : Outcome c s a t := by
  cases step_cases h with
  | pollFound hphase hlist hfirst => exact .found hphase hlist hfirst
  | lastListed hphase hlist => exact .last hphase hlist
  | pollNone hphase hlist hfirst =>
    refine .unreturned (.inl (loop_pending _ _)) fun answer past instances ha hlist' => ?_
    obtain ⟨rfl, rfl⟩ := Action.listed.inj ha
    obtain rfl := Except.ok.inj (hlist.symm.trans hlist')
    exact ⟨hphase, hfirst⟩
  | listThrew _ hlist =>
    refine .unreturned (.inr ⟨_, rfl⟩) fun answer past instances ha hlist' => ?_
    obtain ⟨rfl, rfl⟩ := Action.listed.inj ha
    exact absurd (hlist.symm.trans hlist') (by simp)
  | spawned _ => exact .unreturned (.inl (loop_pending _ _)) fun _ _ _ ha => nomatch ha
  | exit hphase _ => exact .unreturned (.inl hphase) fun _ _ _ ha => nomatch ha
  | stderr hphase =>
    refine .unreturned (.inl ?_) fun _ _ _ ha => nomatch ha
    split
    · exact hphase
    · exact hphase
  | wake _ =>
    refine .unreturned (.inl ?_) fun _ _ _ ha => nomatch ha
    split
    · exact decide_pending s
    · trivial
  | spawnFailed _ => exact .unreturned (.inr ⟨_, rfl⟩) fun _ _ _ ha => nomatch ha
  | stderrDone _ => exact .unreturned (.inr ⟨_, rfl⟩) fun _ _ _ ha => nomatch ha

end decide

/-! ### The launch's own instance -/

/-- A registered instance that was up when the run was spawned. -/
def State.WasUp (s : State) (i : FlatpakInstance) : Prop :=
  i.instanceId ≠ "" ∧ ∃ j ∈ s.up, j.instanceId = i.instanceId

/-- An instance that was up is reported only where the run exited with 0, so never
while it runs. -/
def OwnInstance (s : State) : Prop :=
  ∀ i, s.phase = .returned i → s.WasUp i → s.exitCode = some 0

/-- The first listed instance of the app was up before only if the run has exited, and
if it has exited with 0 where the listing is the last one. -/
def FirstIsNew (c : LaunchCall) (s : State) : Action → Prop
  | .listed answer _ => ∀ instances first, listRunning answer = .ok instances →
      firstInstanceOf c.appId instances = some first → s.WasUp first →
        (s.phase = .polling → s.exited) ∧ (s.phase = .lastPoll → s.exitCode = some 0)
  | _ => True

theorem synthetic_not_wasUp (c : LaunchCall) (s : State) : ¬ s.WasUp (s.synthetic c) :=
  fun h => h.1 rfl

/-- In the loop, the instance is reported unless the run has failed. -/
theorem decide_ownInstance (s : State) (started : FlatpakInstance) :
    OwnInstance (s.decide (some started)) ↔ (s.WasUp started → s.exited) := by
  rcases exit_cases s with (hexit | hexit) | ⟨code, hexit, hcode⟩
  · rw [decide_survived (.inl hexit)]
    constructor
    · intro h hup
      have hzero : s.exitCode = some 0 := h started rfl hup
      exact absurd (hexit.symm.trans hzero) (by simp)
    · intro h i hi hup
      obtain rfl := Phase.returned.inj hi
      have hexited := h hup
      rw [State.exited, hexit] at hexited
      cases hexited
  · rw [decide_survived (.inr hexit)]
    exact iff_of_true (fun _ _ _ => hexit) fun _ => by rw [State.exited, hexit]; rfl
  · rw [decide_failed hexit hcode]
    exact iff_of_true (fun _ hi => nomatch hi) fun _ => by rw [State.exited, hexit]; rfl

theorem step_ownInstance {c : LaunchCall} {s t : State} {a : Action} (h : step c s a = some t) :
    OwnInstance t ↔ FirstIsNew c s a := by
  cases step_outcome h with
  | @found answer past instances started hphase hlist hfirst =>
    rw [decide_ownInstance]
    constructor
    · intro h instances' first hlist' hfirst' hup
      obtain rfl := Except.ok.inj (hlist.symm.trans hlist')
      obtain rfl := Option.some_inj.mp (hfirst.symm.trans hfirst')
      exact ⟨fun _ => h hup, fun hlast => absurd (hphase.symm.trans hlast) (by simp)⟩
    · exact fun h hup => (h _ _ hlist hfirst hup).1 hphase
  | last hphase hlist =>
    constructor
    · intro h instances first hlist' hfirst hup
      obtain rfl := Except.ok.inj (hlist.symm.trans hlist')
      refine ⟨fun hpoll => absurd (hphase.symm.trans hpoll) (by simp), fun _ => h first ?_ hup⟩
      rw [hfirst, Option.getD_some]
    · intro h i hi hup
      obtain rfl := Phase.returned.inj hi
      cases hfirst : firstInstanceOf c.appId _ with
      | none =>
        rw [hfirst] at hup
        exact absurd hup (synthetic_not_wasUp c s)
      | some first =>
        rw [hfirst] at hup
        exact (h _ first hlist hfirst hup).2 hphase
  | unreturned ht ha =>
    refine iff_of_true (fun i hi => absurd hi (ht.ne_returned i)) ?_
    cases a with
    | listed answer past =>
      intro instances first hlist hfirst
      rw [(ha _ _ _ rfl hlist).2] at hfirst
      cases hfirst
    | _ => trivial

/-- **The launch's own instance**: all along a launch, an instance that was up before
the spawn is reported only for a run that exited with 0, exactly if every listing that
is read names a new one first, or the run has exited as it must have. -/
theorem own_instance_iff (c : LaunchCall) (as : List Action) :
    (∀ u, Machine.Reaches (step c) init as u → OwnInstance u) ↔
      ∀ s a t, Machine.Takes (step c) init as s a t → FirstIsNew c s a :=
  Machine.reaches_iff_takes (fun _ hi => absurd hi (by simp [init])) as
    fun _ _ _ htakes _ => step_ownInstance htakes.step_eq

/-- A line of `flatpak ps`, for an instance that is up. -/
def olderRow : String := "org.x.Y\t9988\tx86_64\tstable\t\t\t\t70\t71\n"

def older : FlatpakInstance := ⟨"org.x.Y", "9988", "x86_64", "stable", "", "", 70, 71, true⟩

theorem listRunning_olderRow : listRunning (.completed 0 olderRow []) = .ok [older] := by
  have hparse : HostPs.parseHostPsOutput olderRow = [older] := by decide +kernel
  rw [listRunning, if_neg (not_not.mpr rfl), hparse]

theorem step_pollFound {c : LaunchCall} {s : State} {answer : PsAnswer} {past : Bool}
    {instances : List FlatpakInstance} {started : FlatpakInstance} (hphase : s.phase = .polling)
    (hlist : listRunning answer = .ok instances)
    (hfirst : firstInstanceOf c.appId instances = some started) :
    step c s (.listed answer past) = some (s.decide (some started)) := by
  simp only [step, hphase, hlist, hfirst]

/-- The app is up when it is launched again, and the first listing names only the
instance that was up. -/
theorem older_instance_returned : ¬ ∀ (c : LaunchCall) (as : List Action) (u : State),
    Machine.run (step c) init as = some u → OwnInstance u := by
  intro h
  set c : LaunchCall := ⟨"org.x.Y", "", "", ""⟩
  set polling : State := ⟨.polling, 800, [older], none, [], true⟩
  have hrun : Machine.run (step c) init
      [.spawned 800 [older] false, .wake, .listed (.completed 0 olderRow []) false] =
        some (polling.settle (some older)) := by
    refine Machine.run_cons_eq_some.mpr ⟨⟨.racing, 800, [older], none, [], true⟩, rfl, ?_⟩
    refine Machine.run_cons_eq_some.mpr ⟨polling, rfl, ?_⟩
    rw [Machine.run_singleton]
    exact step_pollFound rfl listRunning_olderRow rfl
  have hzero : (none : Option ℤ) = some 0 :=
    h c _ _ hrun older rfl ⟨by decide, older, List.mem_singleton_self _, rfl⟩
  cases hzero

/-! ### A failed run -/

/-- After a failure was seen, `launch` does not return; once it is over, it has thrown. -/
def FailureReported (s : State) : Prop :=
  ∀ code, s.exitCode = some code → code ≠ 0 → s.phase.Unreturned

/-- The run has not failed when the last listing succeeds. -/
def NoLateFailure (s : State) : Action → Prop
  | .listed answer _ => s.phase = .lastPoll → ∀ instances, listRunning answer = .ok instances →
      ∀ code, s.exitCode = some code → code = 0
  | _ => True

theorem step_failureReported {c : LaunchCall} {s t : State} {a : Action}
    (h : step c s a = some t) : FailureReported t ↔ NoLateFailure s a := by
  cases step_outcome h with
  | found hphase _ _ =>
    refine iff_of_true ?_ fun hlast => absurd (hphase.symm.trans hlast) (by simp)
    -- the exit code is looked at after the listing
    rcases exit_cases s with (hexit | hexit) | ⟨code, hexit, hcode⟩
    · rw [decide_survived (.inl hexit)]
      intro code hcode _
      exact absurd (hexit.symm.trans hcode) (by simp)
    · rw [decide_survived (.inr hexit)]
      intro code hcode hne
      exact absurd (Option.some_inj.mp (hexit.symm.trans hcode)).symm hne
    · rw [decide_failed hexit hcode]
      exact fun _ _ _ => .inl trivial
  | last hphase hlist =>
    constructor
    · intro h _ instances _ code hcode
      by_contra hne
      exact (h code hcode hne).ne_returned _ rfl
    · intro h code hcode hne
      exact absurd (h hphase _ hlist code hcode) hne
  | unreturned ht ha =>
    refine iff_of_true (fun _ _ _ => ht) ?_
    cases a with
    | listed answer past =>
      intro hlast instances hlist
      have hpoll : s.phase = .polling := (ha _ _ _ rfl hlist).1
      exact absurd (hlast.symm.trans hpoll) (by simp)
    | _ => trivial

/-- **Failures**: all along a launch, a run that was seen to fail does not end in an
instance, exactly if the run has not failed by the time the last listing succeeds. -/
theorem failure_reported_iff (c : LaunchCall) (as : List Action) :
    (∀ u, Machine.Reaches (step c) init as u → FailureReported u) ↔
      ∀ s a t, Machine.Takes (step c) init as s a t → NoLateFailure s a :=
  Machine.reaches_iff_takes (fun _ hcode => absurd hcode (by simp [init])) as
    fun _ _ _ htakes _ => step_failureReported htakes.step_eq

/-- The run fails while `flatpak ps` is asked for the last time. -/
def lateFailure : List Action :=
  [.spawned 800 [] false, .wake, .listed (.completed 0 "" []) true, .exit 1,
    .listed (.completed 0 "" []) true]

theorem late_failure_returns : ¬ ∀ (c : LaunchCall) (as : List Action) (u : State),
    Machine.run (step c) init as = some u → FailureReported u := by
  intro h
  have hfail := h ⟨"org.x.Y", "", "", ""⟩ lateFailure _ rfl 1 rfl (by decide)
  exact hfail.ne_returned _ rfl

end HostLaunch
