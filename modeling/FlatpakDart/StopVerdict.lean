/-
What `stop` tells its caller, in every interleaving
(`native/src/installation_reader.cpp`: `InstallationReader::stop`).

Any number of `stop` calls go through the instances they were given, each at its own
pace, while the kernel ends processes and the threads of earlier signals go on.  An
instance is asked whether it runs when its turn comes; the call of
`signal_instance_process` that is made for it is one of `InstanceSignal`.

* `run_calledWith` — a `stop` has its instances before it or behind it;
* `signals_accounted` — every signal is of a call that one `stop` made for a running
  instance of its app, `SIGTERM` once and then at most one `SIGKILL`; a `stop` counts
  the calls of its own that signalled;
* `stop_verdict` — it completes if somebody was signalled, says "not found" if it saw no
  instance run, and says that it failed if it saw one run and signals nobody, then or later.
-/
import FlatpakDart.ClientRequests
import FlatpakDart.InstanceSignal

open Libflatpak Dart
open Machine (run run_cons_eq_some run_invariant)

namespace InstanceSignal

/-! ### What one call sends -/

def Call.Termed (c : Call) : Prop := ∃ q, c.sent = [(.term, q)]

/-- `SIGTERM`, and perhaps `SIGKILL` after it. -/
def Call.Stopped (c : Call) : Prop := c.Termed ∨ ∃ q q', c.sent = [(.term, q), (.kill, q')]

/-- What the phase of a call says about the signals it has sent. -/
def Call.PhaseSent (c : Call) : Phase → Prop
  | .idle | .matched | .opening | .fallback => c.returned = none ∧ c.sent = []
  | .pinned q | .checked q => (c.returned = none ∧ c.sent = []) ∧ q.pid = c.pid
  | .escalating q | .expired q => (c.returned = some true ∧ c.Termed) ∧ q.pid = c.pid
  | .sleeping | .probed | .verified => c.returned = some true ∧ c.Termed
  | .closing _ => c.returned = some true ∧ c.Stopped
  | .done => c.returned = some false ∧ c.sent = [] ∨ c.returned = some true ∧ c.Stopped

structure Call.SentInv (c : Call) : Prop where
  phase : c.PhaseSent c.phase
  pids : ∀ e ∈ c.sent, e.2.pid = c.pid

theorem Call.idle_sent : Call.idle.SentInv := ⟨⟨rfl, rfl⟩, by simp [Call.idle]⟩

theorem Call.SentInv.goto {c : Call} (hc : c.SentInv) {phase : Phase}
    (hphase : c.PhaseSent phase) : (c.goto phase).SentInv :=
  ⟨by cases phase <;> exact hphase, hc.pids⟩

/-- A call that has sent nothing returns false. -/
theorem Call.SentInv.failed {c : Call} (hsent : c.sent = []) : (c.return false .done).SentInv where
  phase := .inl ⟨rfl, hsent⟩
  pids := by simp [Call.return, hsent]

/-- The first signal, to somebody who has the pid. -/
theorem Call.SentInv.term {c : Call} (hsent : c.sent = []) {q : Process} (hq : q.pid = c.pid)
    {phase : Phase} (hphase : ((c.sending .term q).return true phase).Termed →
      ((c.sending .term q).return true phase).PhaseSent phase) :
    ((c.sending .term q).return true phase).SentInv where
  phase := hphase ⟨q, by simp [Call.return, Call.sending, hsent]⟩
  pids := by simp [Call.return, Call.sending, hsent, hq]

/-- The second one. -/
theorem Call.SentInv.kill {c : Call} (hc : c.SentInv) (hreturned : c.returned = some true)
    (htermed : c.Termed) {q : Process} (hq : q.pid = c.pid) {phase : Phase}
    (hphase : ((c.sending .kill q).goto phase).Stopped →
      ((c.sending .kill q).goto phase).returned = some true →
      ((c.sending .kill q).goto phase).PhaseSent phase) :
    ((c.sending .kill q).goto phase).SentInv where
  phase := by
    obtain ⟨p, hp⟩ := htermed
    exact hphase (.inr ⟨p, q, by simp [Call.goto, Call.sending, hp]⟩) hreturned
  pids e he := by
    rcases List.mem_append.mp he with he | he
    · exact hc.pids e he
    · rw [List.mem_singleton.mp he]
      exact hq

theorem Call.SentInv.pidfdOpen {kn : Kernel} {c : Call} (hc : c.SentInv)
    (hphase : c.phase = .opening) : (c.pidfdOpen kn).SentInv := by
  have hquiet := hc.phase
  rw [hphase] at hquiet
  rw [Call.pidfdOpen]
  cases hq : kn.holder c.pid with
  | none => exact .failed hquiet.2
  | some q =>
    refine ⟨?_, hc.pids⟩
    have hpid : q.pid = c.pid := Tenancy.Table.slot_eq_of_holds hq
    dsimp only [Call.goto]
    split
    · exact ⟨hquiet, hpid⟩
    · exact ⟨hquiet, hpid⟩

/-- **One step** of a call. -/
theorem Call.step_sent {kn : Kernel} {c c' : Call} {a : CallAction} (h : c.step kn a = some c')
    (hc : c.SentInv) : c'.SentInv := by
  have hphase := hc.phase
  cases step_cases h with
  | stopMatches => exact ⟨⟨rfl, rfl⟩, by simp [Call.stopMatches, Call.idle]⟩
  | readStart hp =>
    rw [hp] at hphase
    exact ⟨hphase, hc.pids⟩
  | pidfdOpen hp => exact hc.pidfdOpen hp
  | pidfdUnavailable hp =>
    rw [hp] at hphase
    exact ⟨hphase, hc.pids⟩
  | same hp =>
    rw [hp] at hphase
    exact hc.goto hphase
  | other hp =>
    rw [hp] at hphase
    exact .failed hphase.1.2
  -- the first signal, which decides what the call returns
  | sendTerm hp =>
    rw [hp] at hphase
    exact .term hphase.1.2 hphase.2 fun htermed => ⟨⟨rfl, htermed⟩, hphase.2⟩
  | termFailed hp =>
    rw [hp] at hphase
    exact .failed hphase.1.2
  | poll hp hnext =>
    rw [hp] at hphase
    rcases hnext with rfl | rfl
    · exact hc.goto hphase
    · exact hc.goto ⟨hphase.1.1, .inl hphase.1.2⟩
  -- a second signal only follows the first
  | sendKill hp =>
    rw [hp] at hphase
    exact hc.kill hphase.1.1 hphase.1.2 hphase.2 fun hstopped hreturned => ⟨hreturned, hstopped⟩
  | sendKillFailed hp =>
    rw [hp] at hphase
    exact hc.goto ⟨hphase.1.1, .inl hphase.1.2⟩
  | close hp =>
    rw [hp] at hphase
    exact hc.goto (.inr hphase)
  -- on the fallback path the signal goes to whoever has the pid
  | killTerm hp hq =>
    rw [hp] at hphase
    exact .term hphase.2 (Tenancy.Table.slot_eq_of_holds hq) fun htermed => ⟨rfl, htermed⟩
  | killTermFailed hp =>
    rw [hp] at hphase
    exact .failed hphase.2
  | probe hp hnext =>
    rw [hp] at hphase
    simp only [List.mem_cons, List.not_mem_nil, or_false] at hnext
    rcases hnext with rfl | rfl | rfl
    · exact hc.goto hphase
    · exact hc.goto hphase
    · exact hc.goto (.inr ⟨hphase.1, .inl hphase.2⟩)
  | recheck hp hnext =>
    rw [hp] at hphase
    simp only [List.mem_cons, List.not_mem_nil, or_false] at hnext
    rcases hnext with rfl | rfl
    · exact hc.goto hphase
    · exact hc.goto (.inr ⟨hphase.1, .inl hphase.2⟩)
  | killKill hp hq =>
    rw [hp] at hphase
    exact hc.kill hphase.1 hphase.2 (Tenancy.Table.slot_eq_of_holds hq)
      fun hstopped hreturned => .inr ⟨hreturned, hstopped⟩
  | killKillFailed hp =>
    rw [hp] at hphase
    exact hc.goto (.inr ⟨hphase.1, .inl hphase.2⟩)

/-- A call returns true once it has signalled, and only then. -/
theorem Call.SentInv.sent_cases {c : Call} (hc : c.SentInv) :
    c.returned = some true ∧ c.Stopped ∨ c.returned ≠ some true ∧ c.sent = [] := by
  have hphase := hc.phase
  cases hp : c.phase with
  | idle | matched | opening | fallback =>
    rw [hp] at hphase
    exact .inr ⟨by simp [hphase.1], hphase.2⟩
  | pinned q | checked q =>
    rw [hp] at hphase
    exact .inr ⟨by simp [hphase.1.1], hphase.1.2⟩
  | escalating q | expired q =>
    rw [hp] at hphase
    exact .inl ⟨hphase.1.1, .inl hphase.1.2⟩
  | sleeping | probed | verified =>
    rw [hp] at hphase
    exact .inl ⟨hphase.1, .inl hphase.2⟩
  | closing q =>
    rw [hp] at hphase
    exact .inl hphase
  | done =>
    rw [hp] at hphase
    rcases hphase with hfailed | hstopped
    · exact .inr ⟨by simp [hfailed.1], hfailed.2⟩
    · exact .inl hstopped

theorem Call.Stopped.sent_ne {c : Call} (h : c.Stopped) : c.sent ≠ [] := by
  rcases h with ⟨q, hq⟩ | ⟨q, q', hq⟩ <;> simp [hq]

theorem Call.SentInv.returned_iff {c : Call} (hc : c.SentInv) :
    c.returned = some true ↔ c.sent ≠ [] := by
  rcases hc.sent_cases with ⟨hreturned, hstopped⟩ | ⟨hreturned, hsent⟩
  · exact iff_of_true hreturned hstopped.sent_ne
  · exact iff_of_false hreturned (not_not.mpr hsent)

/-- A call that returned false has no thread. -/
theorem Call.SentInv.refused_done {c : Call} (hc : c.SentInv) (h : c.returned = some false) :
    c.phase = .done := by
  have hphase := hc.phase
  cases hp : c.phase with
  | done => rfl
  | idle | matched | opening | fallback | sleeping | probed | verified | closing q =>
    rw [hp] at hphase
    exact absurd (h.symm.trans hphase.1) (by simp)
  | pinned q | checked q | escalating q | expired q =>
    rw [hp] at hphase
    exact absurd (h.symm.trans hphase.1.1) (by simp)

theorem Call.step_done {kn : Kernel} {c c' : Call} {a : CallAction} (h : c.phase = .done) :
    c.step kn a ≠ some c' := by
  intro hstep
  cases step_cases hstep <;> simp_all

/-- What a call has returned stays. -/
theorem Call.step_returned {kn : Kernel} {c c' : Call} {a : CallAction}
    (h : c.step kn a = some c') (hc : c.SentInv) {ok : Bool} (hok : c.returned = some ok) :
    c'.returned = some ok := by
  have hphase := hc.phase
  cases step_cases h with
  | stopMatches hp | readStart hp | pidfdOpen hp | pidfdUnavailable hp | killTerm hp
    | killTermFailed hp =>
    rw [hp] at hphase
    exact absurd (hok.symm.trans hphase.1) (by simp)
  | same hp | other hp | sendTerm hp | termFailed hp =>
    rw [hp] at hphase
    exact absurd (hok.symm.trans hphase.1.1) (by simp)
  | poll | sendKill | sendKillFailed | close | probe | recheck | killKill | killKillFailed =>
    exact hok

/-- A call has its pid from the start. -/
theorem Call.step_pid {kn : Kernel} {c c' : Call} {a : CallAction} (h : c.step kn a = some c')
    (hidle : c.phase ≠ .idle) : c'.pid = c.pid ∧ c'.phase ≠ .idle := by
  cases step_cases h with
  | stopMatches hp => exact absurd hp hidle
  | pidfdOpen =>
    rw [Call.pidfdOpen]
    split
    · exact ⟨rfl, Phase.noConfusion⟩
    · dsimp only [Call.goto]
      split <;> exact ⟨rfl, Phase.noConfusion⟩
  | poll _ hnext => rcases hnext with rfl | rfl <;> exact ⟨rfl, Phase.noConfusion⟩
  | probe _ hnext =>
    simp only [List.mem_cons, List.not_mem_nil, or_false] at hnext
    rcases hnext with rfl | rfl | rfl <;> exact ⟨rfl, Phase.noConfusion⟩
  | recheck _ hnext =>
    simp only [List.mem_cons, List.not_mem_nil, or_false] at hnext
    rcases hnext with rfl | rfl <;> exact ⟨rfl, Phase.noConfusion⟩
  | _ => exact ⟨rfl, Phase.noConfusion⟩

end InstanceSignal

namespace StopVerdict

open InstanceSignal (Call CallAction KernelAction)
open InstallationReader (stopTarget postError postOpError postSentinel)

/-! ### The calls of `stop` -/

/-- Where a call of `stop` is; `signalling` names the call of
`signal_instance_process` that it waits for. -/
inductive Phase
  | idle
  | loop (rest : List Instance)
  | signalling (k : ℕ) (inst : Instance) (rest : List Instance)
  | done

def Phase.isDone : Phase → Bool
  | .done => true
  | _ => false

theorem Phase.isDone_iff {phase : Phase} : phase.isDone = true ↔ phase = .done := by
  cases phase <;> simp [isDone]

/-- One call of `stop`.  Not in the source is `looked`: the instances it is done with, as
they were when their turn came, and what the signalling of each answered. -/
structure Stop where
  app : CString
  phase : Phase
  matched : ℕ
  signalled : ℕ
  looked : List (Instance × Bool)
  posted : List (List UInt8)

/-- The signals, who made each of the calls and for which instance, and the calls of
`stop`. -/
structure State where
  signals : InstanceSignal.State
  made : List (ℕ × Instance)
  stops : ℕ → Stop

def init : State := ⟨.init, [], fun _ => ⟨.ofString "", .idle, 0, 0, [], []⟩⟩

inductive Action
  | kernel (a : KernelAction)
  /-- a step of `signal_instance_process` or of the thread it leaves -/
  | call (k : ℕ) (a : CallAction)
  | stop (i : ℕ) (app : CString) (instances : Option (List Instance))
  | look (i : ℕ) (running : Bool)
  | resume (i : ℕ)
  | finish (i : ℕ)

def State.setStop (s : State) (i : ℕ) (x : Stop) : State :=
  { s with stops := Function.update s.stops i x }

/-- The instance is the app's, and it runs. -/
def Stop.wants (x : Stop) (inst : Instance) : Bool := inst.app = some x.app && inst.isRunning

/-- The pid that is signalled. -/
def targetPid (inst : Instance) : ℕ := (stopTarget inst).toInt.toNat

/-- Done with an instance. -/
def Stop.next (x : Stop) (inst : Instance) (ok : Bool) (rest : List Instance) : Stop :=
  { x with
    signalled := x.signalled + ok.toNat
    looked := x.looked ++ [(inst, ok)]
    phase := .loop rest }

/-- The body of the loop, up to the call of `signal_instance_process`. -/
def State.look (s : State) (i : ℕ) (inst : Instance) (rest : List Instance) : Option State :=
  let x := s.stops i
  if x.wants inst then
    let x := { x with matched := x.matched + 1 }
    if 0 < stopTarget inst then
      (InstanceSignal.step s.signals
          (.call s.made.length (.stopMatches (targetPid inst)))).map fun signals =>
        { signals
          made := s.made ++ [(i, inst)]
          stops := Function.update s.stops i
            { x with phase := .signalling s.made.length inst rest } }
    else some (s.setStop i (x.next inst false rest))
  else some (s.setStop i (x.next inst false rest))

/-- What is posted after the loop. -/
def Stop.frames (x : Stop) : List (List UInt8) :=
  if x.matched = 0 then [postError (.ofString "no running instance for app_id")]
  else if x.signalled = 0 then
    [postOpError (.ofString "matched running instance(s) but could not signal any")]
  else [postSentinel]

/-- A call of `signal_instance_process` is only made by `stop`. -/
def isCall : CallAction → Bool
  | .stopMatches _ => true
  | _ => false

def step (s : State) : Action → Option State
  | .kernel a => (InstanceSignal.step s.signals (.kernel a)).map ({ s with signals := · })
  | .call k a =>
    if isCall a then none
    else (InstanceSignal.step s.signals (.call k a)).map ({ s with signals := · })
  | .stop i app instances =>
    match (s.stops i).phase with
    | .idle => some (s.setStop i ⟨app, .loop (instances.getD []), 0, 0, [], []⟩)
    | _ => none
  | .look i running =>
    match (s.stops i).phase with
    | .loop (inst :: rest) => s.look i { inst with isRunning := running } rest
    | _ => none
  | .resume i =>
    match (s.stops i).phase with
    | .signalling k inst rest =>
      (s.signals.calls k).returned.map fun ok => s.setStop i ((s.stops i).next inst ok rest)
    | _ => none
  | .finish i =>
    match (s.stops i).phase with
    | .loop [] =>
      some (s.setStop i { s.stops i with phase := .done, posted := (s.stops i).frames })
    | _ => none

/-- The steps, one constructor for each way a step can go. -/
inductive Step (s : State) : Action → State → Prop
  | kernel {a : KernelAction} {signals : InstanceSignal.State}
      (h : InstanceSignal.step s.signals (.kernel a) = some signals) :
      Step s (.kernel a) { s with signals }
  | call {k : ℕ} {a : CallAction} {signals : InstanceSignal.State} (ha : isCall a = false)
      (h : InstanceSignal.step s.signals (.call k a) = some signals) :
      Step s (.call k a) { s with signals }
  | stop {i : ℕ} {app : CString} {instances : Option (List Instance)}
      (hphase : (s.stops i).phase = .idle) :
      Step s (.stop i app instances)
        (s.setStop i ⟨app, .loop (instances.getD []), 0, 0, [], []⟩)
  | signal {i : ℕ} {running : Bool} {inst : Instance} {rest : List Instance}
      {signals : InstanceSignal.State} (hphase : (s.stops i).phase = .loop (inst :: rest))
      (hwants : (s.stops i).wants { inst with isRunning := running } = true)
      (htarget : 0 < stopTarget inst)
      (h : InstanceSignal.step s.signals
        (.call s.made.length (.stopMatches (targetPid inst))) = some signals) :
      Step s (.look i running)
        { signals
          made := s.made ++ [(i, { inst with isRunning := running })]
          stops := Function.update s.stops i
            { s.stops i with
              matched := (s.stops i).matched + 1
              phase := .signalling s.made.length { inst with isRunning := running } rest } }
  | noTarget {i : ℕ} {running : Bool} {inst : Instance} {rest : List Instance}
      (hphase : (s.stops i).phase = .loop (inst :: rest))
      (hwants : (s.stops i).wants { inst with isRunning := running } = true)
      (htarget : ¬ 0 < stopTarget inst) :
      Step s (.look i running)
        (s.setStop i (Stop.next { s.stops i with matched := (s.stops i).matched + 1 }
          { inst with isRunning := running } false rest))
  | skip {i : ℕ} {running : Bool} {inst : Instance} {rest : List Instance}
      (hphase : (s.stops i).phase = .loop (inst :: rest))
      (hwants : (s.stops i).wants { inst with isRunning := running } = false) :
      Step s (.look i running)
        (s.setStop i ((s.stops i).next { inst with isRunning := running } false rest))
  | resume {i k : ℕ} {inst : Instance} {rest : List Instance} {ok : Bool}
      (hphase : (s.stops i).phase = .signalling k inst rest)
      (hok : (s.signals.calls k).returned = some ok) :
      Step s (.resume i) (s.setStop i ((s.stops i).next inst ok rest))
  | finish {i : ℕ} (hphase : (s.stops i).phase = .loop []) :
      Step s (.finish i)
        (s.setStop i { s.stops i with phase := .done, posted := (s.stops i).frames })

theorem step_cases {s t : State} {a : Action} (h : step s a = some t) : Step s a t := by
  cases a with
  | kernel a =>
    obtain ⟨signals, hsignals, rfl⟩ := Option.map_eq_some_iff.mp h
    exact .kernel hsignals
  | call k a =>
    obtain ⟨ha, h⟩ := Option.ite_none_left_eq_some.mp h
    obtain ⟨signals, hsignals, rfl⟩ := Option.map_eq_some_iff.mp h
    exact .call (by simpa using ha) hsignals
  | stop i app instances =>
    simp only [step] at h
    split at h
    · next hphase =>
      obtain rfl := Option.some_inj.mp h
      exact .stop hphase
    · exact absurd h (by simp)
  -- the next listed instance: it is none of the app, has no process, or is signalled
  | look i running =>
    simp only [step] at h
    split at h
    · next inst rest hphase =>
      simp only [State.look] at h
      split at h
      · next hwants =>
        split at h
        · next htarget =>
          obtain ⟨signals, hsignals, rfl⟩ := Option.map_eq_some_iff.mp h
          exact .signal hphase hwants htarget hsignals
        · next htarget =>
          obtain rfl := Option.some_inj.mp h
          exact .noTarget hphase hwants htarget
      · next hwants =>
        obtain rfl := Option.some_inj.mp h
        exact .skip hphase (by simpa using hwants)
    · exact absurd h (by simp)
  | resume i =>
    simp only [step] at h
    split at h
    · next hphase =>
      obtain ⟨ok, hok, rfl⟩ := Option.map_eq_some_iff.mp h
      exact .resume hphase hok
    · exact absurd h (by simp)
  | finish i =>
    simp only [step] at h
    split at h
    · next hphase =>
      obtain rfl := Option.some_inj.mp h
      exact .finish hphase
    · exact absurd h (by simp)

/-! ### What every run keeps -/

/-- The calls that this `stop` has made. -/
def callsOf (made : List (ℕ × Instance)) (i : ℕ) : List ℕ :=
  (List.range made.length).filter fun k => (made[k]?).map Prod.fst = some i

theorem mem_callsOf {made : List (ℕ × Instance)} {i k : ℕ} :
    k ∈ callsOf made i ↔ ∃ inst, made[k]? = some (i, inst) := by
  simp only [callsOf, List.mem_filter, List.mem_range, decide_eq_true_eq, Option.map_eq_some_iff,
    Prod.exists, exists_and_right, exists_eq_right]
  constructor
  · exact And.right
  · rintro ⟨inst, hinst⟩
    exact ⟨(List.getElem?_eq_some_iff.mp hinst).1, inst, hinst⟩

theorem callsOf_append (made : List (ℕ × Instance)) (i j : ℕ) (inst : Instance) :
    callsOf (made ++ [(i, inst)]) j =
      callsOf made j ++ if i = j then [made.length] else [] := by
  have hbefore : (List.range made.length).filter
      (fun k => ((made ++ [(i, inst)])[k]?).map Prod.fst = some j) = callsOf made j :=
    List.filter_congr fun k hk => by rw [List.getElem?_append_left (List.mem_range.mp hk)]
  rw [callsOf, List.length_append, List.length_singleton, List.range_succ, List.filter_append,
    hbefore]
  congr 1
  by_cases hij : i = j <;> simp [hij]

/-- What a `stop` has counted: the instances it is done with, and the calls `ks`, which have
returned; it has matched `pending` more. -/
structure Stop.Tally (signals : InstanceSignal.State) (x : Stop) (ks : List ℕ) (pending : ℕ) :
    Prop where
  matched : x.matched = (x.looked.filter fun l => x.wants l.1).length + pending
  signalled : x.signalled =
    (x.looked.filter fun l => x.wants l.1 && (0 < stopTarget l.1 && l.2)).length
  called : ks.length ≤ (x.looked.filter fun l => x.wants l.1).length
  answered : ∀ k ∈ ks, ∃ ok, (signals.calls k).returned = some ok
  counted : x.signalled = ks.countP fun k => (signals.calls k).returned = some true

/-- What the phase of a `stop` that made the calls `ks` says about it. -/
def Stop.PhaseInv (signals : InstanceSignal.State) (x : Stop) (ks : List ℕ) : Phase → Prop
  | .idle => ks = []
  | .loop _ => x.Tally signals ks 0
  | .signalling k inst _ => (x.wants inst = true ∧ 0 < stopTarget inst) ∧
      ∃ front, ks = front ++ [k] ∧ x.Tally signals front 1
  | .done => x.Tally signals ks 0 ∧ x.posted = x.frames

/-- What a call of `signal_instance_process` was made for. -/
structure MadeFor (c : Call) (x : Stop) (inst : Instance) : Prop where
  wants : x.wants inst = true
  target : 0 < stopTarget inst
  pid : c.pid = targetPid inst
  begun : c.phase ≠ .idle

structure Inv (s : State) : Prop where
  unmade : ∀ k, s.made.length ≤ k → s.signals.calls k = .idle
  sent : ∀ k, (s.signals.calls k).SentInv
  madeFor : ∀ k i inst, s.made[k]? = some (i, inst) →
    MadeFor (s.signals.calls k) (s.stops i) inst
  stops : ∀ i, (s.stops i).PhaseInv s.signals (callsOf s.made i) (s.stops i).phase

theorem Inv.atPhase {s : State} (hs : Inv s) {i : ℕ} {phase : Phase}
    (h : (s.stops i).phase = phase) :
    (s.stops i).PhaseInv s.signals (callsOf s.made i) phase := h ▸ hs.stops i

theorem init_inv : Inv init where
  unmade _ _ := rfl
  sent _ := Call.idle_sent
  madeFor := nofun
  stops _ := rfl

section Steps

variable {s : State} {i k : ℕ} {inst : Instance} {ks : List ℕ} {x : Stop}
  {signals u v : InstanceSignal.State}

/-- What was counted does not change while the calls go on. -/
theorem Stop.Tally.goOn {pending : ℕ} (h : x.Tally u ks pending)
    (hret : ∀ k ∈ ks, ∀ ok, (u.calls k).returned = some ok → (v.calls k).returned = some ok) :
    x.Tally v ks pending where
  matched := h.matched
  signalled := h.signalled
  called := h.called
  answered k hk := by
    obtain ⟨ok, hok⟩ := h.answered k hk
    exact ⟨ok, hret k hk ok hok⟩
  counted := by
    rw [h.counted]
    refine List.countP_congr fun k hk => ?_
    obtain ⟨ok, hok⟩ := h.answered k hk
    rw [hok, hret k hk ok hok]

theorem Stop.PhaseInv.goOn {phase : Phase} (h : x.PhaseInv u ks phase)
    (hret : ∀ k ∈ ks, ∀ ok, (u.calls k).returned = some ok → (v.calls k).returned = some ok) :
    x.PhaseInv v ks phase := by
  cases phase with
  | idle => exact h
  | loop rest => exact Stop.Tally.goOn h hret
  | signalling k inst rest =>
    obtain ⟨hwants, front, rfl, htally⟩ := h
    exact ⟨hwants, front, rfl, htally.goOn fun k hk => hret k (List.mem_append_left _ hk)⟩
  | done => exact ⟨h.1.goOn hret, h.2⟩

/-- The instance whose call has returned. -/
theorem Stop.Tally.resume (h : x.Tally signals ks 1) (hwants : x.wants inst = true)
    (htarget : 0 < stopTarget inst) {ok : Bool} (hok : (signals.calls k).returned = some ok)
    (rest : List Instance) : (x.next inst ok rest).Tally signals (ks ++ [k]) 0 where
  matched := by
    show x.matched = ((x.looked ++ [(inst, ok)]).filter fun l => x.wants l.1).length + 0
    rw [List.filter_append, List.length_append, h.matched]
    simp [hwants]
  signalled := by
    show x.signalled + ok.toNat = ((x.looked ++ [(inst, ok)]).filter fun l =>
      x.wants l.1 && (0 < stopTarget l.1 && l.2)).length
    rw [List.filter_append, List.length_append, h.signalled]
    cases ok <;> simp [hwants, htarget]
  called := by
    show (ks ++ [k]).length ≤ ((x.looked ++ [(inst, ok)]).filter fun l => x.wants l.1).length
    rw [List.filter_append, List.length_append, List.length_append]
    exact Nat.add_le_add h.called (by simp [hwants])
  answered j hj := by
    rcases List.mem_append.mp hj with hj | hj
    · exact h.answered j hj
    · exact ⟨ok, List.mem_singleton.mp hj ▸ hok⟩
  counted := by
    show x.signalled + ok.toNat = _
    rw [List.countP_append, h.counted, List.countP_singleton, hok]
    cases ok <;> simp

/-- An instance that nothing is done about. -/
theorem Stop.Tally.pass (h : x.Tally signals ks 0) {matched : ℕ}
    (hmatched : matched = x.matched + (x.wants inst).toNat) (rest : List Instance) :
    (Stop.next { x with matched } inst false rest).Tally signals ks 0 where
  matched := by
    show matched = ((x.looked ++ [(inst, false)]).filter fun l => x.wants l.1).length + 0
    rw [List.filter_append, List.length_append, hmatched, h.matched]
    cases hwants : x.wants inst <;> simp [hwants]
  signalled := by
    show x.signalled + 0 = ((x.looked ++ [(inst, false)]).filter fun l =>
      x.wants l.1 && (0 < stopTarget l.1 && l.2)).length
    rw [List.filter_append, List.length_append, h.signalled]
    simp
  called := by
    show ks.length ≤ ((x.looked ++ [(inst, false)]).filter fun l => x.wants l.1).length
    rw [List.filter_append, List.length_append]
    exact h.called.trans (Nat.le_add_right _ _)
  answered := h.answered
  counted := h.counted

/-- It runs, and has no pid to be signalled by. -/
theorem Stop.Tally.noTarget (h : x.Tally signals ks 0) (hwants : x.wants inst = true)
    (rest : List Instance) :
    (Stop.next { x with matched := x.matched + 1 } inst false rest).Tally signals ks 0 :=
  h.pass (by rw [hwants]; rfl) rest

/-- It is another app's, or does not run. -/
theorem Stop.Tally.skip (h : x.Tally signals ks 0) (hwants : x.wants inst = false)
    (rest : List Instance) : (x.next inst false rest).Tally signals ks 0 :=
  h.pass (by rw [hwants]; rfl) rest

/-- The signals go on, and nobody calls. -/
structure GoesOn (u v : InstanceSignal.State) : Prop where
  sent : ∀ k, (u.calls k).SentInv → (v.calls k).SentInv
  returned : ∀ k ok, (u.calls k).SentInv → (u.calls k).returned = some ok →
    (v.calls k).returned = some ok
  idle : ∀ k, u.calls k = .idle → v.calls k = .idle
  pid : ∀ k, (u.calls k).phase ≠ .idle →
    (v.calls k).pid = (u.calls k).pid ∧ (v.calls k).phase ≠ .idle

/-- An idle call waits for `stop`. -/
theorem not_idle_of_step {kn : InstanceSignal.Kernel} {c c' : Call} {a : CallAction}
    (h : c.step kn a = some c') (ha : isCall a = false) : c.phase ≠ .idle := by
  intro hidle
  cases Call.step_cases h with
  | stopMatches => exact absurd ha (by simp [isCall])
  | _ => simp_all

theorem kernel_goesOn {a : KernelAction} (h : InstanceSignal.step u (.kernel a) = some v) :
    GoesOn u v := by
  obtain ⟨kn, -, rfl⟩ := Option.map_eq_some_iff.mp h
  exact ⟨fun _ => id, fun _ _ _ => id, fun _ => id, fun _ hk => ⟨rfl, hk⟩⟩

theorem call_goesOn {a : CallAction} (ha : isCall a = false)
    (h : InstanceSignal.step u (.call k a) = some v) : GoesOn u v := by
  obtain ⟨c, hc, rfl⟩ := Option.map_eq_some_iff.mp h
  have hidle := not_idle_of_step hc ha
  refine ⟨fun j hj => ?_, fun j ok hj hok => ?_, fun j hj => ?_, fun j hj => ?_⟩
  · by_cases hjk : j = k
    · subst hjk
      simpa using Call.step_sent hc hj
    · simpa [Function.update_of_ne hjk] using hj
  · by_cases hjk : j = k
    · subst hjk
      simpa using Call.step_returned hc hj hok
    · simpa [Function.update_of_ne hjk] using hok
  · by_cases hjk : j = k
    · subst hjk
      exact absurd (congrArg Call.phase hj) hidle
    · simpa [Function.update_of_ne hjk] using hj
  · by_cases hjk : j = k
    · subst hjk
      simpa using Call.step_pid hc hidle
    · simpa [Function.update_of_ne hjk] using hj

/-- Only the signals go on. -/
theorem Inv.goesOn (hs : Inv s) (h : GoesOn s.signals signals) : Inv { s with signals } where
  unmade k hk := h.idle k (hs.unmade k hk)
  sent k := h.sent k (hs.sent k)
  madeFor k i inst hk := by
    obtain ⟨hwants, htarget, hpid, hbegun⟩ := hs.madeFor k i inst hk
    exact ⟨hwants, htarget, (h.pid k hbegun).1.trans hpid, (h.pid k hbegun).2⟩
  stops i := (hs.stops i).goOn fun k _ ok hok => h.returned k ok (hs.sent k) hok

/-- Only one `stop` goes on. -/
theorem Inv.setStop (hs : Inv s) (happ : x.app = (s.stops i).app ∨ callsOf s.made i = [])
    (hx : x.PhaseInv s.signals (callsOf s.made i) x.phase) : Inv (s.setStop i x) where
  unmade := hs.unmade
  sent := hs.sent
  madeFor k j inst hk := by
    obtain ⟨hwants, htarget, hpid, hbegun⟩ := hs.madeFor k j inst hk
    refine ⟨?_, htarget, hpid, hbegun⟩
    dsimp only [State.setStop]
    by_cases hji : j = i
    · subst hji
      rcases happ with happ | hnone
      · rwa [Function.update_self, Stop.wants, happ]
      · have hmem : k ∈ callsOf s.made j := mem_callsOf.mpr ⟨inst, hk⟩
        rw [hnone] at hmem
        exact absurd hmem List.not_mem_nil
    · rwa [Function.update_of_ne hji]
  stops j := by
    dsimp only [State.setStop]
    by_cases hji : j = i
    · subst hji
      rwa [Function.update_self]
    · rw [Function.update_of_ne hji]
      exact hs.stops j

/-- A call is made for an instance. -/
theorem Inv.signal (hs : Inv s) {rest front : List Instance}
    (hphase : (s.stops i).phase = .loop front) (hwants : (s.stops i).wants inst = true)
    (htarget : 0 < stopTarget inst)
    (h : InstanceSignal.step s.signals
      (.call s.made.length (.stopMatches (targetPid inst))) = some signals) :
    Inv
      { signals
        made := s.made ++ [(i, inst)]
        stops := Function.update s.stops i
          { s.stops i with
            matched := (s.stops i).matched + 1
            phase := .signalling s.made.length inst rest } } := by
  obtain ⟨c, hc, rfl⟩ := Option.map_eq_some_iff.mp h
  obtain ⟨-, rfl⟩ := Option.ite_none_right_eq_some.mp hc |>.imp_right Option.some_inj.mp
  have hold {j k : ℕ} (hk : k ∈ callsOf s.made j) : k ≠ s.made.length := by
    obtain ⟨inst', hinst'⟩ := mem_callsOf.mp hk
    exact (List.getElem?_eq_some_iff.mp hinst').1.ne
  -- the app of a `stop` stays as it is
  have hstays (j : ℕ) (l : Instance) : (Function.update s.stops i { s.stops i with
      matched := (s.stops i).matched + 1
      phase := .signalling s.made.length inst rest } j).wants l = (s.stops j).wants l := by
    by_cases hji : j = i
    · subst hji
      rw [Function.update_self]
      rfl
    · rw [Function.update_of_ne hji]
  refine ⟨fun k hk => ?_, fun k => ?_, fun k j inst' hk => ?_, fun j => ?_⟩
  · rw [List.length_append, List.length_singleton] at hk
    dsimp only
    rw [Function.update_of_ne (by omega)]
    exact hs.unmade k (by omega)
  · dsimp only
    by_cases hk : k = s.made.length
    · rw [hk, Function.update_self]
      exact Call.step_sent hc (hs.sent _)
    · rw [Function.update_of_ne hk]
      exact hs.sent k
  · dsimp only
    by_cases hlt : k < s.made.length
    · rw [List.getElem?_append_left hlt] at hk
      obtain ⟨hwants', htarget', hpid, hbegun⟩ := hs.madeFor k j inst' hk
      rw [Function.update_of_ne hlt.ne]
      exact ⟨(hstays j inst').trans hwants', htarget', hpid, hbegun⟩
    · obtain ⟨rfl, heq⟩ : k = s.made.length ∧ (i, inst) = (j, inst') := by
        rw [List.getElem?_append_right (by omega), List.getElem?_singleton] at hk
        split at hk
        · exact ⟨by omega, Option.some_inj.mp hk⟩
        · exact absurd hk (by simp)
      obtain ⟨rfl, rfl⟩ := Prod.mk.inj heq
      rw [Function.update_self]
      exact ⟨(hstays i inst).trans hwants, htarget, rfl, nofun⟩
  · have htally := hs.atPhase hphase
    have hret (j : ℕ) : ∀ k ∈ callsOf s.made j, ∀ ok,
        (s.signals.calls k).returned = some ok →
          (Function.update s.signals.calls s.made.length
            (Call.stopMatches s.signals.kernel (targetPid inst)) k).returned = some ok :=
      fun k hk ok hok => by rw [Function.update_of_ne (hold hk), hok]
    dsimp only
    rw [callsOf_append]
    by_cases hji : j = i
    · subst hji
      rw [Function.update_self, if_pos rfl]
      obtain ⟨hmatched, hsignalled, hcalled, hanswered, hcounted⟩ := Stop.Tally.goOn
        (v := ⟨s.signals.kernel, Function.update s.signals.calls s.made.length
          (Call.stopMatches s.signals.kernel (targetPid inst))⟩) htally (hret j)
      exact ⟨⟨hwants, htarget⟩, callsOf s.made j, rfl,
        ⟨congrArg (· + 1) hmatched, hsignalled, hcalled, hanswered, hcounted⟩⟩
    · rw [Function.update_of_ne hji, if_neg (Ne.symm hji), List.append_nil]
      exact (hs.stops j).goOn (hret j)

/-- **One step.** -/
theorem step_inv {t : State} {a : Action} (h : step s a = some t) (hs : Inv s) : Inv t := by
  cases step_cases h with
  | kernel hkernel => exact hs.goesOn (kernel_goesOn hkernel)
  | call ha hcall => exact hs.goesOn (call_goesOn ha hcall)
  | stop hphase =>
    have hnone := hs.atPhase hphase
    refine hs.setStop (.inr hnone) ?_
    show Stop.Tally _ _ _ 0
    rw [hnone]
    exact ⟨rfl, rfl, le_rfl, by simp, rfl⟩
  | signal hphase hwants htarget hcall => exact hs.signal hphase hwants htarget hcall
  | noTarget hphase hwants =>
    exact hs.setStop (.inl rfl) (Stop.Tally.noTarget (hs.atPhase hphase) hwants _)
  | skip hphase hwants =>
    exact hs.setStop (.inl rfl) (Stop.Tally.skip (hs.atPhase hphase) hwants _)
  | resume hphase hok =>
    obtain ⟨⟨hwants, htarget⟩, front, hfront, htally⟩ := hs.atPhase hphase
    refine hs.setStop (.inl rfl) ?_
    rw [hfront]
    exact htally.resume hwants htarget hok _
  | finish hphase =>
    obtain ⟨hmatched, hsignalled, hcalled, hanswered, hcounted⟩ := hs.atPhase hphase
    exact hs.setStop (.inl rfl) ⟨⟨hmatched, hsignalled, hcalled, hanswered, hcounted⟩, rfl⟩

theorem run_inv {as : List Action} {t : State} (h : run step s as = some t) (hs : Inv s) :
    Inv t := run_invariant step_inv h hs

end Steps

/-! ### Whose signals they are -/

/-- Everything that was signalled, and what each `stop` counts of it. -/
structure Accounted (s : State) : Prop where
  /-- a call that signalled was made by one `stop`, for an instance of its app that ran, and
  reached who has the pid of that instance -/
  owned : ∀ k, (s.signals.calls k).sent ≠ [] → ∃ i inst, s.made[k]? = some (i, inst) ∧
    inst.app = some (s.stops i).app ∧ inst.isRunning = true ∧
      ∀ e ∈ (s.signals.calls k).sent, e.2.pid = targetPid inst
  /-- it sent `SIGTERM`, and at most one `SIGKILL` after that -/
  stopped : ∀ k, (s.signals.calls k).sent = [] ∨ (s.signals.calls k).Stopped
  /-- a `stop` that is over has counted its instances that ran, and its calls that signalled -/
  counted : ∀ i, (s.stops i).phase = .done →
    (s.stops i).matched = ((s.stops i).looked.filter fun l => (s.stops i).wants l.1).length ∧
    (s.stops i).signalled =
      ((callsOf s.made i).filter fun k => (s.signals.calls k).sent ≠ []).length

theorem Stop.wants_iff {x : Stop} {inst : Instance} :
    x.wants inst = true ↔ inst.app = some x.app ∧ inst.isRunning = true := by
  rw [Stop.wants, Bool.and_eq_true, decide_eq_true_eq]

theorem Inv.signals_own {s : State} (hs : Inv s) : Accounted s where
  owned k hk := by
    have hmade : k < s.made.length := by
      by_contra hge
      exact hk (congrArg Call.sent (hs.unmade k (by omega)))
    obtain ⟨⟨i, inst⟩, hinst⟩ : ∃ m, s.made[k]? = some m :=
      ⟨_, List.getElem?_eq_getElem hmade⟩
    obtain ⟨hwants, -, hpid, -⟩ := hs.madeFor k i inst hinst
    obtain ⟨happ, hrunning⟩ := Stop.wants_iff.mp hwants
    exact ⟨i, inst, hinst, happ, hrunning, fun e he => ((hs.sent k).pids e he).trans hpid⟩
  stopped k := by
    rcases (hs.sent k).sent_cases with ⟨-, hstopped⟩ | ⟨-, hsent⟩
    · exact .inr hstopped
    · exact .inl hsent
  counted i hdone := by
    have htally := (hs.atPhase hdone).1
    refine ⟨htally.matched, htally.counted.trans ?_⟩
    rw [List.countP_eq_length_filter]
    refine congrArg List.length (List.filter_congr fun k _ => ?_)
    rw [decide_eq_decide]
    exact (hs.sent k).returned_iff

/-- **Nobody is signalled but on behalf of one `stop`**, for an instance of its app that it
saw run. -/
theorem signals_accounted {s : State} {as : List Action} (h : run step init as = some s) :
    Accounted s := (run_inv h init_inv).signals_own

/-- An instance whose app has not been given a pid yet. -/
def starting : Instance := ⟨some (.ofString "org.x.Y"), none, none, none, none, none, 7, 0, true⟩

/-- One instance is gone when its turn comes; `kill` reaches the other. -/
def stopRun : List Action :=
  [.kernel (.spawn ⟨7, 100⟩),
    .stop 0 (.ofString "org.x.Y") (some [{ starting with pid := 5 }, starting]),
    .look 0 false, .look 0 true, .call 0 (.readStart none), .call 0 .pidfdUnavailable,
    .call 0 (.killTerm true), .resume 0, .finish 0]

theorem stopRun_done : ∃ s, run step init stopRun = some s ∧ (s.stops 0).phase = .done ∧
    (s.signals.calls 0).sent = [(.term, ⟨7, 100⟩)] ∧ (s.stops 0).signalled = 1 := by
  obtain ⟨s, hrun, hs⟩ := Machine.exists_run step init stopRun
    (p := fun s => (s.stops 0).phase.isDone ∧
      (s.signals.calls 0).sent = [(.term, ⟨7, 100⟩)] ∧ (s.stops 0).signalled = 1)
    (by decide +kernel)
  obtain ⟨hdone, hsent, hsignalled⟩ := of_decide_eq_true hs
  exact ⟨s, hrun, Phase.isDone_iff.mp hdone, hsent, hsignalled⟩

theorem signals_accounted_one : ∃ s, run step init stopRun = some s ∧ Accounted s ∧
    (s.signals.calls 0).sent = [(.term, ⟨7, 100⟩)] := by
  obtain ⟨s, hrun, -, hsent, -⟩ := stopRun_done
  exact ⟨s, hrun, signals_accounted hrun, hsent⟩

/-! ### What the caller is told -/

/-- The exception, or the completion, that goes with what was done. -/
inductive Verdict (s : State) (i : ℕ) : Except FlatpakException Unit → Prop
  /-- a process was sent `SIGTERM` -/
  | stopped {k : ℕ} (hk : k ∈ callsOf s.made i) (hsent : (s.signals.calls k).Stopped) :
      Verdict s i (.ok ())
  /-- no instance of the app ran when its turn came, and nobody was called for -/
  | notRunning {message : String}
      (hnone : ∀ l ∈ (s.stops i).looked, l.1.app = some (s.stops i).app → l.1.isRunning = false)
      (hcalls : callsOf s.made i = []) : Verdict s i (.error (.notFound message))
  /-- one ran, and nobody is signalled, now or in what is still to come -/
  | failed {message : String}
      (hsome : ∃ l ∈ (s.stops i).looked,
        l.1.app = some (s.stops i).app ∧ l.1.isRunning = true)
      (hquiet : ∀ bs t, run step s bs = some t → ∀ k ∈ callsOf t.made i,
        (t.signals.calls k).sent = []) : Verdict s i (.error (.stop message))

/-- What is posted is what `stop` posts of the instances as they were looked at. -/
theorem Stop.frames_eq {signals : InstanceSignal.State} {x : Stop} {ks : List ℕ}
    (h : x.Tally signals ks 0) : x.frames = InstallationReader.stop (some x.looked) x.app := by
  have hmatched : x.matched = (x.looked.filter fun l => x.wants l.1).length := h.matched
  have hsignalled : x.signalled = ((x.looked.filter fun l => x.wants l.1).filter
      fun l => 0 < stopTarget l.1 && l.2).length := by
    rw [h.signalled, List.filter_filter]
    refine congrArg List.length (List.filter_congr fun l _ => ?_)
    rw [Bool.and_comm]
  rw [Stop.frames, hmatched, hsignalled, CString.ofString_lit (by decide +kernel),
    CString.ofString_lit (by decide +kernel)]
  rfl

/-- A call that returned false sends nothing more. -/
theorem refused_stays {s t : State} {k : ℕ} {as : List Action} (h : run step s as = some t)
    (hs : Inv s) (hok : (s.signals.calls k).returned = some false) :
    t.signals.calls k = s.signals.calls k := by
  have hdone := (hs.sent k).refused_done hok
  refine run_invariant (I := fun u => u.signals.calls k = s.signals.calls k) ?_ h rfl
  intro u a v hstep hu
  have hmoves {j : ℕ} {b : CallAction} {signals : InstanceSignal.State}
      (hb : InstanceSignal.step u.signals (.call j b) = some signals) :
      signals.calls k = s.signals.calls k := by
    obtain ⟨c, hc, rfl⟩ := Option.map_eq_some_iff.mp hb
    by_cases hkj : k = j
    · subst hkj
      rw [hu] at hc
      exact absurd hc (Call.step_done hdone)
    · exact (Function.update_of_ne hkj _ _).trans hu
  cases step_cases hstep with
  | kernel hkernel =>
    obtain ⟨kn, -, rfl⟩ := Option.map_eq_some_iff.mp hkernel
    exact hu
  | call _ hcall => exact hmoves hcall
  | signal _ _ _ hcall => exact hmoves hcall
  | _ => exact hu

/-- A `stop` that is over makes no more calls. -/
theorem done_stays {s t : State} {i : ℕ} {as : List Action} (h : run step s as = some t)
    (hdone : (s.stops i).phase = .done) : callsOf t.made i = callsOf s.made i := by
  have hkeeps : (t.stops i).phase = .done ∧ callsOf t.made i = callsOf s.made i := by
    refine run_invariant (I := fun u => (u.stops i).phase = .done ∧
      callsOf u.made i = callsOf s.made i) ?_ h ⟨hdone, rfl⟩
    intro u a v hstep hu
    have hother {j : ℕ} {phase : Phase} (hj : (u.stops j).phase = phase) (hne : phase ≠ .done) :
        i ≠ j := by
      rintro rfl
      exact hne (hj.symm.trans hu.1)
    have hset {j : ℕ} {x : Stop} (hij : i ≠ j) : ((u.setStop j x).stops i).phase = .done :=
      (congrArg Stop.phase (Function.update_of_ne hij _ _)).trans hu.1
    cases step_cases hstep with
    | kernel | call => exact hu
    | signal hphase =>
      have hij := hother hphase nofun
      refine ⟨(congrArg Stop.phase (Function.update_of_ne hij _ _)).trans hu.1, ?_⟩
      rw [callsOf_append, if_neg (Ne.symm hij), List.append_nil, hu.2]
    | stop hphase | noTarget hphase | skip hphase | resume hphase | finish hphase =>
      exact ⟨hset (hother hphase nofun), hu.2⟩
  exact hkeeps.2

/-! ### What was looked at -/

/-- An instance, but for whether it runs. -/
def listedAs (inst : Instance) : Instance := { inst with isRunning := false }

/-- The instances whose turn is not over. -/
def Phase.ahead : Phase → List Instance
  | .idle | .done => []
  | .loop rest => rest
  | .signalling _ inst rest => inst :: rest

/-- What a `stop` was called with: its app, and the instances it has looked at and those it
has still to look at. -/
def Stop.CalledWith (x : Stop) (app : CString) (instances : Option (List Instance)) : Prop :=
  x.app = app ∧
    (x.looked.map Prod.fst ++ x.phase.ahead).map listedAs = (instances.getD []).map listedAs

/-- A `stop` that is not idle was called, and has its instances before it or behind it. -/
theorem run_calledWith {as : List Action} {s : State} (h : run step init as = some s) (i : ℕ) :
    (s.stops i).phase = .idle ∨ ∃ app instances, .stop i app instances ∈ as ∧
      (s.stops i).CalledWith app instances := by
  refine Machine.run_invariant_history (I := fun as s => (s.stops i).phase = .idle ∨
    ∃ app instances, .stop i app instances ∈ as ∧ (s.stops i).CalledWith app instances)
    (fun before u a v _ hstep hu => ?_) h (.inl rfl)
  -- the same `stop`, one instance on
  have hgoesOn {x : Stop} (hphase : (u.stops i).phase ≠ .idle) (happ : x.app = (u.stops i).app)
      (hsame : (x.looked.map Prod.fst ++ x.phase.ahead).map listedAs =
        ((u.stops i).looked.map Prod.fst ++ (u.stops i).phase.ahead).map listedAs) :
      ∃ app instances, .stop i app instances ∈ before ++ [a] ∧ x.CalledWith app instances := by
    obtain ⟨app, instances, hmem, hcalled⟩ := hu.resolve_left hphase
    exact ⟨app, instances, List.mem_append_left _ hmem, happ.trans hcalled.1,
      hsame.trans hcalled.2⟩
  have hold (hsame : v.stops i = u.stops i) : (v.stops i).phase = .idle ∨ ∃ app instances,
      .stop i app instances ∈ before ++ [a] ∧ (v.stops i).CalledWith app instances := by
    rw [hsame]
    exact hu.imp_right fun ⟨app, instances, hmem, hcalled⟩ =>
      ⟨app, instances, List.mem_append_left _ hmem, hcalled⟩
  cases step_cases hstep with
  | kernel | call => exact hold rfl
  | @stop j app instances hphase =>
    by_cases hji : i = j
    · subst hji
      refine .inr ⟨app, instances, by simp, ?_⟩
      simp [Stop.CalledWith, State.setStop, Phase.ahead]
    · exact hold (Function.update_of_ne hji _ _)
  | @signal j running inst rest signals hphase =>
    by_cases hji : i = j
    · subst hji
      refine .inr (hgoesOn (by simp [hphase]) ?_ ?_)
      · simp
      · simp [hphase, Phase.ahead, listedAs]
    · exact hold (Function.update_of_ne hji _ _)
  | @noTarget j running inst rest hphase | @skip j running inst rest hphase =>
    by_cases hji : i = j
    · subst hji
      refine .inr (hgoesOn (by simp [hphase]) ?_ ?_)
      · simp [State.setStop, Stop.next]
      · simp [State.setStop, Stop.next, hphase, Phase.ahead, listedAs]
    · exact hold (Function.update_of_ne hji _ _)
  | @resume j ok k inst rest hphase =>
    by_cases hji : i = j
    · subst hji
      refine .inr (hgoesOn (by simp [hphase]) ?_ ?_)
      · simp [State.setStop, Stop.next]
      · simp [State.setStop, Stop.next, hphase, Phase.ahead]
    · exact hold (Function.update_of_ne hji _ _)
  | @finish j hphase =>
    by_cases hji : i = j
    · subst hji
      refine .inr (hgoesOn (by simp [hphase]) ?_ ?_)
      · simp [State.setStop]
      · simp [State.setStop, hphase, Phase.ahead]
    · exact hold (Function.update_of_ne hji _ _)

/-! ### The future -/

open FlatpakClient (future future_failed sendable_lit text_lit)

/-- A message is heard as it is. -/
theorem future_stop_error {disc : UInt8} (exception : String → FlatpakException)
    (hbranch : ∀ o {frame : List UInt8}, frame.head? = some disc →
      FlatpakInstallation.stop.handle o frame = o.fail exception frame) {text : String}
    (h : 0 ∉ Text.utf8Encode text ∧ (Text.utf8Encode text).length < 2 ^ 63)
    (hshort : (Text.utf8Encode text).length < 2 ^ 32)
    (hmark : ¬ Text.byteOrderMark <+: Text.utf8Encode text) :
    future FlatpakInstallation.stop [FlatpakNc.postFramedError disc (.ofString text)] =
      some (.error (exception text)) := by
  rw [CString.ofString_lit h, future_failed rfl hbranch (sendable_lit h hshort), text_lit h hmark]

theorem future_stop_frames (x : Stop) : future FlatpakInstallation.stop x.frames = some
    (if x.matched = 0 then .error (.notFound "no running instance for app_id")
    else if x.signalled = 0 then
      .error (.stop "matched running instance(s) but could not signal any")
    else .ok ()) := by
  rw [Stop.frames]
  split_ifs
  · exact future_stop_error .notFound (OperationAnswers.await_branch rfl) (by decide +kernel)
      (by decide +kernel) (by decide +kernel)
  · exact future_stop_error .stop (OperationAnswers.await_branch rfl) (by decide +kernel)
      (by decide +kernel) (by decide +kernel)
  · rfl

theorem Inv.verdict {s : State} (hs : Inv s) {i : ℕ} (hdone : (s.stops i).phase = .done) :
    (s.stops i).posted = InstallationReader.stop (some (s.stops i).looked) (s.stops i).app ∧
      ∃ r, future FlatpakInstallation.stop (s.stops i).posted = some r ∧ Verdict s i r := by
  obtain ⟨htally, hposted⟩ := hs.atPhase hdone
  refine ⟨hposted.trans (Stop.frames_eq htally), ?_⟩
  rw [hposted, future_stop_frames]
  refine ⟨_, rfl, ?_⟩
  by_cases hmatched : (s.stops i).matched = 0
  · rw [if_pos hmatched]
    have hnone : ((s.stops i).looked.filter fun l => (s.stops i).wants l.1).length = 0 :=
      htally.matched.symm.trans hmatched
    refine .notRunning (fun l hl happ => ?_) ?_
    · by_contra hrunning
      have hwants := Stop.wants_iff.mpr ⟨happ, by simpa using hrunning⟩
      exact List.filter_eq_nil_iff.mp (List.length_eq_zero_iff.mp hnone) l hl hwants
    · exact List.length_eq_zero_iff.mp (Nat.le_zero.mp (hnone ▸ htally.called))
  · rw [if_neg hmatched]
    by_cases hsignalled : (s.stops i).signalled = 0
    · rw [if_pos hsignalled]
      refine .failed ?_ fun bs t hrun k hk => ?_
      · have hpos : 0 < ((s.stops i).looked.filter fun l => (s.stops i).wants l.1).length :=
          Nat.pos_of_ne_zero fun h => hmatched (htally.matched.trans h)
        obtain ⟨l, hl⟩ := List.exists_mem_of_length_pos hpos
        obtain ⟨hmem, hwants⟩ := List.mem_filter.mp hl
        exact ⟨l, hmem, Stop.wants_iff.mp hwants⟩
      · -- each of its calls has returned, and none of them true
        rw [done_stays hrun hdone] at hk
        obtain ⟨ok, hok⟩ := htally.answered k hk
        have hnot : (s.signals.calls k).returned ≠ some true := by
          have hzero := List.countP_eq_zero.mp (htally.counted.symm.trans hsignalled) k hk
          simpa using hzero
        have hfalse : ok = false := by simpa [hok] using hnot
        rw [refused_stays hrun hs (hok.trans (by rw [hfalse]))]
        exact ((hs.sent k).sent_cases.resolve_left fun h => hnot h.1).2
    · rw [if_neg hsignalled]
      have hpos := Nat.pos_of_ne_zero fun h => hsignalled (htally.counted.trans h)
      obtain ⟨k, hk, hreturned⟩ := List.countP_pos_iff.mp hpos
      have htrue : (s.signals.calls k).returned = some true := by simpa using hreturned
      exact .stopped hk ((hs.sent k).sent_cases.resolve_right fun h => h.1 htrue).2

/-- **What the caller of `stop` is told is so**: it has looked at every instance it was given,
in order; it completes if a process was sent `SIGTERM`, and throws that nothing runs, or that it
failed, only if nobody is signalled. -/
theorem stop_verdict {s : State} {as : List Action} (h : run step init as = some s) {i : ℕ}
    (hdone : (s.stops i).phase = .done) :
    (∃ instances, .stop i (s.stops i).app instances ∈ as ∧
      (s.stops i).looked.map (fun l => listedAs l.1) = (instances.getD []).map listedAs) ∧
    (s.stops i).posted = InstallationReader.stop (some (s.stops i).looked) (s.stops i).app ∧
    ∃ r, future FlatpakInstallation.stop (s.stops i).posted = some r ∧ Verdict s i r := by
  obtain ⟨app, instances, hmem, rfl, hlooked⟩ :=
    (run_calledWith h i).resolve_left fun hidle => absurd (hdone.symm.trans hidle) (by simp)
  rw [hdone, Phase.ahead, List.append_nil, List.map_map] at hlooked
  exact ⟨⟨instances, hmem, hlooked⟩, (run_inv h init_inv).verdict hdone⟩

/-- Both instances were looked at. -/
theorem stop_verdict_one : ∃ s r, run step init stopRun = some s ∧
    (s.stops 0).looked.length = 2 ∧
    future FlatpakInstallation.stop (s.stops 0).posted = some r ∧ Verdict s 0 r := by
  obtain ⟨s, hrun, hdone, -⟩ := stopRun_done
  obtain ⟨⟨instances, hcalled, hlooked⟩, -, r, hfuture, hverdict⟩ := stop_verdict hrun hdone
  refine ⟨s, r, hrun, ?_, hfuture, hverdict⟩
  have hlength := congrArg List.length hlooked
  rw [List.length_map, List.length_map] at hlength
  rw [hlength]
  simp only [stopRun, List.mem_cons, List.not_mem_nil, or_false, reduceCtorEq, false_or,
    Action.stop.injEq, true_and] at hcalled
  rw [hcalled.2]
  rfl

end StopVerdict
