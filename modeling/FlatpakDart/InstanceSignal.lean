/-
Signalling the process of a running instance
(`native/src/installation_reader.cpp`).

Any number of `signal_instance_process` calls, with the escalation threads they
leave behind, run beside a kernel that ends processes and hands their pids to
new ones.  Each system call is a step of its own.

* `pinned_sound` — with a start time read and a pidfd opened, signals reach only
  the process whose start time was read, and nobody if that one was gone;
* `undisturbed_intended` — calls without a start time or without a pidfd signal
  the process that was matched, if the pid is its own wherever they go by it;
* `disturbed_reaches_stranger` — and otherwise they can signal whoever has it.
-/
import FlatpakDart.ProcStat
import FlatpakDart.Tenancy

open Machine Tenancy

namespace InstanceSignal

/-! ### The kernel -/

/-- A process, by what identifies it: its pid and its start time. -/
structure Process where
  pid : ℕ
  startTime : UInt64
  deriving DecidableEq

/-- The pids in use, and the processes that have ended; one of these keeps its
pid until it is waited for. -/
structure Kernel where
  table : Table Process.pid
  exited : List Process

def Kernel.init : Kernel := ⟨.empty, []⟩

/-- A process is started, ends, and is waited for. -/
inductive KernelAction
  | spawn (p : Process)
  | exit (p : Process)
  | reap (p : Process)

/-- Who holds the pid. -/
def Kernel.holder (kn : Kernel) (pid : ℕ) : Option Process := kn.table.holder pid

def Kernel.step (kn : Kernel) : KernelAction → Option Kernel
  | .spawn p => (kn.table.step (.enter p)).map (⟨·, kn.exited⟩)
  | .exit p => if kn.holder p.pid = some p then some { kn with exited := p :: kn.exited } else none
  | .reap p => if p ∈ kn.exited then (kn.table.step (.evict p)).map (⟨·, kn.exited⟩) else none

/-- `read_start_time(pid)`, where `stat` is what the kernel prints; without it the
file cannot be read, as it cannot when nobody has the pid.  `none` where the
kernel would not print this. -/
def Kernel.readStartTime (kn : Kernel) (pid : ℕ) : Option ProcStat.Stat → Option (Option UInt64)
  | none => some none
  | some stat =>
    match kn.holder pid with
    | none => none
    | some p =>
      if stat.pid = pid ∧ stat.startTime = p.startTime then some (ProcStat.readStartTime stat.text)
      else none

/-- The file tells the start time of whoever has the pid. -/
theorem Kernel.readStartTime_eq_some {kn : Kernel} {pid : ℕ} {stat : Option ProcStat.Stat}
    {r : Option UInt64} (h : kn.readStartTime pid stat = some r) :
    r = none ∨ ∃ p, kn.holder pid = some p ∧ r = some p.startTime := by
  cases stat with
  | none => exact .inl (Option.some_inj.mp h).symm
  | some stat =>
    rw [readStartTime] at h
    cases hp : kn.holder pid with
    | none => simp [hp] at h
    | some p =>
      simp only [hp, Option.ite_none_right_eq_some, Option.some_inj] at h
      obtain ⟨⟨-, hstart⟩, rfl⟩ := h
      exact .inr ⟨p, rfl, by rw [ProcStat.readStartTime_text, hstart]⟩

/-- What the kernel does leaves who is gone gone. -/
theorem Kernel.departed_step {kn kn' : Kernel} {a : KernelAction} (h : kn.step a = some kn')
    {p : Process} : (p ∈ kn.table.admitted → p ∈ kn'.table.admitted) ∧
      (kn.table.Departed p → kn'.table.Departed p) := by
  cases a with
  | spawn q =>
    obtain ⟨tb, htb, rfl⟩ := Option.map_eq_some_iff.mp h
    exact ⟨Table.admitted_step htb, Table.departed_step htb⟩
  | exit q =>
    obtain ⟨-, rfl⟩ := Option.ite_none_right_eq_some.mp h |>.imp_right Option.some_inj.mp
    exact ⟨id, id⟩
  | reap q =>
    obtain ⟨-, hreap⟩ := Option.ite_none_right_eq_some.mp h
    obtain ⟨tb, htb, rfl⟩ := Option.map_eq_some_iff.mp hreap
    exact ⟨Table.admitted_step htb, Table.departed_step htb⟩

/-- Whom a pidfd of `q` still reaches. -/
def Kernel.reaches (kn : Kernel) (q : Process) : Option Process :=
  if kn.holder q.pid = some q then some q else none

/-! ### The calls -/

inductive Signal
  | term
  | kill
  deriving DecidableEq

/-- Where a call is; a process is named where the call holds a pidfd of it. -/
inductive Phase
  | idle
  | matched
  | opening
  | pinned (q : Process)
  | checked (q : Process)
  | escalating (q : Process)
  | expired (q : Process)
  | closing (q : Process)
  | fallback
  | sleeping
  | probed
  | verified
  | done
  deriving DecidableEq

/-- What `pidfd_open` did: it opened a pidfd of who held the pid, or failed with
`ESRCH` as nobody did; or it is not available. -/
inductive Opened
  | notYet
  | tried (holder : Option Process)
  | unavailable
  deriving DecidableEq

/-- One call of `signal_instance_process` with the thread it leaves behind.  Not
in the source are `owner`, who held the pid when `stop` matched the instance,
`readFrom`, whose start time the first read gave, what `opened` found, and the
signals that were delivered. -/
structure Call where
  pid : ℕ
  startBefore : Option UInt64
  returned : Option Bool
  phase : Phase
  owner : Option Process
  readFrom : Option Process
  opened : Opened
  sent : List (Signal × Process)

def Call.idle : Call := ⟨0, none, none, .idle, none, none, .notYet, []⟩

/-- What `poll` on the pidfd returns. -/
inductive PollResult
  | timeout
  | ready
  | failed

/-- The steps of a call; `ok` says whether a system call that may fail anyway
does what it can do. -/
inductive CallAction
  | stopMatches (pid : ℕ)
  | readStart (stat : Option ProcStat.Stat)
  | pidfdOpen
  | pidfdUnavailable
  | reread (stat : Option ProcStat.Stat)
  | sendTerm (ok : Bool)
  | poll (r : PollResult)
  | sendKill (ok : Bool)
  | close
  | killTerm (ok : Bool)
  | probe (ok : Bool)
  | recheck (stat : Option ProcStat.Stat)
  | killKill (ok : Bool)

/-- A signal for whom a pidfd or a pid stands for, and what the call does after
it was sent or was not. -/
def Call.signal (c : Call) (sig : Signal) (target : Option Process) (ok : Bool)
    (sent failed : Call → Call) : Option Call :=
  if ok then target.map fun q => sent { c with sent := c.sent ++ [(sig, q)] } else some (failed c)

def Call.goto (phase : Phase) (c : Call) : Call := { c with phase := phase }

/-- The call returns, and what is left goes on. -/
def Call.return (ok : Bool) (phase : Phase) (c : Call) : Call :=
  { c with phase := phase, returned := some ok }

/-- `stop` takes the pid of a running instance. -/
def Call.stopMatches (kn : Kernel) (pid : ℕ) : Call :=
  { Call.idle with pid := pid, owner := kn.holder pid, phase := .matched }

/-- `have_start` and `start_before`. -/
def Call.startRead (c : Call) (kn : Kernel) (r : Option UInt64) : Call :=
  { c with
    startBefore := r
    readFrom := if r.isSome then kn.holder c.pid else none
    phase := .opening }

/-- `pidfd_open_compat(pid)`, and the tests that follow it. -/
def Call.pidfdOpen (c : Call) (kn : Kernel) : Call :=
  let c := { c with opened := .tried (kn.holder c.pid) }
  match kn.holder c.pid with
  | none => c.return false .done
  | some q => c.goto (if c.startBefore.isSome then .pinned q else .checked q)

/-- `signal_instance_process`, `stop_escalate_thread` and
`fallback_escalate_thread`. -/
def Call.step (kn : Kernel) (c : Call) : CallAction → Option Call
  | .stopMatches pid => if c.phase = .idle then some (stopMatches kn pid) else none
  | .readStart stat =>
    if c.phase = .matched then (kn.readStartTime c.pid stat).map (c.startRead kn) else none
  | .pidfdOpen => if c.phase = .opening then some (c.pidfdOpen kn) else none
  | .pidfdUnavailable =>
    if c.phase = .opening then some { c with opened := .unavailable, phase := .fallback } else none
  | .reread stat =>
    match c.phase with
    | .pinned q => (kn.readStartTime c.pid stat).map fun r =>
        if r = c.startBefore then c.goto (.checked q) else c.return false .done
    | _ => none
  | .sendTerm ok =>
    match c.phase with
    | .checked q =>
      c.signal .term (kn.reaches q) ok (.return true (.escalating q)) (.return false .done)
    | _ => none
  | .poll r =>
    match c.phase with
    | .escalating q =>
      match r with
      | .timeout => if q ∈ kn.exited then none else some (c.goto (.expired q))
      | .ready => if q ∈ kn.exited then some (c.goto (.closing q)) else none
      | .failed => some (c.goto (.closing q))
    | _ => none
  | .sendKill ok =>
    match c.phase with
    | .expired q => c.signal .kill (kn.reaches q) ok (.goto (.closing q)) (.goto (.closing q))
    | _ => none
  | .close =>
    match c.phase with
    | .closing _ => some (c.goto .done)
    | _ => none
  | .killTerm ok =>
    if c.phase = .fallback then
      c.signal .term (kn.holder c.pid) ok (.return true .sleeping) (.return false .done)
    else none
  | .probe ok =>
    if c.phase = .sleeping then
      if ok then
        if (kn.holder c.pid).isSome then
          some (c.goto (if c.startBefore.isSome then .probed else .verified))
        else none
      else some (c.goto .done)
    else none
  | .recheck stat =>
    if c.phase = .probed then
      (kn.readStartTime c.pid stat).map fun r =>
        c.goto (if r = c.startBefore then .verified else .done)
    else none
  | .killKill ok =>
    if c.phase = .verified then
      c.signal .kill (kn.holder c.pid) ok (.goto .done) (.goto .done)
    else none

/-! ### The system -/

structure State where
  kernel : Kernel
  calls : ℕ → Call

def State.init : State := ⟨.init, fun _ => .idle⟩

inductive Action
  | kernel (a : KernelAction)
  | call (k : ℕ) (a : CallAction)

def step (s : State) : Action → Option State
  | .kernel a => (s.kernel.step a).map ({ s with kernel := · })
  | .call k a => ((s.calls k).step s.kernel a).map fun c =>
      { s with calls := Function.update s.calls k c }

/-! ### What a step can do -/

/-- A signal was delivered. -/
def Call.sending (c : Call) (sig : Signal) (q : Process) : Call :=
  { c with sent := c.sent ++ [(sig, q)] }

theorem Call.signal_cases {c c' : Call} {sig : Signal} {target : Option Process} {ok : Bool}
    {sent failed : Call → Call} (h : c.signal sig target ok sent failed = some c') :
    (∃ q, target = some q ∧ c' = sent (c.sending sig q)) ∨ c' = failed c := by
  cases ok with
  | true =>
    obtain ⟨q, hq, rfl⟩ := Option.map_eq_some_iff.mp h
    exact .inl ⟨q, hq, rfl⟩
  | false => exact .inr (Option.some_inj.mp h).symm

/-- The steps of a call, one constructor for each way a step can go. -/
inductive Call.Step (kn : Kernel) (c : Call) : CallAction → Call → Prop
  | stopMatches {pid : ℕ} (hphase : c.phase = .idle) :
      Step kn c (.stopMatches pid) (stopMatches kn pid)
  | readStart {stat : Option ProcStat.Stat} {r : Option UInt64} (hphase : c.phase = .matched)
      (hr : kn.readStartTime c.pid stat = some r) : Step kn c (.readStart stat) (c.startRead kn r)
  | pidfdOpen (hphase : c.phase = .opening) : Step kn c .pidfdOpen (c.pidfdOpen kn)
  | pidfdUnavailable (hphase : c.phase = .opening) :
      Step kn c .pidfdUnavailable { c with opened := .unavailable, phase := .fallback }
  | same {stat : Option ProcStat.Stat} {q : Process} (hphase : c.phase = .pinned q)
      (hr : kn.readStartTime c.pid stat = some c.startBefore) :
      Step kn c (.reread stat) (c.goto (.checked q))
  | other {stat : Option ProcStat.Stat} {q : Process} (hphase : c.phase = .pinned q) :
      Step kn c (.reread stat) (c.return false .done)
  | sendTerm {ok : Bool} {q : Process} (hphase : c.phase = .checked q) :
      Step kn c (.sendTerm ok) ((c.sending .term q).return true (.escalating q))
  | termFailed {ok : Bool} {q : Process} (hphase : c.phase = .checked q) :
      Step kn c (.sendTerm ok) (c.return false .done)
  | poll {r : PollResult} {q : Process} {phase : Phase} (hphase : c.phase = .escalating q)
      (hnext : phase = .expired q ∨ phase = .closing q) : Step kn c (.poll r) (c.goto phase)
  | sendKill {ok : Bool} {q : Process} (hphase : c.phase = .expired q) :
      Step kn c (.sendKill ok) ((c.sending .kill q).goto (.closing q))
  | sendKillFailed {ok : Bool} {q : Process} (hphase : c.phase = .expired q) :
      Step kn c (.sendKill ok) (c.goto (.closing q))
  | close {q : Process} (hphase : c.phase = .closing q) : Step kn c .close (c.goto .done)
  | killTerm {ok : Bool} {q : Process} (hphase : c.phase = .fallback)
      (hq : kn.holder c.pid = some q) :
      Step kn c (.killTerm ok) ((c.sending .term q).return true .sleeping)
  | killTermFailed {ok : Bool} (hphase : c.phase = .fallback) :
      Step kn c (.killTerm ok) (c.return false .done)
  | probe {ok : Bool} {phase : Phase} (hphase : c.phase = .sleeping)
      (hnext : phase ∈ [.probed, .verified, .done]) : Step kn c (.probe ok) (c.goto phase)
  | recheck {stat : Option ProcStat.Stat} {phase : Phase} (hphase : c.phase = .probed)
      (hnext : phase ∈ [.verified, .done]) : Step kn c (.recheck stat) (c.goto phase)
  | killKill {ok : Bool} {q : Process} (hphase : c.phase = .verified)
      (hq : kn.holder c.pid = some q) :
      Step kn c (.killKill ok) ((c.sending .kill q).goto .done)
  | killKillFailed {ok : Bool} (hphase : c.phase = .verified) :
      Step kn c (.killKill ok) (c.goto .done)

theorem Kernel.reaches_eq_some {kn : Kernel} {q q' : Process} (h : kn.reaches q = some q') :
    q' = q := by
  obtain ⟨-, h⟩ := Option.ite_none_right_eq_some.mp h
  exact (Option.some_inj.mp h).symm

theorem Call.step_cases {kn : Kernel} {c c' : Call} {a : CallAction} (h : c.step kn a = some c') :
    c.Step kn a c' := by
  cases a with
  | stopMatches pid =>
    obtain ⟨hphase, rfl⟩ := Option.ite_none_right_eq_some.mp h |>.imp_right Option.some_inj.mp
    exact .stopMatches hphase
  | readStart stat =>
    obtain ⟨hphase, h⟩ := Option.ite_none_right_eq_some.mp h
    obtain ⟨r, hr, rfl⟩ := Option.map_eq_some_iff.mp h
    exact .readStart hphase hr
  | pidfdOpen =>
    obtain ⟨hphase, rfl⟩ := Option.ite_none_right_eq_some.mp h |>.imp_right Option.some_inj.mp
    exact .pidfdOpen hphase
  | pidfdUnavailable =>
    obtain ⟨hphase, rfl⟩ := Option.ite_none_right_eq_some.mp h |>.imp_right Option.some_inj.mp
    exact .pidfdUnavailable hphase
  -- the start time is the same as at the first read, or it is not
  | reread stat =>
    simp only [step] at h
    split at h
    · next hphase =>
      obtain ⟨r, hr, rfl⟩ := Option.map_eq_some_iff.mp h
      split
      · next hsame => exact .same hphase (hsame ▸ hr)
      · exact .other hphase
    · exact absurd h (by simp)
  -- a signal by pidfd reaches its process, or fails
  | sendTerm ok =>
    simp only [step] at h
    split at h
    · next hphase =>
      obtain ⟨q', hq', rfl⟩ | rfl := signal_cases h
      · obtain rfl := Kernel.reaches_eq_some hq'
        exact .sendTerm hphase
      · exact .termFailed hphase
    · exact absurd h (by simp)
  | poll r =>
    simp only [step] at h
    split at h
    · next hphase =>
      split at h
      · obtain ⟨-, rfl⟩ := Option.ite_none_left_eq_some.mp h |>.imp_right Option.some_inj.mp
        exact .poll hphase (.inl rfl)
      · obtain ⟨-, rfl⟩ := Option.ite_none_right_eq_some.mp h |>.imp_right Option.some_inj.mp
        exact .poll hphase (.inr rfl)
      · obtain rfl := Option.some_inj.mp h
        exact .poll hphase (.inr rfl)
    · exact absurd h (by simp)
  | sendKill ok =>
    simp only [step] at h
    split at h
    · next hphase =>
      obtain ⟨q', hq', rfl⟩ | rfl := signal_cases h
      · obtain rfl := Kernel.reaches_eq_some hq'
        exact .sendKill hphase
      · exact .sendKillFailed hphase
    · exact absurd h (by simp)
  | close =>
    simp only [step] at h
    split at h
    · next hphase =>
      obtain rfl := Option.some_inj.mp h
      exact .close hphase
    · exact absurd h (by simp)
  -- a signal by pid reaches whoever has the pid now
  | killTerm ok =>
    obtain ⟨hphase, h⟩ := Option.ite_none_right_eq_some.mp h
    obtain ⟨q, hq, rfl⟩ | rfl := signal_cases h
    · exact .killTerm hphase hq
    · exact .killTermFailed hphase
  | probe ok =>
    obtain ⟨hphase, h⟩ := Option.ite_none_right_eq_some.mp h
    cases ok with
    | true =>
      obtain ⟨-, rfl⟩ := Option.ite_none_right_eq_some.mp h |>.imp_right Option.some_inj.mp
      exact .probe hphase (by split <;> simp)
    | false =>
      obtain rfl := Option.some_inj.mp h
      exact .probe hphase (by simp)
  | recheck stat =>
    obtain ⟨hphase, h⟩ := Option.ite_none_right_eq_some.mp h
    obtain ⟨r, -, rfl⟩ := Option.map_eq_some_iff.mp h
    exact .recheck hphase (by split <;> simp)
  | killKill ok =>
    obtain ⟨hphase, h⟩ := Option.ite_none_right_eq_some.mp h
    obtain ⟨q, hq, rfl⟩ | rfl := signal_cases h
    · exact .killKill hphase hq
    · exact .killKillFailed hphase

/-- What holds of every call by itself holds in every state of a run: the kernel
and the call's own steps, as the run takes them, are all that matter to it. -/
theorem run_call {P : Kernel → Call → Prop} {t : State} {as : List Action} (hidle : P .init .idle)
    (hkernel : ∀ {kn kn' a c}, kn.step a = some kn' → P kn c → P kn' c)
    (hcall : ∀ {s u k a c}, Takes step .init as s (.call k a) u →
      (s.calls k).step s.kernel a = some c → P s.kernel (s.calls k) → P s.kernel c)
    (h : run step .init as = some t) (k : ℕ) : P t.kernel (t.calls k) := by
  refine run_invariant_along (I := fun s => ∀ k, P s.kernel (s.calls k)) ?_ h (fun _ => hidle) k
  intro s a t htakes hs k
  cases a with
  | kernel a =>
    obtain ⟨kn, hkn, rfl⟩ := Option.map_eq_some_iff.mp htakes.step_eq
    exact hkernel hkn (hs k)
  | call j a =>
    obtain ⟨c, hc, rfl⟩ := Option.map_eq_some_iff.mp htakes.step_eq
    by_cases hk : k = j
    · subst hk
      simpa using hcall htakes hc (hs k)
    · simpa [Function.update_of_ne hk] using hs k

/-! ### With a start time and a pidfd -/

/-- Signals reach only the process whose start time was read first, and nobody
if that one did not hold the pid any more when the pidfd was opened. -/
def Call.Sound (c : Call) : Prop :=
  ∀ p h, c.readFrom = some p → c.opened = .tried h →
    (∀ e ∈ c.sent, e.2 = p) ∧ (h ≠ some p → c.sent = [])

theorem Call.sound_unavailable {c : Call} (h : c.opened = .unavailable) : c.Sound :=
  fun _ _ _ htried => absurd (h.symm.trans htried) (by simp)

/-- The pidfd `q` is one of the process whose start time was read. -/
def Call.Confirmed (c : Call) (q : Process) : Prop :=
  c.opened = .tried (some q) ∧ ∀ p, c.readFrom = some p → p = q

/-- What the phase of a call says about it. -/
def Call.PhaseInv (kn : Kernel) (c : Call) : Phase → Prop
  | .idle | .matched => c.sent = [] ∧ c.readFrom = none ∧ c.startBefore = none ∧ c.opened = .notYet
  | .opening => c.sent = [] ∧ c.opened = .notYet
  | .pinned q => c.sent = [] ∧ c.opened = .tried (some q) ∧
      ∀ p, c.readFrom = some p → p ≠ q → kn.table.Departed p
  | .checked q => c.sent = [] ∧ c.Confirmed q
  | .escalating q | .expired q | .closing q => c.Confirmed q
  | .fallback | .sleeping | .probed | .verified => c.opened = .unavailable
  | .done => True

structure Call.Inv (kn : Kernel) (c : Call) : Prop where
  start : c.startBefore = c.readFrom.map Process.startTime
  known : ∀ p, c.readFrom = some p → p ∈ kn.table.admitted ∧ p.pid = c.pid
  phase : c.PhaseInv kn c.phase
  sound : c.Sound

theorem Call.idle_inv (kn : Kernel) : Call.idle.Inv kn where
  start := rfl
  known := nofun
  phase := ⟨rfl, rfl, rfl, rfl⟩
  sound := nofun

/-- What the kernel does meanwhile does not matter to a call. -/
theorem Call.Inv.kernel {kn kn' : Kernel} {a : KernelAction} {c : Call} (hc : c.Inv kn)
    (h : kn.step a = some kn') : c.Inv kn' := by
  refine ⟨hc.start, fun p hp => ?_, ?_, hc.sound⟩
  · exact ⟨(Kernel.departed_step h).1 (hc.known p hp).1, (hc.known p hp).2⟩
  · have hphase := hc.phase
    cases hp : c.phase with
    | pinned q =>
      rw [hp] at hphase
      obtain ⟨hsent, hopened, hgone⟩ := hphase
      exact ⟨hsent, hopened, fun p hread hne => (Kernel.departed_step h).2 (hgone p hread hne)⟩
    | _ => rwa [hp] at hphase

/-- A call that only goes on to another phase. -/
theorem Call.Inv.goto {kn : Kernel} {c : Call} (hc : c.Inv kn) {phase : Phase}
    (hphase : c.PhaseInv kn phase) : (c.goto phase).Inv kn where
  start := hc.start
  known := hc.known
  phase := by cases phase <;> exact hphase
  sound := hc.sound

theorem Call.Inv.return {kn : Kernel} {c : Call} (hc : c.Inv kn) {ok : Bool} {phase : Phase}
    (hphase : c.PhaseInv kn phase) : (c.return ok phase).Inv kn where
  start := hc.start
  known := hc.known
  phase := by cases phase <;> exact hphase
  sound := hc.sound

/-- A signal to the process of a confirmed pidfd. -/
theorem Call.Inv.send {kn : Kernel} {c : Call} (hc : c.Inv kn) {q : Process} (hq : c.Confirmed q)
    (sig : Signal) : (c.sending sig q).Sound := by
  intro p h hread hopened
  obtain rfl := hq.2 p hread
  obtain rfl : h = some p := by
    have := hq.1.symm.trans hopened
    simpa using this.symm
  refine ⟨fun e he => ?_, fun hne => absurd rfl hne⟩
  rcases List.mem_append.mp he with he | he
  · exact (hc.sound p _ hread hq.1).1 e he
  · rw [List.mem_singleton.mp he]

theorem Call.Inv.startRead {kn : Kernel} {c : Call} (hc : c.Inv kn) (hphase : c.phase = .matched)
    {stat : Option ProcStat.Stat} {r : Option UInt64} (hr : kn.readStartTime c.pid stat = some r) :
    (c.startRead kn r).Inv kn := by
  have hquiet := hc.phase
  rw [hphase] at hquiet
  obtain ⟨hsent, -, -, hopened⟩ := hquiet
  have hsound : (c.startRead kn r).Sound := fun p h _ htried => by
    exact absurd (hopened.symm.trans htried) (by simp)
  rcases Kernel.readStartTime_eq_some hr with rfl | ⟨p, hp, rfl⟩
  · exact ⟨rfl, nofun, ⟨hsent, hopened⟩, hsound⟩
  · refine ⟨?_, fun q hq => ?_, ⟨hsent, hopened⟩, hsound⟩
    · simp [Call.startRead, hp]
    · obtain rfl : p = q := by simpa [Call.startRead, hp] using hq
      exact ⟨Table.admitted_of_holds hp, Table.slot_eq_of_holds hp⟩

theorem Call.Inv.pidfdOpen {kn : Kernel} {c : Call} (hc : c.Inv kn) (hphase : c.phase = .opening) :
    (c.pidfdOpen kn).Inv kn := by
  have hquiet := hc.phase
  rw [hphase] at hquiet
  obtain ⟨hsent, -⟩ := hquiet
  rw [Call.pidfdOpen]
  cases hq : kn.holder c.pid with
  | none =>
    have hsound : ({ c with opened := .tried none } : Call).Sound :=
      fun p h _ _ => ⟨by simp [hsent], fun _ => hsent⟩
    exact ⟨hc.start, hc.known, trivial, hsound⟩
  | some q =>
    have hsound : ({ c with opened := .tried (some q) } : Call).Sound :=
      fun p h _ _ => ⟨by simp [hsent], fun _ => hsent⟩
    refine ⟨hc.start, hc.known, ?_, hsound⟩
    cases hread : c.readFrom with
    | none =>
      have hstart : c.startBefore = none := by rw [hc.start, hread, Option.map_none]
      simp only [Call.goto, hstart, Option.isSome_none, Bool.false_eq_true, if_false]
      exact ⟨hsent, rfl, nofun⟩
    | some p =>
      have hstart : c.startBefore = some p.startTime := by rw [hc.start, hread, Option.map_some]
      simp only [Call.goto, hstart, Option.isSome_some, if_true]
      refine ⟨hsent, rfl, fun p' hp' hne => ?_⟩
      -- whoever else has the pid now, the process that was read has left it
      obtain ⟨hadmitted, hpid⟩ := hc.known p' (hread.trans hp')
      exact Table.departed_of_holds hadmitted hpid hq hne

/-- The second read finds the start time of the first: the process that was read
has held the pid all along, and it is the one the pidfd was opened for. -/
theorem Call.Inv.confirmed {kn : Kernel} {c : Call} (hc : c.Inv kn) {q : Process}
    (hphase : c.phase = .pinned q) {stat : Option ProcStat.Stat}
    (hr : kn.readStartTime c.pid stat = some c.startBefore) : c.Confirmed q := by
  have hpinned := hc.phase
  rw [hphase] at hpinned
  obtain ⟨-, hopened, hgone⟩ := hpinned
  refine ⟨hopened, fun p hread => ?_⟩
  have hstart : c.startBefore = some p.startTime := by rw [hc.start, hread, Option.map_some]
  rw [hstart] at hr
  rcases Kernel.readStartTime_eq_some hr with hnone | ⟨p', hp', heq⟩
  · exact absurd hnone (by simp)
  · have hpid : p.pid = p'.pid :=
      (hc.known p hread).2.trans (Table.slot_eq_of_holds hp').symm
    obtain rfl : p = p' := by
      cases p
      cases p'
      simp_all
    by_contra hne
    exact (hgone p hread hne).not_holds _ hp'

/-- **One step** of a call. -/
theorem Call.step_inv {kn : Kernel} {c c' : Call} {a : CallAction} (h : c.step kn a = some c')
    (hc : c.Inv kn) : c'.Inv kn := by
  have hphase := hc.phase
  cases step_cases h with
  | stopMatches => exact ⟨rfl, nofun, ⟨rfl, rfl, rfl, rfl⟩, nofun⟩
  | readStart hp hr => exact hc.startRead hp hr
  | pidfdOpen hp => exact hc.pidfdOpen hp
  | pidfdUnavailable => exact ⟨hc.start, hc.known, rfl, Call.sound_unavailable rfl⟩
  | same hp hr =>
    rw [hp] at hphase
    exact hc.goto ⟨hphase.1, hc.confirmed hp hr⟩
  | other => exact hc.return trivial
  | sendTerm hp =>
    rw [hp] at hphase
    exact ⟨hc.start, hc.known, hphase.2, hc.send hphase.2 .term⟩
  | termFailed => exact hc.return trivial
  | poll hp hnext =>
    rw [hp] at hphase
    rcases hnext with rfl | rfl <;> exact hc.goto hphase
  | sendKill hp =>
    rw [hp] at hphase
    exact ⟨hc.start, hc.known, hphase, hc.send hphase .kill⟩
  | sendKillFailed hp =>
    rw [hp] at hphase
    exact hc.goto hphase
  | close => exact hc.goto trivial
  | killTerm hp =>
    rw [hp] at hphase
    exact ⟨hc.start, hc.known, hphase, Call.sound_unavailable hphase⟩
  | killTermFailed => exact hc.return trivial
  | probe hp hnext =>
    rw [hp] at hphase
    simp only [List.mem_cons, List.not_mem_nil, or_false] at hnext
    rcases hnext with rfl | rfl | rfl
    · exact hc.goto hphase
    · exact hc.goto hphase
    · exact hc.goto trivial
  | recheck hp hnext =>
    rw [hp] at hphase
    simp only [List.mem_cons, List.not_mem_nil, or_false] at hnext
    rcases hnext with rfl | rfl
    · exact hc.goto hphase
    · exact hc.goto trivial
  | killKill hp =>
    rw [hp] at hphase
    exact ⟨hc.start, hc.known, trivial, Call.sound_unavailable hphase⟩
  | killKillFailed => exact hc.goto trivial

theorem run_inv {t : State} {as : List Action} (h : run step .init as = some t) (k : ℕ) :
    (t.calls k).Inv t.kernel :=
  run_call (Call.idle_inv _) (fun hkernel hc => hc.kernel hkernel) (fun _ => Call.step_inv) h k

/-- **Only the process whose start time was read** is signalled, once a pidfd is
opened. -/
theorem pinned_sound (as : List Action) (t : State) (h : run step .init as = some t) (k : ℕ) :
    (t.calls k).Sound := (run_inv h k).sound

/-- A process `name) 1 (x` with this start time. -/
def namedStat (p : Process) : ProcStat.Stat where
  pid := p.pid
  comm := [110, 97, 109, 101, 41, 32, 49, 32, 40, 120]
  fields := List.replicate 19 ⟨[48], by simp, by decide +kernel⟩
  startTime := p.startTime
  rest := []
  comm_nulFree := by decide
  fields_length := rfl

/-- One call to the end, on a process that ignores `SIGTERM`. -/
theorem pinned_sound_escalates : ∃ as t, run step .init as = some t ∧ (t.calls 0).Sound ∧
    (t.calls 0).sent = [(.term, ⟨7, 100⟩), (.kill, ⟨7, 100⟩)] := by
  obtain ⟨t, hrun, ht⟩ := exists_run step State.init
    [.kernel (.spawn ⟨7, 100⟩), .call 0 (.stopMatches 7),
      .call 0 (.readStart (some (namedStat ⟨7, 100⟩))), .call 0 .pidfdOpen,
      .call 0 (.reread (some (namedStat ⟨7, 100⟩))), .call 0 (.sendTerm true),
      .call 0 (.poll .timeout), .call 0 (.sendKill true), .call 0 .close]
    (p := fun t => (t.calls 0).sent = [(.term, ⟨7, 100⟩), (.kill, ⟨7, 100⟩)]) (by decide +kernel)
  exact ⟨_, t, hrun, pinned_sound _ t hrun 0, of_decide_eq_true ht⟩

/-! ### Without a start time, or without a pidfd -/

/-- The first read failed, or there is no pidfd to be had. -/
def Call.Unguarded (c : Call) : Prop := c.startBefore = none ∨ c.opened = .unavailable

/-- Signals reach only the process that held the pid when `stop` matched the
instance, and the call returns true only if that one was signalled. -/
def Call.Intended (c : Call) : Prop :=
  c.Unguarded → (∀ e ∈ c.sent, c.owner = some e.2) ∧
    (c.returned = some true → ∃ e ∈ c.sent, c.owner = some e.2)

/-- Nobody else has taken the pid over. -/
def Call.Own (kn : Kernel) (c : Call) : Prop :=
  kn.holder c.pid = none ∨ kn.holder c.pid = c.owner

instance (kn : Kernel) (c : Call) : Decidable (c.Own kn) := inferInstanceAs (Decidable (_ ∨ _))

theorem Call.Own.owner_eq {kn : Kernel} {c : Call} (h : c.Own kn) {q : Process}
    (hq : kn.holder c.pid = some q) : c.owner = some q := by
  rcases h with hnone | heq
  · exact absurd (hq.symm.trans hnone) (by simp)
  · exact heq.symm.trans hq

/-- The steps that go by the pid alone find nobody else there: `pidfd_open`
without a start time, and `kill`. -/
def Call.Undisturbed (kn : Kernel) (c : Call) : CallAction → Prop
  | .pidfdOpen => c.startBefore = none → c.Own kn
  | .killTerm _ | .killKill _ => c.Own kn
  | _ => True

def Undisturbed (s : State) : Action → Prop
  | .kernel _ => True
  | .call k a => (s.calls k).Undisturbed s.kernel a

instance (s : State) (a : Action) : Decidable (Undisturbed s a) := by
  cases a with
  | kernel a => exact inferInstanceAs (Decidable True)
  | call k a =>
    cases a with
    | pidfdOpen => exact inferInstanceAs (Decidable (_ → _))
    | killTerm ok => exact inferInstanceAs (Decidable (Call.Own _ _))
    | killKill ok => exact inferInstanceAs (Decidable (Call.Own _ _))
    | _ => exact inferInstanceAs (Decidable True)

/-- A pidfd opened without a start time is one of the process that was matched. -/
def Call.PhaseOwn (c : Call) : Phase → Prop
  | .matched => c.sent = [] ∧ c.returned = none ∧ c.startBefore = none
  | .idle | .opening | .fallback => c.sent = [] ∧ c.returned = none
  | .pinned q | .checked q =>
    c.sent = [] ∧ c.returned = none ∧ (c.startBefore = none → c.owner = some q)
  | .escalating q | .expired q | .closing q => c.startBefore = none → c.owner = some q
  | _ => True

structure Call.OwnInv (c : Call) : Prop where
  phase : c.PhaseOwn c.phase
  intended : c.Intended

theorem Call.intended_quiet {c : Call} (hsent : c.sent = []) (hreturned : c.returned ≠ some true) :
    c.Intended := fun _ => ⟨by simp [hsent], fun h => absurd h hreturned⟩

theorem Call.OwnInv.goto {c : Call} (hc : c.OwnInv) {phase : Phase} (hphase : c.PhaseOwn phase) :
    (c.goto phase).OwnInv := ⟨by cases phase <;> exact hphase, hc.intended⟩

/-- A call that reached nobody returns false. -/
theorem Call.OwnInv.failed {c : Call} (hsent : c.sent = []) : (c.return false .done).OwnInv :=
  ⟨trivial, intended_quiet hsent (by simp [Call.return])⟩

/-- A signal to the process that was matched. -/
theorem Call.OwnInv.send {c : Call} (hc : c.OwnInv) {q : Process}
    (hq : c.Unguarded → c.owner = some q) (sig : Signal) (r : Option Bool) (phase : Phase) :
    ({ c.sending sig q with returned := r, phase := phase } : Call).Intended := by
  refine fun hun => ⟨fun e he => ?_, fun _ => ⟨(sig, q), by simp [Call.sending], hq hun⟩⟩
  rcases List.mem_append.mp he with he | he
  · exact (hc.intended hun).1 e he
  · rw [List.mem_singleton.mp he]
    exact hq hun

/-- With a pidfd, only a call without a start time is unguarded. -/
theorem Call.Confirmed.unguarded {c : Call} {q : Process} (h : c.Confirmed q) (hun : c.Unguarded) :
    c.startBefore = none :=
  hun.resolve_right fun hopened => absurd (h.1.symm.trans hopened) (by simp)

theorem Call.OwnInv.pidfdOpen {kn : Kernel} {c : Call} (hc : c.OwnInv) (hphase : c.phase = .opening)
    (hown : c.startBefore = none → c.Own kn) : (c.pidfdOpen kn).OwnInv := by
  have hquiet := hc.phase
  rw [hphase] at hquiet
  obtain ⟨hsent, hreturned⟩ := hquiet
  rw [Call.pidfdOpen]
  cases hq : kn.holder c.pid with
  | none => exact .failed hsent
  | some q =>
    have hmatched (hstart : c.startBefore = none) : c.owner = some q := (hown hstart).owner_eq hq
    refine ⟨?_, intended_quiet hsent (by simp [Call.goto, hreturned])⟩
    dsimp only [Call.goto]
    split
    · exact ⟨hsent, hreturned, hmatched⟩
    · exact ⟨hsent, hreturned, hmatched⟩

/-- **One step** of a call, where it goes by the pid only while that is its own. -/
theorem Call.step_own {kn : Kernel} {c c' : Call} {a : CallAction} (h : c.step kn a = some c')
    (hinv : c.Inv kn) (hc : c.OwnInv) (hown : c.Undisturbed kn a) : c'.OwnInv := by
  have hphase := hc.phase
  have hpinned := hinv.phase
  cases step_cases h with
  | stopMatches => exact ⟨⟨rfl, rfl, rfl⟩, intended_quiet rfl nofun⟩
  | readStart hp =>
    rw [hp] at hphase
    exact ⟨⟨hphase.1, hphase.2.1⟩, intended_quiet hphase.1 (by simp [Call.startRead, hphase.2.1])⟩
  | pidfdOpen hp => exact hc.pidfdOpen hp hown
  | pidfdUnavailable hp =>
    rw [hp] at hphase
    exact ⟨hphase, intended_quiet hphase.1 (by simp [hphase.2])⟩
  | same hp =>
    rw [hp] at hphase
    exact hc.goto hphase
  | other hp =>
    rw [hp] at hphase
    exact .failed hphase.1
  | sendTerm hp =>
    rw [hp] at hphase hpinned
    exact ⟨hphase.2.2, hc.send (fun hun => hphase.2.2 (hpinned.2.unguarded hun)) .term _ _⟩
  | termFailed hp =>
    rw [hp] at hphase
    exact .failed hphase.1
  | poll hp hnext =>
    rw [hp] at hphase
    rcases hnext with rfl | rfl <;> exact hc.goto hphase
  | sendKill hp =>
    rw [hp] at hphase hpinned
    exact ⟨hphase, hc.send (fun hun => hphase (hpinned.unguarded hun)) .kill _ _⟩
  | sendKillFailed hp =>
    rw [hp] at hphase
    exact hc.goto hphase
  | close => exact hc.goto trivial
  | killTerm _ hq => exact ⟨trivial, hc.send (fun _ => Call.Own.owner_eq hown hq) .term _ _⟩
  | killTermFailed hp =>
    rw [hp] at hphase
    exact .failed hphase.1
  | probe _ hnext =>
    simp only [List.mem_cons, List.not_mem_nil, or_false] at hnext
    rcases hnext with rfl | rfl | rfl <;> exact hc.goto trivial
  | recheck _ hnext =>
    simp only [List.mem_cons, List.not_mem_nil, or_false] at hnext
    rcases hnext with rfl | rfl <;> exact hc.goto trivial
  | killKill _ hq => exact ⟨trivial, hc.send (fun _ => Call.Own.owner_eq hown hq) .kill _ _⟩
  | killKillFailed => exact hc.goto trivial

/-- **The process that was matched**, and no other, is signalled by calls without
a start time or without a pidfd, if these go by the pid only while it is its own. -/
theorem undisturbed_intended (as : List Action)
    (h : ∀ s a t, Takes step .init as s a t → Undisturbed s a) :
    ∀ u, Reaches step .init as u → ∀ k, (u.calls k).Intended := by
  rintro u ⟨before, after, rfl, hrun⟩ k
  have hown : (u.calls k).OwnInv := by
    refine run_call (P := fun _ c => c.OwnInv) ⟨⟨rfl, rfl⟩, Call.intended_quiet rfl nofun⟩
      (fun _ hc => hc) ?_ hrun k
    intro s t k a c htakes hstep hc
    obtain ⟨_, hreach⟩ := htakes.reached
    exact Call.step_own hstep (run_inv hreach k) hc (h s _ t (htakes.append after))
  exact hown.intended

/-- A stranger got a signal from this call. -/
theorem Call.not_intended {c : Call} (hun : c.Unguarded) {e : Signal × Process} (he : e ∈ c.sent)
    (hne : c.owner ≠ some e.2) : ¬ c.Intended := fun h => hne ((h hun).1 e he)

/-- A call that runs while the kernel does nothing. -/
theorem run_calls {s : State} {k : ℕ} {c : Call} {bs : List CallAction}
    (h : run (Call.step s.kernel) (s.calls k) bs = some c) :
    run step s (bs.map (.call k)) = some { s with calls := Function.update s.calls k c } := by
  induction bs generalizing s with
  | nil =>
    obtain rfl := Option.some_inj.mp h
    simp
  | cons b bs ih =>
    obtain ⟨c', hc', hrest⟩ := run_cons_eq_some.mp h
    have hstep : step s (.call k b) = some { s with calls := Function.update s.calls k c' } := by
      rw [step, hc', Option.map_some]
    rw [List.map_cons, run_cons, hstep, Option.bind_some, ih (by simpa using hrest)]
    simp

/-- **Where the pid is a stranger's**, a step that goes by it can reach that one. -/
theorem disturbed_reaches_stranger {as : List Action} {s : State} {k : ℕ} {a : CallAction}
    (hrun : run step .init as = some s) (hstep : (step s (.call k a)).isSome)
    (h : ¬ Undisturbed s (.call k a)) :
    ∃ bs t, run step s bs = some t ∧ ¬ (t.calls k).Intended := by
  have hphase := (run_inv hrun k).phase
  obtain ⟨c, hc⟩ := Option.isSome_iff_exists.mp (Option.isSome_map .. ▸ hstep)
  have hstranger (hown : ¬ (s.calls k).Own s.kernel) :
      ∃ q, s.kernel.holder (s.calls k).pid = some q ∧ (s.calls k).owner ≠ some q := by
    obtain ⟨hsome, hne⟩ := not_or.mp hown
    obtain ⟨q, hq⟩ := Option.ne_none_iff_exists'.mp hsome
    exact ⟨q, hq, fun howner => hne (hq.trans howner.symm)⟩
  suffices ∃ bs c, run (Call.step s.kernel) (s.calls k) bs = some c ∧ ¬ c.Intended by
    obtain ⟨bs, c, hbs, hc⟩ := this
    exact ⟨_, _, run_calls hbs, by simpa using hc⟩
  cases a with
  | pidfdOpen =>
    obtain ⟨hp, -⟩ := Option.ite_none_right_eq_some.mp hc
    obtain ⟨hstart, hown⟩ := Classical.not_imp.mp h
    obtain ⟨q, hq, hne⟩ := hstranger hown
    -- the pidfd is taken as it is, and then signalled
    have hopen : (s.calls k).step s.kernel .pidfdOpen =
        some { s.calls k with opened := .tried (some q), phase := .checked q } := by
      simp [Call.step, hp, Call.pidfdOpen, hq, hstart, Call.goto]
    have hreach : s.kernel.reaches q = some q :=
      if_pos (Table.slot_eq_of_holds hq ▸ hq)
    refine ⟨[.pidfdOpen, .sendTerm true], Call.return true (.escalating q)
      (({ s.calls k with opened := .tried (some q), phase := .checked q } : Call).sending .term q),
      ?_, Call.not_intended (e := (.term, q)) (.inl hstart) ?_ hne⟩
    case refine_2 => simp [Call.return, Call.sending]
    rw [run_cons, hopen, Option.bind_some, run_singleton]
    simp only [Call.step, Call.signal, hreach, if_true, Option.map_some]
    rfl
  | killTerm ok =>
    obtain ⟨hp, -⟩ := Option.ite_none_right_eq_some.mp hc
    obtain ⟨q, hq, hne⟩ := hstranger h
    rw [hp] at hphase
    refine ⟨[.killTerm true], ((s.calls k).sending .term q).return true .sleeping, ?_,
      Call.not_intended (e := (.term, q)) (.inr hphase) (by simp [Call.return, Call.sending]) hne⟩
    rw [run_singleton, Call.step, if_pos hp, hq]
    rfl
  | killKill ok =>
    obtain ⟨hp, -⟩ := Option.ite_none_right_eq_some.mp hc
    obtain ⟨q, hq, hne⟩ := hstranger h
    rw [hp] at hphase
    refine ⟨[.killKill true], ((s.calls k).sending .kill q).goto .done, ?_,
      Call.not_intended (e := (.kill, q)) (.inr hphase) (by simp [Call.goto, Call.sending]) hne⟩
    rw [run_singleton, Call.step, if_pos hp, hq]
    rfl
  | _ => exact absurd trivial h

/-- `pidfd_open` is refused; the process that was matched gets both signals. -/
def fallbackRun : List Action :=
  [.kernel (.spawn ⟨7, 100⟩), .call 0 (.stopMatches 7), .call 0 (.readStart none),
    .call 0 .pidfdUnavailable, .call 0 (.killTerm true), .call 0 (.probe true),
    .call 0 (.killKill true)]

theorem undisturbed_intended_fallback :
    ∃ t, run step .init fallbackRun = some t ∧ (t.calls 0).Unguarded ∧ (t.calls 0).Intended ∧
      (t.calls 0).sent = [(.term, ⟨7, 100⟩), (.kill, ⟨7, 100⟩)] := by
  obtain ⟨t, hrun, ht⟩ := exists_run step State.init fallbackRun
    (p := fun t => (t.calls 0).startBefore = none ∧
      (t.calls 0).sent = [(.term, ⟨7, 100⟩), (.kill, ⟨7, 100⟩)]) (by decide +kernel)
  obtain ⟨hstart, hsent⟩ := of_decide_eq_true ht
  have hcond : along step (fun s a => decide (Undisturbed s a)) .init fallbackRun = true := by
    decide +kernel
  exact ⟨t, hrun, .inl hstart, undisturbed_intended fallbackRun
    (fun s a t htakes => of_decide_eq_true (takes_of_along hcond s a t htakes)) t
    ⟨fallbackRun, [], by simp, hrun⟩ 0, hsent⟩

/-- The process that was matched is gone before its start time is read, and
another one has its pid when the pidfd is opened. -/
def recycledRun : List Action :=
  [.kernel (.spawn ⟨7, 100⟩), .call 0 (.stopMatches 7), .kernel (.exit ⟨7, 100⟩),
    .kernel (.reap ⟨7, 100⟩), .call 0 (.readStart none), .kernel (.spawn ⟨7, 200⟩),
    .call 0 .pidfdOpen, .call 0 (.sendTerm true)]

/-- The call signals the stranger and returns true. -/
theorem recycled_pid_signalled :
    ∃ t, run step .init recycledRun = some t ∧ (t.calls 0).Unguarded ∧
      (t.calls 0).owner = some ⟨7, 100⟩ ∧ (t.calls 0).sent = [(.term, ⟨7, 200⟩)] ∧
      (t.calls 0).returned = some true ∧ ¬ (t.calls 0).Intended := by
  obtain ⟨t, hrun, ht⟩ := exists_run step State.init recycledRun
    (p := fun t => (t.calls 0).startBefore = none ∧ (t.calls 0).owner = some ⟨7, 100⟩ ∧
      (t.calls 0).sent = [(.term, ⟨7, 200⟩)] ∧ (t.calls 0).returned = some true)
    (by decide +kernel)
  obtain ⟨hstart, howner, hsent, hreturned⟩ := of_decide_eq_true ht
  refine ⟨t, hrun, .inl hstart, howner, hsent, hreturned, fun h => ?_⟩
  have hmatched := (h (.inl hstart)).1 (.term, ⟨7, 200⟩) (by simp [hsent])
  rw [howner] at hmatched
  exact absurd hmatched (by decide)

end InstanceSignal
