/-
Handles of the native library, as Dart uses them (`installation.dart`,
`transaction.dart`, `remote_manager.dart`, `flatpak_client.dart` and
`ffi/bindings.dart` of `lib/src`, with the C ABI of `native/src`).

A create function returns null where libflatpak fails.  None of the callers looks
at what it returned, and `close` does not remember that it was called; so

* `sound_iff_careful` — through a run nothing is read through a null or destroyed
  handle, nothing is destroyed twice, and what could not get its handle throws,
  exactly if every step is `Careful`: the creates it needs succeed, and it comes
  before the only `close`.
-/
import FlatpakDart.HandleLog
import FlatpakDart.RemoteManager

open HandleLog

namespace NativeHandles

/-! ### The C ABI -/

/-- Handles are told apart by what they were made for: a client has one reader and
one worker. -/
inductive Handle
  | reader (client : ℕ)
  | worker (client : ℕ)
  | tx (k : ℕ)
  | remote (k : ℕ)
  | monitor (k : ℕ)
  deriving DecidableEq

/-- A `Pointer<Void>`; `none` is null. -/
abbrev Pointer := Option Handle

/-- The functions `flatpak_reader_…` that work on a reader. -/
inductive ReaderFn
  | listApps
  | listRemotes
  | getRemoteInfo
  | listRemoteApps
  | getAppInfo
  | getPermissions
  | checkUpdates
  | fetchRemoteMetadata
  | launch
  | stop
  | listRunning
  | refreshAppstream
  | dropCaches
  | getVersion
  | getDefaultArch
  | getSupportedArches
  | listSystemInstallations
  | getRuntimeRef
  | isRefInstalled
  | listMissingExtensions
  deriving DecidableEq

/-- In a sandbox these three go to `HostFlatpak` instead. -/
def ReaderFn.delegated : ReaderFn → Bool
  | .launch | .stop | .listRunning => true
  | _ => false

/-- The functions `flatpak_tx_add_…`. -/
inductive TxAddFn
  | install
  | update
  | uninstall
  | installBundle
  deriving DecidableEq

/-- The functions `flatpak_user_remote_…` and `flatpak_system_remote_…`. -/
inductive RemoteFn
  | add
  | addFromFile
  | modify
  | remove
  | update
  deriving DecidableEq

/-- A call into the library, with the pointers it is given and what a create
returns. -/
inductive NativeCall
  | readerCreate (result : Pointer)
  | reader (fn : ReaderFn) (handle : Pointer)
  | readerDestroy (handle : Pointer)
  | workerCreate (result : Pointer)
  | workerCancelCurrent (handle : Pointer)
  | workerDestroy (handle : Pointer)
  | txCreate (worker result : Pointer)
  | txAdd (fn : TxAddFn) (handle : Pointer)
  /-- enqueues on the worker the handle was made for -/
  | txSubmit (handle worker : Pointer)
  | remoteCreate (isSystem : Bool) (result : Pointer)
  | remote (isSystem : Bool) (fn : RemoteFn) (handle : Pointer)
  | monitorCreate (result : Pointer)
  | monitorClose (handle : Pointer)
  | monitorDestroy (handle : Pointer)

/-- What a create does. -/
def making : Pointer → List (Event Handle)
  | none => []
  | some h => [.make h]

/-- `if (!h) return;` and what follows. -/
def touching : Pointer → List (Event Handle)
  | none => []
  | some h => [.touch (some h)]

/-- `delete`, which does nothing with a null pointer. -/
def destroying : Pointer → List (Event Handle)
  | none => []
  | some h => [.touch (some h), .destroy h]

/-- What a call does with its handles: `static_cast<T*>(handle)->…` goes through the pointer
whatever it is.  Of the reader's functions, `getVersion`, `getDefaultArch`,
`getSupportedArches`, `listSystemInstallations`, `stop` and `listRunning` only make a member
call through it; the others read members of the object. -/
@[simp] def NativeCall.events : NativeCall → List (Event Handle)
  | .readerCreate result => making result
  | .reader _ handle => [.touch handle]
  | .readerDestroy handle => destroying handle
  | .workerCreate result => making result
  | .workerCancelCurrent handle => [.touch handle]
  | .workerDestroy handle => destroying handle
  | .txCreate worker result => .touch worker :: making result
  | .txAdd _ handle => [.touch handle]
  | .txSubmit handle worker => [.touch handle, .touch worker]
  | .remoteCreate _ result => making result
  | .remote _ _ handle => [.touch handle]
  | .monitorCreate result => making result
  | .monitorClose handle => touching handle
  -- closes first
  | .monitorDestroy handle => touching handle ++ destroying handle

/-! ### The objects of Dart -/

/-- A `FlatpakClient` with its `FlatpakInstallation` and its `TransactionBridge`. -/
structure Client where
  client : RemoteManager.FlatpakClient
  /-- `_host` is set -/
  sandboxed : Bool
  /-- `late final _handle`: whether the create, once it was called, returned a reader -/
  reader : Option Bool
  /-- whether the create returned a worker -/
  worker : Bool
  /-- a `FlatpakTransaction` was handed out -/
  submitted : Bool
  /-- calls of `close` so far -/
  closes : ℕ

/-- An `UpdateMonitor`. -/
structure Monitor where
  /-- whether the create returned a handle -/
  made : Bool
  closes : ℕ

/-- How an operation ends that needs a handle. -/
structure Ending where
  /-- the handle was made -/
  created : Bool
  /-- the message of the `FlatpakException` it throws -/
  thrown : Option String

/-- The objects of a process, the calls into the library and the endings of the
operations. -/
structure Process where
  clients : ℕ → Option Client
  monitors : ℕ → Option Monitor
  txs : ℕ
  remotes : ℕ
  calls : List NativeCall
  endings : List Ending

def init : Process := ⟨fun _ => none, fun _ => none, 0, 0, [], []⟩

/-- What was done with handles so far. -/
def Process.events (p : Process) : List (Event Handle) := p.calls.flatMap NativeCall.events

/-- `_handle` of the installation: the first use creates it. -/
def Client.readerHandle (c : Client) (i : ℕ) (opens : Bool) : Bool × List NativeCall :=
  match c.reader with
  | some made => (made, [])
  | none => (opens, [.readerCreate (if opens then some (.reader i) else none)])

def readerPointer (i : ℕ) (made : Bool) : Pointer := if made then some (.reader i) else none

def Client.workerPointer (c : Client) (i : ℕ) : Pointer :=
  if c.worker then some (.worker i) else none

def Monitor.pointer (m : Monitor) (j : ℕ) : Pointer := if m.made then some (.monitor j) else none

def Process.setClient (p : Process) (i : ℕ) (c : Client) : Process :=
  { p with clients := Function.update p.clients i (some c) }

def Process.setMonitor (p : Process) (j : ℕ) (m : Monitor) : Process :=
  { p with monitors := Function.update p.monitors j (some m) }

def Process.call (p : Process) (calls : List NativeCall) : Process :=
  { p with calls := p.calls ++ calls }

/-- The function a write of `FlatpakRemoteManager` calls. -/
def remoteFn : RemoteManager.Op → RemoteFn
  | .add _ config _ => if config.flatpakrepoPath.isSome then .addFromFile else .add
  | .addFromFile .. => .addFromFile
  | .modify .. | .modifySubset .. | .enable .. | .disable .. | .setPriority .. => .modify
  | .remove .. => .remove
  | .update .. => .update

/-- The steps of a process.  A method of `FlatpakClient` or `FlatpakRemoteManager` that
reads is one call of the reader, or several with awaits between; `opens` and `created`
say whether libflatpak succeeds where the step calls a create. -/
inductive Action
  /-- `FlatpakClient.system`, `.user` or `.at` makes the `i`-th client -/
  | new (i : ℕ) (client : RemoteManager.FlatpakClient) (sandboxed opens : Bool)
  | read (i : ℕ) (fn : ReaderFn) (opens : Bool)
  /-- `_submit` -/
  | submit (i : ℕ) (ops : List TxAddFn) (created : Bool)
  /-- `cancel` of a `FlatpakTransaction` -/
  | cancel (i : ℕ)
  /-- a write of `FlatpakRemoteManager` -/
  | remote (i : ℕ) (op : RemoteManager.Op) (opens : Bool)
  /-- `watchUpdates` makes the `j`-th monitor -/
  | watch (i j : ℕ) (opens : Bool)
  /-- `UpdateMonitor.close` -/
  | closeMonitor (j : ℕ)
  /-- `FlatpakClient.close` -/
  | close (i : ℕ) (opens : Bool)

/-- An operation has made these calls; nothing in the source throws where a create
returned null. -/
def Process.perform (p : Process) (created : Bool) (calls : List NativeCall) : Process :=
  { p.call calls with endings := p.endings ++ [⟨created, none⟩] }

/-- The calls of `_submit`. -/
def submitCalls (ops : List TxAddFn) (worker tx : Pointer) : List NativeCall :=
  .txCreate worker tx :: ops.map (.txAdd · tx) ++ [.txSubmit tx worker]

/-- One step; `none` where there is no such object, or there is one already. -/
def step (p : Process) : Action → Option Process
  | .new i client sandboxed opens =>
    match p.clients i with
    | some _ => none
    | none =>
      let c : Client := ⟨client, sandboxed, none, opens, false, 0⟩
      some ((p.setClient i c).call [.workerCreate (c.workerPointer i)])
  | .read i fn opens =>
    match p.clients i with
    | none => none
    | some c =>
      if c.sandboxed ∧ fn.delegated then some p
      else
        let (made, creating) := c.readerHandle i opens
        some ((p.setClient i { c with reader := some made }).perform made
          (creating ++ [.reader fn (readerPointer i made)]))
  | .submit i ops created =>
    match p.clients i with
    | none => none
    | some c =>
      let tx : Pointer := if created then some (.tx p.txs) else none
      some { (p.setClient i { c with submitted := true }).perform created
          (submitCalls ops (c.workerPointer i) tx) with
        txs := p.txs + 1 }
  | .cancel i =>
    match p.clients i with
    | none => none
    | some c =>
      if c.submitted then some (p.call [.workerCancelCurrent (c.workerPointer i)]) else none
  | .remote i op opens =>
    match p.clients i with
    | none => none
    | some c =>
      let handle : Pointer := if opens then some (.remote p.remotes) else none
      some { p.perform opens
          [.remoteCreate c.client.isSystem handle,
            .remote c.client.isSystem (remoteFn op) handle] with
        remotes := p.remotes + 1 }
  | .watch i j opens =>
    match p.clients i, p.monitors j with
    | some _, none =>
      let m : Monitor := ⟨opens, 0⟩
      some ((p.setMonitor j m).perform opens [.monitorCreate (m.pointer j)])
    | _, _ => none
  | .closeMonitor j =>
    match p.monitors j with
    | none => none
    | some m =>
      some ((p.setMonitor j { m with closes := m.closes + 1 }).call
        [.monitorClose (m.pointer j), .monitorDestroy (m.pointer j)])
  | .close i opens =>
    match p.clients i with
    | none => none
    | some c =>
      -- a reader that was never used is made to be destroyed
      let (made, creating) := c.readerHandle i opens
      some ((p.setClient i { c with reader := some made, closes := c.closes + 1 }).call
        (creating ++ [.readerDestroy (readerPointer i made), .workerDestroy (c.workerPointer i)]))

/-! ### What the log says of a client and of a monitor -/

structure ClientInv (log : List (Event Handle)) (i : ℕ) (c : Client) : Prop where
  reader_made : c.reader = some true → .reader i ∈ made log
  worker_made : c.worker = true → .worker i ∈ made log
  reader_destroyed : .reader i ∈ destroyed log ↔ c.reader = some true ∧ 0 < c.closes
  worker_destroyed : .worker i ∈ destroyed log ↔ c.worker = true ∧ 0 < c.closes
  /-- closing a client uses its reader -/
  closed_used : 0 < c.closes → c.reader ≠ none

structure MonitorInv (log : List (Event Handle)) (j : ℕ) (m : Monitor) : Prop where
  monitor_made : m.made = true → .monitor j ∈ made log
  monitor_destroyed : .monitor j ∈ destroyed log ↔ m.made = true ∧ 0 < m.closes

/-- Nothing else was ever destroyed. -/
structure Inv (p : Process) : Prop where
  client : ∀ {i c}, p.clients i = some c → ClientInv p.events i c
  monitor : ∀ {j m}, p.monitors j = some m → MonitorInv p.events j m
  noClient : ∀ {i}, p.clients i = none →
    .reader i ∉ destroyed p.events ∧ .worker i ∉ destroyed p.events
  noMonitor : ∀ {j}, p.monitors j = none → .monitor j ∉ destroyed p.events
  tx : ∀ k, .tx k ∉ destroyed p.events
  remote : ∀ k, .remote k ∉ destroyed p.events

theorem init_inv : Inv init where
  client h := absurd h (by simp [init])
  monitor h := absurd h (by simp [init])
  noClient _ := by simp [init, Process.events]
  noMonitor _ := by simp [init, Process.events]
  tx _ := by simp [init, Process.events]
  remote _ := by simp [init, Process.events]

theorem ClientInv.append {log : List (Event Handle)} {i : ℕ} {c : Client} (hc : ClientInv log i c)
    {es : List (Event Handle)} (hreader : .reader i ∉ destroyed es)
    (hworker : .worker i ∉ destroyed es) : ClientInv (log ++ es) i c where
  reader_made h := by simp [hc.reader_made h]
  worker_made h := by simp [hc.worker_made h]
  reader_destroyed := by simp [hreader, hc.reader_destroyed]
  worker_destroyed := by simp [hworker, hc.worker_destroyed]
  closed_used := hc.closed_used

theorem MonitorInv.append {log : List (Event Handle)} {j : ℕ} {m : Monitor}
    (hm : MonitorInv log j m) {es : List (Event Handle)} (hes : .monitor j ∉ destroyed es) :
    MonitorInv (log ++ es) j m where
  monitor_made h := by simp [hm.monitor_made h]
  monitor_destroyed := by simp [hes, hm.monitor_destroyed]

/-- A step of one client. -/
theorem Inv.setClient {p q : Process} (hp : Inv p) {i : ℕ} {c : Client}
    {es : List (Event Handle)} (hevents : q.events = p.events ++ es)
    (hclients : q.clients = Function.update p.clients i (some c))
    (hmonitors : q.monitors = p.monitors)
    (hown : ∀ h, h ≠ .reader i → h ≠ .worker i → h ∉ destroyed es)
    (hc : ClientInv (p.events ++ es) i c) : Inv q where
  client {k d} hk := by
    rw [hevents]
    rw [hclients] at hk
    by_cases hki : k = i
    · subst hki
      rw [Function.update_self, Option.some_inj] at hk
      exact hk ▸ hc
    · rw [Function.update_of_ne hki] at hk
      exact (hp.client hk).append (hown _ (by simp [hki]) (by simp))
        (hown _ (by simp) (by simp [hki]))
  monitor {j m} hj := by
    rw [hevents]
    rw [hmonitors] at hj
    exact (hp.monitor hj).append (hown _ (by simp) (by simp))
  noClient {k} hk := by
    rw [hclients] at hk
    have hki : k ≠ i := by
      rintro rfl
      simp at hk
    rw [Function.update_of_ne hki] at hk
    rw [hevents]
    obtain ⟨hreader, hworker⟩ := hp.noClient hk
    exact ⟨not_mem_destroyed_append hreader (hown _ (by simp [hki]) (by simp)),
      not_mem_destroyed_append hworker (hown _ (by simp) (by simp [hki]))⟩
  noMonitor {j} hj := by
    rw [hevents]
    rw [hmonitors] at hj
    exact not_mem_destroyed_append (hp.noMonitor hj) (hown _ (by simp) (by simp))
  tx k := by
    rw [hevents]
    exact not_mem_destroyed_append (hp.tx k) (hown _ (by simp) (by simp))
  remote k := by
    rw [hevents]
    exact not_mem_destroyed_append (hp.remote k) (hown _ (by simp) (by simp))

/-- A step that leaves the client as it is. -/
theorem Inv.same {p q : Process} (hp : Inv p) {i : ℕ} {c : Client} (hi : p.clients i = some c)
    {es : List (Event Handle)} (hevents : q.events = p.events ++ es)
    (hclients : q.clients = p.clients) (hmonitors : q.monitors = p.monitors)
    (hdestroyed : destroyed es = []) : Inv q := by
  have hupdate : q.clients = Function.update p.clients i (some c) := by
    rw [hclients, ← hi, Function.update_eq_self]
  refine hp.setClient hevents hupdate hmonitors (by simp [hdestroyed]) ?_
  exact (hp.client hi).append (by simp [hdestroyed]) (by simp [hdestroyed])

/-- A step of one monitor. -/
theorem Inv.setMonitor {p q : Process} (hp : Inv p) {j : ℕ} {m : Monitor}
    {es : List (Event Handle)} (hevents : q.events = p.events ++ es)
    (hclients : q.clients = p.clients)
    (hmonitors : q.monitors = Function.update p.monitors j (some m))
    (hown : ∀ h, h ≠ .monitor j → h ∉ destroyed es) (hm : MonitorInv (p.events ++ es) j m) :
    Inv q where
  client {i c} hi := by
    rw [hevents]
    rw [hclients] at hi
    exact (hp.client hi).append (hown _ (by simp)) (hown _ (by simp))
  monitor {k n} hk := by
    rw [hevents]
    rw [hmonitors] at hk
    by_cases hkj : k = j
    · subst hkj
      rw [Function.update_self, Option.some_inj] at hk
      exact hk ▸ hm
    · rw [Function.update_of_ne hkj] at hk
      exact (hp.monitor hk).append (hown _ (by simp [hkj]))
  noClient {i} hi := by
    rw [hevents]
    rw [hclients] at hi
    obtain ⟨hreader, hworker⟩ := hp.noClient hi
    exact ⟨not_mem_destroyed_append hreader (hown _ (by simp)),
      not_mem_destroyed_append hworker (hown _ (by simp))⟩
  noMonitor {k} hk := by
    rw [hmonitors] at hk
    have hkj : k ≠ j := by
      rintro rfl
      simp at hk
    rw [Function.update_of_ne hkj] at hk
    rw [hevents]
    exact not_mem_destroyed_append (hp.noMonitor hk) (hown _ (by simp [hkj]))
  tx k := by
    rw [hevents]
    exact not_mem_destroyed_append (hp.tx k) (hown _ (by simp))
  remote k := by
    rw [hevents]
    exact not_mem_destroyed_append (hp.remote k) (hown _ (by simp))

/-! ### Which calls fit -/

theorem ClientInv.live_reader {log : List (Event Handle)} {i : ℕ} {c : Client}
    (hc : ClientInv log i c) (hreader : c.reader = some true) :
    Live log (.reader i) ↔ c.closes = 0 := by
  rw [Live, hc.reader_destroyed]
  simp [hc.reader_made hreader, hreader]

theorem ClientInv.live_worker {log : List (Event Handle)} {i : ℕ} {c : Client}
    (hc : ClientInv log i c) (hworker : c.worker = true) :
    Live log (.worker i) ↔ c.closes = 0 := by
  rw [Live, hc.worker_destroyed]
  simp [hc.worker_made hworker, hworker]

theorem MonitorInv.live {log : List (Event Handle)} {j : ℕ} {m : Monitor}
    (hm : MonitorInv log j m) (hmade : m.made = true) : Live log (.monitor j) ↔ m.closes = 0 := by
  rw [Live, hm.monitor_destroyed]
  simp [hm.monitor_made hmade, hmade]

theorem readerPointer_eq_some {i : ℕ} {made : Bool} {h : Handle} :
    readerPointer i made = some h ↔ made = true ∧ .reader i = h := by
  cases made <;> simp [readerPointer]

theorem workerPointer_eq_some {c : Client} {i : ℕ} {h : Handle} :
    c.workerPointer i = some h ↔ c.worker = true ∧ .worker i = h := by
  cases hworker : c.worker <;> simp [Client.workerPointer, hworker]

theorem fits_touch_reader {log : List (Event Handle)} {i : ℕ} {c : Client}
    (hc : ClientInv log i c) {made : Bool} (hreader : c.reader = some made) :
    Fits log (.touch (readerPointer i made)) ↔ made = true ∧ c.closes = 0 := by
  cases made with
  | false => simp [Fits, readerPointer]
  | true => simp [Fits, readerPointer, hc.live_reader hreader]

theorem fits_touch_worker {log : List (Event Handle)} {i : ℕ} {c : Client}
    (hc : ClientInv log i c) :
    Fits log (.touch (c.workerPointer i)) ↔ c.worker = true ∧ c.closes = 0 := by
  cases hworker : c.worker with
  | false => simp [Fits, Client.workerPointer, hworker]
  | true => simp [Fits, Client.workerPointer, hworker, hc.live_worker hworker]

theorem fitsAll_destroying (log : List (Event Handle)) (p : Pointer) :
    FitsAll log (destroying p) ↔ ∀ h, p = some h → Live log h := by
  cases p with
  | none => simp [destroying]
  | some h =>
    rw [destroying, fitsAll_touch_destroy]
    simp

@[simp] theorem fitsAll_making (log : List (Event Handle)) (p : Pointer) :
    FitsAll log (making p) := by
  cases p <;> simp [making, FitsAll, Fits]

@[simp] theorem destroyed_making (p : Pointer) : destroyed (making p) = [] := by
  cases p <;> rfl

@[simp] theorem made_making (p : Pointer) : made (making p) = p.toList := by
  cases p <;> rfl

@[simp] theorem destroyed_touching (p : Pointer) : destroyed (touching p) = [] := by
  cases p <;> rfl

@[simp] theorem destroyed_destroying (p : Pointer) : destroyed (destroying p) = p.toList := by
  cases p <;> rfl

@[simp] theorem made_destroying (p : Pointer) : made (destroying p) = [] := by
  cases p <;> rfl

/-- What the first use of `_handle` adds to the log. -/
theorem readerHandle_events (c : Client) (i : ℕ) (opens : Bool) :
    (c.readerHandle i opens).2.flatMap NativeCall.events =
      if c.reader = none then making (readerPointer i opens) else [] := by
  cases hreader : c.reader <;> simp [Client.readerHandle, hreader, NativeCall.events, readerPointer]

@[simp] theorem destroyed_readerHandle (c : Client) (i : ℕ) (opens : Bool) :
    destroyed ((c.readerHandle i opens).2.flatMap NativeCall.events) = [] := by
  rw [readerHandle_events]
  split <;> simp

@[simp] theorem fitsAll_readerHandle (log : List (Event Handle)) (c : Client) (i : ℕ)
    (opens : Bool) : FitsAll log ((c.readerHandle i opens).2.flatMap NativeCall.events) := by
  rw [readerHandle_events]
  split <;> simp

theorem ClientInv.readerHandle {log : List (Event Handle)} {i : ℕ} {c : Client}
    (hc : ClientInv log i c) (opens : Bool) :
    ClientInv (log ++ (c.readerHandle i opens).2.flatMap NativeCall.events) i
      { c with reader := some (c.readerHandle i opens).1 } := by
  rw [readerHandle_events]
  cases hreader : c.reader with
  | some made =>
    have hsame : ({ c with reader := some made } : Client) = c := by rw [← hreader]
    simpa [Client.readerHandle, hreader, hsame] using hc
  | none =>
    -- it was not closed, so there is nothing of it that was destroyed
    have hopen : c.closes = 0 := by
      by_contra h
      exact hc.closed_used (Nat.pos_of_ne_zero h) hreader
    have hdestroyed : .reader i ∉ destroyed log := by
      rw [hc.reader_destroyed]
      simp [hopen]
    exact {
      reader_made := fun h => by
        have hopens : opens = true := by simpa [Client.readerHandle, hreader] using h
        simp [hopens, readerPointer]
      worker_made := fun h => by simp [hc.worker_made h]
      reader_destroyed := by simp [hdestroyed, hopen]
      worker_destroyed := by simp [hc.worker_destroyed, hopen]
      closed_used := fun _ => by simp }

/-! ### The discipline -/

/-- Handles are used as they may be, and an operation that could not get its handle
throws. -/
structure Sound (p : Process) : Prop where
  live : ∀ before pointer after, p.events = before ++ .touch pointer :: after →
    ∃ h, pointer = some h ∧ Live before h
  once : (destroyed p.events).Nodup
  thrown : ∀ e ∈ p.endings, e.created = false → e.thrown ≠ none

theorem sound_iff_disciplined (p : Process) :
    Sound p ↔ Disciplined p.events ∧ ∀ e ∈ p.endings, e.created = false → e.thrown ≠ none := by
  rw [disciplined_iff]
  exact ⟨fun h => ⟨⟨h.live, h.once⟩, h.thrown⟩, fun h => ⟨h.1.1, h.1.2, h.2⟩⟩

/-- The creates that the step needs succeed, and nothing of a client or a monitor is used
after it was closed.  A client that has neither a reader nor a worker may be closed
again. -/
def Careful (p : Process) : Action → Prop
  | .new .. => True
  | .read i fn opens => ∀ c, p.clients i = some c →
    (c.sandboxed = true ∧ fn.delegated = true) ∨
      ((c.readerHandle i opens).1 = true ∧ c.closes = 0)
  | .submit i _ created => ∀ c, p.clients i = some c →
    c.worker = true ∧ c.closes = 0 ∧ created = true
  | .cancel i => ∀ c, p.clients i = some c → c.worker = true ∧ c.closes = 0
  | .remote _ _ opens => opens = true
  | .watch _ _ opens => opens = true
  | .closeMonitor j => ∀ m, p.monitors j = some m → m.made = true → m.closes = 0
  | .close i _ => ∀ c, p.clients i = some c →
    c.closes = 0 ∨ c.reader = some false ∧ c.worker = false

/-- The step makes these calls and adds these endings, which is fitting exactly if it is
careful. -/
structure Effect (p : Process) (a : Action) (q : Process) (calls : List NativeCall)
    (ends : List Ending) : Prop where
  called : q.calls = p.calls ++ calls
  endings : q.endings = p.endings ++ ends
  inv : Inv q
  careful : FitsAll p.events (calls.flatMap NativeCall.events) ∧
      (∀ e ∈ ends, e.created = false → e.thrown ≠ none) ↔ Careful p a

theorem events_of_calls {p q : Process} {calls : List NativeCall}
    (h : q.calls = p.calls ++ calls) :
    q.events = p.events ++ calls.flatMap NativeCall.events := by
  rw [Process.events, h, List.flatMap_append]
  rfl

theorem Effect.sound {p q : Process} {a : Action} {calls : List NativeCall} {ends : List Ending}
    (h : Effect p a q calls ends) (hp : Sound p) : Sound q ↔ Careful p a := by
  obtain ⟨hlog, hthrown⟩ := (sound_iff_disciplined p).mp hp
  rw [sound_iff_disciplined, events_of_calls h.called, h.endings, disciplined_append_iff,
    ← h.careful]
  simp only [List.mem_append, or_imp, forall_and]
  exact ⟨fun hq => ⟨hq.1.2, hq.2.2⟩, fun hq => ⟨⟨hlog, hq.1⟩, hthrown, hq.2⟩⟩

/-- An operation throws nothing, so it must get its handle. -/
theorem thrown_iff (created : Bool) :
    (∀ e ∈ [(⟨created, none⟩ : Ending)], e.created = false → e.thrown ≠ none) ↔
      created = true := by
  cases created <;> simp

theorem new_effect {p : Process} (hp : Inv p) {i : ℕ} (hi : p.clients i = none)
    (client : RemoteManager.FlatpakClient) (sandboxed opens : Bool) {c : Client}
    (hc : c = ⟨client, sandboxed, none, opens, false, 0⟩) :
    Effect p (.new i client sandboxed opens)
      ((p.setClient i c).call [.workerCreate (c.workerPointer i)])
      [.workerCreate (c.workerPointer i)] [] := by
  subst hc
  refine ⟨rfl, (List.append_nil _).symm, ?_, by simp [Careful]⟩
  obtain ⟨hreader, hworker⟩ := hp.noClient hi
  refine hp.setClient (events_of_calls rfl) rfl rfl (by simp) ?_
  exact {
    reader_made := by simp
    worker_made := fun h => by simp [Client.workerPointer, show opens = true from h]
    reader_destroyed := by simp [hreader]
    worker_destroyed := by simp [hworker]
    closed_used := by simp }

/-- The reader is called, having been made if it was not there. -/
theorem read_effect {p : Process} (hp : Inv p) {i : ℕ} {c : Client} (hi : p.clients i = some c)
    (fn : ReaderFn) (opens : Bool) (hdirect : ¬ (c.sandboxed = true ∧ fn.delegated = true)) :
    Effect p (.read i fn opens)
      ((p.setClient i { c with reader := some (c.readerHandle i opens).1 }).perform
        (c.readerHandle i opens).1
        ((c.readerHandle i opens).2 ++ [.reader fn (readerPointer i (c.readerHandle i opens).1)]))
      ((c.readerHandle i opens).2 ++ [.reader fn (readerPointer i (c.readerHandle i opens).1)])
      [⟨(c.readerHandle i opens).1, none⟩] := by
  have hused := (hp.client hi).readerHandle opens
  refine ⟨rfl, rfl, hp.setClient (events_of_calls rfl) rfl rfl (by simp) ?_, ?_⟩
  · rw [List.flatMap_append, ← List.append_assoc]
    exact hused.append (by simp) (by simp)
  · rw [List.flatMap_append, fitsAll_append, List.flatMap_singleton, NativeCall.events, FitsAll,
      fits_touch_reader hused rfl, thrown_iff]
    simp only [fitsAll_readerHandle, fitsAll_nil, Careful, hi, Option.some.injEq, forall_eq',
      hdirect, false_or, true_and, and_true]
    exact ⟨fun h => h.1, fun h => ⟨h, h.1⟩⟩

/-- What `_submit` does with the worker and the transaction it makes. -/
theorem submitCalls_events (ops : List TxAddFn) (worker tx : Pointer) :
    (submitCalls ops worker tx).flatMap NativeCall.events =
      [.touch worker] ++ (making tx ++
        (List.replicate ops.length (.touch tx) ++ [.touch tx, .touch worker])) := by
  have hadds : (ops.map (NativeCall.txAdd · tx)).flatMap NativeCall.events =
      List.replicate ops.length (.touch tx) := by
    induction ops with
    | nil => rfl
    | cons op ops ih =>
      rw [List.map_cons, List.flatMap_cons, ih]
      rfl
  rw [submitCalls, List.flatMap_append, List.flatMap_cons, hadds]
  simp

theorem submit_effect {p : Process} (hp : Inv p) {i : ℕ} {c : Client}
    (hi : p.clients i = some c) (ops : List TxAddFn) (created : Bool) {tx : Pointer}
    (htx : tx = if created then some (.tx p.txs) else none) :
    Effect p (.submit i ops created)
      { (p.setClient i { c with submitted := true }).perform created
          (submitCalls ops (c.workerPointer i) tx) with
        txs := p.txs + 1 }
      (submitCalls ops (c.workerPointer i) tx) [⟨created, none⟩] := by
  have hc := hp.client hi
  refine ⟨rfl, rfl, ?_, ?_⟩
  · refine hp.setClient (events_of_calls rfl) rfl rfl (by simp [submitCalls_events]) ?_
    rw [submitCalls_events]
    have happend : ClientInv (p.events ++ ([.touch (c.workerPointer i)] ++ (making tx ++
        (List.replicate ops.length (.touch tx) ++ [.touch tx, .touch (c.workerPointer i)])))) i c :=
      hc.append (by simp) (by simp)
    exact ⟨happend.reader_made, happend.worker_made, happend.reader_destroyed,
      happend.worker_destroyed, happend.closed_used⟩
  · rw [submitCalls_events, fitsAll_append, fitsAll_append, FitsAll, fits_touch_worker hc,
      thrown_iff]
    simp only [Careful, hi, Option.some.injEq, forall_eq', fitsAll_nil, and_true, fitsAll_making,
      true_and]
    constructor
    · exact fun h => ⟨h.1.1.1, h.1.1.2, h.2⟩
    · rintro ⟨hworker, hopen, rfl⟩
      refine ⟨⟨⟨hworker, hopen⟩, fitsAll_touches fun e he => ?_⟩, rfl⟩
      have hlive := (hc.live_worker hworker).mpr hopen
      -- the transaction was made just now
      have htxlive : Live (p.events ++ [.touch (c.workerPointer i)] ++ making tx) (.tx p.txs) := by
        simp [Live, htx, hp.tx]
      have hworkerlive : Live (p.events ++ [.touch (c.workerPointer i)] ++ making tx)
          (.worker i) := (hlive.append (by simp)).append (by simp)
      simp only [Client.workerPointer, hworker, htx, if_true, List.mem_append,
        List.mem_replicate, List.mem_cons, List.not_mem_nil, or_false] at he
      rcases he with ⟨-, rfl⟩ | rfl | rfl
      · exact ⟨_, rfl, htxlive⟩
      · exact ⟨_, rfl, htxlive⟩
      · exact ⟨_, rfl, hworkerlive⟩

theorem cancel_effect {p : Process} (hp : Inv p) {i : ℕ} {c : Client}
    (hi : p.clients i = some c) :
    Effect p (.cancel i) (p.call [.workerCancelCurrent (c.workerPointer i)])
      [.workerCancelCurrent (c.workerPointer i)] [] := by
  refine ⟨rfl, (List.append_nil _).symm, hp.same hi (events_of_calls rfl) rfl rfl (by simp), ?_⟩
  rw [List.flatMap_singleton, NativeCall.events, FitsAll, fits_touch_worker (hp.client hi)]
  simp [Careful, hi]

theorem remote_effect {p : Process} (hp : Inv p) {i : ℕ} {c : Client}
    (hi : p.clients i = some c) (op : RemoteManager.Op) (opens : Bool) {handle : Pointer}
    (hhandle : handle = if opens then some (.remote p.remotes) else none) :
    Effect p (.remote i op opens)
      { p.perform opens
          [.remoteCreate c.client.isSystem handle,
            .remote c.client.isSystem (remoteFn op) handle] with
        remotes := p.remotes + 1 }
      [.remoteCreate c.client.isSystem handle, .remote c.client.isSystem (remoteFn op) handle]
      [⟨opens, none⟩] := by
  have hevents : [NativeCall.remoteCreate c.client.isSystem handle,
      .remote c.client.isSystem (remoteFn op) handle].flatMap NativeCall.events =
      making handle ++ [.touch handle] := by simp
  refine ⟨rfl, rfl, hp.same hi (events_of_calls rfl) rfl rfl (by simp), ?_⟩
  rw [hevents, fitsAll_append, thrown_iff, FitsAll]
  simp only [Careful, fitsAll_making, fitsAll_nil, true_and, and_true]
  refine ⟨fun h => h.2, ?_⟩
  rintro rfl
  exact ⟨⟨_, hhandle, by simp [Live, hhandle, hp.remote]⟩, rfl⟩

theorem watch_effect {p : Process} (hp : Inv p) (i : ℕ) {j : ℕ} (hj : p.monitors j = none)
    (opens : Bool) {m : Monitor} (hm : m = ⟨opens, 0⟩) :
    Effect p (.watch i j opens)
      ((p.setMonitor j m).perform opens [.monitorCreate (m.pointer j)])
      [.monitorCreate (m.pointer j)] [⟨opens, none⟩] := by
  subst hm
  refine ⟨rfl, rfl, ?_, ?_⟩
  · refine hp.setMonitor (events_of_calls rfl) rfl rfl (by simp) ?_
    exact {
      monitor_made := fun h => by simp [Monitor.pointer, show opens = true from h]
      monitor_destroyed := by simp [hp.noMonitor hj] }
  · rw [thrown_iff]
    simp [Careful]

theorem monitorPointer_eq_some {m : Monitor} {j : ℕ} {h : Handle} :
    m.pointer j = some h ↔ m.made = true ∧ .monitor j = h := by
  cases hmade : m.made <;> simp [Monitor.pointer, hmade]

/-- A monitor is closed, and closed again by its destroy. -/
theorem fitsAll_closing (log : List (Event Handle)) (p : Pointer) :
    FitsAll log (touching p ++ (touching p ++ destroying p)) ↔ ∀ h, p = some h → Live log h := by
  cases p with
  | none => simp [touching, destroying]
  | some h =>
    simp only [touching, destroying, List.cons_append, List.nil_append, FitsAll, Option.some.injEq,
      forall_eq', and_true]
    constructor
    · rintro ⟨⟨k, hk, hlive⟩, -⟩
      obtain rfl := Option.some_inj.mp hk
      exact hlive
    · intro hlive
      -- a touch leaves it live
      have htouch : ∀ {l : List (Event Handle)}, Live l h → Live (l ++ [.touch (some h)]) h :=
        fun hl => hl.append (by simp)
      exact ⟨⟨h, rfl, hlive⟩, ⟨h, rfl, htouch hlive⟩, ⟨h, rfl, htouch (htouch hlive)⟩,
        (htouch (htouch (htouch hlive))).2⟩

theorem closeMonitor_effect {p : Process} (hp : Inv p) {j : ℕ} {m : Monitor}
    (hj : p.monitors j = some m) :
    Effect p (.closeMonitor j)
      ((p.setMonitor j { m with closes := m.closes + 1 }).call
        [.monitorClose (m.pointer j), .monitorDestroy (m.pointer j)])
      [.monitorClose (m.pointer j), .monitorDestroy (m.pointer j)] [] := by
  have hm := hp.monitor hj
  have hevents : [NativeCall.monitorClose (m.pointer j),
      .monitorDestroy (m.pointer j)].flatMap NativeCall.events =
        touching (m.pointer j) ++ (touching (m.pointer j) ++ destroying (m.pointer j)) := by simp
  refine ⟨rfl, (List.append_nil _).symm, ?_, ?_⟩
  · refine hp.setMonitor (events_of_calls rfl) rfl rfl (fun h hother => ?_) ?_
    · rw [hevents]
      simp only [destroyed_append, destroyed_touching, destroyed_destroying, List.nil_append,
        Option.mem_toList, monitorPointer_eq_some]
      exact fun hh => hother hh.2.symm
    · rw [hevents]
      exact {
        monitor_made := fun h => by simp [hm.monitor_made h]
        monitor_destroyed := by
          simp only [destroyed_append, destroyed_touching, destroyed_destroying, List.nil_append,
            List.mem_append, Option.mem_toList, monitorPointer_eq_some,
            hm.monitor_destroyed]
          simp only [and_true, Nat.zero_lt_succ]
          exact or_iff_right_of_imp And.left }
  · rw [hevents, fitsAll_closing]
    simp only [Careful, hj, Option.some.injEq, forall_eq', monitorPointer_eq_some, and_imp,
      List.not_mem_nil, false_imp_iff, implies_true, and_true]
    constructor
    · exact fun h hmade => (hm.live hmade).mp (h _ hmade rfl)
    · rintro h _ hmade rfl
      exact (hm.live hmade).mpr (h hmade)

/-- The reader and the worker are destroyed. -/
theorem ClientInv.close {log : List (Event Handle)} {i : ℕ} {c : Client} (hc : ClientInv log i c)
    {made : Bool} (hreader : c.reader = some made) :
    ClientInv (log ++ (destroying (readerPointer i made) ++ destroying (c.workerPointer i))) i
      { c with closes := c.closes + 1 } where
  reader_made h := by simp [hc.reader_made h]
  worker_made h := by simp [hc.worker_made h]
  reader_destroyed := by
    cases made <;> cases hworker : c.worker <;>
      simp [hc.reader_destroyed, hreader, hworker, readerPointer, Client.workerPointer]
  worker_destroyed := by
    cases made <;> cases hworker : c.worker <;>
      simp [hc.worker_destroyed, hworker, readerPointer, Client.workerPointer]
  closed_used _ := by simp [hreader]

theorem fitsAll_close {log : List (Event Handle)} {i : ℕ} {c : Client} (hc : ClientInv log i c)
    {made : Bool} (hreader : c.reader = some made) :
    FitsAll log (destroying (readerPointer i made) ++ destroying (c.workerPointer i)) ↔
      (made = true → c.closes = 0) ∧ (c.worker = true → c.closes = 0) := by
  rw [fitsAll_append, fitsAll_destroying, fitsAll_destroying]
  refine and_congr ?_ ?_
  · cases made with
    | false => simp [readerPointer]
    | true => simp [readerPointer, hc.live_reader hreader]
  · cases hworker : c.worker with
    | false => simp [Client.workerPointer, hworker]
    | true =>
      -- the worker is not the reader that was destroyed just now
      have hother : Live (log ++ destroying (readerPointer i made)) (.worker i) ↔
          Live log (.worker i) := by
        cases made <;> simp [Live, readerPointer]
      simp [Client.workerPointer, hworker, hother, hc.live_worker hworker]

/-- A client is closed, its reader having been made if it was not there. -/
theorem close_effect {p : Process} (hp : Inv p) {i : ℕ} {c : Client} (hi : p.clients i = some c)
    (opens : Bool) :
    Effect p (.close i opens)
      ((p.setClient i { c with
          reader := some (c.readerHandle i opens).1
          closes := c.closes + 1 }).call
        ((c.readerHandle i opens).2 ++
          [.readerDestroy (readerPointer i (c.readerHandle i opens).1),
            .workerDestroy (c.workerPointer i)]))
      ((c.readerHandle i opens).2 ++
        [.readerDestroy (readerPointer i (c.readerHandle i opens).1),
          .workerDestroy (c.workerPointer i)]) [] := by
  have hused := (hp.client hi).readerHandle opens
  have hevents : [NativeCall.readerDestroy (readerPointer i (c.readerHandle i opens).1),
      .workerDestroy (c.workerPointer i)].flatMap NativeCall.events =
        destroying (readerPointer i (c.readerHandle i opens).1) ++
          destroying (c.workerPointer i) := by simp
  have hfits : FitsAll (p.events ++ (c.readerHandle i opens).2.flatMap NativeCall.events)
      (destroying (readerPointer i (c.readerHandle i opens).1) ++
        destroying (c.workerPointer i)) ↔ _ := fitsAll_close hused rfl
  refine ⟨rfl, (List.append_nil _).symm, ?_, ?_⟩
  · refine hp.setClient (events_of_calls rfl) rfl rfl (fun h hreader hworker => ?_) ?_
    · rw [List.flatMap_append, hevents]
      simp only [destroyed_append, destroyed_readerHandle, destroyed_destroying, List.nil_append,
        List.mem_append, Option.mem_toList, readerPointer_eq_some, workerPointer_eq_some]
      rintro (⟨-, rfl⟩ | ⟨-, rfl⟩)
      · exact hreader rfl
      · exact hworker rfl
    · rw [List.flatMap_append, hevents, ← List.append_assoc]
      exact hused.close rfl
  · rw [List.flatMap_append, hevents, fitsAll_append, hfits]
    simp only [fitsAll_readerHandle, Careful, hi, Option.some.injEq, forall_eq', true_and,
      List.not_mem_nil, false_imp_iff, implies_true, and_true]
    by_cases hopen : c.closes = 0
    · simp [hopen]
    · -- a client that was closed before has used its reader
      obtain ⟨made, hreader⟩ := Option.ne_none_iff_exists'.mp
        ((hp.client hi).closed_used (Nat.pos_of_ne_zero hopen))
      simp [hopen, hreader, Client.readerHandle]

/-! ### Runs -/

theorem step_effect {p q : Process} {a : Action} (h : step p a = some q) (hp : Inv p) :
    ∃ calls ends, Effect p a q calls ends := by
  cases a with
  | new i client sandboxed opens =>
    simp only [step] at h
    split at h
    · exact absurd h (by simp)
    · next hi =>
      obtain rfl := Option.some_inj.mp h
      exact ⟨_, _, new_effect hp hi client sandboxed opens rfl⟩
  | read i fn opens =>
    simp only [step] at h
    split at h
    · exact absurd h (by simp)
    · next c hi =>
      split at h
      · next hhost =>
        -- the host is asked
        obtain rfl := Option.some_inj.mp h
        exact ⟨[], [], by simp, by simp, hp, by simp [Careful, hi, hhost]⟩
      · next hdirect =>
        obtain rfl := Option.some_inj.mp h
        exact ⟨_, _, read_effect hp hi fn opens hdirect⟩
  | submit i ops created =>
    simp only [step] at h
    split at h
    · exact absurd h (by simp)
    · next c hi =>
      obtain rfl := Option.some_inj.mp h
      exact ⟨_, _, submit_effect hp hi ops created rfl⟩
  | cancel i =>
    simp only [step] at h
    split at h
    · exact absurd h (by simp)
    · next c hi =>
      obtain ⟨-, rfl⟩ := Option.ite_none_right_eq_some.mp h |>.imp_right Option.some_inj.mp
      exact ⟨_, _, cancel_effect hp hi⟩
  | remote i op opens =>
    simp only [step] at h
    split at h
    · exact absurd h (by simp)
    · next c hi =>
      obtain rfl := Option.some_inj.mp h
      exact ⟨_, _, remote_effect hp hi op opens rfl⟩
  | watch i j opens =>
    simp only [step] at h
    split at h
    · next hi hj =>
      obtain rfl := Option.some_inj.mp h
      exact ⟨_, _, watch_effect hp i hj opens rfl⟩
    · exact absurd h (by simp)
  | closeMonitor j =>
    simp only [step] at h
    split at h
    · exact absurd h (by simp)
    · next m hj =>
      obtain rfl := Option.some_inj.mp h
      exact ⟨_, _, closeMonitor_effect hp hj⟩
  | close i opens =>
    simp only [step] at h
    split at h
    · exact absurd h (by simp)
    · next c hi =>
      obtain rfl := Option.some_inj.mp h
      exact ⟨_, _, close_effect hp hi opens⟩

theorem step_inv {p q : Process} {a : Action} (h : step p a = some q) (hp : Inv p) : Inv q := by
  obtain ⟨calls, ends, heffect⟩ := step_effect h hp
  exact heffect.inv

theorem init_sound : Sound init := by
  rw [sound_iff_disciplined]
  exact ⟨trivial, fun e he => absurd he (by simp [init])⟩

/-- **The handles are used as they may be** through a run exactly if every step of it
is careful. -/
theorem sound_iff_careful (as : List Action) :
    (∀ u, Machine.Reaches step init as u → Sound u) ↔
      ∀ p a q, Machine.Takes step init as p a q → Careful p a := by
  refine Machine.reaches_iff_takes init_sound as fun p a q htakes hp => ?_
  obtain ⟨before, hbefore⟩ := htakes.reached
  have hinv : Inv p := Machine.run_invariant step_inv hbefore init_inv
  obtain ⟨calls, ends, heffect⟩ := step_effect htakes.step_eq hinv
  exact heffect.sound hp

/-! ### An installation that cannot be opened -/

/-- The worker is made, the reader is not. -/
def unreadable : List Action := [.new 0 .user false true, .read 0 .listApps false]

/-- `close` twice. -/
def closedTwice : List Action := [.new 0 .user false true, .close 0 true, .close 0 true]

/-- A reader that was not made is read from, and closing twice destroys twice. -/
theorem unreadable_installation_crashes :
    ¬ (∀ u, Machine.Reaches step init unreadable u → Sound u) ∧
      ¬ ∀ u, Machine.Reaches step init closedTwice u → Sound u := by
  constructor
  case left =>
    intro h
    obtain ⟨u, hrun, hu⟩ := Machine.exists_run step init unreadable
      (p := fun u => u.events = [.make (.worker 0)] ++ [.touch none]) (by decide)
    have hsound := h u ⟨unreadable, [], by simp, hrun⟩
    obtain ⟨k, hk, -⟩ := hsound.live [.make (.worker 0)] none [] (of_decide_eq_true hu)
    exact absurd hk (by simp)
  case right =>
    intro h
    obtain ⟨u, hrun, hu⟩ := Machine.exists_run step init closedTwice
      (p := fun u => ¬ (destroyed u.events).Nodup) (by decide)
    exact of_decide_eq_true hu (h u ⟨closedTwice, [], by simp, hrun⟩).once

end NativeHandles
