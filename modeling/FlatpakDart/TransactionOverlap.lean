/-
The transactions of all the clients of a process.

Each `FlatpakClient` has a worker of its own, and a worker runs one transaction at
a time; nothing but that keeps the transactions of one installation apart.

* `busy_runs` — a worker with a transaction queued can come to run it;
* `serialized_iff_careful` — at most one transaction of each installation runs,
  however the workers go on, exactly if none is submitted while another client of
  the installation has one; those of different installations may overlap.
-/
import FlatpakDart.Family
import FlatpakDart.RemoteManager
import FlatpakDart.TransactionBridge

open Native TransactionWorker TransactionBridge Libflatpak
open RemoteManager (FlatpakClient)

namespace TransactionOverlap

/-! ### The clients of a process -/

section clients

variable {ι δ : Type} [DecidableEq ι]

/-- The clients' transactions and workers; `ι` are all the clients that are ever
made. -/
abbrev Process (ι : Type) := ι → TransactionBridge.State

def init : Process ι := fun _ => TransactionBridge.init

/-- A step of one client. -/
def step : Process ι → ι × Action → Option (Process ι) :=
  Family.familyStep TransactionBridge.step

/-- The installation that `TransactionBridge.create` opens for a client. -/
def dir (host : Host δ) (clients : ι → FlatpakClient) (i : ι) : δ :=
  host.openInstallation (.ofString (clients i).installation)

end clients

/-! ### Workers with something to run -/

/-- `flatpak_transaction_run` is in progress. -/
def Running (w : Worker) : Prop := ∃ item cancelled ctxs, w.loop = .running item cancelled ctxs

/-- A transaction is popped and its run is not over. -/
def Underway : Loop → Prop
  | .popped _ => True
  | .running .. => True
  | _ => False

/-- A transaction is underway or will be; what a stopped thread has in its queue
stays there. -/
def Busy (w : Worker) : Prop :=
  Underway w.loop ∨ (w.queue ≠ [] ∧ w.stop = false ∧ w.loop ≠ .returned)

theorem busy_of_running {w : Worker} (h : Running w) : Busy w := by
  obtain ⟨item, cancelled, ctxs, hloop⟩ := h
  exact .inl (by rw [hloop]; trivial)

theorem busy_congr {w w' : Worker} (hloop : w'.loop = w.loop) (hqueue : w'.queue = w.queue)
    (hstop : w'.stop = w.stop) : Busy w' ↔ Busy w := by
  rw [Busy, Busy, hloop, hqueue, hstop]

/-- Between two transactions, what a worker is busy with is queued. -/
theorem busy_of_queue {w w' : Worker} (h : Busy w') (hunderway : ¬ Underway w'.loop)
    (hloop : w.loop ≠ .returned) (hqueue : w'.queue = w.queue) (hstop : w'.stop = w.stop) :
    Busy w := by
  rcases h with h | ⟨hq, hs, -⟩
  · exact absurd h hunderway
  · exact .inr ⟨hqueue ▸ hq, hstop ▸ hs, hloop⟩

theorem loopStep_busy {w w' : Worker} {a : LoopAction} (h : w.loopStep a = some w')
    (hw' : Busy w') : Busy w := by
  have hunderway : ∀ {l : Loop}, w.loop = l → Underway l → Busy w := by
    rintro l rfl hl
    exact .inl hl
  cases loopStep_cases h with
  | dequeue hloop hstop hqueue => exact .inr ⟨by simp [hqueue], hstop, by simp [hloop]⟩
  | observeStop =>
    rcases hw' with hw' | ⟨-, -, hw'⟩
    · exact hw'.elim
    · exact absurd rfl hw'
  | runBegin hloop => exact hunderway hloop trivial
  | newOperation hloop => exact hunderway hloop trivial
  | changed hloop _ => exact hunderway hloop trivial
  | operationDone hloop => exact hunderway hloop trivial
  | runReturn hloop _ => exact hunderway hloop trivial
  | postResult hloop => exact busy_of_queue hw' id (by simp [hloop]) rfl rfl
  | clearCurrent hloop => exact busy_of_queue hw' id (by simp [hloop]) rfl rfl
  | unrefCancel hloop => exact busy_of_queue hw' id (by simp [hloop]) rfl rfl
  | unrefTx hloop => exact busy_of_queue hw' id (by simp [hloop]) rfl rfl

theorem add_busy (w : Worker) (h : TxHandle) (op : AddOp) (answer : Answer) :
    Busy (w.add h op answer) ↔ Busy w := by
  have hbody (op : AddOp) (fallback : CString) : Busy (w.txAdd op fallback h answer) ↔ Busy w := by
    rw [Worker.txAdd]
    split
    · exact Iff.rfl
    · cases answer with
      | accepted => exact busy_congr rfl rfl rfl
      | rejected err => exact busy_congr rfl rfl rfl
  cases op <;> exact hbody _ _

theorem dtorStop_busy {w w' : Worker} (h : w.dtorStop = some w') (hw' : Busy w') : Busy w := by
  obtain ⟨-, rfl⟩ := dtorStop_cases h
  rcases hw' with hw' | ⟨-, hstop, -⟩
  · exact .inl hw'
  · cases hstop

/-- Only a submit makes a worker busy. -/
theorem step_busy {s t : TransactionBridge.State} {a : Action}
    (h : TransactionBridge.step s a = some t) (hs : Inv s) (ha : ∀ k, a ≠ .submit k)
    (ht : Busy t.worker) : Busy s.worker := by
  cases step_cases hs.handles h with
  | @create answer _ =>
    cases answer with
    | accepted => exact ht
    | rejected err => exact ht
  | add => exact (add_busy _ _ _ _).mp ht
  | submit => exact absurd rfl (ha _)
  | deliver => exact ht
  | cancel =>
    rw [cancelCurrent_eq] at ht
    exact ht
  | loop hw => exact loopStep_busy hw ht
  | dtorStop hw => exact dtorStop_busy hw ht
  | dtorJoin hw =>
    obtain ⟨-, -, rfl⟩ := dtorJoin_cases hw
    exact ht

theorem submit_busy {s t : TransactionBridge.State} {k : ℕ}
    (h : TransactionBridge.step s (.submit k) = some t) (hs : Inv s) : Busy t.worker := by
  cases step_cases hs.handles h with
  | submit halive hk =>
    have hstop : s.worker.stop = false := by
      rw [← Bool.not_eq_true]
      exact fun hstop => hs.worker.stopping.mp hstop halive
    refine .inr ⟨by simp [Worker.flatpakTxSubmit, Worker.enqueue], hstop, fun hloop => ?_⟩
    -- a thread that returned saw the stop
    have hsaw : s.worker.stop = true := hs.worker.sawStop hloop
    rw [hstop] at hsaw
    cases hsaw

/-! ### What a busy worker comes to -/

/-- The thread can go on to a run. -/
def Runs (w : Worker) : Prop :=
  ∃ (as : List LoopAction) (w' : Worker), Machine.run Worker.loopStep w as = some w' ∧ Running w'

theorem runs_of_step {w w' : Worker} {a : LoopAction} (h : w.loopStep a = some w') (hw' : Runs w') :
    Runs w := by
  obtain ⟨as, v, hrun, hv⟩ := hw'
  exact ⟨a :: as, v, Machine.run_cons_eq_some.mpr ⟨w', h, hrun⟩, hv⟩

theorem runs_of_running {w : Worker} (h : Running w) : Runs w := ⟨[], w, rfl, h⟩

theorem runs_of_popped {w : Worker} {item : PendingTx} (hloop : w.loop = .popped item) :
    Runs w := by
  have hstep : w.loopStep .runBegin = some { w with
      loop := .running item (decide (item.cancel ∈ w.signalled)) []
      executed := w.executed ++ [item] } := by
    simp only [Worker.loopStep, hloop]
  exact runs_of_step hstep (runs_of_running ⟨_, _, _, rfl⟩)

section queued

variable {w : Worker} {item : PendingTx}

theorem runs_of_waiting (hloop : w.loop = .waiting) (hqueue : w.queue ≠ [])
    (hstop : w.stop = false) : Runs w := by
  obtain ⟨item, rest, hqueue⟩ := List.exists_cons_of_ne_nil hqueue
  have hstep : w.loopStep .dequeue = some { w with
      queue := rest
      currentCancel := some item.cancel
      loop := .popped item
      dequeued := w.dequeued ++ [item] } := by
    simp [Worker.loopStep, hloop, hqueue, hstop]
  exact runs_of_step hstep (runs_of_popped rfl)

theorem runs_of_cancelReleased (hloop : w.loop = .cancelReleased item) (hqueue : w.queue ≠ [])
    (hstop : w.stop = false) : Runs w := by
  have hstep : w.loopStep .unrefTx =
      some { w with unrefTx := w.unrefTx ++ [item.tx], loop := .waiting } := by
    simp only [Worker.loopStep, hloop]
  exact runs_of_step hstep (runs_of_waiting rfl hqueue hstop)

theorem runs_of_cleared (hloop : w.loop = .cleared item) (hqueue : w.queue ≠ [])
    (hstop : w.stop = false) : Runs w := by
  have hstep : w.loopStep .unrefCancel = some { w with
      unrefCancel := w.unrefCancel ++ [item.cancel]
      loop := .cancelReleased item } := by
    simp only [Worker.loopStep, hloop]
  exact runs_of_step hstep (runs_of_cancelReleased rfl hqueue hstop)

theorem runs_of_posted (hloop : w.loop = .posted item) (hqueue : w.queue ≠ [])
    (hstop : w.stop = false) : Runs w := by
  have hstep : w.loopStep .clearCurrent =
      some { w with currentCancel := none, loop := .cleared item } := by
    simp only [Worker.loopStep, hloop]
  exact runs_of_step hstep (runs_of_cleared rfl hqueue hstop)

theorem runs_of_ran {err : Option CString} (hloop : w.loop = .ran item err) (hqueue : w.queue ≠ [])
    (hstop : w.stop = false) : Runs w := by
  have hstep : w.loopStep .postResult =
      some { w.post item.port (resultFrame err) with loop := .posted item } := by
    simp only [Worker.loopStep, hloop]
  exact runs_of_step hstep (runs_of_posted rfl hqueue hstop)

end queued

/-- From wherever the thread stands, it finishes what it has in hand first. -/
theorem busy_runs {w : Worker} (h : Busy w) : Runs w := by
  rcases h with h | ⟨hqueue, hstop, hreturned⟩
  · cases hloop : w.loop with
    | popped item => exact runs_of_popped hloop
    | running item cancelled ctxs => exact runs_of_running ⟨_, _, _, hloop⟩
    | _ =>
      rw [hloop] at h
      exact h.elim
  · cases hloop : w.loop with
    | waiting => exact runs_of_waiting hloop hqueue hstop
    | popped item => exact runs_of_popped hloop
    | running item cancelled ctxs => exact runs_of_running ⟨_, _, _, hloop⟩
    | ran item err => exact runs_of_ran hloop hqueue hstop
    | posted item => exact runs_of_posted hloop hqueue hstop
    | cleared item => exact runs_of_cleared hloop hqueue hstop
    | cancelReleased item => exact runs_of_cancelReleased hloop hqueue hstop
    | returned => exact absurd hloop hreturned

/-- The steps of a thread are steps of its client. -/
theorem run_loop {s : TransactionBridge.State} {as : List LoopAction} {w : Worker}
    (h : Machine.run Worker.loopStep s.worker as = some w) :
    Machine.run TransactionBridge.step s (as.map .loop) = some { s with worker := w } := by
  induction as generalizing s with
  | nil =>
    obtain rfl := Option.some_inj.mp h
    rfl
  | cons a as ih =>
    obtain ⟨v, hv, hrest⟩ := Machine.run_cons_eq_some.mp h
    refine Machine.run_cons_eq_some.mpr ⟨{ s with worker := v }, ?_, ih hrest⟩
    rw [TransactionBridge.step, hv]
    rfl

/-! ### One transaction for each installation -/

section serialized

variable {ι δ κ : Type} [DecidableEq ι] {key : ι → κ}

/-- However the workers go on from here, at most one transaction of each
installation runs. -/
def Serialized (key : ι → κ) (s : Process ι) : Prop :=
  ∀ as t, (∀ a ∈ as, ∃ l : LoopAction, a.2 = .loop l) → Machine.run step s as = some t →
    Family.AtMostOne key (Running ·.worker) t

/-- Nothing is submitted while another client of the installation is busy. -/
def Careful (key : ι → κ) (s : Process ι) : ι × Action → Prop
  | (i, .submit _) => ∀ j, j ≠ i → key j = key i → ¬ Busy (s j).worker
  | _ => True

theorem step_atMostOne {s t : Process ι} {a : ι × Action} (h : step s a = some t)
    (hs : ∀ i, Inv (s i)) (hone : Family.AtMostOne key (Busy ·.worker) s) :
    Family.AtMostOne key (Busy ·.worker) t ↔ Careful key s a := by
  obtain ⟨c, hc, rfl⟩ := Family.familyStep_eq_some.mp h
  obtain ⟨i, a⟩ := a
  have hquiet : (∀ k, a ≠ .submit k) →
      Family.AtMostOne key (Busy ·.worker) (Function.update s i c) :=
    fun ha => Family.atMostOne_of_imp hone (step_busy hc (hs i) ha)
  cases a with
  | submit k =>
    rw [Family.atMostOne_update hone]
    exact ⟨fun h => h (submit_busy hc (hs i)), fun h _ => h⟩
  | _ => exact iff_of_true (hquiet (by simp)) trivial

theorem step_inv {s t : Process ι} {a : ι × Action} (h : step s a = some t) (hs : ∀ i, Inv (s i)) :
    ∀ i, Inv (t i) := Family.familyStep_invariant TransactionBridge.step_inv h hs

theorem serialized_iff_busy {s : Process ι} (hs : ∀ i, Inv (s i)) :
    Serialized key s ↔ Family.AtMostOne key (Busy ·.worker) s := by
  constructor
  · intro h i j hkey hi hj
    by_contra hij
    -- both threads go on until they run a transaction
    obtain ⟨as, w, has, hw⟩ := busy_runs hi
    obtain ⟨bs, v, hbs, hv⟩ := busy_runs hj
    set u := Function.update s i { s i with worker := w }
    have hu : u j = s j := Function.update_of_ne (Ne.symm hij) _ _
    have hfirst : Machine.run step s ((as.map .loop).map (i, ·)) = some u :=
      Family.run_lift (run_loop has)
    have hsecond : Machine.run step u ((bs.map .loop).map (j, ·)) =
        some (Function.update u j { u j with worker := v }) :=
      Family.run_lift (run_loop (by rwa [hu]))
    refine hij (h _ _ ?_ (Machine.run_append_eq_some.mpr ⟨u, hfirst, hsecond⟩) i j hkey ?_ ?_)
    · intro a ha
      rcases List.mem_append.mp ha with ha | ha
      · obtain ⟨b, hb, rfl⟩ := List.mem_map.mp ha
        obtain ⟨l, -, rfl⟩ := List.mem_map.mp hb
        exact ⟨l, rfl⟩
      · obtain ⟨b, hb, rfl⟩ := List.mem_map.mp ha
        obtain ⟨l, -, rfl⟩ := List.mem_map.mp hb
        exact ⟨l, rfl⟩
    · show Running (Function.update u j _ i).worker
      rw [Function.update_of_ne hij]
      show Running (Function.update s i _ i).worker
      rwa [Function.update_self]
    · show Running (Function.update u j _ j).worker
      rwa [Function.update_self]
  · intro h as t has hrun
    have hbusy : (∀ i, Inv (t i)) ∧ Family.AtMostOne key (Busy ·.worker) t := by
      refine Machine.run_invariant_along
        (I := fun u : Process ι => (∀ i, Inv (u i)) ∧ Family.AtMostOne key (Busy ·.worker) u)
        (fun u a v htakes hu => ?_) hrun ⟨hs, h⟩
      refine ⟨step_inv htakes.step_eq hu.1, (step_atMostOne htakes.step_eq hu.1 hu.2).mpr ?_⟩
      obtain ⟨i, b⟩ := a
      obtain ⟨l, rfl⟩ := has _ htakes.mem
      trivial
    exact fun i j hkey hi hj => hbusy.2 i j hkey (busy_of_running hi) (busy_of_running hj)

theorem run_inv {s : Process ι} {as : List (ι × Action)} (h : Machine.run step init as = some s) :
    ∀ i, Inv (s i) :=
  Machine.run_invariant (I := fun u : Process ι => ∀ i, Inv (u i)) step_inv h
    fun _ => TransactionBridge.init_inv

theorem not_busy_init : ¬ Busy TransactionBridge.init.worker := by
  rintro (h | ⟨h, -⟩)
  · exact h.elim
  · exact absurd rfl h

/-- All along a run, whatever the workers do next: exactly if every submit is careful. -/
theorem reaches_serialized_iff (as : List (ι × Action)) :
    (∀ u, Machine.Reaches step init as u → Serialized key u) ↔
      ∀ s a t, Machine.Takes step init as s a t → Careful key s a := by
  have hidle : Serialized key (init : Process ι) :=
    (serialized_iff_busy fun _ => TransactionBridge.init_inv).mpr
      fun _ _ _ hi _ => absurd hi not_busy_init
  refine Machine.reaches_iff_takes hidle as fun s a t htakes hs => ?_
  obtain ⟨before, hbefore⟩ := htakes.reached
  have hinv := run_inv hbefore
  rw [serialized_iff_busy (step_inv htakes.step_eq hinv),
    step_atMostOne htakes.step_eq hinv ((serialized_iff_busy hinv).mp hs)]

/-- Two clients of different installations cannot get in each other's way. -/
theorem serialized_of_two {i j : ι} (hkey : key i ≠ key j) {as : List (ι × Action)} {u : Process ι}
    (has : ∀ a ∈ as, a.1 = i ∨ a.1 = j) (h : Machine.run step init as = some u) :
    Serialized key u := by
  rw [serialized_iff_busy (run_inv h)]
  have hbusy : ∀ k, Busy (u k).worker → k = i ∨ k = j := by
    intro k hk
    by_contra hne
    have hidle : u k = TransactionBridge.init :=
      Family.run_other (k := k) (fun a ha hak => hne (hak ▸ has a ha)) h
    rw [hidle] at hk
    exact not_busy_init hk
  intro k l hkl hk hl
  rcases hbusy k hk with rfl | rfl
  · rcases hbusy l hl with rfl | rfl
    · rfl
    · exact absurd hkl hkey
  · rcases hbusy l hl with rfl | rfl
    · exact absurd hkl.symm hkey
    · rfl

end serialized

/-- A client submits a transaction and its thread runs it. -/
def solo : List Action := [.create .accepted, .submit 0, .loop .dequeue, .loop .runBegin]

theorem run_solo : ∃ c, Machine.run TransactionBridge.step TransactionBridge.init solo = some c ∧
    Running c.worker := by
  refine ⟨_, rfl, ⟨0, 0, 0⟩, false, [], rfl⟩

/-- Two clients can run a transaction each. -/
theorem run_both {ι : Type} [DecidableEq ι] {i j : ι} (hij : i ≠ j) : ∃ u : Process ι,
    Machine.run step init (solo.map (i, ·) ++ solo.map (j, ·)) = some u ∧
      Running (u i).worker ∧ Running (u j).worker := by
  obtain ⟨c, hc, hrunning⟩ := run_solo
  set s : Process ι := Function.update init i c
  have hs : s j = TransactionBridge.init := Function.update_of_ne (Ne.symm hij) _ _
  refine ⟨Function.update s j c, Machine.run_append_eq_some.mpr ⟨s, Family.run_lift hc, ?_⟩, ?_, ?_⟩
  · exact Family.run_lift (by rwa [hs])
  · rw [Function.update_of_ne hij]
    show Running (Function.update init i c i).worker
    rwa [Function.update_self]
  · rwa [Function.update_self]

/-- **Transaction concurrency**: at most one transaction of each installation runs, and
the workers cannot come to run two, exactly if none is submitted to a client while
another client of its installation is busy; those of different installations may
overlap. -/
theorem serialized_iff_careful {ι δ : Type} [DecidableEq ι] (host : Host δ)
    (clients : ι → FlatpakClient) :
    (∀ as, (∀ u, Machine.Reaches step init as u → Serialized (dir host clients) u) ↔
      ∀ s a t, Machine.Takes step init as s a t → Careful (dir host clients) s a) ∧
    ∀ i j, dir host clients i ≠ dir host clients j → ∃ as u,
      Machine.run step init as = some u ∧
      (∀ s a t, Machine.Takes step init as s a t → Careful (dir host clients) s a) ∧
      Running (u i).worker ∧ Running (u j).worker := by
  refine ⟨reaches_serialized_iff, fun i j hdir => ?_⟩
  have hij : i ≠ j := fun h => hdir (congrArg _ h)
  obtain ⟨u, hu, hi, hj⟩ := run_both hij
  refine ⟨_, u, hu, (reaches_serialized_iff _).mp ?_, hi, hj⟩
  rintro v ⟨before, after, heq, hrun⟩
  refine serialized_of_two hdir (fun a ha => ?_) hrun
  have hmem : a ∈ solo.map (i, ·) ++ solo.map (j, ·) := heq ▸ List.mem_append_left after ha
  rcases List.mem_append.mp hmem with hmem | hmem
  · obtain ⟨b, -, rfl⟩ := List.mem_map.mp hmem
    exact .inl rfl
  · obtain ⟨b, -, rfl⟩ := List.mem_map.mp hmem
    exact .inr rfl

/-- Directories by their paths. -/
def usualHost : Host CString where
  userDir := .lit "/home/user/.local/share/flatpak" (by decide)
  systemDir := .lit "/var/lib/flatpak" (by decide)
  resolve := id

/-- Two clients of the system's installation, each with a transaction, run both at once. -/
theorem system_clients_overlap : ¬ ∀ as u,
    Machine.run step (init : Process Bool) as = some u →
      Family.AtMostOne (dir usualHost fun _ => FlatpakClient.system) (Running ·.worker) u := by
  intro h
  obtain ⟨u, hu, hfalse, htrue⟩ := run_both Bool.false_ne_true
  exact absurd (h _ _ hu false true rfl hfalse htrue) Bool.false_ne_true

end TransactionOverlap
