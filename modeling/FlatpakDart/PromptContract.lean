/-
What prompts, answers, results and writes have to do with each other
(`lib/src/portal/permission_flow.dart`).

* `Inv`, `step_inv` — what holds in every state of a flow;
* `contract_iff` — the contract of `respond` and of a run holds all along a
  run of the flow, exactly if no `respond` call names the prompt of a run that has failed
  because the controller was closed.
-/
import FlatpakDart.PermissionFlow

open Machine PermissionStore Dart

namespace PermissionFlow

/-! ### What holds of a run -/

/-- How the result for a permission came about, from what the store answered. -/
inductive Outcome (prompts : ℕ → Option Prompt) (r : ℕ) (permission : String) :
    Option (PermissionStatus × Bool) → PermissionStatus → Prop
  /-- The status that was read. -/
  | decided {status : PermissionStatus} {listened : Bool} (hset : status ≠ .notSet) :
    Outcome prompts r permission (some (status, listened)) status
  /-- There was no listener. -/
  | unheard : Outcome prompts r permission (some (.notSet, false)) .ask
  | answered {k : ℕ} {y : Prompt} {granted : Bool} (hk : prompts k = some y) (hrun : y.run = r)
      (hpermission : y.permission = permission) (hy : y.completion = .answered granted) :
    Outcome prompts r permission (some (.notSet, true)) (ofAnswer granted)
  | cancelled {k : ℕ} {y : Prompt} (hk : prompts k = some y) (hrun : y.run = r)
      (hpermission : y.permission = permission) (hy : y.completion = .cancelled) :
    Outcome prompts r permission (some (.notSet, true)) .ask

/-- The permissions the run has not read. -/
def Phase.unread : Phase → List String
  | .get permission rest | .got _ permission rest => permission :: rest
  | .prompt _ _ rest | .set _ _ rest | .stored _ _ rest => rest
  | _ => []

/-- The permissions the run will still give a result. -/
def Phase.unsettled : Phase → List String
  | .get permission rest | .got _ permission rest | .prompt _ permission rest
  | .set _ permission rest | .stored _ permission rest => permission :: rest
  | _ => []

@[simp] theorem Phase.unread_next (rest : List String) : (next rest).unread = rest := by
  cases rest <;> rfl

@[simp] theorem Phase.unsettled_next (rest : List String) : (next rest).unsettled = rest := by
  cases rest <;> rfl

/-- The run has the list of its permissions, and none is being asked for or stored. -/
def Phase.between : Phase → Prop
  | .get _ _ | .got _ _ _ | .completed | .failed _ => True
  | _ => False

@[simp] theorem Phase.between_next (rest : List String) : (next rest).between := by
  cases rest <;> trivial

/-- What holds of the `r`-th run, given the prompts and the writes. -/
structure Run.Inv (prompts : ℕ → Option Prompt) (writes : List Write) (r : ℕ) (x : Run) :
    Prop where
  nodup : x.phase.unread.Nodup
  fresh : ∀ p ∈ x.phase.unread, x.read p = none
  early : x.phase = .idle ∨ x.phase = .metadata → ∀ p, x.read p = none
  awaits : ∀ {k p rest}, x.phase = .prompt k p rest →
    ∃ y, prompts k = some y ∧ y.run = r ∧ y.permission = p ∧ k ∉ writes.map Write.prompt
  storing : ∀ {status p rest}, x.phase = .set status p rest ∨ x.phase = .stored status p rest →
    ∃ k y granted, prompts k = some y ∧ y.run = r ∧ y.permission = p ∧
      y.completion = .answered granted ∧ status = ofAnswer granted ∧ k ∈ writes.map Write.prompt
  outcome : ∀ {p status}, x.result p = some status → Outcome prompts r p (x.read p) status
  covered : ∀ p ∈ x.requested,
    (x.result p).isSome ∨ p ∈ x.phase.unsettled ∨ ∃ failure, x.phase = .failed failure

/-- Prompts are added, and settled once. -/
def Grows (prompts prompts' : ℕ → Option Prompt) : Prop :=
  ∀ {k x}, prompts k = some x → ∃ completion,
    prompts' k = some { x with completion := completion } ∧
      (x.completion ≠ .waiting → completion = x.completion)

variable {prompts prompts' : ℕ → Option Prompt} {writes writes' : List Write} {r : ℕ} {x : Run}

theorem Grows.settled (h : Grows prompts prompts') {k : ℕ} {y : Prompt} (hk : prompts k = some y)
    (hy : y.completion ≠ .waiting) : prompts' k = some y := by
  obtain ⟨completion, hk', hcompletion⟩ := h hk
  rw [hk', hcompletion hy]

theorem Outcome.grows {p : String} {read : Option (PermissionStatus × Bool)}
    {status : PermissionStatus} (h : Outcome prompts r p read status)
    (hgrows : Grows prompts prompts') : Outcome prompts' r p read status := by
  cases h with
  | decided hset => exact .decided hset
  | unheard => exact .unheard
  | answered hk hrun hp hy => exact .answered (hgrows.settled hk (by simp [hy])) hrun hp hy
  | cancelled hk hrun hp hy => exact .cancelled (hgrows.settled hk (by simp [hy])) hrun hp hy

/-- What others do to the prompts and the writes leaves a run as it is. -/
theorem Run.Inv.grows (h : x.Inv prompts writes r) (hgrows : Grows prompts prompts')
    (hwrites : ∀ {k y}, prompts k = some y → y.run = r →
      (k ∈ writes'.map Write.prompt ↔ k ∈ writes.map Write.prompt)) :
    x.Inv prompts' writes' r where
  nodup := h.nodup
  fresh := h.fresh
  early := h.early
  awaits hphase := by
    obtain ⟨y, hk, hrun, hp, hnew⟩ := h.awaits hphase
    obtain ⟨completion, hk', -⟩ := hgrows hk
    exact ⟨_, hk', hrun, hp, mt (hwrites hk hrun).mp hnew⟩
  storing hphase := by
    obtain ⟨k, y, granted, hk, hrun, hp, hy, hstatus, hwritten⟩ := h.storing hphase
    exact ⟨k, y, granted, hgrows.settled hk (by simp [hy]), hrun, hp, hy, hstatus,
      (hwrites hk hrun).mpr hwritten⟩
  outcome hresult := (h.outcome hresult).grows hgrows
  covered := h.covered

/-- A run that is called. -/
theorem Run.Inv.call (h : x.Inv prompts writes r) (hphase : x.phase = .idle) (appId : String) :
    Run.Inv prompts writes r { x with app := appId, phase := .metadata } where
  nodup := List.nodup_nil
  fresh := by simp [Phase.unread]
  early _ := h.early (.inl hphase)
  awaits := by simp
  storing := by simp
  outcome := h.outcome
  covered p hp := by
    rcases h.covered p hp with hsome | hmem | ⟨failure, hfailed⟩
    · exact .inl hsome
    · simp [hphase, Phase.unsettled] at hmem
    · simp [hphase] at hfailed

/-- A run that learns which permissions it is about. -/
theorem Run.Inv.derive (h : x.Inv prompts writes r) (hphase : x.phase = .metadata)
    (metadata : List FlatpakPermission) :
    Run.Inv prompts writes r { x with
      requested := derivePermissions metadata
      phase := .next (derivePermissions metadata) } where
  nodup := by simpa using derivePermissions_nodup metadata
  fresh p _ := h.early (.inr hphase) p
  early _ := h.early (.inr hphase)
  awaits hnext := by cases hd : derivePermissions metadata <;> simp [hd, Phase.next] at hnext
  storing hnext := by cases hd : derivePermissions metadata <;> simp [hd, Phase.next] at hnext
  outcome := h.outcome
  covered p hp := .inr (.inl (by simpa using hp))

/-- A run that is neither asking nor storing after the step. -/
theorem Run.Inv.move (h : x.Inv prompts writes r) {phase : Phase} (hphase : phase.between)
    (hunread : phase.unread.Sublist x.phase.unread)
    (hcovered : (∃ failure, phase = .failed failure) ∨ phase.unsettled = x.phase.unsettled ∧
      ∀ failure, x.phase ≠ .failed failure) :
    Run.Inv prompts writes r { x with phase := phase } where
  nodup := h.nodup.sublist hunread
  fresh p hp := h.fresh p (hunread.subset hp)
  early hearly := by
    rcases hearly with rfl | rfl <;> exact hphase.elim
  awaits := by
    rintro k p rest rfl
    exact hphase.elim
  storing := by
    rintro status p rest (rfl | rfl) <;> exact hphase.elim
  outcome := h.outcome
  covered p hp := by
    rcases hcovered with hfailed | ⟨hunsettled, hnot⟩
    · exact .inr (.inr hfailed)
    · rcases h.covered p hp with hresult | hp | ⟨failure, hfailed⟩
      · exact .inl hresult
      · exact .inr (.inl (hunsettled ▸ hp))
      · exact absurd hfailed (hnot failure)

/-- A run that gives a permission its result. -/
theorem Run.Inv.settle {y : Run} (h : x.Inv prompts writes r) {p : String} {rest : List String}
    {status : PermissionStatus} (hunsettled : x.phase.unsettled = p :: rest)
    (hrequested : y.requested = x.requested) (hresult : y.result = x.result)
    (hread : ∀ q, q ≠ p → y.read q = x.read q) (hnodup : rest.Nodup)
    (hfresh : ∀ q ∈ rest, y.read q = none) (hout : Outcome prompts r p (y.read p) status) :
    (y.settle p status rest).Inv prompts writes r where
  nodup := by simpa using hnodup
  fresh := by simpa using hfresh
  early hearly := by cases rest <;> simp [Phase.next] at hearly
  awaits hphase := by cases rest <;> simp [Phase.next] at hphase
  storing hphase := by cases rest <;> simp [Phase.next] at hphase
  outcome := by
    intro q st hq
    by_cases hqp : q = p
    · subst hqp
      obtain rfl : status = st := by simpa using hq
      exact hout
    · rw [Run.settle_result, Function.update_of_ne hqp, hresult] at hq
      rw [Run.settle_read, hread q hqp]
      exact h.outcome hq
  covered q hq := by
    by_cases hqp : q = p
    · exact .inl (by simp [hqp])
    · rw [Run.settle_requested, hrequested] at hq
      rcases h.covered q hq with hsome | hmem | ⟨failure, hfailed⟩
      · exact .inl (by simpa [hqp, hresult] using hsome)
      · rw [hunsettled] at hmem
        exact .inr (.inl (by simpa [hqp] using hmem))
      · simp [hfailed, Phase.unsettled] at hunsettled

theorem Run.Inv.unread_result (h : x.Inv prompts writes r) {p : String}
    (hp : p ∈ x.phase.unread) : x.result p = none := by
  cases hresult : x.result p with
  | none => rfl
  | some status =>
    have hout := h.outcome hresult
    rw [h.fresh p hp] at hout
    cases hout

/-- A run that asks, or fails to. -/
theorem Run.Inv.ask (h : x.Inv prompts writes r) {p : String} {rest : List String}
    (hphase : x.phase = .got .notSet p rest) (hgrows : Grows prompts prompts') {k : ℕ} {y : Prompt}
    (hk : prompts' k = some y) (hrun : y.run = r) (hp : y.permission = p)
    (hnew : k ∉ writes.map Write.prompt) {phase : Phase}
    (hasks : phase = .prompt k p rest ∨ phase = .failed .closedController) :
    Run.Inv prompts' writes r { x.see p .notSet true with phase := phase } := by
  have hunread : x.phase.unread = p :: rest := by rw [hphase]; rfl
  obtain ⟨hnotin, hnodup⟩ := List.nodup_cons.mp (hunread ▸ h.nodup)
  have hother : ∀ q, q ≠ p → (x.see p .notSet true).read q = x.read q :=
    fun q hq => Function.update_of_ne hq _ _
  constructor
  case nodup => rcases hasks with rfl | rfl <;> simp [Phase.unread, hnodup]
  case fresh =>
    intro q hq
    have hq : q ∈ rest := by rcases hasks with rfl | rfl <;> simp_all [Phase.unread]
    rw [hother q fun hqp => hnotin (hqp ▸ hq)]
    exact h.fresh q (hunread ▸ List.mem_cons_of_mem p hq)
  case early => rcases hasks with rfl | rfl <;> simp
  case awaits =>
    rintro k' p' rest' rfl
    obtain ⟨rfl, rfl, rfl⟩ : k' = k ∧ p' = p ∧ rest' = rest := by simpa using hasks
    exact ⟨y, hk, hrun, hp, hnew⟩
  case storing => rcases hasks with rfl | rfl <;> simp
  case outcome =>
    intro q status hq
    have hqp : q ≠ p := by
      rintro rfl
      exact Option.some_ne_none status (hq.symm.trans (h.unread_result (by simp [hunread])))
    rw [hother q hqp]
    exact (h.outcome hq).grows hgrows
  case covered =>
    intro q hq
    rcases hasks with rfl | rfl
    · simpa [hphase, Phase.unsettled] using h.covered q hq
    · exact .inr (.inr ⟨_, rfl⟩)

/-- A run that stores the answer to a prompt. -/
theorem Run.Inv.store (h : x.Inv prompts writes r) {p : String} {rest : List String}
    {status : PermissionStatus} (hunread : x.phase.unread = rest)
    (hunsettled : x.phase.unsettled = p :: rest)
    (hanswer : ∃ k y granted, prompts k = some y ∧ y.run = r ∧ y.permission = p ∧
      y.completion = .answered granted ∧ status = ofAnswer granted ∧ k ∈ writes'.map Write.prompt)
    {phase : Phase} (hstores : phase = .set status p rest ∨ phase = .stored status p rest) :
    Run.Inv prompts writes' r { x with phase := phase } := by
  have hunread' : phase.unread = rest := by rcases hstores with rfl | rfl <;> rfl
  have hunsettled' : phase.unsettled = p :: rest := by rcases hstores with rfl | rfl <;> rfl
  constructor
  case nodup =>
    show phase.unread.Nodup
    rw [hunread', ← hunread]
    exact h.nodup
  case fresh =>
    show ∀ q ∈ phase.unread, x.read q = none
    rw [hunread', ← hunread]
    exact h.fresh
  case early => rcases hstores with rfl | rfl <;> simp
  case awaits => rcases hstores with rfl | rfl <;> simp
  case storing =>
    rintro status' p' rest' hphase
    obtain ⟨rfl, rfl, rfl⟩ : status' = status ∧ p' = p ∧ rest' = rest := by
      rcases hstores with rfl | rfl <;> simpa [eq_comm] using hphase
    exact hanswer
  case outcome => exact h.outcome
  case covered =>
    intro q hq
    rcases h.covered q hq with hsome | hmem | ⟨failure, hfailed⟩
    · exact .inl hsome
    · exact .inr (.inl (hunsettled' ▸ hunsettled ▸ hmem))
    · simp [hfailed, Phase.unsettled] at hunsettled

/-! ### What holds of the flow -/

structure Inv (s : State) : Prop where
  seq : ∀ {k x}, s.prompts k = some x → k < s.seq
  ofRun : ∀ {k x}, s.prompts k = some x → x.id = promptId (s.runs x.run).app x.permission k ∧
    (s.runs x.run).read x.permission = some (.notSet, true)
  once : ∀ {j k x y}, s.prompts j = some x → s.prompts k = some y → x.run = y.run →
    x.permission = y.permission → j = k
  pending : ∀ {id k}, s.pending.lookup id = some k ↔
    ∃ x, s.prompts k = some x ∧ x.id = id ∧ x.completion = .waiting
  waits : ∀ {k x}, s.prompts k = some x → x.completion = .waiting →
    (∃ rest, (s.runs x.run).phase = .prompt k x.permission rest) ∨
      (s.runs x.run).phase = .failed .closedController
  raised : ∀ q ∈ s.raised, ∃ k x, s.prompts k = some x ∧ x.id = q.id
  raisedOnce : (s.raised.map PermissionRequest.id).Nodup
  writes : ∀ w ∈ s.writes, ∃ x granted, s.prompts w.prompt = some x ∧ x.run = w.run ∧
    x.completion = .answered granted ∧ w.cell = targetCell x.permission (s.runs w.run).app ∧
    w.status = ofAnswer granted
  writesOnce : (s.writes.map Write.prompt).Nodup
  runs : ∀ r, (s.runs r).Inv s.prompts s.writes r

variable {s t : State}

/-- A prompt's id is its own. -/
theorem Inv.id_inj (hs : Inv s) {j k : ℕ} {x y : Prompt} (hj : s.prompts j = some x)
    (hk : s.prompts k = some y) (hid : x.id = y.id) : j = k := by
  rw [(hs.ofRun hj).1, (hs.ofRun hk).1] at hid
  exact promptId_inj hid

/-- Every prompt of a run is settled that awaits none but settled ones and has not failed
on the closed controller. -/
theorem Inv.quiet (hs : Inv s) {r : ℕ}
    (hprompt : ∀ {k p rest y}, (s.runs r).phase = .prompt k p rest → s.prompts k = some y →
      y.completion ≠ .waiting)
    (hfailed : (s.runs r).phase ≠ .failed .closedController) {k : ℕ} {y : Prompt}
    (hk : s.prompts k = some y) (hrun : y.run = r) : y.completion ≠ .waiting := by
  intro hwaiting
  subst hrun
  rcases hs.waits hk hwaiting with ⟨rest, hphase⟩ | hphase
  · exact hprompt hphase hk hwaiting
  · exact hfailed hphase

/-- So are those of a run that awaits a settled one. -/
theorem Inv.quiet_of_prompt (hs : Inv s) {r k : ℕ} {p : String} {rest : List String} {x : Prompt}
    (hphase : (s.runs r).phase = .prompt k p rest) (hk : s.prompts k = some x)
    (hx : x.completion ≠ .waiting) {j : ℕ} {y : Prompt} (hj : s.prompts j = some y)
    (hrun : y.run = r) : y.completion ≠ .waiting := by
  refine hs.quiet ?_ (by simp [hphase]) hj hrun
  intro j p' rest' y hphase' hj
  obtain ⟨rfl, -, -⟩ : j = k ∧ p' = p ∧ rest' = rest := by
    simpa [eq_comm] using hphase'.symm.trans hphase
  exact Option.some_inj.mp (hk.symm.trans hj) ▸ hx

/-- A step of one run that leaves the prompts and the writes as they are. -/
theorem Inv.ofSetRun (hs : Inv s) {r : ℕ} {x : Run} (hruns : t.runs = Function.update s.runs r x)
    (hprompts : t.prompts = s.prompts) (hpending : t.pending = s.pending) (hseq : t.seq = s.seq)
    (hraised : t.raised = s.raised) (hwrites : t.writes = s.writes)
    (hkept : ∀ {k y}, s.prompts k = some y → y.run = r → y.completion ≠ .waiting ∧
      x.app = (s.runs r).app ∧ x.read y.permission = (s.runs r).read y.permission)
    (hx : x.Inv s.prompts s.writes r) : Inv t := by
  have happ : ∀ {k y}, s.prompts k = some y → (t.runs y.run).app = (s.runs y.run).app := by
    intro k y hk
    by_cases hr : y.run = r
    · rw [hruns, hr, Function.update_self, (hkept hk hr).2.1]
    · rw [hruns, Function.update_of_ne hr]
  constructor
  case seq => rw [hprompts, hseq]; exact hs.seq
  case ofRun =>
    intro k y hk
    rw [hprompts] at hk
    obtain ⟨hid, hread⟩ := hs.ofRun hk
    refine ⟨by rw [happ hk, hid], ?_⟩
    by_cases hr : y.run = r
    · rw [hruns, hr, Function.update_self, (hkept hk hr).2.2, ← hr, hread]
    · rw [hruns, Function.update_of_ne hr, hread]
  case once => rw [hprompts]; exact hs.once
  case pending => rw [hprompts, hpending]; exact hs.pending
  case waits =>
    intro k y hk hwaiting
    rw [hprompts] at hk
    -- a run that goes on has no prompt that waits
    have hr : y.run ≠ r := fun hr => (hkept hk hr).1 hwaiting
    rw [hruns, Function.update_of_ne hr]
    exact hs.waits hk hwaiting
  case raised => rw [hprompts, hraised]; exact hs.raised
  case raisedOnce => rw [hraised]; exact hs.raisedOnce
  case writes =>
    intro w hw
    rw [hwrites] at hw
    obtain ⟨y, granted, hk, hrun, hy, hcell, hstatus⟩ := hs.writes w hw
    exact ⟨y, granted, by rw [hprompts, hk], hrun, hy,
      by rw [hcell, ← hrun, happ hk], hstatus⟩
  case writesOnce => rw [hwrites]; exact hs.writesOnce
  case runs =>
    intro r'
    rw [hruns, hprompts, hwrites]
    by_cases hr : r' = r
    · subst hr
      rwa [Function.update_self]
    · rw [Function.update_of_ne hr]
      exact hs.runs r'

/-- `_prompt`. -/
theorem Inv.prompt (hs : Inv s) {r : ℕ} {p : String} {rest : List String}
    (hphase : (s.runs r).phase = .got .notSet p rest) :
    Inv (s.prompt r ((s.runs r).see p .notSet true) p rest) := by
  set x := (s.runs r).see p .notSet true with hx
  set t := s.prompt r x p rest with ht
  have hfresh : (s.runs r).read p = none := (hs.runs r).fresh p (by simp [hphase, Phase.unread])
  have hquiet : ∀ {k y}, s.prompts k = some y → y.run = r → y.completion ≠ .waiting :=
    fun hk => hs.quiet (by simp [hphase]) (by simp [hphase]) hk
  -- the prompts that there were keep their places
  have hkept : ∀ {k y}, s.prompts k = some y → t.prompts k = some y := fun hk =>
    (Function.update_of_ne (Nat.ne_of_lt (hs.seq hk)) _ _).trans hk
  have hnew : t.prompts s.seq = some ⟨promptId x.app p s.seq, r, p, .waiting⟩ :=
    Function.update_self _ _ _
  have hother : ∀ {r'}, r' ≠ r → t.runs r' = s.runs r' := fun hr => Function.update_of_ne hr _ _
  have hself : t.runs r = { x with
      phase := if s.closed then .failed .closedController else .prompt s.seq p rest } :=
    Function.update_self _ _ _
  have happ : ∀ r', (t.runs r').app = (s.runs r').app := by
    intro r'
    by_cases hr : r' = r
    · rw [hr, hself, hx]
      rfl
    · rw [hother hr]
  have hread : ∀ {r' q}, (s.runs r').read q = some (.notSet, true) →
      (t.runs r').read q = some (.notSet, true) := by
    intro r' q hq
    by_cases hr : r' = r
    · subst hr
      have hqp : q ≠ p := by
        rintro rfl
        exact Option.some_ne_none _ (hq.symm.trans hfresh)
      rw [hself]
      exact (Function.update_of_ne hqp _ _).trans hq
    · rwa [hother hr]
  constructor
  case seq =>
    intro k y hk
    show k < s.seq + 1
    rcases State.prompt_cases hk with ⟨rfl, -⟩ | hk
    · exact Nat.lt_succ_self _
    · exact Nat.lt_succ_of_lt (hs.seq hk)
  case ofRun =>
    intro k y hk
    rcases State.prompt_cases hk with ⟨rfl, rfl⟩ | hk
    · refine ⟨by rw [happ]; rfl, ?_⟩
      rw [hself]
      exact Function.update_self _ _ _
    · exact ⟨by rw [happ, (hs.ofRun hk).1], hread (hs.ofRun hk).2⟩
  case once =>
    -- an earlier prompt of the run was not for this permission
    have hne : ∀ {k y}, s.prompts k = some y → y.run = r → y.permission ≠ p := by
      rintro k y hk rfl rfl
      exact Option.some_ne_none _ ((hs.ofRun hk).2.symm.trans hfresh)
    intro j k y z hj hk hrun hpermission
    rcases State.prompt_cases hj with ⟨rfl, rfl⟩ | hj <;>
      rcases State.prompt_cases hk with ⟨rfl, rfl⟩ | hk
    · rfl
    · exact absurd hpermission.symm (hne hk hrun.symm)
    · exact absurd hpermission (hne hj hrun)
    · exact hs.once hj hk hrun hpermission
  case pending =>
    intro id k
    show (s.pending.insert (promptId x.app p s.seq) s.seq).lookup id = some k ↔ _
    by_cases hid : id = promptId x.app p s.seq
    · subst hid
      rw [AList.lookup_insert]
      constructor
      · rintro ⟨⟩
        exact ⟨_, hnew, rfl, rfl⟩
      · rintro ⟨y, hk, hid, -⟩
        rcases State.prompt_cases hk with ⟨rfl, -⟩ | hk
        · rfl
        · rw [(hs.ofRun hk).1] at hid
          rw [promptId_inj hid]
    · rw [AList.lookup_insert_ne hid, hs.pending]
      constructor
      · rintro ⟨y, hk, hy⟩
        exact ⟨y, hkept hk, hy⟩
      · rintro ⟨y, hk, hyid, hy⟩
        rcases State.prompt_cases hk with ⟨-, rfl⟩ | hk
        · exact absurd hyid.symm hid
        · exact ⟨y, hk, hyid, hy⟩
  case waits =>
    intro k y hk hwaiting
    rcases State.prompt_cases hk with ⟨rfl, rfl⟩ | hk
    · rw [hself]
      cases s.closed
      · exact .inl ⟨rest, rfl⟩
      · exact .inr rfl
    · rw [hother fun hr => hquiet hk hr hwaiting]
      exact hs.waits hk hwaiting
  case raised =>
    intro q hq
    have hq : q ∈ s.raised ∨ q.id = promptId x.app p s.seq := by
      simp only [ht, State.prompt] at hq
      split at hq
      · exact .inl hq
      · rcases List.mem_append.mp hq with hq | hq
        · exact .inl hq
        · exact .inr (by rw [List.mem_singleton.mp hq])
    rcases hq with hq | hq
    · obtain ⟨k, y, hk, hid⟩ := hs.raised q hq
      exact ⟨k, y, hkept hk, hid⟩
    · exact ⟨_, _, hnew, hq.symm⟩
  case raisedOnce =>
    simp only [ht, State.prompt]
    split
    · exact hs.raisedOnce
    · rw [List.map_append, List.nodup_append]
      refine ⟨hs.raisedOnce, List.pairwise_singleton _ _, ?_⟩
      rintro id hid id' hid' rfl
      obtain ⟨q, hq, rfl⟩ := List.mem_map.mp hid
      obtain ⟨k, y, hk, hkid⟩ := hs.raised q hq
      have heq : promptId (s.runs y.run).app y.permission k = promptId x.app p s.seq := by
        rw [← (hs.ofRun hk).1, hkid]
        simpa using hid'
      exact (Nat.ne_of_lt (hs.seq hk)) (promptId_inj heq)
  case writes =>
    intro w hw
    obtain ⟨y, granted, hk, hrun, hy, hcell, hstatus⟩ := hs.writes w hw
    exact ⟨y, granted, hkept hk, hrun, hy, by rw [happ, hcell], hstatus⟩
  case writesOnce => exact hs.writesOnce
  case runs =>
    have hgrows : Grows s.prompts t.prompts := fun hk => ⟨_, hkept hk, fun _ => rfl⟩
    intro r'
    by_cases hr : r' = r
    · subst hr
      rw [hself]
      refine (hs.runs r').ask hphase hgrows hnew rfl rfl ?_ ?_
      · intro hmem
        obtain ⟨w, hw, hseq⟩ := List.mem_map.mp hmem
        obtain ⟨y, granted, hk, -⟩ := hs.writes w hw
        exact (Nat.ne_of_lt (hs.seq hk)) hseq
      · cases s.closed
        · exact .inl rfl
        · exact .inr rfl
    · rw [hother hr]
      exact (hs.runs r').grows hgrows fun _ _ => Iff.rfl

/-- `setStatus` is called with the answer to the prompt the run awaited. -/
theorem Inv.write (hs : Inv s) {r k : ℕ} {p : String} {rest : List String} {x : Prompt}
    {granted : Bool} (hphase : (s.runs r).phase = .prompt k p rest) (hk : s.prompts k = some x)
    (hx : x.completion = .answered granted) : Inv (s.write r k p granted rest) := by
  set t := s.write r k p granted rest with ht
  obtain ⟨x', hk', hrun, hp, hunwritten⟩ := (hs.runs r).awaits hphase
  obtain rfl := Option.some_inj.mp (hk.symm.trans hk')
  -- the prompt of the run has its answer, and the run waits for no other
  have hquiet : ∀ {j y}, s.prompts j = some y → y.run = r → y.completion ≠ .waiting :=
    fun hj => hs.quiet_of_prompt hphase hk (by simp [hx]) hj
  have hother : ∀ {r'}, r' ≠ r → t.runs r' = s.runs r' := fun hr => Function.update_of_ne hr _ _
  have hself : t.runs r = { s.runs r with phase := .set (ofAnswer granted) p rest } :=
    Function.update_self _ _ _
  have hkept : ∀ r', (t.runs r').app = (s.runs r').app ∧ (t.runs r').read = (s.runs r').read := by
    intro r'
    by_cases hr : r' = r
    · rw [hr, hself]
      exact ⟨rfl, rfl⟩
    · rw [hother hr]
      exact ⟨rfl, rfl⟩
  have hwrites : t.writes.map Write.prompt = s.writes.map Write.prompt ++ [k] := by
    simp [ht, State.write]
  constructor
  case seq => exact hs.seq
  case ofRun =>
    intro j y hj
    rw [(hkept y.run).1, (hkept y.run).2]
    exact hs.ofRun hj
  case once => exact hs.once
  case pending => exact hs.pending
  case waits =>
    intro j y hj hwaiting
    rw [hother fun hr => hquiet hj hr hwaiting]
    exact hs.waits hj hwaiting
  case raised => exact hs.raised
  case raisedOnce => exact hs.raisedOnce
  -- the last write is of this prompt, with what was answered
  case writes =>
    intro w hw
    rcases List.mem_append.mp hw with hw | hw
    · obtain ⟨y, granted, hj, hyrun, hy, hcell, hstatus⟩ := hs.writes w hw
      exact ⟨y, granted, hj, hyrun, hy, by rw [(hkept _).1, hcell], hstatus⟩
    · obtain rfl := List.mem_singleton.mp hw
      exact ⟨x, granted, hk, hrun, hx, by rw [(hkept _).1, hp], rfl⟩
  case writesOnce =>
    rw [hwrites]
    exact List.nodup_append.mpr ⟨hs.writesOnce, List.pairwise_singleton _ _,
      by rintro j hj j' hj' rfl; exact hunwritten (List.mem_singleton.mp hj' ▸ hj)⟩
  -- the run has stored its answer; the other runs only see one more write
  case runs =>
    intro r'
    by_cases hr : r' = r
    · subst hr
      rw [hself]
      have hunread : (s.runs r').phase.unread = rest := by simp [hphase, Phase.unread]
      refine (hs.runs r').store hunread
        (by rw [hphase]; rfl) ⟨k, x, granted, hk, hrun, hp, hx, rfl, ?_⟩ (.inl rfl)
      simp [hwrites]
    · rw [hother hr]
      refine (hs.runs r').grows (fun hj => ⟨_, hj, fun _ => rfl⟩) fun {j y} hj hyrun => ?_
      have hjk : j ≠ k := by
        rintro rfl
        obtain rfl := Option.some_inj.mp (hk.symm.trans hj)
        exact hr (hyrun.symm.trans hrun)
      simp [hwrites, hjk]

/-- Settling prompts that are waiting. -/
theorem Inv.ofSettle (hs : Inv s) (hruns : t.runs = s.runs) (hseq : t.seq = s.seq)
    (hraised : t.raised = s.raised) (hwrites : t.writes = s.writes)
    (hgrows : Grows s.prompts t.prompts)
    (hback : ∀ {k y}, t.prompts k = some y → ∃ completion,
      s.prompts k = some { y with completion := completion })
    (hpending : ∀ {id k}, t.pending.lookup id = some k ↔
      ∃ x, t.prompts k = some x ∧ x.id = id ∧ x.completion = .waiting) : Inv t := by
  constructor
  case seq =>
    intro k y hk
    obtain ⟨completion, hk'⟩ := hback hk
    exact hseq ▸ hs.seq hk'
  case ofRun =>
    intro k y hk
    obtain ⟨completion, hk'⟩ := hback hk
    have hy := hs.ofRun hk'
    rwa [hruns]
  case once =>
    intro j k y z hj hk hrun hpermission
    obtain ⟨_, hj'⟩ := hback hj
    obtain ⟨_, hk'⟩ := hback hk
    exact hs.once hj' hk' hrun hpermission
  case pending => exact hpending
  case waits =>
    intro k y hk hwaiting
    obtain ⟨completion, hk'⟩ := hback hk
    -- what waits now waited before: a completion is never taken back
    have hwaited : completion = .waiting := by
      by_contra hsettled
      have hy := Option.some_inj.mp (hk.symm.trans (hgrows.settled hk' hsettled))
      exact hsettled ((congrArg Prompt.completion hy).symm.trans hwaiting)
    have hwaits := hs.waits hk' hwaited
    rwa [hruns]
  case raised =>
    intro q hq
    obtain ⟨k, x, hk, hid⟩ := hs.raised q (hraised ▸ hq)
    obtain ⟨completion, hk', -⟩ := hgrows hk
    exact ⟨k, _, hk', hid⟩
  case raisedOnce => exact hraised ▸ hs.raisedOnce
  case writes =>
    intro w hw
    obtain ⟨x, granted, hk, hrun, hx, hcell, hstatus⟩ := hs.writes w (hwrites ▸ hw)
    exact ⟨x, granted, hgrows.settled hk (by simp [hx]), hrun, hx, by rw [hruns, hcell], hstatus⟩
  case writesOnce => exact hwrites ▸ hs.writesOnce
  case runs =>
    intro r
    rw [hruns, hwrites]
    exact (hs.runs r).grows hgrows fun _ _ => Iff.rfl

/-- An id that is not pending. -/
theorem respond_none {id : String} (granted : Bool) (h : s.pending.lookup id = none) :
    s.respond id granted = s := by
  rw [State.respond, h]

/-- The prompt with the id is settled, and no other. -/
theorem Inv.respond_some (hs : Inv s) {k : ℕ} {x : Prompt} (granted : Bool)
    (hk : s.prompts k = some x) (hx : x.completion = .waiting) :
    s.respond x.id granted = { s with
      pending := s.pending.erase x.id
      prompts :=
        Function.update s.prompts k (some { x with completion := .answered granted }) } := by
  rw [State.respond, hs.pending.mpr ⟨x, hk, rfl, hx⟩]
  simp [hk, hx, Completion.complete]

/-- `respond`. -/
theorem Inv.respond (hs : Inv s) (id : String) (granted : Bool) : Inv (s.respond id granted) := by
  cases hlookup : s.pending.lookup id with
  | none =>
    rw [respond_none granted hlookup]
    exact hs
  | some k =>
    obtain ⟨x, hk, rfl, hx⟩ := hs.pending.mp hlookup
    rw [hs.respond_some granted hk hx]
    set y : Prompt := { x with completion := .answered granted } with hy
    have hother : ∀ {j}, j ≠ k → Function.update s.prompts k (some y) j = s.prompts j :=
      fun hj => Function.update_of_ne hj _ _
    refine hs.ofSettle rfl rfl rfl rfl ?_ ?_ ?_
    · -- the prompt is answered; the others are what they were
      intro j z hj
      by_cases hjk : j = k
      · subst hjk
        obtain rfl := Option.some_inj.mp (hk.symm.trans hj)
        exact ⟨.answered granted, Function.update_self _ _ _, fun h => absurd hx h⟩
      · exact ⟨_, (hother hjk).trans hj, fun _ => rfl⟩
    · intro j z hj
      by_cases hjk : j = k
      · subst hjk
        obtain rfl : y = z := by simpa using hj
        exact ⟨x.completion, hk⟩
      · exact ⟨_, (hother hjk).symm.trans hj⟩
    · -- pending are those that wait, and this one does no longer
      intro id j
      by_cases hid : id = x.id
      · subst hid
        rw [AList.lookup_erase]
        refine iff_of_false (by simp) ?_
        rintro ⟨z, hj, hzid, hz⟩
        by_cases hjk : j = k
        · subst hjk
          obtain rfl : y = z := by simpa using hj
          simp [hy] at hz
        · exact hjk (hs.id_inj ((hother hjk).symm.trans hj) hk hzid)
      · rw [AList.lookup_erase_ne hid, hs.pending]
        refine exists_congr fun z => ?_
        by_cases hjk : j = k
        · subst hjk
          refine iff_of_false ?_ ?_
          · rintro ⟨hj, hzid, -⟩
            obtain rfl := Option.some_inj.mp (hk.symm.trans hj)
            exact hid hzid.symm
          · rintro ⟨hj, hzid, -⟩
            obtain rfl : y = z := by simpa using hj
            exact hid hzid.symm
        · show _ ↔ Function.update s.prompts k (some y) j = some z ∧ _
          rw [hother hjk]

/-- What `close` does to a prompt. -/
theorem Inv.close_prompts (hs : Inv s) (k : ℕ) : s.close.prompts k = (s.prompts k).map fun x =>
    { x with completion := x.completion.complete .cancelled } := by
  cases hk : s.prompts k with
  | none => simp [State.close, hk]
  | some x =>
    have hentry : (∃ e ∈ s.pending.entries, e.2 = k) ↔ x.completion = .waiting := by
      constructor
      · rintro ⟨⟨id, j⟩, he, rfl⟩
        obtain ⟨y, hk', -, hy⟩ := hs.pending.mp (AList.mem_lookup_iff.mpr he)
        obtain rfl := Option.some_inj.mp (hk.symm.trans hk')
        exact hy
      · intro hx
        exact ⟨_, AList.mem_lookup_iff.mp (hs.pending.mpr ⟨x, hk, rfl, hx⟩), rfl⟩
    by_cases hx : x.completion = .waiting
    · simp [State.close, hk, hentry.mpr hx]
    · simp [State.close, hk, Completion.complete_of_ne hx]

/-- `close`. -/
theorem Inv.close (hs : Inv s) : Inv s.close := by
  have hcases : ∀ {k y}, s.close.prompts k = some y → ∃ x, s.prompts k = some x ∧
      y = { x with completion := x.completion.complete .cancelled } := by
    intro k y hk
    rw [hs.close_prompts] at hk
    obtain ⟨x, hx, rfl⟩ := Option.map_eq_some_iff.mp hk
    exact ⟨x, hx, rfl⟩
  refine hs.ofSettle rfl rfl rfl rfl ?_ ?_ ?_
  · intro k x hk
    exact ⟨_, by rw [hs.close_prompts, hk, Option.map_some], (Completion.complete_of_ne · _)⟩
  · intro k y hk
    obtain ⟨x, hx, rfl⟩ := hcases hk
    exact ⟨x.completion, hx⟩
  · intro id k
    refine iff_of_false (by simp [State.close]) ?_
    rintro ⟨y, hk, -, hy⟩
    obtain ⟨x, -, rfl⟩ := hcases hk
    cases hcompletion : x.completion <;> simp [hcompletion, Completion.complete] at hy

/-- A result that follows from what the store answered. -/
theorem Inv.settleRead (hs : Inv s) {r : ℕ} {p : String} {rest : List String}
    {status result : PermissionStatus} (hphase : (s.runs r).phase = .got status p rest)
    (listened : Bool) (hout : Outcome s.prompts r p (some (status, listened)) result) :
    Inv (s.setRun r (((s.runs r).see p status listened).settle p result rest)) := by
  have hunread : (s.runs r).phase.unread = p :: rest := by rw [hphase]; rfl
  obtain ⟨hp, hnodup⟩ := List.nodup_cons.mp (hunread ▸ (hs.runs r).nodup)
  have hfresh : ∀ q ∈ p :: rest, (s.runs r).read q = none := hunread ▸ (hs.runs r).fresh
  have hother : ∀ q, q ≠ p → ((s.runs r).see p status listened).read q = (s.runs r).read q :=
    fun q hq => Function.update_of_ne hq _ _
  refine hs.ofSetRun rfl rfl rfl rfl rfl rfl ?_ ((hs.runs r).settle (by rw [hphase]; rfl) rfl rfl
    hother hnodup ?_ (by simpa using hout))
  · rintro k y hk rfl
    -- what has been asked for was read before
    have hasked : y.permission ≠ p := by
      rintro rfl
      exact Option.some_ne_none _ ((hs.ofRun hk).2.symm.trans (hfresh _ (List.mem_cons_self ..)))
    exact ⟨hs.quiet (by simp [hphase]) (by simp [hphase]) hk rfl, rfl, hother _ hasked⟩
  · intro q hq
    rw [hother q fun hqp => hp (hqp ▸ hq)]
    exact hfresh q (List.mem_cons_of_mem p hq)

/-- The result for a permission whose prompt was settled. -/
theorem Inv.settlePrompt (hs : Inv s) {r k : ℕ} {x : Prompt} {p : String} {rest : List String}
    {status : PermissionStatus} (hunread : (s.runs r).phase.unread = rest)
    (hunsettled : (s.runs r).phase.unsettled = p :: rest)
    (hquiet : ∀ {j y}, s.prompts j = some y → y.run = r → y.completion ≠ .waiting)
    (hk : s.prompts k = some x) (hrun : x.run = r) (hp : x.permission = p)
    (hout : Outcome s.prompts r p (some (.notSet, true)) status) :
    Inv (s.setRun r ((s.runs r).settle p status rest)) := by
  have hread := (hs.ofRun hk).2
  rw [hrun, hp] at hread
  subst hunread
  refine hs.ofSetRun rfl rfl rfl rfl rfl rfl (fun hj hr => ⟨hquiet hj hr, rfl, rfl⟩) ?_
  exact (hs.runs r).settle hunsettled rfl rfl (fun _ _ => rfl) (hs.runs r).nodup (hs.runs r).fresh
    (hread ▸ hout)

/-! ### Every step -/

theorem init_inv (store : Cell → List String) : Inv (init store) where
  seq hk := by simp [init] at hk
  ofRun hk := by simp [init] at hk
  once hj := by simp [init] at hj
  pending := by simp [init]
  waits hk := by simp [init] at hk
  raised := by simp [init]
  raisedOnce := List.nodup_nil
  writes := by simp [init]
  writesOnce := List.nodup_nil
  runs _ := by constructor <;> simp [init, Phase.unread]

theorem step_inv {a : Action} (h : step s a = some t) (hs : Inv s) : Inv t := by
  cases step_cases h with
  -- before the call the run has no prompts
  | @call r appId hphase =>
    refine hs.ofSetRun rfl rfl rfl rfl rfl rfl ?_ ((hs.runs r).call hphase appId)
    rintro k y hk rfl
    have hread := (hs.ofRun hk).2
    rw [(hs.runs y.run).early (.inl hphase)] at hread
    exact absurd hread.symm (Option.some_ne_none _)
  | @noMetadata r hphase =>
    refine hs.ofSetRun rfl rfl rfl rfl rfl rfl (fun hk hr => ⟨?_, rfl, rfl⟩)
      ((hs.runs r).move trivial (List.nil_sublist _) (.inl ⟨_, rfl⟩))
    exact hs.quiet (by simp [hphase]) (by simp [hphase]) hk hr
  | @derived r metadata hphase =>
    refine hs.ofSetRun rfl rfl rfl rfl rfl rfl (fun hk hr => ⟨?_, rfl, rfl⟩)
      ((hs.runs r).derive hphase metadata)
    exact hs.quiet (by simp [hphase]) (by simp [hphase]) hk hr
  | @got r p rest status hphase hstatus =>
    refine hs.ofSetRun rfl rfl rfl rfl rfl rfl (fun hk hr => ⟨?_, rfl, rfl⟩)
      ((hs.runs r).move trivial (by rw [hphase]; exact List.Sublist.refl _)
        (.inr ⟨by rw [hphase]; rfl, by simp [hphase]⟩))
    exact hs.quiet (by simp [hphase]) (by simp [hphase]) hk hr
  | @stored r status p rest hphase =>
    refine hs.ofSetRun rfl rfl rfl rfl rfl rfl (fun hk hr => ⟨?_, rfl, rfl⟩)
      ((hs.runs r).store (by rw [hphase]; rfl) (by rw [hphase]; rfl)
        ((hs.runs r).storing (.inl hphase)) (.inr rfl))
    exact hs.quiet (by simp [hphase]) (by simp [hphase]) hk hr
  -- the run is over, and waits for nothing
  | @storeFailed r hphase =>
    refine hs.ofSetRun rfl rfl rfl rfl rfl rfl (fun hk hr => ⟨?_, rfl, rfl⟩)
      ((hs.runs r).move trivial (List.nil_sublist _) (.inl ⟨_, rfl⟩))
    rcases hphase with ⟨p, rest, hphase⟩ | ⟨status, p, rest, hphase⟩
    · exact hs.quiet (by simp [hphase]) (by simp [hphase]) hk hr
    · exact hs.quiet (by simp [hphase]) (by simp [hphase]) hk hr
  | decided hphase hset => exact hs.settleRead hphase _ (.decided hset)
  | unheard hphase hnone => exact hs.settleRead hphase false .unheard
  | prompted hphase hsome => exact hs.prompt hphase
  | answered hphase hk hx => exact hs.write hphase hk hx
  -- the prompt the run waits for was cancelled
  | @cancelled r k p rest x hphase hk hx =>
    obtain ⟨x', hk', hrun, hp, -⟩ := (hs.runs r).awaits hphase
    obtain rfl := Option.some_inj.mp (hk.symm.trans hk')
    exact hs.settlePrompt (by rw [hphase]; rfl) (by rw [hphase]; rfl)
      (hs.quiet_of_prompt hphase hk (by simp [hx])) hk hrun hp (.cancelled hk hrun hp hx)
  | @settled r status p rest hphase =>
    obtain ⟨k, x, granted, hk, hrun, hp, hx, rfl, -⟩ := (hs.runs r).storing (.inr hphase)
    exact hs.settlePrompt (by rw [hphase]; rfl) (by rw [hphase]; rfl)
      (hs.quiet (by simp [hphase]) (by simp [hphase])) hk hrun hp (.answered hk hrun hp hx)
  | respond => exact hs.respond _ _
  | listeners hn ha => exact { hs with }
  | done hsome => exact { hs with }
  | close => exact hs.close
  | external => exact { hs with }

theorem run_inv {store : Cell → List String} {as : List Action}
    (h : run step (init store) as = some s) : Inv s := run_invariant step_inv h (init_inv store)

/-! ### The contract -/

/-- What is promised of prompts, answers, writes and results. -/
structure Contract (s : State) : Prop where
  /-- Ids are not used twice. -/
  idOnce : ∀ {j k x y}, s.prompts j = some x → s.prompts k = some y → x.id = y.id → j = k
  raisedOnce : (s.raised.map PermissionRequest.id).Nodup
  /-- `respond` settles the one waiting prompt with the id. -/
  respondOne : ∀ {k x} granted, s.prompts k = some x → x.completion = .waiting →
    s.respond x.id granted = { s with
      pending := s.pending.erase x.id
      prompts := Function.update s.prompts k (some { x with completion := .answered granted }) }
  /-- An id that is unknown, answered or cancelled changes nothing. -/
  respondNone : ∀ {id} granted,
    (∀ {k x}, s.prompts k = some x → x.id = id → x.completion ≠ .waiting) →
      s.respond id granted = s
  /-- What is written is the answer to a prompt of the run, in the permission's cell. -/
  writeAnswered : ∀ w ∈ s.writes, ∃ x granted, s.prompts w.prompt = some x ∧ x.run = w.run ∧
    x.completion = .answered granted ∧ w.cell = targetCell x.permission (s.runs w.run).app ∧
    w.status = ofAnswer granted
  writeOnce : (s.writes.map Write.prompt).Nodup
  /-- An answer is written, or the run's next step writes it. -/
  answerWritten : ∀ {k x granted}, s.prompts k = some x → x.completion = .answered granted →
    (∃ w ∈ s.writes, w.prompt = k) ∨
      ∃ t, step s (.resume x.run) = some t ∧ t.writes = s.writes ++
        [⟨x.run, k, targetCell x.permission (s.runs x.run).app, ofAnswer granted⟩]
  /-- A cell that was read as decided is not written. -/
  decidedKept : ∀ w ∈ s.writes, ∀ {p status listened},
    (s.runs w.run).read p = some (status, listened) →
    w.cell = targetCell p (s.runs w.run).app → status = .notSet
  /-- The store changes by these writes, and by others. -/
  storeKept : ∀ {a t}, step s a = some t → ∀ cell, t.store cell = s.store cell ∨
    (∃ permissions, a = .external cell permissions) ∨
    ∃ w ∈ s.writes, w.cell = cell ∧ t.store cell = w.status.value.toList
  result : ∀ {r p status}, (s.runs r).result p = some status →
    Outcome s.prompts r p ((s.runs r).read p) status

/-- The part of the contract that can fail. -/
def AnswersWritten (s : State) : Prop :=
  ∀ k x granted, s.prompts k = some x → x.completion = .answered granted →
    (∃ w ∈ s.writes, w.prompt = k) ∨ ∃ rest, (s.runs x.run).phase = .prompt k x.permission rest

/-- The `respond` call, if it is one, does not name a prompt of a run that has failed on the
closed controller. -/
def Heard (s : State) : Action → Prop
  | .respond id _ => ∀ {k x}, s.prompts k = some x → x.id = id → x.completion = .waiting →
    (s.runs x.run).phase ≠ .failed .closedController
  | _ => True

theorem Inv.storeKept (hs : Inv s) {a : Action} (h : step s a = some t) (cell : Cell) :
    t.store cell = s.store cell ∨ (∃ permissions, a = .external cell permissions) ∨
      ∃ w ∈ s.writes, w.cell = cell ∧ t.store cell = w.status.value.toList := by
  cases step_cases h with
  | @stored r status p rest hphase =>
    by_cases hcell : cell = targetCell p (s.runs r).app
    · subst hcell
      obtain ⟨k, y, granted, hk, hrun, hp, hy, rfl, hmem⟩ := (hs.runs r).storing (.inl hphase)
      obtain ⟨w, hw, rfl⟩ := List.mem_map.mp hmem
      obtain ⟨x, granted', hk', hwrun, hx, hwcell, hstatus⟩ := hs.writes w hw
      obtain rfl := Option.some_inj.mp (hk.symm.trans hk')
      obtain rfl : granted = granted' := by simpa using hy.symm.trans hx
      refine .inr (.inr ⟨w, hw, by rw [hwcell, hp, ← hwrun, hrun], ?_⟩)
      rw [hstatus]
      exact Function.update_self _ _ _
    · exact .inl (Function.update_of_ne hcell _ _)
  | @external cell' permissions =>
    by_cases hcell : cell = cell'
    · subst hcell
      exact .inr (.inl ⟨permissions, rfl⟩)
    · exact .inl (Function.update_of_ne hcell _ _)
  | @respond id granted =>
    left
    unfold State.respond
    split <;> rfl
  | _ => exact .inl rfl

/-- A run that awaits an answered prompt writes the answer next. -/
theorem Inv.writes_next (hs : Inv s) {k : ℕ} {x : Prompt} {granted : Bool}
    (hk : s.prompts k = some x) (hx : x.completion = .answered granted) :
    (∃ rest, (s.runs x.run).phase = .prompt k x.permission rest) ↔
      ∃ t, step s (.resume x.run) = some t ∧ t.writes = s.writes ++
        [⟨x.run, k, targetCell x.permission (s.runs x.run).app, ofAnswer granted⟩] := by
  constructor
  · rintro ⟨rest, hphase⟩
    refine ⟨s.write x.run k x.permission granted rest, ?_, rfl⟩
    simp [step, State.resume, hphase, hk, hx]
  · rintro ⟨t, hstep, hwrites⟩
    have hgrew : t.writes ≠ s.writes := by
      rw [hwrites]
      simp
    cases step_cases hstep with
    | @answered _ k' p rest y _ hphase hk' hy =>
      obtain ⟨rfl, -⟩ : k' = k ∧ _ := by simpa [State.write] using hwrites
      obtain ⟨y', hk'', -, hp, -⟩ := (hs.runs x.run).awaits hphase
      obtain rfl := Option.some_inj.mp (hk.symm.trans hk'')
      exact ⟨rest, by rw [hphase, hp]⟩
    | listeners hn ha => exact absurd rfl hgrew
    | _ => exact absurd rfl hgrew

theorem Inv.contract_iff_written (hs : Inv s) : Contract s ↔ AnswersWritten s := by
  constructor
  · intro h k x granted hk hx
    exact (h.answerWritten hk hx).imp_right (hs.writes_next hk hx).mpr
  · intro h
    constructor
    case idOnce => exact hs.id_inj
    case raisedOnce => exact hs.raisedOnce
    case respondOne => exact hs.respond_some
    case respondNone =>
      intro id granted hnone
      refine respond_none granted (Option.eq_none_iff_forall_ne_some.mpr fun k hlookup => ?_)
      obtain ⟨x, hk, hid, hx⟩ := hs.pending.mp hlookup
      exact hnone hk hid hx
    case writeAnswered => exact hs.writes
    case writeOnce => exact hs.writesOnce
    case answerWritten => exact fun hk hx => (h _ _ _ hk hx).imp_right (hs.writes_next hk hx).mp
    case decidedKept =>
      intro w hw p status listened hread hcell
      obtain ⟨x, granted, hk, hrun, -, hxcell, -⟩ := hs.writes w hw
      obtain rfl : x.permission = p := targetCell_inj (hxcell.symm.trans hcell)
      have hasked := (hs.ofRun hk).2
      rw [hrun, hread] at hasked
      exact congrArg Prod.fst (Option.some_inj.mp hasked)
    case storeKept => exact hs.storeKept
    case result => exact fun hresult => (hs.runs _).outcome hresult

/-! ### When it holds -/

/-- A step of one run that awaits no answered prompt. -/
theorem AnswersWritten.ofRun (h : AnswersWritten s) {r : ℕ} {x : Run}
    (hruns : t.runs = Function.update s.runs r x) (hwrites : t.writes = s.writes)
    (hback : ∀ {k y granted}, t.prompts k = some y → y.completion = .answered granted →
      s.prompts k = some y)
    (hnot : ∀ {k p rest y granted}, (s.runs r).phase = .prompt k p rest → s.prompts k = some y →
      y.completion ≠ .answered granted) : AnswersWritten t := by
  intro k y granted hk hy
  have hk' := hback hk hy
  rcases h k y granted hk' hy with hwritten | ⟨rest, hphase⟩
  · exact .inl (hwrites ▸ hwritten)
  · have hr : y.run ≠ r := by
      rintro rfl
      exact hnot hphase hk' hy
    exact .inr ⟨rest, by rw [hruns, Function.update_of_ne hr, hphase]⟩

/-- A `respond` call leaves an answer without a write exactly if the run of the prompt has
failed. -/
theorem respond_answersWritten (hs : Inv s) (hwritten : AnswersWritten s) (id : String)
    (granted : Bool) :
    AnswersWritten (s.respond id granted) ↔ Heard s (.respond id granted) := by
  cases hlookup : s.pending.lookup id with
  | none =>
    rw [respond_none granted hlookup]
    refine iff_of_true hwritten fun {k x} hk hid hx => ?_
    have hsome := hs.pending.mpr ⟨x, hk, hid, hx⟩
    exact absurd (hsome.symm.trans hlookup) (Option.some_ne_none k)
  | some k =>
    obtain ⟨x, hk, rfl, hx⟩ := hs.pending.mp hlookup
    rw [hs.respond_some granted hk hx]
    set y : Prompt := { x with completion := .answered granted } with hy
    constructor
    · intro h j z hj hid hz hfailed
      obtain rfl := hs.id_inj hj hk hid
      obtain rfl := Option.some_inj.mp (hk.symm.trans hj)
      rcases h j y granted (Function.update_self _ _ _) rfl with ⟨w, hw, hwk⟩ | ⟨rest, hphase⟩
      · obtain ⟨z, granted', hk', -, hanswered, -⟩ := hs.writes w hw
        rw [hwk] at hk'
        obtain rfl := Option.some_inj.mp (hk.symm.trans hk')
        simp [hz] at hanswered
      · simp [hy, hfailed] at hphase
    · intro h j z granted' hj hz
      by_cases hjk : j = k
      · subst hjk
        obtain rfl : y = z := by simpa using hj
        exact .inr ((hs.waits hk hx).resolve_right (h hk rfl hx))
      · exact hwritten j z granted' ((Function.update_of_ne hjk _ _).symm.trans hj) hz

theorem step_answersWritten {a : Action} (h : step s a = some t) (hs : Inv s)
    (hwritten : AnswersWritten s) : AnswersWritten t ↔ Heard s a := by
  cases step_cases h with
  | @respond id granted => exact respond_answersWritten hs hwritten id granted
  -- what `close` completes is cancelled, and needs no write
  | close =>
    refine iff_of_true (fun k y granted hk hy => ?_) trivial
    rw [hs.close_prompts] at hk
    obtain ⟨x, hx, rfl⟩ := Option.map_eq_some_iff.mp hk
    cases hcompletion : x.completion with
    | waiting => simp [hcompletion, Completion.complete] at hy
    | answered granted' =>
      obtain rfl : granted' = granted := by simpa [hcompletion, Completion.complete] using hy
      exact hwritten k x granted' hx hcompletion
    | cancelled => simp [hcompletion, Completion.complete] at hy
  | @answered r k p rest x granted hphase hk hx =>
    refine iff_of_true (fun j y granted' hj hy => ?_) trivial
    -- an answer that was about to be written by this run is written now
    rcases hwritten j y granted' hj hy with ⟨w, hw, hwj⟩ | ⟨rest', hphase'⟩
    · exact .inl ⟨w, List.mem_append_left _ hw, hwj⟩
    · by_cases hr : y.run = r
      · subst hr
        obtain ⟨rfl, -⟩ : j = k ∧ _ := by simpa [hphase] using hphase'.symm
        exact .inl ⟨_, List.mem_append_right _ (List.mem_singleton_self _), rfl⟩
      · exact .inr ⟨rest', (congrArg Run.phase (Function.update_of_ne hr _ _)).trans hphase'⟩
  -- a new prompt waits, or is cancelled at once
  | prompted hphase hsome =>
    refine iff_of_true (hwritten.ofRun rfl rfl (fun {k y granted} hk hy => ?_) ?_) trivial
    · refine (State.prompt_cases hk).resolve_left ?_
      rintro ⟨-, rfl⟩
      simp at hy
    · simp [hphase]
  | listeners hn ha =>
    rcases ha with rfl | rfl <;> exact iff_of_true hwritten trivial
  | done hsome => exact iff_of_true hwritten trivial
  | external => exact iff_of_true hwritten trivial
  | storeFailed hphase =>
    refine iff_of_true (hwritten.ofRun rfl rfl (fun hk _ => hk) ?_) trivial
    rcases hphase with ⟨p, rest, hphase⟩ | ⟨status, p, rest, hphase⟩ <;> simp [hphase]
  | @cancelled r k p rest x hphase hk hx =>
    refine iff_of_true (hwritten.ofRun rfl rfl (fun hk _ => hk) ?_) trivial
    intro j p' rest' y granted hphase' hj
    obtain ⟨rfl, -⟩ : k = j ∧ _ := by simpa [hphase] using hphase'
    obtain rfl := Option.some_inj.mp (hk.symm.trans hj)
    simp [hx]
  | call hphase | noMetadata hphase | derived hphase | got hphase _ | stored hphase
  | decided hphase _ | unheard hphase _ | settled hphase =>
    refine iff_of_true (hwritten.ofRun rfl rfl (fun hk _ => hk) ?_) trivial
    simp [hphase]

/-- **The contract of a permission flow** holds all along a run of it, exactly if every
`respond` call is heard. -/
theorem contract_iff (store : Cell → List String) (as : List Action) :
    (∀ u, Reaches step (init store) as u → Contract u) ↔
      ∀ s a t, Takes step (init store) as s a t → Heard s a := by
  refine reaches_iff_takes ?_ as fun s a t htakes hcontract => ?_
  · refine (init_inv store).contract_iff_written.mpr fun k x granted hk => ?_
    simp [init] at hk
  · obtain ⟨before, hbefore⟩ := htakes.reached
    have hs : Inv s := run_inv hbefore
    have ht : Inv t := step_inv htakes.step_eq hs
    rw [ht.contract_iff_written]
    exact step_answersWritten htakes.step_eq hs (hs.contract_iff_written.mp hcontract)

/-! ### A prompt on a closed controller -/

/-- An app may ask for the location; the flow is closed between the store's answer and the
prompt, and the id that `_prompt` made is answered. -/
def staleRun : List Action :=
  [.listen, .call 0 "org.x", .metadata 0 (some [⟨"Session Bus Policy",
    "org.freedesktop.portal.Location", "talk"⟩]), .serve 0 true, .close, .resume 0,
    .respond "org.x:location:0" true]

/-- The answer settles the run's prompt, and nothing is or will be written. -/
theorem stale_answer_lost : ∃ t, run step (init fun _ => []) staleRun = some t ∧
    t.prompts 0 = some ⟨"org.x:location:0", 0, "location", .answered true⟩ ∧
    (t.runs 0).phase = .failed .closedController ∧ t.writes = [] ∧ ¬ Contract t := by
  obtain ⟨t, hrun, hp⟩ := exists_run step (init fun _ => []) staleRun
    (p := fun t => t.prompts 0 = some ⟨"org.x:location:0", 0, "location", .answered true⟩ ∧
      (t.runs 0).phase = .failed .closedController ∧ t.writes = []) (by decide +kernel)
  obtain ⟨hprompt, hphase, hwrites⟩ := of_decide_eq_true hp
  refine ⟨t, hrun, hprompt, hphase, hwrites, fun hcontract => ?_⟩
  rcases hcontract.answerWritten hprompt rfl with ⟨w, hw, -⟩ | ⟨u, hstep, -⟩
  · simp [hwrites] at hw
  · simp [step, State.resume, hphase] at hstep

end PermissionFlow
