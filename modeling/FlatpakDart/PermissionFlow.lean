/-
Launch-time permission prompts (`lib/src/portal/permission_flow.dart`).

A run is one call of `ensureLaunchPermissions`, the `k`-th prompt the `k`-th call of
`_prompt`.  A step is what happens between two awaits of a run, an answer of the
metadata or of the store, or one call of `respond`, `listen` or `close`; so a list of
actions is one interleaving of the runs with everything else.

* `step_cases` — what one step can do;
* `promptId_inj` — a prompt's id determines which prompt it is.
-/
import FlatpakDart.PermissionStore
import FlatpakDart.Machine
import Mathlib.Data.List.AList

open Machine PermissionStore Dart

namespace PermissionFlow

/-! ### The flow and its runs -/

/-- The state of a `Completer<bool>`; `cancelled` is `_PromptCancelled`. -/
inductive Completion
  | waiting
  | answered (granted : Bool)
  | cancelled
  deriving DecidableEq

/-- `complete` and `completeError`; on a completed completer they throw. -/
def Completion.complete : Completion → Completion → Completion
  | .waiting, value => value
  | done, _ => done

theorem Completion.complete_of_ne {c : Completion} (h : c ≠ .waiting) (value : Completion) :
    c.complete value = c := by
  cases c with
  | waiting => exact absurd rfl h
  | answered granted => rfl
  | cancelled => rfl

/-- One call of `_prompt` and its completer. -/
structure Prompt where
  id : String
  run : ℕ
  permission : String
  completion : Completion
  deriving DecidableEq

/-- `PermissionRequest`. -/
structure PermissionRequest where
  id : String
  appId : String
  permission : String
  table : String
  resourceId : String
  deriving DecidableEq

/-- The id that `_prompt` builds. -/
def promptId (appId permission : String) (seq : ℕ) : String :=
  appId ++ ":" ++ permission ++ ":" ++ toString seq

/-- Why a run failed. -/
inductive Failure
  | metadata
  | store
  | closedController
  deriving DecidableEq

/-- Where a run is; `rest` are the permissions still to come. -/
inductive Phase
  /-- Not called. -/
  | idle
  /-- Awaiting `_metadataOf`. -/
  | metadata
  /-- Awaiting `_store.get`. -/
  | get (permission : String) (rest : List String)
  /-- The store has answered, and the run has not gone on. -/
  | got (status : PermissionStatus) (permission : String) (rest : List String)
  /-- Awaiting the future of the `k`-th prompt. -/
  | prompt (k : ℕ) (permission : String) (rest : List String)
  /-- Awaiting `_store.setStatus`. -/
  | set (status : PermissionStatus) (permission : String) (rest : List String)
  /-- The store has taken it, and the run has not gone on. -/
  | stored (status : PermissionStatus) (permission : String) (rest : List String)
  | completed
  | failed (failure : Failure)
  deriving DecidableEq

/-- A call of `ensureLaunchPermissions`. -/
structure Run where
  app : String
  phase : Phase
  /-- What the loop goes over. -/
  requested : List String
  result : String → Option PermissionStatus
  /-- What the store answered for a permission, and whether `requests` had a listener
  when the run went on. -/
  read : String → Option (PermissionStatus × Bool)

/-- A call of `setStatus`, and the prompt whose answer it stores. -/
structure Write where
  run : ℕ
  prompt : ℕ
  cell : Cell
  status : PermissionStatus
  deriving DecidableEq

structure State where
  store : Cell → List String
  closed : Bool
  /-- The subscriptions of `_controller`; `hasListener` is that there is one. -/
  listeners : ℕ
  pending : AList fun _ : String => ℕ
  seq : ℕ
  prompts : ℕ → Option Prompt
  /-- What `_controller.add` took, in order. -/
  raised : List PermissionRequest
  runs : ℕ → Run
  /-- The calls of `setStatus`, in order. -/
  writes : List Write

/-- A new flow, over any contents of the store. -/
def init (store : Cell → List String) : State where
  store := store
  closed := false
  listeners := 0
  pending := ∅
  seq := 0
  prompts _ := none
  raised := []
  runs _ := ⟨"", .idle, [], fun _ => none, fun _ => none⟩
  writes := []

inductive Action
  | call (r : ℕ) (appId : String)
  /-- `_metadataOf` answers, or throws. -/
  | metadata (r : ℕ) (answer : Option (List FlatpakPermission))
  /-- The store serves the run's call, or fails. -/
  | serve (r : ℕ) (ok : Bool)
  /-- The run goes on after an await. -/
  | resume (r : ℕ)
  | respond (id : String) (granted : Bool)
  | listen
  | unlisten
  /-- The done event of the closed controller reaches a listener. -/
  | done
  | close
  /-- Someone else writes to the store. -/
  | external (cell : Cell) (permissions : List String)

/-! ### The steps -/

/-- The next turn of the loop. -/
def Phase.next : List String → Phase
  | [] => .completed
  | permission :: rest => .get permission rest

/-- `result[permission] = status`, and the next turn. -/
def Run.settle (x : Run) (permission : String) (status : PermissionStatus)
    (rest : List String) : Run :=
  { x with
    phase := .next rest
    result := Function.update x.result permission (some status) }

/-- The run sees what the store answered. -/
def Run.see (x : Run) (permission : String) (status : PermissionStatus) (listened : Bool) : Run :=
  { x with read := Function.update x.read permission (some (status, listened)) }

section

variable (x : Run) (permission : String) (status : PermissionStatus) (rest : List String)
  (listened : Bool)

@[simp] theorem Run.settle_phase : (x.settle permission status rest).phase = .next rest := rfl

@[simp] theorem Run.settle_requested :
    (x.settle permission status rest).requested = x.requested := rfl

@[simp] theorem Run.settle_read : (x.settle permission status rest).read = x.read := rfl

@[simp] theorem Run.settle_result : (x.settle permission status rest).result =
    Function.update x.result permission (some status) := rfl

@[simp] theorem Run.see_result : (x.see permission status listened).result = x.result := rfl

@[simp] theorem Run.see_read : (x.see permission status listened).read =
    Function.update x.read permission (some (status, listened)) := rfl

end

/-- `granted ? PermissionStatus.granted : PermissionStatus.denied`. -/
def ofAnswer (granted : Bool) : PermissionStatus := if granted then .granted else .denied

def State.setRun (s : State) (r : ℕ) (x : Run) : State :=
  { s with runs := Function.update s.runs r x }

def State.setPhase (s : State) (r : ℕ) (phase : Phase) : State :=
  s.setRun r { s.runs r with phase := phase }

/-- `_prompt`, called by the run `x`; a closed controller throws after the entry is
made. -/
def State.prompt (s : State) (r : ℕ) (x : Run) (permission : String) (rest : List String) :
    State :=
  let id := promptId x.app permission s.seq
  let target := permissionTarget permission x.app
  { s with
    seq := s.seq + 1
    prompts := Function.update s.prompts s.seq (some ⟨id, r, permission, .waiting⟩)
    pending := s.pending.insert id s.seq
    raised := if s.closed then s.raised
      else s.raised ++ [⟨id, x.app, permission, target.table, target.id⟩]
    runs := Function.update s.runs r { x with
      phase := if s.closed then .failed .closedController else .prompt s.seq permission rest } }

/-- The prompt made by `_prompt`, and those there were. -/
theorem State.prompt_cases {s : State} {r : ℕ} {x : Run} {permission : String}
    {rest : List String} {k : ℕ} {y : Prompt}
    (h : (s.prompt r x permission rest).prompts k = some y) :
    k = s.seq ∧ y = ⟨promptId x.app permission s.seq, r, permission, .waiting⟩ ∨
      s.prompts k = some y := by
  have hnew : (s.prompt r x permission rest).prompts s.seq =
      some ⟨promptId x.app permission s.seq, r, permission, .waiting⟩ := Function.update_self _ _ _
  by_cases hk : k = s.seq
  · subst hk
    exact .inl ⟨rfl, Option.some_inj.mp (h.symm.trans hnew)⟩
  · exact .inr ((Function.update_of_ne hk _ _).symm.trans h)

/-- `setStatus` is called with the answer to the `k`-th prompt. -/
def State.write (s : State) (r k : ℕ) (permission : String) (granted : Bool)
    (rest : List String) : State :=
  { s with
    writes := s.writes ++ [⟨r, k, targetCell permission (s.runs r).app, ofAnswer granted⟩]
    runs := Function.update s.runs r
      { s.runs r with phase := .set (ofAnswer granted) permission rest } }

/-- `respond`. -/
def State.respond (s : State) (id : String) (granted : Bool) : State :=
  match s.pending.lookup id with
  | none => s
  | some k =>
    { s with
      pending := s.pending.erase id
      prompts := Function.update s.prompts k <| (s.prompts k).map fun x =>
        { x with completion := x.completion.complete (.answered granted) } }

/-- `close`. -/
def State.close (s : State) : State :=
  { s with
    closed := true
    pending := ∅
    prompts := fun k =>
      if s.pending.entries.any (·.2 = k) then
        (s.prompts k).map fun x => { x with completion := x.completion.complete .cancelled }
      else s.prompts k }

/-- The store serves `get` or `setStatus`. -/
def State.serve (s : State) (r : ℕ) (ok : Bool) : Option State :=
  match (s.runs r).phase with
  | .get permission rest =>
    let status := .fromPermissions (s.store (targetCell permission (s.runs r).app))
    some (s.setPhase r (if ok then .got status permission rest else .failed .store))
  | .set status permission rest =>
    if ok then
      let cell := targetCell permission (s.runs r).app
      some { s with
        store := Function.update s.store cell status.value.toList
        runs := Function.update s.runs r
          { s.runs r with phase := .stored status permission rest } }
    else some (s.setPhase r (.failed .store))
  | _ => none

/-- The run goes on. -/
def State.resume (s : State) (r : ℕ) : Option State :=
  match (s.runs r).phase with
  | .got status permission rest =>
    let x := (s.runs r).see permission status (s.listeners ≠ 0)
    if status = .notSet then
      if s.listeners = 0 then some (s.setRun r (x.settle permission .ask rest))
      else some (s.prompt r x permission rest)
    else some (s.setRun r (x.settle permission status rest))
  | .prompt k permission rest =>
    match (s.prompts k).map Prompt.completion with
    | some (.answered granted) => some (s.write r k permission granted rest)
    | some .cancelled => some (s.setRun r ((s.runs r).settle permission .ask rest))
    | _ => none
  | .stored status permission rest =>
    some (s.setRun r ((s.runs r).settle permission status rest))
  | _ => none

def step (s : State) : Action → Option State
  | .call r appId =>
    if (s.runs r).phase = .idle then
      some (s.setRun r { s.runs r with app := appId, phase := .metadata })
    else none
  | .metadata r answer =>
    if (s.runs r).phase = .metadata then
      match answer with
      | none => some (s.setPhase r (.failed .metadata))
      | some metadata =>
        let requested := derivePermissions metadata
        some (s.setRun r { s.runs r with requested := requested, phase := .next requested })
    else none
  | .serve r ok => s.serve r ok
  | .resume r => s.resume r
  | .respond id granted => some (s.respond id granted)
  -- a closed controller gives a new listener its done event and forgets it
  | .listen => some { s with listeners := if s.closed then s.listeners else s.listeners + 1 }
  | .unlisten => if s.listeners = 0 then none else some { s with listeners := s.listeners - 1 }
  | .done =>
    if s.closed ∧ s.listeners ≠ 0 then some { s with listeners := s.listeners - 1 } else none
  | .close => some s.close
  | .external cell permissions =>
    some { s with store := Function.update s.store cell permissions }

/-! ### Prompt ids -/

/-- What follows the last separator is determined. -/
theorem after_last_eq {α : Type*} {c : α} {front front' back back' : List α} (hback : c ∉ back)
    (hback' : c ∉ back') (h : front ++ c :: back = front' ++ c :: back') : back = back' := by
  rcases List.append_eq_append_iff.mp h with ⟨mid, -, hmid⟩ | ⟨mid, -, hmid⟩
  · cases mid with
    | nil => exact (List.cons_eq_cons.mp hmid).2
    | cons d mid => exact absurd ((List.cons_eq_cons.mp hmid).2 ▸ hback) (by simp)
  · cases mid with
    | nil => exact (List.cons_eq_cons.mp hmid).2.symm
    | cons d mid => exact absurd ((List.cons_eq_cons.mp hmid).2 ▸ hback') (by simp)

theorem colon_notMem_digits (n : ℕ) : ':' ∉ Nat.toDigits 10 n := fun h =>
  absurd (Nat.isDigit_of_mem_toDigits (by decide) (by decide) h) (by decide)

/-- A prompt's number can be read off its id. -/
theorem promptId_inj {app app' permission permission' : String} {j k : ℕ}
    (h : promptId app permission j = promptId app' permission' k) : j = k := by
  have htext : ((app ++ ":" ++ permission).toList ++ ':' :: Nat.toDigits 10 j) =
      (app' ++ ":" ++ permission').toList ++ ':' :: Nat.toDigits 10 k := by
    simpa [promptId, Nat.toString_eq_repr, Nat.toList_repr] using congrArg String.toList h
  have hdigits := after_last_eq (colon_notMem_digits j) (colon_notMem_digits k) htext
  simpa using congrArg (fun digits => Nat.ofDigitChars 10 digits 0) hdigits

/-! ### What one step can do -/

/-- The steps, with what each requires. -/
inductive Step (s : State) : Action → State → Prop
  | call {r : ℕ} {appId : String} (hphase : (s.runs r).phase = .idle) :
    Step s (.call r appId) (s.setRun r { s.runs r with app := appId, phase := .metadata })
  | noMetadata {r : ℕ} (hphase : (s.runs r).phase = .metadata) :
    Step s (.metadata r none) (s.setPhase r (.failed .metadata))
  | derived {r : ℕ} {metadata : List FlatpakPermission} (hphase : (s.runs r).phase = .metadata) :
    Step s (.metadata r (some metadata)) (s.setRun r { s.runs r with
      requested := derivePermissions metadata
      phase := .next (derivePermissions metadata) })
  | got {r : ℕ} {permission : String} {rest : List String} {status : PermissionStatus}
      (hphase : (s.runs r).phase = .get permission rest)
      (hstatus : status = .fromPermissions (s.store (targetCell permission (s.runs r).app))) :
    Step s (.serve r true) (s.setPhase r (.got status permission rest))
  | stored {r : ℕ} {status : PermissionStatus} {permission : String} {rest : List String}
      (hphase : (s.runs r).phase = .set status permission rest) :
    Step s (.serve r true) { s with
      store := Function.update s.store (targetCell permission (s.runs r).app) status.value.toList
      runs := Function.update s.runs r { s.runs r with phase := .stored status permission rest } }
  | storeFailed {r : ℕ}
      (hphase : (∃ permission rest, (s.runs r).phase = .get permission rest) ∨
        ∃ status permission rest, (s.runs r).phase = .set status permission rest) :
    Step s (.serve r false) (s.setPhase r (.failed .store))
  | decided {r : ℕ} {status : PermissionStatus} {permission : String} {rest : List String}
      (hphase : (s.runs r).phase = .got status permission rest) (hset : status ≠ .notSet) :
    Step s (.resume r) (s.setRun r
      (((s.runs r).see permission status (s.listeners ≠ 0)).settle permission status rest))
  | unheard {r : ℕ} {permission : String} {rest : List String}
      (hphase : (s.runs r).phase = .got .notSet permission rest) (hnone : s.listeners = 0) :
    Step s (.resume r) (s.setRun r
      (((s.runs r).see permission .notSet false).settle permission .ask rest))
  | prompted {r : ℕ} {permission : String} {rest : List String}
      (hphase : (s.runs r).phase = .got .notSet permission rest) (hsome : s.listeners ≠ 0) :
    Step s (.resume r) (s.prompt r ((s.runs r).see permission .notSet true) permission rest)
  | answered {r k : ℕ} {permission : String} {rest : List String} {x : Prompt} {granted : Bool}
      (hphase : (s.runs r).phase = .prompt k permission rest) (hk : s.prompts k = some x)
      (hx : x.completion = .answered granted) :
    Step s (.resume r) (s.write r k permission granted rest)
  | cancelled {r k : ℕ} {permission : String} {rest : List String} {x : Prompt}
      (hphase : (s.runs r).phase = .prompt k permission rest) (hk : s.prompts k = some x)
      (hx : x.completion = .cancelled) :
    Step s (.resume r) (s.setRun r ((s.runs r).settle permission .ask rest))
  | settled {r : ℕ} {status : PermissionStatus} {permission : String} {rest : List String}
      (hphase : (s.runs r).phase = .stored status permission rest) :
    Step s (.resume r) (s.setRun r ((s.runs r).settle permission status rest))
  | respond {id : String} {granted : Bool} : Step s (.respond id granted) (s.respond id granted)
  | listeners {a : Action} {n : ℕ} (hn : s.closed = true → n ≤ s.listeners)
      (ha : a = .listen ∨ a = .unlisten) : Step s a { s with listeners := n }
  | done (hsome : s.listeners ≠ 0) : Step s .done { s with listeners := s.listeners - 1 }
  | close : Step s .close s.close
  | external {cell : Cell} {permissions : List String} :
    Step s (.external cell permissions)
      { s with store := Function.update s.store cell permissions }

theorem serve_cases {s t : State} {r : ℕ} {ok : Bool} (h : s.serve r ok = some t) :
    Step s (.serve r ok) t := by
  unfold State.serve at h
  split at h
  · next permission rest hphase =>
    obtain rfl := Option.some_inj.mp h
    cases ok with
    | true => exact .got hphase rfl
    | false => exact .storeFailed (.inl ⟨permission, rest, hphase⟩)
  · next status permission rest hphase =>
    cases ok with
    | true =>
      obtain rfl := Option.some_inj.mp h
      exact .stored hphase
    | false =>
      obtain rfl := Option.some_inj.mp h
      exact .storeFailed (.inr ⟨status, permission, rest, hphase⟩)
  · exact absurd h (Option.some_ne_none t).symm

theorem resume_cases {s t : State} {r : ℕ} (h : s.resume r = some t) : Step s (.resume r) t := by
  unfold State.resume at h
  split at h
  · next status permission rest hphase =>
    dsimp only at h
    split at h
    · next hunset =>
      subst hunset
      split at h
      · next hnone =>
        obtain rfl := Option.some_inj.mp h
        simpa [hnone] using Step.unheard hphase hnone
      · next hsome =>
        obtain rfl := Option.some_inj.mp h
        simpa [hsome] using Step.prompted hphase hsome
    · next hset =>
      obtain rfl := Option.some_inj.mp h
      exact .decided hphase hset
  · next k permission rest hphase =>
    split at h
    · next granted hx =>
      obtain ⟨x, hk, hx⟩ := Option.map_eq_some_iff.mp hx
      obtain rfl := Option.some_inj.mp h
      exact .answered hphase hk hx
    · next hx =>
      obtain ⟨x, hk, hx⟩ := Option.map_eq_some_iff.mp hx
      obtain rfl := Option.some_inj.mp h
      exact .cancelled hphase hk hx
    · exact absurd h (Option.some_ne_none t).symm
  · next status permission rest hphase =>
    obtain rfl := Option.some_inj.mp h
    exact .settled hphase
  · exact absurd h (Option.some_ne_none t).symm

theorem step_cases {s t : State} {a : Action} (h : step s a = some t) : Step s a t := by
  cases a with
  | call r appId =>
    obtain ⟨hphase, h⟩ := Option.ite_none_right_eq_some.mp h
    obtain rfl := Option.some_inj.mp h
    exact .call hphase
  | metadata r answer =>
    obtain ⟨hphase, h⟩ := Option.ite_none_right_eq_some.mp h
    cases answer with
    | none =>
      obtain rfl := Option.some_inj.mp h
      exact .noMetadata hphase
    | some metadata =>
      obtain rfl := Option.some_inj.mp h
      exact .derived hphase
  | serve r ok => exact serve_cases h
  | resume r => exact resume_cases h
  | respond id granted =>
    obtain rfl := Option.some_inj.mp h
    exact .respond
  | listen =>
    obtain rfl := Option.some_inj.mp h
    exact .listeners (fun hclosed => by simp [hclosed]) (.inl rfl)
  | unlisten =>
    obtain ⟨-, h⟩ := Option.ite_none_left_eq_some.mp h
    obtain rfl := Option.some_inj.mp h
    exact .listeners (fun _ => Nat.sub_le _ _) (.inr rfl)
  | done =>
    obtain ⟨⟨-, hsome⟩, h⟩ := Option.ite_none_right_eq_some.mp h
    obtain rfl := Option.some_inj.mp h
    exact .done hsome
  | close =>
    obtain rfl := Option.some_inj.mp h
    exact .close
  | external cell permissions =>
    obtain rfl := Option.some_inj.mp h
    exact .external

end PermissionFlow
