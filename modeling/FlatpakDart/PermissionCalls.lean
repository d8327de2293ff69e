/-
The method calls of the permission store client (`lib/src/portal/permission_store.dart`).

An operation of `PermissionStorePortal` sends one D-Bus call and reads the answer.  The
service has the contents of the store: it serves a call, answers `NotFound` where there is
nothing, refuses, or is lost before or after it served; other clients may write in between.

* `appPermissions_dictOf` — a map is read back as it was sent;
* `get_replies`, `lookup_replies`, `list_replies`, `delete_replies` — what an operation
  returns is what `PermissionStore` has it return on a reply of the store;
* `runAll_history` — operations are a history of a store of permissions;
* `read_last_write` — a permission that is written is read, whatever else is written.
-/
import FlatpakDart.PermissionPortal
import FlatpakDart.Requests

open InsertionOrder PermissionStore Requests

namespace PermissionStorePortal

/-! ### Values and calls -/

/-- The kinds of `DBusValue` that the client builds or reads, and the others. -/
inductive DBusValue
  | string (value : String)
  | boolean (value : Bool)
  | array (children : List DBusValue)
  | dict (children : List (DBusValue × DBusValue))
  | variant (value : DBusValue)
  | other

/-- `DBusArray.string` -/
def DBusValue.ofStrings (values : List String) : DBusValue := .array (values.map .string)

/-- The methods of the interface. -/
inductive Member
  | getPermission
  | setPermission
  | deletePermission
  | lookup
  | list
  | set
  | delete
  | setValue

structure MethodCall where
  member : Member
  values : List DBusValue
  replySignature : String

/-- `DBusMethodResponseException` -/
structure MethodError where
  errorName : String
  values : List DBusValue

inductive Exception
  | method (e : MethodError)
  /-- `callMethod` threw something else. -/
  | lost
  /-- The `StateError` of `first`. -/
  | noElement
  /-- A `TypeError`. -/
  | cast

/-- The values of the reply, unless it throws. -/
abbrev Reply := Except Exception (List DBusValue)

/-- An operation of the client. -/
abbrev Portal (α : Type) := Program MethodCall (fun _ => Reply) (Except Exception α)

/-- `_isNotFound` -/
def isNotFound (e : MethodError) : Bool :=
  e.errorName == "org.freedesktop.portal.Error.NotFound" ||
    match e.values with
    | .string msg :: _ => "No entry for".toList.isPrefixOf msg.toList
    | _ => false

/-- `on DBusMethodResponseException catch (e)`, with what it returns on `NotFound`. -/
def catchNotFound {α : Type} (missing : α) : Except Exception α → Except Exception α
  | .error (.method e) => if isNotFound e then .ok missing else .error (.method e)
  | outcome => outcome

/-- `out.first` -/
def first : List DBusValue → Except Exception DBusValue
  | [] => .error .noElement
  | value :: _ => .ok value

/-- `(c as DBusString).value` -/
def string : DBusValue → Except Exception String
  | .string value => .ok value
  | _ => .error .cast

/-- `_strings` -/
def strings : DBusValue → Except Exception (List String)
  | .array children => children.mapM string
  | _ => .error .cast

/-- `_strings(out.first)` -/
def firstStrings (out : List DBusValue) : Except Exception (List String) := do
  strings (← first out)

/-- The map of `lookup`. -/
def appPermissions : DBusValue → Except Exception (LinkedMap String (List String))
  | .dict children => do
    let entries ← children.mapM fun e => return (← string e.1, ← strings e.2)
    return .ofEntries entries
  | _ => .error .cast

/-! ### The operations -/

/-- `_invoke` -/
def invoke (member : Member) (values : List DBusValue) (replySignature : String) :
    Portal (List DBusValue) :=
  .request ⟨member, values, replySignature⟩

/-- `get` -/
def get (table id app : String) : Portal PermissionStatus :=
  (invoke .getPermission [.string table, .string id, .string app] "as").bind fun reply =>
    .done (catchNotFound .notSet do
      let out ← reply
      return .fromPermissions (← firstStrings out))

/-- `set` -/
def set (table id app : String) (permissions : List String) (create : Bool) : Portal Unit :=
  (invoke .setPermission
      [.string table, .boolean create, .string id, .string app, .ofStrings permissions] "").bind
    fun reply => .done (reply.map fun _ => ())

/-- `setStatus` -/
def setStatus (table id app : String) (status : PermissionStatus) (create : Bool) : Portal Unit :=
  set table id app (match status.value with
    | none => []
    | some v => [v]) create

/-- `delete` -/
def delete (table id app : String) : Portal Unit :=
  (invoke .deletePermission [.string table, .string id, .string app] "").bind fun reply =>
    .done (catchNotFound () do
      let _ ← reply
      return ())

/-- `lookup` -/
def lookup (table id : String) : Portal (LinkedMap String (List String)) :=
  (invoke .lookup [.string table, .string id] "a{sas}v").bind fun reply =>
    .done (catchNotFound .empty do
      let out ← reply
      appPermissions (← first out))

/-- `list` -/
def list (table : String) : Portal (List String) :=
  (invoke .list [.string table] "as").bind fun reply =>
    .done (catchNotFound [] do
      let out ← reply
      firstStrings out)

/-- `DBusDict(DBusSignature('s'), DBusSignature('as'), …)` -/
def dictOf (appPermissions : LinkedMap String (List String)) : DBusValue :=
  .dict (appPermissions.entries.map fun e => (.string e.1, .ofStrings e.2))

/-- `setResource` -/
def setResource (table id : String) (appPermissions : LinkedMap String (List String))
    (data : String) (create : Bool) : Portal Unit :=
  (invoke .set [.string table, .boolean create, .string id, dictOf appPermissions,
      .variant (.string data)] "").bind
    fun reply => .done (reply.map fun _ => ())

/-- `deleteResource` -/
def deleteResource (table id : String) : Portal Unit :=
  (invoke .delete [.string table, .string id] "").bind fun reply =>
    .done (catchNotFound () do
      let _ ← reply
      return ())

/-- `setValue` -/
def setValue (table id data : String) (create : Bool) : Portal Unit :=
  (invoke .setValue
      [.string table, .boolean create, .string id, .variant (.string data)] "").bind
    fun reply => .done (reply.map fun _ => ())

inductive Operation
  | get (table id app : String)
  | set (table id app : String) (permissions : List String) (create : Bool)
  | setStatus (table id app : String) (status : PermissionStatus) (create : Bool)
  | delete (table id app : String)
  | lookup (table id : String)
  | list (table : String)
  | setResource (table id : String) (appPermissions : LinkedMap String (List String))
      (data : String) (create : Bool)
  | deleteResource (table id : String)
  | setValue (table id data : String) (create : Bool)

/-- What an operation returns. -/
inductive Value
  | none
  | status (status : PermissionStatus)
  | permissions (permissions : LinkedMap String (List String))
  | ids (ids : List String)

/-- What it returns, as a value. -/
def Portal.valued {α : Type} (p : Portal α) (value : α → Value) : Portal Value :=
  p.bind fun outcome => .done (outcome.map value)

def Operation.call : Operation → Portal Value
  | .get table id app => (PermissionStorePortal.get table id app).valued .status
  | .set table id app permissions create =>
    (PermissionStorePortal.set table id app permissions create).valued fun _ => .none
  | .setStatus table id app status create =>
    (PermissionStorePortal.setStatus table id app status create).valued fun _ => .none
  | .delete table id app => (PermissionStorePortal.delete table id app).valued fun _ => .none
  | .lookup table id => (PermissionStorePortal.lookup table id).valued .permissions
  | .list table => (PermissionStorePortal.list table).valued .ids
  | .setResource table id appPermissions data create =>
    (PermissionStorePortal.setResource table id appPermissions data create).valued fun _ => .none
  | .deleteResource table id =>
    (PermissionStorePortal.deleteResource table id).valued fun _ => .none
  | .setValue table id data create =>
    (PermissionStorePortal.setValue table id data create).valued fun _ => .none

/-- One operation after another, each with what it returned or threw. -/
def runAll : List Operation →
    Program MethodCall (fun _ => Reply) (List (Operation × Except Exception Value))
  | [] => .done []
  | op :: ops => op.call.bind fun outcome =>
      (runAll ops).bind fun rest => .done ((op, outcome) :: rest)

/-! ### The replies as `check` and `removeAllForApp` have them -/

/-- A reply, with what is read from its values. -/
def answer {α : Type} (read : List DBusValue → Except Exception α) :
    Reply → PermissionStore.Reply α
  | .ok values => (read values).toOption.elim .failed .ok
  | .error (.method e) => if isNotFound e then .notFound else .failed
  | .error _ => .failed

/-- It does not end with an error of the service. -/
def Local {α : Type} (x : Except Exception α) : Prop := ∀ e, x ≠ .error (.method e)

theorem Local.pure {α : Type} (a : α) : Local (pure a) := fun _ => nofun

theorem Local.bind {α β : Type} {x : Except Exception α} {f : α → Except Exception β}
    (hx : Local x) (hf : ∀ a, Local (f a)) : Local (x >>= f) := by
  intro e h
  cases x with
  | ok a => exact hf a e h
  | error e' => exact hx e (congrArg Except.error (Except.error.inj h))

theorem Local.mapM {α β : Type} {f : α → Except Exception β} (hf : ∀ a, Local (f a))
    (as : List α) : Local (as.mapM f) := by
  induction as with
  | nil => exact .pure []
  | cons a as ih =>
    rw [List.mapM_cons]
    exact (hf a).bind fun b => ih.bind fun bs => .pure (b :: bs)

theorem local_first (values : List DBusValue) : Local (first values) := by
  cases values with
  | nil => exact fun _ => nofun
  | cons value values => exact .pure value

theorem local_string (value : DBusValue) : Local (string value) := by
  cases value with
  | string text => exact .pure text
  | _ => exact fun _ => nofun

theorem local_strings (value : DBusValue) : Local (strings value) := by
  cases value with
  | array children => exact .mapM local_string children
  | _ => exact fun _ => nofun

theorem local_firstStrings (out : List DBusValue) : Local (firstStrings out) :=
  (local_first out).bind local_strings

theorem local_appPermissions (value : DBusValue) : Local (appPermissions value) := by
  cases value with
  | dict children =>
    have hentry (e : DBusValue × DBusValue) : Local (do return (← string e.1, ← strings e.2)) :=
      (local_string e.1).bind fun key => (local_strings e.2).bind fun texts => .pure (key, texts)
    exact (Local.mapM hentry children).bind fun entries =>
      .pure (LinkedMap.ofEntries entries)
  | _ => exact fun _ => nofun

/-- What comes of a reply that is read without errors of the service. -/
theorem catchNotFound_answer {α : Type} {missing : α} {read : List DBusValue → Except Exception α}
    (hread : ∀ values, Local (read values)) (reply : Reply) :
    (catchNotFound missing (reply >>= read)).toOption =
      match answer read reply with
      | .ok a => some a
      | .notFound => some missing
      | .failed => none := by
  cases reply with
  | ok values =>
    show (catchNotFound missing (read values)).toOption = _
    rw [answer]
    cases hvalues : read values with
    | ok a => rfl
    | error e =>
      cases e with
      | method e => exact absurd hvalues (hread values e)
      | _ => rfl
  | error e =>
    cases e with
    | method e =>
      rw [answer]
      show (if isNotFound e then Except.ok missing else .error (Exception.method e)).toOption = _
      cases isNotFound e <;> rfl
    | _ => rfl

section

variable {σ : Type*} {R : Replies MethodCall (fun _ => Reply) σ} {s s' : σ}
  {trace : List (σ × MethodCall)}

/-- An operation that reads the reply to a call, by that reply. -/
theorem runs_caught {α : Type} {member : Member} {values : List DBusValue} {signature : String}
    {missing : α} {read : List DBusValue → Except Exception α} {outcome : Except Exception α}
    (hread : ∀ values, Local (read values))
    (h : Runs R s ((invoke member values signature).bind fun reply =>
      .done (catchNotFound missing (reply >>= read))) trace s' outcome) :
    ∃ reply, R s ⟨member, values, signature⟩ reply s' ∧ outcome.toOption =
      match answer read reply with
      | .ok a => some a
      | .notFound => some missing
      | .failed => none := by
  obtain ⟨reply, t, rest, hreply, hdone, -⟩ := runs_ask_iff.mp h
  obtain ⟨rfl, rfl, rfl⟩ := runs_done_iff.mp hdone
  exact ⟨reply, hreply, catchNotFound_answer hread reply⟩

theorem answer_map {α β : Type} (read : List DBusValue → Except Exception α) (f : α → β)
    (reply : Reply) :
    answer (fun values => return f (← read values)) reply =
      match answer read reply with
      | .ok a => .ok (f a)
      | .notFound => .notFound
      | .failed => .failed := by
  cases reply with
  | ok values =>
    show Option.elim (read values >>= fun a => pure (f a)).toOption _ _ = _
    rw [answer]
    cases read values <;> rfl
  | error e =>
    cases e with
    | method e =>
      rw [answer, answer]
      cases isNotFound e <;> rfl
    | _ => rfl

theorem runs_get {table id app : String} {outcome : Except Exception PermissionStatus}
    (h : Runs R s (get table id app) trace s' outcome) :
    ∃ reply, R s ⟨.getPermission, [.string table, .string id, .string app], "as"⟩ reply s' ∧
      outcome.toOption =
        PermissionStore.get (answer firstStrings reply) := by
  obtain ⟨reply, hreply, houtcome⟩ := runs_caught (fun values =>
    (local_firstStrings values).bind fun texts =>
      .pure (PermissionStatus.fromPermissions texts)) h
  refine ⟨reply, hreply, houtcome.trans ?_⟩
  rw [answer_map]
  cases answer firstStrings reply <;> rfl

theorem runs_lookup {table id : String}
    {outcome : Except Exception (LinkedMap String (List String))}
    (h : Runs R s (lookup table id) trace s' outcome) :
    ∃ reply, R s ⟨.lookup, [.string table, .string id], "a{sas}v"⟩ reply s' ∧
      outcome.toOption.map LinkedMap.get = PermissionStore.lookup
        (answer (fun out => return LinkedMap.get (← (do appPermissions (← first out)))) reply) := by
  obtain ⟨reply, hreply, houtcome⟩ := runs_caught (fun values => (local_first values).bind
    local_appPermissions) h
  refine ⟨reply, hreply, ?_⟩
  rw [houtcome, answer_map]
  cases answer (fun out => do appPermissions (← first out)) reply <;> rfl

theorem runs_delete {table id app : String} {outcome : Except Exception Unit}
    (h : Runs R s (delete table id app) trace s' outcome) :
    ∃ reply,
      R s ⟨.deletePermission, [.string table, .string id, .string app], ""⟩ reply s' ∧
      outcome.toOption = PermissionStore.delete (answer (fun _ => return ()) reply) := by
  obtain ⟨reply, hreply, houtcome⟩ := runs_caught (fun _ => .pure ()) h
  refine ⟨reply, hreply, houtcome.trans ?_⟩
  cases answer (fun _ => return ()) reply <;> rfl

theorem runs_list {table : String} {outcome : Except Exception (List String)}
    (h : Runs R s (list table) trace s' outcome) :
    ∃ reply, R s ⟨.list, [.string table], "as"⟩ reply s' ∧ outcome.toOption =
      PermissionStore.list (answer firstStrings reply) := by
  obtain ⟨reply, hreply, houtcome⟩ := runs_caught local_firstStrings h
  refine ⟨reply, hreply, houtcome.trans ?_⟩
  cases answer firstStrings reply <;> rfl

end

/-! ### The service -/

/-- What is asked for, the texts in their places. -/
inductive Request
  | getPermission (t : Target) (app : String)
  | setPermission (t : Target) (create : Bool) (app : String) (permissions : List String)
  | deletePermission (t : Target) (app : String)
  | lookup (t : Target)
  | list (table : String)
  | set (t : Target) (create : Bool) (appPermissions : LinkedMap String (List String))
      (data : String)
  | delete (t : Target)
  | setValue (t : Target) (create : Bool) (data : String)

/-- How the service reads a call; it does not see the signature of the reply. -/
def decode : MethodCall → Option Request
  | ⟨.getPermission, [.string table, .string id, .string app], _⟩ =>
    some (.getPermission ⟨table, id⟩ app)
  | ⟨.setPermission, [.string table, .boolean create, .string id, .string app, permissions], _⟩ =>
    (strings permissions).toOption.map (.setPermission ⟨table, id⟩ create app)
  | ⟨.deletePermission, [.string table, .string id, .string app], _⟩ =>
    some (.deletePermission ⟨table, id⟩ app)
  | ⟨.lookup, [.string table, .string id], _⟩ => some (.lookup ⟨table, id⟩)
  | ⟨.list, [.string table], _⟩ => some (.list table)
  | ⟨.set, [.string table, .boolean create, .string id, apps, .variant (.string data)], _⟩ =>
    (appPermissions apps).toOption.map fun m => .set ⟨table, id⟩ create m data
  | ⟨.delete, [.string table, .string id], _⟩ => some (.delete ⟨table, id⟩)
  | ⟨.setValue, [.string table, .boolean create, .string id, .variant (.string data)], _⟩ =>
    some (.setValue ⟨table, id⟩ create data)
  | _ => none

/-- The resources of every table, and the apps on each. -/
abbrev Contents := Target → Option AppPermissions

/-- The permissions in a cell; an app without an entry has none. -/
def Contents.permissions (s : Contents) (c : Cell) : List String :=
  ((s ⟨c.table, c.id⟩).bind (· c.app)).getD []

/-- The resource that is written, if there is one or it may be created. -/
def Contents.opened (s : Contents) (t : Target) (create : Bool) : Option AppPermissions :=
  if create then some ((s t).getD fun _ => none) else s t

/-- The contents when a request is served; `none` where the resource is missing. -/
def Request.apply (s : Contents) : Request → Option Contents
  | .getPermission t _ => (s t).map fun _ => s
  | .setPermission t create app permissions => (s.opened t create).map fun m =>
      Function.update s t (some (Function.update m app (some permissions)))
  | .deletePermission t app => (s t).map fun m =>
      Function.update s t (some (Function.update m app none))
  | .lookup t => (s t).map fun _ => s
  | .list _ => some s
  | .set t create appPermissions _ => (s.opened t create).map fun _ =>
      Function.update s t (some appPermissions.get)
  | .delete t => (s t).map fun _ => Function.update s t none
  | .setValue t create _ => (s.opened t create).map fun m => Function.update s t (some m)

/-- The values of the reply. -/
def Request.Answers (s : Contents) : Request → List DBusValue → Prop
  | .getPermission t app, values => values = [.ofStrings (s.permissions ⟨t.table, t.id, app⟩)]
  | .lookup t, values => ∃ m data, values = [dictOf m, .variant data] ∧
      ∀ app, (m.get app).getD [] = s.permissions ⟨t.table, t.id, app⟩
  | .list table, values => ∃ ids, values = [.ofStrings ids] ∧
      ∀ id, id ∈ ids ↔ s ⟨table, id⟩ ≠ none
  | _, values => values = []

/-- What a request asks for is not there. -/
def Request.Missing (s : Contents) : Request → Prop
  | .getPermission t app => s.permissions ⟨t.table, t.id, app⟩ = []
  | .setPermission t create _ _ => s.opened t create = none
  | .deletePermission t app => s.permissions ⟨t.table, t.id, app⟩ = []
  | .lookup t => s t = none
  | .list table => ∀ id, s ⟨table, id⟩ = none
  | .set t create _ _ => s.opened t create = none
  | .delete t => s t = none
  | .setValue t create _ => s.opened t create = none

/-- What is assumed of the service: it serves a call, says `NotFound` where there is
nothing, refuses it and changes nothing, or is lost. -/
inductive Serves (s : Contents) (call : MethodCall) : Reply → Contents → Prop
  | served {req : Request} {s' : Contents} {values : List DBusValue}
      (hdecode : decode call = some req) (happly : req.apply s = some s')
      (hvalues : req.Answers s values) : Serves s call (.ok values) s'
  | notFound {req : Request} {e : MethodError} (hdecode : decode call = some req)
      (hmissing : req.Missing s) (he : isNotFound e = true) :
      Serves s call (.error (.method e)) s
  | refused {e : MethodError} (he : isNotFound e = false) :
      Serves s call (.error (.method e)) s
  /-- The reply is lost. -/
  | lost {req : Request} {s' : Contents} (hdecode : decode call = some req)
      (happly : req.apply s = some s') : Serves s call (.error .lost) s'
  | unsent : Serves s call (.error .lost) s

/-- The service, with what others may do before it serves a call. -/
def service (Other : Contents → Contents → Prop) :
    Replies MethodCall (fun _ => Reply) Contents :=
  fun s call reply s' => ∃ t, Other s t ∧ Serves t call reply s'

/-! ### The values back -/

theorem mapM_string (values : List String) :
    (values.map DBusValue.string).mapM string = .ok values := by
  induction values with
  | nil => rfl
  | cons value values ih =>
    rw [List.map_cons, List.mapM_cons, ih]
    rfl

@[simp] theorem strings_ofStrings (values : List String) :
    strings (.ofStrings values) = .ok values := mapM_string values

/-- **A map is read back as it was sent.** -/
@[simp] theorem appPermissions_dictOf (m : LinkedMap String (List String)) :
    appPermissions (dictOf m) = .ok m := by
  have hentries : ∀ entries : List (String × List String),
      (entries.map fun e => (DBusValue.string e.1, DBusValue.ofStrings e.2)).mapM
        (fun e => (return (← string e.1, ← strings e.2) :
          Except Exception (String × List String))) = .ok entries := by
    intro entries
    induction entries with
    | nil => rfl
    | cons e entries ih =>
      rw [List.map_cons, List.mapM_cons, ih, strings_ofStrings]
      rfl
  rw [dictOf, appPermissions, hentries]
  exact congrArg Except.ok (LinkedMap.ofEntries_entries m)

/-! ### The replies of a store

`check` and `removeAllForApp` are told the replies; the service gives these. -/

/-- A call ends with an error, with nothing there, or with what was asked for. -/
theorem Serves.answer_cases {α : Type} {s s' : Contents} {call : MethodCall} {req : Request}
    {reply : Reply} (read : List DBusValue → Except Exception α) (h : Serves s call reply s')
    (hdecode : decode call = some req) :
    answer read reply = .failed ∨ (answer read reply = .notFound ∧ req.Missing s ∧ s' = s) ∨
      ∃ values, reply = .ok values ∧ req.Answers s values ∧ req.apply s = some s' := by
  cases h with
  | served hdecode' happly hvalues =>
    obtain rfl := Option.some.inj (hdecode'.symm.trans hdecode)
    exact .inr (.inr ⟨_, rfl, hvalues, happly⟩)
  | notFound hdecode' hmissing he =>
    obtain rfl := Option.some.inj (hdecode'.symm.trans hdecode)
    exact .inr (.inl ⟨if_pos he, hmissing, rfl⟩)
  | refused he => exact .inl (if_neg (Bool.eq_false_iff.mp he))
  | lost => exact .inl rfl
  | unsent => exact .inl rfl

section

variable {st : Store} {t : Target} {table app : String} {s' : Contents}
  {trace : List (Contents × MethodCall)}

theorem get_replies {outcome : Except Exception PermissionStatus}
    (h : Runs (service Eq) st.resource (get t.table t.id app) trace s' outcome) :
    ∃ reply, outcome.toOption = PermissionStore.get reply ∧
      (reply = .failed ∨ (reply = .notFound ∧ (st.entry t app).getD [] = []) ∨
        reply = .ok ((st.entry t app).getD [])) := by
  obtain ⟨reply, ⟨u, rfl, hserves⟩, houtcome⟩ := runs_get h
  refine ⟨_, houtcome, ?_⟩
  rcases hserves.answer_cases firstStrings rfl with hfailed | ⟨hnone, hmissing, -⟩ |
      ⟨values, rfl, hvalues, -⟩
  · exact .inl hfailed
  · exact .inr (.inl ⟨hnone, hmissing⟩)
  · obtain rfl := hvalues
    refine .inr (.inr ?_)
    show (strings (.ofStrings _)).toOption.elim _ _ = _
    rw [strings_ofStrings]
    rfl

theorem lookup_replies {outcome : Except Exception (LinkedMap String (List String))}
    (h : Runs (service Eq) st.resource (lookup t.table t.id) trace s' outcome) :
    ∃ reply, outcome.toOption.map LinkedMap.get = PermissionStore.lookup reply ∧
      (reply = .failed ∨ (reply = .notFound ∧ st.resource t = none) ∨
        ∃ m, reply = .ok m ∧ ∀ app, (m app).getD [] = (st.entry t app).getD []) := by
  obtain ⟨reply, ⟨u, rfl, hserves⟩, houtcome⟩ := runs_lookup h
  refine ⟨_, houtcome, ?_⟩
  rcases hserves.answer_cases (α := AppPermissions)
      (fun out => do return LinkedMap.get (← (do appPermissions (← first out)))) rfl with
      hfailed | ⟨hnone, hmissing, -⟩ | ⟨values, rfl, ⟨m, data, rfl, hm⟩, -⟩
  · exact .inl hfailed
  · exact .inr (.inl ⟨hnone, hmissing⟩)
  · refine .inr (.inr ⟨m.get, ?_, hm⟩)
    show ((appPermissions (dictOf m)).map LinkedMap.get).toOption.elim _ _ = _
    rw [appPermissions_dictOf]
    rfl

theorem list_replies {outcome : Except Exception (List String)}
    (h : Runs (service Eq) st.resource (list table) trace s' outcome) :
    ∃ reply, outcome.toOption = PermissionStore.list reply ∧ AnswersList st table reply := by
  obtain ⟨reply, ⟨u, rfl, hserves⟩, houtcome⟩ := runs_list h
  refine ⟨_, houtcome, ?_⟩
  rcases hserves.answer_cases firstStrings rfl with hfailed | ⟨hnone, hmissing, -⟩ |
      ⟨values, rfl, ⟨ids, rfl, hids⟩, -⟩
  · rw [hfailed]
    trivial
  · rw [hnone]
    exact List.eq_nil_iff_forall_not_mem.mpr fun id hid => st.mem_ids.mp hid (hmissing id)
  · show AnswersList st table ((strings (.ofStrings ids)).toOption.elim _ _)
    rw [strings_ofStrings]
    exact fun id => (hids id).trans st.mem_ids.symm

theorem erase_resource {m : AppPermissions} (hm : st.resource t = some m) :
    (st.erase t app).resource =
      Function.update st.resource t (some (Function.update m app none)) := by
  funext t'
  rw [Function.update_apply]
  show (if t' = t then (st.resource t').map _ else st.resource t') = _
  split
  · next ht =>
    rw [ht, hm]
    exact congrArg some (funext fun app' => (Function.update_apply ..).symm)
  · rfl

theorem delete_replies {outcome : Except Exception Unit}
    (h : Runs (service Eq) st.resource (delete t.table t.id app) trace s' outcome) :
    ∃ reply, outcome.toOption = PermissionStore.delete reply ∧
      (reply = .failed ∨
        (reply = .notFound ∧ (st.entry t app).getD [] = [] ∧ s' = st.resource) ∨
        reply = .ok () ∧ s' = (st.erase t app).resource) := by
  obtain ⟨reply, ⟨u, rfl, hserves⟩, houtcome⟩ := runs_delete h
  refine ⟨_, houtcome, ?_⟩
  rcases hserves.answer_cases (fun _ => return ()) rfl with hfailed | ⟨hnone, hmissing, hsame⟩ |
      ⟨values, rfl, -, happly⟩
  · exact .inl hfailed
  · exact .inr (.inl ⟨hnone, hmissing, hsame⟩)
  · obtain ⟨m, hm, rfl⟩ := Option.map_eq_some_iff.mp happly
    exact .inr (.inr ⟨rfl, (erase_resource hm).symm⟩)

end

/-! ### A store of permissions -/

/-- What a request writes to a cell. -/
def Request.writes : Request → Cell → Option (List String)
  | .setPermission t _ app permissions, c =>
    if c = ⟨t.table, t.id, app⟩ then some permissions else none
  | .deletePermission t app, c => if c = ⟨t.table, t.id, app⟩ then some [] else none
  | .set t _ appPermissions _, c =>
    if t = ⟨c.table, c.id⟩ then some ((appPermissions.get c.app).getD []) else none
  | .delete t, c => if t = ⟨c.table, c.id⟩ then some [] else none
  | _, _ => none

/-- Whether it leaves a resource there, where it has to do with it. -/
def Request.leaves : Request → Target → Option Bool
  | .setPermission t _ _ _, t' => if t' = t then some true else none
  | .set t _ _ _, t' => if t' = t then some true else none
  | .setValue t _ _, t' => if t' = t then some true else none
  | .delete t, t' => if t' = t then some false else none
  | _, _ => none

/-- What a request makes of the permissions and of the resources. -/
structure Request.Updates (req : Request) (s s' : Contents) : Prop where
  permissions : ∀ c, s'.permissions c = (req.writes c).getD (s.permissions c)
  resources : ∀ t, (s' t).isSome = (req.leaves t).getD (s t).isSome

/-- What is read. -/
def Request.Reads (s : Contents) : Request → Value → Prop
  | .getPermission t app, v =>
    v = .status (.fromPermissions (s.permissions ⟨t.table, t.id, app⟩))
  | .lookup t, v => ∃ m, v = .permissions m ∧
      ∀ app, (m.get app).getD [] = s.permissions ⟨t.table, t.id, app⟩
  | .list table, v => ∃ ids, v = .ids ids ∧ ∀ id, id ∈ ids ↔ s ⟨table, id⟩ ≠ none
  | _, v => v = .none

/-- A resource is to be written that is missing, and is not to be created. -/
def Request.Uncreated (s : Contents) : Request → Prop
  | .setPermission t create _ _ => create = false ∧ s t = none
  | .set t create _ _ => create = false ∧ s t = none
  | .setValue t create _ => create = false ∧ s t = none
  | _ => False

theorem permissions_update (s : Contents) (t : Target) (m : Option AppPermissions) (c : Cell) :
    Contents.permissions (Function.update s t m) c =
      if t = ⟨c.table, c.id⟩ then (m.bind (· c.app)).getD [] else s.permissions c := by
  rw [Contents.permissions, Function.update_apply]
  by_cases ht : t = ⟨c.table, c.id⟩
  · rw [if_pos ht.symm, if_pos ht]
  · rw [if_neg (Ne.symm ht), if_neg ht, Contents.permissions]

theorem permissions_opened {s : Contents} {t : Target} {create : Bool} {m : AppPermissions}
    (h : s.opened t create = some m) (app : String) :
    (m app).getD [] = s.permissions ⟨t.table, t.id, app⟩ := by
  rw [Contents.opened] at h
  rw [Contents.permissions]
  split at h
  · obtain rfl := Option.some.inj h
    cases s ⟨t.table, t.id⟩ <;> simp
  · simp [h]

theorem resources_update (s : Contents) (t t' : Target) (m : Option AppPermissions) :
    (Function.update s t m t').isSome = if t' = t then m.isSome else (s t').isSome := by
  rw [Function.update_apply]
  split <;> rfl

/-- One app's entry is written, on a resource that has these permissions. -/
theorem permissions_update_app {s : Contents} {t : Target} {m : AppPermissions}
    (hm : ∀ app, (m app).getD [] = s.permissions ⟨t.table, t.id, app⟩) (app : String)
    (entry : Option (List String)) (c : Cell) :
    Contents.permissions (Function.update s t (some (Function.update m app entry))) c =
      if c = ⟨t.table, t.id, app⟩ then entry.getD [] else s.permissions c := by
  obtain ⟨table, id, app'⟩ := c
  rw [permissions_update]
  by_cases ht : t = ⟨table, id⟩
  · subst ht
    rw [if_pos rfl, Option.bind_some, Function.update_apply]
    by_cases happ : app' = app
    · rw [if_pos happ, if_pos (by rw [happ])]
    · rw [if_neg happ, if_neg (by simpa using happ), hm]
  · rw [if_neg ht, if_neg]
    rintro ⟨⟩
    exact ht rfl

/-- A request that is served does what it says. -/
theorem Request.apply_updates {req : Request} {s s' : Contents} (h : req.apply s = some s') :
    req.Updates s s' := by
  have hsame {t : Target} (h : (s t).map (fun _ => s) = some s') : s' = s := by
    obtain ⟨_, -, rfl⟩ := Option.map_eq_some_iff.mp h
    rfl
  cases req with
  -- a read changes nothing
  | getPermission t app =>
    obtain rfl := hsame h
    exact ⟨fun _ => rfl, fun _ => rfl⟩
  | lookup t =>
    obtain rfl := hsame h
    exact ⟨fun _ => rfl, fun _ => rfl⟩
  | list table =>
    obtain rfl := Option.some.inj h
    exact ⟨fun _ => rfl, fun _ => rfl⟩
  -- one entry of a resource, which may be new
  | setPermission t create app permissions =>
    obtain ⟨m, hm, rfl⟩ := Option.map_eq_some_iff.mp h
    refine ⟨fun c => ?_, fun t' => ?_⟩
    · rw [permissions_update_app (permissions_opened hm)]
      simp only [writes]
      split <;> rfl
    · rw [resources_update]
      simp only [leaves]
      split <;> rfl
  | deletePermission t app =>
    obtain ⟨m, hm, rfl⟩ := Option.map_eq_some_iff.mp h
    have hpermissions (app : String) : (m app).getD [] = s.permissions ⟨t.table, t.id, app⟩ := by
      rw [Contents.permissions, show (⟨t.table, t.id⟩ : Target) = t from rfl, hm]
      rfl
    refine ⟨fun c => ?_, fun t' => ?_⟩
    · rw [permissions_update_app hpermissions]
      simp only [writes]
      split <;> rfl
    · rw [resources_update]
      split
      · next ht => rw [ht, hm]; rfl
      · rfl
  | set t create appPermissions data =>
    obtain ⟨m, -, rfl⟩ := Option.map_eq_some_iff.mp h
    refine ⟨fun c => ?_, fun t' => ?_⟩
    · rw [permissions_update]
      simp only [writes]
      split <;> rfl
    · rw [resources_update]
      simp only [leaves]
      split <;> rfl
  | delete t =>
    obtain ⟨m, -, rfl⟩ := Option.map_eq_some_iff.mp h
    refine ⟨fun c => ?_, fun t' => ?_⟩
    · rw [permissions_update]
      simp only [writes]
      split <;> rfl
    · rw [resources_update]
      simp only [leaves]
      split <;> rfl
  -- a resource that is created here has no entries, as before
  | setValue t create data =>
    obtain ⟨m, hm, rfl⟩ := Option.map_eq_some_iff.mp h
    refine ⟨fun c => ?_, fun t' => ?_⟩
    · rw [permissions_update]
      split
      · next ht =>
        subst ht
        exact permissions_opened hm c.app
      · rfl
    · rw [resources_update]
      simp only [leaves]
      split <;> rfl

/-! ### What an operation does -/

/-- What an operation asks for. -/
def Operation.request : Operation → Request
  | .get table id app => .getPermission ⟨table, id⟩ app
  | .set table id app permissions create => .setPermission ⟨table, id⟩ create app permissions
  | .setStatus table id app status create =>
    .setPermission ⟨table, id⟩ create app status.value.toList
  | .delete table id app => .deletePermission ⟨table, id⟩ app
  | .lookup table id => .lookup ⟨table, id⟩
  | .list table => .list table
  | .setResource table id appPermissions data create =>
    .set ⟨table, id⟩ create appPermissions data
  | .deleteResource table id => .delete ⟨table, id⟩
  | .setValue table id data create => .setValue ⟨table, id⟩ create data

/-- How an operation may end that asks for this. -/
inductive Request.Behaves (req : Request) (s : Contents) :
    Except Exception Value → Contents → Prop
  | returned {v : Value} {s' : Contents} (hreads : req.Reads s v) (hupdates : req.Updates s s') :
      req.Behaves s (.ok v) s'
  | refused {e : MethodError} (he : isNotFound e = true → req.Uncreated s) :
      req.Behaves s (.error (.method e)) s
  | lost {s' : Contents} (h : s' = s ∨ req.Updates s s') : req.Behaves s (.error .lost) s'

/-- How the reply to a request is to be read. -/
structure Request.Understood (req : Request) (read : Reply → Except Exception Value) : Prop where
  answered : ∀ {s values}, req.Answers s values → ∃ v, read (.ok values) = .ok v ∧ req.Reads s v
  missing : ∀ {s e}, req.Missing s → isNotFound e = true →
    req.Behaves s (read (.error (.method e))) s
  refused : ∀ {e}, isNotFound e = false → read (.error (.method e)) = .error (.method e)
  lost : read (.error .lost) = .error .lost

/-- It is read with what is returned where there is nothing. -/
theorem Request.Understood.caught {α : Type} {req : Request} {missing : α} {value : α → Value}
    {read : List DBusValue → Except Exception α}
    (hanswered : ∀ {s values}, req.Answers s values →
      ∃ a, read values = .ok a ∧ req.Reads s (value a))
    (hmissing : ∀ {s}, req.Missing s → req.Reads s (value missing) ∧ req.Updates s s) :
    req.Understood fun reply => (catchNotFound missing (reply >>= read)).map value where
  answered h := by
    obtain ⟨a, hread, hreads⟩ := hanswered h
    refine ⟨value a, ?_, hreads⟩
    show (catchNotFound missing (read _)).map value = _
    rw [hread]
    rfl
  missing h he := by
    show req.Behaves _ ((if isNotFound _ then _ else _ : Except Exception α).map value) _
    rw [if_pos he]
    exact .returned (hmissing h).1 (hmissing h).2
  refused he := by
    show (if isNotFound _ then _ else _ : Except Exception α).map value = _
    rw [if_neg (Bool.eq_false_iff.mp he)]
    rfl
  lost := rfl

/-- It is not read, and every error is thrown. -/
theorem Request.Understood.thrown {req : Request}
    (hanswered : ∀ {s}, req.Reads s .none) (hmissing : ∀ {s}, req.Missing s → req.Uncreated s) :
    req.Understood fun reply => (reply.map fun _ => ()).map fun _ => .none where
  answered _ := ⟨.none, rfl, hanswered⟩
  missing h _ := .refused fun _ => hmissing h
  refused _ := rfl
  lost := rfl

theorem opened_eq_none_iff {s : Contents} {t : Target} {create : Bool} :
    s.opened t create = none ↔ create = false ∧ s t = none := by
  cases create <;> simp [Contents.opened]

/-- An operation is one call, which the service reads as the request, and the reply is read
as it is to be. -/
theorem Operation.call_spec (op : Operation) :
    ∃ call read, op.call = .ask call (fun reply => .done (read reply)) ∧
      decode call = some op.request ∧ op.request.Understood read := by
  -- the texts and the map are read as they were sent
  have hstrings (values : List String) :
      (strings (.ofStrings values)).toOption = some values := by
    rw [strings_ofStrings]
    rfl
  have hdict (m : LinkedMap String (List String)) :
      (appPermissions (dictOf m)).toOption = some m := by
    rw [appPermissions_dictOf]
    rfl
  cases op with
  | get table id app =>
    refine ⟨_, _, rfl, rfl, .caught (fun {s _} h => ?_) fun {s} h => ?_⟩
    · obtain rfl := h
      refine ⟨.fromPermissions (s.permissions ⟨table, id, app⟩), ?_, rfl⟩
      show (strings (.ofStrings _)).map PermissionStatus.fromPermissions = _
      rw [strings_ofStrings]
      rfl
    · refine ⟨congrArg (fun p => Value.status (.fromPermissions p)) h.symm, ?_⟩
      exact ⟨fun _ => rfl, fun _ => rfl⟩
  | set table id app permissions create =>
    refine ⟨_, _, rfl, ?_, .thrown rfl fun h => opened_eq_none_iff.mp h⟩
    rw [decode, hstrings]
    rfl
  | setStatus table id app status create =>
    refine ⟨_, _, rfl, ?_, .thrown rfl fun h => opened_eq_none_iff.mp h⟩
    rw [decode, hstrings]
    cases status <;> rfl
  | delete table id app =>
    refine ⟨_, _, rfl, rfl, .caught (fun {s _} _ => ⟨(), rfl, rfl⟩) fun {s} h => ⟨rfl, ?_⟩⟩
    refine ⟨fun c => ?_, fun _ => rfl⟩
    show _ = (if c = ⟨table, id, app⟩ then some [] else none).getD _
    split
    · next hc => exact hc ▸ h
    · rfl
  | lookup table id =>
    refine ⟨_, _, rfl, rfl, .caught (fun {s _} h => ?_) fun {s} h => ?_⟩
    · obtain ⟨m, data, rfl, hm⟩ := h
      exact ⟨m, appPermissions_dictOf m, m, rfl, hm⟩
    · refine ⟨⟨.empty, rfl, fun app => ?_⟩, fun _ => rfl, fun _ => rfl⟩
      rw [Contents.permissions, show s ⟨table, id⟩ = none from h]
      rfl
  | list table =>
    refine ⟨_, _, rfl, rfl, .caught (fun {s _} h => ?_) fun {s} h => ?_⟩
    · obtain ⟨ids, rfl, hids⟩ := h
      exact ⟨ids, strings_ofStrings ids, ids, rfl, hids⟩
    · refine ⟨⟨[], rfl, fun id => ?_⟩, fun _ => rfl, fun _ => rfl⟩
      simp [h id]
  | setResource table id m data create =>
    refine ⟨_, _, rfl, ?_, .thrown rfl fun h => opened_eq_none_iff.mp h⟩
    rw [decode, hdict]
    rfl
  | deleteResource table id =>
    refine ⟨_, _, rfl, rfl, .caught (fun {s _} _ => ⟨(), rfl, rfl⟩) fun {s} h => ⟨rfl, ?_⟩⟩
    have hnone : s ⟨table, id⟩ = none := h
    refine ⟨fun c => ?_, fun t => ?_⟩
    · show _ = (if ⟨table, id⟩ = (⟨c.table, c.id⟩ : Target) then some [] else none).getD _
      split
      · next hc => rw [Contents.permissions, ← hc, hnone]; rfl
      · rfl
    · show _ = (if t = ⟨table, id⟩ then some false else none).getD _
      split
      · next ht => rw [ht, hnone]; rfl
      · rfl
  | setValue table id data create =>
    exact ⟨_, _, rfl, rfl, .thrown rfl fun h => opened_eq_none_iff.mp h⟩

section

variable {Other : Contents → Contents → Prop} {s s' : Contents} {op : Operation}
  {ops : List Operation} {outcomes : List (Operation × Except Exception Value)}
  {trace : List (Contents × MethodCall)}

/-- An operation makes one call, and ends as one may that asks for this. -/
theorem Operation.behaves {outcome : Except Exception Value}
    (h : Runs (service Other) s op.call trace s' outcome) :
    (∃ call, trace = [(s, call)] ∧ decode call = some op.request) ∧
      ∃ t, Other s t ∧ op.request.Behaves t outcome s' := by
  obtain ⟨call, read, hcall, hdecode, hread⟩ := op.call_spec
  rw [hcall, runs_ask_iff] at h
  obtain ⟨reply, t, rest, ⟨u, hother, hserves⟩, hdone, rfl⟩ := h
  obtain ⟨rfl, rfl, rfl⟩ := runs_done_iff.mp hdone
  refine ⟨⟨call, rfl, hdecode⟩, u, hother, ?_⟩
  cases hserves with
  | served hreq happly hvalues =>
    obtain rfl := Option.some.inj (hreq.symm.trans hdecode)
    obtain ⟨v, hv, hreads⟩ := hread.answered hvalues
    rw [hv]
    exact .returned hreads (Request.apply_updates happly)
  | notFound hreq hmissing he =>
    obtain rfl := Option.some.inj (hreq.symm.trans hdecode)
    exact hread.missing hmissing he
  | refused he =>
    rw [hread.refused he]
    exact .refused fun h => absurd h (Bool.eq_false_iff.mp he)
  | lost hreq happly =>
    obtain rfl := Option.some.inj (hreq.symm.trans hdecode)
    rw [hread.lost]
    exact .lost (.inr (Request.apply_updates happly))
  | unsent =>
    rw [hread.lost]
    exact .lost (.inl rfl)

/-- Operations one after another on a store of permissions, and what others do in between. -/
inductive History (Other : Contents → Contents → Prop) :
    Contents → List (Operation × Except Exception Value) → Contents → Prop
  | nil (s : Contents) : History Other s [] s
  | cons {s t u s' : Contents} {op : Operation} {outcome : Except Exception Value}
      {rest : List (Operation × Except Exception Value)} (hother : Other s t)
      (hbehaves : op.request.Behaves t outcome u) (hrest : History Other u rest s') :
      History Other s ((op, outcome) :: rest) s'

theorem history_of_runs (h : Runs (service Other) s (runAll ops) trace s' outcomes) :
    outcomes.map Prod.fst = ops ∧
      trace.map (fun asked => decode asked.2) = ops.map (fun op => some op.request) ∧
      History Other s outcomes s' := by
  induction ops generalizing s trace outcomes with
  | nil =>
    obtain ⟨rfl, rfl, rfl⟩ := runs_done_iff.mp h
    exact ⟨rfl, rfl, .nil _⟩
  | cons op ops ih =>
    rw [runAll, runs_bind_iff] at h
    obtain ⟨t, outcome, before, after, hfirst, hthen, rfl⟩ := h
    rw [runs_bind_iff] at hthen
    obtain ⟨u, rest, between, last, hrest, hdone, rfl⟩ := hthen
    obtain ⟨rfl, rfl, rfl⟩ := runs_done_iff.mp hdone
    obtain ⟨⟨call, rfl, hdecode⟩, v, hother, hbehaves⟩ := Operation.behaves hfirst
    obtain ⟨rfl, hcalls, hhistory⟩ := ih hrest
    refine ⟨rfl, ?_, .cons hother hbehaves hhistory⟩
    rw [List.append_nil, List.singleton_append, List.map_cons, List.map_cons, hdecode, hcalls]

/-- What is not written to stays as it is, however it ends. -/
theorem Request.Behaves.keeps {req : Request} {outcome : Except Exception Value} {c : Cell}
    (h : req.Behaves s outcome s') (hwrites : req.writes c = none) :
    s'.permissions c = s.permissions c := by
  have hkeeps (h : req.Updates s s') : s'.permissions c = s.permissions c := by
    rw [h.permissions, hwrites, Option.getD_none]
  cases h with
  | returned _ hupdates => exact hkeeps hupdates
  | refused _ => rfl
  | lost h =>
    rcases h with rfl | hupdates
    · rfl
    · exact hkeeps hupdates

theorem History.keeps {c : Cell}
    (hothers : ∀ s s', Other s s' → s'.permissions c = s.permissions c)
    (h : History Other s outcomes s') (hwrites : ∀ o ∈ outcomes, o.1.request.writes c = none) :
    s'.permissions c = s.permissions c := by
  induction h with
  | nil s => rfl
  | cons hother hbehaves _ ih =>
    rw [ih fun o ho => hwrites o (List.mem_cons_of_mem _ ho),
      hbehaves.keeps (hwrites _ List.mem_cons_self), hothers _ _ hother]

theorem History.of_append {outcomes' : List (Operation × Except Exception Value)}
    (h : History Other s (outcomes ++ outcomes') s') :
    ∃ t, History Other s outcomes t ∧ History Other t outcomes' s' := by
  induction outcomes generalizing s with
  | nil => exact ⟨s, .nil s, h⟩
  | cons o outcomes ih =>
    cases h with
    | cons hother hbehaves hrest =>
      obtain ⟨t, hfirst, hlast⟩ := ih hrest
      exact ⟨t, .cons hother hbehaves hfirst, hlast⟩

/-- **The client is a store of permissions**: any operations, against the service with what
other clients do in between, are one call each and a history of the store; a cell that
nobody writes to stays as it is. -/
theorem runAll_history (h : Runs (service Other) s (runAll ops) trace s' outcomes) :
    outcomes.map Prod.fst = ops ∧
      trace.map (fun asked => decode asked.2) = ops.map (fun op => some op.request) ∧
      History Other s outcomes s' ∧
      ∀ c, (∀ s s', Other s s' → s'.permissions c = s.permissions c) →
        (∀ op ∈ ops, op.request.writes c = none) → s'.permissions c = s.permissions c := by
  obtain ⟨hops, hcalls, hhistory⟩ := history_of_runs h
  refine ⟨hops, hcalls, hhistory, fun c hothers hwrites => ?_⟩
  refine hhistory.keeps hothers fun o ho => hwrites o.1 ?_
  rw [← hops]
  exact List.mem_map_of_mem ho

/-- The camera is granted, the location asked for, and the camera read. -/
def cameraOperations : List Operation :=
  [.setStatus "devices" "camera" "org.App" .granted true,
    .delete "location" "location" "org.App", .get "devices" "camera" "org.App"]

/-- There is no resource of locations. -/
theorem exists_cameraRun : ∃ trace s', Runs (service Eq) (fun _ => none)
    (runAll cameraOperations) trace s'
    [(.setStatus "devices" "camera" "org.App" .granted true, .ok .none),
      (.delete "location" "location" "org.App", .ok .none),
      (.get "devices" "camera" "org.App", .ok (.status .granted))] := by
  exact ⟨_, _, .ask ⟨_, rfl, .served rfl rfl rfl⟩ (.ask ⟨_, rfl, .notFound (e :=
    ⟨"org.freedesktop.portal.Error.NotFound", []⟩) rfl (by rfl) (by decide)⟩
      (.ask ⟨_, rfl, .served rfl rfl rfl⟩ (.done _ _)))⟩

/-- The camera is granted, and the locations are as they were. -/
theorem runAll_history_camera : ∃ s', History Eq (fun _ => none)
    [(.setStatus "devices" "camera" "org.App" .granted true, .ok .none),
      (.delete "location" "location" "org.App", .ok .none),
      (.get "devices" "camera" "org.App", .ok (.status .granted))] s' ∧
    s'.permissions ⟨"notifications", "notifications", "org.App"⟩ = [] := by
  obtain ⟨trace, s', hrun⟩ := exists_cameraRun
  obtain ⟨-, -, hhistory, hkept⟩ := runAll_history hrun
  refine ⟨s', hhistory, hkept _ ?_ ?_⟩
  · rintro s _ rfl
    rfl
  · decide

/-- **A permission that is written is read**: after a write to a cell that returned, `get`
and `lookup` find what was written, whatever is done in between to other cells. -/
theorem read_last_write {c : Cell} {w r : Operation} {v value : Value}
    {permissions : List String} {before between after : List (Operation × Except Exception Value)}
    (hothers : ∀ s s', Other s s' → s'.permissions c = s.permissions c)
    (h : Runs (service Other) s (runAll ops) trace s'
      (before ++ (w, .ok v) :: (between ++ (r, .ok value) :: after)))
    (hwrite : w.request.writes c = some permissions)
    (hbetween : ∀ o ∈ between, o.1.request.writes c = none) :
    (r = .get c.table c.id c.app → value = .status (.fromPermissions permissions)) ∧
    (r = .lookup c.table c.id →
      ∃ m, value = .permissions m ∧ (m.get c.app).getD [] = permissions) := by
  obtain ⟨-, -, hhistory⟩ := history_of_runs h
  obtain ⟨t, -, hrest⟩ := hhistory.of_append
  cases hrest with
  | cons _ hw hrest =>
    obtain ⟨u, hkept, hrest⟩ := hrest.of_append
    cases hrest with
    | cons hother hr _ =>
      cases hw with
      | returned _ hupdates =>
        cases hr with
        | returned hreads _ =>
          -- what was written is there when it is read
          have hthere := (hothers _ _ hother).trans (hkept.keeps hothers hbetween)
          rw [hupdates.permissions, hwrite, Option.getD_some] at hthere
          constructor
          · rintro rfl
            exact hthere ▸ hreads
          · rintro rfl
            obtain ⟨m, rfl, hm⟩ := hreads
            exact ⟨m, rfl, hthere ▸ hm c.app⟩

/-- The camera is granted, an entry for the location deleted, and the camera read: there is
such a run, and whatever a run of these operations reads is the grant. -/
theorem read_last_write_camera :
    (∃ trace s', Runs (service Eq) (fun _ => none) (runAll cameraOperations) trace s'
      [(.setStatus "devices" "camera" "org.App" .granted true, .ok .none),
        (.delete "location" "location" "org.App", .ok .none),
        (.get "devices" "camera" "org.App", .ok (.status .granted))]) ∧
    ∀ trace s' value, Runs (service Eq) (fun _ => none) (runAll cameraOperations) trace s'
      [(.setStatus "devices" "camera" "org.App" .granted true, .ok .none),
        (.delete "location" "location" "org.App", .ok .none),
        (.get "devices" "camera" "org.App", .ok value)] → value = .status .granted := by
  refine ⟨exists_cameraRun, fun trace s' value hrun => ?_⟩
  have hothers : ∀ s s' : Contents, s = s' → s'.permissions ⟨"devices", "camera", "org.App"⟩ =
      s.permissions ⟨"devices", "camera", "org.App"⟩ := by
    rintro s _ rfl
    rfl
  have hread : Runs (service Eq) (fun _ => none) (runAll cameraOperations) trace s'
      ([] ++ (.setStatus "devices" "camera" "org.App" .granted true, .ok .none) ::
        ([(.delete "location" "location" "org.App", .ok .none)] ++
          (.get "devices" "camera" "org.App", .ok value) :: [])) := hrun
  exact (read_last_write hothers hread rfl (by decide)).1 rfl

end

end PermissionStorePortal
