/-
The client of the permission store (`lib/src/portal/permission_store.dart`).

A `Store` is what the session's PermissionStore holds; its methods answer with a
`Reply`.  `check` looks every resource up once, and `removeAllForApp` deletes an app's
entry on every resource that can have one.

* `resourceKey_inj` — resources are told apart by the key they are looked up under;
* `check_agrees` — `check` finds what `get` finds, with one lookup a resource;
* `removeAllForApp_cleans` — after a removal the app has no entry a permission is
  stored under, and the other apps have theirs.
-/
import FlatpakDart.FutureWait
import FlatpakDart.InsertionOrder
import FlatpakDart.Machine
import FlatpakDart.PermissionStore
import FlatpakDart.Separator

open InsertionOrder

namespace PermissionStore

/-! ### The store and its methods -/

/-- `{app: permissions}` -/
abbrev AppPermissions : Type := String → Option (List String)

/-- The resources of every table, and the apps on each. -/
structure Store where
  resource : Target → Option AppPermissions
  /-- the ids in a table -/
  ids : String → List String
  mem_ids : ∀ {table id}, id ∈ ids table ↔ resource ⟨table, id⟩ ≠ none

/-- The permissions of an app on a resource, if it has an entry. -/
def Store.entry (s : Store) (t : Target) (app : String) : Option (List String) :=
  (s.resource t).bind (· app)

/-- How a method call ends: with a value, with `NotFound` or with another error. -/
inductive Reply (α : Type) where
  | ok (value : α)
  | notFound
  | failed

/-- `Lookup`: the whole map of a resource. -/
def Store.lookupReply (s : Store) (t : Target) : Reply AppPermissions :=
  match s.resource t with
  | some m => .ok m
  | none => .notFound

/-- What is assumed of `GetPermission`: the same map answers it, and an app without an
entry gets an empty list or `NotFound`. -/
structure AnswersGet (s : Store) (getPermission : Target → String → Reply (List String)) :
    Prop where
  present : ∀ t app permissions, s.entry t app = some permissions →
    getPermission t app = .ok permissions
  absent : ∀ t app, s.entry t app = none →
    getPermission t app = .ok [] ∨ getPermission t app = .notFound

/-! ### The client, by the replies it gets; `none` where it throws -/

/-- `get` -/
def get : Reply (List String) → Option PermissionStatus
  | .ok permissions => some (.fromPermissions permissions)
  | .notFound => some .notSet
  | .failed => none

/-- `lookup` -/
def lookup : Reply AppPermissions → Option AppPermissions
  | .ok m => some m
  | .notFound => some fun _ => none
  | .failed => none

/-- `list` -/
def list : Reply (List String) → Option (List String)
  | .ok ids => some ids
  | .notFound => some []
  | .failed => none

/-- `delete` -/
def delete : Reply Unit → Option Unit
  | .ok () => some ()
  | .notFound => some ()
  | .failed => none

/-! ### `check` -/

/-- `'${t.table}\u0000${t.id}'` -/
def resourceKey (t : Target) : String := t.table ++ "\x00" ++ t.id

/-- `targets` of `check`. -/
def checkTargets (app : String) (permissions : List String) : LinkedMap String Target :=
  .ofEntries (permissions.map fun permission => (permission, permissionTarget permission app))

/-- `resources` of `check`. -/
def checkResources (app : String) (permissions : List String) : LinkedMap String Target :=
  .ofEntries ((checkTargets app permissions).entries.map fun e => (resourceKey e.2, e.2))

/-- The calls of `Lookup`. -/
def lookups (app : String) (permissions : List String) : List Target :=
  (checkResources app permissions).entries.map Prod.snd

/-- The map that `check` returns, from `looked`. -/
def checkResult (app : String) (permissions : List String) (looked : List AppPermissions) :
    LinkedMap String PermissionStatus :=
  let byResource : LinkedMap String AppPermissions :=
    .ofEntries ((checkResources app permissions).keys.zip looked)
  .ofEntries ((checkTargets app permissions).entries.map fun e =>
    (e.1, .fromPermissions (((byResource.get (resourceKey e.2)).bind (· app)).getD [])))

/-- `check`, when the lookups complete in this order. -/
def check (lookupReply : Target → Reply AppPermissions) (app : String) (permissions : List String)
    (order : List ℕ) : Option (Option (LinkedMap String PermissionStatus)) :=
  (FutureWait.wait ((lookups app permissions).map fun t => lookup (lookupReply t)) order).map
    fun looked => looked.map (checkResult app permissions)

/-- A table has no NUL in its name. -/
theorem permissionTarget_table (permission app : String) :
    '\x00' ∉ (permissionTarget permission app).table.toList := by
  unfold permissionTarget
  split
  · decide
  · decide
  · exact (by decide : '\x00' ∉ "background".toList)
  · exact (by decide : '\x00' ∉ "devices".toList)

/-- **Resources have distinct keys**, where the names of the tables hold no NUL. -/
theorem resourceKey_inj {t t' : Target} (ht : '\x00' ∉ t.table.toList)
    (ht' : '\x00' ∉ t'.table.toList) (h : resourceKey t = resourceKey t') : t = t' := by
  have hlist := congrArg String.toList h
  simp only [resourceKey, String.toList_append] at hlist
  have hnul : "\x00".toList = ['\x00'] := by decide
  simp only [hnul, List.append_assoc, List.singleton_append] at hlist
  obtain ⟨htable, hid⟩ := (Separator.cut_unique ht ht').mp hlist
  obtain ⟨table, id⟩ := t
  obtain ⟨table', id'⟩ := t'
  obtain rfl : table = table' := String.toList_inj.mp htable
  obtain rfl : id = id' := String.toList_inj.mp hid
  rfl

theorem get_checkTargets (app : String) (permissions : List String) (p : String) :
    (checkTargets app permissions).get p =
      if p ∈ permissions then some (permissionTarget p app) else none := by
  split_ifs with hp
  · refine LinkedMap.get_ofEntries_of_unique (List.mem_map.mpr ⟨p, hp, rfl⟩) fun t ht => ?_
    obtain ⟨q, -, hq⟩ := List.mem_map.mp ht
    obtain ⟨rfl, rfl⟩ := Prod.mk.inj hq
    rfl
  · cases hget : (checkTargets app permissions).get p with
    | none => rfl
    | some t =>
      obtain ⟨q, hq, heq⟩ := List.mem_map.mp ((LinkedMap.get_ofEntries _ p).1 t hget)
      exact absurd ((Prod.mk.inj heq).1 ▸ hq) hp

/-- The resources are the targets of the permissions, each under its own key. -/
theorem mem_checkResources {app : String} {permissions : List String} {k : String} {t : Target} :
    (k, t) ∈ (checkResources app permissions).entries ↔
      k = resourceKey t ∧ ∃ p ∈ permissions, permissionTarget p app = t := by
  -- what the targets put in
  have hput : ∀ {k t}, (k, t) ∈ (checkTargets app permissions).entries.map
      (fun e => (resourceKey e.2, e.2)) ↔
        k = resourceKey t ∧ ∃ p ∈ permissions, permissionTarget p app = t := by
    intro k t
    rw [List.mem_map]
    constructor
    · rintro ⟨⟨p, t'⟩, he, heq⟩
      obtain ⟨rfl, rfl⟩ := Prod.mk.inj heq
      have hget := LinkedMap.mem_entries.mp he
      rw [get_checkTargets] at hget
      obtain ⟨hp, ht⟩ := Option.ite_none_right_eq_some.mp hget
      exact ⟨rfl, p, hp, Option.some.inj ht⟩
    · rintro ⟨rfl, p, hp, rfl⟩
      refine ⟨(p, permissionTarget p app), LinkedMap.mem_entries.mpr ?_, rfl⟩
      rw [get_checkTargets, if_pos hp]
  rw [LinkedMap.mem_entries]
  constructor
  · exact fun h => hput.mp ((LinkedMap.get_ofEntries _ k).1 t h)
  · intro h
    refine LinkedMap.get_ofEntries_of_unique (hput.mpr h) fun t' ht' => ?_
    obtain ⟨rfl, p, -, rfl⟩ := h
    obtain ⟨hkey, p', -, rfl⟩ := hput.mp ht'
    exact resourceKey_inj (permissionTarget_table p' app) (permissionTarget_table p app) hkey.symm

/-- **One lookup for each resource.** -/
theorem lookups_spec (app : String) (permissions : List String) :
    (lookups app permissions).Nodup ∧
      ∀ t, t ∈ lookups app permissions ↔ ∃ p ∈ permissions, permissionTarget p app = t := by
  have hmem : ∀ t, t ∈ lookups app permissions ↔ ∃ p ∈ permissions, permissionTarget p app = t := by
    intro t
    rw [lookups, List.mem_map]
    constructor
    · rintro ⟨⟨k, t'⟩, he, rfl⟩
      exact (mem_checkResources.mp he).2
    · exact fun h => ⟨(resourceKey t, t), mem_checkResources.mpr ⟨rfl, h⟩, rfl⟩
  refine ⟨?_, hmem⟩
  -- the keys are distinct, and a key is a function of its resource
  have hkeys : (lookups app permissions).map resourceKey =
      (checkResources app permissions).entries.map Prod.fst := by
    rw [lookups, List.map_map]
    exact List.map_congr_left fun ⟨k, t⟩ he => (mem_checkResources.mp he).1.symm
  exact List.Nodup.of_map resourceKey (hkeys ▸ (checkResources app permissions).nodup)

/-- What was looked up is found again under the key of its resource. -/
theorem get_byResource {app p : String} {permissions : List String} (hp : p ∈ permissions)
    (f : Target → AppPermissions) :
    (LinkedMap.ofEntries ((checkResources app permissions).keys.zip
        ((lookups app permissions).map f))).get (resourceKey (permissionTarget p app)) =
      some (f (permissionTarget p app)) := by
  have hzip : (checkResources app permissions).keys.zip ((lookups app permissions).map f) =
      (checkResources app permissions).entries.map fun e => (e.1, f e.2) := by
    rw [lookups, List.map_map, LinkedMap.keys, List.zip_map']
    rfl
  rw [hzip]
  refine LinkedMap.get_ofEntries_of_unique (List.mem_map.mpr ⟨_, mem_checkResources.mpr
    ⟨rfl, p, hp, rfl⟩, rfl⟩) fun m hm => ?_
  obtain ⟨⟨k, t⟩, he, heq⟩ := List.mem_map.mp hm
  obtain ⟨rfl, rfl⟩ := Prod.mk.inj heq
  obtain ⟨hkey, p', -, rfl⟩ := mem_checkResources.mp he
  rw [resourceKey_inj (permissionTarget_table p app) (permissionTarget_table p' app) hkey]

theorem lookup_lookupReply (s : Store) (t : Target) :
    lookup (s.lookupReply t) = some (s.entry t) := by
  rw [Store.lookupReply]
  cases h : s.resource t with
  | none =>
    refine congrArg some (funext fun app => ?_)
    rw [Store.entry, h]
    rfl
  | some m =>
    refine congrArg some (funext fun app => ?_)
    rw [Store.entry, h]
    rfl

/-- What `get` returns, by the entry of the app. -/
theorem get_of_answers {s : Store} {getPermission : Target → String → Reply (List String)}
    (h : AnswersGet s getPermission) (t : Target) (app : String) :
    get (getPermission t app) = some (.fromPermissions ((s.entry t app).getD [])) := by
  cases hentry : s.entry t app with
  | some permissions => rw [h.present t app permissions hentry, get, Option.getD_some]
  | none =>
    rcases h.absent t app hentry with hreply | hreply
    · rw [hreply, get, Option.getD_none]
    · rw [hreply, get]
      rfl

theorem get_checkResult (s : Store) (app : String) (permissions : List String) (p : String) :
    (checkResult app permissions ((lookups app permissions).map s.entry)).get p =
      if p ∈ permissions then
        some (.fromPermissions ((s.entry (permissionTarget p app) app).getD []))
      else none := by
  rw [checkResult]
  split_ifs with hp
  · refine LinkedMap.get_ofEntries_of_unique ?_ fun status hstatus => ?_
    · refine List.mem_map.mpr ⟨(p, permissionTarget p app), LinkedMap.mem_entries.mpr ?_, ?_⟩
      · rw [get_checkTargets, if_pos hp]
      · simp only [get_byResource hp, Option.bind_some]
    · obtain ⟨⟨q, t⟩, he, heq⟩ := List.mem_map.mp hstatus
      obtain ⟨rfl, rfl⟩ := Prod.mk.inj heq
      have hget := LinkedMap.mem_entries.mp he
      rw [get_checkTargets, if_pos hp] at hget
      obtain rfl := Option.some.inj hget
      simp only [get_byResource hp, Option.bind_some]
  · refine Option.eq_none_iff_forall_ne_some.mpr fun status hstatus => hp ?_
    obtain ⟨⟨q, t⟩, he, heq⟩ := List.mem_map.mp ((LinkedMap.get_ofEntries _ p).1 status hstatus)
    obtain ⟨rfl, -⟩ := Prod.mk.inj heq
    have hget := LinkedMap.mem_entries.mp he
    rw [get_checkTargets] at hget
    exact (Option.ite_none_right_eq_some.mp hget).1

/-- **`check` agrees with `get`**, whatever the order is in which the lookups complete,
and looks every resource up once. -/
theorem check_agrees {s : Store} {getPermission : Target → String → Reply (List String)}
    (hget : AnswersGet s getPermission) (app : String) (permissions : List String)
    {order : List ℕ} (horder : order.Perm (List.range (lookups app permissions).length)) :
    (∃ m, check s.lookupReply app permissions order = some (some m) ∧
      ∀ p, m.get p =
        if p ∈ permissions then get (getPermission (permissionTarget p app) app) else none) ∧
    (lookups app permissions).Nodup ∧
    ∀ t, t ∈ lookups app permissions ↔ ∃ p ∈ permissions, permissionTarget p app = t := by
  refine ⟨⟨checkResult app permissions ((lookups app permissions).map s.entry), ?_, fun p => ?_⟩,
    lookups_spec app permissions⟩
  · have houtcomes : (lookups app permissions).map (fun t => lookup (s.lookupReply t)) =
        ((lookups app permissions).map s.entry).map some := by
      rw [List.map_map]
      exact List.map_congr_left fun t _ => lookup_lookupReply s t
    rw [check, houtcomes, FutureWait.wait_perm (by simpa using horder), FutureWait.allSome_map_some]
    rfl
  · rw [get_checkResult, get_of_answers hget]

/-- A store in which an app may use the camera. -/
def cameraStore : Store where
  resource t :=
    if t = ⟨"devices", "camera"⟩ then some fun app => if app = "org.App" then some ["yes"] else none
    else none
  ids table := if table = "devices" then ["camera"] else []
  mem_ids {table id} := by
    by_cases htable : table = "devices"
    · by_cases hid : id = "camera"
      · simp [htable, hid]
      · simp [hid]
    · simp [htable]

/-- `GetPermission`, with `NotFound` for every app without an entry. -/
def Store.getPermission (s : Store) (t : Target) (app : String) : Reply (List String) :=
  match s.entry t app with
  | some permissions => .ok permissions
  | none => .notFound

theorem answersGet_getPermission (s : Store) : AnswersGet s s.getPermission where
  present t app permissions h := by rw [Store.getPermission, h]
  absent t app h := .inr (by rw [Store.getPermission, h])

/-- The camera is granted, the location is not set. -/
theorem check_agrees_camera :
    ∃ m, check cameraStore.lookupReply "org.App" ["camera", "location"] [1, 0] = some (some m) ∧
      m.get "camera" = some .granted ∧ m.get "location" = some .notSet := by
  have horder : [1, 0].Perm (List.range (lookups "org.App" ["camera", "location"]).length) := by
    decide +kernel
  obtain ⟨⟨m, hm, hget⟩, -⟩ :=
    check_agrees (answersGet_getPermission cameraStore) "org.App" ["camera", "location"] horder
  refine ⟨m, hm, ?_, ?_⟩
  · rw [hget]
    decide +kernel
  · rw [hget]
    decide +kernel

/-! ### `removeAllForApp` -/

/-- `targets` of `removeAllForApp`. -/
def removalTargets (listed : List String) (app : String) : List Target :=
  [⟨"notifications", "notifications"⟩, ⟨"location", "location"⟩, ⟨"background", app⟩] ++
    listed.map fun id => ⟨"devices", id⟩

/-- What is assumed of `List`: the ids of all resources in the table, or `NotFound`
where there are none. -/
def AnswersList (s : Store) (table : String) : Reply (List String) → Prop
  | .ok ids => ∀ id, id ∈ ids ↔ id ∈ s.ids table
  | .notFound => s.ids table = []
  | .failed => True

/-- The store without the entry of an app on a resource. -/
def Store.erase (s : Store) (t : Target) (app : String) : Store where
  resource t' :=
    if t' = t then (s.resource t').map fun m app' => if app' = app then none else m app'
    else s.resource t'
  ids := s.ids
  mem_ids {table id} := by
    split_ifs
    · rw [s.mem_ids, ne_eq, ne_eq, Option.map_eq_none_iff]
    · exact s.mem_ids

/-- `DeletePermission`, with its reply: it removes only the entry of the app, or answers
`NotFound` where there is none. -/
def deletePermission (app : String) (s : Store) : Target × Reply Unit → Option Store
  | (t, .ok ()) => some (s.erase t app)
  | (t, .notFound) => if s.entry t app = none then some s else none
  -- then the removal throws
  | (_, .failed) => some s

/-- A run of `removeAllForApp` that returns, with no one else writing: the deletes are
called at once, and the store may handle them in any order. -/
structure Removal (app : String) (s s' : Store) where
  listReply : Reply (List String)
  listed : List String
  answers : AnswersList s "devices" listReply
  listed_eq : list listReply = some listed
  calls : List (Target × Reply Unit)
  calls_eq : calls.map Prod.fst = removalTargets listed app
  handled : List (Target × Reply Unit)
  handled_perm : handled.Perm calls
  run_eq : Machine.run (deletePermission app) s handled = some s'
  completed : List ℕ
  completed_perm : completed.Perm (List.range calls.length)
  returns : (FutureWait.wait (calls.map fun c => delete c.2) completed).join ≠ none

theorem entry_erase (s : Store) (t t' : Target) (app app' : String) :
    (s.erase t app).entry t' app' =
      if t' = t ∧ app' = app then none else s.entry t' app' := by
  rw [Store.entry, Store.entry]
  show Option.bind (if t' = t then _ else _) _ = _
  by_cases ht : t' = t
  · rw [if_pos ht]
    cases s.resource t' with
    | none => simp
    | some m => simp [ht]
  · rw [if_neg ht, if_neg fun h => ht h.1]

/-- A delete leaves no entry of the app where it was to delete it, adds none, and leaves
the other apps alone. -/
theorem deletePermission_spec {app : String} {s s' : Store} {c : Target × Reply Unit}
    (h : deletePermission app s c = some s') (hreply : delete c.2 ≠ none) :
    s'.entry c.1 app = none ∧ (∀ t, s.entry t app = none → s'.entry t app = none) ∧
      ∀ t app', app' ≠ app → s'.entry t app' = s.entry t app' := by
  obtain ⟨t, reply⟩ := c
  cases reply with
  | ok =>
    obtain rfl := Option.some.inj h
    refine ⟨by simp [entry_erase], fun t' ht' => ?_, fun t' app' hne => ?_⟩
    · rw [entry_erase]
      split_ifs
      · rfl
      · exact ht'
    · rw [entry_erase, if_neg fun h => hne h.2]
  | notFound =>
    obtain ⟨hnone, hsame⟩ := Option.ite_none_right_eq_some.mp h
    obtain rfl := Option.some.inj hsame
    exact ⟨hnone, fun _ h => h, fun _ _ _ => rfl⟩
  | failed => exact absurd rfl hreply

/-- The same for several deletes. -/
theorem run_deletePermission {app : String} {s s' : Store} {cs : List (Target × Reply Unit)}
    (h : Machine.run (deletePermission app) s cs = some s')
    (hreplies : ∀ c ∈ cs, delete c.2 ≠ none) :
    (∀ c ∈ cs, s'.entry c.1 app = none) ∧ (∀ t, s.entry t app = none → s'.entry t app = none) ∧
      ∀ t app', app' ≠ app → s'.entry t app' = s.entry t app' := by
  induction cs generalizing s with
  | nil =>
    obtain rfl := Option.some.inj h
    exact ⟨by simp, fun _ h => h, fun _ _ _ => rfl⟩
  | cons c cs ih =>
    obtain ⟨u, hu, hrest⟩ := Machine.run_cons_eq_some.mp h
    obtain ⟨hgone, hkeep, hother⟩ := deletePermission_spec hu (hreplies c (by simp))
    obtain ⟨hgone', hkeep', hother'⟩ :=
      ih hrest fun d hd => hreplies d (List.mem_cons_of_mem c hd)
    refine ⟨fun d hd => ?_, fun t ht => hkeep' t (hkeep t ht), fun t app' hne => ?_⟩
    · rcases List.mem_cons.mp hd with rfl | hd
      · exact hkeep' d.1 hgone
      · exact hgone' d hd
    · rw [hother' t app' hne, hother t app' hne]

theorem run_deleteAll (app : String) (s : Store) (ts : List Target) :
    ∃ s', Machine.run (deletePermission app) s (ts.map fun t => (t, .ok ())) = some s' := by
  induction ts generalizing s with
  | nil => exact ⟨s, rfl⟩
  | cons t ts ih => exact ih (s.erase t app)

/-- From every store there is a removal that returns. -/
theorem exists_removal (app : String) (s : Store) : ∃ s', Nonempty (Removal app s s') := by
  obtain ⟨s', hrun⟩ := run_deleteAll app s (removalTargets (s.ids "devices") app)
  have hdelete : ((removalTargets (s.ids "devices") app).map fun t => (t, Reply.ok ())).map
      (fun c => delete c.2) = (removalTargets (s.ids "devices") app).map fun _ => some () := by
    rw [List.map_map]
    rfl
  exact ⟨s', ⟨
    { listReply := .ok (s.ids "devices")
      listed := s.ids "devices"
      answers := fun _ => Iff.rfl
      listed_eq := rfl
      calls := (removalTargets (s.ids "devices") app).map fun t => (t, .ok ())
      calls_eq := by
        rw [List.map_map]
        exact List.map_id _
      handled := (removalTargets (s.ids "devices") app).map fun t => (t, .ok ())
      handled_perm := List.Perm.refl _
      run_eq := hrun
      completed := List.range _
      completed_perm := List.Perm.refl _
      returns := by
        rw [hdelete, FutureWait.wait_perm (by simp), Option.join_some,
          show (fun _ : Target => some ()) = some ∘ fun _ => () from rfl, ← List.map_map,
          FutureWait.allSome_map_some]
        exact Option.some_ne_none _ }⟩⟩

/-- A permission is stored under a target of the removal, or on a device that is not
listed. -/
theorem permissionTarget_cases (p app : String) (listed : List String) :
    permissionTarget p app ∈ removalTargets listed app ∨
      ∃ id, permissionTarget p app = ⟨"devices", id⟩ ∧ id ∉ listed := by
  unfold permissionTarget
  split
  · exact .inl (by simp [removalTargets])
  · exact .inl (by simp [removalTargets])
  · exact .inl (by simp [removalTargets])
  · by_cases hp : p ∈ listed
    · exact .inl (by simp [removalTargets, hp])
    · exact .inr ⟨p, rfl, hp⟩

/-- **A clean slate**: after a removal that returned, `get` finds nothing for any
permission of the app, and the entries of the other apps are as they were. -/
theorem removeAllForApp_cleans {app : String} {s s' : Store} (r : Removal app s s') :
    (∀ p getPermission, AnswersGet s' getPermission →
      get (getPermission (permissionTarget p app) app) = some .notSet) ∧
    ∀ t app', app' ≠ app → s'.entry t app' = s.entry t app' := by
  -- the deletes all answered, as the future completed without an error
  have hcalls : ∀ c ∈ r.calls, delete c.2 ≠ none := by
    have hreturns := r.returns
    rw [FutureWait.wait_perm (by simpa using r.completed_perm), Option.join_some] at hreturns
    obtain ⟨values, hvalues⟩ := Option.ne_none_iff_exists'.mp hreturns
    intro c hc hnone
    exact FutureWait.ne_none_of_allSome hvalues (List.mem_map.mpr ⟨c, hc, hnone⟩)
  obtain ⟨hgone, hkeep, hother⟩ :=
    run_deletePermission r.run_eq fun c hc => hcalls c (r.handled_perm.mem_iff.mp hc)
  refine ⟨fun p getPermission hget => ?_, hother⟩
  have hnone : s'.entry (permissionTarget p app) app = none := by
    rcases permissionTarget_cases p app r.listed with htarget | ⟨id, hid, hunlisted⟩
    · rw [← r.calls_eq] at htarget
      obtain ⟨c, hc, heq⟩ := List.mem_map.mp htarget
      rw [← heq]
      exact hgone c (r.handled_perm.mem_iff.mpr hc)
    · -- a device that is not listed has no resource
      have habsent : id ∉ s.ids "devices" := by
        have hanswers := r.answers
        have hlisted := r.listed_eq
        cases hreply : r.listReply with
        | ok ids =>
          rw [hreply] at hanswers hlisted
          obtain rfl := Option.some.inj hlisted
          exact fun h => hunlisted ((hanswers id).mpr h)
        | notFound =>
          rw [hreply] at hanswers
          have hempty : s.ids "devices" = [] := hanswers
          simp [hempty]
        | failed => simp [hreply, list] at hlisted
      have hresource : s.resource ⟨"devices", id⟩ = none := by
        by_contra h
        exact habsent (s.mem_ids.mpr h)
      rw [hid]
      exact hkeep _ (by rw [Store.entry, hresource]; rfl)
  rw [get_of_answers hget, hnone]
  rfl

/-- A store in which two apps may use the camera. -/
def sharedStore : Store where
  resource t :=
    if t = ⟨"devices", "camera"⟩ then
      some fun app => if app ∈ ["org.App", "org.Other"] then some ["yes"] else none
    else none
  ids := cameraStore.ids
  mem_ids {table id} := by
    refine cameraStore.mem_ids.trans ?_
    show (if _ then some _ else none) ≠ none ↔ (if _ then some _ else none) ≠ none
    split_ifs <;> simp

/-- The deletes, with `NotFound` where the app has no entry. -/
def cameraCalls : List (Target × Reply Unit) :=
  [(⟨"notifications", "notifications"⟩, .notFound), (⟨"location", "location"⟩, .notFound),
    (⟨"background", "org.App"⟩, .notFound), (⟨"devices", "camera"⟩, .ok ())]

/-- The store handles them in the other order. -/
def cameraRemoval : Removal "org.App" sharedStore
    (sharedStore.erase ⟨"devices", "camera"⟩ "org.App") where
  listReply := .ok ["camera"]
  listed := ["camera"]
  answers _ := Iff.rfl
  listed_eq := rfl
  calls := cameraCalls
  calls_eq := rfl
  handled := cameraCalls.reverse
  handled_perm := List.reverse_perm _
  run_eq := rfl
  completed := [3, 1, 0, 2]
  completed_perm := by decide
  returns := by decide

/-- The app has lost the camera, the other one has it. -/
theorem removeAllForApp_cleans_camera :
    get ((sharedStore.erase ⟨"devices", "camera"⟩ "org.App").getPermission
      (permissionTarget "camera" "org.App") "org.App") = some .notSet ∧
    (sharedStore.erase ⟨"devices", "camera"⟩ "org.App").entry ⟨"devices", "camera"⟩ "org.Other" =
      some ["yes"] := by
  obtain ⟨hgone, hothers⟩ := removeAllForApp_cleans cameraRemoval
  refine ⟨hgone "camera" _ (answersGet_getPermission _), ?_⟩
  rw [hothers _ "org.Other" (by decide)]
  decide +kernel

end PermissionStore
