/-
The permission store (`lib/src/portal/permission_store.dart`) and the permissions an
app asks for (`lib/src/portal/permission_flow.dart`).

* `fromPermissions_value` — a status reads back as it was written;
* `permissionTarget_inj` — the permissions of an app are stored under distinct
  targets;
* `derivePermissions_nodup`, `derivePermissions_length` — the derived permissions are
  distinct, and at most six.
-/
import FlatpakDart.DartTypes
import Mathlib.Data.List.Perm.Subperm

/-! ### The store -/

/-- `PermissionStatus`. -/
inductive PermissionStatus
  | granted
  | denied
  | ask
  | notSet
  deriving DecidableEq

namespace PermissionStatus

/-- `PermissionStatus.fromValue`. -/
def fromValue : Option String → PermissionStatus
  | some "yes" => granted
  | some "no" => denied
  | some "ask" => ask
  | _ => notSet

/-- `PermissionStatus.fromPermissions`: the first entry decides. -/
def fromPermissions : List String → PermissionStatus
  | [] => notSet
  | first :: _ => fromValue (some first)

/-- `PermissionStatus.value`. -/
def value : PermissionStatus → Option String
  | granted => some "yes"
  | denied => some "no"
  | ask => some "ask"
  | notSet => none

theorem fromPermissions_value (status : PermissionStatus) :
    fromPermissions status.value.toList = status := by
  cases status <;> rfl

end PermissionStatus

namespace PermissionStore

/-- What `permissionTarget` returns. -/
structure Target where
  table : String
  id : String
  deriving DecidableEq

/-- One app's entry on a resource. -/
structure Cell where
  table : String
  id : String
  app : String
  deriving DecidableEq

/-- `permissionTarget`. -/
def permissionTarget (permission app : String) : Target :=
  match permission with
  | "location" => ⟨"location", "location"⟩
  | "notifications" => ⟨"notifications", "notifications"⟩
  | "background" => ⟨"background", app⟩
  | permission => ⟨"devices", permission⟩

/-- The app's own entry for a permission. -/
def targetCell (permission app : String) : Cell :=
  let target := permissionTarget permission app
  ⟨target.table, target.id, app⟩

theorem permissionTarget_inj {p q app : String}
    (h : permissionTarget p app = permissionTarget q app) : p = q := by
  unfold permissionTarget at h
  split at h <;> split at h <;> simp_all

theorem targetCell_inj {p q app : String} (h : targetCell p app = targetCell q app) : p = q := by
  have htable := congrArg Cell.table h
  have hid := congrArg Cell.id h
  have htarget : permissionTarget p app = permissionTarget q app :=
    (Target.mk.injEq _ _ _ _).mpr ⟨htable, hid⟩
  exact permissionTarget_inj htarget

end PermissionStore

/-! ### The permissions an app asks for -/

open Dart

namespace PermissionFlow

/-- The local `add` of `derivePermissions`. -/
def add (requested : List String) (p : String) : List String :=
  if requested.contains p then requested else requested ++ [p]

/-- The local `listValue`: the entries of the first value under the key. -/
def listValue (metadata : List FlatpakPermission) (section_ key : String) : List String :=
  match metadata.find? fun e => e.section_ = section_ ∧ e.key = key with
  | some e => ((e.value.toList.splitOn ';').map String.ofList).filter (· ≠ "")
  | none => []

/-- What a name of the session bus policy asks for. -/
def policyPermission : String → Option String
  | "org.freedesktop.Notifications" => some "notifications"
  | "org.freedesktop.portal.Usb" => some "usb"
  | "org.freedesktop.portal.Location" => some "location"
  | "org.freedesktop.portal.Camera" => some "camera"
  | _ => none

/-- The step of the loop over the session bus policy. -/
def addPolicy (requested : List String) (e : FlatpakPermission) : List String :=
  if e.section_ ≠ "Session Bus Policy" then requested
  else
    match policyPermission e.key with
    | some p => add requested p
    | none => requested

/-- `derivePermissions`. -/
def derivePermissions (metadata : List FlatpakPermission) : List String :=
  let requested :=
    if (listValue metadata "Context" "devices").contains "all" then
      ["microphone", "speakers", "camera"].foldl add []
    else []
  let requested :=
    if (listValue metadata "Context" "sockets").contains "pulseaudio" then
      ["microphone", "speakers"].foldl add requested
    else requested
  metadata.foldl addPolicy requested

/-- Every permission that can be derived. -/
def launchPermissions : List String :=
  ["microphone", "speakers", "camera", "notifications", "usb", "location"]

/-- Distinct launch permissions. -/
def Requestable (requested : List String) : Prop :=
  requested.Nodup ∧ requested ⊆ launchPermissions

theorem Requestable.add {requested : List String} {p : String} (h : Requestable requested)
    (hp : p ∈ launchPermissions) : Requestable (add requested p) := by
  unfold PermissionFlow.add
  split
  · exact h
  · next hnew =>
    have hnew' : p ∉ requested := by simpa using hnew
    refine ⟨List.nodup_append.mpr ⟨h.1, List.pairwise_singleton _ p, ?_⟩, ?_⟩
    · rintro q hq q' hq' rfl
      exact hnew' (List.mem_singleton.mp hq' ▸ hq)
    · exact List.append_subset.mpr ⟨h.2, by simpa using hp⟩

theorem Requestable.addAll {requested ps : List String} (h : Requestable requested)
    (hps : ps ⊆ launchPermissions) : Requestable (ps.foldl PermissionFlow.add requested) :=
  List.foldlRecOn ps _ h fun _ h _ hp => h.add (hps hp)

theorem policyPermission_mem {key p : String} (h : policyPermission key = some p) :
    p ∈ launchPermissions := by
  unfold policyPermission at h
  split at h <;> simp_all [launchPermissions]

theorem Requestable.addPolicy {requested : List String} (h : Requestable requested)
    (e : FlatpakPermission) : Requestable (addPolicy requested e) := by
  unfold PermissionFlow.addPolicy
  split
  · exact h
  · split
    · next hp => exact h.add (policyPermission_mem hp)
    · exact h

theorem derivePermissions_requestable (metadata : List FlatpakPermission) :
    Requestable (derivePermissions metadata) := by
  have hdevices : Requestable (if (listValue metadata "Context" "devices").contains "all" then
      ["microphone", "speakers", "camera"].foldl add [] else []) := by
    have hnil : Requestable [] := ⟨List.nodup_nil, List.nil_subset _⟩
    split
    · exact hnil.addAll (by decide)
    · exact hnil
  refine List.foldlRecOn metadata _ ?_ fun _ h e _ => h.addPolicy e
  split
  · exact hdevices.addAll (by decide)
  · exact hdevices

theorem derivePermissions_nodup (metadata : List FlatpakPermission) :
    (derivePermissions metadata).Nodup := (derivePermissions_requestable metadata).1

theorem derivePermissions_length (metadata : List FlatpakPermission) :
    (derivePermissions metadata).length ≤ 6 :=
  ((derivePermissions_requestable metadata).1.subperm
    (derivePermissions_requestable metadata).2).length_le

end PermissionFlow
