/-
The part of libflatpak the remote bridge calls.

An installation is a directory, and its remotes are what is configured there;
every call acts on the installation it is given and on no other.  A call may
fail for reasons of its own (`Outcome`), and then changes nothing.

What is assumed of a call that does not:

* `listRemotes` — every remote is listed, one of a higher priority before one of a lower;
* `getRemoteByName` — the remote of that name is found, or there is none;
* `addRemote` — a remote of a new name is added as it is, and one of a name that is there
  changes nothing;
* `modifyRemote` — the remote of that name becomes the object, and no other changes;
* `removeRemote` — the remote of that name is gone, and no other changes;
* `updateRemoteSync` — the remote of that name changes but for its name, and no other does.
-/
import FlatpakDart.Text
import Mathlib.Logic.Function.Basic

namespace Libflatpak

/-- `FlatpakRemote`: a name, and the properties that are set. -/
structure Remote where
  name : CString
  url : Option CString := none
  title : Option CString := none
  comment : Option CString := none
  description : Option CString := none
  homepage : Option CString := none
  defaultBranch : Option CString := none
  collectionId : Option CString := none
  filter : Option CString := none
  /-- has no setter -/
  subset : Option CString := none
  gpgKey : Option (List UInt8) := none
  gpgVerify : Option Bool := none
  disabled : Option Bool := none
  nodeps : Option Bool := none
  prio : Option Int32 := none
  remoteType : Int32 := 0
  deriving DecidableEq

/-- The remotes of an installation, in the order they were added. -/
abbrev Remotes := List Remote

/-- What the world does to one call: whether it fails by itself, and what an
error of it says. -/
structure Outcome where
  fails : Bool
  message : CString

/-- `flatpak_remote_get_prio`. -/
def Remote.getPrio (r : Remote) : Int32 := r.prio.getD 1

/-- `flatpak_installation_list_remotes`: highest priority first. -/
def listRemotes (o : Outcome) (rs : Remotes) : Except CString Remotes :=
  if o.fails then .error o.message
  else .ok (rs.mergeSort fun a b => decide (b.getPrio ≤ a.getPrio))

/-- `flatpak_installation_get_remote_by_name`. -/
def getRemoteByName (o : Outcome) (rs : Remotes) (name : CString) : Except CString Remote :=
  if o.fails then .error o.message
  else
    match rs.find? (·.name = name) with
    | none => .error o.message
    | some r => .ok r

/-- `flatpak_installation_add_remote`: a remote that exists is left as it is,
which is an error unless `ifNeeded`. -/
def addRemote (o : Outcome) (rs : Remotes) (r : Remote) (ifNeeded : Bool) :
    Except CString Remotes :=
  if o.fails then .error o.message
  else if rs.any (·.name = r.name) then
    if ifNeeded then .ok rs else .error o.message
  else .ok (rs ++ [r])

/-- `flatpak_installation_modify_remote`: saves the changes in `r`. -/
def modifyRemote (o : Outcome) (rs : Remotes) (r : Remote) : Except CString Remotes :=
  if o.fails then .error o.message
  else .ok (rs.map fun x => if x.name = r.name then r else x)

/-- `flatpak_installation_remove_remote`. -/
def removeRemote (o : Outcome) (rs : Remotes) (name : CString) : Except CString Remotes :=
  if o.fails ∨ rs.all (·.name ≠ name) then .error o.message
  else .ok (rs.filter (·.name ≠ name))

/-- `flatpak_installation_update_remote_sync`: commits what the remote's summary
says, which is `refresh`. -/
def updateRemoteSync (o : Outcome) (refresh : Remote → Remote) (rs : Remotes) (name : CString) :
    Except CString Remotes :=
  if o.fails ∨ rs.all (·.name ≠ name) then .error o.message
  else .ok (rs.map fun x => if x.name = name then { refresh x with name := name } else x)

/-- A remote that was added, or was there already, is listed. -/
theorem mem_listRemotes_of_addRemote {o o' : Outcome} {rs rs' listed : Remotes} {r : Remote}
    {ifNeeded : Bool} (hadd : addRemote o rs r ifNeeded = .ok rs')
    (hlist : listRemotes o' rs' = .ok listed) : ∃ x ∈ listed, x.name = r.name := by
  -- the new one, or the one that was there
  have hmem : ∃ x ∈ rs', x.name = r.name := by
    simp only [addRemote] at hadd
    split at hadd
    · exact absurd hadd (by simp)
    · split at hadd
      · next hany =>
        split at hadd
        · obtain rfl := Except.ok.inj hadd
          simpa using hany
        · exact absurd hadd (by simp)
      · obtain rfl := Except.ok.inj hadd
        exact ⟨r, by simp, rfl⟩
  obtain ⟨x, hx, hname⟩ := hmem
  simp only [listRemotes] at hlist
  split at hlist
  · exact absurd hlist (by simp)
  · obtain rfl := Except.ok.inj hlist
    exact ⟨x, List.mem_mergeSort.mpr hx, hname⟩

/-! ### Installations -/

/-- The directories of the host: the user's installation, the system's, and
which one a path leads to. -/
structure Host (δ : Type) where
  userDir : δ
  systemDir : δ
  resolve : CString → δ

/-- The remotes configured in each directory. -/
abbrev World (δ : Type) := δ → Remotes

/-- `open_installation`, of the reader and of the worker. -/
def Host.openInstallation {δ : Type} (host : Host δ) (name : CString) : δ :=
  if name = .lit "user" (by decide) then host.userDir
  else if name = .lit "system" (by decide) then host.systemDir
  else host.resolve name

end Libflatpak
