/-
`FlatpakRemoteManager` and `FlatpakClient`: which installation an operation on
remotes reaches.

Queries go to the installation the client was opened for; writes choose between
the user's and the system's by `_isSystem`, which `FlatpakClient.at` sets to
false whatever the path.

* `run_onlyAt` — a manager's writes reach one installation, its `writeDir`;
* `client_acts_on_own_iff` — that is the one its queries ask, for every client
  but those opened at a path that is not the user's installation.
-/
import FlatpakDart.GlazeCodec
import FlatpakDart.Machine
import FlatpakDart.RemoteBridge

open Libflatpak RemoteBridge Dart

namespace RemoteManager

/-- A `FlatpakRemoteManager`: the name of its `FlatpakInstallation`, and which
C functions it writes with. -/
structure FlatpakRemoteManager where
  installation : String
  isSystem : Bool

variable {δ : Type}

namespace FlatpakRemoteManager

/-- Makes the handle of a write; `none` where the create function returned null,
which the call that follows dereferences. -/
def remoteCreate (m : FlatpakRemoteManager) (host : Host δ) (env : Environment) :
    Option (Handle δ) :=
  if m.isSystem then flatpakSystemRemoteCreate host env else flatpakUserRemoteCreate host env

/-- The installation that writes reach. -/
def writeDir (m : FlatpakRemoteManager) (host : Host δ) : δ :=
  if m.isSystem then host.systemDir else host.userDir

theorem installation_of_remoteCreate {m : FlatpakRemoteManager} {host : Host δ}
    {env : Environment} {b : Handle δ} (h : m.remoteCreate host env = some b) :
    b.installation = m.writeDir host := by
  rw [remoteCreate, flatpakSystemRemoteCreate, flatpakUserRemoteCreate] at h
  rw [writeDir]
  split at h
  · split at h
    · obtain rfl := Option.some_inj.mp h
      simp [*]
    · exact absurd h (by simp)
  · split at h
    · obtain rfl := Option.some_inj.mp h
      simp [*]
    · exact absurd h (by simp)

/-- The installation that `list` and `info` ask. -/
def readDir (m : FlatpakRemoteManager) (host : Host δ) : δ :=
  host.openInstallation (.ofString m.installation)

/-- `list`, as the frames it receives. -/
def list (m : FlatpakRemoteManager) (host : Host δ) (env : Environment) (w : World δ) :
    List (List UInt8) := listRemotes (m.readDir host) env w

/-- `info`, as the frames it receives. -/
def info (m : FlatpakRemoteManager) (host : Host δ) (name : String) (env : Environment)
    (w : World δ) : List (List UInt8) := getRemoteInfo (m.readDir host) (.ofString name) env w

variable [DecidableEq δ]

def addFromFile (m : FlatpakRemoteManager) (host : Host δ) (name flatpakrepoPath : String)
    (ifNotExists : Bool) (env : Environment) (w : World δ) :
    Option (World δ × List (List UInt8)) :=
  (m.remoteCreate host env).map fun handle =>
    if m.isSystem then
      flatpakSystemRemoteAddFromFile handle (.ofString name) (.ofString flatpakrepoPath)
        ifNotExists env w
    else
      flatpakUserRemoteAddFromFile handle (.ofString name) (.ofString flatpakrepoPath)
        ifNotExists env w

def add (m : FlatpakRemoteManager) (host : Host δ) (name : String) (config : FlatpakRemoteConfig)
    (ifNotExists : Bool) (env : Environment) (w : World δ) :
    Option (World δ × List (List UInt8)) :=
  match config.flatpakrepoPath with
  | some path => m.addFromFile host name path ifNotExists env w
  | none =>
    let buf := GlazeCodec.encodeRemoteConfig config
    (m.remoteCreate host env).map fun handle =>
      if m.isSystem then flatpakSystemRemoteAdd handle (.ofString name) buf ifNotExists env w
      else flatpakUserRemoteAdd handle (.ofString name) buf ifNotExists env w

def modify (m : FlatpakRemoteManager) (host : Host δ) (name : String)
    (changes : FlatpakRemoteConfig) (env : Environment) (w : World δ) :
    Option (World δ × List (List UInt8)) :=
  let buf := GlazeCodec.encodeRemoteConfig changes
  (m.remoteCreate host env).map fun handle =>
    if m.isSystem then flatpakSystemRemoteModify handle (.ofString name) buf env w
    else flatpakUserRemoteModify handle (.ofString name) buf env w

def modifySubset (m : FlatpakRemoteManager) (host : Host δ) (name : String)
    (subset : RemoteSubset) : Environment → World δ → Option (World δ × List (List UInt8)) :=
  m.modify host name { subset := some subset }

def enable (m : FlatpakRemoteManager) (host : Host δ) (name : String) :
    Environment → World δ → Option (World δ × List (List UInt8)) :=
  m.modify host name { disabled := some false }

def disable (m : FlatpakRemoteManager) (host : Host δ) (name : String) :
    Environment → World δ → Option (World δ × List (List UInt8)) :=
  m.modify host name { disabled := some true }

def setPriority (m : FlatpakRemoteManager) (host : Host δ) (name : String) (priority : ℤ) :
    Environment → World δ → Option (World δ × List (List UInt8)) :=
  m.modify host name { priority := some priority }

def remove (m : FlatpakRemoteManager) (host : Host δ) (name : String) (force : Bool)
    (env : Environment) (w : World δ) : Option (World δ × List (List UInt8)) :=
  (m.remoteCreate host env).map fun handle =>
    if m.isSystem then flatpakSystemRemoteRemove handle (.ofString name) force env w
    else flatpakUserRemoteRemove handle (.ofString name) force env w

def update (m : FlatpakRemoteManager) (host : Host δ) (name : String) (env : Environment)
    (w : World δ) : Option (World δ × List (List UInt8)) :=
  (m.remoteCreate host env).map fun handle =>
    if m.isSystem then flatpakSystemRemoteUpdate handle (.ofString name) env w
    else flatpakUserRemoteUpdate handle (.ofString name) env w

end FlatpakRemoteManager

/-- `_listenForResult`: how the future completes on these messages, if it does.
The port closes at the first terminal message; an error that does not decode
throws and leaves it open. -/
def listenForResult : List (List UInt8) → Option (Except String Unit)
  | [] => none
  | msg :: rest =>
    match msg.head? with
    | some 0x01 => some (.ok ())
    | some 0x02 =>
      match GlazeCodec.decodeError (.ofList msg) 1 with
      | some err => some (.error err)
      | none => listenForResult rest
    | _ => listenForResult rest

@[simp] theorem listenForResult_ok (rest : List (List UInt8)) :
    listenForResult (postOk :: rest) = some (.ok ()) := rfl

theorem listenForResult_error (msg : CString) :
    listenForResult [postError msg] ≠ some (.ok ()) := by
  have hhead : (postError msg).head? = some 0x02 := FlatpakNc.postFramedError_head 0x02 msg
  rw [listenForResult]
  simp only [hhead]
  split <;> simp [listenForResult]

/-- A write operation with its arguments. -/
inductive Op
  | add (name : String) (config : FlatpakRemoteConfig) (ifNotExists : Bool)
  | addFromFile (name flatpakrepoPath : String) (ifNotExists : Bool)
  | modify (name : String) (changes : FlatpakRemoteConfig)
  | modifySubset (name : String) (subset : RemoteSubset)
  | enable (name : String)
  | disable (name : String)
  | setPriority (name : String) (priority : ℤ)
  | remove (name : String) (force : Bool)
  | update (name : String)

/-! ### Where writes go -/

/-- A write makes a handle, and what follows keeps to the handle's installation. -/
theorem onlyAt_of_handle {m : FlatpakRemoteManager} {host : Host δ} {env : Environment}
    {w w' : World δ} {frames : List (List UInt8)}
    {f : Handle δ → World δ × List (List UInt8)}
    (hf : ∀ b, OnlyAt b.installation w (f b).1)
    (h : (m.remoteCreate host env).map f = some (w', frames)) :
    OnlyAt (m.writeDir host) w w' := by
  obtain ⟨b, hb, hw⟩ := Option.map_eq_some_iff.mp h
  have hframe := hf b
  rw [hw] at hframe
  rwa [← FlatpakRemoteManager.installation_of_remoteCreate hb]

variable [DecidableEq δ]

def FlatpakRemoteManager.perform (m : FlatpakRemoteManager) (host : Host δ) :
    Op → Environment → World δ → Option (World δ × List (List UInt8))
  | .add name config ifNotExists => m.add host name config ifNotExists
  | .addFromFile name path ifNotExists => m.addFromFile host name path ifNotExists
  | .modify name changes => m.modify host name changes
  | .modifySubset name subset => m.modifySubset host name subset
  | .enable name => m.enable host name
  | .disable name => m.disable host name
  | .setPriority name priority => m.setPriority host name priority
  | .remove name force => m.remove host name force
  | .update name => m.update host name

/-- One operation of a sequence, with what the world does to it. -/
def FlatpakRemoteManager.step (m : FlatpakRemoteManager) (host : Host δ) (w : World δ)
    (a : Op × Environment) : Option (World δ) :=
  (m.perform host a.1 a.2 w).map Prod.fst

theorem perform_onlyAt {m : FlatpakRemoteManager} {host : Host δ} {op : Op} {env : Environment}
    {w w' : World δ} {frames : List (List UInt8)}
    (h : m.perform host op env w = some (w', frames)) : OnlyAt (m.writeDir host) w w' := by
  -- the two calls that the other operations come down to
  have hfile : ∀ {name path : String} {ifNotExists : Bool},
      m.addFromFile host name path ifNotExists env w = some (w', frames) →
      OnlyAt (m.writeDir host) w w' := fun h => by
    refine onlyAt_of_handle (fun b => ?_) h
    rw [flatpakSystemRemoteAddFromFile, ite_self]
    exact addFromFile_frame b _ env w _ _
  have hmodify : ∀ {name : String} {changes : FlatpakRemoteConfig},
      m.modify host name changes env w = some (w', frames) →
      OnlyAt (m.writeDir host) w w' := fun h => by
    refine onlyAt_of_handle (fun b => ?_) h
    rw [flatpakSystemRemoteModify, ite_self]
    exact modify_frame b _ env w _
  cases op with
  | add name config ifNotExists =>
    simp only [FlatpakRemoteManager.perform, FlatpakRemoteManager.add] at h
    split at h
    · exact hfile h
    · refine onlyAt_of_handle (fun b => ?_) h
      rw [flatpakSystemRemoteAdd, ite_self]
      exact add_frame b _ env w _ _
  | addFromFile name path ifNotExists => exact hfile h
  | modify name changes => exact hmodify h
  | modifySubset name subset => exact hmodify h
  | enable name => exact hmodify h
  | disable name => exact hmodify h
  | setPriority name priority => exact hmodify h
  | remove name force =>
    refine onlyAt_of_handle (fun b => ?_) h
    rw [flatpakSystemRemoteRemove, ite_self]
    exact remove_frame b _ env w force
  | update name =>
    refine onlyAt_of_handle (fun b => ?_) h
    rw [flatpakSystemRemoteUpdate, ite_self]
    exact update_frame b _ env w

/-- A sequence of writes changes the remotes of `writeDir` at most. -/
theorem run_onlyAt {m : FlatpakRemoteManager} {host : Host δ} {as : List (Op × Environment)}
    {w w' : World δ} (h : Machine.run (m.step host) w as = some w') :
    OnlyAt (m.writeDir host) w w' := by
  refine Machine.run_invariant (I := OnlyAt (m.writeDir host) w) (fun hstep hu => ?_) h (.refl _ w)
  obtain ⟨⟨v, frames⟩, hperform, rfl⟩ := Option.map_eq_some_iff.mp hstep
  exact hu.trans (perform_onlyAt hperform)

/-! ### Clients -/

/-- The fields of a `FlatpakClient` that its remote manager is made from. -/
structure FlatpakClient where
  installation : String
  isSystem : Bool

def FlatpakClient.system : FlatpakClient := ⟨"system", true⟩

def FlatpakClient.user : FlatpakClient := ⟨"user", false⟩

def FlatpakClient.at (path : String) : FlatpakClient := ⟨path, false⟩

/-- `client.remotes`. -/
def FlatpakClient.remotes (c : FlatpakClient) : FlatpakRemoteManager := ⟨c.installation, c.isSystem⟩

/-- The operations of a manager act on the installation that its queries ask. -/
structure ActsOnOwn (m : FlatpakRemoteManager) (host : Host δ) : Prop where
  /-- no sequence of writes touches another installation -/
  others : ∀ as w w', Machine.run (m.step host) w as = some w' → OnlyAt (m.readDir host) w w'
  /-- what was added is listed, when listing succeeds -/
  listed : ∀ name config ifNotExists env w w' frames,
    m.add host name config ifNotExists env w = some (w', frames) →
    listenForResult frames = some (.ok ()) →
    ∀ env' : Environment, env'.call.fails = false →
      ∃ remote : Remote, remote.name = .ofString name ∧ infoFrame remote ∈ m.list host env' w'

/-- What a write that completes without error has stored. -/
theorem finish_ok {b : Handle δ} {w w' : World δ} {r : Except CString Remotes}
    {frames : List (List UInt8)} (h : b.finish w r = (w', frames))
    (hok : listenForResult frames = some (.ok ())) : r = .ok (w' b.installation) := by
  cases r with
  | ok rs =>
    obtain ⟨rfl, rfl⟩ := Prod.mk.inj h
    rw [Function.update_self]
  | error msg =>
    obtain ⟨rfl, rfl⟩ := Prod.mk.inj h
    exact absurd hok (listenForResult_error msg)

/-- An add that completes without error has stored its remote, or one of its
name was there. -/
theorem addRemote_of_add {m : FlatpakRemoteManager} {host : Host δ} {name : String}
    {config : FlatpakRemoteConfig} {ifNotExists : Bool} {env : Environment} {w w' : World δ}
    {frames : List (List UInt8)}
    (h : m.add host name config ifNotExists env w = some (w', frames))
    (hok : listenForResult frames = some (.ok ())) :
    ∃ rs remote, addRemote env.call rs remote ifNotExists = .ok (w' (m.writeDir host)) ∧
      remote.name = .ofString name := by
  rw [FlatpakRemoteManager.add] at h
  split at h
  · obtain ⟨b, hb, hw⟩ := Option.map_eq_some_iff.mp h
    rw [flatpakSystemRemoteAddFromFile, ite_self, flatpakUserRemoteAddFromFile] at hw
    split at hw
    · obtain ⟨-, rfl⟩ := Prod.mk.inj hw
      exact absurd hok (listenForResult_error _)
    · rw [← FlatpakRemoteManager.installation_of_remoteCreate hb]
      exact ⟨_, _, finish_ok hw hok, remoteOfKeyFile_name _ _⟩
  · obtain ⟨b, hb, hw⟩ := Option.map_eq_some_iff.mp h
    rw [flatpakSystemRemoteAdd, ite_self, flatpakUserRemoteAdd] at hw
    rw [← FlatpakRemoteManager.installation_of_remoteCreate hb]
    exact ⟨_, _, finish_ok hw hok, applyConfig_name _ _⟩

theorem actsOnOwn_of_eq {m : FlatpakRemoteManager} {host : Host δ}
    (h : m.readDir host = m.writeDir host) : ActsOnOwn m host := by
  refine ⟨fun as w w' hrun => h ▸ run_onlyAt hrun, ?_⟩
  intro name config ifNotExists env w w' frames hadd hok env' henv
  obtain ⟨rs, remote, hstored, hname⟩ := addRemote_of_add hadd hok
  have hlist : Libflatpak.listRemotes env'.call (w' (m.readDir host)) =
      .ok ((w' (m.readDir host)).mergeSort fun a b => decide (b.getPrio ≤ a.getPrio)) := by
    rw [Libflatpak.listRemotes, henv]
    rfl
  rw [← h] at hstored
  obtain ⟨x, hx, hxname⟩ := mem_listRemotes_of_addRemote hstored hlist
  refine ⟨x, hxname.trans hname, ?_⟩
  rw [FlatpakRemoteManager.list, RemoteBridge.listRemotes, hlist]
  exact List.mem_append_left _ (List.mem_map_of_mem hx)

/-- An environment in which every call succeeds. -/
def smooth : Environment where
  load _ := .error (.lit "no file" (by decide))
  get := ⟨false, .lit "not found" (by decide)⟩
  disable := ⟨false, .lit "" (by decide)⟩
  call := ⟨false, .lit "failed" (by decide)⟩
  refresh := id

/-- A remote that has a URL and nothing else. -/
def originConfig : FlatpakRemoteConfig := { url := some "https://dl.flathub.org/repo/" }

/-- Adding a remote where there is none puts it into the installation of writes. -/
theorem run_add (m : FlatpakRemoteManager) (host : Host δ) :
    ∃ remote : Remote, remote.name = .ofString "origin" ∧
      Machine.run (m.step host) (fun _ => []) [(.add "origin" originConfig true, smooth)] =
        some (Function.update (fun _ => []) (m.writeDir host) [remote]) := by
  have hcreate : m.remoteCreate host smooth = some ⟨m.writeDir host⟩ := by
    rw [FlatpakRemoteManager.remoteCreate, FlatpakRemoteManager.writeDir]
    split <;> rfl
  set remote := applyConfig { name := .ofString "origin" }
    (decodeConfig (GlazeCodec.encodeRemoteConfig originConfig))
  refine ⟨remote, applyConfig_name _ _, ?_⟩
  have hadd : m.add host "origin" originConfig true smooth (fun _ => []) =
      some (Function.update (fun _ => []) (m.writeDir host) [remote], [postOk]) := by
    simp only [FlatpakRemoteManager.add, hcreate, flatpakSystemRemoteAdd, ite_self,
      Option.map_some]
    rfl
  rw [Machine.run_singleton, FlatpakRemoteManager.step, FlatpakRemoteManager.perform, hadd]
  rfl

/-- **Which installation**: the system's and the user's client act on their own
one; a client opened at a path does if and only if the path is the user's
installation. -/
theorem client_acts_on_own_iff (host : Host δ) :
    ActsOnOwn FlatpakClient.system.remotes host ∧ ActsOnOwn FlatpakClient.user.remotes host ∧
    ∀ path, ActsOnOwn (FlatpakClient.at path).remotes host ↔
      host.openInstallation (.ofString path) = host.userDir := by
  have hsystem : CString.ofString "system" = .lit "system" (by decide) := by decide +kernel
  have huser : CString.ofString "user" = .lit "user" (by decide) := by decide +kernel
  have hdiffer : CString.lit "system" (by decide) ≠ .lit "user" (by decide) := by decide +kernel
  refine ⟨actsOnOwn_of_eq ?_, actsOnOwn_of_eq ?_, fun path => ⟨?_, ?_⟩⟩
  · show host.openInstallation (.ofString "system") = host.systemDir
    rw [hsystem, Host.openInstallation, if_neg hdiffer, if_pos rfl]
  · show host.openInstallation (.ofString "user") = host.userDir
    rw [huser, Host.openInstallation, if_pos rfl]
  -- an add changes the installation of the user, so that is the one it reads
  · intro hown
    obtain ⟨remote, -, hrun⟩ := run_add (FlatpakClient.at path).remotes host
    by_contra hne
    have hkept := hown.others _ _ _ hrun host.userDir fun h => hne h.symm
    exact absurd ((Function.update_self _ _ _).symm.trans hkept) (by simp)
  · intro h
    exact actsOnOwn_of_eq h

/-- Three directories. -/
inductive Dir
  | user
  | system
  | opt
  deriving DecidableEq

/-- A host where every path is `/opt/flatpak`. -/
def optHost : Host Dir := ⟨.user, .system, fun _ => .opt⟩

/-- A client opened at `/opt/flatpak` adds a remote: the user's installation has
it, and its own does not. -/
theorem at_adds_elsewhere :
    ∃ w', Machine.run ((FlatpakClient.at "/opt/flatpak").remotes.step optHost) (fun _ => [])
        [(.add "origin" originConfig true, smooth)] = some w' ∧
      (FlatpakClient.at "/opt/flatpak").remotes.readDir optHost = .opt ∧ w' .opt = [] ∧
      (w' .user).map Remote.name = [.ofString "origin"] := by
  obtain ⟨remote, hname, hrun⟩ := run_add (FlatpakClient.at "/opt/flatpak").remotes optHost
  have hdir : (FlatpakClient.at "/opt/flatpak").remotes.readDir optHost = .opt := by
    decide +kernel
  refine ⟨_, hrun, hdir, rfl, ?_⟩
  show [remote.name] = _
  rw [hname]

end RemoteManager
