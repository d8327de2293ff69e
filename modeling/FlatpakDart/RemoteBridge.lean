/-
Remotes across the C ABI (`native/src/user_remote_bridge.cpp`, and the remote
queries of `installation_reader.cpp`).

A `RemoteBridge` holds the installation it was created for.  Each function reads
and writes that one only (`add_frame`, `addFromFile_frame`, `modify_frame`,
`remove_frame`, `update_frame`), and answers with one frame.
-/
import FlatpakDart.FlatpakPost
import FlatpakDart.FlatpakTypes
import FlatpakDart.Libflatpak

open Glz Native FlatpakNc Libflatpak

namespace RemoteBridge

/-- `post_ok`. -/
def postOk : List UInt8 := [0x01]

/-- `post_error`. -/
def postError (msg : CString) : List UInt8 := postFramedError 0x02 msg

/-- `if (c) flatpak_remote_set_…(remote, …)`. -/
def setIf (c : Prop) [Decidable c] (set : Remote → Remote) (remote : Remote) : Remote :=
  if c then set remote else remote

/-- `apply_config`: a non-empty subset is dropped, as not every libflatpak has a
setter for it. -/
def applyConfig (remote : Remote) (cfg : RemoteConfig) : Remote :=
  remote
  |> setIf (cfg.url.val ≠ []) (fun r => { r with url := some cfg.url.cStr })
  |> setIf (cfg.title.val ≠ []) (fun r => { r with title := some cfg.title.cStr })
  |> setIf (cfg.comment.val ≠ []) (fun r => { r with comment := some cfg.comment.cStr })
  |> setIf (cfg.homepage.val ≠ []) (fun r => { r with homepage := some cfg.homepage.cStr })
  |> setIf (cfg.defaultBranch.val ≠ [])
    (fun r => { r with defaultBranch := some cfg.defaultBranch.cStr })
  |> setIf (cfg.collectionId.val ≠ [])
    (fun r => { r with collectionId := some cfg.collectionId.cStr })
  |> setIf (cfg.filter.val ≠ []) (fun r => { r with filter := some cfg.filter.cStr })
  |> setIf (cfg.gpgKeyData.val ≠ [])
    (fun r => { r with gpgKey := some (cfg.gpgKeyData.val.map UInt8.ofBitVec) })
  |> setIf (0 ≤ cfg.gpgVerify) (fun r => { r with gpgVerify := some (cfg.gpgVerify != 0) })
  |> setIf (0 ≤ cfg.disabled) (fun r => { r with disabled := some (cfg.disabled != 0) })
  |> setIf (0 ≤ cfg.noDeps) (fun r => { r with nodeps := some (cfg.noDeps != 0) })
  |> setIf (0 ≤ cfg.priority) (fun r => { r with prio := some cfg.priority })

theorem setIf_name {c : Prop} [Decidable c] {set : Remote → Remote} (remote : Remote)
    (h : ∀ r, (set r).name = r.name) : (setIf c set remote).name = remote.name := by
  rw [setIf]
  split
  · exact h remote
  · rfl

@[simp] theorem applyConfig_name (remote : Remote) (cfg : RemoteConfig) :
    (applyConfig remote cfg).name = remote.name := by
  simp only [applyConfig, setIf_name, implies_true]

/-- `decode_config`: the sentinels, where the buffer is empty or refused. -/
def decodeConfig (buf : List UInt8) : RemoteConfig :=
  if buf ≠ [] then (readBinary buf {}).2 else {}

/-- A `.flatpakrepo` keyfile, as GLib reads its `Flatpak Repo` group, and what
`g_base64_decode` makes of a value. -/
structure KeyFile where
  getString : String → Option CString
  base64Decode : CString → List UInt8

/-- What the world does to the calls of one operation. -/
structure Environment where
  /-- the installation opens -/
  opens : Bool := true
  /-- reading and parsing the file at a path -/
  load : CString → Except CString KeyFile
  /-- `get_remote_by_name`, and the `modify_remote` of a forced removal -/
  get : Outcome
  disable : Outcome
  /-- the call that changes or lists the remotes -/
  call : Outcome
  /-- what the summary says of a remote -/
  refresh : Remote → Remote

variable {δ : Type}

/-- A `RemoteBridge` handle; its port is the one the frames go to. -/
structure Handle (δ : Type) where
  installation : δ

/-- `open_user_installation` and `flatpak_user_remote_create`. -/
def flatpakUserRemoteCreate (host : Host δ) (env : Environment) : Option (Handle δ) :=
  if env.opens then some ⟨host.userDir⟩ else none

/-- `open_system_installation` and `flatpak_system_remote_create`. -/
def flatpakSystemRemoteCreate (host : Host δ) (env : Environment) : Option (Handle δ) :=
  if env.opens then some ⟨host.systemDir⟩ else none

/-- The remotes of every directory but `d` are as they were. -/
def OnlyAt (d : δ) (w w' : World δ) : Prop := ∀ d', d' ≠ d → w' d' = w d'

theorem OnlyAt.refl (d : δ) (w : World δ) : OnlyAt d w w := fun _ _ => rfl

theorem OnlyAt.trans {d : δ} {w w' w'' : World δ} (h : OnlyAt d w w') (h' : OnlyAt d w' w'') :
    OnlyAt d w w'' := fun d' hd => (h' d' hd).trans (h d' hd)

section

variable [DecidableEq δ]

/-- `ok ? post_ok(b->port) : post_error(b->port, err->message)`. -/
def Handle.finish (b : Handle δ) (w : World δ) :
    Except CString Remotes → World δ × List (List UInt8)
  | .ok rs => (Function.update w b.installation rs, [postOk])
  | .error msg => (w, [postError msg])

def flatpakUserRemoteAdd (b : Handle δ) (name : CString) (configBuf : List UInt8)
    (ifNotExists : Bool) (env : Environment) (w : World δ) : World δ × List (List UInt8) :=
  let cfg := decodeConfig configBuf
  let remote := applyConfig { name := name } cfg
  b.finish w (addRemote env.call (w b.installation) remote ifNotExists)

/-- The remote a `.flatpakrepo` keyfile describes. -/
def remoteOfKeyFile (name : CString) (kf : KeyFile) : Remote :=
  let remote : Remote :=
    { name := name
      url := kf.getString "Url"
      title := kf.getString "Title"
      comment := kf.getString "Comment"
      description := kf.getString "Description"
      homepage := kf.getString "Homepage"
      defaultBranch := kf.getString "DefaultBranch" }
  match kf.getString "GPGKey" with
  | none => remote
  | some gpgKeyB64 =>
    let keyData := kf.base64Decode gpgKeyB64
    -- verified only with a key
    if keyData ≠ [] then { remote with gpgKey := some keyData, gpgVerify := some true } else remote

@[simp] theorem remoteOfKeyFile_name (name : CString) (kf : KeyFile) :
    (remoteOfKeyFile name kf).name = name := by
  simp only [remoteOfKeyFile]
  split
  · rfl
  · split <;> rfl

def flatpakUserRemoteAddFromFile (b : Handle δ) (name flatpakrepoPath : CString)
    (ifNotExists : Bool) (env : Environment) (w : World δ) : World δ × List (List UInt8) :=
  match env.load flatpakrepoPath with
  | .error msg => (w, [postError msg])
  | .ok kf =>
    b.finish w (addRemote env.call (w b.installation) (remoteOfKeyFile name kf) ifNotExists)

def flatpakUserRemoteModify (b : Handle δ) (name : CString) (changesBuf : List UInt8)
    (env : Environment) (w : World δ) : World δ × List (List UInt8) :=
  let cfg := decodeConfig changesBuf
  match getRemoteByName env.get (w b.installation) name with
  | .error msg => (w, [postError msg])
  | .ok remote => b.finish w (modifyRemote env.call (w b.installation) (applyConfig remote cfg))

/-- The first half of a forced removal disables the remote; its failure is
ignored. -/
def disableFirst (b : Handle δ) (name : CString) (env : Environment) (w : World δ) : World δ :=
  -- the first step of `force`, which may fail by itself
  match getRemoteByName env.get (w b.installation) name with
  | .error _ => w
  | .ok remote =>
    match modifyRemote env.disable (w b.installation) { remote with disabled := some true } with
    | .error _ => w
    | .ok rs => Function.update w b.installation rs

def flatpakUserRemoteRemove (b : Handle δ) (name : CString) (force : Bool) (env : Environment)
    (w : World δ) : World δ × List (List UInt8) :=
  let w := if force then disableFirst b name env w else w
  b.finish w (removeRemote env.call (w b.installation) name)

def flatpakUserRemoteUpdate (b : Handle δ) (name : CString) (env : Environment) (w : World δ) :
    World δ × List (List UInt8) :=
  b.finish w (updateRemoteSync env.call env.refresh (w b.installation) name)

/-! The system functions are the user ones; libflatpak escalates by itself. -/

def flatpakSystemRemoteAdd : Handle δ → CString → List UInt8 → Bool → Environment → World δ →
    World δ × List (List UInt8) := flatpakUserRemoteAdd

def flatpakSystemRemoteAddFromFile : Handle δ → CString → CString → Bool → Environment →
    World δ → World δ × List (List UInt8) := flatpakUserRemoteAddFromFile

def flatpakSystemRemoteModify : Handle δ → CString → List UInt8 → Environment → World δ →
    World δ × List (List UInt8) := flatpakUserRemoteModify

def flatpakSystemRemoteRemove : Handle δ → CString → Bool → Environment → World δ →
    World δ × List (List UInt8) := flatpakUserRemoteRemove

def flatpakSystemRemoteUpdate : Handle δ → CString → Environment → World δ →
    World δ × List (List UInt8) := flatpakUserRemoteUpdate

/-! ### Each function keeps to the installation of its handle -/

theorem onlyAt_update (d : δ) (w : World δ) (rs : Remotes) :
    OnlyAt d w (Function.update w d rs) := fun _ hd => Function.update_of_ne hd rs w

theorem Handle.finish_frame (b : Handle δ) (w : World δ) (r : Except CString Remotes) :
    OnlyAt b.installation w (b.finish w r).1 := by
  cases r with
  | ok rs => exact onlyAt_update _ w rs
  | error msg => exact .refl _ w

variable (b : Handle δ) (name : CString) (env : Environment) (w : World δ)

theorem add_frame (buf : List UInt8) (ifNotExists : Bool) :
    OnlyAt b.installation w (flatpakUserRemoteAdd b name buf ifNotExists env w).1 :=
  b.finish_frame w _

theorem addFromFile_frame (path : CString) (ifNotExists : Bool) :
    OnlyAt b.installation w (flatpakUserRemoteAddFromFile b name path ifNotExists env w).1 := by
  rw [flatpakUserRemoteAddFromFile]
  split
  · exact .refl _ w
  · exact b.finish_frame w _

theorem modify_frame (buf : List UInt8) :
    OnlyAt b.installation w (flatpakUserRemoteModify b name buf env w).1 := by
  simp only [flatpakUserRemoteModify]
  split
  · exact .refl _ w
  · exact b.finish_frame w _

theorem disableFirst_frame : OnlyAt b.installation w (disableFirst b name env w) := by
  rw [disableFirst]
  split
  · exact .refl _ w
  · split
    · exact .refl _ w
    · exact onlyAt_update _ w _

theorem remove_frame (force : Bool) :
    OnlyAt b.installation w (flatpakUserRemoteRemove b name force env w).1 := by
  simp only [flatpakUserRemoteRemove]
  refine OnlyAt.trans ?_ (b.finish_frame _ _)
  split
  · exact disableFirst_frame b name env w
  · exact .refl _ w

theorem update_frame : OnlyAt b.installation w (flatpakUserRemoteUpdate b name env w).1 :=
  b.finish_frame w _

end

/-! ### Queries -/

/-- The `FlatpakRemoteInfo` of a remote, filled in alike by `list_remotes` and
`get_remote_info`. -/
def remoteInfo (remote : Remote) : FlatpakRemoteInfo where
  name := .ofCString remote.name
  url := safeStr remote.url
  title := safeStr remote.title
  comment := safeStr remote.comment
  description := safeStr remote.description
  homepage := safeStr remote.homepage
  defaultBranch := safeStr remote.defaultBranch
  subset := .lit "" (by decide)
  collectionId := safeStr remote.collectionId
  filter := safeStr remote.filter
  remoteType := remote.remoteType
  disabled := remote.disabled.getD false
  gpgVerify := remote.gpgVerify.getD true
  noDeps := remote.nodeps.getD false
  priority := remote.getPrio

/-- `post_glaze(port, 0x01, info)`. -/
def infoFrame (remote : Remote) : List UInt8 := postFramed 0x01 (writeBinary (remoteInfo remote))

/-- `InstallationReader::list_remotes`, on the installation of the reader. -/
def listRemotes (installation : δ) (env : Environment) (w : World δ) : List (List UInt8) :=
  match Libflatpak.listRemotes env.call (w installation) with
  | .error msg => [postError msg]
  | .ok remotes => remotes.map infoFrame ++ [[0xFF]]

/-- `InstallationReader::get_remote_info`. -/
def getRemoteInfo (installation : δ) (name : CString) (env : Environment) (w : World δ) :
    List (List UInt8) :=
  match getRemoteByName env.get (w installation) name with
  | .error msg => [postError msg]
  | .ok remote => [infoFrame remote, [0xFF]]

end RemoteBridge
