/-
What the reader posts (`native/src/installation_reader.cpp`).

An operation is the list of the frames it posts to its port, given what libflatpak and
GLib answer to the calls inside it.  Remotes are queried in `RemoteBridge`.
-/
import FlatpakDart.AppMetadata
import FlatpakDart.LaunchTarget
import FlatpakDart.SerialQueue
import FlatpakDart.WireAgreement

open Glz Native FlatpakNc Glib AppMetadata

namespace Libflatpak

/-- The getters of a `FlatpakInstalledRef` that its name does not give. -/
structure Details where
  commit : Option CString
  collectionId : Option CString
  origin : Option CString
  latestCommit : Option CString
  deployDir : Option CString
  installedSize : UInt64
  eol : Option CString
  eolRebase : Option CString
  appdataName : Option CString
  appdataSummary : Option CString
  appdataVersion : Option CString

/-- `FlatpakRemoteRef`. -/
structure RemoteRef where
  kind : RefKind
  name : CString
  arch : CString
  branch : CString
  commit : Option CString
  collectionId : Option CString
  /-- where it has metadata, and they parse -/
  metadata : Option KeyFile

/-- `FlatpakInstance`. -/
structure Instance where
  app : Option CString
  runtime : Option CString
  id : Option CString
  arch : Option CString
  branch : Option CString
  commit : Option CString
  pid : Int32
  childPid : Int32
  isRunning : Bool

/-- The getters of a `FlatpakInstallation`. -/
structure InstallationInfo where
  id : Option CString
  displayName : Option CString
  path : Option CString
  isUser : Bool
  priority : Int32

/-- The `GError` of a launch. -/
structure LaunchError where
  /-- `FLATPAK_ERROR_NOT_INSTALLED` -/
  notInstalled : Bool
  message : CString

end Libflatpak

open Libflatpak

namespace InstallationReader

/-! ### Posting -/

def postGlaze {T : Type} [Reflectable T] (value : T) : List UInt8 :=
  postFramed 0x01 (writeBinary value)

def postSentinel : List UInt8 := [0xFF]

def postError (msg : CString) : List UInt8 := postFramedError 0x02 msg

/-- A failure to launch or stop, where 0x02 says that nothing matched. -/
def postOpError (msg : CString) : List UInt8 := postFramedError 0x03 msg

def postString (s : CString) : List UInt8 := postFramedError 0x01 s

/-! ### The structs -/

def kindName : RefKind → CppString
  | .app => .lit "app" (by decide)
  | .runtime => .lit "runtime" (by decide)

def installedApp (inst : Installation) (kind : RefKind) (iref : InstalledRef) (d : Details) :
    InstalledApp where
  ref :=
    { kind := kindName kind
      name := .ofCString iref.name
      arch := .ofCString iref.arch
      branch := .ofCString iref.branch
      commit := safeStr d.commit
      collectionId := safeStr d.collectionId }
  origin := safeStr d.origin
  latestCommit := safeStr d.latestCommit
  installedPath := safeStr d.deployDir
  installedSize := d.installedSize
  isCurrentArch := inst.isCurrent iref
  endOfLife := d.eol.isSome
  endOfLifeRebase := safeStr d.eolRebase
  appDataName := safeStr d.appdataName
  appDataSummary := safeStr d.appdataSummary
  appDataVersion := safeStr d.appdataVersion
  appDataIcon := .empty

def remoteRef (fref : RemoteRef) : FpRef where
  kind := kindName fref.kind
  name := .ofCString fref.name
  arch := .ofCString fref.arch
  branch := .ofCString fref.branch
  commit := safeStr fref.commit
  collectionId := safeStr fref.collectionId

/-- An update leaves out the collection id. -/
def updateRef (iref : InstalledRef) (d : Details) : FpRef where
  kind := kindName iref.kind
  name := .ofCString iref.name
  arch := .ofCString iref.arch
  branch := .ofCString iref.branch
  commit := safeStr d.commit
  collectionId := .empty

def fpInstance (inst : Instance) : FpInstance where
  appId := safeStr inst.app
  instanceId := safeStr inst.id
  arch := safeStr inst.arch
  branch := safeStr inst.branch
  commit := safeStr inst.commit
  runtime := safeStr inst.runtime
  pid := inst.pid
  childPid := inst.childPid
  isRunning := inst.isRunning

def installationInfo (inst : InstallationInfo) : FpInstallationInfo where
  id := safeStr inst.id
  displayName := safeStr inst.displayName
  path := safeStr inst.path
  isUser := inst.isUser
  priority := inst.priority

/-! ### Metadata -/

/-- The sections that hold permissions. -/
def sections : List CString :=
  [context, .lit "Session Bus Policy" (by decide), .lit "System Bus Policy" (by decide),
    .lit "Environment" (by decide)]

def sectionEntries (kf : KeyFile) (sec : CString) : List FpMetadataEntry :=
  match kf.getKeys sec with
  | none => []
  | some keys => keys.val.map fun key =>
    ⟨.ofCString sec, .ofCString key, safeStr (kf.getString sec key)⟩

/-- The two nested loops over sections and keys. -/
def entries (kf : KeyFile) : List FpMetadataEntry := sections.flatMap (sectionEntries kf)

theorem sectionEntries_length (kf : KeyFile) (sec : CString) :
    (sectionEntries kf sec).length < 2 ^ 60 := by
  rw [sectionEntries]
  split
  · exact Nat.two_pow_pos 60
  · next keys _ =>
    rw [List.length_map]
    exact keys.2

theorem entries_length (kf : KeyFile) : (entries kf).length < 2 ^ 63 := by
  have hlen := sectionEntries_length kf
  simp only [entries, sections, List.flatMap_cons, List.flatMap_nil, List.length_append,
    List.length_nil]
  have h₁ := hlen context
  have h₂ := hlen (.lit "Session Bus Policy" (by decide))
  have h₃ := hlen (.lit "System Bus Policy" (by decide))
  have h₄ := hlen (.lit "Environment" (by decide))
  omega

/-- What the calls on installed refs answer. -/
structure Environment where
  installation : Installation
  details : InstalledRef → Details
  /-- the error `get_installed_app_ref` leaves, should it leave one -/
  notInstalled : Option CString
  loadMetadata : InstalledRef → Except (Option CString) (List UInt8)
  loadFromData : List UInt8 → Except (Option CString) KeyFile

/-- An installed app and its metadata, or the message of what went wrong. -/
def appMetadata (env : Environment) (app : CString) (arch branch : Option CString) :
    Except CString (InstalledRef × KeyFile) :=
  match getInstalledAppRef env.installation app arch branch with
  | none => .error (env.notInstalled.getD (.lit "app not installed" (by decide)))
  | some iref =>
    match env.loadMetadata iref with
    | .error err => .error (err.getD (.lit "failed to load metadata" (by decide)))
    | .ok bytes =>
      match env.loadFromData bytes with
      | .error err => .error (err.getD (.lit "failed to parse metadata" (by decide)))
      | .ok kf => .ok (iref, kf)

/-! ### Installed refs and remotes -/

def listApps (env : Environment) (includeRuntimes : Bool) : List (List UInt8) :=
  match env.installation.listInstalledRefs with
  | .error msg => [postError msg]
  | .ok refs =>
    (refs.filter fun iref => includeRuntimes || iref.kind = .app).map
        (fun iref =>
          postGlaze (installedApp env.installation iref.kind iref (env.details iref))) ++
      [postSentinel]

/-- The ref is one that was asked for. -/
def wantedRemoteRef (arch : Option CString) (includeRuntimes waylandOnly : Bool)
    (fref : RemoteRef) : Bool :=
  let isApp : Bool := fref.kind = .app
  (includeRuntimes || isApp) && (hint arch).all (fref.arch = ·) &&
    -- only an app can lack the wayland socket
    !(waylandOnly && isApp &&
      !fref.metadata.any (metadataRequestsSocket · (.lit "wayland" (by decide))))

/-- `list_remote_apps`; `refs` is what `list_remote_refs_sync` answers. -/
def listRemoteApps (refs : Except CString (List RemoteRef)) (arch : Option CString)
    (includeRuntimes waylandOnly : Bool) : List (List UInt8) :=
  match refs with
  | .error msg => [postError msg]
  | .ok refs =>
    (refs.filter (wantedRemoteRef arch includeRuntimes waylandOnly)).map
        (fun fref => postGlaze (remoteRef fref)) ++
      [postSentinel]

def getAppInfo (env : Environment) (app : CString) (arch branch : Option CString) :
    List (List UInt8) :=
  match getInstalledAppRef env.installation app arch branch with
  | none => [postError (env.notInstalled.getD (.lit "app not installed" (by decide)))]
  | some iref =>
    [postGlaze (installedApp env.installation .app iref (env.details iref)), postSentinel]

def getPermissions (env : Environment) (app : CString) : List (List UInt8) :=
  match appMetadata env app none none with
  | .error msg => [postError msg]
  | .ok (_, kf) => (entries kf).map postGlaze ++ [postSentinel]

/-- `check_updates`; `updates` is what `list_installed_refs_for_update` answers. -/
def checkUpdates (env : Environment) (updates : Except CString (List InstalledRef)) :
    List (List UInt8) :=
  match updates with
  | .error msg => [postError msg]
  | .ok updates =>
    updates.map (fun iref => postGlaze (updateRef iref (env.details iref))) ++ [postSentinel]

/-- `fetch_remote_metadata`; `parsed` is what `flatpak_ref_parse` answers, `fetched` what
`fetch_remote_metadata_sync` does for such a ref. -/
def fetchRemoteMetadata {R : Type} (env : Environment) (parsed : Except (Option CString) R)
    (fetched : R → Except (Option CString) (List UInt8)) : List (List UInt8) :=
  match parsed with
  | .error err => [postError (err.getD (.lit "invalid ref" (by decide)))]
  | .ok fref =>
    match fetched fref with
    | .error err => [postError (err.getD (.lit "failed to fetch metadata" (by decide)))]
    | .ok bytes =>
      match env.loadFromData bytes with
      | .error err => [postError (err.getD (.lit "failed to parse metadata" (by decide)))]
      | .ok kf =>
        -- one frame with all the entries
        [postFramed 0x01 (Dart.GlazeCodec.writeEntries ⟨entries kf, entries_length kf⟩),
          postSentinel]

/-! ### Instances -/

/-- What `launch_impl` hands to `launch_full`, or the frame it answers with. -/
def launchArguments (inst : Installation) (app : CString) (arch branch : Option CString) :
    Except (List UInt8) (CString × CString) :=
  match hint arch, hint branch with
  | some arch, some branch => .ok (arch, branch)
  | arch, branch =>
    match resolveLaunchTarget inst app arch branch with
    | .ok (some (a, b)) => .ok (arch.getD a, branch.getD b)
    | .ok none => .error (postError (.lit "app not installed" (by decide)))
    | .error err =>
      if err.bytes = [] then .error (postError (.lit "app not installed" (by decide)))
      else .error (postOpError err)

/-- The instance that is posted; `reread` is what `reread_child_pid` finds for its id. -/
def launchedInstance (inst : Instance) (reread : CString → Int32) : FpInstance :=
  let info := fpInstance inst
  match inst.id.filter (·.bytes ≠ []) with
  | some id => if info.childPid ≤ 0 then { info with childPid := reread id } else info
  | none => info

/-- `launch_impl`; `launchFull` is what `launch_full` answers. -/
def launchImpl (inst : Installation) (app : CString) (arch branch commit : Option CString)
    (launchFull : CString → CString → Option CString → Except (Option LaunchError) Instance)
    (reread : CString → Int32) : List (List UInt8) :=
  match launchArguments inst app arch branch with
  | .error frame => [frame]
  | .ok (useArch, useBranch) =>
    match launchFull useArch useBranch (hint commit) with
    | .error none => [postOpError (.lit "launch failed" (by decide))]
    | .error (some err) => if err.notInstalled then [postError err.message]
      else [postOpError err.message]
    | .ok inst => [postGlaze (launchedInstance inst reread), postSentinel]

theorem launchArguments_error {inst : Installation} {app : CString} {arch branch : Option CString}
    {frame : List UInt8} (h : launchArguments inst app arch branch = .error frame) :
    ∃ msg, frame = postError msg ∨ frame = postOpError msg := by
  rw [launchArguments] at h
  split at h
  · exact absurd h (by simp)
  · split at h
    · exact absurd h (by simp)
    · exact ⟨_, .inl (Except.error.inj h).symm⟩
    · split at h
      · exact ⟨_, .inl (Except.error.inj h).symm⟩
      · exact ⟨_, .inr (Except.error.inj h).symm⟩

/-- The three ways in which a launch is answered. -/
inductive LaunchAnswer : List (List UInt8) → Prop
  | error (msg : CString) : LaunchAnswer [postError msg]
  | opError (msg : CString) : LaunchAnswer [postOpError msg]
  | launched (info : FpInstance) : LaunchAnswer [postGlaze info, postSentinel]

theorem launchImpl_answer (inst : Installation) (app : CString)
    (arch branch commit : Option CString)
    (launchFull : CString → CString → Option CString → Except (Option LaunchError) Instance)
    (reread : CString → Int32) :
    LaunchAnswer (launchImpl inst app arch branch commit launchFull reread) := by
  rw [launchImpl]
  split
  · next frame harguments =>
    obtain ⟨msg, rfl | rfl⟩ := launchArguments_error harguments
    · exact .error msg
    · exact .opError msg
  · split
    · exact .opError _
    · split
      · exact .error _
      · exact .opError _
    · exact .launched _

/-- What becomes of a queued launch: the loop answers for one that the destructor finds
waiting. -/
def launch (cancelled : Bool) (inst : Installation) (app : CString)
    (arch branch commit : Option CString)
    (launchFull : CString → CString → Option CString → Except (Option LaunchError) Instance)
    (reread : CString → Int32) : List (List UInt8) :=
  if cancelled then
    [postOpError (.lit "reader closed before launch started" (by decide +kernel))]
  else launchImpl inst app arch branch commit launchFull reread

/-- The process that is signalled: the app, or else its sandbox. -/
def stopTarget (inst : Instance) : Int32 := if inst.childPid ≤ 0 then inst.pid else inst.childPid

/-- `stop`; an instance comes with what `signal_instance_process` answers for it. -/
def stop (instances : Option (List (Instance × Bool))) (app : CString) : List (List UInt8) :=
  let matched := (instances.getD []).filter fun i => i.1.app = some app && i.1.isRunning
  let signalled := matched.filter fun i => 0 < stopTarget i.1 && i.2
  if matched.length = 0 then
    [postError (.lit "no running instance for app_id" (by decide +kernel))]
  else if signalled.length = 0 then
    [postOpError (.lit "matched running instance(s) but could not signal any"
      (by decide +kernel))]
  else [postSentinel]

/-- `list_running`; `instances` is what `flatpak_instance_get_all` answers. -/
def listRunning (instances : Option (List Instance)) : List (List UInt8) :=
  match instances with
  | none => [postSentinel]
  | some instances => instances.map (fun inst => postGlaze (fpInstance inst)) ++ [postSentinel]

/-! ### Strings -/

/-- `get_version`, through a buffer of 32 bytes. -/
def getVersion (major minor micro : ℕ) : List (List UInt8) :=
  let version := toString major ++ "." ++ toString minor ++ "." ++ toString micro
  [postString (.ofBytes ((Text.utf8Encode version).take 31)), postSentinel]

def getDefaultArch (arch : Option CString) : List (List UInt8) :=
  [postString (safeStr arch).cStr, postSentinel]

def getSupportedArches (arches : Option Strv) : List (List UInt8) :=
  match arches with
  | none => [postSentinel]
  | some arches => arches.val.map postString ++ [postSentinel]

/-- `list_system_installations`; `installs` is what `get_system_installations` answers. -/
def listSystemInstallations (installs : Except (Option CString) (List InstallationInfo)) :
    List (List UInt8) :=
  match installs with
  | .error err =>
    [postError (err.getD (.lit "failed to list system installations" (by decide +kernel)))]
  | .ok installs =>
    installs.map (fun inst => postGlaze (installationInfo inst)) ++ [postSentinel]

def getRuntimeRef (env : Environment) (app : CString) (arch branch : Option CString) :
    List (List UInt8) :=
  match appMetadata env app arch branch with
  | .error msg => [postError msg]
  | .ok (_, kf) =>
    match (kf.getString (.lit "Application" (by decide)) (.lit "runtime" (by decide))).filter
        (·.bytes ≠ []) with
    | none => [postError (.lit "no runtime declared" (by decide))]
    | some runtime => [postString runtime, postSentinel]

/-- `is_ref_installed`; `parsed` is what `flatpak_ref_parse` answers. -/
def isRefInstalled (inst : Installation) (parsed : Except (Option CString) InstalledRef) :
    List (List UInt8) :=
  match parsed with
  | .error err => [postError (err.getD (.lit "invalid ref" (by decide)))]
  | .ok fref =>
    match inst.getInstalledRef fref.kind fref.name (some fref.arch) fref.branch with
    | some _ => [postString (.lit "1" (by decide)), postSentinel]
    | none => [postString (.lit "0" (by decide)), postSentinel]

/-- `ext_iref` for one of the branches. -/
def extensionInstalled (inst : Installation) (arch : CString) (ext : RequiredExtension) : Bool :=
  ext.branches.any fun branch => (inst.getInstalledRef .runtime ext.id (some arch) branch).isSome

/-- `ref_str`, as C reads it. -/
def extensionRef (arch : CString) (ext : RequiredExtension) : CString :=
  .ofBytes (Text.utf8Encode "runtime/" ++ ext.id.bytes ++ Text.utf8Encode "/" ++ arch.bytes ++
    Text.utf8Encode "/" ++ (ext.branches.head ext.nonempty).bytes)

def listMissingExtensions (env : Environment) (app : CString) (arch branch : Option CString) :
    List (List UInt8) :=
  match appMetadata env app arch branch with
  | .error msg => [postError msg]
  | .ok (iref, kf) =>
    ((requiredExtensions kf iref.branch).filter
        (!extensionInstalled env.installation iref.arch ·)).map
        (fun ext => postString (extensionRef iref.arch ext)) ++
      [postSentinel]

/-! ### AppStream -/

/-- `AppstreamRequest`, but for its port. -/
structure AppstreamRequest where
  remote : CString
  arch : CString
  deriving DecidableEq

/-- `refresh_appstream_impl`; `result` is what `update_appstream_sync` answers. -/
def refreshAppstreamImpl (result : Except (Option CString) Unit) : List (List UInt8) :=
  match result with
  | .error err => [postError (err.getD (.lit "appstream refresh failed" (by decide)))]
  | .ok () => [postSentinel]

/-- The cancel callback of `appstream_queue_`. -/
def refreshAppstreamCancelled : List (List UInt8) :=
  [postError (.lit "reader closed before appstream refresh started" (by decide +kernel))]

/-- `refresh_appstream`, where the queue refuses the request. -/
def refreshAppstreamRefused : List (List UInt8) :=
  [postError (.lit "reader is closed" (by decide))]

/-- `refresh_appstream`: what a request was answered so far, where `result` is what the
call inside it answers. -/
def refreshAppstream (result : SerialQueue.Call AppstreamRequest → Except (Option CString) Unit)
    (q : SerialQueue.State AppstreamRequest) (c : SerialQueue.Call AppstreamRequest) :
    List (List UInt8) :=
  (q.refused.filter (· = c)).flatMap (fun _ => refreshAppstreamRefused) ++
    ((q.runCalls.filter (· = c)).flatMap (fun c => refreshAppstreamImpl (result c)) ++
      (q.cancelCalls.filter (· = c)).flatMap fun _ => refreshAppstreamCancelled)

end InstallationReader
