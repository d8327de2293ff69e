/-
What the native side posts is what the Dart side waits for
(`native/src/installation_reader.cpp` and `native/src/user_remote_bridge.cpp` against
`lib/src/installation.dart` and `lib/src/remote_manager.dart`).

* `refreshAppstream_conveys` — a request is answered once, by the call or by the queue in
  its stead;
* `operations_conclude` — whatever the calls inside an operation answer, its frames are an
  answer that its listener understands.
-/
import FlatpakDart.OperationAnswers
import FlatpakDart.RemoteManager
import FlatpakDart.SerialQueue

open Native FlatpakNc Libflatpak Dart PortListener

namespace OperationAnswers

/-! ### Reader operations -/

section Reader

open InstallationReader

variable (env : InstallationReader.Environment) (app : CString) (arch branch : Option CString)

theorem listApps_conveys (includeRuntimes : Bool) :
    Conveys apps [0xFF] id FlatpakInstallation.listApplications
      (listApps env includeRuntimes) := by
  rw [listApps]
  split
  · exact collect_failed_conveys apps true notFound_message _
  · exact collect_map_conveys apps true .notFound
      (fun iref : InstalledRef =>
        installedApp env.installation iref.kind iref (env.details iref)) _

theorem listRemotes_conveys {δ : Type} (d : δ) (renv : RemoteBridge.Environment) (w : World δ) :
    Conveys remotes [0xFF] id FlatpakInstallation.listRemotes
      (RemoteBridge.listRemotes d renv w) := by
  rw [RemoteBridge.listRemotes]
  split
  · exact collect_failed_conveys remotes true remote_message _
  · exact collect_map_conveys remotes true .remote RemoteBridge.remoteInfo _

theorem getRemoteInfo_conveys {δ : Type} (d : δ) (name : CString) (renv : RemoteBridge.Environment)
    (w : World δ) :
    Conveys remotes [0xFF] (fun b => [b]) FlatpakInstallation.getRemoteInfo
      (RemoteBridge.getRemoteInfo d name renv w) := by
  rw [RemoteBridge.getRemoteInfo]
  split
  · exact first_failed_conveys remotes notFound_message _
  · exact first_conveys remotes .notFound _

theorem listRemoteApps_streams (listed : Except CString (List RemoteRef))
    (includeRuntimes waylandOnly : Bool) :
    Streams refs FlatpakInstallation.listRemoteApps
      (listRemoteApps listed arch includeRuntimes waylandOnly) := by
  cases listed with
  | error msg => exact failed_streams msg
  | ok frefs =>
    have h := ended_streams
      ((frefs.filter (wantedRemoteRef arch includeRuntimes waylandOnly)).map remoteRef)
    rwa [List.map_map] at h

theorem getAppInfo_conveys :
    Conveys apps [0xFF] (fun b => [b]) FlatpakInstallation.getAppInfo
      (getAppInfo env app arch branch) := by
  rw [getAppInfo]
  split
  · exact first_failed_conveys apps notFound_message _
  · exact first_conveys apps .notFound _

theorem getPermissions_conveys :
    Conveys permissions [0xFF] id FlatpakInstallation.getPermissions (getPermissions env app) := by
  rw [getPermissions]
  split
  · exact collect_failed_conveys permissions false notFound_message _
  · exact collect_conveys permissions false .notFound _

theorem checkUpdates_conveys (updates : Except CString (List InstalledRef)) :
    Conveys refs [0xFF] id FlatpakInstallation.checkForUpdates (checkUpdates env updates) := by
  cases updates with
  | error msg => exact collect_failed_conveys refs true remote_message msg
  | ok irefs =>
    exact collect_map_conveys refs true .remote
      (fun iref : InstalledRef => updateRef iref (env.details iref)) irefs

theorem fetchRemoteMetadata_conveys {R : Type} (parsed : Except (Option CString) R)
    (fetched : R → Except (Option CString) (List UInt8)) :
    Conveys metadata [0xFF] (fun b => [b]) FlatpakInstallation.fetchRemoteMetadata
      (fetchRemoteMetadata env parsed fetched) := by
  simp only [fetchRemoteMetadata]
  split
  · exact first_failed_conveys metadata notFound_message _
  · split
    · exact first_failed_conveys metadata notFound_message _
    · split
      · exact first_failed_conveys metadata notFound_message _
      · exact first_conveys metadata .notFound _

theorem launch_notFound_conveys (msg : CString) :
    Conveys instances [0xFF] (fun b => [b]) FlatpakInstallation.launch [postError msg] :=
  failed_conveys rfl notFound_message rfl launch_notFound_branch msg

theorem launch_failed_conveys (msg : CString) :
    Conveys instances [0xFF] (fun b => [b]) FlatpakInstallation.launch [postOpError msg] :=
  failed_conveys rfl launch_message rfl launch_failed_branch msg

theorem launch_conveys (cancelled : Bool) (inst : Installation) (commit : Option CString)
    (launchFull : CString → CString → Option CString → Except (Option LaunchError) Instance)
    (reread : CString → Int32) :
    Conveys instances [0xFF] (fun b => [b]) FlatpakInstallation.launch
      (launch cancelled inst app arch branch commit launchFull reread) := by
  rw [launch]
  split
  · exact launch_failed_conveys _
  · have hanswer := launchImpl_answer inst app arch branch commit launchFull reread
    generalize launchImpl inst app arch branch commit launchFull reread = frames at hanswer ⊢
    cases hanswer with
    | error msg => exact launch_notFound_conveys msg
    | opError msg => exact launch_failed_conveys msg
    | launched info => exact launched_conveys info

theorem stop_conveys (listed : Option (List (Instance × Bool))) :
    Conveys none [0xFF] (fun () => []) FlatpakInstallation.stop (stop listed app) := by
  simp only [stop]
  split
  · exact failed_conveys rfl notFound_message rfl (await_branch rfl) _
  · split
    · exact failed_conveys rfl stop_message rfl (await_branch rfl) _
    · exact ended_conveys rfl rfl

theorem listRunning_conveys (listed : Option (List Instance)) :
    Conveys instances [0xFF] id FlatpakInstallation.listRunning (listRunning listed) := by
  cases listed with
  | none => exact collect_conveys instances true .notFound []
  | some insts => exact collect_map_conveys instances true .notFound fpInstance insts

theorem getVersion_conveys (major minor micro : ℕ) :
    Conveys strings [0xFF] (fun b => [b]) FlatpakInstallation.getVersion
      (getVersion major minor micro) :=
  readSingleString_conveys _

theorem getDefaultArch_conveys :
    Conveys strings [0xFF] (fun b => [b]) FlatpakInstallation.getDefaultArch
      (getDefaultArch arch) :=
  readSingleString_conveys _

theorem getSupportedArches_conveys (arches : Option Glib.Strv) :
    Conveys strings [0xFF] id FlatpakInstallation.getSupportedArches
      (getSupportedArches arches) := by
  cases arches with
  | none => exact collect_conveys strings false .remote []
  | some arches => exact collect_conveys strings false .remote arches.val

theorem listSystemInstallations_conveys
    (installs : Except (Option CString) (List InstallationInfo)) :
    Conveys installations [0xFF] id FlatpakInstallation.listSystemInstallations
      (listSystemInstallations installs) := by
  cases installs with
  | error err => exact collect_failed_conveys installations true remote_message _
  | ok insts => exact collect_map_conveys installations true .remote installationInfo insts

theorem getRuntimeRef_conveys :
    Conveys strings [0xFF] (fun b => [b]) FlatpakInstallation.getRuntimeRef
      (getRuntimeRef env app arch branch) := by
  rw [getRuntimeRef]
  split
  · exact readSingleString_failed_conveys _
  · split
    · exact readSingleString_failed_conveys _
    · exact readSingleString_conveys _

theorem isRefInstalled_conveys (inst : Installation)
    (parsed : Except (Option CString) InstalledRef) :
    Conveys strings [0xFF] (fun b => [b]) FlatpakInstallation.isRefInstalled
      (isRefInstalled inst parsed) := by
  cases parsed with
  | error err => exact readSingleString_failed_conveys _
  | ok fref =>
    simp only [isRefInstalled]
    split
    · exact readSingleString_conveys _
    · exact readSingleString_conveys _

theorem listMissingExtensions_conveys :
    Conveys strings [0xFF] id FlatpakInstallation.listMissingExtensions
      (listMissingExtensions env app arch branch) := by
  rw [listMissingExtensions]
  split
  · exact collect_failed_conveys strings false remote_message _
  · next iref kf _ => exact collect_map_conveys strings false .remote (extensionRef iref.arch) _

/-! ### The queue of AppStream requests -/

theorem filter_of_mem {l : List (SerialQueue.Call AppstreamRequest)}
    {c : SerialQueue.Call AppstreamRequest} (hl : l.Nodup) (hc : c ∈ l) :
    l.filter (· = c) = [c] := by
  rw [List.filter_eq, List.count_eq_one_of_mem hl hc, List.replicate_one]

theorem filter_of_notMem {l : List (SerialQueue.Call AppstreamRequest)}
    {c : SerialQueue.Call AppstreamRequest} (hc : c ∉ l) : l.filter (· = c) = [] := by
  rw [List.filter_eq, List.count_eq_zero_of_not_mem hc, List.replicate_zero]

/-- No request is handled twice, and no refused one is handled. -/
theorem handled_distinct {q : SerialQueue.State AppstreamRequest}
    {as : List (SerialQueue.Action AppstreamRequest)}
    (h : Machine.run SerialQueue.step SerialQueue.init as = some q) :
    (q.runCalls ++ q.cancelCalls ++ q.refused).Nodup := by
  have hserved : q.runCalls ++ q.cancelCalls <+: q.accepted :=
    FifoServer.served_initial (SerialQueue.abs_balanced h)
  exact (SerialQueue.run_inv h).distinct.sublist (hserved.sublist.append_right q.refused)

theorem refreshAppstream_failed_conveys (msg : CString) :
    Conveys none [0xFF] (fun () => []) FlatpakInstallation.refreshAppstream [postError msg] :=
  failed_conveys rfl remote_message rfl (await_branch rfl) msg

/-- A request that was refused or whose turn came is answered once. -/
theorem refreshAppstream_conveys {q : SerialQueue.State AppstreamRequest}
    {as : List (SerialQueue.Action AppstreamRequest)}
    (h : Machine.run SerialQueue.step SerialQueue.init as = some q)
    (result : SerialQueue.Call AppstreamRequest → Except (Option CString) Unit)
    {c : SerialQueue.Call AppstreamRequest}
    (hc : c ∈ q.refused ∨ c ∈ q.runCalls ∨ c ∈ q.cancelCalls) :
    Conveys none [0xFF] (fun () => []) FlatpakInstallation.refreshAppstream
      (refreshAppstream result q c) := by
  obtain ⟨hserved, hrefused, hdisjoint⟩ := List.nodup_append.mp (handled_distinct h)
  obtain ⟨hrun, hcancel, hboth⟩ := List.nodup_append.mp hserved
  rw [refreshAppstream]
  rcases hc with hc | hc | hc
  · have hnot : c ∉ q.runCalls ++ q.cancelCalls := fun hmem => hdisjoint c hmem c hc rfl
    rw [List.mem_append, not_or] at hnot
    rw [filter_of_mem hrefused hc, filter_of_notMem hnot.1, filter_of_notMem hnot.2]
    exact refreshAppstream_failed_conveys _
  · have hnot : c ∉ q.refused := fun hmem => hdisjoint c (List.mem_append_left _ hc) c hmem rfl
    have hnot' : c ∉ q.cancelCalls := fun hmem => hboth c hc c hmem rfl
    rw [filter_of_notMem hnot, filter_of_mem hrun hc, filter_of_notMem hnot']
    cases hresult : result c with
    | error err =>
      simp only [List.flatMap_cons, List.flatMap_nil, List.append_nil, List.nil_append, hresult]
      exact refreshAppstream_failed_conveys _
    | ok u =>
      simp only [List.flatMap_cons, List.flatMap_nil, List.append_nil, List.nil_append, hresult]
      exact ended_conveys rfl rfl
  · have hnot : c ∉ q.refused := fun hmem => hdisjoint c (List.mem_append_right _ hc) c hmem rfl
    have hnot' : c ∉ q.runCalls := fun hmem => hboth c hmem c hc rfl
    rw [filter_of_notMem hnot, filter_of_notMem hnot', filter_of_mem hcancel hc]
    exact refreshAppstream_failed_conveys _

end Reader

/-! ### Remote operations -/

section Remote

open RemoteBridge RemoteManager

variable {δ : Type}

theorem listenForResult_failed_conveys (msg : CString) :
    Conveys none [0x01] (fun () => []) Operation.listenForResult [postFramedError 0x02 msg] :=
  failed_conveys rfl remote_message rfl listenForResult_branch msg

/-- A write makes a handle, and what follows answers. -/
theorem conveys_of_handle {m : FlatpakRemoteManager} {host : Host δ}
    {env : RemoteBridge.Environment} {w' : World δ} {frames : List (List UInt8)}
    {f : Handle δ → World δ × List (List UInt8)}
    (hf : ∀ b, Conveys none [0x01] (fun () => []) Operation.listenForResult (f b).2)
    (h : (m.remoteCreate host env).map f = some (w', frames)) :
    Conveys none [0x01] (fun () => []) Operation.listenForResult frames := by
  obtain ⟨b, -, hb⟩ := Option.map_eq_some_iff.mp h
  have hframes := hf b
  rwa [hb] at hframes

variable [DecidableEq δ]

theorem finish_conveys (b : Handle δ) (w : World δ) (r : Except CString Remotes) :
    Conveys none [0x01] (fun () => []) Operation.listenForResult (b.finish w r).2 := by
  cases r with
  | ok rs => exact ended_conveys rfl rfl
  | error msg => exact listenForResult_failed_conveys _

variable (b : Handle δ) (name : CString) (env : RemoteBridge.Environment) (w : World δ)

theorem addFromFile_conveys (path : CString) (ifNotExists : Bool) :
    Conveys none [0x01] (fun () => []) Operation.listenForResult
      (flatpakUserRemoteAddFromFile b name path ifNotExists env w).2 := by
  rw [flatpakUserRemoteAddFromFile]
  split
  · exact listenForResult_failed_conveys _
  · exact finish_conveys b w _

theorem modify_conveys (buf : List UInt8) :
    Conveys none [0x01] (fun () => []) Operation.listenForResult
      (flatpakUserRemoteModify b name buf env w).2 := by
  simp only [flatpakUserRemoteModify]
  split
  · exact listenForResult_failed_conveys _
  · exact finish_conveys b w _

variable {b name env w}

/-- Whatever a remote manager is asked to do, on a handle that was created. -/
theorem perform_conveys {m : FlatpakRemoteManager} {host : Host δ} {op : Op} {w' : World δ}
    {frames : List (List UInt8)} (h : m.perform host op env w = some (w', frames)) :
    Conveys none [0x01] (fun () => []) Operation.listenForResult frames := by
  -- the two calls that the other operations come down to
  have hfile : ∀ {name path : String} {ifNotExists : Bool},
      m.addFromFile host name path ifNotExists env w = some (w', frames) →
      Conveys none [0x01] (fun () => []) Operation.listenForResult frames := fun h => by
    refine conveys_of_handle (fun b => ?_) h
    rw [flatpakSystemRemoteAddFromFile, ite_self]
    exact addFromFile_conveys b _ env w _ _
  have hmodify : ∀ {name : String} {changes : FlatpakRemoteConfig},
      m.modify host name changes env w = some (w', frames) →
      Conveys none [0x01] (fun () => []) Operation.listenForResult frames := fun h => by
    refine conveys_of_handle (fun b => ?_) h
    rw [flatpakSystemRemoteModify, ite_self]
    exact modify_conveys b _ env w _
  cases op with
  | add name config ifNotExists =>
    simp only [FlatpakRemoteManager.perform, FlatpakRemoteManager.add] at h
    split at h
    · exact hfile h
    · refine conveys_of_handle (fun b => ?_) h
      rw [flatpakSystemRemoteAdd, ite_self]
      exact finish_conveys b w _
  | addFromFile name path ifNotExists => exact hfile h
  | modify name changes => exact hmodify h
  | modifySubset name subset => exact hmodify h
  | enable name => exact hmodify h
  | disable name => exact hmodify h
  | setPriority name priority => exact hmodify h
  | remove name force =>
    refine conveys_of_handle (fun b => ?_) h
    rw [flatpakSystemRemoteRemove, ite_self]
    exact finish_conveys b _ _
  | update name =>
    refine conveys_of_handle (fun b => ?_) h
    rw [flatpakSystemRemoteUpdate, ite_self]
    exact finish_conveys b w _

end Remote

/-- The future of `RemoteManager.listenForResult` is the one this listener completes. -/
theorem listenForResult_eq (msgs : List (List UInt8)) :
    RemoteManager.listenForResult msgs =
      ((Operation.listenForResult.deliver msgs).state.completed.head?).map
        (Except.mapError FlatpakException.message) := by
  induction msgs with
  | nil => rfl
  | cons msg rest ih =>
    simp only [RemoteManager.listenForResult]
    split
    · next hhead =>
      have hhandle : Operation.listenForResult.handle (.start ()) msg =
          (⟨(), [.ok ()]⟩, true) := by
        simp [Operation.listenForResult, hhead, complete_start]
      rw [Listener.deliver_cons_closes hhandle]
      rfl
    · next hhead =>
      cases herr : GlazeCodec.decodeError (.ofList msg) 1 with
      | none =>
        have hhandle : Operation.listenForResult.handle (.start ()) msg = (.start (), false) := by
          rw [listenForResult_branch _ hhead, Operation.fail, herr]
        rw [Listener.deliver_cons_ignored hhandle]
        exact ih
      | some err =>
        have hhandle : Operation.listenForResult.handle (.start ()) msg =
            (⟨(), [.error (.remote err)]⟩, true) := by
          rw [listenForResult_branch _ hhead, Operation.fail, herr]
          rfl
        rw [Listener.deliver_cons_closes hhandle]
        rfl
    · next hok herr =>
      have hhandle : Operation.listenForResult.handle (.start ()) msg = (.start (), false) := by
        simp only [Operation.listenForResult]
      rw [Listener.deliver_cons_ignored hhandle]
      exact ih

/-! ### Every operation -/

open InstallationReader

/-- **What is posted is what is waited for**: whatever the calls inside an operation
answer, its frames are an answer; if the strings in it are UTF-8 and a message or single
string shorter than 4 GiB, the listener settles the future or the stream once, with the
elements in posting order or with the message, and closes its port at the last frame. -/
theorem operations_conclude (env : InstallationReader.Environment) (app : CString)
    (arch branch : Option CString) :
    (∀ includeRuntimes, Conveys apps [0xFF] id FlatpakInstallation.listApplications
      (listApps env includeRuntimes)) ∧
    (∀ {δ : Type} (d : δ) (renv : RemoteBridge.Environment) (w : World δ),
      Conveys remotes [0xFF] id FlatpakInstallation.listRemotes
        (RemoteBridge.listRemotes d renv w)) ∧
    (∀ {δ : Type} (d : δ) (name : CString) (renv : RemoteBridge.Environment) (w : World δ),
      Conveys remotes [0xFF] (fun b => [b]) FlatpakInstallation.getRemoteInfo
        (RemoteBridge.getRemoteInfo d name renv w)) ∧
    (∀ listed includeRuntimes waylandOnly, Streams refs FlatpakInstallation.listRemoteApps
      (listRemoteApps listed arch includeRuntimes waylandOnly)) ∧
    Conveys apps [0xFF] (fun b => [b]) FlatpakInstallation.getAppInfo
      (getAppInfo env app arch branch) ∧
    Conveys permissions [0xFF] id FlatpakInstallation.getPermissions (getPermissions env app) ∧
    (∀ updates, Conveys refs [0xFF] id FlatpakInstallation.checkForUpdates
      (checkUpdates env updates)) ∧
    (∀ {R : Type} (parsed : Except (Option CString) R) fetched,
      Conveys metadata [0xFF] (fun b => [b]) FlatpakInstallation.fetchRemoteMetadata
        (fetchRemoteMetadata env parsed fetched)) ∧
    (∀ cancelled inst commit launchFull reread,
      Conveys instances [0xFF] (fun b => [b]) FlatpakInstallation.launch
        (launch cancelled inst app arch branch commit launchFull reread)) ∧
    (∀ listed, Conveys none [0xFF] (fun () => []) FlatpakInstallation.stop (stop listed app)) ∧
    (∀ listed, Conveys instances [0xFF] id FlatpakInstallation.listRunning
      (listRunning listed)) ∧
    (∀ as q, Machine.run SerialQueue.step SerialQueue.init as = some q →
      ∀ result c, c ∈ q.refused ∨ c ∈ q.runCalls ∨ c ∈ q.cancelCalls →
        Conveys none [0xFF] (fun () => []) FlatpakInstallation.refreshAppstream
          (refreshAppstream result q c)) ∧
    (∀ major minor micro, Conveys strings [0xFF] (fun b => [b]) FlatpakInstallation.getVersion
      (getVersion major minor micro)) ∧
    Conveys strings [0xFF] (fun b => [b]) FlatpakInstallation.getDefaultArch
      (getDefaultArch arch) ∧
    (∀ arches, Conveys strings [0xFF] id FlatpakInstallation.getSupportedArches
      (getSupportedArches arches)) ∧
    (∀ installs, Conveys installations [0xFF] id FlatpakInstallation.listSystemInstallations
      (listSystemInstallations installs)) ∧
    Conveys strings [0xFF] (fun b => [b]) FlatpakInstallation.getRuntimeRef
      (getRuntimeRef env app arch branch) ∧
    (∀ inst parsed, Conveys strings [0xFF] (fun b => [b]) FlatpakInstallation.isRefInstalled
      (isRefInstalled inst parsed)) ∧
    Conveys strings [0xFF] id FlatpakInstallation.listMissingExtensions
      (listMissingExtensions env app arch branch) ∧
    (∀ {δ : Type} [DecidableEq δ] (m : RemoteManager.FlatpakRemoteManager) (host : Host δ) op renv
      w w' frames, m.perform host op renv w = some (w', frames) →
        Conveys none [0x01] (fun () => []) Operation.listenForResult frames) := by
  refine ⟨listApps_conveys env, fun d renv w => listRemotes_conveys d renv w,
    fun d name renv w => getRemoteInfo_conveys d name renv w, listRemoteApps_streams arch,
    getAppInfo_conveys env app arch branch, getPermissions_conveys env app,
    checkUpdates_conveys env, fun parsed fetched => fetchRemoteMetadata_conveys env parsed fetched,
    launch_conveys app arch branch, stop_conveys app, listRunning_conveys,
    fun as q h result c hc => refreshAppstream_conveys h result hc, getVersion_conveys,
    getDefaultArch_conveys arch, getSupportedArches_conveys, listSystemInstallations_conveys,
    getRuntimeRef_conveys env app arch branch, isRefInstalled_conveys,
    listMissingExtensions_conveys env app arch branch,
    fun m host op renv w w' frames h => perform_conveys h⟩

/-- One request for a refresh; the destructor runs before the worker takes it. -/
def cancelledRefresh : List (SerialQueue.Action AppstreamRequest) :=
  [.push ⟨.ofString "flathub", .ofString ""⟩, .stopRequest, .wake, .cancelBegin]

/-- The request is answered, and so is a remote that is added. -/
theorem operations_conclude_cancelled :
    (∃ q c, Machine.run SerialQueue.step SerialQueue.init cancelledRefresh = some q ∧
      c ∈ q.cancelCalls ∧ Conveys none [0xFF] (fun () => []) FlatpakInstallation.refreshAppstream
        (refreshAppstream (fun _ => .ok ()) q c)) ∧
    ∃ w' frames, RemoteManager.FlatpakClient.user.remotes.perform RemoteManager.optHost
        (.add "origin" {} true) RemoteManager.smooth (fun _ => []) = some (w', frames) ∧
      Conveys none [0x01] (fun () => []) Operation.listenForResult frames := by
  let env : InstallationReader.Environment :=
    { installation := twoBuilds
      details := fun _ => ⟨.none, .none, .none, .none, .none, 0, .none, .none, .none, .none, .none⟩
      notInstalled := .none
      loadMetadata := fun _ => .error .none
      loadFromData := fun _ => .error .none }
  obtain ⟨-, -, -, -, -, -, -, -, -, -, -, hrefresh, -, -, -, -, -, -, -, hperform⟩ :=
    operations_conclude env foreignBuild.name .none .none
  constructor
  · obtain ⟨q, hrun, hq⟩ := Machine.exists_run SerialQueue.step SerialQueue.init cancelledRefresh
      (p := fun q => q.cancelCalls ≠ []) (by decide +kernel)
    obtain ⟨c, hc⟩ := List.exists_mem_of_ne_nil q.cancelCalls (of_decide_eq_true hq)
    exact ⟨q, c, hrun, hc, hrefresh _ q hrun _ c (.inr (.inr hc))⟩
  · obtain ⟨⟨w', frames⟩, hframes⟩ := Option.isSome_iff_exists.mp
      (show (RemoteManager.FlatpakClient.user.remotes.perform RemoteManager.optHost
        (.add "origin" {} true) RemoteManager.smooth (fun _ => [])).isSome from rfl)
    exact ⟨w', frames, hframes, hperform _ _ _ _ _ _ _ hframes⟩

theorem listSystemInstallations_error (msg : CString) :
    listSystemInstallations (.error (some msg)) =
      Answer.frames installations [0xFF] (.failed 0x02 msg) := rfl

/-- A message that is decoded to another one is not heard. -/
theorem not_heard_of_cut {msg : CString} {text cut : String}
    (hcut : GlazeCodec.decodeError (.ofList (postFramedError 0x02 msg)) 1 = some cut)
    (htext : Text.utf8Decode msg.bytes = some text) (hne : text ≠ cut) :
    ¬ ∃ r, Heard installations (.failed 0x02 msg) r ∧
      Settles FlatpakInstallation.listSystemInstallations
        (listSystemInstallations (.error (some msg))) r := by
  have hhandle : FlatpakInstallation.listSystemInstallations.handle (.start [])
      (postFramedError 0x02 msg) = (⟨[], [.error (.remote cut)]⟩, true) := by
    rw [FlatpakInstallation.listSystemInstallations,
      collect_branch _ _ _ _ (postFramedError_head 0x02 msg), Operation.fail, hcut]
    rfl
  rintro ⟨r, hheard, o, hconcludes, hcompleted⟩
  -- the listener has settled the future, and `r` is what with
  have hdeliver := (Listener.concludes_singleton hhandle).ends
  obtain rfl : _ = o := congrArg PortListener.Port.state (hdeliver.symm.trans hconcludes.ends)
  obtain rfl : _ = r := (List.cons_eq_cons.mp hcompleted).1
  cases hheard with
  | failed h => exact hne (Option.some_inj.mp (htext.symm.trans h))

/-- An error message of 4 GiB is not heard: the future fails with an empty one. -/
theorem long_message_lost :
    ∃ msg : CString, msg.WellFormed ∧
      listSystemInstallations (.error (some msg)) =
        Answer.frames installations [0xFF] (.failed 0x02 msg) ∧
      ¬ ∃ r, Heard installations (.failed 0x02 msg) r ∧
        Settles FlatpakInstallation.listSystemInstallations
          (listSystemInstallations (.error (some msg))) r := by
  have hbound : 2 ^ 32 < 2 ^ 63 := by decide
  have hbytes := GlazeCodec.repeated_encode hbound
  have htext : Text.utf8Decode (GlazeCodec.repeated (2 ^ 32) hbound).bytes =
      some (String.ofList (List.replicate (2 ^ 32) 'a')) := by
    rw [hbytes]
    exact Text.utf8Decode_encode (hbytes ▸ GlazeCodec.repeated_unmarked hbound)
  exact ⟨_, ⟨_, hbytes⟩, listSystemInstallations_error _,
    not_heard_of_cut (GlazeCodec.decodeError_repeated 0x02 hbound) htext
      (GlazeCodec.repeated_ne_empty (Nat.two_pow_pos 32).ne')⟩

end OperationAnswers
