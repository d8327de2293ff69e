/-
What `FlatpakClient` asks the installation for (`lib/src/flatpak_client.dart`,
`lib/src/installation.dart`).

A method of the client is a program whose requests are the methods of the installation and
the transactions.  The reply to a read is what its listener makes of the frames that the
reader posts of the installation as it is then; around a request the installation may
change.

* `reply_getAppInfo`, `reply_getRuntimeRef`, `reply_isRefInstalled`, … — what each reply says
  of the installation;
* `exists_reply` — and that every read gets one.
-/
import FlatpakDart.ExtensionResolution
import FlatpakDart.OperationAnswers
import FlatpakDart.Requests
import FlatpakDart.TransactionBridge

open Glz Native Libflatpak FlatpakNc Dart PortListener Requests
open Dart.GlazeCodec (Sendable)

/-- What Dart makes of the bytes. -/
def CString.text (s : CString) : String := (Text.utf8Decode s.bytes).getD ""

theorem CString.decode_text {s : CString} (h : Sendable s) :
    Text.utf8Decode s.bytes = some s.text := by
  obtain ⟨text, htext⟩ := h.text
  rw [CString.text, htext, Option.getD_some]

theorem Glz.CppString.ofCString_text {s : CString} (h : (CppString.ofCString s).Portable) :
    (CppString.ofCString s).text = s.text := by
  have hdecode : Text.utf8Decode s.bytes = some (CppString.ofCString s).text :=
    CppString.decode_text h
  rw [CString.text, hdecode, Option.getD_some]

theorem CString.eq_of_bytes {s t : CString} (h : s.bytes = t.bytes) : s = t := by
  cases s
  cases t
  simp_all

/-- A string that Dart read and sends back is the string it was. -/
theorem CString.ofString_text {s : CString} (h : (CppString.ofCString s).Portable) :
    CString.ofString s.text = s := by
  have hbytes : Text.utf8Encode s.text = s.bytes := by
    rw [← CppString.ofCString_text h]
    exact CppString.encode_text h
  have hsame : (CString.ofString s.text).bytes = s.bytes := by
    rw [CString.ofString, hbytes, CString.bytes_ofBytes s.nulFree s.bounded]
  exact CString.eq_of_bytes hsame

/-- A literal that Dart sends is the one of the source. -/
theorem CString.ofString_lit {s : String}
    (h : 0 ∉ Text.utf8Encode s ∧ (Text.utf8Encode s).length < 2 ^ 63) :
    CString.ofString s = .lit s h := CString.eq_of_bytes (CString.bytes_ofBytes h.1 h.2)

namespace FlatpakClient

/-! ### Requests -/

/-- A method of the installation, or a transaction. -/
inductive Request
  | listApplications (includeRuntimes : Bool)
  | getAppInfo (appId arch branch : String)
  | getRuntimeRef (appId arch branch : String)
  | isRefInstalled (ref : String)
  | listMissingExtensions (appId arch branch : String)
  | install (remote ref : String)
  deriving DecidableEq

/-- A `FlatpakException`: of a listener, or of a transaction. -/
inductive Exception
  | installation (ex : FlatpakException)
  | transaction (ex : TransactionBridge.FlatpakTransactionException)

/-- What a request returns. -/
@[reducible] def Request.Value : Request → Type
  | .listApplications _ => List FlatpakApplication
  | .getAppInfo .. => FlatpakApplication
  | .getRuntimeRef .. => String
  | .isRefInstalled _ => Bool
  | .listMissingExtensions .. => List String
  | .install .. => PUnit

/-- Unless it throws. -/
abbrev Reply (i : Request) : Type := Except Exception i.Value

/-- A method of the client. -/
abbrev Method (α : Type) : Type := Program Request Reply (Except Exception α)

namespace Call

def listApplications (includeRuntimes : Bool) : Method (List FlatpakApplication) :=
  Program.request (Request.listApplications includeRuntimes)

def getAppInfo (appId arch branch : String) : Method FlatpakApplication :=
  Program.request (Request.getAppInfo appId arch branch)

def getRuntimeRef (appId arch branch : String) : Method String :=
  Program.request (Request.getRuntimeRef appId arch branch)

def isRefInstalled (ref : String) : Method Bool := Program.request (Request.isRefInstalled ref)

def listMissingExtensions (appId arch branch : String) : Method (List String) :=
  Program.request (Request.listMissingExtensions appId arch branch)

/-- The `result` of the transaction. -/
def install (remote ref : String) : Method PUnit := Program.request (Request.install remote ref)

end Call

/-! ### The installation -/

/-- The error messages, the apps and the values that are posted are such that Dart can
read them. -/
structure Legible (env : InstallationReader.Environment) : Prop where
  app : ∀ r ∈ env.installation.refs,
    Portable (InstallationReader.installedApp env.installation r.kind r (env.details r))
  listError : ∀ msg ∈ env.installation.listError, Sendable msg
  notInstalled : ∀ msg ∈ env.notInstalled, Sendable msg
  loadMetadata : ∀ r msg, env.loadMetadata r = .error (some msg) → Sendable msg
  loadFromData : ∀ bytes msg, env.loadFromData bytes = .error (some msg) → Sendable msg
  strings : ∀ bytes kf, env.loadFromData bytes = .ok kf →
    ∀ group key s, kf.getString group key = some s → Sendable s
  extensions : ∀ bytes kf, env.loadFromData bytes = .ok kf → ∀ r ∈ env.installation.refs,
    ∀ ext ∈ AppMetadata.requiredExtensions kf r.branch,
      Sendable (InstallationReader.extensionRef r.arch ext)

/-- An installation at one moment. -/
structure Snapshot extends InstallationReader.Environment where
  legible : Legible toEnvironment

/-- `flatpak_ref_parse`. -/
structure RefParse where
  parse : CString → Except (Option CString) InstalledRef
  legible : ∀ ref msg, parse ref = .error (some msg) → Sendable msg

/-- Around the client. -/
structure World where
  refs : RefParse
  /-- what others may do to the installation around a request -/
  changes : Snapshot → Snapshot → Prop
  /-- how the `result` of an install may complete, and what it leaves -/
  installs : String → String → Snapshot →
    Except TransactionBridge.FlatpakTransactionException PUnit → Snapshot → Prop

/-- What the frames complete the future with. -/
def future {ρ α : Type} (l : Callback ρ α) (frames : List (List UInt8)) :
    Option (Except FlatpakException α) := (l.deliver frames).state.completed.head?

/-- What a read completes with, in an installation. -/
def World.read (w : World) (e : Snapshot) :
    (i : Request) → Option (Except FlatpakException i.Value)
  | .listApplications includeRuntimes =>
    future FlatpakInstallation.listApplications
      (InstallationReader.listApps e.toEnvironment includeRuntimes)
  | .getAppInfo appId arch branch =>
    future FlatpakInstallation.getAppInfo (InstallationReader.getAppInfo e.toEnvironment
      (.ofString appId) (some (.ofString arch)) (some (.ofString branch)))
  | .getRuntimeRef appId arch branch =>
    future FlatpakInstallation.getRuntimeRef (InstallationReader.getRuntimeRef e.toEnvironment
      (.ofString appId) (some (.ofString arch)) (some (.ofString branch)))
  | .isRefInstalled ref =>
    (future FlatpakInstallation.isRefInstalled (InstallationReader.isRefInstalled e.installation
      (w.refs.parse (.ofString ref)))).map (·.map (· == "1"))
  | .listMissingExtensions appId arch branch =>
    future FlatpakInstallation.listMissingExtensions (InstallationReader.listMissingExtensions
      e.toEnvironment (.ofString appId) (some (.ofString arch)) (some (.ofString branch)))
  | .install .. => none

/-- How requests are replied to. -/
inductive World.Replies (w : World) : Snapshot → (i : Request) → Reply i → Snapshot → Prop
  | read {e e' : Snapshot} {i : Request} {r : Except FlatpakException i.Value}
      (hread : w.read e i = some r) (hchanges : w.changes e e') :
      Replies w e i (r.mapError .installation) e'
  | install {e e' : Snapshot} {remote ref : String}
      {r : Except TransactionBridge.FlatpakTransactionException PUnit}
      (hinstalls : w.installs remote ref e r e') :
      Replies w e (.install remote ref) (r.mapError .transaction) e'

/-! ### What a listener makes of the frames -/

section Futures

variable {ρ α β T : Type}

/-- An error frame that the listener has a branch for. -/
theorem future_failed {l : Callback ρ α} {locals : ρ} {disc : UInt8} {msg : CString}
    {exception : String → FlatpakException} (hstart : l.start = .start locals)
    (hbranch : ∀ o {frame : List UInt8}, frame.head? = some disc →
      l.handle o frame = o.fail exception frame) (h : Sendable msg) :
    future l [postFramedError disc msg] = some (.error (exception msg.text)) := by
  have hhandle := hbranch l.start (postFramedError_head disc msg)
  rw [OperationAnswers.fail_eq _ _ _ h (CString.decode_text h), hstart,
    OperationAnswers.complete_start, ← hstart] at hhandle
  rw [future, (Listener.concludes_singleton hhandle).ends]
  rfl

/-- A string and the sentinel. -/
theorem future_readSingleString {s : CString} (h : Sendable s) :
    future FlatpakInstallation.readSingleString
      [InstallationReader.postString s, InstallationReader.postSentinel] =
        some (.ok s.text) := by
  have htext : GlazeCodec.decodeError (.ofList (InstallationReader.postString s)) 1 =
      some s.text := (GlazeCodec.decodeError_text 0x01 h).trans (CString.decode_text h)
  have hfirst : FlatpakInstallation.readSingleString.handle
      FlatpakInstallation.readSingleString.start (InstallationReader.postString s) =
        (⟨s.text, []⟩, false) := by
    have hhead : (InstallationReader.postString s).head? = some 0x01 := rfl
    simp [FlatpakInstallation.readSingleString, hhead, htext, Operation.start]
  have hpass : FlatpakInstallation.readSingleString.Passes
      FlatpakInstallation.readSingleString.start [InstallationReader.postString s]
        ⟨s.text, []⟩ := .cons hfirst (.nil _)
  have hends := (hpass.concludes (m := InstallationReader.postSentinel) rfl).ends
  rw [List.singleton_append] at hends
  rw [future, hends]
  rfl

/-- Elements that each arrive, and the sentinel. -/
theorem future_collect (c : OperationAnswers.Channel T β) (guarded : Bool)
    (exception : String → FlatpakException) {frames : List (List UInt8)} {bs : List β}
    (h : List.Forall₂ (OperationAnswers.Arrived c) frames bs) :
    future (Operation.collect guarded c.decode exception)
      (frames ++ [InstallationReader.postSentinel]) = some (.ok bs) := by
  have hpass := Listener.Passes.of_forall₂
    (OperationAnswers.collect_hears c guarded exception) h (Operation.start [])
  rw [OperationAnswers.foldl_locals] at hpass
  rw [future, (hpass.concludes rfl).ends]
  rfl

theorem apps_decode : OperationAnswers.apps.decode = GlazeCodec.decodeInstalledApp := rfl

/-- A posted struct arrives as its decoder reads it. -/
theorem arrived_glaze [Reflectable T] {d : Decoder β}
    {hnone : GlazeCodec.decode d (.ofList [0x01]) 1 = none}
    {hdecodable : ∀ v : T, WellFormed v → Decodable d (writeBinary v)} {v : T} {b : β}
    (h : Decodes d (writeBinary v) b) :
    OperationAnswers.Arrived (.glaze d hnone hdecodable) (InstallationReader.postGlaze v) b :=
  ⟨rfl, OperationAnswers.long_of_decodable hnone h.decodable, h.frame 0x01⟩

/-- A posted app arrives as it is. -/
theorem arrived_app {v : InstalledApp} (h : Portable v) :
    OperationAnswers.Arrived OperationAnswers.apps (InstallationReader.postGlaze v)
      (ofInstalledApp v) := arrived_glaze (GlazeCodec.readInstalledApp_decodes h)

/-- So does a posted string. -/
theorem arrived_string {s : CString} (h : Sendable s) :
    OperationAnswers.Arrived OperationAnswers.strings (InstallationReader.postString s) s.text :=
  ⟨rfl, OperationAnswers.strings.long s h,
    (GlazeCodec.decodeError_text 0x01 h).trans (CString.decode_text h)⟩

/-- An app completes the future. -/
theorem future_app {v : InstalledApp} (h : Portable v) :
    future FlatpakInstallation.getAppInfo
      [InstallationReader.postGlaze v, InstallationReader.postSentinel] =
        some (.ok (ofInstalledApp v)) := by
  obtain ⟨hhead, hlong, hdecode⟩ := arrived_app h
  rw [apps_decode] at hdecode
  have hfirst : FlatpakInstallation.getAppInfo.handle FlatpakInstallation.getAppInfo.start
      (InstallationReader.postGlaze v) = (⟨(), [.ok (ofInstalledApp v)]⟩, false) := by
    simp [FlatpakInstallation.getAppInfo, Operation.first, hhead, hlong, hdecode,
      Operation.start, Operation.complete]
  have hpass : FlatpakInstallation.getAppInfo.Passes FlatpakInstallation.getAppInfo.start
      [InstallationReader.postGlaze v] ⟨(), [.ok (ofInstalledApp v)]⟩ := .cons hfirst (.nil _)
  have hends := (hpass.concludes (m := InstallationReader.postSentinel) rfl).ends
  rw [List.singleton_append] at hends
  rw [future, hends]
  rfl

end Futures

/-! ### What a read says of the installation -/

open InstallationReader (getInstalledAppRef appMetadata)

namespace Snapshot

variable (e : Snapshot) (appId arch branch : String)

/-- The installed app that the hints mean. -/
def app : Option InstalledRef :=
  getInstalledAppRef e.installation (.ofString appId) (some (.ofString arch))
    (some (.ofString branch))

/-- An installed ref, as Dart has it. -/
def application (r : InstalledRef) : FlatpakApplication :=
  ofInstalledApp (InstallationReader.installedApp e.installation r.kind r (e.details r))

/-- The runtime that its metadata name. -/
def declaredRuntime : Option String :=
  (appMetadata e.toEnvironment (.ofString appId) (some (.ofString arch))
      (some (.ofString branch))).toOption.bind fun found =>
    ((found.2.getString (.ofString "Application") (.ofString "runtime")).filter
      (·.bytes ≠ [])).map CString.text

end Snapshot

theorem sendable_lit {s : String} (h : 0 ∉ Text.utf8Encode s ∧ (Text.utf8Encode s).length < 2 ^ 63)
    (hshort : (Text.utf8Encode s).length < 2 ^ 32) : Sendable (.lit s h) :=
  ⟨⟨s, rfl⟩, hshort⟩

theorem text_lit {s : String} (h : 0 ∉ Text.utf8Encode s ∧ (Text.utf8Encode s).length < 2 ^ 63)
    (hmark : ¬ Text.byteOrderMark <+: Text.utf8Encode s) : (CString.lit s h).text = s := by
  have hdecode : Text.utf8Decode (CString.lit s h).bytes = some s := Text.utf8Decode_encode hmark
  rw [CString.text, hdecode, Option.getD_some]

theorem sendable_getD {msg : Option CString} {fallback : CString} (h : ∀ m ∈ msg, Sendable m)
    (hfallback : Sendable fallback) : Sendable (msg.getD fallback) := by
  cases msg with
  | none => exact hfallback
  | some m => exact h m rfl

/-- The loop over the installed apps takes one of them. -/
theorem matchArch_mem {inst : Installation} {app arch : CString} {refs : List InstalledRef}
    {found : Option InstalledRef} {r : InstalledRef}
    (h : InstallationReader.matchArch inst app arch refs found = some r) :
    found = some r ∨ r ∈ refs ∧ r.name = app ∧ r.arch = arch := by
  induction refs generalizing found with
  | nil => exact .inl h
  | cons r' rest ih =>
    have hrest : ∀ {found}, InstallationReader.matchArch inst app arch rest found = some r →
        found = some r ∨ r ∈ r' :: rest ∧ r.name = app ∧ r.arch = arch :=
      fun h => (ih h).imp_right fun ⟨hmem, hname⟩ => ⟨List.mem_cons_of_mem r' hmem, hname⟩
    rw [InstallationReader.matchArch] at h
    split_ifs at h with hother hnew
    · exact hrest h
    · obtain ⟨hname, harch⟩ := not_or.mp hother
      rcases hrest h with hthis | hlater
      · obtain rfl := Option.some.inj hthis
        exact .inr ⟨List.mem_cons_self, not_not.mp hname, not_not.mp harch⟩
      · exact .inr hlater
    · exact hrest h

/-- What the hints mean is an app of that name that is installed. -/
theorem getInstalledAppRef_app {inst : Installation} {app : CString} {arch branch : Option CString}
    {r : InstalledRef} (h : getInstalledAppRef inst app arch branch = some r) :
    r ∈ inst.refs ∧ r.kind = .app ∧ r.name = app := by
  rw [getInstalledAppRef] at h
  cases hbranch : InstallationReader.hint branch with
  | some b =>
    rw [hbranch] at h
    obtain ⟨hmem, rfl⟩ := Installation.getInstalledRef_eq_some.mp h
    exact ⟨hmem, rfl, rfl⟩
  | none =>
    cases harch : InstallationReader.hint arch with
    | none =>
      rw [hbranch, harch] at h
      exact inst.current_installed h
    | some a =>
      rw [hbranch, harch] at h
      cases hlist : inst.listError with
      | some msg =>
        simp [Installation.listInstalledRefsByKind, Installation.listInstalledRefs, hlist,
          Except.map] at h
      | none =>
        simp only [Installation.listInstalledRefsByKind, Installation.listInstalledRefs, hlist,
          Except.map] at h
        obtain ⟨hmem, hname, -⟩ := (matchArch_mem h).resolve_left (by simp)
        obtain ⟨hmem, hkind⟩ := List.mem_filter.mp hmem
        exact ⟨hmem, of_decide_eq_true hkind, hname⟩

variable {w : World} {e : Snapshot} {appId arch branch : String}

theorem appMetadata_sendable {app : CString} {arch branch : Option CString} {msg : CString}
    (h : appMetadata e.toEnvironment app arch branch = .error msg) : Sendable msg := by
  have hl := e.legible
  rw [appMetadata] at h
  split at h
  · rw [← Except.error.inj h]
    exact sendable_getD hl.notInstalled (sendable_lit _ (by decide))
  · split at h
    · next herr =>
      rw [← Except.error.inj h]
      exact sendable_getD (fun m hm => hl.loadMetadata _ m (by rw [herr, hm]))
        (sendable_lit _ (by decide))
    · split at h
      · next herr =>
        rw [← Except.error.inj h]
        exact sendable_getD (fun m hm => hl.loadFromData _ m (by rw [herr, hm]))
          (sendable_lit _ (by decide))
      · cases h

theorem read_getAppInfo_none (h : e.app appId arch branch = none) :
    ∃ text, w.read e (.getAppInfo appId arch branch) = some (.error (.notFound text)) := by
  rw [Snapshot.app] at h
  rw [World.read, InstallationReader.getAppInfo, h]
  exact ⟨_, future_failed rfl (OperationAnswers.first_branch _ _)
    (sendable_getD e.legible.notInstalled (sendable_lit _ (by decide)))⟩

theorem read_getAppInfo {r : InstalledRef} (h : e.app appId arch branch = some r) :
    w.read e (.getAppInfo appId arch branch) = some (.ok (e.application r)) := by
  obtain ⟨hmem, hkind, -⟩ := getInstalledAppRef_app h
  rw [Snapshot.app] at h
  rw [World.read, InstallationReader.getAppInfo, h]
  have hportable := e.legible.app r hmem
  rw [hkind] at hportable
  rw [Snapshot.application, hkind]
  exact future_app hportable

/-- Metadata that were read are those of the installed app. -/
theorem appMetadata_ok {env : InstallationReader.Environment} {app : CString}
    {arch branch : Option CString} {iref : InstalledRef} {kf : Glib.KeyFile}
    (h : appMetadata env app arch branch = .ok (iref, kf)) :
    getInstalledAppRef env.installation app arch branch = some iref ∧
      ∃ bytes, env.loadMetadata iref = .ok bytes ∧ env.loadFromData bytes = .ok kf := by
  rw [appMetadata] at h
  split at h
  · cases h
  · next hget =>
    split at h
    · cases h
    · next hload =>
      split at h
      · cases h
      · next hparse =>
        obtain ⟨rfl, rfl⟩ := Prod.mk.inj (Except.ok.inj h)
        exact ⟨hget, _, hload, hparse⟩

theorem future_string_failed {msg : CString} (h : Sendable msg) :
    future FlatpakInstallation.readSingleString [InstallationReader.postError msg] =
      some (.error (.remote msg.text)) :=
  future_failed rfl OperationAnswers.readSingleString_branch h

/-- The runtime that is declared. -/
theorem read_getRuntimeRef {runtime : String}
    (h : e.declaredRuntime appId arch branch = some runtime) :
    w.read e (.getRuntimeRef appId arch branch) = some (.ok runtime) := by
  rw [Snapshot.declaredRuntime] at h
  rw [World.read, InstallationReader.getRuntimeRef]
  cases hmeta : appMetadata e.toEnvironment (.ofString appId) (some (.ofString arch))
      (some (.ofString branch)) with
  | error msg => simp [hmeta, Except.toOption] at h
  | ok found =>
    obtain ⟨iref, kf⟩ := found
    obtain ⟨-, bytes, -, hparse⟩ := appMetadata_ok hmeta
    rw [hmeta] at h
    obtain ⟨s, hs, rfl⟩ := Option.map_eq_some_iff.mp h
    have hsend : Sendable s :=
      e.legible.strings bytes kf hparse _ _ s (Option.filter_eq_some_iff.mp hs).1
    dsimp only
    rw [← CString.ofString_lit, ← CString.ofString_lit, hs]
    exact future_readSingleString hsend

/-- Where none is declared, or cannot be read, an exception. -/
theorem read_getRuntimeRef_none (h : e.declaredRuntime appId arch branch = none) :
    ∃ text, w.read e (.getRuntimeRef appId arch branch) = some (.error (.remote text)) := by
  rw [Snapshot.declaredRuntime] at h
  rw [World.read, InstallationReader.getRuntimeRef]
  cases hmeta : appMetadata e.toEnvironment (.ofString appId) (some (.ofString arch))
      (some (.ofString branch)) with
  | error msg => exact ⟨_, future_string_failed (appMetadata_sendable hmeta)⟩
  | ok found =>
    rw [hmeta] at h
    dsimp only
    rw [← CString.ofString_lit, ← CString.ofString_lit, Option.map_eq_none_iff.mp h]
    exact ⟨_, future_string_failed (sendable_lit _ (by decide))⟩

/-- Whether the ref is installed, if it is one. -/
theorem read_isRefInstalled {ref : String} {r : InstalledRef}
    (h : w.refs.parse (.ofString ref) = .ok r) :
    w.read e (.isRefInstalled ref) = some (.ok (decide (r ∈ e.installation.refs))) := by
  have hanswer : ∀ {text : String} (hlit : 0 ∉ Text.utf8Encode text ∧
      (Text.utf8Encode text).length < 2 ^ 63), (Text.utf8Encode text).length < 2 ^ 32 →
      ¬ Text.byteOrderMark <+: Text.utf8Encode text →
      (future FlatpakInstallation.isRefInstalled
        [InstallationReader.postString (.lit text hlit), InstallationReader.postSentinel]).map
          (·.map (· == "1")) = some (.ok (text == "1")) := by
    intro text hlit hshort hmark
    rw [FlatpakInstallation.isRefInstalled, future_readSingleString (sendable_lit hlit hshort),
      text_lit hlit hmark]
    rfl
  rw [World.read, h, InstallationReader.isRefInstalled]
  cases hget : e.installation.getInstalledRef r.kind r.name (some r.arch) r.branch with
  | some r' =>
    have hmem : r ∈ e.installation.refs := by
      obtain ⟨hmem, rfl⟩ := Installation.getInstalledRef_eq_some.mp hget
      exact hmem
    rw [decide_eq_true hmem]
    exact hanswer (by decide) (by decide) (by decide)
  | none =>
    have hout : r ∉ e.installation.refs := fun hmem => by
      have hthere : e.installation.getInstalledRef r.kind r.name (some r.arch) r.branch =
          some r := Installation.getInstalledRef_eq_some.mpr ⟨hmem, rfl⟩
      exact absurd (hget.symm.trans hthere) (by simp)
    rw [decide_eq_false hout]
    exact hanswer (by decide) (by decide) (by decide)

theorem read_isRefInstalled_error {ref : String} {err : Option CString}
    (h : w.refs.parse (.ofString ref) = .error err) :
    ∃ text, w.read e (.isRefInstalled ref) = some (.error (.remote text)) := by
  rw [World.read, h, InstallationReader.isRefInstalled]
  refine ⟨_, congrArg (Option.map _) (future_string_failed ?_)⟩
  exact sendable_getD (fun msg hmsg => w.refs.legible _ msg (by rw [h, hmsg]))
    (sendable_lit _ (by decide))

theorem forall₂_map {α β γ : Type} {P : β → γ → Prop} {f : α → β} {g : α → γ} {l : List α}
    (h : ∀ a ∈ l, P (f a) (g a)) : List.Forall₂ P (l.map f) (l.map g) := by
  rw [List.forall₂_map_left_iff, List.forall₂_map_right_iff, List.forall₂_same]
  exact h

/-- The installed refs, in their order. -/
theorem read_listApplications {includeRuntimes : Bool} (h : e.installation.listError = none) :
    w.read e (.listApplications includeRuntimes) =
      some (.ok ((e.installation.refs.filter fun r => includeRuntimes || r.kind = .app).map
        e.application)) := by
  rw [World.read, InstallationReader.listApps, Installation.listInstalledRefs, h]
  refine future_collect OperationAnswers.apps true .notFound (forall₂_map fun r hr => ?_)
  exact arrived_app (e.legible.app r (List.mem_of_mem_filter hr))

theorem read_listApplications_error {includeRuntimes : Bool} {msg : CString}
    (h : e.installation.listError = some msg) :
    w.read e (.listApplications includeRuntimes) = some (.error (.notFound msg.text)) := by
  rw [World.read, InstallationReader.listApps, Installation.listInstalledRefs, h]
  exact future_failed rfl (OperationAnswers.collect_branch true _ _) (e.legible.listError msg h)

/-- The refs of what the metadata require and is not installed. -/
theorem read_listMissingExtensions {iref : InstalledRef} {kf : Glib.KeyFile}
    (h : appMetadata e.toEnvironment (.ofString appId) (some (.ofString arch))
      (some (.ofString branch)) = .ok (iref, kf)) :
    w.read e (.listMissingExtensions appId arch branch) =
      some (.ok ((InstallationReader.missingExtensions e.installation.refs iref.arch
        (AppMetadata.requiredExtensions kf iref.branch)).map
          fun ext => (InstallationReader.extensionRef iref.arch ext).text)) := by
  obtain ⟨hget, bytes, -, hparse⟩ := appMetadata_ok h
  have hmem := (getInstalledAppRef_app hget).1
  rw [World.read, InstallationReader.listMissingExtensions_eq h]
  refine future_collect OperationAnswers.strings false .remote (forall₂_map fun ext hext => ?_)
  exact arrived_string (e.legible.extensions bytes kf hparse iref hmem ext
    (List.mem_of_mem_filter hext))

theorem read_listMissingExtensions_error {msg : CString}
    (h : appMetadata e.toEnvironment (.ofString appId) (some (.ofString arch))
      (some (.ofString branch)) = .error msg) :
    w.read e (.listMissingExtensions appId arch branch) = some (.error (.remote msg.text)) := by
  rw [World.read, InstallationReader.listMissingExtensions, h]
  exact future_failed rfl (OperationAnswers.collect_branch false _ _) (appMetadata_sendable h)

/-- Every read completes. -/
theorem exists_read (w : World) (e : Snapshot) (i : Request)
    (h : ∀ remote ref, i ≠ .install remote ref) : ∃ r, w.read e i = some r := by
  cases i with
  | listApplications includeRuntimes =>
    cases hlist : e.installation.listError with
    | none => exact ⟨_, read_listApplications hlist⟩
    | some msg => exact ⟨_, read_listApplications_error hlist⟩
  | getAppInfo appId arch branch =>
    cases happ : e.app appId arch branch with
    | some r => exact ⟨_, read_getAppInfo happ⟩
    | none =>
      obtain ⟨text, htext⟩ := read_getAppInfo_none (w := w) happ
      exact ⟨_, htext⟩
  | getRuntimeRef appId arch branch =>
    cases hruntime : e.declaredRuntime appId arch branch with
    | some s => exact ⟨_, read_getRuntimeRef hruntime⟩
    | none =>
      obtain ⟨text, htext⟩ := read_getRuntimeRef_none (w := w) hruntime
      exact ⟨_, htext⟩
  | isRefInstalled ref =>
    cases hparse : w.refs.parse (.ofString ref) with
    | ok r => exact ⟨_, read_isRefInstalled hparse⟩
    | error err =>
      obtain ⟨text, htext⟩ := read_isRefInstalled_error (e := e) hparse
      exact ⟨_, htext⟩
  | listMissingExtensions appId arch branch =>
    cases hmeta : appMetadata e.toEnvironment (.ofString appId) (some (.ofString arch))
        (some (.ofString branch)) with
    | ok found =>
      obtain ⟨iref, kf⟩ := found
      exact ⟨_, read_listMissingExtensions hmeta⟩
    | error msg => exact ⟨_, read_listMissingExtensions_error hmeta⟩
  | install remote ref => exact absurd rfl (h remote ref)

/-- Where installs complete too, every request gets a reply. -/
theorem exists_reply (hchanges : ∀ e, ∃ e', w.changes e e')
    (hinstalls : ∀ remote ref e, ∃ r e', w.installs remote ref e r e') (e : Snapshot)
    (i : Request) : ∃ reply e', w.Replies e i reply e' := by
  by_cases hread : ∀ remote ref, i ≠ .install remote ref
  · obtain ⟨r, hr⟩ := exists_read w e i hread
    obtain ⟨e', he'⟩ := hchanges e
    exact ⟨_, e', .read hr he'⟩
  · simp only [ne_eq, not_forall, not_not] at hread
    obtain ⟨remote, ref, rfl⟩ := hread
    obtain ⟨r, e', hr⟩ := hinstalls remote ref e
    exact ⟨_, e', .install hr⟩

/-! ### The runs of one request -/

section Runs

variable {e' : Snapshot} {trace : List (Snapshot × Request)}

/-- A read is made once, and completes with what it sees. -/
theorem runs_read {i : Request} (hread : ∀ remote ref, i ≠ .install remote ref)
    {r : Except FlatpakException i.Value} (h : w.read e i = some r) {reply : Reply i} :
    Runs w.Replies e (Program.request i) trace e' reply ↔
      trace = [(e, i)] ∧ w.changes e e' ∧ reply = r.mapError .installation := by
  rw [runs_request_iff]
  constructor
  · rintro ⟨hreply, rfl⟩
    cases hreply with
    | read hread' hchanges =>
      obtain rfl := Option.some.inj (hread'.symm.trans h)
      exact ⟨rfl, hchanges, rfl⟩
    | install => exact absurd rfl (hread _ _)
  · rintro ⟨rfl, hchanges, rfl⟩
    exact ⟨.read h hchanges, rfl⟩

/-- Asked for alone, a read returns. -/
theorem exists_runs_read (hchanges : ∀ e, ∃ e', w.changes e e') (e : Snapshot) {i : Request}
    (hread : ∀ remote ref, i ≠ .install remote ref) :
    ∃ trace e' reply, Runs w.Replies e (Program.request i) trace e' reply := by
  obtain ⟨r, hr⟩ := exists_read w e i hread
  obtain ⟨e', he'⟩ := hchanges e
  exact ⟨_, e', _, (runs_read hread hr).mpr ⟨rfl, he', rfl⟩⟩

theorem runs_getAppInfo {reply : Except Exception FlatpakApplication}
    (h : Runs w.Replies e (Call.getAppInfo appId arch branch) trace e' reply) :
    trace = [(e, .getAppInfo appId arch branch)] ∧ w.changes e e' ∧
      ((e.app appId arch branch = none ∧
          ∃ text, reply = .error (.installation (.notFound text))) ∨
        ∃ r, e.app appId arch branch = some r ∧ reply = .ok (e.application r)) := by
  cases happ : e.app appId arch branch with
  | none =>
    obtain ⟨text, htext⟩ := read_getAppInfo_none (w := w) happ
    obtain ⟨htrace, hchanges, hreply⟩ := (runs_read (by simp) htext).mp h
    exact ⟨htrace, hchanges, .inl ⟨rfl, text, hreply⟩⟩
  | some r =>
    obtain ⟨htrace, hchanges, hreply⟩ := (runs_read (by simp) (read_getAppInfo happ)).mp h
    exact ⟨htrace, hchanges, .inr ⟨r, rfl, hreply⟩⟩

theorem runs_getRuntimeRef {reply : Except Exception String}
    (h : Runs w.Replies e (Call.getRuntimeRef appId arch branch) trace e' reply) :
    trace = [(e, .getRuntimeRef appId arch branch)] ∧ w.changes e e' ∧
      ((e.declaredRuntime appId arch branch = none ∧
          ∃ text, reply = .error (.installation (.remote text))) ∨
        ∃ runtime, e.declaredRuntime appId arch branch = some runtime ∧ reply = .ok runtime) := by
  cases hruntime : e.declaredRuntime appId arch branch with
  | none =>
    obtain ⟨text, htext⟩ := read_getRuntimeRef_none (w := w) hruntime
    obtain ⟨htrace, hchanges, hreply⟩ := (runs_read (by simp) htext).mp h
    exact ⟨htrace, hchanges, .inl ⟨rfl, text, hreply⟩⟩
  | some runtime =>
    obtain ⟨htrace, hchanges, hreply⟩ :=
      (runs_read (by simp) (read_getRuntimeRef hruntime)).mp h
    exact ⟨htrace, hchanges, .inr ⟨runtime, rfl, hreply⟩⟩

theorem runs_isRefInstalled {ref : String} {reply : Except Exception Bool}
    (h : Runs w.Replies e (Call.isRefInstalled ref) trace e' reply) :
    trace = [(e, .isRefInstalled ref)] ∧ w.changes e e' ∧
      ((∃ err text, w.refs.parse (.ofString ref) = .error err ∧
          reply = .error (.installation (.remote text))) ∨
        ∃ r, w.refs.parse (.ofString ref) = .ok r ∧
          reply = .ok (decide (r ∈ e.installation.refs))) := by
  cases hparse : w.refs.parse (.ofString ref) with
  | error err =>
    obtain ⟨text, htext⟩ := read_isRefInstalled_error (e := e) hparse
    obtain ⟨htrace, hchanges, hreply⟩ := (runs_read (by simp) htext).mp h
    exact ⟨htrace, hchanges, .inl ⟨err, text, rfl, hreply⟩⟩
  | ok r =>
    obtain ⟨htrace, hchanges, hreply⟩ :=
      (runs_read (by simp) (read_isRefInstalled hparse)).mp h
    exact ⟨htrace, hchanges, .inr ⟨r, rfl, hreply⟩⟩

theorem runs_listApplications {includeRuntimes : Bool}
    {reply : Except Exception (List FlatpakApplication)}
    (h : Runs w.Replies e (Call.listApplications includeRuntimes) trace e' reply) :
    trace = [(e, .listApplications includeRuntimes)] ∧ w.changes e e' ∧
      ((∃ msg, e.installation.listError = some msg ∧
          reply = .error (.installation (.notFound msg.text))) ∨
        e.installation.listError = none ∧
          reply = .ok ((e.installation.refs.filter fun r => includeRuntimes || r.kind = .app).map
            e.application)) := by
  cases hlist : e.installation.listError with
  | some msg =>
    obtain ⟨htrace, hchanges, hreply⟩ :=
      (runs_read (by simp) (read_listApplications_error hlist)).mp h
    exact ⟨htrace, hchanges, .inl ⟨msg, rfl, hreply⟩⟩
  | none =>
    obtain ⟨htrace, hchanges, hreply⟩ := (runs_read (by simp) (read_listApplications hlist)).mp h
    exact ⟨htrace, hchanges, .inr ⟨rfl, hreply⟩⟩

theorem runs_install {remote ref : String} {reply : Except Exception PUnit}
    (h : Runs w.Replies e (Call.install remote ref) trace e' reply) :
    trace = [(e, .install remote ref)] ∧
      ∃ r, w.installs remote ref e r e' ∧ reply = r.mapError .transaction := by
  obtain ⟨hreply, rfl⟩ := runs_request_iff.mp h
  cases hreply with
  | read hread => cases hread
  | install hinstalls => exact ⟨rfl, _, hinstalls, rfl⟩

end Runs

end FlatpakClient
