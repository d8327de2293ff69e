/-
Which extensions of an app are missing (`native/src/installation_reader.cpp`).

`Installs` says that refs were added to what is installed, wherever they are listed.

* `extensionInstalled_iff` — the loop over the branches, as a question about the
  installed refs;
* `listMissingExtensions_settled` — once the posted refs are installed, none is posted;
* `extensionResolution` — the three together.
-/
import FlatpakDart.ReaderOperations

open Libflatpak Glib AppMetadata

namespace InstallationReader

/-- The ref that `extensionRef` names. -/
def extensionTarget (arch : CString) (ext : RequiredExtension) : InstalledRef :=
  ⟨.runtime, ext.id, arch, ext.branches.head ext.nonempty⟩

/-- The entries none of whose branches is installed. -/
def missingExtensions (refs : List InstalledRef) (arch : CString)
    (required : List RequiredExtension) : List RequiredExtension :=
  required.filter fun ext =>
    ext.branches.all fun branch => !refs.contains ⟨.runtime, ext.id, arch, branch⟩

/-- `env'` is `env` with these refs added to the installed ones; none of them is an
app. -/
structure Installs (env env' : Environment) (added : List InstalledRef) : Prop where
  refs : ∀ r, r ∈ env'.installation.refs ↔ r ∈ env.installation.refs ∨ r ∈ added
  apps : env'.installation.refs.filter (·.kind = .app) =
    env.installation.refs.filter (·.kind = .app)
  listError : env'.installation.listError = env.installation.listError
  current : env'.installation.current = env.installation.current
  defaultArch : env'.installation.defaultArch = env.installation.defaultArch
  loadMetadata : env'.loadMetadata = env.loadMetadata
  loadFromData : env'.loadFromData = env.loadFromData

/-! ### The loop over the branches -/

theorem extensionInstalled_iff (inst : Installation) (arch : CString) (ext : RequiredExtension) :
    extensionInstalled inst arch ext = true ↔
      ∃ branch ∈ ext.branches, (⟨.runtime, ext.id, arch, branch⟩ : InstalledRef) ∈ inst.refs := by
  rw [extensionInstalled, List.any_eq_true]
  refine exists_congr fun branch => and_congr_right fun _ => ?_
  rw [Option.isSome_iff_exists]
  constructor
  · rintro ⟨r, hr⟩
    obtain ⟨hmem, rfl⟩ := Installation.getInstalledRef_eq_some.mp hr
    exact hmem
  · exact fun hmem => ⟨_, Installation.getInstalledRef_eq_some.mpr ⟨hmem, rfl⟩⟩

theorem mem_missingExtensions {refs : List InstalledRef} {arch : CString}
    {required : List RequiredExtension} {ext : RequiredExtension} :
    ext ∈ missingExtensions refs arch required ↔ ext ∈ required ∧
      ∀ branch ∈ ext.branches, (⟨.runtime, ext.id, arch, branch⟩ : InstalledRef) ∉ refs := by
  simp [missingExtensions]

/-- What is posted, of an installed app with readable metadata. -/
theorem listMissingExtensions_eq {env : Environment} {app : CString} {arch branch : Option CString}
    {iref : InstalledRef} {kf : KeyFile} (h : appMetadata env app arch branch = .ok (iref, kf)) :
    listMissingExtensions env app arch branch =
      (missingExtensions env.installation.refs iref.arch
          (requiredExtensions kf iref.branch)).map
        (fun ext => postString (extensionRef iref.arch ext)) ++ [postSentinel] := by
  have hsame : ∀ ext, (!extensionInstalled env.installation iref.arch ext) =
      ext.branches.all fun branch =>
        !env.installation.refs.contains ⟨.runtime, ext.id, iref.arch, branch⟩ := by
    intro ext
    rw [Bool.eq_iff_iff, Bool.not_eq_true', Bool.eq_false_iff, ne_eq, extensionInstalled_iff]
    simp
  rw [listMissingExtensions, h, missingExtensions]
  simp only [hsame]

/-! ### Installing what is missing -/

/-- The app is the same one after refs that are no apps were added. -/
theorem Installs.getInstalledAppRef_eq {env env' : Environment} {added : List InstalledRef}
    (h : Installs env env' added) (app : CString) (arch branch : Option CString) :
    getInstalledAppRef env'.installation app arch branch =
      getInstalledAppRef env.installation app arch branch := by
  have happ : ∀ r : InstalledRef, r.kind = .app →
      (r ∈ env'.installation.refs ↔ r ∈ env.installation.refs) := by
    intro r hr
    have hiff : r ∈ env'.installation.refs.filter (·.kind = .app) ↔
        r ∈ env.installation.refs.filter (·.kind = .app) := by rw [h.apps]
    simpa [hr] using hiff
  rw [getInstalledAppRef, getInstalledAppRef]
  cases hint branch with
  | some branch =>
    refine Option.ext fun r => ?_
    rw [Installation.getInstalledRef_eq_some, Installation.getInstalledRef_eq_some, h.defaultArch]
    refine and_congr_left ?_
    rintro rfl
    exact happ _ rfl
  | none =>
    cases hint arch with
    | none => exact congrFun h.current app
    | some arch =>
      have hlist : env'.installation.listInstalledRefsByKind .app =
          env.installation.listInstalledRefsByKind .app := by
        rw [Installation.listInstalledRefsByKind, Installation.listInstalledRefsByKind,
          Installation.listInstalledRefs, Installation.listInstalledRefs, h.listError]
        cases env.installation.listError with
        | none => exact congrArg Except.ok h.apps
        | some e => rfl
      have hmatch : ∀ refs found, matchArch env'.installation app arch refs found =
          matchArch env.installation app arch refs found := by
        intro refs
        induction refs with
        | nil => exact fun found => rfl
        | cons r rest ih =>
          intro found
          rw [matchArch, matchArch, Installation.isCurrent, Installation.isCurrent, h.current]
          simp only [ih]
      simp only [hlist, hmatch]

theorem Installs.appMetadata_eq {env env' : Environment} {added : List InstalledRef}
    (h : Installs env env' added) {app : CString} {arch branch : Option CString}
    {iref : InstalledRef} {kf : KeyFile} (happ : appMetadata env app arch branch = .ok (iref, kf)) :
    appMetadata env' app arch branch = .ok (iref, kf) := by
  rw [appMetadata, h.getInstalledAppRef_eq, h.loadMetadata, h.loadFromData]
  rw [appMetadata] at happ
  cases hget : getInstalledAppRef env.installation app arch branch with
  | none => simp [hget] at happ
  | some r => rwa [hget] at happ

/-- **The fixpoint**: once every posted ref is installed, none is posted. -/
theorem listMissingExtensions_settled {env env' : Environment} {app : CString}
    {arch branch : Option CString} {iref : InstalledRef} {kf : KeyFile}
    (happ : appMetadata env app arch branch = .ok (iref, kf))
    (h : Installs env env' ((missingExtensions env.installation.refs iref.arch
      (requiredExtensions kf iref.branch)).map (extensionTarget iref.arch))) :
    listMissingExtensions env' app arch branch = [postSentinel] := by
  have hnone : missingExtensions env'.installation.refs iref.arch
      (requiredExtensions kf iref.branch) = [] := by
    refine List.eq_nil_iff_forall_not_mem.mpr fun ext hext => ?_
    obtain ⟨hrequired, hout⟩ := mem_missingExtensions.mp hext
    have hfirst := hout _ (List.head_mem ext.nonempty)
    rw [h.refs, not_or] at hfirst
    -- an entry that is missing now was missing before, and its first branch was added
    refine hfirst.2 (List.mem_map.mpr ⟨ext, mem_missingExtensions.mpr ⟨hrequired, ?_⟩, rfl⟩)
    exact fun b hb hmem => hout b hb ((h.refs _).mpr (.inl hmem))
  rw [listMissingExtensions_eq (h.appMetadata_eq happ), hnone]
  rfl

/-- **The resolution of extensions**: what the groups of the metadata require, which
of it is posted, and that installing this settles it. -/
theorem extensionResolution {env : Environment} {app : CString} {arch branch : Option CString}
    {iref : InstalledRef} {kf : KeyFile} (h : appMetadata env app arch branch = .ok (iref, kf)) :
    List.Forall₂ (IsEntry kf iref.branch) (kf.getGroups.val.filter (asks kf))
      (requiredExtensions kf iref.branch) ∧
    listMissingExtensions env app arch branch =
      (missingExtensions env.installation.refs iref.arch (requiredExtensions kf iref.branch)).map
        (fun ext => postString (.ofBytes (Text.utf8Encode "runtime/" ++ ext.id.bytes ++
          Text.utf8Encode "/" ++ iref.arch.bytes ++ Text.utf8Encode "/" ++
            (ext.branches.head ext.nonempty).bytes))) ++ [postSentinel] ∧
    ∀ env', Installs env env' ((missingExtensions env.installation.refs iref.arch
        (requiredExtensions kf iref.branch)).map (extensionTarget iref.arch)) →
      listMissingExtensions env' app arch branch = [postSentinel] :=
  ⟨requiredExtensions_spec kf iref.branch, listMissingExtensions_eq h,
    fun _ hinstalls => listMissingExtensions_settled h hinstalls⟩

/-! ### An app with a locale extension -/

/-- `[Extension org.App.Locale]`, without any key. -/
def localeMetadata : KeyFile where
  getGroups := ⟨[.lit "Extension org.App.Locale" (by decide)], by decide⟩
  getKeys _ := none
  getString _ _ := none
  getStringList _ _ := none
  getBoolean _ _ := false

def noDetails : Details :=
  ⟨none, none, none, none, none, 0, none, none, none, none, none⟩

/-- The app is installed, its extension is not. -/
def withoutLocale : Environment where
  installation := twoBuilds
  details _ := noDetails
  notInstalled := none
  loadMetadata _ := .ok []
  loadFromData _ := .ok localeMetadata

/-- And with it. -/
def locale : InstalledRef :=
  ⟨.runtime, .lit "org.App.Locale" (by decide), foreignBuild.arch, foreignBuild.branch⟩

def withLocale : Environment :=
  { withoutLocale with
    installation := { twoBuilds with
      refs := locale :: twoBuilds.refs
      current_installed := fun h =>
        have hcurrent := twoBuilds.current_installed h
        ⟨List.mem_cons_of_mem _ hcurrent.1, hcurrent.2⟩ } }

/-- One ref is posted, and none once it is installed. -/
theorem extensionResolution_locale :
    listMissingExtensions withoutLocale foreignBuild.name none none =
      [postString (.ofString "runtime/org.App.Locale/aarch64/stable"), postSentinel] ∧
    listMissingExtensions withLocale foreignBuild.name none none = [postSentinel] := by
  have happ : appMetadata withoutLocale foreignBuild.name none none =
      .ok (foreignBuild, localeMetadata) := rfl
  obtain ⟨-, hposted, hsettled⟩ := extensionResolution happ
  have htarget : (missingExtensions withoutLocale.installation.refs foreignBuild.arch
      (requiredExtensions localeMetadata foreignBuild.branch)).map
        (extensionTarget foreignBuild.arch) = [locale] := by decide +kernel
  refine ⟨?_, hsettled withLocale ?_⟩
  · rw [hposted]
    decide +kernel
  · rw [htarget]
    refine ⟨fun r => ?_, by decide +kernel, rfl, rfl, rfl, rfl, rfl⟩
    exact List.mem_cons.trans (or_comm.trans (or_congr_right List.mem_singleton.symm))

end InstallationReader
