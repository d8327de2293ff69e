/-
Icons of installed apps (`lib/src/appstream/installed_icons.dart`,
`lib/src/appstream/catalog.dart`): `installedIconPath` for one app, which looks at its
current ref, and `installedIconPaths` for several, which goes through all installed refs.

An app id is a `CString`, as libflatpak has it; `Host.text` is the string Dart has for it.

* `collect_get` — the loop over the installed apps: the first ref that has an icon
  decides;
* `installedIconPaths_single_iff` — when the batch is the single lookup of each of its
  apps.
-/
import FlatpakDart.DartString
import FlatpakDart.InsertionOrder
import FlatpakDart.ReaderOperations

open InsertionOrder Libflatpak InstallationReader

namespace InstalledIcons

/-- The file system, `package:path`, and what the codec makes of a string it reads. -/
structure Host where
  text : CString → DartString
  join : List DartString → DartString
  existsSync : DartString → Bool

/-- The members of a `FlatpakApplication` that its icon depends on. -/
structure FlatpakApplication where
  name : CString
  installedPath : DartString

/-! ### `resolveInstalledIconPath` -/

def sizes : List DartString :=
  [.lit "512x512", .lit "256x256", .lit "128x128", .lit "96x96", .lit "64x64", .lit "48x48",
    .lit "32x32", .lit "24x24", .lit "16x16"]

def roots : List DartString := [.lit "files/share/icons/hicolor", .lit "export/share/icons/hicolor"]

def appInfoRoot : DartString := .lit "files/share/app-info/icons/flatpak"

/-- The scalable icon under a root, which outranks every raster size. -/
def svgFile (host : Host) (deployDir appId root : DartString) : DartString :=
  host.join [deployDir, root, .lit "scalable", .lit "apps", appId ++ .lit ".svg"]

def pngFile (host : Host) (deployDir appId root size : DartString) : DartString :=
  host.join [deployDir, root, size, .lit "apps", appId ++ .lit ".png"]

/-- The files that the two loops over the roots look for, in this order. -/
def hicolorFiles (host : Host) (deployDir appId : DartString) : List DartString :=
  roots.flatMap fun root =>
    svgFile host deployDir appId root :: sizes.map (pngFile host deployDir appId root)

/-- The files that the last loop looks for. -/
def appInfoFiles (host : Host) (deployDir appId : DartString) : List DartString :=
  [.lit "128x128", .lit "64x64"].map fun size =>
    host.join [deployDir, appInfoRoot, size, appId ++ .lit ".png"]

def resolveInstalledIconPath (host : Host) (deployDir appId : DartString) : Option DartString :=
  if deployDir.isEmpty then none
  else
    (hicolorFiles host deployDir appId ++ appInfoFiles host deployDir appId).find? host.existsSync

/-! ### The installation, as Dart sees it -/

variable (env : InstallationReader.Environment) (host : Host)

/-- What Dart has of an installed ref. -/
def application (r : InstalledRef) : FlatpakApplication where
  name := r.name
  -- `safe_str` makes an empty string of a missing directory
  installedPath := ((env.details r).deployDir.map host.text).getD []

/-- The installed refs that `list_apps` posts without runtimes. -/
def appRefs : List InstalledRef := env.installation.refs.filter (·.kind = .app)

/-- `listApplications`; an error is the message of a `FlatpakNotFoundException`. -/
def listApplications : Except CString (List FlatpakApplication) :=
  match env.installation.listInstalledRefs with
  | .error msg => .error msg
  | .ok refs => .ok ((refs.filter (·.kind = .app)).map (application env host))

/-- `getAppInfo`, with the empty hints that are its defaults; `none` is a
`FlatpakNotFoundException`. -/
def getAppInfo (appId : CString) : Option FlatpakApplication :=
  (getInstalledAppRef env.installation appId (some (.ofBytes [])) (some (.ofBytes []))).map
    (application env host)

/-! ### The two lookups -/

/-- `installedIconPath`. -/
def installedIconPath (appId : CString) : Option DartString :=
  match getAppInfo env host appId with
  | none => none
  | some app => resolveInstalledIconPath host app.installedPath (host.text appId)

/-- The loop of `installedIconPaths`. -/
def collect (wanted : LinkedSet CString) :
    List FlatpakApplication → LinkedMap CString DartString → LinkedMap CString DartString
  | [], out => out
  | app :: rest, out =>
    if app.name ∉ wanted ∨ app.name ∈ out.keys then collect wanted rest out
    else
      match resolveInstalledIconPath host app.installedPath (host.text app.name) with
      | some icon => collect wanted rest (out.put app.name icon)
      | none => collect wanted rest out

/-- `installedIconPaths`. -/
def installedIconPaths (appIds : List CString) : Except CString (LinkedMap CString DartString) :=
  let wanted := LinkedSet.ofList appIds
  if wanted.toList.isEmpty then .ok .empty
  else
    match listApplications env host with
    | .error msg => .error msg
    | .ok apps => .ok (collect host wanted apps .empty)

/-- The icon that a ref ships. -/
def iconOf (r : InstalledRef) : Option DartString :=
  resolveInstalledIconPath host (application env host r).installedPath (host.text r.name)

/-- The batch is the single lookup of each of the apps, without those it is null for. -/
def BatchIsSingle (appIds : List CString) : Prop :=
  ∃ out, installedIconPaths env host appIds = .ok out ∧
    ∀ id, out.get id = if id ∈ appIds then installedIconPath env host id else none

/-- The first of the refs that is of the app and ships an icon. -/
def firstWithIcon (refs : List InstalledRef) (appId : CString) : Option InstalledRef :=
  refs.find? fun r => r.name = appId ∧ (iconOf env host r).isSome

/-- Where some ref of the app ships an icon, the current one does, and the first one
listed ships no other. -/
def CurrentDecides (appId : CString) : Prop :=
  ∀ r, firstWithIcon env host (appRefs env) appId = some r →
    ∃ current, env.installation.current appId = some current ∧
      iconOf env host current = iconOf env host r

/-! ### One app -/

/-- The icon of the current ref. -/
theorem installedIconPath_eq (appId : CString) :
    installedIconPath env host appId =
      (env.installation.current appId).bind (iconOf env host) := by
  have hget : getInstalledAppRef env.installation appId (some (.ofBytes []))
      (some (.ofBytes [])) = env.installation.current appId := rfl
  rw [installedIconPath, getAppInfo, hget]
  cases hcurrent : env.installation.current appId with
  | none => rfl
  | some current =>
    obtain ⟨-, -, hname⟩ := env.installation.current_installed hcurrent
    show resolveInstalledIconPath host _ (host.text appId) = iconOf env host current
    rw [iconOf, hname]

/-! ### Several apps -/

variable {env host}

theorem firstWithIcon_eq_some {refs : List InstalledRef} {appId : CString} {r : InstalledRef}
    (h : firstWithIcon env host refs appId = some r) :
    r ∈ refs ∧ r.name = appId ∧ (iconOf env host r).isSome :=
  ⟨List.mem_of_find?_eq_some h, by simpa using List.find?_some h⟩

/-- The search for the first icon, one ref at a time. -/
theorem firstWithIcon_cons (r : InstalledRef) (rest : List InstalledRef) (appId : CString) :
    (firstWithIcon env host (r :: rest) appId).bind (iconOf env host) =
      (if r.name = appId then iconOf env host r else none).or
        ((firstWithIcon env host rest appId).bind (iconOf env host)) := by
  rw [firstWithIcon, List.find?_cons]
  by_cases hname : r.name = appId
  · cases hicon : iconOf env host r with
    | none => simp [hname, firstWithIcon]
    | some icon => simp [hname, hicon]
  · simp [hname, firstWithIcon]

/-- **One round of the loop**: an icon is put in under an app that is wanted and has
none yet. -/
theorem collect_cons (wanted : LinkedSet CString) (r : InstalledRef)
    (rest : List FlatpakApplication) (out : LinkedMap CString DartString) :
    ∃ out', collect host wanted (application env host r :: rest) out =
        collect host wanted rest out' ∧
      ∀ id, out'.get id =
        (out.get id).or (if r.name = id ∧ id ∈ wanted then iconOf env host r else none) := by
  have hicon : resolveInstalledIconPath host (application env host r).installedPath
      (host.text (application env host r).name) = iconOf env host r := rfl
  have hname : (application env host r).name = r.name := rfl
  rw [collect, hicon, hname]
  by_cases hskip : r.name ∉ wanted ∨ r.name ∈ out.keys
  · refine ⟨out, if_pos hskip, fun id => ?_⟩
    split_ifs with hid
    · -- a second ref of an app that was found
      obtain ⟨rfl, hwanted⟩ := hid
      have hfound := LinkedMap.mem_keys.mp (hskip.resolve_left (not_not.mpr hwanted))
      obtain ⟨icon, hget⟩ := Option.ne_none_iff_exists'.mp hfound
      rw [hget, Option.some_or]
    · rw [Option.or_none]
  · obtain ⟨hwanted, hnew⟩ := not_or.mp hskip
    rw [not_not] at hwanted
    rw [LinkedMap.mem_keys, not_not] at hnew
    rw [if_neg hskip]
    cases iconOf env host r with
    | none => exact ⟨out, rfl, fun id => by rw [ite_self, Option.or_none]⟩
    | some icon =>
      refine ⟨out.put r.name icon, rfl, fun id => ?_⟩
      rw [LinkedMap.get_put]
      by_cases hid : r.name = id
      · subst hid
        rw [if_pos rfl, if_pos ⟨rfl, hwanted⟩, hnew, Option.none_or]
      · rw [if_neg (Ne.symm hid), if_neg fun h => hid h.1, Option.or_none]

/-- **The loop**: an app that was found keeps its icon, and any other that is wanted
gets the first one there is. -/
theorem collect_get (wanted : LinkedSet CString) (refs : List InstalledRef)
    (out : LinkedMap CString DartString) (id : CString) :
    (collect host wanted (refs.map (application env host)) out).get id =
      (out.get id).or (if id ∈ wanted then
        (firstWithIcon env host refs id).bind (iconOf env host) else none) := by
  induction refs generalizing out with
  | nil =>
    have hnone : (firstWithIcon env host [] id).bind (iconOf env host) = none := rfl
    rw [hnone, ite_self, Option.or_none]
    rfl
  | cons r rest ih =>
    obtain ⟨out', hcollect, hout'⟩ := collect_cons wanted r (rest.map (application env host)) out
    rw [List.map_cons, hcollect, ih, hout', Option.or_assoc, firstWithIcon_cons]
    by_cases hid : id ∈ wanted
    · simp only [hid, and_true, if_true]
    · simp only [hid, and_false, if_false, Option.or_none]

/-- Where an app is asked for, the installed refs are listed. -/
theorem installedIconPaths_of_ne_nil {appIds : List CString} (h : appIds ≠ []) :
    installedIconPaths env host appIds =
      match listApplications env host with
      | .error msg => .error msg
      | .ok apps => .ok (collect host (.ofList appIds) apps .empty) := by
  have hwanted : (LinkedSet.ofList appIds).toList.isEmpty = false := by
    obtain ⟨id, hid⟩ := List.exists_mem_of_ne_nil appIds h
    have hmem : id ∈ (LinkedSet.ofList appIds).toList :=
      LinkedSet.mem_toList.mpr (LinkedSet.mem_ofList.mpr hid)
    exact List.isEmpty_eq_false_iff.mpr (List.ne_nil_of_mem hmem)
  simp only [installedIconPaths, hwanted, Bool.false_eq_true, if_false]

theorem listApplications_eq :
    listApplications env host = match env.installation.listError with
      | some msg => .error msg
      | none => .ok ((appRefs env).map (application env host)) := by
  rw [listApplications, Installation.listInstalledRefs]
  cases env.installation.listError <;> rfl

variable (env host) in
/-- The batch, where the refs can be listed. -/
theorem installedIconPaths_get {appIds : List CString} (hlist : env.installation.listError = none)
    (hsome : appIds ≠ []) :
    ∃ out, installedIconPaths env host appIds = .ok out ∧ ∀ id, out.get id =
      if id ∈ appIds then (firstWithIcon env host (appRefs env) id).bind (iconOf env host)
      else none := by
  refine ⟨collect host (.ofList appIds) ((appRefs env).map (application env host)) .empty, ?_,
    fun id => ?_⟩
  · rw [installedIconPaths_of_ne_nil hsome, listApplications_eq, hlist]
  · rw [collect_get, LinkedMap.get_empty, Option.none_or]
    simp only [LinkedSet.mem_ofList]

/-- The first icon there is, is that of the current ref. -/
theorem currentDecides_iff (appId : CString) :
    CurrentDecides env host appId ↔
      (firstWithIcon env host (appRefs env) appId).bind (iconOf env host) =
        installedIconPath env host appId := by
  rw [CurrentDecides, installedIconPath_eq]
  cases hfirst : firstWithIcon env host (appRefs env) appId with
  | none =>
    refine iff_of_true (by simp) ?_
    cases hcurrent : env.installation.current appId with
    | none => rfl
    | some current =>
      -- the current ref is among those that were searched
      obtain ⟨hmem, hkind, hname⟩ := env.installation.current_installed hcurrent
      have hnot := List.find?_eq_none.mp hfirst current (List.mem_filter.mpr ⟨hmem, by simpa⟩)
      rw [hname, decide_eq_true_eq, not_and, Option.not_isSome_iff_eq_none] at hnot
      exact (hnot rfl).symm
  | some r =>
    obtain ⟨-, -, hicon⟩ := firstWithIcon_eq_some hfirst
    obtain ⟨icon, hicon⟩ := Option.isSome_iff_exists.mp hicon
    rw [Option.bind_some, hicon]
    constructor
    · intro h
      obtain ⟨current, hcurrent, hsame⟩ := h r rfl
      rw [hcurrent, Option.bind_some, hsame, hicon]
    · rintro h r' ⟨⟩
      obtain ⟨current, hcurrent, hsame⟩ := Option.bind_eq_some_iff.mp h.symm
      exact ⟨current, hcurrent, hsame.trans hicon.symm⟩

/-- **When the batch is the single lookup of each of its apps**: if none is asked for,
or the installed refs can be listed and of each app the current ref decides. -/
theorem installedIconPaths_single_iff (env : InstallationReader.Environment) (host : Host)
    (appIds : List CString) :
    BatchIsSingle env host appIds ↔
      appIds = [] ∨
        env.installation.listError = none ∧ ∀ id ∈ appIds, CurrentDecides env host id := by
  by_cases hnil : appIds = []
  · subst hnil
    exact iff_of_true ⟨.empty, rfl, fun id => by simp⟩ (.inl rfl)
  · rw [or_iff_right hnil]
    cases herror : env.installation.listError with
    | some msg =>
      refine iff_of_false ?_ fun h => Option.some_ne_none msg h.1
      rintro ⟨out, hout, -⟩
      rw [installedIconPaths_of_ne_nil hnil, listApplications_eq, herror] at hout
      cases hout
    | none =>
      obtain ⟨out, hout, hget⟩ := installedIconPaths_get env host herror hnil
      constructor
      · rintro ⟨out', hout', hsingle⟩
        obtain rfl := Except.ok.inj (hout.symm.trans hout')
        refine ⟨rfl, fun id hid => (currentDecides_iff id).mpr ?_⟩
        have hboth := (hget id).symm.trans (hsingle id)
        rwa [if_pos hid, if_pos hid] at hboth
      · rintro ⟨-, hdecides⟩
        refine ⟨out, hout, fun id => ?_⟩
        rw [hget]
        split_ifs with hid
        · exact (currentDecides_iff id).mp (hdecides id hid)
        · rfl

/-! ### An app with two branches -/

def betaBranch : InstalledRef :=
  ⟨.app, nativeBuild.name, nativeBuild.arch, .lit "beta" (by decide)⟩

/-- The stable branch is current, and each branch has a directory of its own. -/
def twoBranches : InstallationReader.Environment where
  installation :=
    { refs := [nativeBuild, betaBranch]
      listError := none
      current app := if app = nativeBuild.name then some nativeBuild else none
      defaultArch := nativeBuild.arch
      current_installed h := by
        obtain ⟨rfl, h⟩ := Option.ite_none_right_eq_some.mp h
        obtain rfl := Option.some_inj.mp h
        exact ⟨by simp, rfl, rfl⟩ }
  details r := ⟨none, none, none, none, some r.branch, 0, none, none, none, none, none⟩
  notInstalled := none
  loadMetadata _ := .error none
  loadFromData _ := .error none

/-- Only the beta branch ships an icon. -/
def betaIcon : Host where
  text s := s.bytes.map (·.toUInt16)
  join parts := List.intercalate (DartString.lit "/") parts
  existsSync path := path = DartString.lit "beta/files/share/icons/hicolor/64x64/apps/org.App.png"

/-- **The batch finds an icon for an app that the single lookup finds none for.** -/
theorem installedIconPaths_otherBranch :
    installedIconPath twoBranches betaIcon nativeBuild.name = none ∧
      ¬ BatchIsSingle twoBranches betaIcon [nativeBuild.name] := by
  have hsingle : installedIconPath twoBranches betaIcon nativeBuild.name = none := by
    decide +kernel
  refine ⟨hsingle, ?_⟩
  rintro ⟨out, hout, hget⟩
  obtain ⟨out', hout', hget'⟩ := installedIconPaths_get twoBranches betaIcon rfl
    (List.cons_ne_nil nativeBuild.name [])
  obtain rfl := Except.ok.inj (hout.symm.trans hout')
  have hsame := (hget nativeBuild.name).symm.trans (hget' nativeBuild.name)
  rw [if_pos List.mem_cons_self, if_pos List.mem_cons_self, hsingle] at hsame
  have hfound : (firstWithIcon twoBranches betaIcon (appRefs twoBranches) nativeBuild.name).bind
      (iconOf twoBranches betaIcon) ≠ none := by
    decide +kernel
  exact hfound hsame.symm

end InstalledIcons
