/-
What an app's metadata asks for (`native/src/app_metadata.cpp`).

A `KeyFile` is a parsed `GKeyFile`, as GLib's getters read it.

`requiredExtensions_spec` — the extensions are those of the groups that ask for one, in
order, each with the branches that its group names.
-/
import FlatpakDart.Text
import Mathlib.Data.List.Forall2

namespace Glib

/-- A `GStrv`: an array of pointers, eight bytes each, no larger than an object can
be. -/
abbrev Strv : Type := { l : List CString // l.length < 2 ^ 60 }

/-- A `GKeyFile`: an unset key is `none`, or false. -/
structure KeyFile where
  getGroups : Strv
  getKeys : CString → Option Strv
  getString : CString → CString → Option CString
  getStringList : CString → CString → Option Strv
  getBoolean : CString → CString → Bool

/-- `g_ascii_isspace`, which leaves out the vertical tab. -/
def isSpace (c : UInt8) : Bool := c ∈ [0x20, 0x09, 0x0A, 0x0C, 0x0D]

/-- `g_strstrip`. -/
def strip (s : CString) : CString :=
  .ofBytes ((s.bytes.dropWhile isSpace).reverse.dropWhile isSpace).reverse

end Glib

open Glib

namespace AppMetadata

/-- The group of the sandbox permissions. -/
def context : CString := .lit "Context" (by decide)

/-- `metadata_requests_socket`. -/
def metadataRequestsSocket (kf : KeyFile) (socketName : CString) : Bool :=
  match kf.getStringList context (.lit "sockets" (by decide)) with
  | none => false
  | some sockets => sockets.val.any fun entry =>
    -- a negated entry is withheld, not requested
    (strip entry).bytes.head? ≠ some 0x21 && strip entry = socketName

/-- An extension, and the branches that satisfy it; the first is the one to install. -/
structure RequiredExtension where
  id : CString
  branches : List CString
  nonempty : branches ≠ []

/-- `kPrefix`. -/
def kPrefix : CString := .lit "Extension " (by decide)

/-- The `version` of a group, or else the branch of the app. -/
def singleBranch (kf : KeyFile) (group appBranch : CString) : CString :=
  ((kf.getString group (.lit "version" (by decide))).filter (·.bytes ≠ [])).getD appBranch

/-- The non-empty `versions` of a group. -/
def versions (kf : KeyFile) (group : CString) : List CString :=
  match kf.getStringList group (.lit "versions" (by decide)) with
  | none => []
  | some vs => vs.val.filter (·.bytes ≠ [])

/-- What one group adds to `out`. -/
def requiredExtension (kf : KeyFile) (appBranch group : CString) : Option RequiredExtension :=
  if ¬ kPrefix.bytes <+: group.bytes then none
  else
    let extId : CString := .ofBytes (group.bytes.drop kPrefix.bytes.length)
    if extId.bytes = [] then none
    else if kf.getBoolean group (.lit "no-autodownload" (by decide)) then none
    else if kf.getBoolean group (.lit "subdirectories" (by decide)) then none
    else if h : versions kf group ≠ [] then some ⟨extId, versions kf group, h⟩
    else some ⟨extId, [singleBranch kf group appBranch], List.cons_ne_nil _ _⟩

/-- `required_extensions`. -/
def requiredExtensions (kf : KeyFile) (appBranch : CString) : List RequiredExtension :=
  kf.getGroups.val.filterMap (requiredExtension kf appBranch)

/-! ### What the groups ask for -/

/-- The group is `Extension <id>` and has to be there at install time. -/
def asks (kf : KeyFile) (group : CString) : Bool :=
  kPrefix.bytes.isPrefixOf group.bytes && decide (kPrefix.bytes.length < group.bytes.length) &&
    !kf.getBoolean group (.lit "no-autodownload" (by decide)) &&
    !kf.getBoolean group (.lit "subdirectories" (by decide))

/-- No entry of a group's `versions` has any text. -/
def NoVersions (kf : KeyFile) (group : CString) : Prop :=
  ∀ vs, kf.getStringList group (.lit "versions" (by decide)) = some vs →
    ∀ v ∈ vs.val, v.bytes = []

/-- What a group says about its extension: the non-empty entries of `versions`, or
else `version`, or else the branch of the app. -/
structure IsEntry (kf : KeyFile) (appBranch group : CString) (ext : RequiredExtension) : Prop where
  id_eq : group.bytes = kPrefix.bytes ++ ext.id.bytes
  id_ne : ext.id.bytes ≠ []
  branches_ne : ext.branches ≠ []
  plural : ¬ NoVersions kf group → ∃ vs,
    kf.getStringList group (.lit "versions" (by decide)) = some vs ∧
      ext.branches = vs.val.filter (·.bytes ≠ [])
  singular : NoVersions kf group → ∀ v,
    kf.getString group (.lit "version" (by decide)) = some v → v.bytes ≠ [] → ext.branches = [v]
  inherited : NoVersions kf group →
    (∀ v, kf.getString group (.lit "version" (by decide)) = some v → v.bytes = []) →
      ext.branches = [appBranch]

theorem versions_eq_nil {kf : KeyFile} {group : CString} :
    versions kf group = [] ↔ NoVersions kf group := by
  rw [versions, NoVersions]
  cases kf.getStringList group (.lit "versions" (by decide)) with
  | none => simp
  | some vs => simp [List.filter_eq_nil_iff]

theorem versions_of_ne {kf : KeyFile} {group : CString} (h : versions kf group ≠ []) :
    ∃ vs, kf.getStringList group (.lit "versions" (by decide)) = some vs ∧
      versions kf group = vs.val.filter (·.bytes ≠ []) := by
  rw [versions] at h ⊢
  cases hvs : kf.getStringList group (.lit "versions" (by decide)) with
  | none => simp [hvs] at h
  | some vs => exact ⟨vs, rfl, rfl⟩

theorem singleBranch_of_version {kf : KeyFile} {group v : CString} (appBranch : CString)
    (h : kf.getString group (.lit "version" (by decide)) = some v) (hne : v.bytes ≠ []) :
    singleBranch kf group appBranch = v := by
  rw [singleBranch, h, Option.filter_some, if_pos (decide_eq_true hne), Option.getD_some]

theorem singleBranch_inherited {kf : KeyFile} {group : CString} (appBranch : CString)
    (h : ∀ v, kf.getString group (.lit "version" (by decide)) = some v → v.bytes = []) :
    singleBranch kf group appBranch = appBranch := by
  rw [singleBranch, Option.filter_eq_none_iff.mpr fun v hv => by simp [h v hv], Option.getD_none]

/-- A group that asks for an extension adds its entry, and another one nothing. -/
theorem requiredExtension_cases (kf : KeyFile) (appBranch group : CString) :
    (asks kf group = false ∧ requiredExtension kf appBranch group = none) ∨
      (asks kf group = true ∧
        ∃ ext, requiredExtension kf appBranch group = some ext ∧
          IsEntry kf appBranch group ext) := by
  by_cases hbegins : kPrefix.bytes <+: group.bytes
  swap
  · refine .inl ⟨?_, by rw [requiredExtension, if_pos hbegins]⟩
    simp [asks, hbegins]
  -- the id is what follows the prefix
  obtain ⟨id, hid⟩ := hbegins
  have hfree : 0 ∉ id := fun h => group.nulFree (by rw [← hid]; exact List.mem_append_right _ h)
  have hlength : id.length < 2 ^ 63 := by
    have := group.bounded
    rw [← hid, List.length_append] at this
    omega
  have hext : (CString.ofBytes (group.bytes.drop kPrefix.bytes.length)).bytes = id := by
    rw [← hid, List.drop_left, CString.bytes_ofBytes hfree hlength]
  -- a group with nothing behind the prefix has no id
  have hlonger : kPrefix.bytes.length < group.bytes.length ↔ id ≠ [] := by
    rw [← hid, List.length_append, ← List.length_pos_iff]
    omega
  have hasks : asks kf group =
      (decide (id ≠ []) && !kf.getBoolean group (.lit "no-autodownload" (by decide)) &&
        !kf.getBoolean group (.lit "subdirectories" (by decide))) := by
    rw [asks, List.isPrefixOf_iff_prefix.mpr ⟨id, hid⟩]
    simp only [hlonger, Bool.true_and]
  rw [requiredExtension, if_neg (not_not.mpr ⟨id, hid⟩)]
  simp only [hext]
  -- the checks in the order of the loop; then the versions, or else one branch
  split_ifs with hne hoptional hsubs hversions
  · exact .inl ⟨by simp [hasks, hne], rfl⟩
  · exact .inl ⟨by simp [hasks, hoptional], rfl⟩
  · exact .inl ⟨by simp [hasks, hsubs], rfl⟩
  all_goals
    refine .inr ⟨by simp [hasks, hne, hoptional, hsubs], _, rfl, ?_⟩
  · exact
      { id_eq := by rw [hext, hid]
        id_ne := by rwa [hext]
        branches_ne := hversions
        plural := fun _ => versions_of_ne hversions
        singular := fun h => absurd (versions_eq_nil.mpr h) hversions
        inherited := fun h => absurd (versions_eq_nil.mpr h) hversions }
  · exact
      { id_eq := by rw [hext, hid]
        id_ne := by rwa [hext]
        branches_ne := List.cons_ne_nil _ _
        plural := fun h => absurd (versions_eq_nil.mp (not_not.mp hversions)) h
        singular := fun _ _ hv hne =>
          congrArg ([·]) (singleBranch_of_version appBranch hv hne)
        inherited := fun _ h => congrArg ([·]) (singleBranch_inherited appBranch h) }

/-- **The extensions an app requires** are those of the groups that ask for one, in
the order of the groups. -/
theorem requiredExtensions_spec (kf : KeyFile) (appBranch : CString) :
    List.Forall₂ (IsEntry kf appBranch) (kf.getGroups.val.filter (asks kf))
      (requiredExtensions kf appBranch) := by
  rw [requiredExtensions]
  induction kf.getGroups.val with
  | nil => exact .nil
  | cons group groups ih =>
    rcases requiredExtension_cases kf appBranch group with
      ⟨hasks, hnone⟩ | ⟨hasks, ext, hext, hentry⟩
    · rwa [List.filter_cons_of_neg (by simp [hasks]), List.filterMap_cons_none hnone]
    · rw [List.filter_cons_of_pos hasks, List.filterMap_cons_some hext]
      exact .cons hentry ih

end AppMetadata
