/-
Which installed app a pair of hints means
(`native/src/installation_reader.cpp`, `lib/src/flatpak_client.dart`).

`getInstalledAppRef` is what `getAppInfo` and `getRuntimeRef`, and so
`checkRunnable`, look at; `launchedRef` is what `launch` starts.

* `scan_hinted`, `scan_unhinted` — the loop of `resolve_launch_target` finds the first
  ref that satisfies the hints, and prefers the default arch if no arch was asked for;
* `resolveLaunchTarget_choice` — what `resolve_launch_target` chooses among the refs
  that satisfy the hints;
* `same_ref_iff` — the two mean the same ref, except for a branch without an arch
  that the current app has on a foreign arch.

What is assumed of libflatpak:

* `getInstalledRef` — an installed ref is found by its kind, name, arch and branch;
* `getCurrentInstalledApp`, `isCurrent` — one ref of an app may be current, and is installed;
* `listInstalledRefs`, `listInstalledRefsByKind` — all refs, or those of a kind, are listed in
  one order, unless the listing fails.
-/
import FlatpakDart.Text

/-! ### Installed refs -/

namespace Libflatpak

inductive RefKind
  | app
  | runtime
  deriving DecidableEq

/-- `FlatpakInstalledRef`. -/
structure InstalledRef where
  kind : RefKind
  name : CString
  arch : CString
  branch : CString
  deriving DecidableEq

/-- What is installed, in listing order, and which ref of an app is current; listing
may fail. -/
structure Installation where
  refs : List InstalledRef
  listError : Option CString
  current : CString → Option InstalledRef
  defaultArch : CString
  current_installed : ∀ {app r}, current app = some r → r ∈ refs ∧ r.kind = .app ∧ r.name = app

namespace Installation

/-- `flatpak_installation_get_installed_ref`; a null arch is the default one. -/
def getInstalledRef (inst : Installation) (kind : RefKind) (name : CString) (arch : Option CString)
    (branch : CString) : Option InstalledRef :=
  inst.refs.find? (· = ⟨kind, name, arch.getD inst.defaultArch, branch⟩)

/-- `flatpak_installation_get_current_installed_app`. -/
def getCurrentInstalledApp (inst : Installation) (app : CString) : Option InstalledRef :=
  inst.current app

/-- `flatpak_installation_list_installed_refs`. -/
def listInstalledRefs (inst : Installation) : Except CString (List InstalledRef) :=
  match inst.listError with
  | some e => .error e
  | none => .ok inst.refs

/-- `flatpak_installation_list_installed_refs_by_kind`. -/
def listInstalledRefsByKind (inst : Installation) (kind : RefKind) :
    Except CString (List InstalledRef) :=
  inst.listInstalledRefs.map (·.filter (·.kind = kind))

/-- `flatpak_installed_ref_get_is_current`. -/
def isCurrent (inst : Installation) (r : InstalledRef) : Bool := inst.current r.name = some r

theorem getInstalledRef_eq_some {inst : Installation} {kind : RefKind} {name branch : CString}
    {arch : Option CString} {r : InstalledRef} :
    inst.getInstalledRef kind name arch branch = some r ↔
      r ∈ inst.refs ∧ r = ⟨kind, name, arch.getD inst.defaultArch, branch⟩ := by
  constructor
  · intro h
    exact ⟨List.mem_of_find?_eq_some h, by simpa using List.find?_some h⟩
  · rintro ⟨hmem, rfl⟩
    rw [getInstalledRef]
    cases hfind : inst.refs.find? _ with
    | none => exact absurd (List.find?_eq_none.mp hfind _ hmem) (by simp)
    | some r => exact congrArg some (by simpa using List.find?_some hfind)

end Installation

end Libflatpak

open Libflatpak

namespace InstallationReader

/-- `(arch && *arch) ? arch : nullptr`. -/
def hint (arg : Option CString) : Option CString := arg.filter (·.bytes ≠ [])

/-! ### `get_installed_app_ref` -/

/-- The loop over the installed apps: the first one of the arch, or the current one. -/
def matchArch (inst : Installation) (app arch : CString) :
    List InstalledRef → Option InstalledRef → Option InstalledRef
  | [], found => found
  | r :: rest, found =>
    if r.name ≠ app ∨ r.arch ≠ arch then matchArch inst app arch rest found
    else if found.isNone ∨ inst.isCurrent r then matchArch inst app arch rest (some r)
    else matchArch inst app arch rest found

/-- `get_installed_app_ref`; `none` where it sets an error. -/
def getInstalledAppRef (inst : Installation) (app : CString) (arch branch : Option CString) :
    Option InstalledRef :=
  match hint branch, hint arch with
  | some branch, arch => inst.getInstalledRef .app app arch branch
  | none, none => inst.getCurrentInstalledApp app
  | none, some arch =>
    match inst.listInstalledRefsByKind .app with
    | .error _ => none
    | .ok refs => matchArch inst app arch refs none

/-! ### `resolve_launch_target` and `launch_impl` -/

/-- The ref is of the app and satisfies the hints. -/
def Satisfies (app : CString) (arch branch : Option CString) (r : InstalledRef) : Prop :=
  r.kind = .app ∧ r.name = app ∧ (∀ a ∈ arch, r.arch = a) ∧ ∀ b ∈ branch, r.branch = b

instance (app : CString) (arch branch : Option CString) (r : InstalledRef) :
    Decidable (Satisfies app arch branch r) :=
  inferInstanceAs (Decidable (_ ∧ _ ∧ (∀ a ∈ arch, r.arch = a) ∧ ∀ b ∈ branch, r.branch = b))

/-- The loop over the installed refs, with `*out_arch` and `*out_branch`. -/
def scan (defaultArch app : CString) (arch branch : Option CString) :
    List InstalledRef → Option (CString × CString) → Option (CString × CString)
  | [], out => out
  | r :: rest, out =>
    if Satisfies app arch branch r then
      let out := if out.isNone ∨ (arch = none ∧ r.arch = defaultArch) then some (r.arch, r.branch)
        else out
      -- nothing is better than the default arch
      if r.arch = defaultArch then out else scan defaultArch app arch branch rest out
    else scan defaultArch app arch branch rest out

/-- `resolve_launch_target`; an error is what it leaves in `*out_err`. -/
def resolveLaunchTarget (inst : Installation) (app : CString) (arch branch : Option CString) :
    Except CString (Option (CString × CString)) :=
  match (inst.getCurrentInstalledApp app).filter fun current =>
      (arch.all (current.arch = ·)) && branch.all (current.branch = ·) with
  | some current => .ok (some (current.arch, current.branch))
  | none => inst.listInstalledRefs.map fun refs => scan inst.defaultArch app arch branch refs none

/-- The arch and branch that `launch_impl` passes to `launch_full`. -/
def launchTarget (inst : Installation) (app : CString) (arch branch : Option CString) :
    Option (CString × CString) :=
  match hint arch, hint branch with
  | some arch, some branch => some (arch, branch)
  | arch, branch =>
    match resolveLaunchTarget inst app arch branch with
    | .ok (some (a, b)) => some (arch.getD a, branch.getD b)
    | _ => none

/-- The ref that is started, if it is installed. -/
def launchedRef (inst : Installation) (app : CString) (arch branch : Option CString) :
    Option InstalledRef :=
  (launchTarget inst app arch branch).bind fun (a, b) => inst.getInstalledRef .app app (some a) b

/-! ### The two loops -/

/-- With an arch asked for, the first ref that satisfies the hints is found. -/
theorem scan_hinted (defaultArch app a : CString) (branch : Option CString)
    (refs : List InstalledRef) (out : Option (CString × CString)) :
    scan defaultArch app (some a) branch refs out =
      out.or ((refs.find? (Satisfies app (some a) branch ·)).map
        fun r => (r.arch, r.branch)) := by
  induction refs generalizing out with
  | nil => cases out <;> rfl
  | cons r rest ih =>
    rw [scan, List.find?_cons]
    by_cases hr : Satisfies app (some a) branch r
    · cases out <;> simp [hr, ih]
    · simp [hr, ih]

/-- With none, a ref of the default arch is preferred. -/
theorem scan_unhinted (defaultArch app : CString) (branch : Option CString)
    (refs : List InstalledRef) (out : Option (CString × CString)) :
    scan defaultArch app none branch refs out =
      ((refs.find? fun r => Satisfies app none branch r ∧ r.arch = defaultArch).map
          fun r => (r.arch, r.branch)).or
        (out.or ((refs.find? (Satisfies app none branch ·)).map
          fun r => (r.arch, r.branch))) := by
  induction refs generalizing out with
  | nil => cases out <;> rfl
  | cons r rest ih =>
    rw [scan, List.find?_cons, List.find?_cons]
    by_cases hr : Satisfies app none branch r
    · by_cases harch : r.arch = defaultArch
      · simp [hr, harch]
      · cases out <;> simp [hr, harch, ih]
    · simp [hr, ih]

/-- The current ref, once met, is not replaced. -/
theorem matchArch_current {inst : Installation} {app arch : CString} {current : InstalledRef}
    (hcurrent : inst.current app = some current) (harch : current.arch = arch)
    {refs : List InstalledRef} {found : Option InstalledRef}
    (hmem : current ∈ refs ∨ found = some current) :
    matchArch inst app arch refs found = some current := by
  have hname : current.name = app := (inst.current_installed hcurrent).2.2
  induction refs generalizing found with
  | nil => exact hmem.resolve_left List.not_mem_nil
  | cons r rest ih =>
    rw [matchArch]
    by_cases hr : r = current
    · subst hr
      have hiscurrent : inst.isCurrent r = true := by simp [Installation.isCurrent, hname, hcurrent]
      rw [if_neg (by simp [hname, harch]), if_pos (.inr hiscurrent)]
      exact ih (.inr rfl)
    · have hmem' : current ∈ rest ∨ found = some current :=
        hmem.imp_left fun h => (List.mem_cons.mp h).resolve_left (Ne.symm hr)
      split
      · exact ih hmem'
      · next hthis =>
        obtain ⟨hrname, -⟩ := not_or.mp hthis
        have hother : inst.isCurrent r = false := by
          simpa [Installation.isCurrent, not_not.mp hrname, hcurrent] using Ne.symm hr
        split
        · next hnew =>
          -- nothing was found, so the current ref is still to come
          have hnone : found = none := by simpa [hother] using hnew
          exact ih (.inl (hmem'.resolve_right (by simp [hnone])))
        · exact ih hmem'

/-- Without a current ref of the arch, the first one is found. -/
theorem matchArch_first {inst : Installation} {app arch : CString} {refs : List InstalledRef}
    (hcurrent : ∀ r, inst.current app = some r → r.arch ≠ arch) (found : Option InstalledRef) :
    matchArch inst app arch refs found =
      found.or (refs.find? fun r => r.name = app ∧ r.arch = arch) := by
  induction refs generalizing found with
  | nil => cases found <;> rfl
  | cons r rest ih =>
    rw [matchArch, List.find?_cons]
    by_cases hr : r.name = app ∧ r.arch = arch
    · have hother : inst.isCurrent r = false := by
        refine Bool.eq_false_iff.mpr fun h => hcurrent r ?_ hr.2
        rw [← hr.1]
        simpa [Installation.isCurrent] using h
      cases found <;> simp [hr.1, hr.2, hother, ih]
    · have hskip : r.name ≠ app ∨ r.arch ≠ arch := by
        rwa [← not_and_or]
      simp [hskip, hr, ih]

/-! ### The two ladders -/

variable {inst : Installation} {app : CString} {arch branch : Option CString}

/-- The current ref is the target if it satisfies the hints. -/
theorem resolveLaunchTarget_current (arch branch : Option CString) {current : InstalledRef}
    (hcurrent : inst.current app = some current) (harch : ∀ a ∈ arch, current.arch = a)
    (hbranch : ∀ b ∈ branch, current.branch = b) :
    resolveLaunchTarget inst app arch branch = .ok (some (current.arch, current.branch)) := by
  have hfit : (arch.all (current.arch = ·) && branch.all (current.branch = ·)) = true := by
    cases arch <;> cases branch <;> simp_all
  rw [resolveLaunchTarget, Installation.getCurrentInstalledApp, hcurrent, Option.filter_some,
    if_pos hfit]

/-- Otherwise the installed refs are listed. -/
theorem resolveLaunchTarget_scan
    (hcurrent : ∀ r, inst.current app = some r →
      ¬ ((∀ a ∈ arch, r.arch = a) ∧ ∀ b ∈ branch, r.branch = b)) :
    resolveLaunchTarget inst app arch branch =
      inst.listInstalledRefs.map fun refs => scan inst.defaultArch app arch branch refs none := by
  have hunfit : (inst.current app).filter (fun current =>
      (arch.all (current.arch = ·)) && branch.all (current.branch = ·)) = none := by
    refine Option.filter_eq_none_iff.mpr fun r hr => ?_
    have hr' := hcurrent r hr
    cases arch <;> cases branch <;> simp_all
  rw [resolveLaunchTarget, Installation.getCurrentInstalledApp, hunfit]

/-- What is started is the app's ref of the arch and branch passed to `launch_full`. -/
theorem launchedRef_eq {l : InstalledRef} {a b : CString}
    (htarget : launchTarget inst app arch branch = some (a, b))
    (hlaunch : launchedRef inst app arch branch = some l) : l = ⟨.app, app, a, b⟩ := by
  rw [launchedRef, htarget, Option.bind_some] at hlaunch
  exact (Installation.getInstalledRef_eq_some.mp hlaunch).2

/-- An arch and a branch leave nothing to resolve. -/
theorem same_ref_both {a b : CString} {r l : InstalledRef} (harch : hint arch = some a)
    (hbranch : hint branch = some b) (hget : getInstalledAppRef inst app arch branch = some r)
    (hlaunch : launchedRef inst app arch branch = some l) : r = l := by
  have hr : r = ⟨.app, app, a, b⟩ := by
    rw [getInstalledAppRef, harch, hbranch] at hget
    exact (Installation.getInstalledRef_eq_some.mp hget).2
  have htarget : launchTarget inst app arch branch = some (a, b) := by
    rw [launchTarget, harch, hbranch]
  rw [hr, launchedRef_eq htarget hlaunch]

/-- With no hint both take the current ref. -/
theorem same_ref_none {r l : InstalledRef} (harch : hint arch = none)
    (hbranch : hint branch = none) (hget : getInstalledAppRef inst app arch branch = some r)
    (hlaunch : launchedRef inst app arch branch = some l) : r = l := by
  have hcurrent : inst.current app = some r := by
    rwa [getInstalledAppRef, harch, hbranch] at hget
  have htarget : launchTarget inst app arch branch = some (r.arch, r.branch) := by
    rw [launchTarget, harch, hbranch]
    simp only [resolveLaunchTarget_current none none hcurrent
      (by simp) (by simp), Option.getD_none]
  obtain ⟨-, hkind, hname⟩ := inst.current_installed hcurrent
  rw [launchedRef_eq htarget hlaunch, ← hkind, ← hname]

/-- With an arch only, both take the current ref if it is of that arch, and else the
first one listed. -/
theorem same_ref_arch {a : CString} {r l : InstalledRef} (harch : hint arch = some a)
    (hbranch : hint branch = none) (hget : getInstalledAppRef inst app arch branch = some r)
    (hlaunch : launchedRef inst app arch branch = some l) : r = l := by
  obtain ⟨hlist, hmatch⟩ : inst.listInstalledRefs = .ok inst.refs ∧
      matchArch inst app a (inst.refs.filter (·.kind = .app)) none = some r := by
    rw [getInstalledAppRef, harch, hbranch] at hget
    cases herror : inst.listError <;>
      simp_all [Installation.listInstalledRefsByKind, Installation.listInstalledRefs, Except.map]
  have htarget : ∀ {found : CString × CString},
      resolveLaunchTarget inst app (some a) none = .ok (some found) →
      launchTarget inst app arch branch = some (a, found.2) := by
    intro found hfound
    rw [launchTarget, harch, hbranch]
    simp only [hfound, Option.getD_some, Option.getD_none]
  by_cases hcurrent : ∃ current, inst.current app = some current ∧ current.arch = a
  · obtain ⟨current, hcurrent, hofarch⟩ := hcurrent
    obtain ⟨hmem, hkind, hname⟩ := inst.current_installed hcurrent
    have hr : some current = some r :=
      (matchArch_current hcurrent hofarch (.inl (List.mem_filter.mpr ⟨hmem, by simpa⟩))).symm.trans
        hmatch
    have hfound := resolveLaunchTarget_current (some a) none hcurrent
      (by simpa using hofarch) (by simp)
    rw [launchedRef_eq (htarget hfound) hlaunch, ← Option.some_inj.mp hr, ← hkind, ← hname,
      ← hofarch]
  · have hforeign : ∀ current, inst.current app = some current → current.arch ≠ a :=
      fun current h harch => hcurrent ⟨current, h, harch⟩
    -- both loops end with the same search
    have hfind : inst.refs.find? (Satisfies app (some a) none ·) = some r := by
      rw [matchArch_first hforeign, Option.none_or, List.find?_filter] at hmatch
      rw [← hmatch]
      congr 1
      funext r
      simp [Satisfies]
    have hfound : resolveLaunchTarget inst app (some a) none = .ok (some (r.arch, r.branch)) := by
      rw [resolveLaunchTarget_scan fun current h hfit => hforeign current h (hfit.1 a rfl), hlist]
      simp [Except.map, scan_hinted, hfind]
    obtain ⟨hkind, hname, hofarch, -⟩ : Satisfies app (some a) none r := by
      simpa using List.find?_some hfind
    rw [launchedRef_eq (htarget hfound) hlaunch, ← hkind, ← hname, ← hofarch a rfl]

/-- With a branch only, `get_installed_app_ref` takes the default arch, and the launch
the current ref if it has the branch, and else the default arch too. -/
theorem same_ref_branch_iff {b : CString} {r l : InstalledRef} (harch : hint arch = none)
    (hbranch : hint branch = some b) (hget : getInstalledAppRef inst app arch branch = some r)
    (hlaunch : launchedRef inst app arch branch = some l) :
    r = l ↔ ∀ current, inst.current app = some current → current.branch = b →
      current.arch = inst.defaultArch := by
  obtain ⟨hmem, hr⟩ : r ∈ inst.refs ∧ r = ⟨.app, app, inst.defaultArch, b⟩ := by
    rw [getInstalledAppRef, harch, hbranch] at hget
    exact Installation.getInstalledRef_eq_some.mp hget
  have htarget : ∀ {found : CString × CString},
      resolveLaunchTarget inst app none (some b) = .ok (some found) →
      launchTarget inst app arch branch = some (found.1, b) := by
    intro found hfound
    rw [launchTarget, harch, hbranch]
    simp only [hfound, Option.getD_some, Option.getD_none]
  -- `resolve_launch_target` looks at the current app first
  by_cases hcurrent : ∃ current, inst.current app = some current ∧ current.branch = b
  · obtain ⟨current, hcurrent, hofbranch⟩ := hcurrent
    have hfound := resolveLaunchTarget_current none (some b) hcurrent
      (by simp) (by simpa using hofbranch)
    rw [hr, launchedRef_eq (htarget hfound) hlaunch]
    constructor
    · intro hsame other hother _
      rw [Option.some_inj.mp (hother.symm.trans hcurrent)]
      exact (congrArg InstalledRef.arch hsame).symm
    · intro h
      rw [h current hcurrent hofbranch]
  · have hother : ∀ current, inst.current app = some current → current.branch ≠ b :=
      fun current h hbranch => hcurrent ⟨current, h, hbranch⟩
    -- else the refs are scanned; they were listed, as something is launched
    have hlist : inst.listInstalledRefs = .ok inst.refs := by
      cases herror : inst.listError with
      | none => rw [Installation.listInstalledRefs, herror]
      | some e =>
        have herr : resolveLaunchTarget inst app none (some b) = .error e := by
          rw [resolveLaunchTarget_scan fun current h hfit => hother current h (hfit.2 b rfl),
            Installation.listInstalledRefs, herror]
          rfl
        simp [launchedRef, launchTarget, harch, hbranch, herr] at hlaunch
    -- the ref that was looked at is one of the default arch, which the scan prefers
    obtain ⟨found, hfind⟩ : ∃ found,
        inst.refs.find? (fun r => Satisfies app none (some b) r ∧ r.arch = inst.defaultArch) =
          some found := by
      refine Option.isSome_iff_exists.mp (List.find?_isSome.mpr ⟨r, hmem, ?_⟩)
      simp [hr, Satisfies]
    have hdefault : found.arch = inst.defaultArch := by
      have := List.find?_some hfind
      simp only [decide_eq_true_eq] at this
      exact this.2
    have hfound : resolveLaunchTarget inst app none (some b) =
        .ok (some (found.arch, found.branch)) := by
      rw [resolveLaunchTarget_scan fun current h hfit => hother current h (hfit.2 b rfl), hlist,
        Except.map, scan_unhinted, hfind]
      rfl
    refine iff_of_true ?_ fun current h hofbranch => absurd hofbranch (hother current h)
    rw [hr, launchedRef_eq (htarget hfound) hlaunch, hdefault]

/-- **The checked app is the launched one**, unless only a branch is asked for and the
current ref has it on another arch than the default one. -/
theorem same_ref_iff {r l : InstalledRef} (hget : getInstalledAppRef inst app arch branch = some r)
    (hlaunch : launchedRef inst app arch branch = some l) :
    r = l ↔ ¬ (hint arch = none ∧ ∃ b current, hint branch = some b ∧
      inst.current app = some current ∧ current.branch = b ∧ current.arch ≠ inst.defaultArch) := by
  cases harch : hint arch with
  | some a =>
    refine iff_of_true ?_ (by simp)
    cases hbranch : hint branch with
    | some b => exact same_ref_both harch hbranch hget hlaunch
    | none => exact same_ref_arch harch hbranch hget hlaunch
  | none =>
    cases hbranch : hint branch with
    | none => exact iff_of_true (same_ref_none harch hbranch hget hlaunch) (by simp)
    | some b =>
      rw [same_ref_branch_iff harch hbranch hget hlaunch]
      grind

/-! ### The choice of `resolve_launch_target` -/

/-- The scan takes a ref of the default arch if it may choose the arch and there is
one, and else the first ref that satisfies the hints. -/
theorem scan_choice (defaultArch app : CString) (arch branch : Option CString)
    (refs : List InstalledRef) :
    scan defaultArch app arch branch refs none =
      (if arch = none ∧ ∃ r ∈ refs, Satisfies app arch branch r ∧ r.arch = defaultArch then
          refs.find? fun r => Satisfies app arch branch r ∧ r.arch = defaultArch
        else refs.find? (Satisfies app arch branch ·)).map fun r => (r.arch, r.branch) := by
  cases arch with
  | some a =>
    rw [scan_hinted, if_neg (by simp)]
    rfl
  | none =>
    rw [scan_unhinted, Option.none_or]
    split_ifs with h
    · obtain ⟨-, r, hmem, hr⟩ := h
      obtain ⟨found, hfound⟩ : ∃ found,
          refs.find? (fun r => Satisfies app none branch r ∧ r.arch = defaultArch) = some found :=
        Option.isSome_iff_exists.mp (List.find?_isSome.mpr ⟨r, hmem, by simpa using hr⟩)
      rw [hfound]
      rfl
    · have hnone : refs.find? (fun r => Satisfies app none branch r ∧ r.arch = defaultArch) =
          none := by
        refine List.find?_eq_none.mpr fun r hmem hr => h ⟨rfl, r, hmem, ?_⟩
        simpa using hr
      rw [hnone]
      rfl

/-- The current ref satisfies the hints exactly if it passes the two tests. -/
theorem satisfies_current {inst : Installation} {app : CString} {arch branch : Option CString}
    {current : InstalledRef} (hcurrent : inst.current app = some current) :
    Satisfies app arch branch current ↔
      (∀ a ∈ arch, current.arch = a) ∧ ∀ b ∈ branch, current.branch = b := by
  obtain ⟨-, hkind, hname⟩ := inst.current_installed hcurrent
  exact ⟨fun h => h.2.2, fun h => ⟨hkind, hname, h⟩⟩

/-- The ref that is chosen: the current one if it satisfies the hints, and else the
choice of the scan. -/
theorem resolveLaunchTarget_eq {inst : Installation} {app : CString} {arch branch : Option CString}
    (hlist : inst.listError = none) :
    resolveLaunchTarget inst app arch branch =
      .ok (match (inst.current app).filter (Satisfies app arch branch ·) with
        | some current => some (current.arch, current.branch)
        | none => scan inst.defaultArch app arch branch inst.refs none) := by
  have hok : inst.listInstalledRefs = .ok inst.refs := by rw [Installation.listInstalledRefs, hlist]
  cases hcurrent : inst.current app with
  | none =>
    rw [resolveLaunchTarget_scan (by simp [hcurrent]), hok]
    rfl
  | some current =>
    by_cases hfit : Satisfies app arch branch current
    · rw [resolveLaunchTarget_current arch branch hcurrent hfit.2.2.1 hfit.2.2.2,
        Option.filter_some, if_pos (decide_eq_true hfit)]
    · have hother : ∀ r, inst.current app = some r →
          ¬ ((∀ a ∈ arch, r.arch = a) ∧ ∀ b ∈ branch, r.branch = b) := by
        intro r hr
        obtain rfl := Option.some.inj (hcurrent.symm.trans hr)
        rwa [← satisfies_current hcurrent]
      rw [resolveLaunchTarget_scan hother, hok, Option.filter_some, if_neg (by simpa using hfit)]
      rfl

/-- **The target of a launch**: found exactly if an installed ref satisfies the hints,
and then it is the current ref, or else a ref of the default arch, or else the first
one, of those that do. -/
theorem resolveLaunchTarget_choice (inst : Installation) (app : CString)
    (arch branch : Option CString) (hlist : inst.listError = none) :
    ∃ target, resolveLaunchTarget inst app arch branch = .ok target ∧
      (target.isSome ↔ ∃ r ∈ inst.refs, Satisfies app arch branch r) ∧
      (∀ a b, target = some (a, b) →
        ∃ r ∈ inst.refs, Satisfies app arch branch r ∧ r.arch = a ∧ r.branch = b) ∧
      (∀ current, inst.current app = some current → Satisfies app arch branch current →
        target = some (current.arch, current.branch)) ∧
      ((∀ current, inst.current app = some current → ¬ Satisfies app arch branch current) →
        (arch = none →
          (∃ r ∈ inst.refs, Satisfies app arch branch r ∧ r.arch = inst.defaultArch) →
            ∃ b, target = some (inst.defaultArch, b)) ∧
        (¬ (arch = none ∧
            ∃ r ∈ inst.refs, Satisfies app arch branch r ∧ r.arch = inst.defaultArch) →
          target = (inst.refs.find? (Satisfies app arch branch ·)).map
            fun r => (r.arch, r.branch))) := by
  refine ⟨_, resolveLaunchTarget_eq hlist, ?_⟩
  cases hcurrent : (inst.current app).filter (Satisfies app arch branch ·) with
  | some current =>
    obtain ⟨hthis, hfit⟩ := Option.filter_eq_some_iff.mp hcurrent
    have hfit : Satisfies app arch branch current := of_decide_eq_true hfit
    have hmem := (inst.current_installed hthis).1
    refine ⟨iff_of_true rfl ⟨current, hmem, hfit⟩, ?_, ?_, fun h => absurd hfit (h current hthis)⟩
    · rintro a b ⟨⟩
      exact ⟨current, hmem, hfit, rfl, rfl⟩
    · intro other hother _
      obtain rfl := Option.some.inj (hthis.symm.trans hother)
      rfl
  | none =>
    have hunfit : ∀ current, inst.current app = some current →
        ¬ Satisfies app arch branch current := by
      intro current hthis hfit
      rw [hthis, Option.filter_some, if_pos (decide_eq_true hfit)] at hcurrent
      cases hcurrent
    -- what the scan chooses is a ref of the list that satisfies the hints
    simp only [scan_choice]
    split_ifs with hdefault
    · obtain ⟨r, hr⟩ : ∃ r, inst.refs.find?
          (fun r => Satisfies app arch branch r ∧ r.arch = inst.defaultArch) = some r := by
        obtain ⟨-, r, hmem, hr⟩ := hdefault
        exact Option.isSome_iff_exists.mp (List.find?_isSome.mpr ⟨r, hmem, by simpa using hr⟩)
      have hmem := List.mem_of_find?_eq_some hr
      obtain ⟨hfit, harch⟩ : Satisfies app arch branch r ∧ r.arch = inst.defaultArch := by
        simpa using List.find?_some hr
      rw [hr]
      refine ⟨iff_of_true rfl ⟨r, hmem, hfit⟩, ?_, fun c hc hfit => absurd hfit (hunfit c hc),
        fun _ => ⟨fun _ _ => ⟨r.branch, by rw [← harch]; rfl⟩, fun h => absurd hdefault h⟩⟩
      rintro a b ⟨⟩
      exact ⟨r, hmem, hfit, rfl, rfl⟩
    · refine ⟨?_, ?_, fun c hc hfit => absurd hfit (hunfit c hc),
        fun _ => ⟨fun hnone h => absurd ⟨hnone, h⟩ hdefault, fun _ => rfl⟩⟩
      · rw [Option.isSome_map, List.find?_isSome]
        simp
      · intro a b htarget
        obtain ⟨r, hr, hpair⟩ := Option.map_eq_some_iff.mp htarget
        obtain ⟨rfl, rfl⟩ := Prod.mk.inj hpair
        exact ⟨r, List.mem_of_find?_eq_some hr, by simpa using List.find?_some hr, rfl, rfl⟩

/-! ### A foreign build -/

/-- The app's build for another arch, the current one. -/
def foreignBuild : InstalledRef :=
  ⟨.app, .lit "org.App" (by decide), .lit "aarch64" (by decide), .lit "stable" (by decide)⟩

/-- The app's build for the default arch. -/
def nativeBuild : InstalledRef :=
  ⟨.app, .lit "org.App" (by decide), .lit "x86_64" (by decide), .lit "stable" (by decide)⟩

/-- Both are installed. -/
def twoBuilds : Installation where
  refs := [nativeBuild, foreignBuild]
  listError := none
  current app := if app = foreignBuild.name then some foreignBuild else none
  defaultArch := nativeBuild.arch
  current_installed h := by
    obtain ⟨rfl, h⟩ := Option.ite_none_right_eq_some.mp h
    obtain rfl := Option.some_inj.mp h
    exact ⟨by simp, rfl, rfl⟩

/-- With no hint, the foreign build is the target. -/
theorem resolveLaunchTarget_foreign :
    ∃ target, resolveLaunchTarget twoBuilds foreignBuild.name none none = .ok target ∧
      target = some (foreignBuild.arch, foreignBuild.branch) :=
  have ⟨target, hresolve, _, _, hcurrent, _⟩ :=
    resolveLaunchTarget_choice twoBuilds foreignBuild.name none none rfl
  ⟨target, hresolve, hcurrent foreignBuild rfl (by decide +kernel)⟩

/-- With the arch given, the foreign build is both checked and launched. -/
theorem same_ref_foreign :
    ∃ r l, getInstalledAppRef twoBuilds foreignBuild.name (some foreignBuild.arch) none = some r ∧
      launchedRef twoBuilds foreignBuild.name (some foreignBuild.arch) none = some l ∧ r = l :=
  have hget : getInstalledAppRef twoBuilds foreignBuild.name (some foreignBuild.arch) none =
      some foreignBuild := by decide +kernel
  have hlaunch : launchedRef twoBuilds foreignBuild.name (some foreignBuild.arch) none =
      some foreignBuild := by decide +kernel
  ⟨_, _, hget, hlaunch, (same_ref_iff hget hlaunch).mpr fun h => by simp [hint] at h⟩

/-- With only the branch given, the native build is checked and the foreign one
launched. -/
theorem checks_native_launches_foreign :
    getInstalledAppRef twoBuilds foreignBuild.name none (some foreignBuild.branch) =
        some nativeBuild ∧
      launchedRef twoBuilds foreignBuild.name none (some foreignBuild.branch) =
        some foreignBuild ∧
      nativeBuild ≠ foreignBuild := by
  decide +kernel

end InstallationReader
