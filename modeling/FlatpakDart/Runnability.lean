/-
Whether an app can be launched (`lib/src/runnability.dart`,
`lib/src/flatpak_client.dart`).

`checkRunnable` makes up to three reads, between which the installation may change.

* `checkRunnable_verdict` — what it returns, from what the reads see;
* `listApplications_runnable` — the list without the apps of a foreign arch is the list
  without those that the check would stop for their arch;
* `checked_is_launched` — of an installation that stays as it is: what may be launched is
  the ref that a launch starts.
-/
import FlatpakDart.ClientRequests
import FlatpakDart.KernelArches

open Glz Native Libflatpak Dart Requests FlatpakClient Arch

namespace Runnability

/-- What stops an app from launching, if anything. -/
inductive LaunchBlocker
  | none
  | notInstalled
  | architecture
  | runtimeMissing
  deriving DecidableEq

structure AppRunnability where
  appId : String
  arch : String
  archSupported : Bool
  runtimeRef : Option String
  runtimeInstalled : Bool
  blocker : LaunchBlocker
  deriving DecidableEq

def AppRunnability.canLaunch (r : AppRunnability) : Bool := r.blocker = .none

def resolveRunnability (appId arch : String) (installed archSupported : Bool)
    (runtimeRef : Option String) (runtimeInstalled : Bool) : AppRunnability :=
  if !installed then ⟨appId, arch, archSupported, .none, false, .notInstalled⟩
  else if !archSupported then ⟨appId, arch, false, .none, false, .architecture⟩
  else
    let missing := runtimeRef.isSome && !runtimeInstalled
    ⟨appId, arch, true, runtimeRef, runtimeInstalled, if missing then .runtimeMissing else .none⟩

/-! ### The two methods of the client -/

/-- `canRunArch`. -/
def canRunArch (appStream : FlatpakAppStream) (arch : String) : Bool :=
  appStream.canRunArch (.lit arch)

/-- `listApplications`. -/
def listApplications (appStream : FlatpakAppStream) (includeRuntimes allArches : Bool) :
    Method (List FlatpakApplication) :=
  (Call.listApplications includeRuntimes).andThen fun apps =>
    .done (.ok (if allArches then apps
      else apps.filter fun app => app.ref.arch.isEmpty || canRunArch appStream app.ref.arch))

/-- `checkRunnable`, behind the arch. -/
def checkRuntime (appId arch branch appArch : String) : Method AppRunnability :=
  (Call.getRuntimeRef appId arch branch).bind fun
    -- any `FlatpakException` is taken for no runtime
    | .error _ => .done (.ok (resolveRunnability appId appArch true true .none false))
    | .ok runtimeRef =>
      (Call.isRefInstalled ("runtime/" ++ runtimeRef)).andThen fun installed =>
        .done (.ok (resolveRunnability appId appArch true true (some runtimeRef) installed))

/-- `checkRunnable`. -/
def checkRunnable (appStream : FlatpakAppStream) (appId arch branch : String) :
    Method AppRunnability :=
  (Call.getAppInfo appId arch branch).bind fun
    | .error (.installation (.notFound _)) =>
      .done (.ok (resolveRunnability appId arch false (arch.isEmpty || canRunArch appStream arch)
        .none false))
    | .error ex => .done (.error ex)
    | .ok app =>
      if !app.ref.arch.isEmpty && !canRunArch appStream app.ref.arch then
        .done (.ok (resolveRunnability appId app.ref.arch true false .none false))
      else checkRuntime appId arch branch app.ref.arch

/-! ### The verdict -/

section Verdict

variable (refs : RefParse) (appStream : FlatpakAppStream) (appId arch branch : String)

/-- An app of this arch is not shown. -/
def Foreign (appArch : String) : Prop := appArch ≠ "" ∧ canRunArch appStream appArch = false

instance (appArch : String) : Decidable (Foreign appStream appArch) :=
  inferInstanceAs (Decidable (_ ∧ _))

/-- What the last two reads find to be wrong; nothing can be said of a runtime that is no
ref. -/
def runtimeBlocker (e₂ e₃ : Snapshot) : Option LaunchBlocker :=
  match e₂.declaredRuntime appId arch branch with
  | none => some .none
  | some runtime =>
    match refs.parse (.ofString ("runtime/" ++ runtime)) with
    | .error _ => none
    | .ok ref => if ref ∈ e₃.installation.refs then some .none else some .runtimeMissing

/-- What the three reads find to be wrong. -/
def blocker (e₁ e₂ e₃ : Snapshot) : Option LaunchBlocker :=
  match e₁.app appId arch branch with
  | none => some .notInstalled
  | some r =>
    if Foreign appStream r.arch.text then some .architecture
    else runtimeBlocker refs appId arch branch e₂ e₃

/-- The record that goes with a verdict. -/
def report (e₁ e₂ : Snapshot) : LaunchBlocker → AppRunnability
  | .notInstalled =>
    ⟨appId, arch, !decide (Foreign appStream arch), .none, false, .notInstalled⟩
  | .architecture => ⟨appId, appArch e₁, false, .none, false, .architecture⟩
  | .runtimeMissing =>
    ⟨appId, appArch e₁, true, e₂.declaredRuntime appId arch branch, false, .runtimeMissing⟩
  | .none =>
    let runtimeRef := e₂.declaredRuntime appId arch branch
    ⟨appId, appArch e₁, true, runtimeRef, runtimeRef.isSome, .none⟩
where
  appArch (e : Snapshot) : String := ((e.app appId arch branch).map fun r => r.arch.text).getD ""

/-- The reads, should all three be made. -/
def reads (e₁ e₂ e₃ : Snapshot) : List (Snapshot × Request) :=
  [(e₁, .getAppInfo appId arch branch), (e₂, .getRuntimeRef appId arch branch),
    (e₃, .isRefInstalled ("runtime/" ++ (e₂.declaredRuntime appId arch branch).getD ""))]

end Verdict

variable {w : World} {appStream : FlatpakAppStream} {appId arch branch : String}
variable {e e' : Snapshot} {trace : List (Snapshot × Request)}

theorem application_arch {r : InstalledRef} (h : r ∈ e.installation.refs) :
    (e.application r).ref.arch = r.arch.text := by
  obtain ⟨⟨-, -, harch, -⟩, -⟩ := e.legible.app r h
  exact CppString.ofCString_text harch

theorem foreign_iff {appArch : String} : Foreign appStream appArch ↔
    (!appArch.isEmpty && !canRunArch appStream appArch) = true := by
  rw [Foreign, Bool.and_eq_true, Bool.not_eq_true', Bool.not_eq_true',
    ← Bool.not_eq_true appArch.isEmpty, String.isEmpty_iff]

theorem decide_not_foreign {appArch : String} :
    (!decide (Foreign appStream appArch)) =
      (appArch.isEmpty || canRunArch appStream appArch) := by
  rw [Bool.eq_iff_iff, Bool.not_eq_true', decide_eq_false_iff_not, foreign_iff]
  cases appArch.isEmpty <;> simp

/-- What the two reads behind the arch find. -/
theorem checkRuntime_runs {appArch : String} {r : Except Exception AppRunnability}
    (h : Runs w.Replies e (checkRuntime appId arch branch appArch) trace e' r) :
    (e.declaredRuntime appId arch branch = none ∧
      trace = [(e, .getRuntimeRef appId arch branch)] ∧
      r = .ok ⟨appId, appArch, true, .none, false, .none⟩) ∨
    ∃ e₃ runtime, e.declaredRuntime appId arch branch = some runtime ∧ w.changes e e₃ ∧
      trace = [(e, .getRuntimeRef appId arch branch),
        (e₃, .isRefInstalled ("runtime/" ++ runtime))] ∧
      ((∃ err text, w.refs.parse (.ofString ("runtime/" ++ runtime)) = .error err ∧
          r = .error (.installation (.remote text))) ∨
        ∃ ref, w.refs.parse (.ofString ("runtime/" ++ runtime)) = .ok ref ∧
          r = .ok (resolveRunnability appId appArch true true (some runtime)
            (decide (ref ∈ e₃.installation.refs)))) := by
  obtain ⟨e₃, reply, before, after, hfirst, hthen, rfl⟩ := runs_bind_iff.mp h
  obtain ⟨rfl, hchanges, ⟨hnone, text, rfl⟩ | ⟨runtime, hruntime, rfl⟩⟩ :=
    runs_getRuntimeRef hfirst
  · obtain ⟨rfl, rfl, rfl⟩ := runs_done_iff.mp hthen
    exact .inl ⟨hnone, rfl, rfl⟩
  · refine .inr ⟨e₃, runtime, hruntime, hchanges, ?_⟩
    rcases runs_andThen_iff.mp hthen with
      ⟨ex, rfl, hask⟩ | ⟨t, installed, begun, rest, hask, hdone, rfl⟩
    · obtain ⟨rfl, -, ⟨err, text, hparse, hex⟩ | ⟨ref, -, hex⟩⟩ := runs_isRefInstalled hask
      · exact ⟨rfl, .inl ⟨err, text, hparse, by rw [Except.error.inj hex]⟩⟩
      · cases hex
    · obtain ⟨rfl, rfl, rfl⟩ := runs_done_iff.mp hdone
      obtain ⟨rfl, -, ⟨err, text, -, hok⟩ | ⟨ref, hparse, hok⟩⟩ := runs_isRefInstalled hask
      · cases hok
      · obtain rfl := Except.ok.inj hok
        exact ⟨rfl, .inr ⟨ref, hparse, rfl⟩⟩

/-- They find nothing wrong with the app itself. -/
theorem checkRuntime_blocker {appArch : String} {v : AppRunnability}
    (h : Runs w.Replies e (checkRuntime appId arch branch appArch) trace e' (.ok v)) :
    v.blocker ≠ .notInstalled ∧ v.blocker ≠ .architecture := by
  rcases checkRuntime_runs h with ⟨-, -, hv⟩ |
    ⟨e₃, runtime, -, -, -, ⟨err, text, -, hv⟩ | ⟨ref, -, hv⟩⟩
  · obtain rfl := Except.ok.inj hv
    simp
  · cases hv
  · obtain rfl := Except.ok.inj hv
    by_cases hmem : ref ∈ e₃.installation.refs <;> simp [resolveRunnability, hmem]

/-- What the first read decides. -/
theorem checkRunnable_runs {r : Except Exception AppRunnability}
    (h : Runs w.Replies e (checkRunnable appStream appId arch branch) trace e' r) :
    (e.app appId arch branch = none ∧ trace = [(e, .getAppInfo appId arch branch)] ∧
      r = .ok ⟨appId, arch, !decide (Foreign appStream arch), .none, false, .notInstalled⟩) ∨
    ∃ ref, e.app appId arch branch = some ref ∧
      ((Foreign appStream ref.arch.text ∧ trace = [(e, .getAppInfo appId arch branch)] ∧
        r = .ok ⟨appId, ref.arch.text, false, .none, false, .architecture⟩) ∨
      ¬ Foreign appStream ref.arch.text ∧ ∃ e₂ rest,
        trace = (e, .getAppInfo appId arch branch) :: rest ∧ w.changes e e₂ ∧
        Runs w.Replies e₂ (checkRuntime appId arch branch ref.arch.text) rest e' r) := by
  obtain ⟨e₂, reply, before, after, hfirst, hthen, rfl⟩ := runs_bind_iff.mp h
  obtain ⟨rfl, hchanges, ⟨hnone, text, rfl⟩ | ⟨ref, happ, rfl⟩⟩ := runs_getAppInfo hfirst
  · obtain ⟨rfl, rfl, rfl⟩ := runs_done_iff.mp hthen
    refine .inl ⟨hnone, rfl, ?_⟩
    rw [decide_not_foreign]
    rfl
  · refine .inr ⟨ref, happ, ?_⟩
    have harch : (e.application ref).ref.arch = ref.arch.text :=
      application_arch (getInstalledAppRef_app happ).1
    simp only [harch, ← foreign_iff] at hthen
    split at hthen
    · next hforeign =>
      obtain ⟨rfl, rfl, rfl⟩ := runs_done_iff.mp hthen
      exact .inl ⟨hforeign, rfl, rfl⟩
    · next hforeign => exact .inr ⟨hforeign, e₂, after, rfl, hchanges, hthen⟩

/-- It makes no installs, and so returns wherever the installation goes on. -/
theorem checkRunnable_returns (hchanges : ∀ s, ∃ s', w.changes s s') :
    ∃ trace e' r, Runs w.Replies e (checkRunnable appStream appId arch branch) trace e' r := by
  refine exists_runs_bind
    (exists_runs_read (i := .getAppInfo appId arch branch) hchanges e (by simp)) fun t app => ?_
  split
  · exact ⟨_, t, _, .done t _⟩
  · exact ⟨_, t, _, .done t _⟩
  · split
    · exact ⟨_, t, _, .done t _⟩
    · refine exists_runs_bind
        (exists_runs_read (i := .getRuntimeRef appId arch branch) hchanges t (by simp))
        fun t' declared => ?_
      split
      · exact ⟨_, t', _, .done t' _⟩
      · next ref =>
        refine exists_runs_bind
          (exists_runs_read (i := .isRefInstalled ("runtime/" ++ ref)) hchanges t' (by simp))
          fun t'' there => ?_
        split <;> exact ⟨_, t'', _, .done t'' _⟩

/-- **`checkRunnable` returns**, and what it returns is the verdict on what its reads see,
whatever happens to the installation between them; it throws only where the declared runtime
is no ref, and asks for nothing more once the app is not there or is of a foreign arch. -/
theorem checkRunnable_verdict :
    ((∀ s, ∃ s', w.changes s s') →
      ∃ trace e' r, Runs w.Replies e (checkRunnable appStream appId arch branch) trace e' r) ∧
    ∀ {trace : List (Snapshot × Request)} {e' : Snapshot} {r : Except Exception AppRunnability},
      Runs w.Replies e (checkRunnable appStream appId arch branch) trace e' r →
      ∃ e₂ e₃, e₂ ∈ trace.map Prod.fst ++ [e'] ∧ e₃ ∈ trace.map Prod.fst ++ [e'] ∧
        trace <+: reads appId arch branch e e₂ e₃ ∧
        (∀ b, blocker w.refs appStream appId arch branch e e₂ e₃ = some b →
          r = .ok (report appStream appId arch branch e e₂ b) ∧
          (b = .notInstalled ∨ b = .architecture → trace.length = 1)) ∧
        (blocker w.refs appStream appId arch branch e e₂ e₃ = none →
          ∃ text, r = .error (.installation (.remote text))) := by
  refine ⟨checkRunnable_returns, fun {trace e' r} h => ?_⟩
  have hlate : ∀ {b b' : LaunchBlocker} {k : ℕ}, some b = some b' →
      b ≠ .notInstalled → b ≠ .architecture → b' = .notInstalled ∨ b' = .architecture → k = 1 := by
    rintro b _ k ⟨⟩ h h' (rfl | rfl)
    · exact absurd rfl h
    · exact absurd rfl h'
  rcases checkRunnable_runs h with ⟨hnone, rfl, rfl⟩ |
      ⟨ref, happ, ⟨hforeign, rfl, rfl⟩ | ⟨hforeign, e₂, rest, rfl, -, hrest⟩⟩
  · have hblocker : blocker w.refs appStream appId arch branch e e' e' = some .notInstalled := by
      rw [blocker, hnone]
    refine ⟨e', e', by simp, by simp, by simp [reads], fun b hb => ?_, fun hb => ?_⟩
    · obtain rfl := Option.some.inj (hblocker.symm.trans hb)
      exact ⟨rfl, fun _ => rfl⟩
    · exact absurd (hblocker.symm.trans hb) (by simp)
  · have hblocker : blocker w.refs appStream appId arch branch e e' e' = some .architecture := by
      rw [blocker, happ]
      exact if_pos hforeign
    refine ⟨e', e', by simp, by simp, by simp [reads], fun b hb => ?_, fun hb => ?_⟩
    · obtain rfl := Option.some.inj (hblocker.symm.trans hb)
      exact ⟨by simp [report, report.appArch, happ], fun _ => rfl⟩
    · exact absurd (hblocker.symm.trans hb) (by simp)
  · have hblocker : ∀ e₃, blocker w.refs appStream appId arch branch e e₂ e₃ =
        runtimeBlocker w.refs appId arch branch e₂ e₃ := by
      intro e₃
      rw [blocker, happ]
      exact if_neg hforeign
    rcases checkRuntime_runs hrest with ⟨hnone, rfl, rfl⟩ |
        ⟨e₃, runtime, hruntime, -, rfl, ⟨err, text, hparse, rfl⟩ | ⟨ref', hparse, rfl⟩⟩
    · have hverdict : blocker w.refs appStream appId arch branch e e₂ e' = some .none := by
        rw [hblocker, runtimeBlocker, hnone]
      refine ⟨e₂, e', by simp, by simp, by simp [reads], fun b hb => ⟨?_, ?_⟩, fun hb => ?_⟩
      · obtain rfl := Option.some.inj (hverdict.symm.trans hb)
        simp [report, report.appArch, happ, hnone]
      · exact hlate (hverdict.symm.trans hb) (by simp) (by simp)
      · exact absurd (hverdict.symm.trans hb) (by simp)
    · have hverdict : blocker w.refs appStream appId arch branch e e₂ e₃ = none := by
        rw [hblocker, runtimeBlocker, hruntime]
        simp only [hparse]
      refine ⟨e₂, e₃, by simp, by simp, by simp [reads, hruntime], fun b hb => ?_,
        fun _ => ⟨text, rfl⟩⟩
      exact absurd (hverdict.symm.trans hb) (by simp)
    · have hverdict : blocker w.refs appStream appId arch branch e e₂ e₃ =
          some (if ref' ∈ e₃.installation.refs then .none else .runtimeMissing) := by
        rw [hblocker, runtimeBlocker, hruntime]
        simp only [hparse]
        split <;> rfl
      refine ⟨e₂, e₃, by simp, by simp, by simp [reads, hruntime], fun b hb => ⟨?_, ?_⟩,
        fun hb => ?_⟩
      · obtain rfl := Option.some.inj (hverdict.symm.trans hb)
        by_cases hmem : ref' ∈ e₃.installation.refs
        · simp [hmem, report, report.appArch, happ, hruntime, resolveRunnability]
        · simp [hmem, report, report.appArch, happ, hruntime, resolveRunnability]
      · refine hlate (hverdict.symm.trans hb) ?_ ?_
        · split <;> simp
        · split <;> simp
      · exact absurd (hverdict.symm.trans hb) (by simp)

/-- Of an installation that nobody changes, once its app may be run and has a runtime. -/
theorem checkRunnable_still (hstill : ∀ s s', w.changes s s' → s' = s) {ref found : InstalledRef}
    {runtime : String} (happ : e.app appId arch branch = some ref)
    (hown : ¬ Foreign appStream ref.arch.text)
    (hruntime : e.declaredRuntime appId arch branch = some runtime)
    (hparse : w.refs.parse (.ofString ("runtime/" ++ runtime)) = .ok found)
    {r : Except Exception AppRunnability}
    (h : Runs w.Replies e (checkRunnable appStream appId arch branch) trace e' r) :
    r = .ok (resolveRunnability appId ref.arch.text true true (some runtime)
      (decide (found ∈ e.installation.refs))) := by
  rcases checkRunnable_runs h with ⟨hnone, -, -⟩ |
      ⟨ref', hfound, ⟨hforeign, -, -⟩ | ⟨-, e₂, rest, -, hchanges, hrest⟩⟩
  · exact absurd (happ.symm.trans hnone) (by simp)
  · obtain rfl := Option.some.inj (happ.symm.trans hfound)
    exact absurd hforeign hown
  · obtain rfl := Option.some.inj (happ.symm.trans hfound)
    obtain rfl := hstill e e₂ hchanges
    rcases checkRuntime_runs hrest with ⟨hnone, -, -⟩ |
        ⟨e₃, runtime', hsame, hchanges', -, ⟨err, text, herr, -⟩ | ⟨found', hok, hr⟩⟩
    · exact absurd (hruntime.symm.trans hnone) (by simp)
    · obtain rfl := Option.some.inj (hruntime.symm.trans hsame)
      exact absurd (hparse.symm.trans herr) (by simp)
    · obtain rfl := hstill e₂ e₃ hchanges'
      obtain rfl := Option.some.inj (hruntime.symm.trans hsame)
      obtain rfl := Except.ok.inj (hparse.symm.trans hok)
      exact hr

/-! ### The list -/

theorem hint_text {s : CString} (h : (CppString.ofCString s).Portable) :
    InstallationReader.hint (some (.ofString s.text)) = if s.bytes = [] then none else some s := by
  rw [InstallationReader.hint, CString.ofString_text h, Option.filter_some]
  by_cases hs : s.bytes = [] <;> simp [hs]

/-- The loop over the installed apps finds one if there is one. -/
theorem matchArch_finds {inst : Installation} {app arch : CString} {r : InstalledRef}
    (hmem : r ∈ inst.refs) (hkind : r.kind = .app) (hname : r.name = app) (harch : r.arch = arch) :
    ∃ found, InstallationReader.matchArch inst app arch (inst.refs.filter (·.kind = .app)) none =
      some found := by
  by_cases hcurrent : ∃ current, inst.current app = some current ∧ current.arch = arch
  · obtain ⟨current, hcurrent, hofarch⟩ := hcurrent
    obtain ⟨hthere, hisapp, -⟩ := inst.current_installed hcurrent
    exact ⟨current, InstallationReader.matchArch_current hcurrent hofarch
      (.inl (List.mem_filter.mpr ⟨hthere, by simpa⟩))⟩
  · rw [InstallationReader.matchArch_first fun current h hofarch => hcurrent ⟨current, h, hofarch⟩,
      Option.none_or]
    refine Option.isSome_iff_exists.mp (List.find?_isSome.mpr ⟨r, ?_, by simp [hname, harch]⟩)
    exact List.mem_filter.mpr ⟨hmem, by simpa⟩

/-- An app that is asked for by its own arch and branch is of that arch. -/
theorem app_own {r : InstalledRef} (hmem : r ∈ e.installation.refs) (hkind : r.kind = .app)
    (harch : r.arch.bytes ≠ []) (hlist : e.installation.listError = none) :
    ∃ found, e.app r.name.text r.arch.text r.branch.text = some found ∧
      found.arch = r.arch := by
  obtain ⟨⟨-, hname, hportable, hbranch, -⟩, -⟩ := e.legible.app r hmem
  have hname : CString.ofString r.name.text = r.name := CString.ofString_text hname
  rw [Snapshot.app, InstallationReader.getInstalledAppRef, hint_text hbranch, hint_text hportable,
    hname, if_neg harch]
  by_cases hempty : r.branch.bytes = []
  · rw [if_pos hempty]
    obtain ⟨found, hfound⟩ := matchArch_finds hmem hkind rfl rfl
    have hofarch := ((matchArch_mem hfound).resolve_left (by simp)).2.2
    refine ⟨found, ?_, hofarch⟩
    simp only [Installation.listInstalledRefsByKind, Installation.listInstalledRefs, hlist,
      Except.map]
    exact hfound
  · rw [if_neg hempty]
    refine ⟨r, Installation.getInstalledRef_eq_some.mpr ⟨hmem, ?_⟩, rfl⟩
    rw [Option.getD_some, ← hkind]

/-- **The list and the check agree**: what the list leaves out are the apps that the check,
asked about each by its own arch and branch, stops for their arch; and it finds them all. -/
theorem listApplications_runnable (harch : ∀ r ∈ e.installation.refs, r.arch.bytes ≠ [])
    {apps : List FlatpakApplication}
    (h : Runs w.Replies e (listApplications appStream false false) trace e' (.ok apps)) :
    apps.Sublist ((e.installation.refs.filter (·.kind = .app)).map e.application) ∧
    ∀ r ∈ e.installation.refs, r.kind = .app → ∀ checked last verdict,
      Runs w.Replies e (checkRunnable appStream r.name.text r.arch.text r.branch.text) checked last
        (.ok verdict) →
      verdict.blocker ≠ .notInstalled ∧
        (e.application r ∈ apps ↔ verdict.blocker ≠ .architecture) := by
  rcases runs_andThen_iff.mp h with ⟨ex, hok, -⟩ | ⟨t, all, begun, rest, hask, hdone, rfl⟩
  · cases hok
  obtain ⟨rfl, rfl, hok⟩ := runs_done_iff.mp hdone
  obtain ⟨-, -, ⟨msg, -, herror⟩ | ⟨hlist, hall⟩⟩ := runs_listApplications hask
  · cases herror
  obtain rfl := Except.ok.inj hall
  obtain rfl := Except.ok.inj hok
  simp only [Bool.false_or, Bool.false_eq_true, if_false]
  refine ⟨List.filter_sublist, fun r hmem hkind checked last verdict hcheck => ?_⟩
  obtain ⟨found, hfound, hofarch⟩ := app_own hmem hkind (harch r hmem) hlist
  have hshown : e.application r ∈ ((e.installation.refs.filter (·.kind = .app)).map
      e.application).filter (fun app => app.ref.arch.isEmpty || canRunArch appStream app.ref.arch) ↔
        ¬ Foreign appStream r.arch.text := by
    rw [List.mem_filter, application_arch hmem, ← decide_not_foreign, Bool.not_eq_true',
      decide_eq_false_iff_not]
    refine and_iff_right (List.mem_map_of_mem (List.mem_filter.mpr ⟨hmem, ?_⟩))
    exact decide_eq_true hkind
  rcases checkRunnable_runs hcheck with ⟨hnone, -, -⟩ |
      ⟨ref, happ, ⟨hforeign, -, hverdict⟩ | ⟨hforeign, e₂, rest', -, -, hrest⟩⟩
  · exact absurd (hfound.symm.trans hnone) (by simp)
  · obtain rfl := Option.some.inj (hfound.symm.trans happ)
    rw [hofarch] at hforeign
    obtain rfl := Except.ok.inj hverdict
    exact ⟨by simp, iff_of_false (fun hin => hshown.mp hin hforeign) (by simp)⟩
  · obtain rfl := Option.some.inj (hfound.symm.trans happ)
    rw [hofarch] at hforeign hrest
    refine ⟨checkRuntime_blocker hrest |>.1, iff_of_true (hshown.mpr hforeign) ?_⟩
    exact (checkRuntime_blocker hrest).2

/-! ### The launch -/

open InstallationReader (getInstalledAppRef launchedRef launchTarget resolveLaunchTarget hint
  Satisfies)

/-- A target that is installed is started. -/
theorem launchedRef_of_target {inst : Installation} {app a b : CString}
    {arch branch : Option CString} (htarget : launchTarget inst app arch branch = some (a, b))
    (hmem : (⟨.app, app, a, b⟩ : InstalledRef) ∈ inst.refs) :
    launchedRef inst app arch branch = some ⟨.app, app, a, b⟩ := by
  rw [launchedRef, htarget, Option.bind_some]
  exact Installation.getInstalledRef_eq_some.mpr ⟨hmem, rfl⟩

/-- With an arch asked for, what is resolved is an installed ref of it. -/
theorem resolveLaunchTarget_finds {inst : Installation} {app a : CString} {r : InstalledRef}
    (hlist : inst.listError = none) (hmem : r ∈ inst.refs) (hr : Satisfies app (some a) none r) :
    ∃ found, resolveLaunchTarget inst app (some a) none = .ok (some found) ∧
      (⟨.app, app, a, found.2⟩ : InstalledRef) ∈ inst.refs := by
  have hthis : ∀ {l : InstalledRef}, l ∈ inst.refs → Satisfies app (some a) none l →
      (⟨.app, app, a, l.branch⟩ : InstalledRef) ∈ inst.refs := by
    intro l hl hfit
    obtain ⟨hkind, hname, harch, -⟩ := hfit
    rw [← hkind, ← hname, ← harch a rfl]
    exact hl
  rw [InstallationReader.resolveLaunchTarget_eq hlist]
  cases hcurrent : (inst.current app).filter (Satisfies app (some a) none ·) with
  | some current =>
    obtain ⟨hcurrent, hfit⟩ := Option.filter_eq_some_iff.mp hcurrent
    exact ⟨_, rfl, hthis (inst.current_installed hcurrent).1 (of_decide_eq_true hfit)⟩
  | none =>
    obtain ⟨l, hl⟩ : ∃ l, inst.refs.find? (Satisfies app (some a) none ·) = some l :=
      Option.isSome_iff_exists.mp (List.find?_isSome.mpr ⟨r, hmem, decide_eq_true hr⟩)
    have hscan : InstallationReader.scan inst.defaultArch app (some a) none inst.refs none =
        some (l.arch, l.branch) := by
      rw [InstallationReader.scan_hinted, hl]
      rfl
    refine ⟨(l.arch, l.branch), congrArg Except.ok hscan, ?_⟩
    have hfit := List.find?_some hl
    exact hthis (List.mem_of_find?_eq_some hl) (of_decide_eq_true hfit)

/-- Where the hints are not a branch alone, a launch starts the ref that was checked. -/
theorem launchedRef_of_getInstalledAppRef {inst : Installation} {app : CString}
    {arch branch : Option CString} {r : InstalledRef}
    (hget : getInstalledAppRef inst app arch branch = some r)
    (hhints : hint arch ≠ none ∨ hint branch = none) :
    launchedRef inst app arch branch = some r := by
  obtain ⟨hmem, hkind, hname⟩ := getInstalledAppRef_app hget
  have hthis : (⟨.app, app, r.arch, r.branch⟩ : InstalledRef) = r := by rw [← hkind, ← hname]
  cases harch : hint arch with
  | none =>
    have hbranch := hhints.resolve_left (not_not.mpr harch)
    -- without hints both take the current app
    have hcurrent : inst.current app = some r := by
      rwa [getInstalledAppRef, harch, hbranch] at hget
    have htarget : launchTarget inst app arch branch = some (r.arch, r.branch) := by
      rw [launchTarget, harch, hbranch]
      simp only [InstallationReader.resolveLaunchTarget_current none none hcurrent (by simp)
        (by simp), Option.getD_none]
    rw [launchedRef_of_target htarget (hthis ▸ hmem), hthis]
  | some a =>
    cases hbranch : hint branch with
    | some b =>
      -- with both hints the ref is named
      have hr : r = ⟨.app, app, a, b⟩ := by
        rw [getInstalledAppRef, harch, hbranch] at hget
        exact (Installation.getInstalledRef_eq_some.mp hget).2
      have htarget : launchTarget inst app arch branch = some (a, b) := by
        rw [launchTarget, harch, hbranch]
      rw [hr, launchedRef_of_target htarget (hr ▸ hmem)]
    | none =>
      -- with an arch alone both search, and mean the same ref if both find one
      have hsame : ∀ {l}, launchedRef inst app arch branch = some l → r = l :=
        InstallationReader.same_ref_arch harch hbranch hget
      rw [getInstalledAppRef, harch, hbranch] at hget
      cases hlist : inst.listError with
      | some msg =>
        simp [Installation.listInstalledRefsByKind, Installation.listInstalledRefs, hlist,
          Except.map] at hget
      | none =>
        simp only [Installation.listInstalledRefsByKind, Installation.listInstalledRefs, hlist,
          Except.map] at hget
        have hofarch := ((matchArch_mem hget).resolve_left (by simp)).2.2
        obtain ⟨found, hfound, hthere⟩ := resolveLaunchTarget_finds hlist hmem
          (show Satisfies app (some a) none r from ⟨hkind, hname, by simpa using hofarch, by simp⟩)
        have htarget : launchTarget inst app arch branch = some (a, found.2) := by
          rw [launchTarget, harch, hbranch]
          simp only [hfound, Option.getD_some, Option.getD_none]
        have hlaunch := launchedRef_of_target htarget hthere
        rw [hlaunch, hsame hlaunch]

/-- **What may be launched is what is launched**: of an installation that nobody changes,
where the hints are not a branch alone, a launch behind a check that found nothing wrong
starts the ref that was checked; it is of the arch that was reported, which can be run, and
the runtime that its metadata declare is installed. -/
theorem checked_is_launched (hstill : ∀ s s', w.changes s s' → s' = s)
    (hhints : hint (some (.ofString arch)) ≠ none ∨ hint (some (.ofString branch)) = none)
    {v : AppRunnability}
    (h : Runs w.Replies e (checkRunnable appStream appId arch branch) trace e' (.ok v))
    (hlaunch : v.canLaunch = true) :
    ∃ l, e.app appId arch branch = some l ∧
      launchedRef e.installation (.ofString appId) (some (.ofString arch))
        (some (.ofString branch)) = some l ∧
      v.arch = l.arch.text ∧ ¬ Foreign appStream l.arch.text ∧
      ∀ runtime, e.declaredRuntime appId arch branch = some runtime →
        v.runtimeRef = some runtime ∧ ∃ ref ∈ e.installation.refs,
          w.refs.parse (.ofString ("runtime/" ++ runtime)) = .ok ref := by
  have hnone : v.blocker = .none := of_decide_eq_true hlaunch
  rcases checkRunnable_runs h with ⟨-, -, hv⟩ |
      ⟨ref, happ, ⟨-, -, hv⟩ | ⟨hforeign, e₂, rest, -, hchanges, hrest⟩⟩
  · rw [Except.ok.inj hv] at hnone
    cases hnone
  · rw [Except.ok.inj hv] at hnone
    cases hnone
  · obtain rfl := hstill e e₂ hchanges
    refine ⟨ref, happ, launchedRef_of_getInstalledAppRef happ hhints, ?_⟩
    rcases checkRuntime_runs hrest with ⟨hno, -, hv⟩ |
        ⟨e₃, runtime, hruntime, hchanges', -, ⟨err, text, -, hv⟩ | ⟨found, hparse, hv⟩⟩
    · obtain rfl := Except.ok.inj hv
      exact ⟨rfl, hforeign, fun runtime hruntime => absurd (hno.symm.trans hruntime) (by simp)⟩
    · cases hv
    · obtain rfl := Except.ok.inj hv
      obtain rfl := hstill e₂ e₃ hchanges'
      refine ⟨rfl, hforeign, fun runtime' hruntime' => ?_⟩
      obtain rfl := Option.some.inj (hruntime.symm.trans hruntime')
      refine ⟨rfl, found, ?_, hparse⟩
      -- otherwise the runtime was reported missing
      by_contra hout
      simp [resolveRunnability, hout] at hnone

/-! ### An app and its runtime -/

open InstallationReader (nativeBuild foreignBuild)

/-- Its runtime. -/
def platform : InstalledRef :=
  ⟨.runtime, ⟨Text.utf8Encode "org.Platform", by decide, by decide⟩, nativeBuild.arch,
    nativeBuild.branch⟩

/-- `runtime=org.Platform/x86_64/stable`. -/
def platformRef : CString :=
  ⟨Text.utf8Encode "org.Platform/x86_64/stable", by decide, by decide⟩

/-- Metadata of these groups, that name it. -/
def keys (groups : Glib.Strv) : Glib.KeyFile where
  getGroups := groups
  getKeys _ := none
  getString _ key := if key.bytes = Text.utf8Encode "runtime" then some platformRef else none
  getStringList _ _ := none
  getBoolean _ _ := false

theorem keys_sendable (groups : Glib.Strv) (group key s : CString)
    (h : (keys groups).getString group key = some s) : GlazeCodec.Sendable s := by
  obtain ⟨-, h⟩ := Option.ite_none_right_eq_some.mp h
  rw [← Option.some.inj h]
  exact ⟨⟨_, rfl⟩, by decide +kernel⟩

/-- No groups that matter here. -/
def noGroups : Glib.Strv := ⟨[], by decide⟩

theorem portable_lit (s : String) {c : CppString} (hc : c.val = Text.utf8Encode s)
    (hmark : ¬ Text.byteOrderMark <+: Text.utf8Encode s) : c.Portable := ⟨⟨s, hc⟩, hc ▸ hmark⟩

theorem portable_plain (inst : Installation) {r : InstalledRef}
    (hname : (CppString.ofCString r.name).Portable) (harch : (CppString.ofCString r.arch).Portable)
    (hbranch : (CppString.ofCString r.branch).Portable) :
    Portable (InstallationReader.installedApp inst r.kind r InstallationReader.noDetails) := by
  have hempty : CppString.Portable .empty := portable_lit "" rfl (by decide)
  have hkind : (InstallationReader.kindName r.kind).Portable := by
    cases r.kind with
    | app => exact portable_lit "app" rfl (by decide)
    | runtime => exact portable_lit "runtime" rfl (by decide)
  exact ⟨⟨hkind, hname, harch, hbranch, hempty, hempty, trivial⟩, hempty, hempty, hempty,
    fun _ => Nat.two_pow_pos 63, trivial, trivial, hempty, hempty, hempty, hempty, hempty, trivial⟩

/-- An installation of these refs, where the app's own build is current. -/
def plain (kf : Glib.KeyFile) (refs : List InstalledRef) (h : nativeBuild ∈ refs) :
    InstallationReader.Environment where
  installation := {
    refs
    listError := none
    current := fun app => if app = nativeBuild.name then some nativeBuild else none
    defaultArch := nativeBuild.arch
    current_installed := fun hcurrent => by
      obtain ⟨rfl, hcurrent⟩ := Option.ite_none_right_eq_some.mp hcurrent
      obtain rfl := Option.some_inj.mp hcurrent
      exact ⟨h, rfl, rfl⟩ }
  details _ := InstallationReader.noDetails
  notInstalled := none
  loadMetadata _ := .ok []
  loadFromData _ := .ok kf

theorem plain_legible {kf : Glib.KeyFile} {refs : List InstalledRef} (h : nativeBuild ∈ refs)
    (hrefs : ∀ r ∈ refs, r = nativeBuild ∨ r = foreignBuild ∨ r = platform)
    (hstrings : ∀ group key s, kf.getString group key = some s → GlazeCodec.Sendable s)
    (hextensions : ∀ r ∈ refs, ∀ ext ∈ AppMetadata.requiredExtensions kf r.branch,
      GlazeCodec.Sendable (InstallationReader.extensionRef r.arch ext)) :
    Legible (plain kf refs h) where
  app r hr := by
    rcases hrefs r hr with rfl | rfl | rfl
    · exact portable_plain _ (portable_lit "org.App" rfl (by decide))
        (portable_lit "x86_64" rfl (by decide)) (portable_lit "stable" rfl (by decide))
    · exact portable_plain _ (portable_lit "org.App" rfl (by decide))
        (portable_lit "aarch64" rfl (by decide)) (portable_lit "stable" rfl (by decide))
    · exact portable_plain _ (portable_lit "org.Platform" rfl (by decide))
        (portable_lit "x86_64" rfl (by decide)) (portable_lit "stable" rfl (by decide))
  listError := by rintro _ ⟨⟩
  notInstalled := by rintro _ ⟨⟩
  loadMetadata := by rintro _ _ ⟨⟩
  loadFromData := by rintro _ _ ⟨⟩
  strings := by
    rintro _ _ ⟨⟩
    exact hstrings
  extensions := by
    rintro _ _ ⟨⟩
    exact hextensions

/-- The app, its build for another arch, and its runtime. -/
def ready : Snapshot where
  toEnvironment := plain (keys noGroups) [nativeBuild, foreignBuild, platform] (by simp)
  legible := plain_legible _ (by simp) (keys_sendable noGroups)
    fun _ _ _ hext => absurd hext List.not_mem_nil

/-- `flatpak_ref_parse` on what has four parts. -/
def fourParts : RefParse where
  parse ref :=
    match ref.bytes.splitOn 0x2F with
    | [kind, name, arch, branch] =>
      if kind = Text.utf8Encode "runtime" then
        .ok ⟨.runtime, .ofBytes name, .ofBytes arch, .ofBytes branch⟩
      else if kind = Text.utf8Encode "app" then
        .ok ⟨.app, .ofBytes name, .ofBytes arch, .ofBytes branch⟩
      else .error none
    | _ => .error none
  legible ref msg h := by
    split at h
    · split at h
      · cases h
      · split at h <;> cases h
    · cases h

/-- Nobody changes the installation. -/
def still : World where
  refs := fourParts
  changes e e' := e' = e
  installs _ _ e r e' := (∃ ex, r = .error ex) ∧ e' = e

theorem still_returns {α : Type} (e : Snapshot) (m : Method α) :
    ∃ trace e' r, Runs still.Replies e m trace e' r := by
  refine exists_runs (exists_reply (fun e => ⟨e, rfl⟩) fun remote ref e => ?_) e m
  exact ⟨.error ⟨"", ""⟩, e, ⟨_, rfl⟩, rfl⟩

/-- A host that runs what is built for it. -/
def nativeHost : FlatpakAppStream where
  installationPath := .lit "/var/lib/flatpak"
  archPolicy := .native
  hostArch := some (.lit "x86_64")
  executableArches := .ofList []

theorem still_keeps {α : Type} {m : Method α} {r : Except Exception α}
    (h : Runs still.Replies e m trace e' r) : ∀ s ∈ trace.map Prod.fst ++ [e'], s = e := by
  obtain ⟨htrace, hend⟩ := h.keeps (P := (· = e)) (fun hreply hs => by
    cases hreply with
    | read _ hchanges => exact Eq.trans hchanges hs
    | install hinstalls => exact hinstalls.2.trans hs) rfl
  intro s hs
  rcases List.mem_append.mp hs with hs | hs
  · obtain ⟨asked, hasked, rfl⟩ := List.mem_map.mp hs
    exact htrace asked hasked
  · exact List.mem_singleton.mp hs ▸ hend

/-- The current build may be launched. -/
theorem checkRunnable_verdict_ready : ∃ trace e' r,
    Runs still.Replies ready (checkRunnable nativeHost "org.App" "" "") trace e' r ∧
      r = .ok ⟨"org.App", "x86_64", true, some "org.Platform/x86_64/stable", true, .none⟩ := by
  obtain ⟨trace, e', r, hrun⟩ : ∃ trace e' r,
      Runs still.Replies ready (checkRunnable nativeHost "org.App" "" "") trace e' r :=
    checkRunnable_verdict.1 fun s => ⟨s, rfl⟩
  obtain ⟨e₂, e₃, he₂, he₃, -, hverdict, -⟩ := checkRunnable_verdict.2 hrun
  obtain rfl := still_keeps hrun e₂ he₂
  obtain rfl := still_keeps hrun e₃ he₃
  have hblocker : blocker fourParts nativeHost "org.App" "" "" ready ready ready =
      some .none := by decide +kernel
  have hreport : report nativeHost "org.App" "" "" ready ready .none =
      ⟨"org.App", "x86_64", true, some "org.Platform/x86_64/stable", true, .none⟩ := by
    decide +kernel
  exact ⟨trace, e', r, hrun, (hverdict .none hblocker).1.trans (congrArg Except.ok hreport)⟩

/-- The build for another arch is not listed. -/
theorem listApplications_runnable_foreign : ∃ trace e' apps,
    Runs still.Replies ready (listApplications nativeHost false false) trace e' (.ok apps) ∧
      ready.application foreignBuild ∉ apps := by
  obtain ⟨trace, e', r, hlisted⟩ := still_returns ready (listApplications nativeHost false false)
  obtain ⟨apps, rfl⟩ : ∃ apps, r = .ok apps := by
    rcases runs_andThen_iff.mp hlisted with ⟨ex, -, hask⟩ | ⟨t, all, begun, rest, -, hdone, -⟩
    · obtain ⟨-, -, ⟨msg, hmsg, -⟩ | ⟨-, hok⟩⟩ := runs_listApplications hask
      · cases hmsg
      · cases hok
    · exact ⟨_, (runs_done_iff.mp hdone).2.2⟩
  obtain ⟨checked, last, r, hcheck⟩ := still_returns ready (checkRunnable nativeHost
    foreignBuild.name.text foreignBuild.arch.text foreignBuild.branch.text)
  have happ : ready.app foreignBuild.name.text foreignBuild.arch.text foreignBuild.branch.text =
      some foreignBuild := by decide +kernel
  have hforeign : Foreign nativeHost foreignBuild.arch.text := by decide +kernel
  obtain ⟨v, rfl, hblocker⟩ : ∃ v, r = .ok v ∧ v.blocker = .architecture := by
    rcases checkRunnable_runs hcheck with ⟨hnone, -, -⟩ |
        ⟨ref, hfound, ⟨-, -, hr⟩ | ⟨hother, -⟩⟩
    · exact absurd (happ.symm.trans hnone) (by simp)
    · exact ⟨_, hr, rfl⟩
    · obtain rfl := Option.some.inj (happ.symm.trans hfound)
      exact absurd hforeign hother
  obtain ⟨-, hagree⟩ := listApplications_runnable (by decide +kernel) hlisted
  have hthere : foreignBuild ∈ ready.installation.refs := by decide +kernel
  obtain ⟨-, hshown⟩ := hagree foreignBuild hthere rfl checked last v hcheck
  exact ⟨trace, e', apps, hlisted, fun hin => hshown.mp hin hblocker⟩

/-- The current build is launched. -/
theorem checked_is_launched_ready :
    launchedRef ready.installation (.ofString "org.App") (some (.ofString ""))
      (some (.ofString "")) = some nativeBuild ∧ ¬ Foreign nativeHost nativeBuild.arch.text := by
  obtain ⟨trace, e', r, hrun⟩ := still_returns ready (checkRunnable nativeHost "org.App" "" "")
  have happ : ready.app "org.App" "" "" = some nativeBuild := by decide +kernel
  have hruntime : ready.declaredRuntime "org.App" "" "" = some "org.Platform/x86_64/stable" := by
    decide +kernel
  have hparse : fourParts.parse (.ofString ("runtime/" ++ "org.Platform/x86_64/stable")) =
      .ok platform := by decide +kernel
  have hown : ¬ Foreign nativeHost nativeBuild.arch.text := by decide +kernel
  have hthere : platform ∈ ready.installation.refs := by decide +kernel
  obtain rfl := checkRunnable_still (fun _ _ h => h) happ hown hruntime hparse hrun
  rw [decide_eq_true hthere] at hrun
  obtain ⟨l, hl, hlaunched, -, harch, -⟩ := checked_is_launched (fun _ _ h => h)
    (.inr (by decide +kernel)) hrun rfl
  obtain rfl := Option.some.inj (happ.symm.trans hl)
  exact ⟨hlaunched, harch⟩

end Runnability
