/-
The update monitor (`native/src/flatpak_bridge.cpp`,
`FlatpakClient.watchUpdates` of `lib/src/flatpak_client.dart`).

At every change notification the monitor lists what is installed and keeps the
number of apps, −1 for a listing that failed; it posts an event when the number
is another one.  What a listener is told it is watching is the set of installed
refs with their commits.

* `emitted_ne_nil_iff` — an event is emitted when the summary changes;
* `monitor_reports_iff` — the events are the changes exactly if no listing fails
  after one has succeeded, and the number of apps changes whenever the set does.
-/
import FlatpakDart.ChangeDetector
import FlatpakDart.LaunchTarget
import Mathlib.Data.List.Nodup

open Libflatpak ChangeDetector

namespace UpdateMonitor

/-! ### What is installed -/

/-- An installed ref, with the commit that is deployed. -/
structure Deployed where
  ref : InstalledRef
  commit : CString
  deriving DecidableEq

/-- What `flatpak_installation_list_installed_refs` answers. -/
structure Listing where
  refs : List Deployed
  nodup : refs.Nodup

/-- The set of installed refs with their commits. -/
def Listing.installed (l : Listing) : Set Deployed := {d | d ∈ l.refs}

/-- How many of them are apps. -/
def Listing.apps (l : Listing) : ℕ := l.refs.countP (·.ref.kind = .app)

/-- The same refs in another order have as many apps. -/
theorem Listing.apps_eq {s t : Listing} (h : s.installed = t.installed) : s.apps = t.apps := by
  have hmem : ∀ d, d ∈ s.refs ↔ d ∈ t.refs := fun d => Set.ext_iff.mp h d
  exact List.Perm.countP_eq _ ((List.perm_ext_iff_of_nodup s.nodup t.nodup).mpr hmem)

/-! ### The monitor -/

/-- The loop of `count_installed_apps`. -/
def countApps : List Deployed → ℤ → ℤ
  | [], count => count
  | d :: rest, count => countApps rest (if d.ref.kind = .app then count + 1 else count)

/-- `count_installed_apps`; `none` is a listing that failed. -/
def countInstalledApps : Option Listing → ℤ
  | none => -1
  | some l => countApps l.refs 0

theorem countApps_eq (refs : List Deployed) (count : ℤ) :
    countApps refs count = count + refs.countP (·.ref.kind = .app) := by
  induction refs generalizing count with
  | nil => simp [countApps]
  | cons d rest ih =>
    rw [countApps, ih, List.countP_cons]
    by_cases hd : d.ref.kind = .app
    · simp [hd]
      omega
    · simp [hd]

theorem countInstalledApps_some (l : Listing) : countInstalledApps (some l) = l.apps := by
  rw [countInstalledApps, countApps_eq, Int.zero_add, Listing.apps]

/-- The fields of a `MonitorHandle` that the callback uses. -/
structure MonitorHandle where
  port : ℕ
  lastAppCount : ℤ

/-- `post_update_event`. -/
def postUpdateEvent : List UInt8 := [0x11]

/-- `flatpak_monitor_create`, for an installation that could be opened. -/
def flatpakMonitorCreate (port : ℕ) (listed : Option Listing) : MonitorHandle where
  port := port
  lastAppCount := countInstalledApps listed

/-- `on_file_changed`, and what it posts on the port. -/
def onFileChanged (h : MonitorHandle) (listed : Option Listing) :
    MonitorHandle × List (List UInt8) :=
  let current := countInstalledApps listed
  if current ≠ h.lastAppCount then ({ h with lastAppCount := current }, [postUpdateEvent])
  else (h, [])

/-- `UpdateAvailableEvent`. -/
inductive UpdateAvailableEvent
  | mk
  deriving DecidableEq

/-- The callback of `port.listen`. -/
def onMessage (msg : List UInt8) : List UpdateAvailableEvent :=
  if msg.head? = some 0x11 then [.mk] else []

/-- The handle after some notifications. -/
def handleAfter (port : ℕ) (created : Option Listing) (seen : List (Option Listing)) :
    MonitorHandle :=
  seen.foldl (fun h listed => (onFileChanged h listed).1) (flatpakMonitorCreate port created)

/-- What the stream of `watchUpdates` emits for the next notification. -/
def emitted (port : ℕ) (created : Option Listing) (seen : List (Option Listing))
    (listed : Option Listing) : List UpdateAvailableEvent :=
  (onFileChanged (handleAfter port created seen) listed).2.flatMap onMessage

/-! ### The number it keeps -/

theorem onFileChanged_lastAppCount (h : MonitorHandle) (listed : Option Listing) :
    (onFileChanged h listed).1.lastAppCount = countInstalledApps listed := by
  by_cases hsame : countInstalledApps listed = h.lastAppCount
  · simp [onFileChanged, hsame]
  · simp [onFileChanged, hsame]

/-- It is that of the last look, whether that failed or not. -/
theorem handleAfter_lastAppCount (port : ℕ) {created prev : Option Listing}
    {seen before : List (Option Listing)} (h : created :: seen = before ++ [prev]) :
    (handleAfter port created seen).lastAppCount = countInstalledApps prev := by
  rcases List.eq_nil_or_concat seen with rfl | ⟨seen, last, rfl⟩
  · obtain ⟨-, hlast⟩ := List.append_inj' (show [] ++ [created] = before ++ [prev] from h) rfl
    obtain ⟨rfl, -⟩ := List.cons_eq_cons.mp hlast
    rfl
  · rw [List.concat_eq_append, ← List.cons_append] at h
    obtain ⟨-, hlast⟩ := List.append_inj' h rfl
    obtain ⟨rfl, -⟩ := List.cons_eq_cons.mp hlast
    rw [handleAfter, List.concat_eq_append, List.foldl_append]
    exact onFileChanged_lastAppCount _ _

theorem emitted_ne_nil_iff (port : ℕ) {created prev : Option Listing}
    {seen before : List (Option Listing)} (h : created :: seen = before ++ [prev])
    (listed : Option Listing) :
    emitted port created seen listed ≠ [] ↔ Signals countInstalledApps prev listed := by
  rw [emitted, onFileChanged, handleAfter_lastAppCount port h, Signals]
  by_cases hsame : countInstalledApps listed = countInstalledApps prev
  · simp [hsame]
  · simp [hsame, onMessage, postUpdateEvent]

/-! ### What it reports -/

/-- Between two looks: none fails after one has succeeded, and the number of apps
changes if the set of installed refs and commits does. -/
def Countable (first : Prop) : Option Listing → Option Listing → Prop
  | none, none => True
  | none, some _ => first
  | some _, none => False
  | some t, some s => s.installed ≠ t.installed → s.apps ≠ t.apps

theorem tells_iff_countable {first : Prop} (prev cur : Option Listing) :
    Tells Listing.installed countInstalledApps first prev cur ↔ Countable first prev cur := by
  cases prev with
  | none => cases cur <;> rfl
  | some t =>
    cases cur with
    | none => rfl
    | some s =>
      simp only [Tells, Countable, countInstalledApps_some]
      rw [Ne, Ne, Int.ofNat_inj]

/-- The set of installed refs and commits is reported to have changed when it has,
`first` being whether the first one that is ever read is a change. -/
def Reports (first : Prop) (port : ℕ) (created : Option Listing) (seen : List (Option Listing)) :
    Prop :=
  ∀ before cur after, seen = before ++ cur :: after →
    (emitted port created before cur ≠ [] ↔
      IsNews Listing.installed first (lastRead (created :: before)) cur)

/-- **The events are the changes** in exactly the histories in which no listing fails
after one has succeeded and the number of apps changes with the set. -/
theorem monitor_reports_iff (first : Prop) (port : ℕ) (created : Option Listing)
    (seen : List (Option Listing)) :
    Reports first port created seen ↔ (created :: seen).IsChain (Countable first) := by
  have hfail : ∀ s, countInstalledApps none ≠ countInstalledApps (some s) := by
    intro s
    rw [countInstalledApps_some, countInstalledApps]
    omega
  have hident : ∀ s t : Listing, s.installed = t.installed →
      countInstalledApps (some s) = countInstalledApps (some t) := by
    intro s t h
    rw [countInstalledApps_some, countInstalledApps_some, Listing.apps_eq h]
  have hrelation : Countable first = Tells Listing.installed countInstalledApps first := by
    funext prev cur
    exact propext (tells_iff_countable prev cur).symm
  rw [hrelation, ← exact_iff hfail hident]
  constructor
  · intro h before prev cur after heq
    -- the first look is the one at creation
    cases before with
    | nil =>
      obtain ⟨rfl, hseen⟩ := List.cons_eq_cons.mp heq
      have hreport := h [] cur after hseen
      rwa [emitted_ne_nil_iff port (List.nil_append _).symm cur] at hreport
    | cons o before =>
      obtain ⟨rfl, hseen⟩ := List.cons_eq_cons.mp heq
      have hreport := h (before ++ [prev]) cur after (by simpa using hseen)
      rwa [emitted_ne_nil_iff port (List.cons_append (a := created)).symm cur] at hreport
  · intro h before cur after heq
    obtain ⟨init, prev, hlast⟩ : ∃ init prev, created :: before = init ++ [prev] :=
      ⟨_, _, (List.dropLast_concat_getLast (List.cons_ne_nil created before)).symm⟩
    rw [emitted_ne_nil_iff port hlast cur, hlast]
    refine h init prev cur after ?_
    rw [heq, ← List.cons_append, hlast]
    simp

/-! ### An update in place -/

/-- One app, at this commit. -/
def oneApp (commit : CString) : Listing := ⟨[⟨InstallationReader.nativeBuild, commit⟩], by simp⟩

def oldCommit : CString := .lit "0b1c" (by decide)

def newCommit : CString := .lit "9f3e" (by decide)

/-- An app that is updated in place is not reported, and a listing that fails is. -/
theorem updated_app_unreported :
    ¬ Reports True 0 (some (oneApp oldCommit)) [some (oneApp newCommit)] ∧
      ¬ Reports True 0 (some (oneApp oldCommit)) [none] := by
  constructor
  case left =>
    intro h
    have hreport := h [] (some (oneApp newCommit)) [] rfl
    have hsilent : emitted 0 (some (oneApp oldCommit)) [] (some (oneApp newCommit)) = [] := by
      decide +kernel
    refine hreport.mpr ⟨oneApp newCommit, rfl, fun hsame => ?_⟩ hsilent
    have hmem : (⟨InstallationReader.nativeBuild, newCommit⟩ : Deployed) ∈
        (oneApp oldCommit).installed := hsame ▸ List.mem_singleton_self _
    exact absurd (List.mem_singleton.mp hmem) (by decide +kernel)
  case right =>
    intro h
    have hreport := h [] none [] rfl
    have hevent : emitted 0 (some (oneApp oldCommit)) [] none ≠ [] := by decide +kernel
    obtain ⟨s, hs, -⟩ := hreport.mp hevent
    exact absurd hs (by simp)

end UpdateMonitor
