/-
Which architectures are looked for, and which catalog is found
(`lib/src/arch.dart`, `lib/src/appstream/catalog.dart`).

* `candidateArches_initial` — a wider policy only adds at the end;
* `mem_candidateArches_emulated` — what the widest one allows;
* `catalogPath_widen` — widening the policy leaves a catalog that was found;
* `archSelection` — all of it together.
-/
import FlatpakDart.DartString
import FlatpakDart.InsertionOrder

open InsertionOrder

namespace Arch

/-! ### `lib/src/arch.dart` -/

inductive ArchPolicy
  | native
  | compatible
  | emulated
  deriving DecidableEq

/-- The `index` of the enum. -/
def ArchPolicy.index : ArchPolicy → ℕ
  | native => 0
  | compatible => 1
  | emulated => 2

/-- `compatibleArches`. -/
def compatibleArches (hostArch : DartString) : List DartString :=
  if hostArch = .lit "x86_64" then [.lit "x86_64", .lit "i386"]
  else if hostArch = .lit "aarch64" then [.lit "aarch64", .lit "arm"]
  else [hostArch]

/-- `candidateArches`; a host that `flatpakArchFor` does not name is null. -/
def candidateArches (policy : ArchPolicy) (hostArch : Option DartString)
    (executableArches : LinkedSet DartString) : List DartString :=
  match hostArch with
  | none => []
  | some host =>
    let ordered := [host]
    if policy = .native then ordered
    else
      let ordered := addAll ordered (compatibleArches host)
      if policy = .compatible then ordered
      else addAll ordered (DartString.sort executableArches.toList)

/-! ### The catalogs of a remote -/

/-- An entry of a directory. -/
structure Entry where
  path : DartString
  isDirectory : Bool

/-- The file system, and the functions of `package:path` on its paths. -/
structure FileSystem where
  join : List DartString → DartString
  basename : DartString → DartString
  fileExists : DartString → Bool
  directoryExists : DartString → Bool
  /-- `listSync`, which may throw -/
  list : DartString → Option (List Entry)

/-- The members of a `FlatpakAppStream` that say where it looks. -/
structure FlatpakAppStream where
  installationPath : DartString
  archPolicy : ArchPolicy
  hostArch : Option DartString
  executableArches : LinkedSet DartString

namespace FlatpakAppStream

variable (fs : FileSystem) (s : FlatpakAppStream) (remote : DartString)

/-- Where `_catalogFileFor` looks, in this order. -/
def catalogFiles (arch : DartString) : List DartString :=
  let archDir := fs.join [s.installationPath, .lit "appstream", remote, arch]
  [fs.join [archDir, .lit "active"], archDir].flatMap fun dir =>
    [.lit "appstream.xml", .lit "appstream.xml.gz"].map fun name => fs.join [dir, name]

/-- `_catalogFileFor`. -/
def catalogFileFor (arch : DartString) : Option DartString :=
  (s.catalogFiles fs remote arch).find? fs.fileExists

/-- `downloadedArches`. -/
def downloadedArches : LinkedSet DartString :=
  let dir := fs.join [s.installationPath, .lit "appstream", remote]
  if fs.directoryExists dir then
    match fs.list dir with
    | some entries => .ofList ((entries.filter (·.isDirectory)).map fun d => fs.basename d.path)
    | none => .ofList []
  else .ofList []

/-- What `candidateArches` is asked for. -/
def candidates : List DartString := candidateArches s.archPolicy s.hostArch s.executableArches

/-- `usableArches`. -/
def usableArches : List DartString :=
  s.candidates.filter fun a => a ∈ s.downloadedArches fs remote

/-- `catalogPath`. -/
def catalogPath (arch : DartString) : Option DartString :=
  if arch ≠ [] then s.catalogFileFor fs remote arch
  else (s.usableArches fs remote).findSome? (s.catalogFileFor fs remote)

end FlatpakAppStream

/-! ### The candidates -/

variable {host : DartString} {executable : LinkedSet DartString}

theorem candidateArches_native :
    candidateArches .native (some host) executable = [host] := rfl

theorem candidateArches_compatible :
    candidateArches .compatible (some host) executable = addAll [host] (compatibleArches host) :=
  rfl

theorem candidateArches_emulated :
    candidateArches .emulated (some host) executable =
      addAll (candidateArches .compatible (some host) executable)
        (DartString.sort executable.toList) := rfl

theorem candidateArches_nodup (policy : ArchPolicy) (hostArch : Option DartString) :
    (candidateArches policy hostArch executable).Nodup := by
  cases hostArch with
  | none => exact List.nodup_nil
  | some host =>
    have hcompatible := nodup_addAll (List.nodup_singleton host) (compatibleArches host)
    cases policy with
    | native => exact List.nodup_singleton host
    | compatible => exact hcompatible
    | emulated => exact nodup_addAll hcompatible _

/-- A wider policy only adds at the end. -/
theorem candidateArches_initial {p q : ArchPolicy} (h : p.index ≤ q.index)
    (hostArch : Option DartString) :
    candidateArches p hostArch executable <+: candidateArches q hostArch executable := by
  cases hostArch with
  | none => exact List.prefix_refl []
  | some host =>
    have hnative := prefix_addAll [host] (compatibleArches host)
    have hcompatible := prefix_addAll (addAll [host] (compatibleArches host))
      (DartString.sort executable.toList)
    cases p with
    | native =>
      cases q with
      | native => exact List.prefix_refl _
      | compatible => exact hnative
      | emulated => exact hnative.trans hcompatible
    | compatible =>
      cases q with
      | native => exact absurd h (by decide)
      | compatible => exact List.prefix_refl _
      | emulated => exact hcompatible
    | emulated =>
      cases q with
      | native => exact absurd h (by decide)
      | compatible => exact absurd h (by decide)
      | emulated => exact List.prefix_refl _

/-- The host comes first. -/
theorem candidateArches_head (policy : ArchPolicy) :
    (candidateArches policy (some host) executable).head? = some host := by
  have hnative : candidateArches .native (some host) executable <+:
      candidateArches policy (some host) executable :=
    candidateArches_initial (Nat.zero_le _) (some host)
  obtain ⟨rest, hrest⟩ := hnative
  rw [← hrest, candidateArches_native]
  rfl

theorem mem_candidateArches_emulated {a : DartString} :
    a ∈ candidateArches .emulated (some host) executable ↔
      a = host ∨ a ∈ compatibleArches host ∨ a ∈ executable := by
  rw [candidateArches_emulated, candidateArches_compatible, mem_addAll, mem_addAll,
    List.mem_singleton, DartString.mem_sort, LinkedSet.mem_toList, or_assoc]

/-- The order in which the set is gone through does not matter. -/
theorem candidateArches_of_perm {executable' : LinkedSet DartString}
    (h : ∀ a, a ∈ executable ↔ a ∈ executable') (policy : ArchPolicy)
    (hostArch : Option DartString) :
    candidateArches policy hostArch executable = candidateArches policy hostArch executable' := by
  have hperm : executable.toList.Perm executable'.toList :=
    (List.perm_ext_iff_of_nodup executable.nodup executable'.nodup).mpr h
  cases hostArch with
  | none => rfl
  | some host =>
    cases policy with
    | native => rfl
    | compatible => rfl
    | emulated =>
      rw [candidateArches_emulated, candidateArches_emulated, DartString.sort_eq_of_perm hperm]
      rfl

/-- What holds of the candidates on a host. -/
structure Candidates (host : DartString) (executable : LinkedSet DartString) : Prop where
  nodup : ∀ policy, (candidateArches policy (some host) executable).Nodup
  host_first : ∀ policy, (candidateArches policy (some host) executable).head? = some host
  native_compatible : candidateArches .native (some host) executable <+:
    candidateArches .compatible (some host) executable
  compatible_emulated : candidateArches .compatible (some host) executable <+:
    candidateArches .emulated (some host) executable
  allowed : ∀ a, a ∈ candidateArches .emulated (some host) executable ↔
    a = host ∨ a ∈ compatibleArches host ∨ a ∈ executable
  any_order : ∀ executable' : LinkedSet DartString, (∀ a, a ∈ executable ↔ a ∈ executable') →
    ∀ policy, candidateArches policy (some host) executable =
      candidateArches policy (some host) executable'

/-! ### The catalog that is found -/

namespace FlatpakAppStream

variable (fs : FileSystem) (s : FlatpakAppStream) (remote : DartString)

theorem mem_usableArches {a : DartString} :
    a ∈ s.usableArches fs remote ↔ a ∈ s.candidates ∧ a ∈ s.downloadedArches fs remote := by
  rw [usableArches, List.mem_filter, decide_eq_true_iff]

/-- An arch is downloaded if the remote's directory has one of its name. -/
theorem mem_downloadedArches {a : DartString} :
    a ∈ s.downloadedArches fs remote ↔
      fs.directoryExists (fs.join [s.installationPath, .lit "appstream", remote]) = true ∧
        ∃ entries, fs.list (fs.join [s.installationPath, .lit "appstream", remote]) =
          some entries ∧ ∃ d ∈ entries, d.isDirectory = true ∧ fs.basename d.path = a := by
  rw [downloadedArches]
  cases fs.directoryExists (fs.join [s.installationPath, .lit "appstream", remote]) with
  | false => simp
  | true =>
    cases fs.list (fs.join [s.installationPath, .lit "appstream", remote]) with
    | none => simp
    | some entries => simp [and_assoc]

theorem catalogFiles_eq (arch : DartString) : s.catalogFiles fs remote arch =
    let archDir := fs.join [s.installationPath, .lit "appstream", remote, arch]
    [fs.join [fs.join [archDir, .lit "active"], .lit "appstream.xml"],
      fs.join [fs.join [archDir, .lit "active"], .lit "appstream.xml.gz"],
      fs.join [archDir, .lit "appstream.xml"],
      fs.join [archDir, .lit "appstream.xml.gz"]] := rfl

theorem catalogFileFor_eq_some {arch path : DartString} :
    s.catalogFileFor fs remote arch = some path ↔
      ∃ before after, s.catalogFiles fs remote arch = before ++ path :: after ∧
        fs.fileExists path = true ∧ ∀ f ∈ before, fs.fileExists f = false := by
  rw [catalogFileFor, List.find?_eq_some_iff_append]
  simp only [Bool.not_eq_true']
  constructor
  · rintro ⟨hpath, before, after, hfiles, hbefore⟩
    exact ⟨before, after, hfiles, hpath, hbefore⟩
  · rintro ⟨before, after, hfiles, hpath, hbefore⟩
    exact ⟨hpath, before, after, hfiles, hbefore⟩

theorem catalogFileFor_eq_none {arch : DartString} :
    s.catalogFileFor fs remote arch = none ↔
      ∀ f ∈ s.catalogFiles fs remote arch, fs.fileExists f = false := by
  rw [catalogFileFor, List.find?_eq_none]
  simp

theorem catalogPath_any : s.catalogPath fs remote [] =
    (s.usableArches fs remote).findSome? (s.catalogFileFor fs remote) := by
  rw [catalogPath, if_neg (not_not.mpr rfl)]

/-- The policy changes nothing but which arches are usable, and these only at the end. -/
theorem usableArches_initial {q : ArchPolicy} (h : s.archPolicy.index ≤ q.index) :
    s.usableArches fs remote <+: { s with archPolicy := q }.usableArches fs remote :=
  (candidateArches_initial h s.hostArch).filter _

/-- Widening the policy leaves a catalog that was found. -/
theorem catalogPath_widen {q : ArchPolicy} (h : s.archPolicy.index ≤ q.index)
    {path : DartString} (hpath : s.catalogPath fs remote [] = some path) :
    { s with archPolicy := q }.catalogPath fs remote [] = some path := by
  rw [catalogPath_any] at hpath ⊢
  exact (usableArches_initial fs s remote h).findSome?_eq_some hpath

end FlatpakAppStream

/-- What holds of the catalog that is found in a remote. -/
structure Catalogs (fs : FileSystem) (s : FlatpakAppStream) (remote : DartString) : Prop where
  in_order : (s.usableArches fs remote).Sublist s.candidates
  usable : ∀ a, a ∈ s.usableArches fs remote ↔
    a ∈ s.candidates ∧ a ∈ s.downloadedArches fs remote
  downloaded : ∀ a, a ∈ s.downloadedArches fs remote ↔
    fs.directoryExists (fs.join [s.installationPath, .lit "appstream", remote]) = true ∧
      ∃ entries, fs.list (fs.join [s.installationPath, .lit "appstream", remote]) = some entries ∧
        ∃ d ∈ entries, d.isDirectory = true ∧ fs.basename d.path = a
  /-- an arch has four files: below `active` and below the arch, each not packed and packed -/
  paths : ∀ a, s.catalogFiles fs remote a =
    let archDir := fs.join [s.installationPath, .lit "appstream", remote, a]
    [fs.join [fs.join [archDir, .lit "active"], .lit "appstream.xml"],
      fs.join [fs.join [archDir, .lit "active"], .lit "appstream.xml.gz"],
      fs.join [archDir, .lit "appstream.xml"],
      fs.join [archDir, .lit "appstream.xml.gz"]]
  file : ∀ a path, s.catalogFileFor fs remote a = some path ↔
    ∃ before after, s.catalogFiles fs remote a = before ++ path :: after ∧
      fs.fileExists path = true ∧ ∀ f ∈ before, fs.fileExists f = false
  found : ∀ path, s.catalogPath fs remote [] = some path ↔
    ∃ before a after, s.usableArches fs remote = before ++ a :: after ∧
      s.catalogFileFor fs remote a = some path ∧
      ∀ b ∈ before, ∀ f ∈ s.catalogFiles fs remote b, fs.fileExists f = false
  not_found : s.catalogPath fs remote [] = none ↔
    ∀ a ∈ s.usableArches fs remote, ∀ f ∈ s.catalogFiles fs remote a, fs.fileExists f = false
  widen : ∀ q : ArchPolicy, s.archPolicy.index ≤ q.index →
    ∀ path, s.catalogPath fs remote [] = some path →
      { s with archPolicy := q }.catalogPath fs remote [] = some path
  allowed : ∀ path, s.catalogPath fs remote [] = some path →
    ∃ a ∈ s.candidates, path ∈ s.catalogFiles fs remote a ∧ fs.fileExists path = true

/-- **Architecture selection is monotone in the policy**, for every host, set of
executable arches and file system. -/
theorem archSelection (host : DartString) (fs : FileSystem) (s : FlatpakAppStream)
    (remote : DartString) : Candidates host s.executableArches ∧ Catalogs fs s remote := by
  have hfound : ∀ path, s.catalogPath fs remote [] = some path ↔
      ∃ before a after, s.usableArches fs remote = before ++ a :: after ∧
        s.catalogFileFor fs remote a = some path ∧
        ∀ b ∈ before, ∀ f ∈ s.catalogFiles fs remote b, fs.fileExists f = false := by
    intro path
    rw [FlatpakAppStream.catalogPath_any, List.findSome?_eq_some_iff]
    simp only [FlatpakAppStream.catalogFileFor_eq_none]
  constructor
  case left =>
    exact {
      nodup := fun policy => candidateArches_nodup policy (some host)
      host_first := candidateArches_head
      native_compatible := candidateArches_initial (by decide) (some host)
      compatible_emulated := candidateArches_initial (by decide) (some host)
      allowed := fun a => mem_candidateArches_emulated
      any_order := fun executable' h policy => candidateArches_of_perm h policy (some host) }
  case right =>
    exact {
      in_order := List.filter_sublist
      usable := fun a => s.mem_usableArches fs remote
      downloaded := fun a => s.mem_downloadedArches fs remote
      paths := s.catalogFiles_eq fs remote
      file := fun a path => s.catalogFileFor_eq_some fs remote
      found := hfound
      not_found := by
        rw [FlatpakAppStream.catalogPath_any, List.findSome?_eq_none_iff]
        simp only [FlatpakAppStream.catalogFileFor_eq_none]
      widen := fun q h path => s.catalogPath_widen fs remote h
      allowed := fun path hpath => by
        obtain ⟨before, a, after, husable, hcatalog, -⟩ := (hfound path).mp hpath
        have ha : a ∈ s.usableArches fs remote := by simp [husable]
        exact ⟨a, ((s.mem_usableArches fs remote).mp ha).1, List.mem_of_find?_eq_some hcatalog,
          List.find?_some hcatalog⟩ }

/-! A packed catalog below `active` of the host's arch, and older ones. -/

/-- The paths of the system's installation. -/
def flathubPath (rest : String) : DartString := .lit ("/var/lib/flatpak/appstream/flathub" ++ rest)

def posixJoin : List DartString → DartString
  | [] => []
  | [part] => part
  | part :: parts => part ++ .lit "/" ++ posixJoin parts

def flathub : FileSystem where
  join := posixJoin
  basename path := (path.reverse.takeWhile (· ≠ 47)).reverse
  fileExists path := [flathubPath "/i386/active/appstream.xml",
    flathubPath "/x86_64/active/appstream.xml.gz",
    flathubPath "/x86_64/appstream.xml"].contains path
  directoryExists path := path = flathubPath ""
  list path :=
    if path = flathubPath "" then
      some [⟨flathubPath "/i386", true⟩, ⟨flathubPath "/x86_64", true⟩, ⟨flathubPath "/.ts", false⟩]
    else none

def systemAppStream : FlatpakAppStream where
  installationPath := .lit "/var/lib/flatpak"
  archPolicy := .compatible
  hostArch := some (.lit "x86_64")
  executableArches := .ofList []

/-- The host's arch comes before the other one that has a catalog. -/
theorem archSelection_flathub :
    systemAppStream.usableArches flathub (.lit "flathub") = [.lit "x86_64", .lit "i386"] ∧
    systemAppStream.catalogPath flathub (.lit "flathub") [] =
      some (flathubPath "/x86_64/active/appstream.xml.gz") := by
  have husable : systemAppStream.usableArches flathub (.lit "flathub") =
      [.lit "x86_64", .lit "i386"] := by decide +kernel
  have hcatalogs := (archSelection (.lit "x86_64") flathub systemAppStream (.lit "flathub")).2
  have hfile := (hcatalogs.file (.lit "x86_64") (flathubPath "/x86_64/active/appstream.xml.gz")).mpr
    ⟨[flathubPath "/x86_64/active/appstream.xml"], _, hcatalogs.paths _, by decide +kernel,
      by decide +kernel⟩
  exact ⟨husable, (hcatalogs.found _).mpr ⟨[], _, _, husable, hfile, by simp⟩⟩

end Arch
