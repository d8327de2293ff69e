/-
The directory of the AppStream cache (`_createCacheDir`, `lib/src/appstream/catalog.dart`).

Whose the directory is, is told by the exit code of `chmod`; one who may change the mode
of any file gets that code for the directory of another user too.

* `isPrivateDirectory_iff` — which directories the check passes;
* `private_of_unprivileged` — without privilege these are the caller's own;
* `createCacheDir_private_iff` — so the cache is private, unless a privileged process
  finds the directory of another user in its place.
-/
import FlatpakDart.DartString
import Mathlib.Logic.Function.Basic

namespace CacheDirectory

/-! ### Files -/

/-- A file that is no link. -/
structure Node where
  isDirectory : Bool
  owner : ℕ
  mode : ℕ

/-- What a path names; a link need not lead to a file. -/
inductive Entry
  | file (node : Node)
  | link (target : Option Node)

abbrev Files := DartString → Option Entry

/-- The process and what it runs on. The package is for Linux alone, so there is no
`Platform.isWindows`. -/
structure Host where
  environment : DartString → Option DartString
  join : List DartString → DartString
  effectiveUser : ℕ
  /-- The process may change the mode of files that belong to others. -/
  privileged : Bool
  /-- The mode of a directory made at a path, if one can be made there. -/
  mkdir : DartString → Option ℕ
  /-- A program `chmod` can be started. -/
  runsChmod : Bool
  /-- The mode that `chmod 700` leaves a file of some mode with. -/
  chmod700 : ℕ → ℕ
  /-- The name that `mkdtemp` finds, if it finds one. -/
  mkdtemp : (files : Files) → Option {name : DartString // files name = none}

/-- A new directory of the process. -/
def newDirectory (host : Host) (mode : ℕ) : Entry := .file ⟨true, host.effectiveUser, mode⟩

/-- `statSync`: links are followed. -/
def statSync (files : Files) (path : DartString) : Option Node :=
  match files path with
  | none => none
  | some (.file node) => some node
  | some (.link target) => target

def isLinkSync (files : Files) (path : DartString) : Bool :=
  match files path with
  | some (.link _) => true
  | _ => false

/-- `existsSync` of a directory. -/
def existsSync (files : Files) (path : DartString) : Bool :=
  (statSync files path).any (·.isDirectory)

/-- `createSync(recursive: true)`; none if it throws. -/
def createSync (host : Host) (path : DartString) (files : Files) : Option Files :=
  if existsSync files path then some files
  else if (files path).isSome then none
  else (host.mkdir path).map fun mode =>
    Function.update files path (some (newDirectory host mode))

/-- A file in the place of the one that is named. -/
def Entry.withNode (node : Node) : Entry → Entry
  | .file _ => .file node
  | .link _ => .link (some node)

/-- The exit code of `chmod 700`, which succeeds for the owner and for the privileged. -/
def chmod (host : Host) (path : DartString) (files : Files) : ℕ × Files :=
  match files path, statSync files path with
  | some entry, some node =>
    if node.owner = host.effectiveUser ∨ host.privileged = true then
      (0, Function.update files path
        (some (entry.withNode { node with mode := host.chmod700 node.mode })))
    else (1, files)
  | _, _ => (1, files)

/-- `Directory.systemTemp.createTempSync`; none if it throws. -/
def createTempSync (host : Host) (files : Files) : Option (DartString × Files) :=
  (host.mkdtemp files).map fun name =>
    (name.val, Function.update files name.val (some (newDirectory host 0x1C0)))

/-! ### The cache directory -/

/-- `_isPrivateDirectory`. -/
def isPrivateDirectory (host : Host) (dir : DartString) (files : Files) : Bool × Files :=
  if isLinkSync files dir then (false, files)
  -- a `ProcessException`
  else if host.runsChmod = false then (false, files)
  else
    let (exitCode, files) := chmod host dir files
    if exitCode ≠ 0 then (false, files)
    else
      match statSync files dir with
      | none => (false, files)
      | some stat => (stat.isDirectory && stat.mode &&& 0x1FF == 0x1C0, files)

/-- The caches below `HOME`. -/
def homeCache (host : Host) : Option DartString :=
  match host.environment (.lit "HOME") with
  | some home => if home ≠ [] then some (host.join [home, .lit ".cache"]) else none
  | none => none

/-- The root of the user's caches, if the environment tells one. -/
def cacheBase (host : Host) : Option DartString :=
  match host.environment (.lit "XDG_CACHE_HOME") with
  | some xdg => if xdg ≠ [] then some xdg else homeCache host
  | none => homeCache host

/-- The path of the cache under a root. -/
def cachePath (host : Host) (base : DartString) : DartString :=
  host.join [base, .lit "flatpak_dart", .lit "appstream"]

/-- `_createCacheDir`; none if it throws. -/
def createCacheDir (host : Host) (files : Files) : Option (DartString × Files) :=
  match cacheBase host with
  | none => createTempSync host files
  | some base =>
    let dir := cachePath host base
    match createSync host dir files with
    -- unwritable, or something in the chain is not a directory
    | none => createTempSync host files
    | some files =>
      match isPrivateDirectory host dir files with
      | (true, files) => some (dir, files)
      | (false, files) => createTempSync host files

/-! ### What is private -/

/-- A real directory of the user that no other may read, write or traverse. -/
structure IsOwn (user : ℕ) (node : Node) : Prop where
  isDirectory : node.isDirectory = true
  owner : node.owner = user
  /-- The nine permission bits; nothing here reads those above them. -/
  mode : node.mode &&& 0x1FF = 0x1C0

/-- The path names such a directory, and no link. -/
def OwnDirectory (user : ℕ) (files : Files) (dir : DartString) : Prop :=
  ∃ node, files dir = some (.file node) ∧ IsOwn user node

/-- A directory from `mkdtemp`, which was not there at first. -/
def FreshTemp (host : Host) (files : Files) (dir : DartString) (files' : Files) : Prop :=
  files dir = none ∧ ∃ before, createTempSync host before = some (dir, files')

/-- Whatever directory is returned is private. -/
def CacheIsPrivate (host : Host) (files : Files) : Prop :=
  ∀ dir files', createCacheDir host files = some (dir, files') →
    FreshTemp host files dir files' ∨ OwnDirectory host.effectiveUser files' dir

/-- The check passes the file: `chmod` can change its mode, to the one that is read back. -/
structure Passes (host : Host) (node : Node) : Prop where
  runs : host.runsChmod = true
  isDirectory : node.isDirectory = true
  changes : node.owner = host.effectiveUser ∨ host.privileged = true
  mode : host.chmod700 node.mode &&& 0x1FF = 0x1C0

/-- In the place of the cache is a directory that the check passes and another user owns. -/
def TakesOver (host : Host) (files : Files) : Prop :=
  ∃ base node, cacheBase host = some base ∧ files (cachePath host base) = some (.file node) ∧
    Passes host node ∧ node.owner ≠ host.effectiveUser

/-! ### Each step -/

variable {host : Host} {files files' : Files} {dir : DartString}

/-- What `mkdtemp` makes is new and the caller's own. -/
theorem createTempSync_own (h : createTempSync host files = some (dir, files')) :
    files dir = none ∧ OwnDirectory host.effectiveUser files' dir := by
  obtain ⟨name, -, hname⟩ := Option.map_eq_some_iff.mp h
  obtain ⟨rfl, rfl⟩ := Prod.mk.inj hname
  refine ⟨name.property, _, Function.update_self .., rfl, rfl, ?_⟩
  show 0x1C0 &&& 0x1FF = 0x1C0
  decide

/-- `createSync` leaves a directory that is there, or makes one of the caller. -/
theorem createSync_cases {after : Files} (h : createSync host dir files = some after) :
    after = files ∨ (files dir = none ∧ ∃ mode, host.mkdir dir = some mode ∧
      after = Function.update files dir (some (newDirectory host mode))) := by
  rw [createSync] at h
  split_ifs at h with hexists hthere
  · exact .inl (Option.some.inj h).symm
  · obtain ⟨mode, hmode, rfl⟩ := Option.map_eq_some_iff.mp h
    exact .inr ⟨by simpa using hthere, mode, hmode, rfl⟩

/-- `chmod` succeeds exactly for the owner and for the privileged. -/
theorem chmod_file {node : Node} (h : files dir = some (.file node)) :
    chmod host dir files =
      if node.owner = host.effectiveUser ∨ host.privileged = true then
        (0, Function.update files dir
          (some (.file { node with mode := host.chmod700 node.mode })))
      else (1, files) := by
  simp only [chmod, statSync, h, Entry.withNode]

/-- The check of a file that is no link. -/
theorem isPrivateDirectory_file {node : Node} (h : files dir = some (.file node)) :
    isPrivateDirectory host dir files =
      if host.runsChmod = true ∧ (node.owner = host.effectiveUser ∨ host.privileged = true) then
        (node.isDirectory && host.chmod700 node.mode &&& 0x1FF == 0x1C0,
          Function.update files dir
            (some (.file { node with mode := host.chmod700 node.mode })))
      else (false, files) := by
  have hlink : isLinkSync files dir = false := by simp [isLinkSync, h]
  by_cases hruns : host.runsChmod = true
  · by_cases hchanges : node.owner = host.effectiveUser ∨ host.privileged = true
    · simp [isPrivateDirectory, hlink, hruns, chmod_file h, hchanges, statSync]
    · simp [isPrivateDirectory, hlink, hruns, chmod_file h, hchanges]
  · simp [isPrivateDirectory, hlink, hruns]

/-- Which directories the check passes, and what it does to these. -/
theorem isPrivateDirectory_iff {after : Files} :
    isPrivateDirectory host dir files = (true, after) ↔
      ∃ node, files dir = some (.file node) ∧ Passes host node ∧
        after = Function.update files dir
          (some (.file { node with mode := host.chmod700 node.mode })) := by
  cases hentry : files dir with
  | none => simp [isPrivateDirectory, isLinkSync, chmod, hentry]
  | some entry =>
    cases entry with
    | link target => simp [isPrivateDirectory, isLinkSync, hentry]
    | file node =>
      rw [isPrivateDirectory_file hentry]
      split
      case isTrue hcan =>
        rw [Prod.mk.injEq, Bool.and_eq_true, beq_iff_eq]
        constructor
        · rintro ⟨⟨hdir, hmode⟩, rfl⟩
          exact ⟨node, rfl, ⟨hcan.1, hdir, hcan.2, hmode⟩, rfl⟩
        · rintro ⟨_, ⟨⟩, hpasses, rfl⟩
          exact ⟨⟨hpasses.isDirectory, hpasses.mode⟩, rfl⟩
      case isFalse hcannot =>
        refine iff_of_false (fun h => absurd (congrArg Prod.fst h) Bool.false_ne_true) ?_
        rintro ⟨_, ⟨⟩, hpasses, -⟩
        exact hcannot ⟨hpasses.runs, hpasses.changes⟩

/-- Nothing is removed on the way: what is not there afterwards was not there before. -/
def Keeps (files files' : Files) : Prop := ∀ path, files' path = none → files path = none

theorem keeps_update {entry : Entry} : Keeps files (Function.update files dir (some entry)) := by
  intro path h
  by_cases hpath : path = dir
  · subst hpath
    simp at h
  · rwa [Function.update_of_ne hpath] at h

theorem createSync_keeps {after : Files} (h : createSync host dir files = some after) :
    Keeps files after := by
  obtain rfl | ⟨-, _, -, rfl⟩ := createSync_cases h
  · exact fun _ h => h
  · exact keeps_update

theorem isPrivateDirectory_keeps (host : Host) (dir : DartString) (files : Files) :
    Keeps files (isPrivateDirectory host dir files).2 := by
  have hchmod : Keeps files (chmod host dir files).2 := by
    rw [chmod]
    split
    · split_ifs
      · exact keeps_update
      · exact fun _ h => h
    · exact fun _ h => h
  rcases hresult : chmod host dir files with ⟨exitCode, after⟩
  rw [hresult] at hchmod
  simp only [isPrivateDirectory, hresult]
  split_ifs
  · exact fun _ h => h
  · exact fun _ h => h
  · exact hchmod
  · split
    · exact hchmod
    · exact hchmod

/-- Returned is a directory from `mkdtemp`, or the cache path after its check. -/
theorem createCacheDir_cases (h : createCacheDir host files = some (dir, files')) :
    FreshTemp host files dir files' ∨
      ∃ base after, cacheBase host = some base ∧ dir = cachePath host base ∧
        createSync host dir files = some after ∧
        isPrivateDirectory host dir after = (true, files') := by
  have htemp : ∀ before, Keeps files before → createTempSync host before = some (dir, files') →
      FreshTemp host files dir files' :=
    fun before hkeeps h => ⟨hkeeps dir (createTempSync_own h).1, before, h⟩
  rw [createCacheDir] at h
  cases hbase : cacheBase host with
  | none =>
    rw [hbase] at h
    exact .inl (htemp files (fun _ h => h) h)
  | some base =>
    simp only [hbase] at h
    cases hcreate : createSync host (cachePath host base) files with
    | none =>
      rw [hcreate] at h
      exact .inl (htemp files (fun _ h => h) h)
    | some after =>
      simp only [hcreate] at h
      rcases hcheck : isPrivateDirectory host (cachePath host base) after with ⟨passed, final⟩
      have hkeeps : Keeps after final := by
        simpa [hcheck] using isPrivateDirectory_keeps host (cachePath host base) after
      cases passed with
      | false =>
        rw [hcheck] at h
        exact .inl (htemp final (fun path h => createSync_keeps hcreate path (hkeeps path h)) h)
      | true =>
        rw [hcheck] at h
        obtain ⟨rfl, rfl⟩ := Prod.mk.inj (Option.some.inj h)
        exact .inr ⟨base, after, rfl, rfl, hcreate, hcheck⟩

/-! ### Who the directory belongs to -/

/-- The cache path is the caller's own once it has passed, unless there was the directory
of another user. -/
theorem own_of_passed {base : DartString} {after : Files} (hbase : cacheBase host = some base)
    (hcreate : createSync host (cachePath host base) files = some after)
    (hcheck : isPrivateDirectory host (cachePath host base) after = (true, files'))
    (hother : ¬ TakesOver host files) :
    OwnDirectory host.effectiveUser files' (cachePath host base) := by
  obtain ⟨node, hnode, hpasses, rfl⟩ := isPrivateDirectory_iff.mp hcheck
  refine ⟨_, Function.update_self .., hpasses.isDirectory, ?_, hpasses.mode⟩
  obtain rfl | ⟨-, mode, -, rfl⟩ := createSync_cases hcreate
  · by_contra howner
    exact hother ⟨base, node, hbase, hnode, hpasses, howner⟩
  · -- it was made just now
    rw [Function.update_self] at hnode
    obtain ⟨⟩ := hnode
    rfl

/-- A directory that is there and passes is returned. -/
theorem createCacheDir_of_passes {base : DartString} {node : Node}
    (hbase : cacheBase host = some base) (hnode : files (cachePath host base) = some (.file node))
    (hpasses : Passes host node) :
    createCacheDir host files = some (cachePath host base,
      Function.update files (cachePath host base)
        (some (.file { node with mode := host.chmod700 node.mode }))) := by
  have hcreate : createSync host (cachePath host base) files = some files := by
    simp [createSync, existsSync, statSync, hnode, hpasses.isDirectory]
  have hcheck := isPrivateDirectory_iff.mpr ⟨node, hnode, hpasses, rfl⟩
  simp only [createCacheDir, hbase, hcreate, hcheck]

theorem private_of_not_takesOver (h : ¬ TakesOver host files) : CacheIsPrivate host files := by
  intro dir files' hresult
  obtain hfresh | ⟨base, after, hbase, rfl, hcreate, hcheck⟩ := createCacheDir_cases hresult
  · exact .inl hfresh
  · exact .inr (own_of_passed hbase hcreate hcheck h)

theorem not_private_of_takesOver (h : TakesOver host files) : ¬ CacheIsPrivate host files := by
  obtain ⟨base, node, hbase, hnode, hpasses, howner⟩ := h
  intro hprivate
  rcases hprivate _ _ (createCacheDir_of_passes hbase hnode hpasses) with hfresh | hown
  · exact absurd (hfresh.1.symm.trans hnode) (by simp)
  · obtain ⟨node', hnode', hown⟩ := hown
    rw [Function.update_self] at hnode'
    obtain ⟨⟩ := hnode'
    exact howner hown.owner

/-- Without privilege there is nothing to take over. -/
theorem private_of_unprivileged (h : host.privileged = false) : CacheIsPrivate host files := by
  refine private_of_not_takesOver ?_
  rintro ⟨base, node, -, -, hpasses, howner⟩
  rcases hpasses.changes with hchanges | hchanges
  · exact howner hchanges
  · simp [h] at hchanges

/-- A link is never followed, whoever planted it. -/
theorem freshTemp_of_link {target : Option Node}
    (hlink : ∀ base, cacheBase host = some base →
      files (cachePath host base) = some (.link target))
    (h : createCacheDir host files = some (dir, files')) : FreshTemp host files dir files' := by
  obtain hfresh | ⟨base, after, hbase, rfl, hcreate, hcheck⟩ := createCacheDir_cases h
  · exact hfresh
  · obtain ⟨node, hnode, -, -⟩ := isPrivateDirectory_iff.mp hcheck
    obtain rfl | ⟨habsent, -⟩ := createSync_cases hcreate
    · simp [hlink base hbase] at hnode
    · simp [hlink base hbase] at habsent

/-- **Whose cache is private**: that of everyone but a privileged process which finds the
directory of another user in its place. -/
theorem createCacheDir_private_iff (host : Host) (files : Files) :
    CacheIsPrivate host files ↔ ¬ TakesOver host files :=
  ⟨fun hprivate htakes => not_private_of_takesOver htakes hprivate, private_of_not_takesOver⟩

/-! ### Root finds the directory of another user -/

/-- Root, with its caches below `/root/.cache`. -/
def root : Host where
  environment := fun name =>
    if name = .lit "XDG_CACHE_HOME" then some (.lit "/root/.cache") else none
  join := List.intercalate (DartString.lit "/")
  effectiveUser := 0
  privileged := true
  mkdir := fun _ => some 0o755
  runsChmod := true
  chmod700 := fun mode => mode &&& 0o7000 ||| 0o700
  mkdtemp := fun files =>
    match h : files (.lit "/tmp/flatpak_dart_appstream_aB3xYz") with
    | none => some ⟨_, h⟩
    | some _ => none

/-- In the place of the cache is a directory of user 1000. -/
def planted : Files := fun path =>
  if path = .lit "/root/.cache/flatpak_dart/appstream" then some (.file ⟨true, 1000, 0o755⟩)
  else none

/-- The directory stays with user 1000, and is returned. -/
theorem createCacheDir_planted :
    (createCacheDir root planted).map Prod.fst =
        some (.lit "/root/.cache/flatpak_dart/appstream") ∧
      ¬ CacheIsPrivate root planted := by
  have hbase : cacheBase root = some (.lit "/root/.cache") := by decide +kernel
  have hpath : cachePath root (.lit "/root/.cache") =
      .lit "/root/.cache/flatpak_dart/appstream" := by decide +kernel
  have hnode : planted (cachePath root (.lit "/root/.cache")) =
      some (.file ⟨true, 1000, 0o755⟩) := by rw [planted, if_pos hpath]
  have hpasses : Passes root ⟨true, 1000, 0o755⟩ := ⟨rfl, rfl, .inr rfl, by decide +kernel⟩
  constructor
  · rw [createCacheDir_of_passes hbase hnode hpasses, Option.map_some, hpath]
  · exact not_private_of_takesOver ⟨_, _, hbase, hnode, hpasses, by decide⟩

end CacheDirectory
