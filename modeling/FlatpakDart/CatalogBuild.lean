/-
Concurrent builds of one cache key (`lib/src/appstream/catalog.dart`).

Any number of `FlatpakAppStream`s, of one process or of several, look the same
key up; what runs between two awaits is one step.  Reading or writing a small
file is one step as well, whereas a database is at `dbPath` from the moment the
parser opens it.  The path of the catalog may come to resolve to another source
at any time.

* `step_cases` — what each step needs and does;
* `run_inv` — every reachable state satisfies `Inv`: a file that is being parsed
  into is unfinished, whoever else writes to it.
-/
import FlatpakDart.Machine
import FlatpakDart.CatalogCache
import Mathlib.Logic.Function.Basic

open CatalogCache

namespace CatalogBuild

/-! ### Files -/

/-- A database file; it lives on when its name is removed. -/
structure Inode where
  /-- how many parses have opened it -/
  parses : ℕ
  db : Db

/-- The files of the key. -/
structure Files where
  inodes : ℕ → Inode
  /-- the inode of the next file that is made -/
  fresh : ℕ
  dbPath : Option ℕ
  stamp : Option (List UInt8)
  /-- `$key.xml`, and the source it was decompressed from -/
  xml : Option SourceId

def Files.empty : Files where
  inodes := fun _ => ⟨0, .unfinished⟩
  fresh := 0
  dbPath := none
  stamp := none
  xml := none

/-- What `catalogNeedsRebuild` looks at. -/
def Files.disk (f : Files) : Disk where
  db := f.dbPath.map fun i => (f.inodes i).db
  stamp := f.stamp

/-- The parser opens `dbPath`, making the file if there is none. -/
def Files.openDb (f : Files) : ℕ × Files :=
  match f.dbPath with
  -- the file of another builder, made after the old one was deleted
  | some i => (i, { f with
      inodes := Function.update f.inodes i ⟨(f.inodes i).parses + 1, .unfinished⟩ })
  | none => (f.fresh, { f with
      inodes := Function.update f.inodes f.fresh ⟨1, .unfinished⟩
      fresh := f.fresh + 1
      dbPath := some f.fresh })

/-- A parse of `content` into `i` is done.  What two parses write into one file
is not the parse of anything. -/
def Files.finishDb (f : Files) (i : ℕ) (content : SourceId) : Files :=
  if (f.inodes i).parses = 1 then
    { f with inodes := Function.update f.inodes i ⟨1, .complete content⟩ }
  else f

/-! ### Builds and lookups -/

/-- Where a `_buildAndOpen` is. -/
inductive Phase
  /-- there is no such build yet -/
  | unstarted
  /-- awaits the future it supersedes -/
  | superseding
  /-- awaits `close()` of the database it supersedes -/
  | closing
  /-- awaits `_materializeXml`, and the isolate has not decompressed the catalog yet -/
  | materializing
  /-- awaits `_materializeXml`, and the catalog is decompressed -/
  | materialized
  /-- has deleted the old database and awaits the parser's first event -/
  | listening
  | parsing (inode : ℕ) (content : SourceId)
  /-- `ParseDone` is on its way -/
  | parsed
  /-- awaits `CatalogDatabase.open` -/
  | opening
  /-- the future has completed with a database -/
  | opened
  /-- the future has completed with an error, which `_openCatalog` has seen or not -/
  | failed (delivered : Bool)
  deriving DecidableEq

structure Build where
  /-- the `FlatpakAppStream` it is a build of -/
  object : ℕ
  superseded : Option ℕ
  phase : Phase
  /-- the build that closed the database -/
  closedBy : Option ℕ

/-- Where a `componentDetail` is. -/
inductive LookupPhase
  /-- awaits the future of `_openCatalog` -/
  | awaiting
  /-- has the database, and its queries have not finished -/
  | querying
  | done
  | failed
  deriving DecidableEq

/-- A call of `componentDetail` or `componentDetails`. -/
structure Lookup where
  /-- the build whose future `_openCatalog` returned -/
  build : ℕ
  phase : LookupPhase
  deriving DecidableEq

structure State where
  files : Files
  /-- what the path of the catalog resolves to -/
  source : SourceId
  /-- whether the path ends in `.gz` -/
  gz : Bool
  builds : ℕ → Build
  /-- the number of the next build -/
  started : ℕ
  /-- `_openDatabases[key]` of each `FlatpakAppStream` -/
  memo : ℕ → Option ℕ
  lookups : List Lookup

def init (files : Files) (source : SourceId) (gz : Bool) : State where
  files := files
  source := source
  gz := gz
  builds := fun _ => ⟨0, none, .unstarted, none⟩
  started := 0
  memo := fun _ => none
  lookups := []

/-- What `catalogNeedsRebuild` says now. -/
def State.needsRebuild (s : State) : Bool := catalogNeedsRebuild s.files.disk (some s.source)

def State.setPhase (s : State) (b : ℕ) (phase : Phase) : State :=
  { s with builds := Function.update s.builds b { s.builds b with phase := phase } }

/-- `_buildAndOpen` is called, and the future it returns is memoised. -/
def State.start (s : State) (object : ℕ) (superseded : Option ℕ) : State :=
  { s with
    builds := Function.update s.builds s.started ⟨object, superseded, .superseding, none⟩
    started := s.started + 1
    memo := Function.update s.memo object (some s.started) }

/-- `_buildAndOpen` with nothing to wait for: up to the next await. -/
def State.proceed (s : State) (b : ℕ) : State :=
  s.setPhase b (if s.needsRebuild then .materializing else .opening)

/-- `_openCatalog` returns the future of this build. -/
def State.await (s : State) (b : ℕ) : State := { s with lookups := s.lookups ++ [⟨b, .awaiting⟩] }

/-- `_openCatalog`. -/
def openCatalog (s : State) (object : ℕ) : State :=
  match s.memo object with
  | some cached =>
    -- true as well while the memoised build has not stamped its database
    if s.needsRebuild then (s.start object (some cached)).await s.started
    else s.await cached
  | none => ((s.start object none).proceed s.started).await s.started

/-- `await (await superseded).close()`, from the database `c` opened. -/
def State.closeSuperseded (s : State) (b c : ℕ) : State :=
  { s with builds := Function.update s.builds c { s.builds c with closedBy := some b } }.setPhase b
    .closing

/-- The `finally` of the parse. -/
def State.dropXml (s : State) : State :=
  { s with files := { s.files with xml := if s.gz then none else s.files.xml } }

/-- The file the parser reads. -/
def State.xml (s : State) : Option SourceId := if s.gz then s.files.xml else some s.source

@[simp] theorem setPhase_phase (s : State) (b c : ℕ) (phase : Phase) :
    ((s.setPhase b phase).builds c).phase = if c = b then phase else (s.builds c).phase := by
  by_cases h : c = b <;> simp [State.setPhase, h]

@[simp] theorem setPhase_superseded (s : State) (b c : ℕ) (phase : Phase) :
    ((s.setPhase b phase).builds c).superseded = (s.builds c).superseded := by
  by_cases h : c = b <;> simp [State.setPhase, h]

@[simp] theorem setPhase_closedBy (s : State) (b c : ℕ) (phase : Phase) :
    ((s.setPhase b phase).builds c).closedBy = (s.builds c).closedBy := by
  by_cases h : c = b <;> simp [State.setPhase, h]

@[simp] theorem setPhase_object (s : State) (b c : ℕ) (phase : Phase) :
    ((s.setPhase b phase).builds c).object = (s.builds c).object := by
  by_cases h : c = b <;> simp [State.setPhase, h]

@[simp] theorem start_phase (s : State) (object : ℕ) (superseded : Option ℕ) (c : ℕ) :
    ((s.start object superseded).builds c).phase =
      if c = s.started then .superseding else (s.builds c).phase := by
  by_cases h : c = s.started <;> simp [State.start, h]

@[simp] theorem start_superseded (s : State) (object : ℕ) (superseded : Option ℕ) (c : ℕ) :
    ((s.start object superseded).builds c).superseded =
      if c = s.started then superseded else (s.builds c).superseded := by
  by_cases h : c = s.started <;> simp [State.start, h]

@[simp] theorem start_closedBy (s : State) (object : ℕ) (superseded : Option ℕ) (c : ℕ) :
    ((s.start object superseded).builds c).closedBy =
      if c = s.started then none else (s.builds c).closedBy := by
  by_cases h : c = s.started <;> simp [State.start, h]

@[simp] theorem closeSuperseded_phase (s : State) (b c d : ℕ) :
    ((s.closeSuperseded b c).builds d).phase = if d = b then .closing else (s.builds d).phase := by
  rw [State.closeSuperseded, setPhase_phase]
  by_cases h : d = c <;> simp [h]

@[simp] theorem closeSuperseded_superseded (s : State) (b c d : ℕ) :
    ((s.closeSuperseded b c).builds d).superseded = (s.builds d).superseded := by
  rw [State.closeSuperseded, setPhase_superseded]
  by_cases h : d = c <;> simp [h]

@[simp] theorem closeSuperseded_object (s : State) (b c d : ℕ) :
    ((s.closeSuperseded b c).builds d).object = (s.builds d).object := by
  rw [State.closeSuperseded, setPhase_object]
  by_cases h : d = c <;> simp [h]

@[simp] theorem closeSuperseded_closedBy (s : State) (b c d : ℕ) :
    ((s.closeSuperseded b c).builds d).closedBy =
      if d = c then some b else (s.builds d).closedBy := by
  rw [State.closeSuperseded, setPhase_closedBy]
  by_cases h : d = c <;> simp [h]

/-! ### Steps -/

inductive Action
  /-- a lookup with a `FlatpakAppStream` reaches `_openCatalog` -/
  | lookup (object : ℕ)
  /-- the future this build supersedes has completed -/
  | superseded (b : ℕ)
  /-- `close()` of the superseded database has returned, or thrown what is ignored -/
  | closed (b : ℕ)
  /-- the isolate has decompressed the catalog -/
  | decompress (b : ℕ)
  /-- `_materializeXml` has returned -/
  | materialized (b : ℕ)
  /-- the parser opens its files -/
  | parse (b : ℕ)
  | parseDone (b : ℕ)
  /-- the rest of the build after `ParseDone`, up to `CatalogDatabase.open` -/
  | stamp (b : ℕ) (write : StampWrite)
  | opened (b : ℕ)
  /-- what the build awaits throws, or the parser reports `ParseFailed` -/
  | fail (b : ℕ)
  /-- `_openCatalog`'s listener is told of the failure -/
  | deliver (b : ℕ)
  /-- the future a lookup awaits has completed -/
  | resume (l : ℕ)
  /-- the last query of a lookup has finished -/
  | answered (l : ℕ)
  /-- the path of the catalog resolves to another source from now on -/
  | repoint (id : SourceId)

/-- The action if enabled. -/
def step (s : State) : Action → Option State
  | .lookup object => some (openCatalog s object)
  | .superseded b =>
    match (s.builds b).phase, (s.builds b).superseded with
    | .superseding, some c =>
      match (s.builds c).phase with
      | .opened => some (s.closeSuperseded b c)
      -- an error of the superseded build is ignored
      | .failed _ => some (s.proceed b)
      | _ => none
    | _, _ => none
  | .closed b => if (s.builds b).phase = .closing then some (s.proceed b) else none
  | .decompress b =>
    if (s.builds b).phase = .materializing ∧ s.gz then
      some { s.setPhase b .materialized with files := { s.files with xml := some s.source } }
    else none
  | .materialized b =>
    if (s.builds b).phase = if s.gz then .materialized else .materializing then
      some { s.setPhase b .listening with files := { s.files with dbPath := none } }
    else none
  | .parse b =>
    match (s.builds b).phase, s.xml with
    | .listening, some content =>
      let (i, files) := s.files.openDb
      some { s.setPhase b (.parsing i content) with files := files }
    | _, _ => none
  | .parseDone b =>
    match (s.builds b).phase with
    | .parsing i content =>
      some { s.setPhase b .parsed with files := s.files.finishDb i content }
    | _ => none
  | .stamp b write =>
    if (s.builds b).phase = .parsed then
      -- the identity the source has now, whatever was parsed
      some { s.setPhase b .opening with
        files := { s.dropXml.files with
          stamp := stampCatalogSource s.files.stamp (some s.source) write } }
    else none
  | .opened b => if (s.builds b).phase = .opening then some (s.setPhase b .opened) else none
  | .fail b =>
    match (s.builds b).phase with
    | .materializing | .materialized | .parsed | .opening => some (s.setPhase b (.failed false))
    -- inside the `try`: the decompressed catalog is deleted
    | .listening | .parsing _ _ => some (s.dropXml.setPhase b (.failed false))
    | _ => none
  | .deliver b =>
    if (s.builds b).phase = .failed false then
      let object := (s.builds b).object
      some { s.setPhase b (.failed true) with
        memo := if s.memo object = some b then Function.update s.memo object none else s.memo }
    else none
  | .resume l =>
    match s.lookups[l]? with
    | some ⟨b, .awaiting⟩ =>
      match (s.builds b).phase with
      | .opened => some { s with lookups := s.lookups.set l ⟨b, .querying⟩ }
      | .failed _ => some { s with lookups := s.lookups.set l ⟨b, .failed⟩ }
      | _ => none
    | _ => none
  | .answered l =>
    match s.lookups[l]? with
    | some ⟨b, .querying⟩ => some { s with lookups := s.lookups.set l ⟨b, .done⟩ }
    | _ => none
  | .repoint id => some { s with source := id }

/-- `step` as a relation: what each action needs and does. -/
inductive Step (s : State) : Action → State → Prop
  | join {object b : ℕ} (hmemo : s.memo object = some b) (hcurrent : s.needsRebuild = false) :
      Step s (.lookup object) (s.await b)
  | supersede {object b : ℕ} (hmemo : s.memo object = some b) (hstale : s.needsRebuild = true) :
      Step s (.lookup object) ((s.start object (some b)).await s.started)
  | first {object : ℕ} (hmemo : s.memo object = none) :
      Step s (.lookup object) (((s.start object none).proceed s.started).await s.started)
  | close {b c : ℕ} (hb : (s.builds b).phase = .superseding)
      (hc : (s.builds b).superseded = some c) (hopened : (s.builds c).phase = .opened) :
      Step s (.superseded b) (s.closeSuperseded b c)
  | ignore {b c : ℕ} {delivered : Bool} (hb : (s.builds b).phase = .superseding)
      (hc : (s.builds b).superseded = some c) (hfailed : (s.builds c).phase = .failed delivered) :
      Step s (.superseded b) (s.proceed b)
  | closed {b : ℕ} (hb : (s.builds b).phase = .closing) : Step s (.closed b) (s.proceed b)
  | decompress {b : ℕ} (hb : (s.builds b).phase = .materializing) (hgz : s.gz = true) :
      Step s (.decompress b)
        { s.setPhase b .materialized with files := { s.files with xml := some s.source } }
  | materialized {b : ℕ}
      (hb : (s.builds b).phase = if s.gz then .materialized else .materializing) :
      Step s (.materialized b)
        { s.setPhase b .listening with files := { s.files with dbPath := none } }
  | parse {b : ℕ} {content : SourceId} (hb : (s.builds b).phase = .listening)
      (hxml : s.xml = some content) :
      Step s (.parse b)
        { s.setPhase b (.parsing s.files.openDb.1 content) with files := s.files.openDb.2 }
  | parseDone {b i : ℕ} {content : SourceId} (hb : (s.builds b).phase = .parsing i content) :
      Step s (.parseDone b) { s.setPhase b .parsed with files := s.files.finishDb i content }
  | stamp {b : ℕ} {write : StampWrite} (hb : (s.builds b).phase = .parsed) :
      Step s (.stamp b write) { s.setPhase b .opening with
        files := { s.dropXml.files with
          stamp := stampCatalogSource s.files.stamp (some s.source) write } }
  | opened {b : ℕ} (hb : (s.builds b).phase = .opening) : Step s (.opened b) (s.setPhase b .opened)
  | fail {b : ℕ} (hb : (s.builds b).phase ∈ [.materializing, .materialized, .parsed, .opening]) :
      Step s (.fail b) (s.setPhase b (.failed false))
  | parseFailed {b : ℕ}
      (hb : (s.builds b).phase = .listening ∨
        ∃ i content, (s.builds b).phase = .parsing i content) :
      Step s (.fail b) (s.dropXml.setPhase b (.failed false))
  | evict {b : ℕ} (hb : (s.builds b).phase = .failed false)
      (hmemo : s.memo (s.builds b).object = some b) :
      Step s (.deliver b) { s.setPhase b (.failed true) with
        memo := Function.update s.memo (s.builds b).object none }
  | deliver {b : ℕ} (hb : (s.builds b).phase = .failed false)
      (hmemo : s.memo (s.builds b).object ≠ some b) :
      Step s (.deliver b) (s.setPhase b (.failed true))
  | query {l b : ℕ} (hl : s.lookups[l]? = some ⟨b, .awaiting⟩) (hb : (s.builds b).phase = .opened) :
      Step s (.resume l) { s with lookups := s.lookups.set l ⟨b, .querying⟩ }
  | error {l b : ℕ} {delivered : Bool} (hl : s.lookups[l]? = some ⟨b, .awaiting⟩)
      (hb : (s.builds b).phase = .failed delivered) :
      Step s (.resume l) { s with lookups := s.lookups.set l ⟨b, .failed⟩ }
  | answered {l b : ℕ} (hl : s.lookups[l]? = some ⟨b, .querying⟩) :
      Step s (.answered l) { s with lookups := s.lookups.set l ⟨b, .done⟩ }
  | repoint {id : SourceId} : Step s (.repoint id) { s with source := id }

theorem step_cases {s t : State} {a : Action} (h : step s a = some t) : Step s a t := by
  cases a with
  | lookup object =>
    obtain rfl := Option.some_inj.mp h
    cases hmemo : s.memo object with
    | none =>
      rw [openCatalog, hmemo]
      exact .first hmemo
    | some b =>
      rw [openCatalog, hmemo]
      cases hrebuild : s.needsRebuild with
      | true => simpa [hrebuild] using Step.supersede hmemo hrebuild
      | false => simpa [hrebuild] using Step.join hmemo hrebuild
  | superseded b =>
    simp only [step] at h
    split at h
    · next hb hc =>
      split at h
      · next hopened =>
        obtain rfl := Option.some_inj.mp h
        exact .close hb hc hopened
      · next hfailed =>
        obtain rfl := Option.some_inj.mp h
        exact .ignore hb hc hfailed
      · exact absurd h (by simp)
    · exact absurd h (by simp)
  | closed b =>
    simp only [step, Option.ite_none_right_eq_some, Option.some.injEq] at h
    obtain ⟨hb, rfl⟩ := h
    exact .closed hb
  | decompress b =>
    simp only [step, Option.ite_none_right_eq_some, Option.some.injEq] at h
    obtain ⟨⟨hb, hgz⟩, rfl⟩ := h
    exact .decompress hb hgz
  | materialized b =>
    simp only [step, Option.ite_none_right_eq_some, Option.some.injEq] at h
    obtain ⟨hb, rfl⟩ := h
    exact .materialized hb
  | parse b =>
    simp only [step] at h
    split at h
    · next hb hxml =>
      obtain rfl := Option.some_inj.mp h
      exact .parse hb hxml
    · exact absurd h (by simp)
  | parseDone b =>
    simp only [step] at h
    split at h
    · next hb =>
      obtain rfl := Option.some_inj.mp h
      exact .parseDone hb
    · exact absurd h (by simp)
  | stamp b write =>
    simp only [step, Option.ite_none_right_eq_some, Option.some.injEq] at h
    obtain ⟨hb, rfl⟩ := h
    exact .stamp hb
  | opened b =>
    simp only [step, Option.ite_none_right_eq_some, Option.some.injEq] at h
    obtain ⟨hb, rfl⟩ := h
    exact .opened hb
  | fail b =>
    simp only [step] at h
    -- the two phases inside the `try`, then the others
    split at h
    case h_5 hb =>
      obtain rfl := Option.some_inj.mp h
      exact .parseFailed (.inl hb)
    case h_6 hb =>
      obtain rfl := Option.some_inj.mp h
      exact .parseFailed (.inr ⟨_, _, hb⟩)
    case h_7 => exact absurd h (by simp)
    all_goals
      next hb =>
        obtain rfl := Option.some_inj.mp h
        exact .fail (by simp [hb])
  | deliver b =>
    simp only [step, Option.ite_none_right_eq_some, Option.some.injEq] at h
    obtain ⟨hb, rfl⟩ := h
    split
    · next hmemo => exact .evict hb hmemo
    · next hmemo => exact .deliver hb hmemo
  | resume l =>
    simp only [step] at h
    split at h
    · next hl =>
      split at h
      · next hb =>
        obtain rfl := Option.some_inj.mp h
        exact .query hl hb
      · next hb =>
        obtain rfl := Option.some_inj.mp h
        exact .error hl hb
      · exact absurd h (by simp)
    · exact absurd h (by simp)
  | answered l =>
    simp only [step] at h
    split at h
    · next hl =>
      obtain rfl := Option.some_inj.mp h
      exact .answered hl
    · exact absurd h (by simp)
  | repoint id =>
    obtain rfl := Option.some_inj.mp h
    exact .repoint

/-! ### Files being parsed into -/

structure Inv (s : State) : Prop where
  unstarted : ∀ b, s.started ≤ b → (s.builds b).phase = .unstarted
  linked : ∀ i, s.files.dbPath = some i → i < s.files.fresh
  parsing : ∀ b i content, (s.builds b).phase = .parsing i content →
    i < s.files.fresh ∧ (s.files.inodes i).db = .unfinished ∧ 0 < (s.files.inodes i).parses
  /-- two builds parse into one file only if it was opened twice -/
  alone : ∀ b c i content content', b ≠ c → (s.builds b).phase = .parsing i content →
    (s.builds c).phase = .parsing i content' → 1 < (s.files.inodes i).parses

theorem init_inv (source : SourceId) (gz : Bool) : Inv (init .empty source gz) where
  unstarted _ _ := rfl
  linked _ h := absurd h (by simp [init, Files.empty])
  parsing _ _ _ h := absurd h (by simp [init])
  alone _ _ _ _ _ _ h := absurd h (by simp [init])

theorem Inv.ne_started {s : State} (hs : Inv s) {b : ℕ} (hb : (s.builds b).phase ≠ .unstarted) :
    b < s.started :=
  not_le.mp fun h => hb (hs.unstarted b h)

/-- A step after which no build parses that did not parse before. -/
theorem Inv.of_parsing {s t : State} (hs : Inv s) (hfiles : t.files = s.files)
    (hunstarted : ∀ b, t.started ≤ b → (t.builds b).phase = .unstarted)
    (hold : ∀ {b i content}, (t.builds b).phase = .parsing i content →
      (s.builds b).phase = .parsing i content) : Inv t := by
  constructor
  case unstarted => exact hunstarted
  case linked =>
    rw [hfiles]
    exact hs.linked
  case parsing =>
    intro b i content h
    rw [hfiles]
    exact hs.parsing b i content (hold h)
  case alone =>
    intro b c i content content' hne h h'
    rw [hfiles]
    exact hs.alone b c i content content' hne (hold h) (hold h')

/-- A build goes on to a phase in which it does not parse. -/
theorem inv_setPhase {s : State} (hs : Inv s) {b : ℕ} {p : Phase}
    (hb : (s.builds b).phase ≠ .unstarted) (hphase : ∀ i content, p ≠ .parsing i content) :
    Inv (s.setPhase b p) := by
  refine hs.of_parsing rfl (fun c hc => ?_) fun {c i content} h => ?_
  · rw [setPhase_phase, if_neg (Nat.ne_of_gt (lt_of_lt_of_le (hs.ne_started hb) hc))]
    exact hs.unstarted c hc
  · rw [setPhase_phase] at h
    split at h
    · exact absurd h (hphase i content)
    · exact h

theorem inv_start {s : State} (hs : Inv s) (object : ℕ) (superseded : Option ℕ) :
    Inv (s.start object superseded) := by
  refine hs.of_parsing rfl (fun c hc => ?_) fun {c i content} h => ?_
  · rw [start_phase, if_neg (Nat.ne_of_gt hc)]
    exact hs.unstarted c (Nat.le_of_succ_le hc)
  · rw [start_phase] at h
    split at h
    · exact absurd h (by simp)
    · exact h

theorem inv_dropXml {s : State} (hs : Inv s) : Inv s.dropXml :=
  ⟨hs.unstarted, hs.linked, hs.parsing, hs.alone⟩

theorem inv_proceed {s : State} (hs : Inv s) {b : ℕ} (hb : (s.builds b).phase ≠ .unstarted) :
    Inv (s.proceed b) :=
  inv_setPhase hs hb fun i content => by split <;> simp

theorem inv_closeSuperseded {s : State} (hs : Inv s) {b c : ℕ}
    (hb : (s.builds b).phase ≠ .unstarted) : Inv (s.closeSuperseded b c) := by
  have hphase : ∀ d, ((s.closeSuperseded b c).builds d).phase =
      ((s.setPhase b .closing).builds d).phase :=
    fun d => by rw [closeSuperseded_phase, setPhase_phase]
  have hset := inv_setPhase (p := .closing) hs hb (by simp)
  exact hset.of_parsing rfl (fun d hd => (hphase d).trans (hset.unstarted d hd))
    fun h => (hphase _).symm.trans h

/-! ### Opening and finishing a database -/

/-- The parser opened `dbPath`, and found the file `i` there or made it. -/
structure Opens (f : Files) (i : ℕ) (g : Files) : Prop where
  linked : g.dbPath = some i
  lt_fresh : i < g.fresh
  fresh_le : f.fresh ≤ g.fresh
  unfinished : (g.inodes i).db = .unfinished
  parses_pos : 0 < (g.inodes i).parses
  others : ∀ j, j ≠ i → g.inodes j = f.inodes j
  again : i < f.fresh → (g.inodes i).parses = (f.inodes i).parses + 1
  made : f.dbPath = none → (g.inodes i).parses = 1
  stamp : g.stamp = f.stamp
  xml : g.xml = f.xml

theorem openDb_opens {f : Files} (hlinked : ∀ i, f.dbPath = some i → i < f.fresh) :
    Opens f f.openDb.1 f.openDb.2 := by
  cases hdbPath : f.dbPath with
  | none =>
    rw [Files.openDb, hdbPath]
    exact {
      linked := rfl
      lt_fresh := Nat.lt_succ_self _
      fresh_le := Nat.le_succ _
      unfinished := by simp
      parses_pos := by simp
      others := fun j hj => Function.update_of_ne hj _ _
      again := fun h => absurd h (lt_irrefl _)
      made := fun _ => by simp
      stamp := rfl
      xml := rfl }
  | some i =>
    rw [Files.openDb, hdbPath]
    exact {
      linked := rfl
      lt_fresh := hlinked i hdbPath
      fresh_le := le_refl _
      unfinished := by simp
      parses_pos := by simp
      others := fun j hj => Function.update_of_ne hj _ _
      again := fun _ => by simp
      made := fun h => absurd (hdbPath.symm.trans h) (by simp)
      stamp := rfl
      xml := rfl }

theorem inv_parse {s : State} (hs : Inv s) {b : ℕ} {content : SourceId}
    (hb : (s.builds b).phase = .listening) {i : ℕ} {g : Files} (hopens : Opens s.files i g) :
    Inv { s.setPhase b (.parsing i content) with files := g } := by
  -- a build that was parsing into `i` finds it opened once more
  have hcounted : ∀ c content', (s.builds c).phase = .parsing i content' →
      1 < (g.inodes i).parses := by
    intro c content' hc
    obtain ⟨hfresh, -, hpos⟩ := hs.parsing c i content' hc
    rw [hopens.again hfresh]
    exact Nat.succ_lt_succ hpos
  constructor
  case unstarted =>
    intro c hc
    have hlt := hs.ne_started (b := b) (by simp [hb])
    rw [setPhase_phase, if_neg (Nat.ne_of_gt (lt_of_lt_of_le hlt hc))]
    exact hs.unstarted c hc
  case linked =>
    intro j hj
    obtain rfl := Option.some_inj.mp (hopens.linked.symm.trans hj)
    exact hopens.lt_fresh
  case parsing =>
    intro c j content' hc
    by_cases hj : j = i
    · rw [hj]
      exact ⟨hopens.lt_fresh, hopens.unfinished, hopens.parses_pos⟩
    · have hold : (s.builds c).phase = .parsing j content' := by
        rw [setPhase_phase] at hc
        split at hc
        · obtain ⟨rfl, -⟩ := Phase.parsing.inj hc
          exact absurd rfl hj
        · exact hc
      obtain ⟨hfresh, hdb⟩ := hs.parsing c j content' hold
      rw [hopens.others j hj]
      exact ⟨lt_of_lt_of_le hfresh hopens.fresh_le, hdb⟩
  case alone =>
    intro c d j content' content'' hne hc hd
    rw [setPhase_phase] at hc hd
    split at hc <;> split at hd
    · next hcb hdb => exact absurd (hcb.trans hdb.symm) hne
    · obtain ⟨rfl, -⟩ := Phase.parsing.inj hc
      exact hcounted d content'' hd
    · obtain ⟨rfl, -⟩ := Phase.parsing.inj hd
      exact hcounted c content' hc
    · have hold := hs.alone c d j content' content'' hne hc hd
      by_cases hj : j = i
      · rw [hj]
        exact hcounted c content' (hj ▸ hc)
      · rw [hopens.others j hj]
        exact hold

theorem finishDb_dbPath (f : Files) (i : ℕ) (content : SourceId) :
    (f.finishDb i content).dbPath = f.dbPath := by
  rw [Files.finishDb]
  split <;> rfl

theorem finishDb_fresh (f : Files) (i : ℕ) (content : SourceId) :
    (f.finishDb i content).fresh = f.fresh := by
  rw [Files.finishDb]
  split <;> rfl

theorem finishDb_stamp (f : Files) (i : ℕ) (content : SourceId) :
    (f.finishDb i content).stamp = f.stamp := by
  rw [Files.finishDb]
  split <;> rfl

theorem finishDb_parses (f : Files) (i j : ℕ) (content : SourceId) :
    ((f.finishDb i content).inodes j).parses = (f.inodes j).parses := by
  rw [Files.finishDb]
  split
  · next h => by_cases hj : j = i <;> simp [hj, h]
  · rfl

theorem finishDb_others (f : Files) {i j : ℕ} (content : SourceId)
    (h : j ≠ i ∨ 1 < (f.inodes j).parses) : (f.finishDb i content).inodes j = f.inodes j := by
  rw [Files.finishDb]
  split
  · next hone =>
    rcases h with hj | hparses
    · exact Function.update_of_ne hj _ _
    · refine Function.update_of_ne ?_ _ _
      rintro rfl
      omega
  · rfl

theorem inv_parseDone {s : State} (hs : Inv s) {b i : ℕ} {content : SourceId}
    (hb : (s.builds b).phase = .parsing i content) :
    Inv { s.setPhase b .parsed with files := s.files.finishDb i content } := by
  have hset := inv_setPhase (p := .parsed) hs (b := b) (by simp [hb]) (by simp)
  refine ⟨hset.unstarted, ?_, ?_, ?_⟩
  · intro j hj
    rw [finishDb_dbPath] at hj
    rw [finishDb_fresh]
    exact hs.linked j hj
  · intro c j content' hc
    have hcb : c ≠ b := by
      rintro rfl
      simp at hc
    have hold : (s.builds c).phase = .parsing j content' := by
      rwa [setPhase_phase, if_neg hcb] at hc
    -- the file another build is parsing into too was opened twice
    have hsame : (s.files.finishDb i content).inodes j = s.files.inodes j := by
      refine finishDb_others _ _ ?_
      by_cases hj : j = i
      · exact .inr (hs.alone c b j content' content hcb hold (hj ▸ hb))
      · exact .inl hj
    rw [finishDb_fresh, hsame]
    exact hs.parsing c j content' hold
  · intro c d j content' content'' hne hc hd
    rw [finishDb_parses]
    exact hset.alone c d j content' content'' hne hc hd

theorem step_inv {s t : State} {a : Action} (hstep : step s a = some t) (hs : Inv s) : Inv t := by
  cases step_cases hstep with
  | join => exact ⟨hs.unstarted, hs.linked, hs.parsing, hs.alone⟩
  | @supersede object b =>
    have hstart := inv_start hs object (some b)
    exact ⟨hstart.unstarted, hstart.linked, hstart.parsing, hstart.alone⟩
  | @first object =>
    have hnew := inv_proceed (inv_start hs object none) (b := s.started) (by simp)
    exact ⟨hnew.unstarted, hnew.linked, hnew.parsing, hnew.alone⟩
  | close hb => exact inv_closeSuperseded hs (by simp [hb])
  | ignore hb => exact inv_proceed hs (by simp [hb])
  | closed hb => exact inv_proceed hs (by simp [hb])
  | @decompress b hb =>
    have hset := inv_setPhase (p := .materialized) hs (b := b) (by simp [hb]) (by simp)
    exact ⟨hset.unstarted, hset.linked, hset.parsing, hset.alone⟩
  | @materialized b hb =>
    have hset := inv_setPhase (p := .listening) hs (b := b) (by rw [hb]; split <;> simp) (by simp)
    exact ⟨hset.unstarted, fun i h => absurd h (by simp), hset.parsing, hset.alone⟩
  | parse hb => exact inv_parse hs hb (openDb_opens hs.linked)
  | parseDone hb => exact inv_parseDone hs hb
  | @stamp b _ hb =>
    have hset := inv_setPhase (p := .opening) hs (b := b) (by simp [hb]) (by simp)
    exact ⟨hset.unstarted, hset.linked, hset.parsing, hset.alone⟩
  | opened hb => exact inv_setPhase hs (by simp [hb]) (by simp)
  | @fail b hb =>
    refine inv_setPhase hs (fun h => ?_) (by simp)
    simp [h] at hb
  | parseFailed hb =>
    refine inv_setPhase (inv_dropXml hs) (fun h => ?_) (by simp)
    have hunstarted : (s.builds _).phase = .unstarted := h
    simp [hunstarted] at hb
  | @evict b hb =>
    have hset := inv_setPhase (p := .failed true) hs (b := b) (by simp [hb]) (by simp)
    exact ⟨hset.unstarted, hset.linked, hset.parsing, hset.alone⟩
  | deliver hb => exact inv_setPhase hs (by simp [hb]) (by simp)
  | query => exact ⟨hs.unstarted, hs.linked, hs.parsing, hs.alone⟩
  | error => exact ⟨hs.unstarted, hs.linked, hs.parsing, hs.alone⟩
  | answered => exact ⟨hs.unstarted, hs.linked, hs.parsing, hs.alone⟩
  | repoint => exact ⟨hs.unstarted, hs.linked, hs.parsing, hs.alone⟩

theorem run_inv {source : SourceId} {gz : Bool} {s : State} {as : List Action}
    (h : Machine.run step (init .empty source gz) as = some s) : Inv s :=
  Machine.run_invariant step_inv h (init_inv source gz)

end CatalogBuild
