/-
Histories of one cache key, its lookups one at a time
(`lib/src/appstream/catalog.dart`).

Between lookups the source may become any other, and a build may end at every
point of `_buildAndOpen`.

* `sound_iff` — the check is sound in every state of a history exactly if every
  build in it ends so that its stamp is safe (`SafeEnd`);
* `rollback_serves_unfinished` — a failed parse, then a return to the source the
  old stamp names: the check vouches for what the parse left;
* `build_ends` — a build that is left alone, step by step, ends in one of the
  ways a history knows.
-/
import FlatpakDart.CatalogBuild

open CatalogCache

namespace CatalogHistory

/-! ### One lookup -/

/-- How far a build gets that finds its database out of date. -/
inductive Outcome
  /-- it throws before the old database is deleted: in `_ensureInitialized`,
  `_materializeXml` or `deleteSync` -/
  | early
  /-- the parse fails; `left` tells whether it leaves a file at `dbPath` -/
  | parseFailed (left : Bool)
  /-- the parse succeeds, and deleting the decompressed catalog throws -/
  | cleanupFailed
  /-- `stampCatalogSource` gets this far; `CatalogDatabase.open` may still throw -/
  | stamped (write : StampWrite) (opens : Bool)

structure State where
  disk : Disk
  /-- what the catalog's path resolves to -/
  source : SourceId
  /-- `_openDatabases` has an open database for the key -/
  memo : Bool

/-- `CatalogDatabase.open`. -/
def Outcome.opens : Outcome → Bool
  | .stamped _ opens => opens
  | _ => false

/-- `_buildAndOpen`: the files it leaves, and whether it returns a database. -/
def buildAndOpen (disk : Disk) (source : SourceId) (outcome : Outcome) : Disk × Bool :=
  if catalogNeedsRebuild disk (some source) then
    match outcome with
    | .early => (disk, false)
    -- the old database is gone, and its stamp is not
    | .parseFailed left => ({ disk with db := if left then some .unfinished else none }, false)
    | .cleanupFailed => ({ disk with db := some (.complete source) }, false)
    | .stamped write opens =>
      ({ db := some (.complete source)
         stamp := stampCatalogSource disk.stamp (some source) write }, opens)
  else
    (disk, outcome.opens)

/-- `_openCatalog`.  A build that fails is not memoised. -/
def openCatalog (s : State) (outcome : Outcome) : State :=
  -- the memoised database is returned as it is
  if s.memo && !catalogNeedsRebuild s.disk (some s.source) then s
  else
    let (disk, opened) := buildAndOpen s.disk s.source outcome
    { s with
      disk := disk
      memo := opened }

/-! ### Histories -/

inductive Action
  | lookup (outcome : Outcome)
  /-- the path resolves to another source from now on -/
  | change (id : SourceId)
  /-- `close()`, or the process is started anew -/
  | close

def step (s : State) : Action → Option State
  | .lookup outcome => some (openCatalog s outcome)
  | .change id => some { s with source := id }
  | .close => some { s with memo := false }

/-- An empty cache. -/
def init (source : SourceId) : State where
  disk := ⟨none, none⟩
  source := source
  memo := false

/-- After the parse this much of a stamp written, the stamp at `dbPath` names at
most the source that was parsed. -/
def SafeStamp (stamp : Option (List UInt8)) (source : SourceId) : StampWrite → Prop
  | .whole => OneLine source.path
  | .skipped => NamesOnly stamp source
  | .cut n => NamesOnly (some ((stampBytes source).take n)) source

/-- A rebuild ends like this with a stamp that vouches for nothing else than
what is at `dbPath`. -/
def SafeEnd (stamp : Option (List UInt8)) (source : SourceId) : Outcome → Prop
  | .early => True
  | .parseFailed left => left = true → ∀ id, ¬ Names stamp id
  | .cleanupFailed => NamesOnly stamp source
  | .stamped write _ => SafeStamp stamp source write

/-- The condition on one step: only a lookup that rebuilds can break it. -/
def SafeStep (s : State) : Action → Prop
  | .lookup outcome => catalogNeedsRebuild s.disk (some s.source) = true →
      SafeEnd s.disk.stamp s.source outcome
  | .change _ => True
  | .close => True

/-! ### The step lemma -/

theorem safeStamp_iff {stamp : Option (List UInt8)} {source : SourceId} {write : StampWrite} :
    NamesOnly (stampCatalogSource stamp (some source) write) source ↔
      SafeStamp stamp source write := by
  cases write with
  | whole => exact namesOnly_stampBytes_iff
  | skipped => exact Iff.rfl
  | cut n => exact Iff.rfl

/-- What a rebuild leaves is sound exactly if it ends safely. -/
theorem buildAndOpen_sound_iff {disk : Disk} {source : SourceId} {outcome : Outcome}
    (hrebuild : catalogNeedsRebuild disk (some source) = true) (hs : Sound disk) :
    Sound (buildAndOpen disk source outcome).1 ↔ SafeEnd disk.stamp source outcome := by
  unfold buildAndOpen
  rw [if_pos hrebuild]
  cases outcome with
  | early => exact iff_true_intro hs
  | parseFailed left =>
    cases left with
    | false => exact iff_of_true (sound_absent disk.stamp) (by simp [SafeEnd])
    | true => simpa [SafeEnd] using sound_unfinished_iff
  | cleanupFailed => exact sound_complete_iff
  | stamped write opens => exact sound_complete_iff.trans safeStamp_iff

/-- A lookup that need not rebuild leaves the files as they are. -/
theorem openCatalog_disk {s : State} (outcome : Outcome) : (openCatalog s outcome).disk =
    if catalogNeedsRebuild s.disk (some s.source)
    then (buildAndOpen s.disk s.source outcome).1 else s.disk := by
  cases hrebuild : catalogNeedsRebuild s.disk (some s.source) with
  | true => simp [openCatalog, hrebuild]
  | false => cases hmemo : s.memo <;> simp [openCatalog, buildAndOpen, hrebuild, hmemo]

theorem step_sound_iff {s t : State} {a : Action} (hstep : step s a = some t)
    (hs : Sound s.disk) : Sound t.disk ↔ SafeStep s a := by
  cases a with
  | lookup outcome =>
    obtain rfl := Option.some_inj.mp hstep
    rw [openCatalog_disk, SafeStep]
    split
    case isTrue hrebuild =>
      rw [buildAndOpen_sound_iff hrebuild hs]
      exact ⟨fun h _ => h, fun h => h hrebuild⟩
    case isFalse hrebuild => exact iff_of_true hs fun h => absurd h hrebuild
  | change id =>
    obtain rfl := Option.some_inj.mp hstep
    exact iff_true_intro hs
  | close =>
    obtain rfl := Option.some_inj.mp hstep
    exact iff_true_intro hs

/-! ### Every history -/

/-- **The check**: in every state a history of one key comes through it vouches
only for a complete parse of the source it is asked about, if and only if every
rebuild of the history ends safely. -/
theorem sound_iff (source : SourceId) (history : List Action) :
    (∀ u, Machine.Reaches step (init source) history u → Sound u.disk) ↔
      ∀ s a t, Machine.Takes step (init source) history s a t → SafeStep s a :=
  Machine.reaches_iff_takes (S := fun s => Sound s.disk) (sound_absent none) history
    fun _ _ _ htakes hs => step_sound_iff htakes.step_eq hs

/-- A deploy is parsed, the next one fails to parse, and is rolled back. -/
def rollback : List Action :=
  [.lookup (.stamped .whole true), .change deployB, .lookup (.parseFailed true), .change deployA]

theorem rollback_serves_unfinished :
    ∃ u, Machine.run step (init deployA) rollback = some u ∧ u.source = deployA ∧
      catalogNeedsRebuild u.disk (some u.source) = false ∧ u.disk.db = some .unfinished := by
  -- the stamp of A does not name B, so the second lookup rebuilds
  have hstale : catalogNeedsRebuild ⟨some (.complete deployA), some (stampBytes deployA)⟩
      (some deployB) = true := by
    by_contra h
    have hno := (needsRebuild_eq_false_iff.mp (eq_false_of_ne_true h)).2
    exact absurd ((names_stampBytes_iff deployA_oneLine).mp hno) (by decide +kernel)
  have hcold : catalogNeedsRebuild ⟨none, none⟩ (some deployA) = true := rfl
  refine ⟨⟨⟨some .unfinished, some (stampBytes deployA)⟩, deployA, false⟩, ?_, rfl, ?_, rfl⟩
  · simp [rollback, Machine.run, step, init, openCatalog, buildAndOpen, stampCatalogSource, hstale,
      hcold]
  · exact needsRebuild_eq_false_iff.mpr ⟨by simp, names_stampBytes deployA_oneLine⟩

/-! ### A build left alone -/

/-- The steps of this build after it has checked the files. -/
def Own (b : ℕ) : CatalogBuild.Action → Prop
  | .decompress c | .materialized c | .parse c | .parseDone c | .stamp c _ | .opened c | .fail c
  | .deliver c => c = b
  | _ => False

/-- A build that found these files has come to this phase, nobody interfering. -/
def Alone (disk : Disk) (source : SourceId) (s : CatalogBuild.State) : CatalogBuild.Phase → Prop
  | .materializing => catalogNeedsRebuild disk (some source) = true ∧ s.files.disk = disk
  | .materialized => catalogNeedsRebuild disk (some source) = true ∧ s.files.disk = disk ∧
      s.files.xml = some source
  | .listening => catalogNeedsRebuild disk (some source) = true ∧ s.files.dbPath = none ∧
      s.files.stamp = disk.stamp ∧ s.xml = some source
  | .parsing i content => catalogNeedsRebuild disk (some source) = true ∧
      s.files.dbPath = some i ∧ s.files.inodes i = ⟨1, .unfinished⟩ ∧
      s.files.stamp = disk.stamp ∧ content = source
  | .parsed => catalogNeedsRebuild disk (some source) = true ∧
      s.files.disk = ⟨some (.complete source), disk.stamp⟩
  | .opening | .opened => ∃ write, s.files.disk = (buildAndOpen disk source (.stamped write true)).1
  | .failed _ => ∃ outcome, (s.files.disk, false) = buildAndOpen disk source outcome
  | _ => False

/-- The state of the build after a step of its own. -/
theorem alone_setPhase {disk : Disk} {source : SourceId} {s : CatalogBuild.State} {b : ℕ}
    {p : CatalogBuild.Phase} {f : CatalogBuild.Files}
    (h : Alone disk source { s with files := f } p) :
    Alone disk source { s.setPhase b p with files := f }
      ({ s.setPhase b p with files := f }.builds b).phase := by
  have hself : ({ s.setPhase b p with files := f }.builds b).phase = p :=
    (CatalogBuild.setPhase_phase s b b p).trans (if_pos rfl)
  rw [hself]
  cases p <;> exact h

theorem disk_of_dbPath {f : CatalogBuild.Files} {i : ℕ} {t : Option (List UInt8)}
    (hdbPath : f.dbPath = some i) (hstamp : f.stamp = t) :
    f.disk = ⟨some (f.inodes i).db, t⟩ := by
  rw [CatalogBuild.Files.disk, hdbPath, hstamp]
  rfl

/-- A build that fails by itself ends as a history has it. -/
theorem alone_fail {disk : Disk} {source : SourceId} {s : CatalogBuild.State}
    {phase : CatalogBuild.Phase} (h : Alone disk source s phase)
    (hphase : phase ≠ .opened) :
    ∃ outcome, (s.files.disk, false) = buildAndOpen disk source outcome := by
  cases phase with
  | materializing =>
    obtain ⟨hrebuild, hdisk⟩ := h
    exact ⟨.early, by rw [buildAndOpen, if_pos hrebuild, hdisk]⟩
  | materialized =>
    obtain ⟨hrebuild, hdisk, -⟩ := h
    exact ⟨.early, by rw [buildAndOpen, if_pos hrebuild, hdisk]⟩
  | listening =>
    obtain ⟨hrebuild, hdbPath, hstamp, -⟩ := h
    -- the old file is deleted and no new one made
    refine ⟨.parseFailed false, ?_⟩
    rw [buildAndOpen, if_pos hrebuild, CatalogBuild.Files.disk, hdbPath, hstamp]
    rfl
  | parsing i content =>
    obtain ⟨hrebuild, hdbPath, hinode, hstamp, -⟩ := h
    -- what the parse has written so far is left
    refine ⟨.parseFailed true, ?_⟩
    rw [buildAndOpen, if_pos hrebuild, disk_of_dbPath hdbPath hstamp, hinode]
    rfl
  | parsed =>
    obtain ⟨hrebuild, hdisk⟩ := h
    -- the parse is done, and the stamp is the old one
    exact ⟨.cleanupFailed, by rw [buildAndOpen, if_pos hrebuild, hdisk]⟩
  | opening =>
    obtain ⟨write, hdisk⟩ := h
    refine ⟨.stamped write false, ?_⟩
    rw [hdisk, buildAndOpen, buildAndOpen]
    split <;> rfl
  | failed => exact h
  | opened => exact absurd rfl hphase
  | unstarted => exact h.elim
  | superseding => exact h.elim
  | closing => exact h.elim

theorem step_alone {disk : Disk} {s t : CatalogBuild.State} {a : CatalogBuild.Action} {b : ℕ}
    (hstep : CatalogBuild.step s a = some t) (hown : Own b a)
    (h : Alone disk s.source s (s.builds b).phase) :
    t.source = s.source ∧ Alone disk s.source t (t.builds b).phase := by
  cases CatalogBuild.step_cases hstep with
  | decompress hb =>
    obtain rfl := hown
    rw [hb] at h
    exact ⟨rfl, alone_setPhase ⟨h.1, h.2, rfl⟩⟩
  -- without packing the XML is the source itself, else what was decompressed
  | materialized hb =>
    obtain rfl := hown
    refine ⟨rfl, alone_setPhase ?_⟩
    cases hgz : s.gz with
    | false =>
      rw [hb, hgz] at h
      exact ⟨h.1, rfl, congrArg Disk.stamp h.2, by simp [CatalogBuild.State.xml]⟩
    | true =>
      rw [hb, hgz] at h
      exact ⟨h.1, rfl, congrArg Disk.stamp h.2.1,
        by simpa [CatalogBuild.State.xml, hgz] using h.2.2⟩
  -- the old database is gone, and a new file is empty
  | parse hb hxml =>
    obtain rfl := hown
    rw [hb] at h
    obtain ⟨hrebuild, hdbPath, hstamp, hsource⟩ := h
    have hcontent := Option.some_inj.mp (hxml.symm.trans hsource)
    refine ⟨rfl, alone_setPhase ⟨hrebuild, ?_, ?_, ?_, hcontent⟩⟩
    · rw [CatalogBuild.Files.openDb, hdbPath]
    · simp [CatalogBuild.Files.openDb, hdbPath]
    · rw [CatalogBuild.Files.openDb, hdbPath]
      exact hstamp
  | @parseDone b i content hb =>
    obtain rfl := hown
    rw [hb] at h
    obtain ⟨hrebuild, hdbPath, hinode, hstamp, rfl⟩ := h
    refine ⟨rfl, alone_setPhase ⟨hrebuild, ?_⟩⟩
    rw [disk_of_dbPath (i := i) (t := disk.stamp)]
    · simp [CatalogBuild.Files.finishDb, hinode]
    · rw [CatalogBuild.finishDb_dbPath]
      exact hdbPath
    · rw [CatalogBuild.finishDb_stamp]
      exact hstamp
  -- the stamp is put beside a database of the whole source
  | @stamp b write hb =>
    obtain rfl := hown
    rw [hb] at h
    obtain ⟨hrebuild, hdisk⟩ := h
    refine ⟨rfl, alone_setPhase ⟨write, ?_⟩⟩
    rw [buildAndOpen, if_pos hrebuild]
    have hdb : s.files.disk.db = some (.complete s.source) := congrArg Disk.db hdisk
    have hstamp : s.files.stamp = disk.stamp := congrArg Disk.stamp hdisk
    rw [← hstamp, ← hdb]
    rfl
  | opened hb =>
    obtain rfl := hown
    rw [hb] at h
    exact ⟨rfl, alone_setPhase (f := s.files) h⟩
  | fail hb =>
    obtain rfl := hown
    refine ⟨rfl, alone_setPhase (f := s.files) (alone_fail h fun hopened => ?_)⟩
    simp [hopened] at hb
  | parseFailed hb =>
    obtain rfl := hown
    have hfailed := alone_fail h fun hopened => by simp [hopened] at hb
    exact ⟨rfl, alone_setPhase (s := s.dropXml) (p := .failed false) (f := s.dropXml.files) hfailed⟩
  | evict hb =>
    obtain rfl := hown
    rw [hb] at h
    exact ⟨rfl, alone_setPhase (f := s.files) (p := .failed true) h⟩
  | deliver hb =>
    obtain rfl := hown
    rw [hb] at h
    exact ⟨rfl, alone_setPhase (f := s.files) (p := .failed true) h⟩
  -- the other steps are not its own
  | _ => exact hown.elim

theorem alone_proceed (s : CatalogBuild.State) (b : ℕ) :
    Alone s.files.disk s.source (s.proceed b) ((s.proceed b).builds b).phase := by
  refine alone_setPhase (f := s.files) ?_
  cases hrebuild : s.needsRebuild with
  | true => exact ⟨hrebuild, rfl⟩
  | false =>
    refine ⟨.whole, ?_⟩
    have hno : ¬ catalogNeedsRebuild s.files.disk (some s.source) = true := by
      rw [CatalogBuild.State.needsRebuild] at hrebuild
      simp [hrebuild]
    rw [buildAndOpen, if_neg hno]

/-- **Refinement**: once it has checked the files, a build that takes only steps
of its own leaves the files, and opens a database or fails, as `buildAndOpen`
has it for some outcome. -/
theorem build_ends {s t : CatalogBuild.State} {b : ℕ} {as : List CatalogBuild.Action}
    (hrun : Machine.run CatalogBuild.step (s.proceed b) as = some t) (hown : ∀ a ∈ as, Own b a) :
    ((t.builds b).phase = .opened → ∃ outcome,
      (t.files.disk, true) = buildAndOpen s.files.disk s.source outcome) ∧
    ∀ delivered, (t.builds b).phase = .failed delivered → ∃ outcome,
      (t.files.disk, false) = buildAndOpen s.files.disk s.source outcome := by
  have hrun' := Machine.run_invariant_along
    (I := fun u => u.source = s.source ∧ Alone s.files.disk s.source u (u.builds b).phase)
    (fun u a v htakes hu => ?_) hrun ⟨rfl, alone_proceed s b⟩
  · obtain ⟨-, halone⟩ := hrun'
    refine ⟨?_, ?_⟩
    · intro hopened
      rw [hopened] at halone
      obtain ⟨write, hdisk⟩ := halone
      refine ⟨.stamped write true, ?_⟩
      rw [hdisk, buildAndOpen]
      split <;> rfl
    · intro delivered hfailed
      rw [hfailed] at halone
      exact halone
  · obtain ⟨hsource, halone⟩ := hu
    have hnext := step_alone htakes.step_eq (hown a htakes.mem) (hsource.symm ▸ halone)
    exact hsource ▸ hnext

end CatalogHistory
