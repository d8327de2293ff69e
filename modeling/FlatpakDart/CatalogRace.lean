/-
Builds of one cache key racing each other, and the source
(`lib/src/appstream/catalog.dart`, `lib/src/appstream/catalog_cache.dart`).

* `current_iff_safe` — at every moment of a run the check vouches only for a
  complete parse of what the source then is, exactly if every step of the run is
  `Safe`; and it does so in every run that keeps its rebuilds apart (`Apart`);
* `race_serves_stale` — a source repointed while it is parsed, and a database
  stamped while another builder writes it.
-/
import FlatpakDart.CatalogBuild

open CatalogCache

namespace CatalogBuild

/-! ### What the check vouches for -/

/-- If the check would let a lookup use what is at `dbPath`, it is a complete
parse of the source. -/
def Current (s : State) : Prop :=
  s.needsRebuild = false → s.files.disk.db = some (.complete s.source)

/-- The file at `dbPath`, if there is one, is a complete parse of this source. -/
def Files.Whole (f : Files) (id : SourceId) : Prop :=
  ∀ i, f.dbPath = some i → (f.inodes i).db = .complete id

theorem current_iff {s : State} :
    Current s ↔ (Names s.files.stamp s.source → s.files.Whole s.source) := by
  rw [Current, State.needsRebuild, needsRebuild_eq_false_iff]
  cases hdbPath : s.files.dbPath with
  | none => simp [Files.disk, Files.Whole, hdbPath]
  | some i => simp [Files.disk, Files.Whole, hdbPath]

theorem current_absent {s : State} (h : s.files.dbPath = none) : Current s :=
  current_iff.mpr fun _ i hi => absurd (h.symm.trans hi) (by simp)

/-- The condition on one step: a parse begins only where the stamp does not name
the source, a stamp that names the source is written only beside a complete
parse of it, and the source becomes one that the stamp names only if the file at
`dbPath` is a complete parse of that one. -/
def Safe (s : State) : Action → Prop
  | .parse _ => ¬ Names s.files.stamp s.source
  | .stamp _ write => Names (stampCatalogSource s.files.stamp (some s.source) write) s.source →
      s.files.Whole s.source
  | .repoint id => Names s.files.stamp id → s.files.Whole id
  | _ => True

/-- What a parse leaves unfinished stays so, and what it completes was not
vouched for. -/
theorem parseDone_current {s : State} (hs : Inv s) {b i : ℕ} {content : SourceId}
    (hb : (s.builds b).phase = .parsing i content) (hcurrent : Current s) :
    Current { s.setPhase b .parsed with files := s.files.finishDb i content } := by
  rw [current_iff] at hcurrent ⊢
  intro hnames j hj
  rw [finishDb_dbPath] at hj
  rw [finishDb_stamp] at hnames
  have hwhole := hcurrent hnames j hj
  -- a whole file was not the one this build was parsing into
  have hne : j ≠ i := by
    rintro rfl
    have hunfinished := (hs.parsing b j content hb).2.1
    exact absurd (hunfinished.symm.trans hwhole) (by simp)
  rw [finishDb_others _ _ (.inl hne)]
  exact hwhole

theorem parse_current_iff {s : State} (hs : Inv s) {b : ℕ} {content : SourceId} :
    Current { s.setPhase b (.parsing s.files.openDb.1 content) with files := s.files.openDb.2 } ↔
      ¬ Names s.files.stamp s.source := by
  have hopens := openDb_opens hs.linked
  rw [current_iff]
  constructor
  · intro h hnames
    have hwhole := h (hopens.stamp ▸ hnames) _ hopens.linked
    exact absurd (hopens.unfinished.symm.trans hwhole) (by simp)
  · intro h hnames
    exact absurd (hopens.stamp ▸ hnames) h

/-- **One step** keeps the check right exactly if it is safe. -/
theorem step_current_iff {s t : State} {a : Action} (hstep : step s a = some t) (hs : Inv s)
    (hcurrent : Current s) : Current t ↔ Safe s a := by
  -- only a parse, a stamp and a change of the source matter
  cases step_cases hstep with
  | join => exact iff_of_true hcurrent trivial
  | supersede => exact iff_of_true hcurrent trivial
  | first => exact iff_of_true hcurrent trivial
  | close => exact iff_of_true hcurrent trivial
  | ignore => exact iff_of_true hcurrent trivial
  | closed => exact iff_of_true hcurrent trivial
  | decompress => exact iff_of_true hcurrent trivial
  | materialized => exact iff_of_true (current_absent rfl) trivial
  | parse => exact parse_current_iff hs
  | parseDone hb => exact iff_of_true (parseDone_current hs hb hcurrent) trivial
  | stamp => exact current_iff
  | opened => exact iff_of_true hcurrent trivial
  | fail => exact iff_of_true hcurrent trivial
  | parseFailed => exact iff_of_true hcurrent trivial
  | evict => exact iff_of_true hcurrent trivial
  | deliver => exact iff_of_true hcurrent trivial
  | query => exact iff_of_true hcurrent trivial
  | error => exact iff_of_true hcurrent trivial
  | answered => exact iff_of_true hcurrent trivial
  | repoint => exact current_iff

/-! ### Rebuilds kept apart -/

/-- Between finding the database out of date and stamping the new one. -/
def Phase.rebuilding : Phase → Bool
  | .materializing | .materialized | .listening | .parsing _ _ | .parsed => true
  | _ => false

/-- Nobody rebuilds. -/
def State.Idle (s : State) : Prop := ∀ b, (s.builds b).phase.rebuilding = false

/-- A rebuild begins, and the source changes, only while nobody rebuilds; a
rebuild that has deleted the old database ends with a whole stamp. -/
def Apart (s : State) : Action → Prop
  | .lookup object => s.memo object = none → s.needsRebuild = true → s.Idle
  | .superseded _ => s.needsRebuild = true → s.Idle
  | .closed _ => s.needsRebuild = true → s.Idle
  | .stamp _ write => write = .whole ∧ OneLine s.source.path
  | .fail b => (s.builds b).phase ∈ [.materializing, .materialized, .opening]
  | .repoint _ => s.Idle
  | _ => True

/-- The old database is deleted, and the new one is not stamped. -/
def Phase.replacing : Phase → Bool
  | .listening | .parsing _ _ | .parsed => true
  | _ => false

theorem Phase.rebuilding_of_replacing {phase : Phase} (h : phase.replacing = true) :
    phase.rebuilding = true := by
  cases phase <;> first | rfl | exact absurd h (by simp [Phase.replacing])

/-- What a rebuild in this phase has done, while nobody else interfered. -/
def Undisturbed (s : State) : Phase → Prop
  | .materializing => ¬ Names s.files.stamp s.source
  | .materialized => ¬ Names s.files.stamp s.source ∧ s.files.xml = some s.source
  | .listening => ¬ Names s.files.stamp s.source ∧ s.xml = some s.source ∧ s.files.dbPath = none
  | .parsing i content => ¬ Names s.files.stamp s.source ∧ content = s.source ∧
      s.files.dbPath = some i ∧ (s.files.inodes i).parses = 1
  | .parsed => ¬ Names s.files.stamp s.source ∧ ∃ i, s.files.dbPath = some i ∧
      (s.files.inodes i).db = .complete s.source
  | _ => True

/-- The invariant of a run that keeps its rebuilds apart. -/
structure Tidy (s : State) : Prop where
  one : ∀ b c, (s.builds b).phase.rebuilding = true → (s.builds c).phase.rebuilding = true → b = c
  undisturbed : ∀ b, Undisturbed s (s.builds b).phase
  /-- unless a database is being replaced, the stamp tells what is at `dbPath` -/
  settled : (∀ b, (s.builds b).phase.replacing = false) → ∀ id, Names s.files.stamp id →
    ∃ i, s.files.dbPath = some i ∧ (s.files.inodes i).db = .complete id

theorem undisturbed_of_resting {s : State} {phase : Phase} (h : phase.rebuilding = false) :
    Undisturbed s phase := by
  cases phase <;> trivial

theorem Undisturbed.not_named {s : State} {phase : Phase} (h : Undisturbed s phase)
    (hphase : phase.rebuilding = true) : ¬ Names s.files.stamp s.source := by
  cases phase with
  | materializing => exact h
  | materialized => exact h.1
  | listening => exact h.1
  | parsing => exact h.1
  | parsed => exact h.1
  | _ => exact absurd hphase (by simp [Phase.rebuilding])

theorem Tidy.current {s : State} (hs : Tidy s) : Current s := by
  rw [current_iff]
  intro hnames i hi
  -- nobody is replacing a database that the stamp vouches for
  have hidle : ∀ b, (s.builds b).phase.replacing = false := by
    intro b
    by_contra hb
    have hrebuilding := Phase.rebuilding_of_replacing (eq_true_of_ne_false hb)
    exact (hs.undisturbed b).not_named hrebuilding hnames
  obtain ⟨j, hj, hdb⟩ := hs.settled hidle _ hnames
  obtain rfl := Option.some_inj.mp (hj.symm.trans hi)
  exact hdb

theorem init_tidy (source : SourceId) (gz : Bool) : Tidy (init .empty source gz) where
  one _ _ h := absurd h (by simp [init, Phase.rebuilding])
  undisturbed _ := trivial
  settled _ _ h := by
    obtain ⟨_, _, _, h, _⟩ := h
    exact absurd h (by simp [init, Files.empty])

/-- Steps that leave the files alone, begin no rebuild, and give none up that has
deleted the old database. -/
theorem tidy_rest {s t : State} (hs : Tidy s) (hfiles : t.files = s.files)
    (hsource : t.source = s.source) (hgz : t.gz = s.gz)
    (hphase : ∀ c, (t.builds c).phase = (s.builds c).phase ∨
      (t.builds c).phase.rebuilding = false ∧ (s.builds c).phase.replacing = false) : Tidy t := by
  -- who rebuilds was in the same phase before
  have hold : ∀ c, (t.builds c).phase.rebuilding = true →
      (t.builds c).phase = (s.builds c).phase := by
    intro c hc
    rcases hphase c with h | h
    · exact h
    · exact absurd (hc.symm.trans h.1) (by simp)
  refine ⟨?_, ?_, ?_⟩
  · intro b c hb hc
    exact hs.one b c (hold b hb ▸ hb) (hold c hc ▸ hc)
  · intro c
    cases hc : (t.builds c).phase.rebuilding with
    | false => exact undisturbed_of_resting hc
    | true =>
      have hsame : Undisturbed t = Undisturbed s := by
        funext phase
        cases phase <;> simp [Undisturbed, State.xml, hfiles, hsource, hgz]
      rw [hsame, hold c hc]
      exact hs.undisturbed c
  · intro hreplacing
    rw [hfiles]
    refine hs.settled fun c => ?_
    rcases hphase c with h | h
    · exact h ▸ hreplacing c
    · exact h.2

/-- The build that rebuilds, or is the first to, goes on to `phase`. -/
theorem tidy_advance {s t : State} {b : ℕ} {p : Phase}
    (hothers : ∀ c, c ≠ b → (s.builds c).phase.rebuilding = false)
    (hphase : ∀ c, (t.builds c).phase = if c = b then p else (s.builds c).phase)
    (hundisturbed : Undisturbed t p)
    (hsettled : p.replacing = false → ∀ id, Names t.files.stamp id →
      ∃ i, t.files.dbPath = some i ∧ (t.files.inodes i).db = .complete id) : Tidy t := by
  have hrest : ∀ c, c ≠ b → (t.builds c).phase.rebuilding = false := by
    intro c hc
    rw [hphase, if_neg hc]
    exact hothers c hc
  have hb : ∀ c, (t.builds c).phase.rebuilding = true → c = b := by
    intro c hc
    by_contra hne
    exact absurd (hc.symm.trans (hrest c hne)) (by simp)
  refine ⟨fun c d hc hd => (hb c hc).trans (hb d hd).symm, ?_, ?_⟩
  · intro c
    by_cases hc : c = b
    · rw [hphase, if_pos hc]
      exact hundisturbed
    · exact undisturbed_of_resting (hrest c hc)
  · intro hreplacing
    have hself := hreplacing b
    rw [hphase, if_pos rfl] at hself
    exact hsettled hself

theorem Tidy.others {s : State} (hs : Tidy s) {b : ℕ} (hb : (s.builds b).phase.rebuilding = true) :
    ∀ c, c ≠ b → (s.builds c).phase.rebuilding = false :=
  fun c hc => eq_false_of_ne_true fun h => hc (hs.one c b h hb)

/-- While one build rebuilds and has not deleted the old database, the stamp
tells what is at `dbPath`. -/
theorem Tidy.settled_of {s : State} (hs : Tidy s) {b : ℕ}
    (hothers : ∀ c, c ≠ b → (s.builds c).phase.rebuilding = false)
    (hb : (s.builds b).phase.replacing = false) (id : SourceId) (h : Names s.files.stamp id) :
    ∃ i, s.files.dbPath = some i ∧ (s.files.inodes i).db = .complete id := by
  refine hs.settled (fun c => ?_) id h
  by_cases hc : c = b
  · rw [hc]
    exact hb
  · by_contra hreplacing
    have hrebuilding := Phase.rebuilding_of_replacing (eq_true_of_ne_false hreplacing)
    exact absurd (hrebuilding.symm.trans (hothers c hc)) (by simp)

theorem tidy_proceed {s : State} (hs : Tidy s) {b : ℕ} (hb : (s.builds b).phase.rebuilding = false)
    (hidle : s.needsRebuild = true → s.Idle) : Tidy (s.proceed b) := by
  have hreplacing : (s.builds b).phase.replacing = false := by
    by_contra h
    exact absurd ((Phase.rebuilding_of_replacing (eq_true_of_ne_false h)).symm.trans hb) (by simp)
  cases hrebuild : s.needsRebuild with
  | false =>
    refine tidy_rest hs rfl rfl rfl fun c => ?_
    rw [State.proceed, hrebuild, setPhase_phase]
    by_cases hc : c = b
    · rw [if_pos hc, hc]
      exact .inr ⟨rfl, hreplacing⟩
    · rw [if_neg hc]
      exact .inl rfl
  | true =>
    have hothers : ∀ c, c ≠ b → (s.builds c).phase.rebuilding = false := fun c _ => hidle hrebuild c
    have hsettled := hs.settled_of hothers hreplacing
    refine tidy_advance (p := .materializing) hothers (fun c => ?_) ?_ fun _ => hsettled
    · rw [State.proceed, hrebuild, setPhase_phase]
      rfl
    · -- were the source named, the database would be there, and nothing to rebuild
      intro hnames
      obtain ⟨i, hi, -⟩ := hsettled _ hnames
      have hno : s.needsRebuild = false :=
        needsRebuild_eq_false_iff.mpr ⟨by simp [Files.disk, hi], hnames⟩
      exact absurd (hrebuild.symm.trans hno) (by simp)

theorem start_idle {s : State} (h : s.Idle) (object : ℕ) (superseded : Option ℕ) :
    (s.start object superseded).Idle := by
  intro c
  rw [start_phase]
  split
  · rfl
  · exact h c

theorem tidy_start {s : State} (hs : Tidy s) (hinv : Inv s) (object : ℕ) (superseded : Option ℕ) :
    Tidy (s.start object superseded) := by
  refine tidy_rest hs rfl rfl rfl fun c => ?_
  rw [start_phase]
  by_cases hc : c = s.started
  · rw [if_pos hc, hinv.unstarted c (le_of_eq hc.symm)]
    exact .inr ⟨rfl, rfl⟩
  · rw [if_neg hc]
    exact .inl rfl

/-- A build that does not rebuild goes on to a phase in which it does not. -/
theorem tidy_setPhase {s : State} (hs : Tidy s) {b : ℕ} {p : Phase}
    (hb : (s.builds b).phase.replacing = false) (hphase : p.rebuilding = false) :
    Tidy (s.setPhase b p) := by
  refine tidy_rest hs rfl rfl rfl fun c => ?_
  rw [setPhase_phase]
  by_cases hc : c = b
  · rw [if_pos hc, hc]
    exact .inr ⟨hphase, hb⟩
  · rw [if_neg hc]
    exact .inl rfl

/-- Steps of which neither the files nor the phases of the builds know. -/
theorem tidy_same {s t : State} (hs : Tidy s) (hfiles : t.files = s.files)
    (hsource : t.source = s.source) (hgz : t.gz = s.gz)
    (hphase : ∀ c, (t.builds c).phase = (s.builds c).phase) : Tidy t :=
  tidy_rest hs hfiles hsource hgz fun c => .inl (hphase c)

theorem tidy_parse {s : State} (hs : Tidy s) (hinv : Inv s) {b : ℕ} {content : SourceId}
    (hb : (s.builds b).phase = .listening) (hxml : s.xml = some content) :
    Tidy { s.setPhase b (.parsing s.files.openDb.1 content) with files := s.files.openDb.2 } := by
  have hopens := openDb_opens hinv.linked
  have hu := hs.undisturbed b
  rw [hb] at hu
  obtain ⟨hnames, hsource, hdeleted⟩ := hu
  -- the old file is deleted, so this parse has one of its own
  refine tidy_advance (hs.others (by rw [hb]; rfl)) (setPhase_phase s b · _) ?_
    fun h => absurd h (by simp [Phase.replacing])
  exact ⟨fun h => hnames (hopens.stamp ▸ h), Option.some_inj.mp (hxml.symm.trans hsource),
    hopens.linked, hopens.made hdeleted⟩

theorem tidy_parseDone {s : State} (hs : Tidy s) {b i : ℕ} {content : SourceId}
    (hb : (s.builds b).phase = .parsing i content) :
    Tidy { s.setPhase b .parsed with files := s.files.finishDb i content } := by
  have hu := hs.undisturbed b
  rw [hb] at hu
  obtain ⟨hnames, rfl, hlinked, hparses⟩ := hu
  refine tidy_advance (hs.others (by rw [hb]; rfl)) (setPhase_phase s b · _) ?_
    fun h => absurd h (by simp [Phase.replacing])
  refine ⟨fun h => hnames (finishDb_stamp s.files i s.source ▸ h), i, ?_, ?_⟩
  · rw [finishDb_dbPath]
    exact hlinked
  · rw [Files.finishDb, if_pos hparses]
    simp [State.setPhase]

theorem tidy_stamp {s : State} (hs : Tidy s) {b : ℕ} (hb : (s.builds b).phase = .parsed)
    (hpath : OneLine s.source.path) :
    Tidy { s.setPhase b .opening with
      files := { s.dropXml.files with
        stamp := stampCatalogSource s.files.stamp (some s.source) .whole } } := by
  have hu := hs.undisturbed b
  rw [hb] at hu
  obtain ⟨-, i, hlinked, hdb⟩ := hu
  refine tidy_advance (hs.others (by rw [hb]; rfl)) (setPhase_phase s b · _) trivial
    fun _ id hid => ?_
  -- the stamp names the source that was parsed, and no other
  obtain rfl := (names_stampBytes_iff hpath).mp hid
  exact ⟨i, hlinked, hdb⟩

theorem step_tidy {s t : State} {a : Action} (hstep : step s a = some t) (hinv : Inv s)
    (hapart : Apart s a) (hs : Tidy s) : Tidy t := by
  cases step_cases hstep with
  | join => exact tidy_same hs rfl rfl rfl fun _ => rfl
  | supersede => exact tidy_same (tidy_start hs hinv _ _) rfl rfl rfl fun _ => rfl
  | @first object hmemo =>
    have hnew := tidy_proceed (tidy_start hs hinv object none) (b := s.started)
      (by simp [Phase.rebuilding]) fun hrebuild => start_idle (hapart hmemo hrebuild) _ _
    exact tidy_same hnew rfl rfl rfl fun _ => rfl
  | @close b c hb =>
    have hset := tidy_setPhase (p := .closing) hs (b := b) (by rw [hb]; rfl) rfl
    refine tidy_same hset rfl rfl rfl fun d => ?_
    rw [closeSuperseded_phase, setPhase_phase]
  | ignore hb => exact tidy_proceed hs (by rw [hb]; rfl) hapart
  | closed hb => exact tidy_proceed hs (by rw [hb]; rfl) hapart
  | @decompress b hb hgz =>
    have hothers := hs.others (b := b) (by rw [hb]; rfl)
    have hu := hs.undisturbed b
    rw [hb] at hu
    refine tidy_advance hothers (setPhase_phase s b · _) ⟨hu, rfl⟩ fun _ => ?_
    exact hs.settled_of hothers (by rw [hb]; rfl)
  | @materialized b hb =>
    have hrebuilding : (s.builds b).phase.rebuilding = true := by
      rw [hb]
      split <;> rfl
    have hu := hs.undisturbed b
    refine tidy_advance (hs.others hrebuilding) (setPhase_phase s b · _) ?_
      fun h => absurd h (by simp [Phase.replacing])
    refine ⟨hu.not_named hrebuilding, ?_, rfl⟩
    cases hgz : s.gz with
    | false => simp [State.xml, State.setPhase, hgz]
    | true =>
      rw [hgz, if_pos rfl] at hb
      rw [hb] at hu
      simpa [State.xml, State.setPhase, hgz] using hu.2
  | parse hb hxml => exact tidy_parse hs hinv hb hxml
  | parseDone hb => exact tidy_parseDone hs hb
  | stamp hb =>
    obtain ⟨rfl, hpath⟩ := hapart
    exact tidy_stamp hs hb hpath
  | opened hb => exact tidy_setPhase hs (by rw [hb]; rfl) rfl
  | @fail b hb =>
    refine tidy_setPhase hs ?_ rfl
    have hphase : (s.builds b).phase ∈ [.materializing, .materialized, .opening] := hapart
    simp only [List.mem_cons, List.not_mem_nil, or_false] at hphase
    rcases hphase with h | h | h <;> rw [h] <;> rfl
  | parseFailed hb =>
    have hphase : (s.builds _).phase ∈ [.materializing, .materialized, .opening] := hapart
    rcases hb with hb | ⟨i, content, hb⟩ <;> exact absurd hphase (by simp [hb])
  | evict hb =>
    have hset := tidy_setPhase (p := .failed true) hs (by rw [hb]; rfl) rfl
    exact tidy_same hset rfl rfl rfl fun _ => rfl
  | deliver hb => exact tidy_setPhase hs (by rw [hb]; rfl) rfl
  | query => exact tidy_same hs rfl rfl rfl fun _ => rfl
  | error => exact tidy_same hs rfl rfl rfl fun _ => rfl
  | answered => exact tidy_same hs rfl rfl rfl fun _ => rfl
  | repoint =>
    have hidle : s.Idle := hapart
    -- the stamp tells what is at `dbPath`, wherever the path leads
    have hresting : ∀ b, (s.builds b).phase.replacing = false := fun b => by
      by_contra h
      exact absurd ((Phase.rebuilding_of_replacing (eq_true_of_ne_false h)).symm.trans (hidle b))
        (by simp)
    exact ⟨hs.one, fun b => undisturbed_of_resting (hidle b), fun _ => hs.settled hresting⟩

/-! ### Every run -/

/-- **The race**: at every moment of a run the check vouches only for a complete
parse of what the source then is, if and only if every step of the run is safe.
A run is, if its rebuilds are kept apart from each other and from changes of the
source. -/
theorem current_iff_safe (source : SourceId) (gz : Bool) (as : List Action) :
    ((∀ u, Machine.Reaches step (init .empty source gz) as u → Current u) ↔
      ∀ s a t, Machine.Takes step (init .empty source gz) as s a t → Safe s a) ∧
    ((∀ s a t, Machine.Takes step (init .empty source gz) as s a t → Apart s a) →
      ∀ u, Machine.Reaches step (init .empty source gz) as u → Current u) := by
  have hinv : ∀ {s a t}, Machine.Takes step (init .empty source gz) as s a t → Inv s := by
    intro s a t htakes
    obtain ⟨before, hbefore⟩ := htakes.reached
    exact run_inv hbefore
  refine ⟨Machine.reaches_iff_takes (current_absent rfl) as
    fun s a t htakes hs => step_current_iff htakes.step_eq (hinv htakes) hs, ?_⟩
  rintro hapart u ⟨before, after, rfl, hrun⟩
  refine (Machine.run_invariant_along (I := Tidy) (fun s a t htakes hs => ?_) hrun
    (init_tidy source gz)).current
  have htakes' := htakes.append after
  exact step_tidy htakes'.step_eq (hinv htakes') (hapart s a t htakes') hs

/-- The source is repointed while it is parsed. -/
def repointed : List Action :=
  [.lookup 0, .materialized 0, .parse 0, .repoint deployB, .parseDone 0, .stamp 0 .whole, .opened 0]

/-- Another builder replaces the database before the first one stamps it. -/
def overtaken : List Action :=
  [.lookup 0, .materialized 0, .parse 0, .lookup 1, .parseDone 0, .materialized 1, .parse 1,
    .stamp 0 .whole]

theorem race_serves_stale :
    (∃ u, Machine.run step (init .empty deployA false) repointed = some u ∧ u.source = deployB ∧
      u.needsRebuild = false ∧ u.files.disk.db = some (.complete deployA)) ∧
    (∃ u, Machine.run step (init .empty deployA false) overtaken = some u ∧ u.source = deployA ∧
      u.needsRebuild = false ∧ u.files.disk.db = some .unfinished) := by
  refine ⟨⟨_, rfl, rfl, ?_, rfl⟩, ⟨_, rfl, rfl, ?_, rfl⟩⟩
  · exact needsRebuild_eq_false_iff.mpr ⟨by decide, names_stampBytes deployB_oneLine⟩
  · exact needsRebuild_eq_false_iff.mpr ⟨by decide, names_stampBytes deployA_oneLine⟩

end CatalogBuild
