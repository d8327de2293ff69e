/-
Concurrent lookups with one `FlatpakAppStream`
(`lib/src/appstream/catalog.dart`).

The source stays what it is, and every build succeeds.

* `served_iff_joins` — however a run goes on without further lookups, its lookups
  are served by one parse and with databases nobody closes, exactly if each of
  them after the first one found the stamp in place;
* `overlapping_lookups_close` — of two lookups that overlap, the second one
  closes the database the first one queries.
-/
import FlatpakDart.CatalogBuild

open CatalogCache

namespace CatalogBuild

variable {object : ℕ}

/-! ### What the lookups are promised -/

/-- The steps of lookups with one `FlatpakAppStream`, while builds succeed and the
source stays. -/
def Calm (object : ℕ) : Action → Prop
  | .lookup o => o = object
  | .stamp _ write => write = .whole
  | .fail _ => False
  | .repoint _ => False
  | _ => True

def Action.isLookup : Action → Bool
  | .lookup _ => true
  | _ => false

def Action.isParse : Action → Bool
  | .parse _ => true
  | _ => false

/-- After these actions the catalog has been parsed at most once, no lookup has
been given an error, the database of a lookup that queries it is open, and no
build of another lookup has closed the database of any. -/
structure Served (as : List Action) (s : State) : Prop where
  once : as.countP Action.isParse ≤ 1
  answered : ∀ l ∈ s.lookups, l.phase ≠ .failed
  stays : ∀ l ∈ s.lookups, l.phase = .querying →
    (s.builds l.build).phase = .opened ∧ (s.builds l.build).closedBy = none
  kept : ∀ l ∈ s.lookups, (s.builds l.build).closedBy = none

/-- Without further lookups, every lookup can still be answered. -/
def CanFinish (object : ℕ) (s : State) : Prop :=
  ∃ bs u, (∀ a ∈ bs, Calm object a ∧ a.isLookup = false) ∧ Machine.run step s bs = some u ∧
    ∀ l ∈ u.lookups, l.phase = .done

/-- The condition on one step: a lookup whose key is memoised finds the database
up to date. -/
def Joins (s : State) : Action → Prop
  | .lookup o => s.memo o ≠ none → s.needsRebuild = false
  | _ => True

/-! ### The chain of builds -/

/-- Before a build has anything to do. -/
def Phase.waits : Phase → Bool
  | .unstarted | .superseding => true
  | _ => false

/-- The catalog is there for the parser to read. -/
def Fetched (s : State) : Phase → Prop
  | .materialized => s.gz = true ∧ s.files.xml ≠ none
  | .listening => s.gz = true → s.files.xml ≠ none
  | _ => True

/-- Each build supersedes the one before it, waits until that one is open, and
closes its database. -/
structure Chain (object : ℕ) (s : State) : Prop where
  unstarted_iff : ∀ b, (s.builds b).phase = .unstarted ↔ s.started ≤ b
  cold : s.started = 0 → s.memo object = none
  memo : ∀ n, s.started = n + 1 → s.memo object = some n
  superseded : ∀ b, b + 1 < s.started → (s.builds (b + 1)).superseded = some b
  first : (s.builds 0).phase ≠ .superseding ∧ (s.builds 0).phase ≠ .closing
  sound : ∀ b delivered, (s.builds b).phase ≠ .failed delivered
  order : ∀ b, (s.builds (b + 1)).phase.waits = false → (s.builds b).phase = .opened
  closedBy : ∀ b, (s.builds b).closedBy =
    if (s.builds (b + 1)).phase.waits then none else some (b + 1)
  fetched : ∀ b, Fetched s (s.builds b).phase

/-- Every build has its lookup, and a lookup goes on when its database is open. -/
structure Attended (s : State) : Prop where
  looked : ∀ b, b < s.started → b ∈ s.lookups.map Lookup.build
  lookups : ∀ l ∈ s.lookups, l.build < s.started ∧ l.phase ≠ .failed ∧
    (l.phase ≠ .awaiting → (s.builds l.build).phase = .opened)

theorem init_chain (files : Files) (source : SourceId) (gz : Bool) :
    Chain object (init files source gz) where
  unstarted_iff b := by simp [init]
  cold _ := rfl
  memo n h := absurd h (by simp [init])
  superseded b h := absurd h (by simp [init])
  first := by simp [init]
  sound := by simp [init]
  order b h := absurd h (by simp [init, Phase.waits])
  closedBy b := by simp [init, Phase.waits]
  fetched b := trivial

theorem init_attended (files : Files) (source : SourceId) (gz : Bool) :
    Attended (init files source gz) where
  looked b h := absurd h (by simp [init])
  lookups l h := absurd h (by simp [init])

/-- A build that has nothing to wait for any more comes after open ones. -/
theorem Chain.opened_of_lt {s : State} (hs : Chain object s) {b c : ℕ} (hlt : b < c)
    (hc : (s.builds c).phase.waits = false) : (s.builds b).phase = .opened := by
  induction c, hlt using Nat.le_induction with
  | base => exact hs.order b hc
  | succ c _ ih =>
    have hopened := hs.order c hc
    exact ih (by rw [hopened]; rfl)

/-- At most one build works. -/
theorem Chain.working_unique {s : State} (hs : Chain object s) {b c : ℕ}
    (hb : (s.builds b).phase.waits = false) (hbo : (s.builds b).phase ≠ .opened)
    (hc : (s.builds c).phase.waits = false) (hco : (s.builds c).phase ≠ .opened) : b = c := by
  rcases lt_trichotomy b c with h | h | h
  · exact absurd (hs.opened_of_lt h hc) hbo
  · exact h
  · exact absurd (hs.opened_of_lt h hb) hco

theorem Chain.waits_of_le {s : State} (hs : Chain object s) {b : ℕ} (h : s.started ≤ b) :
    (s.builds b).phase.waits = true := by
  rw [(hs.unstarted_iff b).mpr h]
  rfl

/-- The memoised build is the last one. -/
theorem Chain.memo_last {s : State} (hs : Chain object s) {b : ℕ} (h : s.memo object = some b) :
    s.started = b + 1 := by
  cases hn : s.started with
  | zero => exact absurd ((hs.cold hn).symm.trans h) (by simp)
  | succ n => rw [Option.some_inj.mp ((hs.memo n hn).symm.trans h)]

theorem Chain.started_zero {s : State} (hs : Chain object s) (h : s.memo object = none) :
    s.started = 0 := by
  cases hn : s.started with
  | zero => rfl
  | succ n => exact absurd ((hs.memo n hn).symm.trans h) (by simp)

/-! ### What keeps the chain -/

/-- The build that works goes on to another phase of its work. -/
theorem chain_advance {s : State} (hs : Chain object s) {b : ℕ} {p : Phase} {f : Files}
    (hwaits : (s.builds b).phase.waits = false) (hopened : (s.builds b).phase ≠ .opened)
    (hphase : p.waits = false) (hclosing : p ≠ .closing)
    (hsound : ∀ delivered, p ≠ .failed delivered)
    (hfetched : Fetched { s with files := f } p) :
    Chain object { s.setPhase b p with files := f } := by
  have hself : ∀ {c}, ((s.setPhase b p).builds c).phase.waits = (s.builds c).phase.waits := by
    intro c
    rw [setPhase_phase]
    split
    · next hc => rw [hc, hwaits, hphase]
    · rfl
  constructor
  case unstarted_iff =>
    intro c
    rw [setPhase_phase]
    split
    · next hc =>
      have hold : (s.builds b).phase ≠ .unstarted := fun h => by simp [h, Phase.waits] at hwaits
      refine ⟨?_, fun h => absurd ((hs.unstarted_iff b).mpr (hc ▸ h)) hold⟩
      intro h
      simp [h, Phase.waits] at hphase
    · exact hs.unstarted_iff c
  case cold => exact hs.cold
  case memo => exact hs.memo
  case superseded =>
    intro c hc
    rw [setPhase_superseded]
    exact hs.superseded c hc
  case first =>
    rw [setPhase_phase]
    split
    · refine ⟨?_, hclosing⟩
      intro h
      simp [h, Phase.waits] at hphase
    · exact hs.first
  case sound =>
    intro c delivered
    rw [setPhase_phase]
    split
    · exact hsound delivered
    · exact hs.sound c delivered
  case order =>
    intro c hc
    -- `b` is not open, so no later build has begun
    have hc' := hs.order c (hself.symm.trans hc)
    rw [setPhase_phase, if_neg]
    · exact hc'
    · rintro rfl
      exact hopened hc'
  case closedBy =>
    intro c
    rw [hself, setPhase_closedBy]
    exact hs.closedBy c
  case fetched =>
    intro c
    rw [setPhase_phase]
    split
    · exact hfetched
    · next hne =>
      -- only the build that works has fetched anything
      cases hc : (s.builds c).phase with
      | materialized =>
        exact absurd (hs.working_unique (by rw [hc]; rfl) (by simp [hc]) hwaits hopened) hne
      | listening =>
        exact absurd (hs.working_unique (by rw [hc]; rfl) (by simp [hc]) hwaits hopened) hne
      | _ => trivial

/-- A lookup supersedes the last build. -/
theorem chain_supersede {s : State} (hs : Chain object s) {b : ℕ}
    (hmemo : s.memo object = some b) : Chain object (s.start object (some b)) := by
  have hstarted := hs.memo_last hmemo
  -- the new build waits as it did
  have hself : ∀ {c}, ((s.start object (some b)).builds c).phase.waits =
      (s.builds c).phase.waits := by
    intro c
    rw [start_phase]
    split
    · next hc =>
      rw [hs.waits_of_le hc.ge]
      rfl
    · rfl
  constructor
  case unstarted_iff =>
    intro c
    change _ ↔ s.started + 1 ≤ c
    rw [start_phase]
    split
    · next hc => simp [hc]
    · next hc =>
      rw [hs.unstarted_iff]
      omega
  case cold => exact fun h => absurd h (Nat.succ_ne_zero _)
  case memo =>
    intro n hn
    obtain rfl : s.started = n := Nat.succ_injective hn
    simp [State.start]
  case superseded =>
    intro c hc
    rw [start_superseded]
    split
    · next h => rw [Nat.succ_injective (h.trans hstarted)]
    · next h => exact hs.superseded c (lt_of_le_of_ne (Nat.le_of_lt_succ hc) h)
  case first =>
    rw [start_phase, if_neg (by omega)]
    exact hs.first
  case sound =>
    intro c delivered
    rw [start_phase]
    split
    · simp
    · exact hs.sound c delivered
  case order =>
    intro c hc
    rw [hself] at hc
    rw [start_phase, if_neg]
    · exact hs.order c hc
    · intro h
      exact absurd (hc.symm.trans (hs.waits_of_le (by omega))) (by simp)
  case closedBy =>
    intro c
    rw [hself, start_closedBy]
    split
    · next h => rw [hs.waits_of_le (by omega), if_pos rfl]
    · exact hs.closedBy c
  case fetched =>
    intro c
    rw [start_phase]
    split
    · trivial
    · exact hs.fetched c

/-- The first lookup starts a build that need not wait. -/
theorem chain_first {s : State} (hs : Chain object s) (hmemo : s.memo object = none) :
    Chain object ((s.start object none).proceed s.started) := by
  have hstarted := hs.started_zero hmemo
  have hphase : ∀ c, (((s.start object none).proceed s.started).builds c).phase =
      if c = 0 then (if s.needsRebuild then .materializing else .opening) else .unstarted := by
    intro c
    rw [State.proceed, setPhase_phase, start_phase, hstarted]
    split
    · rfl
    · exact (hs.unstarted_iff c).mpr (by omega)
  constructor
  case unstarted_iff =>
    intro c
    change _ ↔ s.started + 1 ≤ c
    rw [hphase, hstarted]
    split
    · next hc => split <;> simp [hc]
    · next hc => simp [Nat.one_le_iff_ne_zero, hc]
  case cold => exact fun h => absurd h (Nat.succ_ne_zero _)
  case memo =>
    intro n hn
    obtain rfl : s.started = n := Nat.succ_injective hn
    simp [State.proceed, State.setPhase, State.start]
  case superseded =>
    intro c hc
    have hlt : c + 1 < s.started + 1 := hc
    omega
  case first =>
    rw [hphase, if_pos rfl]
    split <;> simp
  case sound =>
    intro c delivered
    rw [hphase]
    split
    · split <;> simp
    · simp
  case order =>
    intro c hc
    rw [hphase, if_neg (Nat.succ_ne_zero c)] at hc
    exact absurd hc (by simp [Phase.waits])
  -- there was no build before, and nothing to close
  case closedBy =>
    intro c
    rw [hphase, if_neg (Nat.succ_ne_zero c), State.proceed, setPhase_closedBy, start_closedBy]
    split
    · rfl
    · rw [hs.closedBy c, hs.waits_of_le (by omega)]
      rfl
  case fetched =>
    intro c
    rw [hphase]
    split
    · split <;> trivial
    · trivial

/-- A build closes the database of the one before it. -/
theorem chain_close {s : State} (hs : Chain object s) {b c : ℕ}
    (hb : (s.builds b).phase = .superseding) (hc : (s.builds b).superseded = some c)
    (hopened : (s.builds c).phase = .opened) :
    b = c + 1 ∧ Chain object (s.closeSuperseded b c) := by
  have hlt : b < s.started := by
    by_contra h
    exact absurd (hb.symm.trans ((hs.unstarted_iff b).mpr (not_lt.mp h))) (by simp)
  obtain rfl : b = c + 1 := by
    cases b with
    | zero => exact absurd hb hs.first.1
    | succ n => rw [Option.some_inj.mp ((hs.superseded n hlt).symm.trans hc)]
  refine ⟨rfl, ?_⟩
  constructor
  case unstarted_iff =>
    intro d
    rw [closeSuperseded_phase]
    split
    · next hd =>
      rw [hd]
      exact ⟨fun h => absurd h (by simp), fun h => absurd hlt (not_lt.mpr h)⟩
    · exact hs.unstarted_iff d
  case cold => exact hs.cold
  case memo => exact hs.memo
  case superseded =>
    intro d hd
    rw [closeSuperseded_superseded]
    exact hs.superseded d hd
  case first =>
    rw [closeSuperseded_phase, if_neg (Nat.succ_ne_zero c).symm]
    exact hs.first
  case sound =>
    intro d delivered
    rw [closeSuperseded_phase]
    split
    · simp
    · exact hs.sound d delivered
  -- the build does not wait any more: what it waited for is open
  case order =>
    intro d hd
    rw [closeSuperseded_phase] at hd ⊢
    have hd' : d ≠ c + 1 := by
      rintro rfl
      rw [if_neg (by omega)] at hd
      exact absurd (hb.symm.trans (hs.order (c + 1) hd)) (by simp)
    rw [if_neg hd']
    split at hd
    · next h =>
      rw [Nat.succ_injective h]
      exact hopened
    · exact hs.order d hd
  case closedBy =>
    intro d
    rw [closeSuperseded_closedBy, closeSuperseded_phase]
    -- the handle of the build before it is closed by this one, and by no other
    by_cases hd : d = c
    · rw [if_pos hd, if_pos (congrArg Nat.succ hd), hd]
      rfl
    · rw [if_neg hd, if_neg fun h => hd (Nat.succ_injective h)]
      exact hs.closedBy d
  case fetched =>
    intro d
    rw [closeSuperseded_phase]
    split
    · trivial
    · exact hs.fetched d

/-- Only the files matter to what has been fetched. -/
theorem Fetched.congr {s t : State} {phase : Phase} (h : Fetched s phase) (hgz : t.gz = s.gz)
    (hfiles : t.files = s.files) : Fetched t phase := by
  cases phase <;> simp_all [Fetched]

theorem Chain.congr {s t : State} (hs : Chain object s) (hbuilds : t.builds = s.builds)
    (hstarted : t.started = s.started) (hmemo : t.memo = s.memo) (hgz : t.gz = s.gz)
    (hfiles : t.files = s.files) : Chain object t := by
  constructor
  case unstarted_iff =>
    rw [hbuilds, hstarted]
    exact hs.unstarted_iff
  case cold =>
    rw [hstarted, hmemo]
    exact hs.cold
  case memo =>
    rw [hstarted, hmemo]
    exact hs.memo
  case superseded =>
    rw [hbuilds, hstarted]
    exact hs.superseded
  case first =>
    rw [hbuilds]
    exact hs.first
  case sound =>
    rw [hbuilds]
    exact hs.sound
  case order =>
    rw [hbuilds]
    exact hs.order
  case closedBy =>
    rw [hbuilds]
    exact hs.closedBy
  case fetched =>
    intro b
    rw [hbuilds]
    exact (hs.fetched b).congr hgz hfiles

theorem chain_proceed {s : State} (hs : Chain object s) {b : ℕ}
    (hb : (s.builds b).phase = .closing) : Chain object (s.proceed b) := by
  refine chain_advance hs (f := s.files) (by rw [hb]; rfl) (by simp [hb]) ?_ ?_ ?_ ?_
  · split <;> rfl
  · split <;> simp
  · split <;> simp
  · split <;> trivial

theorem step_chain {s t : State} {a : Action} (hstep : step s a = some t) (hcalm : Calm object a)
    (hs : Chain object s) : Chain object t := by
  cases step_cases hstep with
  | join => exact hs.congr rfl rfl rfl rfl rfl
  | supersede hmemo =>
    obtain rfl := hcalm
    exact (chain_supersede hs hmemo).congr rfl rfl rfl rfl rfl
  | first hmemo =>
    obtain rfl := hcalm
    exact (chain_first hs hmemo).congr rfl rfl rfl rfl rfl
  | close hb hc hopened => exact (chain_close hs hb hc hopened).2
  -- in a calm run nothing fails
  | ignore _ _ hfailed => exact absurd hfailed (hs.sound _ _)
  | closed hb => exact chain_proceed hs hb
  | decompress hb hgz =>
    exact chain_advance hs (by rw [hb]; rfl) (by simp [hb]) rfl (by simp) (by simp) ⟨hgz, by simp⟩
  -- what was packed is unpacked by now
  | @materialized b hb =>
    have hwaits : (s.builds b).phase.waits = false := by
      rw [hb]
      split <;> rfl
    have hopened : (s.builds b).phase ≠ .opened := by
      rw [hb]
      split <;> simp
    refine chain_advance hs hwaits hopened rfl (by simp) (by simp) fun hgz => ?_
    have hgz' : s.gz = true := hgz
    rw [hgz', if_pos rfl] at hb
    have hfetched := hs.fetched b
    rw [hb] at hfetched
    exact hfetched.2
  | parse hb =>
    exact chain_advance hs (by rw [hb]; rfl) (by simp [hb]) rfl (by simp) (by simp) trivial
  | parseDone hb =>
    exact chain_advance hs (by rw [hb]; rfl) (by simp [hb]) rfl (by simp) (by simp) trivial
  | stamp hb =>
    exact chain_advance hs (by rw [hb]; rfl) (by simp [hb]) rfl (by simp) (by simp) trivial
  | opened hb =>
    exact chain_advance hs (f := s.files) (by rw [hb]; rfl) (by simp [hb]) rfl (by simp)
      (by simp) trivial
  | fail => exact hcalm.elim
  | parseFailed => exact hcalm.elim
  | evict hb => exact absurd hb (hs.sound _ _)
  | deliver hb => exact absurd hb (hs.sound _ _)
  | query => exact hs.congr rfl rfl rfl rfl rfl
  | error => exact hs.congr rfl rfl rfl rfl rfl
  | answered => exact hs.congr rfl rfl rfl rfl rfl
  | repoint => exact hcalm.elim

/-! ### What keeps the lookups -/

/-- The future has completed, and nobody is left to tell. -/
def Phase.settled : Phase → Bool
  | .opened | .failed true => true
  | _ => false

theorem setPhase_settled {s : State} {b c : ℕ} {phase : Phase}
    (hb : (s.builds b).phase.settled = false) (hc : (s.builds c).phase.settled = true) :
    ((s.setPhase b phase).builds c).phase = (s.builds c).phase := by
  rw [setPhase_phase, if_neg]
  rintro rfl
  exact absurd (hb.symm.trans hc) (by simp)

/-- A build that is settled stays where it is. -/
theorem step_settled {s t : State} {a : Action} (hstep : step s a = some t) {c : ℕ}
    (hnew : c ≠ s.started) (hc : (s.builds c).phase.settled = true) :
    (t.builds c).phase = (s.builds c).phase := by
  cases step_cases hstep with
  | supersede => exact (start_phase s _ _ c).trans (if_neg hnew)
  | first =>
    refine (setPhase_phase _ _ c _).trans ((if_neg hnew).trans ?_)
    exact (start_phase s _ _ c).trans (if_neg hnew)
  | @close b d hb =>
    rw [closeSuperseded_phase, if_neg]
    rintro rfl
    simp [hb, Phase.settled] at hc
  | ignore hb => exact setPhase_settled (by rw [hb]; rfl) hc
  | closed hb => exact setPhase_settled (by rw [hb]; rfl) hc
  | decompress hb => exact setPhase_settled (by rw [hb]; rfl) hc
  | materialized hb =>
    refine setPhase_settled ?_ hc
    rw [hb]
    split <;> rfl
  | parse hb => exact setPhase_settled (by rw [hb]; rfl) hc
  | parseDone hb => exact setPhase_settled (by rw [hb]; rfl) hc
  | stamp hb => exact setPhase_settled (by rw [hb]; rfl) hc
  | opened hb => exact setPhase_settled (by rw [hb]; rfl) hc
  | fail hb =>
    refine setPhase_settled ?_ hc
    simp only [List.mem_cons, List.not_mem_nil, or_false] at hb
    rcases hb with hb | hb | hb | hb <;> rw [hb] <;> rfl
  | parseFailed hb =>
    refine setPhase_settled (s := s.dropXml) ?_ hc
    rcases hb with hb | ⟨i, content, hb⟩
    · exact congrArg Phase.settled hb
    · exact congrArg Phase.settled hb
  | evict hb => exact setPhase_settled (by rw [hb]; rfl) hc
  | deliver hb => exact setPhase_settled (by rw [hb]; rfl) hc
  | _ => rfl

/-- A build whose database is open stays where it is. -/
theorem step_opened {s t : State} {a : Action} (hstep : step s a = some t) (hs : Chain object s)
    {c : ℕ} (hc : (s.builds c).phase = .opened) : (t.builds c).phase = .opened := by
  have hnew : c ≠ s.started := by
    rintro rfl
    exact absurd (hc.symm.trans ((hs.unstarted_iff _).mpr le_rfl)) (by simp)
  exact (step_settled hstep hnew (by rw [hc]; rfl)).trans hc

/-- A lookup that goes on keeps its build. -/
theorem map_build_set {ls : List Lookup} {l b : ℕ} {phase phase' : LookupPhase}
    (h : ls[l]? = some ⟨b, phase⟩) : (ls.set l ⟨b, phase'⟩).map Lookup.build =
      ls.map Lookup.build := by
  have hb : (ls.map Lookup.build)[l]? = some b := by simp [h]
  obtain ⟨hlt, hget⟩ := List.getElem?_eq_some_iff.mp hb
  calc (ls.set l ⟨b, phase'⟩).map Lookup.build
      = (ls.map Lookup.build).set l (ls.map Lookup.build)[l] := by rw [List.map_set, hget]
    _ = ls.map Lookup.build := List.set_getElem_self hlt

theorem attended_set {s : State} (hs : Attended s) {l b : ℕ} {phase phase' : LookupPhase}
    (hl : s.lookups[l]? = some ⟨b, phase⟩) (hopened : (s.builds b).phase = .opened)
    (hfailed : phase' ≠ .failed) : Attended { s with lookups := s.lookups.set l ⟨b, phase'⟩ } := by
  refine ⟨?_, ?_⟩
  · intro c hc
    rw [map_build_set hl]
    exact hs.looked c hc
  · intro x hx
    rcases List.mem_or_eq_of_mem_set hx with hx | rfl
    · exact hs.lookups x hx
    · exact ⟨(hs.lookups _ (List.mem_of_getElem? hl)).1, hfailed, fun _ => hopened⟩

/-- Steps of the builds, none of which is new. -/
theorem attended_of_builds {s t : State} (hs : Attended s) (hlookups : t.lookups = s.lookups)
    (hstarted : t.started = s.started)
    (hopened : ∀ {c}, (s.builds c).phase = .opened → (t.builds c).phase = .opened) :
    Attended t := by
  refine ⟨?_, ?_⟩
  · intro c hc
    rw [hlookups]
    exact hs.looked c (hstarted ▸ hc)
  · intro l hl
    obtain ⟨hlt, hfailed, hold⟩ := hs.lookups l (hlookups ▸ hl)
    exact ⟨hstarted ▸ hlt, hfailed, fun h => hopened (hold h)⟩

/-- A lookup awaits a build, the last one or a new one. -/
theorem attended_await {s t : State} {b : ℕ} (hs : Attended s)
    (hopened : ∀ {c}, (s.builds c).phase = .opened → (t.builds c).phase = .opened)
    (hlookups : t.lookups = s.lookups ++ [⟨b, .awaiting⟩]) (hb : b < t.started)
    (hle : s.started ≤ t.started) (hnew : ∀ c, c < t.started → c < s.started ∨ c = b) :
    Attended t := by
  refine ⟨?_, ?_⟩
  · intro c hc
    rw [hlookups, List.map_append]
    rcases hnew c hc with h | h
    · exact List.mem_append_left _ (hs.looked c h)
    · exact List.mem_append_right _ (by simp [h])
  · intro l hl
    rw [hlookups] at hl
    rcases List.mem_append.mp hl with hl | hl
    · obtain ⟨hlt, hfailed, hold⟩ := hs.lookups l hl
      exact ⟨lt_of_lt_of_le hlt hle, hfailed, fun h => hopened (hold h)⟩
    · rw [List.mem_singleton.mp hl]
      exact ⟨hb, by simp, fun h => absurd rfl h⟩

theorem step_attended {s t : State} {a : Action} (hstep : step s a = some t)
    (hcalm : Calm object a) (hchain : Chain object s) (hs : Attended s) : Attended t := by
  have hopened : ∀ {c}, (s.builds c).phase = .opened → (t.builds c).phase = .opened :=
    fun hc => step_opened hstep hchain hc
  cases step_cases hstep with
  | join hmemo =>
    obtain rfl := hcalm
    have hlast := hchain.memo_last hmemo
    exact attended_await hs hopened rfl (hlast ▸ Nat.lt_succ_self _) le_rfl fun c hc => .inl hc
  | supersede =>
    exact attended_await hs hopened rfl (Nat.lt_succ_self _) (Nat.le_succ _)
      fun c hc => Nat.lt_succ_iff_lt_or_eq.mp hc
  | first =>
    exact attended_await hs hopened rfl (Nat.lt_succ_self _) (Nat.le_succ _)
      fun c hc => Nat.lt_succ_iff_lt_or_eq.mp hc
  | error _ hb => exact absurd hb (hchain.sound _ _)
  | query hl hb => exact attended_set hs hl hb (by simp)
  | answered hl =>
    have hopen := (hs.lookups _ (List.mem_of_getElem? hl)).2.2 (by simp)
    exact attended_set hs hl hopen (by simp)
  | _ => exact attended_of_builds hs rfl rfl hopened

/-! ### Parses -/

/-- How many parses a build has begun at most. -/
def Phase.parses : Phase → ℕ
  | .parsing _ _ | .parsed | .opening | .opened => 1
  | _ => 0

theorem parses_setPhase {s : State} {b : ℕ} {phase : Phase}
    (h : (s.builds b).phase.parses ≤ phase.parses) (c : ℕ) :
    (s.builds c).phase.parses ≤ ((s.setPhase b phase).builds c).phase.parses := by
  rw [setPhase_phase]
  split
  · next hc =>
    rw [hc]
    exact h
  · exact le_rfl

theorem step_started {s t : State} {a : Action} (hstep : step s a = some t) :
    s.started ≤ t.started := by
  cases step_cases hstep with
  | supersede => exact Nat.le_succ _
  | first => exact Nat.le_succ _
  | _ => exact le_rfl

/-- While there is one build, each parse is one of its own. -/
theorem step_parses {s t : State} {a : Action} (hstep : step s a = some t)
    (hcalm : Calm object a) (hs : Chain object s) (hlone : t.started ≤ 1) :
    (s.builds 0).phase.parses + (if a.isParse then 1 else 0) ≤ (t.builds 0).phase.parses := by
  cases step_cases hstep with
  | supersede hmemo =>
    obtain rfl := hcalm
    have hlast := hs.memo_last hmemo
    have hlone' : s.started + 1 ≤ 1 := hlone
    omega
  | first hmemo =>
    obtain rfl := hcalm
    rw [(hs.unstarted_iff 0).mpr (hs.started_zero hmemo).le]
    exact Nat.zero_le _
  | @close b c hb hc hopened =>
    obtain rfl := (chain_close hs hb hc hopened).1
    rw [closeSuperseded_phase, if_neg (Nat.succ_ne_zero c).symm]
    exact le_rfl
  | ignore _ _ hfailed => exact absurd hfailed (hs.sound _ _)
  | @closed b hb => exact parses_setPhase (by rw [hb]; exact Nat.zero_le _) 0
  | decompress hb => exact parses_setPhase (by rw [hb]; exact Nat.zero_le _) 0
  | materialized hb =>
    refine parses_setPhase ?_ 0
    rw [hb]
    split <;> exact Nat.zero_le _
  | @parse b content hb =>
    -- there is no other build
    have hb0 : b = 0 := by
      by_contra hne
      have hunstarted := (hs.unstarted_iff b).mpr (le_trans hlone (Nat.one_le_iff_ne_zero.mpr hne))
      exact absurd (hb.symm.trans hunstarted) (by simp)
    rw [hb0] at hb ⊢
    rw [setPhase_phase, if_pos rfl, hb]
    exact le_rfl
  | parseDone hb => exact parses_setPhase (by rw [hb]; exact le_rfl) 0
  | stamp hb => exact parses_setPhase (by rw [hb]; exact le_rfl) 0
  | opened hb => exact parses_setPhase (by rw [hb]; exact le_rfl) 0
  | fail => exact hcalm.elim
  | parseFailed => exact hcalm.elim
  | evict hb => exact absurd hb (hs.sound _ _)
  | deliver hb => exact absurd hb (hs.sound _ _)
  | _ => exact le_rfl

theorem run_parses {files : Files} {source : SourceId} {gz : Bool} {s : State} {as : List Action}
    (h : Machine.run step (init files source gz) as = some s) (hcalm : ∀ a ∈ as, Calm object a) :
    Chain object s ∧ Attended s ∧
      (s.started ≤ 1 → as.countP Action.isParse ≤ (s.builds 0).phase.parses) := by
  refine Machine.run_invariant_history (I := fun before s => Chain object s ∧ Attended s ∧
    (s.started ≤ 1 → before.countP Action.isParse ≤ (s.builds 0).phase.parses))
    (fun before s a t ha hstep hs => ?_) h
    ⟨init_chain files source gz, init_attended files source gz, fun _ => Nat.zero_le _⟩
  obtain ⟨hchain, hattended, hcount⟩ := hs
  refine ⟨step_chain hstep (hcalm a ha) hchain, step_attended hstep (hcalm a ha) hchain hattended,
    ?_⟩
  intro hlone
  have hbefore := hcount (le_trans (step_started hstep) hlone)
  have hstepParses := step_parses hstep (hcalm a ha) hchain hlone
  rw [List.countP_append, List.countP_singleton]
  omega

/-! ### Going on without further lookups -/

/-- How far a build is from its database. -/
def Phase.rank : Phase → ℕ
  | .closing => 7
  | .materializing => 6
  | .materialized => 5
  | .listening => 4
  | .parsing _ _ => 3
  | .parsed => 2
  | .opening => 1
  | _ => 0

/-- `u` comes after `s` by steps of the build `b`. -/
structure Works (object b : ℕ) (s u : State) : Prop where
  run : ∃ bs, (∀ a ∈ bs, Calm object a ∧ a.isLookup = false) ∧ Machine.run step s bs = some u
  lookups : u.lookups = s.lookups
  started : u.started = s.started
  others : ∀ c, c ≠ b → u.builds c = s.builds c

theorem works_refl (object b : ℕ) (s : State) : Works object b s s :=
  ⟨⟨[], by simp, rfl⟩, rfl, rfl, fun _ _ => rfl⟩

theorem Works.trans {b : ℕ} {s t u : State} (h : Works object b s t) (h' : Works object b t u) :
    Works object b s u := by
  obtain ⟨bs, hbs, hrun⟩ := h.run
  obtain ⟨cs, hcs, hrun'⟩ := h'.run
  refine ⟨⟨bs ++ cs, ?_, Machine.run_append_eq_some.mpr ⟨t, hrun, hrun'⟩⟩,
    h'.lookups.trans h.lookups, h'.started.trans h.started,
    fun c hc => (h'.others c hc).trans (h.others c hc)⟩
  intro a ha
  rcases List.mem_append.mp ha with ha | ha
  · exact hbs a ha
  · exact hcs a ha

/-- One step of the build `b`, to this phase. -/
theorem works_step {b : ℕ} {s : State} {a : Action} {phase : Phase} {files : Files}
    (hstep : step s a = some { s.setPhase b phase with files := files }) (hcalm : Calm object a)
    (hlookup : a.isLookup = false) :
    Works object b s { s.setPhase b phase with files := files } := by
  refine ⟨⟨[a], ?_, ?_⟩, rfl, rfl, ?_⟩
  · intro x hx
    rw [List.mem_singleton.mp hx]
    exact ⟨hcalm, hlookup⟩
  · rw [Machine.run_singleton]
    exact hstep
  · intro c hc
    exact Function.update_of_ne hc _ _

/-- A build that works can take a step. -/
theorem works_next (object : ℕ) {s : State} {b : ℕ} (hfetched : Fetched s (s.builds b).phase)
    (hworks : 0 < (s.builds b).phase.rank) :
    ∃ phase files, Works object b s { s.setPhase b phase with files := files } ∧
      Fetched { s with files := files } phase ∧ (phase = .opened ∨ 0 < phase.rank) ∧
      phase.rank < (s.builds b).phase.rank := by
  -- from any phase in which there is work, the next step of the build is enabled
  cases hphase : (s.builds b).phase with
  | unstarted => simp [hphase, Phase.rank] at hworks
  | superseding => simp [hphase, Phase.rank] at hworks
  | opened => simp [hphase, Phase.rank] at hworks
  | failed delivered => simp [hphase, Phase.rank] at hworks
  | closing =>
    have hstep : step s (.closed b) = some (s.proceed b) := if_pos hphase
    refine ⟨_, s.files, works_step hstep trivial rfl, ?_, .inr ?_, ?_⟩ <;> split <;>
      simp [Phase.rank, Fetched]
  | materializing =>
    cases hgz : s.gz with
    | false =>
      have hstep : step s (.materialized b) = some { s.setPhase b .listening with
          files := { s.files with dbPath := none } } := by
        simp [step, hphase, hgz]
      exact ⟨_, _, works_step hstep trivial rfl, by simp [Fetched], by simp [Phase.rank],
        by simp [Phase.rank]⟩
    | true =>
      have hstep : step s (.decompress b) = some { s.setPhase b .materialized with
          files := { s.files with xml := some s.source } } := by
        simp [step, hphase, hgz]
      exact ⟨_, _, works_step hstep trivial rfl, by simp [Fetched], by simp [Phase.rank],
        by simp [Phase.rank]⟩
  | materialized =>
    rw [hphase] at hfetched
    have hstep : step s (.materialized b) = some { s.setPhase b .listening with
        files := { s.files with dbPath := none } } := by
      simp [step, hphase, hfetched.1]
    exact ⟨_, _, works_step hstep trivial rfl, fun _ => hfetched.2, by simp [Phase.rank],
      by simp [Phase.rank]⟩
  | listening =>
    -- there is an XML to parse: the file itself, or what was decompressed
    have hxml : ∃ content, s.xml = some content := by
      rw [hphase] at hfetched
      cases hgz : s.gz with
      | false => exact ⟨s.source, by simp [State.xml, hgz]⟩
      | true => simpa [State.xml, hgz] using Option.ne_none_iff_exists'.mp (hfetched hgz)
    obtain ⟨content, hcontent⟩ := hxml
    have hstep : step s (.parse b) = some { s.setPhase b (.parsing s.files.openDb.1 content) with
        files := s.files.openDb.2 } := by
      simp [step, hphase, hcontent]
    exact ⟨_, _, works_step hstep trivial rfl, trivial, by simp [Phase.rank], by simp [Phase.rank]⟩
  | parsing i content =>
    have hstep : step s (.parseDone b) = some { s.setPhase b .parsed with
        files := s.files.finishDb i content } := by
      simp [step, hphase]
    exact ⟨_, _, works_step hstep trivial rfl, trivial, by simp [Phase.rank], by simp [Phase.rank]⟩
  | parsed =>
    have hstep : step s (.stamp b .whole) = some { s.setPhase b .opening with
        files := { s.dropXml.files with
          stamp := stampCatalogSource s.files.stamp (some s.source) .whole } } := if_pos hphase
    exact ⟨_, _, works_step hstep rfl rfl, trivial, by simp [Phase.rank], by simp [Phase.rank]⟩
  | opening =>
    have hstep : step s (.opened b) = some (s.setPhase b .opened) := if_pos hphase
    exact ⟨_, s.files, works_step hstep trivial rfl, trivial, .inl rfl, by simp [Phase.rank]⟩

/-- A build that need not wait opens its database. -/
theorem works_opened (object : ℕ) {s : State} {b : ℕ} (hfetched : Fetched s (s.builds b).phase)
    (hworks : (s.builds b).phase = .opened ∨ 0 < (s.builds b).phase.rank) :
    ∃ u, Works object b s u ∧ (u.builds b).phase = .opened := by
  -- on what the build has left to do
  induction hrank : (s.builds b).phase.rank using Nat.strongRecOn generalizing s with
  | ind n ih =>
    rcases hworks with hopened | hworks
    · exact ⟨s, works_refl object b s, hopened⟩
    · obtain ⟨phase, files, hnext, hfetched', hphase, hlt⟩ := works_next object hfetched hworks
      have hself : ((s.setPhase b phase).builds b).phase = phase := by
        rw [setPhase_phase, if_pos rfl]
      obtain ⟨u, hu, hdone⟩ := ih phase.rank (hrank ▸ hlt)
        (s := { s.setPhase b phase with files := files })
        (show Fetched _ ((s.setPhase b phase).builds b).phase by
          rw [hself]
          exact hfetched'.congr rfl rfl)
        (show ((s.setPhase b phase).builds b).phase = .opened ∨
            0 < ((s.setPhase b phase).builds b).phase.rank by rwa [hself])
        (show ((s.setPhase b phase).builds b).phase.rank = phase.rank by rw [hself])
      exact ⟨u, hnext.trans hu, hdone⟩

/-- A build of the chain that need not wait. -/
theorem Chain.works {s : State} (hs : Chain object s) {b : ℕ}
    (hwaits : (s.builds b).phase.waits = false) :
    (s.builds b).phase = .opened ∨ 0 < (s.builds b).phase.rank := by
  cases hphase : (s.builds b).phase with
  | unstarted => simp [hphase, Phase.waits] at hwaits
  | superseding => simp [hphase, Phase.waits] at hwaits
  | opened => exact .inl rfl
  | failed delivered => exact absurd hphase (hs.sound b delivered)
  | _ => exact .inr (by simp [Phase.rank])

/-- The lookup after these is answered. -/
theorem run_answer (object : ℕ) {s : State} {before after : List Lookup} {l : Lookup}
    (hlookups : s.lookups = before ++ l :: after) (hopened : (s.builds l.build).phase = .opened)
    (hfailed : l.phase ≠ .failed) :
    ∃ bs, (∀ a ∈ bs, Calm object a ∧ a.isLookup = false) ∧
      Machine.run step s bs = some { s with lookups := before ++ ⟨l.build, .done⟩ :: after } := by
  have hanswer : ∀ {s : State}, s.lookups = before ++ ⟨l.build, .querying⟩ :: after →
      step s (.answered before.length) =
        some { s with lookups := before ++ ⟨l.build, .done⟩ :: after } := by
    intro s hlookups
    simp [step, hlookups]
  obtain ⟨b, phase⟩ := l
  cases phase with
  | awaiting =>
    have hresume : step s (.resume before.length) =
        some { s with lookups := before ++ ⟨b, .querying⟩ :: after } := by
      simp [step, hlookups, hopened]
    refine ⟨[.resume before.length, .answered before.length], by simp [Calm, Action.isLookup], ?_⟩
    rw [Machine.run_cons, hresume, Option.bind_some, Machine.run_singleton]
    exact hanswer rfl
  | querying =>
    refine ⟨[.answered before.length], by simp [Calm, Action.isLookup], ?_⟩
    rw [Machine.run_singleton]
    exact hanswer hlookups
  | done => exact ⟨[], by simp, by rw [← hlookups]; rfl⟩
  | failed => exact absurd rfl hfailed

theorem run_answers {s : State} (before after : List Lookup)
    (hlookups : s.lookups = before ++ after) (hdone : ∀ l ∈ before, l.phase = .done)
    (hopened : ∀ l ∈ after, (s.builds l.build).phase = .opened ∧ l.phase ≠ .failed) :
    CanFinish object s := by
  -- one lookup after the other
  induction after generalizing s before with
  | nil =>
    refine ⟨[], s, by simp, rfl, fun l hl => hdone l ?_⟩
    rwa [hlookups, List.append_nil] at hl
  | cons l after ih =>
    obtain ⟨hl, hfailed⟩ := hopened l List.mem_cons_self
    obtain ⟨bs, hbs, hrun⟩ := run_answer object hlookups hl hfailed
    have hdone' : ∀ x ∈ before ++ [⟨l.build, .done⟩], x.phase = .done := by
      intro x hx
      rcases List.mem_append.mp hx with hx | hx
      · exact hdone x hx
      · rw [List.mem_singleton.mp hx]
    obtain ⟨cs, u, hcs, hrun', hu⟩ := ih (before ++ [⟨l.build, .done⟩])
      (s := { s with lookups := before ++ ⟨l.build, .done⟩ :: after }) (by simp) hdone'
      (fun x hx => hopened x (List.mem_cons_of_mem l hx))
    refine ⟨bs ++ cs, u, ?_, Machine.run_append_eq_some.mpr ⟨_, hrun, hrun'⟩, hu⟩
    intro a ha
    rcases List.mem_append.mp ha with ha | ha
    · exact hbs a ha
    · exact hcs a ha

theorem canFinish_of_run {s u : State} {bs : List Action}
    (hbs : ∀ a ∈ bs, Calm object a ∧ a.isLookup = false) (hrun : Machine.run step s bs = some u)
    (hu : CanFinish object u) : CanFinish object s := by
  obtain ⟨cs, v, hcs, hrun', hv⟩ := hu
  refine ⟨bs ++ cs, v, ?_, Machine.run_append_eq_some.mpr ⟨u, hrun, hrun'⟩, hv⟩
  intro a ha
  rcases List.mem_append.mp ha with ha | ha
  · exact hbs a ha
  · exact hcs a ha

/-- With one build there is nothing that keeps a lookup from its answer. -/
theorem lone_canFinish {s : State} (hs : Chain object s) (hattended : Attended s)
    (hlone : s.started ≤ 1) : CanFinish object s := by
  have hzero : ∀ l ∈ s.lookups, l.build = 0 := fun l hl => by
    have hlt := (hattended.lookups l hl).1
    omega
  by_cases hstarted : s.started = 0
  · refine run_answers [] s.lookups rfl (by simp) fun l hl => ?_
    have hlt := (hattended.lookups l hl).1
    omega
  · have hwaits : (s.builds 0).phase.waits = false := by
      have hne : (s.builds 0).phase ≠ .unstarted :=
        fun h => hstarted (Nat.le_zero.mp ((hs.unstarted_iff 0).mp h))
      have hfirst := hs.first.1
      cases hphase : (s.builds 0).phase <;> first | rfl | contradiction
    obtain ⟨u, hworks, hopened⟩ := works_opened object (hs.fetched 0) (hs.works hwaits)
    obtain ⟨bs, hbs, hrun⟩ := hworks.run
    refine canFinish_of_run hbs hrun (run_answers [] u.lookups rfl (by simp) ?_)
    intro l hl
    rw [hworks.lookups] at hl
    rw [hzero l hl]
    exact ⟨hopened, (hattended.lookups l hl).2.1⟩

/-! ### Every run -/

theorem step_lone {s t : State} {a : Action} (hstep : step s a = some t) (hcalm : Calm object a)
    (hjoins : Joins s a) (hs : Chain object s) (hlone : s.started ≤ 1) : t.started ≤ 1 := by
  cases step_cases hstep with
  | supersede hmemo hstale =>
    exact absurd (hstale.symm.trans (hjoins (by simp [hmemo]))) (by simp)
  | first hmemo =>
    obtain rfl := hcalm
    exact Nat.succ_le_succ (hs.started_zero hmemo).le
  | _ => exact hlone

/-- A lookup that does not join starts a second build. -/
theorem step_second {s t : State} {a : Action} (hstep : step s a = some t) (hcalm : Calm object a)
    (hjoins : ¬ Joins s a) (hs : Chain object s) : 1 < t.started := by
  cases step_cases hstep with
  | join _ hcurrent => exact absurd (fun _ => hcurrent) hjoins
  | supersede hmemo =>
    obtain rfl := hcalm
    have hlast := hs.memo_last hmemo
    have hsucc : 1 < s.started + 1 := by omega
    exact hsucc
  | first hmemo => exact absurd (fun h => absurd hmemo h) hjoins
  | _ => exact absurd trivial hjoins

/-- With one build the lookups have what they are promised. -/
theorem lone_served {s : State} {as : List Action} (hs : Chain object s) (hattended : Attended s)
    (hlone : s.started ≤ 1) (hcount : as.countP Action.isParse ≤ (s.builds 0).phase.parses) :
    Served as s := by
  have hkept : ∀ l ∈ s.lookups, (s.builds l.build).closedBy = none := by
    intro l hl
    have hlt := (hattended.lookups l hl).1
    rw [hs.closedBy, hs.waits_of_le (by omega), if_pos rfl]
  refine ⟨hcount.trans ?_, fun l hl => (hattended.lookups l hl).2.1, ?_, hkept⟩
  · cases (s.builds 0).phase <;> simp [Phase.parses]
  · intro l hl hquerying
    exact ⟨(hattended.lookups l hl).2.2 (by simp [hquerying]), hkept l hl⟩

/-- A second build closes the database of the first one in the end. -/
theorem closes_of_second {s : State} (hs : Chain object s) (hsecond : 1 < s.started) :
    ∃ bs u, (∀ a ∈ bs, Calm object a ∧ a.isLookup = false) ∧ Machine.run step s bs = some u ∧
      u.lookups = s.lookups ∧ (u.builds 0).closedBy = some 1 := by
  have hzero : (s.builds 0).phase.waits = false := by
    have hne : (s.builds 0).phase ≠ .unstarted := fun h => by
      have hle := (hs.unstarted_iff 0).mp h
      omega
    have hfirst := hs.first.1
    cases hphase : (s.builds 0).phase <;> first | rfl | contradiction
  cases hone : (s.builds 1).phase.waits with
  | false =>
    refine ⟨[], s, by simp, rfl, rfl, ?_⟩
    rw [hs.closedBy, hone]
    rfl
  | true =>
    -- the first build can come to its end, and the second one is waiting for it
    obtain ⟨u, hworks, hopened⟩ := works_opened object (hs.fetched 0) (hs.works hzero)
    obtain ⟨bs, hbs, hrun⟩ := hworks.run
    have hsame : u.builds 1 = s.builds 1 := hworks.others 1 Nat.one_ne_zero
    have hphase : (u.builds 1).phase = .superseding := by
      have hne : (s.builds 1).phase ≠ .unstarted := fun h => by
        have hle := (hs.unstarted_iff 1).mp h
        omega
      rw [hsame]
      cases hphase : (s.builds 1).phase <;>
        first | rfl | contradiction | simp [hphase, Phase.waits] at hone
    have hsuperseded : (u.builds 1).superseded = some 0 := hsame ▸ hs.superseded 0 hsecond
    have hstep : step u (.superseded 1) = some (u.closeSuperseded 1 0) := by
      simp [step, hphase, hsuperseded, hopened]
    refine ⟨bs ++ [.superseded 1], u.closeSuperseded 1 0, ?_, ?_, hworks.lookups, ?_⟩
    · intro a ha
      rcases List.mem_append.mp ha with ha | ha
      · exact hbs a ha
      · rw [List.mem_singleton.mp ha]
        exact ⟨trivial, rfl⟩
    · exact Machine.run_append_eq_some.mpr ⟨u, hrun, by rwa [Machine.run_singleton]⟩
    · rw [closeSuperseded_closedBy, if_pos rfl]

/-- However the run of `as` goes on without further lookups, in every state it
comes through the lookups have what they are promised. -/
def Promised (object : ℕ) (s₀ : State) (as : List Action) : Prop :=
  ∀ bs, (∀ a ∈ bs, Calm object a ∧ a.isLookup = false) →
    ∀ before after u, as ++ bs = before ++ after → Machine.run step s₀ before = some u →
      Served before u ∧ CanFinish object u

/-- **Lookups** of one key are served by one parse, with databases that stay open,
if and only if each lookup that finds the key memoised finds the database up to
date as well. -/
theorem served_iff_joins {files : Files} {source : SourceId} {gz : Bool} {s : State}
    {as : List Action} (h : Machine.run step (init files source gz) as = some s)
    (hcalm : ∀ a ∈ as, Calm object a) :
    Promised object (init files source gz) as ↔
      ∀ s a t, Machine.Takes step (init files source gz) as s a t → Joins s a := by
  constructor
  · intro hpromised s' a t' htakes
    by_contra hjoins
    obtain ⟨hchain, hattended, -⟩ := run_parses h hcalm
    -- the lookup that does not join makes a second build, and builds stay
    have hsecond : 1 < s.started := by
      obtain ⟨after, hafter⟩ := htakes.run_after h
      have hmono : t'.started ≤ s.started := Machine.run_invariant
        (I := fun u => t'.started ≤ u.started)
        (fun hstep hle => hle.trans (step_started hstep)) hafter le_rfl
      obtain ⟨before, rest, rfl, hbefore, hstep⟩ := htakes
      have hchain' := (run_parses hbefore fun x hx => hcalm x (List.mem_append_left _ hx)).1
      exact lt_of_lt_of_le (step_second hstep (hcalm _ (by simp)) hjoins hchain') hmono
    obtain ⟨bs, u, hbs, hrun, hlookups, hclosed⟩ := closes_of_second hchain hsecond
    obtain ⟨hserved, -⟩ := hpromised bs hbs (as ++ bs) [] u (by simp)
      (Machine.run_append_eq_some.mpr ⟨s, h, hrun⟩)
    -- the first build has a lookup, and its database is closed
    obtain ⟨l, hl, hbuild⟩ := List.mem_map.mp (hattended.looked 0 (by omega))
    have hkept := hserved.kept l (hlookups ▸ hl)
    rw [hbuild, hclosed] at hkept
    exact absurd hkept (by simp)
  · intro hjoins bs hbs before after u hsplit hrun
    have hcalm' : ∀ a ∈ before, Calm object a := by
      intro a ha
      have hmem : a ∈ as ++ bs := hsplit ▸ List.mem_append_left _ ha
      rcases List.mem_append.mp hmem with h | h
      · exact hcalm a h
      · exact (hbs a h).1
    -- what the run goes on with has no lookups
    have hjoins' : ∀ s a t, Machine.Takes step (init files source gz) before s a t → Joins s a := by
      intro s a t htakes
      rcases (hsplit ▸ htakes.append after).of_append with h | h
      · exact hjoins s a t h
      · cases a with
        | lookup o => exact absurd (hbs _ h).2 (by simp [Action.isLookup])
        | _ => trivial
    obtain ⟨hchain, hattended, hcount⟩ := run_parses hrun hcalm'
    have hlone : Chain object u ∧ u.started ≤ 1 :=
      Machine.run_invariant_along (I := fun u => Chain object u ∧ u.started ≤ 1)
        (fun s a t htakes hs => ⟨step_chain htakes.step_eq (hcalm' a htakes.mem) hs.1,
          step_lone htakes.step_eq (hcalm' a htakes.mem) (hjoins' s a t htakes) hs.1 hs.2⟩)
        hrun ⟨init_chain files source gz, Nat.zero_le 1⟩
    exact ⟨lone_served hchain hattended hlone.2 (hcount hlone.2),
      lone_canFinish hchain hattended hlone.2⟩

/-- From a cold cache; the second lookup comes once the database is stamped. -/
def coldLookups : List Action :=
  [.lookup 0, .materialized 0, .parse 0, .parseDone 0, .stamp 0 .whole, .lookup 0, .opened 0,
    .resume 0, .resume 1, .answered 0, .answered 1]

/-- A lookup that finds the key memoised finds the database up to date. -/
def joins (s : State) : Action → Bool
  | .lookup object => (s.memo object).isNone || !s.needsRebuild
  | _ => true

theorem joins_iff {s : State} {a : Action} : joins s a = true ↔ Joins s a := by
  cases a <;> simp [joins, Joins, or_iff_not_imp_left]

/-- Both are answered from the database of the first. -/
theorem served_iff_joins_cold :
    ∃ s, Machine.run step (init .empty deployA false) coldLookups = some s ∧
      s.lookups = [⟨0, .done⟩, ⟨0, .done⟩] ∧
      Promised 0 (init .empty deployA false) coldLookups := by
  have hjoins : Machine.along step joins (init .empty deployA false) coldLookups = true := by
    decide +kernel
  exact ⟨_, rfl, rfl, (served_iff_joins rfl (by simp [coldLookups, Calm])).mpr
    fun s a t htakes => joins_iff.mp (Machine.takes_of_along hjoins s a t htakes)⟩

/-- The second lookup comes while the first one's build has not made a file yet. -/
def overlapping : List Action :=
  [.lookup 0, .lookup 0, .materialized 0, .parse 0, .parseDone 0, .stamp 0 .whole, .opened 0,
    .resume 0, .superseded 1]

theorem overlapping_lookups_close :
    (∀ a ∈ overlapping, Calm 0 a) ∧
    ∃ u, Machine.run step (init .empty deployA false) overlapping = some u ∧
      u.lookups = [⟨0, .querying⟩, ⟨1, .awaiting⟩] ∧ (u.builds 0).closedBy = some 1 ∧
      ¬ Served overlapping u := by
  refine ⟨by simp [overlapping, Calm], _, rfl, rfl, rfl, ?_⟩
  intro h
  exact absurd (h.kept ⟨0, .querying⟩ List.mem_cons_self) (by decide)

end CatalogBuild
