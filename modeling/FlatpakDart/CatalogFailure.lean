/-
Failed builds of a catalog (`lib/src/appstream/catalog.dart`).

The lookups of one key with one `FlatpakAppStream`, while builds fail and the source
changes as it may.

* `step_relay`, `run_relay` — builds work one at a time, each after the one it
  supersedes, and the one memoised is the last one, unless it failed and
  `_openCatalog` was told;
* `entry_stays` — what takes an entry out of the memo;
* `failed_forgotten` — a failure is not replayed, evicts no other build, and does not
  keep the build that supersedes it from its work.
-/
import FlatpakDart.CatalogLookup

open CatalogCache

namespace CatalogBuild

/-! ### One build at a time -/

/-- The steps of lookups with one `FlatpakAppStream`, whatever else happens. -/
def OneObject (object : ℕ) : Action → Prop
  | .lookup o => o = object
  | _ => True

/-- The future has completed. -/
def Phase.over : Phase → Bool
  | .opened | .failed _ => true
  | _ => false

/-- A build waits for the one before it, and the last one is memoised until its
failure is delivered. -/
structure Relay (object : ℕ) (s : State) : Prop where
  unstarted_iff : ∀ b, (s.builds b).phase = .unstarted ↔ s.started ≤ b
  owner : ∀ b, b < s.started → (s.builds b).object = object
  memo : ∀ b, s.memo object = some b → s.started = b + 1 ∧ (s.builds b).phase ≠ .failed true
  evicted : s.memo object = none → ∀ b, b < s.started → (s.builds b).phase.over = true
  order : ∀ b c, b < c → (s.builds c).phase.waits = false → (s.builds b).phase.over = true
  superseding : ∀ b, (s.builds b).phase = .superseding →
    ∃ c, (s.builds b).superseded = some c ∧ b = c + 1
  fetched : ∀ b, Fetched s (s.builds b).phase

variable {object : ℕ}

theorem init_relay (files : Files) (source : SourceId) (gz : Bool) :
    Relay object (init files source gz) where
  unstarted_iff b := by simp [init]
  owner b h := absurd h (by simp [init])
  memo b h := absurd h (by simp [init])
  evicted _ b h := absurd h (by simp [init])
  order b c _ h := absurd h (by simp [init, Phase.waits])
  superseding b h := absurd h (by simp [init])
  fetched b := trivial

theorem Relay.started_of_phase {s : State} (hs : Relay object s) {b : ℕ}
    (hb : (s.builds b).phase ≠ .unstarted) : b < s.started :=
  not_le.mp fun h => hb ((hs.unstarted_iff b).mpr h)

theorem Phase.waits_of_over {p : Phase} (h : p.over = true) : p.waits = false := by
  cases p <;> first | rfl | exact absurd h (by simp [Phase.over])

/-- Only the build that works has fetched anything. -/
theorem Relay.fetched_others {s : State} (hs : Relay object s) {b : ℕ}
    (hwaits : (s.builds b).phase.waits = false) (hover : (s.builds b).phase.over = false)
    (t : State) {c : ℕ} (hne : c ≠ b) : Fetched t (s.builds c).phase := by
  have hother : (s.builds c).phase.waits = true ∨ (s.builds c).phase.over = true := by
    rcases lt_or_gt_of_ne hne with h | h
    · exact .inr (hs.order c b h hwaits)
    · refine .inl ?_
      by_contra hc
      rw [Bool.not_eq_true] at hc
      exact absurd (hover.symm.trans (hs.order b c h hc)) (by simp)
  cases hc : (s.builds c).phase with
  | materialized => simp [hc, Phase.waits, Phase.over] at hother
  | listening => simp [hc, Phase.waits, Phase.over] at hother
  | _ => trivial

/-- A build that waits for nothing any more goes on to another phase. -/
theorem relay_setPhase {s t : State} (hs : Relay object s) {b : ℕ} {p : Phase}
    (hphase : ∀ c, (t.builds c).phase = if c = b then p else (s.builds c).phase)
    (hobject : ∀ c, (t.builds c).object = (s.builds c).object)
    (hsuperseded : ∀ c, (t.builds c).superseded = (s.builds c).superseded)
    (hstarted : t.started = s.started)
    (hmemo : ∀ c, t.memo object = some c → s.memo object = some c ∧ (c = b → p ≠ .failed true))
    (hevicted : t.memo object = none → s.memo object = none ∨ s.memo object = some b ∧ p.over)
    (hb : b < s.started) (hready : ∀ c, c < b → (s.builds c).phase.over = true)
    (hwaits : p.waits = false) (hover : (s.builds b).phase.over = true → p.over = true)
    (hfetched : ∀ c, Fetched t (t.builds c).phase) : Relay object t := by
  constructor
  case unstarted_iff =>
    intro c
    rw [hphase, hstarted]
    split
    · next hc =>
      subst hc
      refine iff_of_false (fun h => ?_) (not_le.mpr hb)
      simp [h, Phase.waits] at hwaits
    · exact hs.unstarted_iff c
  case owner =>
    intro c hc
    rw [hobject]
    exact hs.owner c (hstarted ▸ hc)
  case memo =>
    intro c hc
    obtain ⟨hold, hself⟩ := hmemo c hc
    rw [hstarted, hphase]
    refine ⟨(hs.memo c hold).1, ?_⟩
    split
    · next heq => exact hself heq
    · exact (hs.memo c hold).2
  case evicted =>
    intro hnone c hc
    rw [hstarted] at hc
    rw [hphase]
    -- nothing is in the memo: it was so before, or this build was the last one there
    rcases hevicted hnone with hold | ⟨hold, hpover⟩
    · split
      · next heq => exact hover (heq ▸ hs.evicted hold c hc)
      · exact hs.evicted hold c hc
    · -- the last build is over, so all are
      have hlast := (hs.memo b hold).1
      split
      · exact hpover
      · next hne => exact hready c (by omega)
  case order =>
    intro c d hlt hd
    rw [hphase] at hd ⊢
    by_cases hdb : d = b
    · subst hdb
      rw [if_neg (Nat.ne_of_lt hlt)]
      exact hready c hlt
    · rw [if_neg hdb] at hd
      -- a build that goes on does not wait, so those in front of it are over
      have hold := hs.order c d hlt hd
      split
      · next heq => exact hover (heq ▸ hold)
      · exact hold
  case superseding =>
    intro c hc
    rw [hphase] at hc
    rw [hsuperseded]
    split at hc
    · simp [hc, Phase.waits] at hwaits
    · exact hs.superseding c hc
  case fetched => exact hfetched

/-- The build that works goes on, and may fail. -/
theorem relay_advance {s : State} (hs : Relay object s) {b : ℕ} {p : Phase} {f : Files}
    (hb : (s.builds b).phase.waits = false) (hover : (s.builds b).phase.over = false)
    (hwaits : p.waits = false) (hp : p ≠ .failed true)
    (hfetched : Fetched { s with files := f } p) :
    Relay object { s.setPhase b p with files := f } := by
  have hne : (s.builds b).phase ≠ .unstarted := fun h => by simp [h, Phase.waits] at hb
  refine relay_setPhase hs (setPhase_phase s b · p) (setPhase_object s b · p)
    (setPhase_superseded s b · p) rfl (fun c hc => ⟨hc, fun _ => hp⟩) .inl
    (hs.started_of_phase hne) (fun c hc => hs.order c b hc hb) hwaits
    (fun h => absurd (hover.symm.trans h) (by simp)) fun c => ?_
  show Fetched _ ((s.setPhase b p).builds c).phase
  rw [setPhase_phase]
  split
  · exact hfetched.congr rfl rfl
  · next hc => exact hs.fetched_others hb hover _ hc

/-- A build has nothing to wait for any more, as the one before it is over. -/
theorem relay_ready {s t : State} (hs : Relay object s) {b c : ℕ} {p : Phase}
    (hb : (s.builds b).phase = .superseding) (hsuperseded : (s.builds b).superseded = some c)
    (hc : (s.builds c).phase.over = true)
    (hphase : ∀ d, (t.builds d).phase = if d = b then p else (s.builds d).phase)
    (hobject : ∀ d, (t.builds d).object = (s.builds d).object)
    (hsame : ∀ d, (t.builds d).superseded = (s.builds d).superseded)
    (hstarted : t.started = s.started) (hmemo : t.memo = s.memo) (hgz : t.gz = s.gz)
    (hfiles : t.files = s.files) (hwaits : p.waits = false) (hp : p ≠ .failed true)
    (hfetched : Fetched t p) : Relay object t := by
  obtain ⟨c', hc', rfl⟩ := hs.superseding b hb
  obtain rfl := Option.some_inj.mp (hsuperseded.symm.trans hc')
  refine relay_setPhase hs hphase hobject hsame hstarted (fun d hd => ⟨hmemo ▸ hd, fun _ => hp⟩)
    (fun h => .inl (hmemo ▸ h)) (hs.started_of_phase (by simp [hb])) (fun d hd => ?_) hwaits
    (fun h => by simp [hb, Phase.over] at h) fun d => ?_
  · rcases Nat.lt_succ_iff_lt_or_eq.mp hd with h | rfl
    · exact hs.order d c h (Phase.waits_of_over hc)
    · exact hc
  · rw [hphase]
    split
    · exact hfetched
    · exact (hs.fetched d).congr hgz hfiles

/-- `_openCatalog` is told of a failure, and evicts the build if it is still memoised. -/
theorem relay_deliver {s t : State} (hs : Relay object s) {b : ℕ}
    (hb : (s.builds b).phase = .failed false)
    (hbuilds : t.builds = (s.setPhase b (.failed true)).builds)
    (hstarted : t.started = s.started) (hgz : t.gz = s.gz) (hfiles : t.files = s.files)
    (hmemo : t.memo object = if s.memo object = some b then none else s.memo object) :
    Relay object t := by
  have hlt : b < s.started := hs.started_of_phase (by simp [hb])
  have hphase : ∀ c, (t.builds c).phase = if c = b then .failed true else (s.builds c).phase :=
    fun c => by rw [hbuilds, setPhase_phase]
  refine relay_setPhase hs hphase (fun c => ?_) (fun c => ?_) hstarted ?_ ?_ hlt
    (fun c hc => hs.order c b hc (by rw [hb]; rfl)) rfl (fun _ => rfl) fun c => ?_
  · rw [hbuilds, setPhase_object]
  · rw [hbuilds, setPhase_superseded]
  · intro c hc
    rw [hmemo] at hc
    split at hc
    · exact absurd hc (by simp)
    · next hne =>
      refine ⟨hc, ?_⟩
      rintro rfl
      exact absurd hc hne
  · intro hnone
    rw [hmemo] at hnone
    split at hnone
    · next heq => exact .inr ⟨heq, rfl⟩
    · exact .inl hnone
  · rw [hphase]
    split
    · trivial
    · exact (hs.fetched c).congr hgz hfiles

/-- A lookup starts a build, which supersedes the memoised one or follows builds that
are over. -/
theorem relay_start {s t : State} (hs : Relay object s) (p : Phase) (superseded : Option ℕ)
    (hbuilds : t.builds = Function.update s.builds s.started ⟨object, superseded, p, none⟩)
    (hstarted : t.started = s.started + 1) (hmemo : t.memo object = some s.started)
    (hgz : t.gz = s.gz) (hfiles : t.files = s.files) (hp : p ≠ .unstarted ∧ p ≠ .failed true)
    (hfetched : Fetched t p)
    (hstart : (p = .superseding ∧ ∃ b, s.memo object = some b ∧ superseded = some b) ∨
      (p.waits = false ∧ s.memo object = none)) : Relay object t := by
  have hnew : ∀ c, t.builds c = if c = s.started then ⟨object, superseded, p, none⟩
      else s.builds c := by
    intro c
    rw [hbuilds, Function.update_apply]
  constructor
  case unstarted_iff =>
    intro c
    rw [hnew, hstarted]
    split
    · next hc => exact iff_of_false hp.1 (by omega)
    · next hc =>
      rw [hs.unstarted_iff]
      omega
  case owner =>
    intro c hc
    rw [hnew]
    split
    · rfl
    · exact hs.owner c (by omega)
  case memo =>
    intro c hc
    obtain rfl := Option.some_inj.mp (hmemo.symm.trans hc)
    rw [hnew, if_pos rfl]
    exact ⟨hstarted, hp.2⟩
  case evicted => exact fun hnone => absurd (hmemo.symm.trans hnone) (by simp)
  case order =>
    intro c d hlt hd
    rw [hnew] at hd ⊢
    split at hd
    · next hds =>
      subst hds
      rw [if_neg (Nat.ne_of_lt hlt)]
      -- it waits for nothing, so nothing is memoised
      rcases hstart with ⟨rfl, -⟩ | ⟨-, hnone⟩
      · simp [Phase.waits] at hd
      · exact hs.evicted hnone c hlt
    · have hlt' : d < s.started := hs.started_of_phase fun h => by simp [h, Phase.waits] at hd
      rw [if_neg (by omega)]
      exact hs.order c d hlt hd
  case superseding =>
    intro c hc
    rw [hnew] at hc ⊢
    split at hc
    · next hcs =>
      rcases hstart with ⟨-, b, hmemo, rfl⟩ | ⟨hwaits, -⟩
      · rw [if_pos hcs]
        exact ⟨b, rfl, hcs.trans (hs.memo b hmemo).1⟩
      · have hsuperseding : p = .superseding := hc
        simp [hsuperseding, Phase.waits] at hwaits
    · next hcs =>
      rw [if_neg hcs]
      exact hs.superseding c hc
  case fetched =>
    intro c
    rw [hnew]
    split
    · exact hfetched
    · exact (hs.fetched c).congr hgz hfiles

theorem Relay.congr {s t : State} (hs : Relay object s) (hbuilds : t.builds = s.builds)
    (hstarted : t.started = s.started) (hmemo : t.memo = s.memo) (hgz : t.gz = s.gz)
    (hfiles : t.files = s.files) : Relay object t := by
  constructor
  case unstarted_iff =>
    rw [hbuilds, hstarted]
    exact hs.unstarted_iff
  case owner =>
    rw [hbuilds, hstarted]
    exact hs.owner
  case memo =>
    rw [hbuilds, hstarted, hmemo]
    exact hs.memo
  case evicted =>
    rw [hbuilds, hstarted, hmemo]
    exact hs.evicted
  case order =>
    rw [hbuilds]
    exact hs.order
  case superseding =>
    rw [hbuilds]
    exact hs.superseding
  case fetched =>
    intro c
    rw [hbuilds]
    exact (hs.fetched c).congr hgz hfiles

/-- **One step** keeps the builds in turn. -/
theorem step_relay {s t : State} {a : Action} (hstep : step s a = some t)
    (hone : OneObject object a) (hs : Relay object s) : Relay object t := by
  cases step_cases hstep with
  | join => exact hs.congr rfl rfl rfl rfl rfl
  -- the lookup is for the one object, and finds its last build
  | @supersede o b hmemo =>
    obtain rfl := hone
    exact relay_start hs .superseding (some b) rfl rfl (Function.update_self ..) rfl rfl
      ⟨by simp, by simp⟩ trivial (.inl ⟨rfl, b, hmemo, rfl⟩)
  | @first o hmemo =>
    obtain rfl := hone
    refine relay_start hs (if s.needsRebuild then .materializing else .opening) none ?_ rfl
      (Function.update_self ..) rfl rfl ?_ ?_ (.inr ⟨?_, hmemo⟩)
    · have hself : (s.start o none).builds s.started = ⟨o, none, .superseding, none⟩ :=
        Function.update_self ..
      show Function.update (s.start o none).builds s.started
        { (s.start o none).builds s.started with phase := _ } = _
      rw [hself]
      exact Function.update_idem ..
    · split <;> simp
    · split <;> trivial
    · split <;> rfl
  | @close b c hb hc hopened =>
    exact relay_ready hs hb hc (by rw [hopened]; rfl) (closeSuperseded_phase s b c)
      (closeSuperseded_object s b c) (closeSuperseded_superseded s b c) rfl rfl rfl rfl rfl
      (by simp) trivial
  -- a failure is waited for like a handle; the build behind it goes on
  | @ignore b c delivered hb hc hfailed =>
    refine relay_ready hs hb hc (by rw [hfailed]; rfl) (setPhase_phase s b · _)
      (setPhase_object s b · _) (setPhase_superseded s b · _) rfl rfl rfl rfl ?_ ?_ ?_
    · split <;> rfl
    · split <;> simp
    · split <;> trivial
  | closed hb =>
    refine relay_advance hs (f := s.files) (by rw [hb]; rfl) (by rw [hb]; rfl) ?_ ?_ ?_
    · split <;> rfl
    · split <;> simp
    · split <;> trivial
  | decompress hb hgz =>
    exact relay_advance hs (by rw [hb]; rfl) (by rw [hb]; rfl) rfl (by simp) ⟨hgz, by simp⟩
  | @materialized b hb =>
    refine relay_advance hs ?_ ?_ rfl (by simp) fun hgz => ?_
    · rw [hb]
      split <;> rfl
    · rw [hb]
      split <;> rfl
    · have hgz' : s.gz = true := hgz
      rw [hgz', if_pos rfl] at hb
      have hfetched := hs.fetched b
      rw [hb] at hfetched
      exact hfetched.2
  | parse hb =>
    exact relay_advance hs (by rw [hb]; rfl) (by rw [hb]; rfl) rfl (by simp) trivial
  | parseDone hb =>
    exact relay_advance hs (by rw [hb]; rfl) (by rw [hb]; rfl) rfl (by simp) trivial
  | stamp hb =>
    exact relay_advance hs (by rw [hb]; rfl) (by rw [hb]; rfl) rfl (by simp) trivial
  | opened hb =>
    exact relay_advance hs (f := s.files) (by rw [hb]; rfl) (by rw [hb]; rfl) rfl (by simp) trivial
  | fail hb =>
    refine relay_advance hs (f := s.files) ?_ ?_ rfl (by simp) trivial <;>
      simp only [List.mem_cons, List.not_mem_nil, or_false] at hb <;>
      rcases hb with hb | hb | hb | hb <;> rw [hb] <;> rfl
  | parseFailed hb =>
    refine relay_advance hs (f := s.dropXml.files) ?_ ?_ rfl (by simp) trivial <;>
      rcases hb with hb | ⟨i, content, hb⟩ <;> rw [hb] <;> rfl
  -- the build is one of the object
  | @evict b hb hmemo =>
    obtain rfl := hs.owner b (hs.started_of_phase (by simp [hb]))
    exact relay_deliver hs hb rfl rfl rfl rfl (by rw [if_pos hmemo]; exact Function.update_self ..)
  | @deliver b hb hmemo =>
    obtain rfl := hs.owner b (hs.started_of_phase (by simp [hb]))
    exact relay_deliver hs hb rfl rfl rfl rfl (by rw [if_neg hmemo]; rfl)
  | query => exact hs.congr rfl rfl rfl rfl rfl
  | error => exact hs.congr rfl rfl rfl rfl rfl
  | answered => exact hs.congr rfl rfl rfl rfl rfl
  | repoint => exact hs.congr rfl rfl rfl rfl rfl

theorem run_relay {files : Files} {source : SourceId} {gz : Bool} {s : State} {as : List Action}
    (h : Machine.run step (init files source gz) as = some s)
    (hone : ∀ a ∈ as, OneObject object a) : Relay object s :=
  Machine.run_invariant_along
    (fun _ _ _ htakes hs => step_relay htakes.step_eq (hone _ htakes.mem) hs) h
    (init_relay files source gz)

/-! ### What stays -/

theorem step_superseded {s t : State} {a : Action} (hstep : step s a = some t) {c : ℕ}
    (hnew : c ≠ s.started) : (t.builds c).superseded = (s.builds c).superseded := by
  cases step_cases hstep with
  | supersede => exact (start_superseded s _ _ c).trans (if_neg hnew)
  | first =>
    exact (setPhase_superseded _ _ c _).trans ((start_superseded s _ _ c).trans (if_neg hnew))
  | close => exact closeSuperseded_superseded s _ _ c
  | join => rfl
  | query => rfl
  | error => rfl
  | answered => rfl
  | repoint => rfl
  | _ => exact setPhase_superseded _ _ c _

/-- Lookups keep their builds; a new one awaits the memoised build or a new one. -/
theorem step_lookups {s t : State} {a : Action} (hstep : step s a = some t) :
    t.lookups.map Lookup.build = s.lookups.map Lookup.build ∨
      ∃ o b, a = .lookup o ∧ t.lookups.map Lookup.build = s.lookups.map Lookup.build ++ [b] ∧
        (b = s.started ∨ s.memo o = some b) := by
  have happend : ∀ b, (s.lookups ++ [(⟨b, .awaiting⟩ : Lookup)]).map Lookup.build =
      s.lookups.map Lookup.build ++ [b] := fun b => List.map_append
  cases step_cases hstep with
  | join hmemo => exact .inr ⟨_, _, rfl, happend _, .inr hmemo⟩
  | supersede => exact .inr ⟨_, _, rfl, happend _, .inl rfl⟩
  | first => exact .inr ⟨_, _, rfl, happend _, .inl rfl⟩
  | query hl => exact .inl (map_build_set hl)
  | error hl => exact .inl (map_build_set hl)
  | answered hl => exact .inl (map_build_set hl)
  | _ => exact .inl rfl

/-- The entry is there, or it went because its build was superseded or failed. -/
def Entry (object c : ℕ) (s : State) : Prop :=
  s.memo object = some c ∨ (s.builds c).phase = .failed true ∨
    ∃ d, c < d ∧ d < s.started ∧ (s.builds d).superseded = some c

theorem step_entry {s t : State} {a : Action} (hstep : step s a = some t)
    (hone : OneObject object a) (hs : Relay object s) {c : ℕ} (hlt : c < s.started)
    (hc : Entry object c s) : Entry object c t := by
  have hmono := step_started hstep
  rcases hc with hmemo | hfailed | ⟨d, hcd, hd, hsuperseded⟩
  · cases step_cases hstep with
    | @supersede o b hmemo' =>
      obtain rfl := hone
      obtain rfl := Option.some_inj.mp (hmemo.symm.trans hmemo')
      refine .inr (.inr ⟨s.started, hlt, Nat.lt_succ_self _, ?_⟩)
      exact (start_superseded s _ _ _).trans (if_pos rfl)
    | @first o hnone =>
      obtain rfl := hone
      exact absurd (hmemo.symm.trans hnone) (by simp)
    | @evict b hb hmemo' =>
      rw [hs.owner b (hs.started_of_phase (by simp [hb]))] at hmemo'
      obtain rfl := Option.some_inj.mp (hmemo.symm.trans hmemo')
      exact .inr (.inl ((setPhase_phase s c c _).trans (if_pos rfl)))
    | _ => exact .inl hmemo
  · refine .inr (.inl ?_)
    rw [step_settled hstep (Nat.ne_of_lt hlt) (by rw [hfailed]; rfl), hfailed]
  · refine .inr (.inr ⟨d, hcd, lt_of_lt_of_le hd hmono, ?_⟩)
    rw [step_superseded hstep (Nat.ne_of_lt hd), hsuperseded]

/-- **An entry stays** until a newer build supersedes it, or it has failed itself. -/
theorem entry_stays {s u : State} {bs : List Action} (hs : Relay object s)
    (hone : ∀ a ∈ bs, OneObject object a) (hrun : Machine.run step s bs = some u) {c : ℕ}
    (hc : s.memo object = some c) : Entry object c u := by
  have hlt : c < s.started := by
    rw [(hs.memo c hc).1]
    exact Nat.lt_succ_self c
  have hall : Relay object u ∧ c < u.started ∧ Entry object c u := by
    refine Machine.run_invariant_along
      (I := fun u => Relay object u ∧ c < u.started ∧ Entry object c u)
      (fun v a t htakes hv => ?_) hrun ⟨hs, hlt, .inl hc⟩
    obtain ⟨hrelay, hlt, hentry⟩ := hv
    have hone' := hone a htakes.mem
    exact ⟨step_relay htakes.step_eq hone' hrelay,
      lt_of_lt_of_le hlt (step_started htakes.step_eq),
      step_entry htakes.step_eq hone' hrelay hlt hentry⟩
  exact hall.2.2

/-- Where a failure has been delivered, no lookup from then on awaits the build. -/
theorem failed_not_awaited {s u : State} {bs : List Action} (hs : Relay object s)
    (hone : ∀ a ∈ bs, OneObject object a) (hrun : Machine.run step s bs = some u) {b : ℕ}
    (hb : (s.builds b).phase = .failed true) :
    ∀ l ∈ u.lookups.drop s.lookups.length, l.build ≠ b := by
  have hall : Relay object u ∧ (u.builds b).phase = .failed true ∧
      ∃ new, u.lookups.map Lookup.build = s.lookups.map Lookup.build ++ new ∧ b ∉ new := by
    refine Machine.run_invariant_along (I := fun u => Relay object u ∧
        (u.builds b).phase = .failed true ∧
        ∃ new, u.lookups.map Lookup.build = s.lookups.map Lookup.build ++ new ∧ b ∉ new)
      (fun v a t htakes hv => ?_) hrun ⟨hs, hb, [], by simp, by simp⟩
    obtain ⟨hrelay, hfailed, new, hnew, hout⟩ := hv
    have hlt : b < v.started := hrelay.started_of_phase (by simp [hfailed])
    refine ⟨step_relay htakes.step_eq (hone a htakes.mem) hrelay, ?_, ?_⟩
    · rw [step_settled htakes.step_eq (Nat.ne_of_lt hlt) (by rw [hfailed]; rfl), hfailed]
    · rcases step_lookups htakes.step_eq with hsame | ⟨o, c, rfl, happend, hc⟩
      · exact ⟨new, hsame.trans hnew, hout⟩
      · refine ⟨new ++ [c], by rw [happend, hnew, List.append_assoc], ?_⟩
        have ho : o = object := hone _ htakes.mem
        -- neither the next build nor the memoised one has failed
        have hne : b ≠ c := by
          rintro rfl
          rcases hc with rfl | hmemo
          · exact lt_irrefl _ hlt
          · exact (hrelay.memo b (ho ▸ hmemo)).2 hfailed
        simpa [hne] using hout
  obtain ⟨-, -, new, hnew, hout⟩ := hall
  intro l hl hbuild
  have hmem : l.build ∈ (u.lookups.map Lookup.build).drop s.lookups.length := by
    rw [← List.map_drop]
    exact List.mem_map_of_mem hl
  rw [hnew, List.drop_left' (by simp)] at hmem
  exact hout (hbuild ▸ hmem)

/-- A build that supersedes a failed one opens its database, unless it has failed
itself. -/
theorem superseding_opens {s : State} (hs : Relay object s) {b c : ℕ} {delivered : Bool}
    (hb : b < s.started) (hsuperseded : (s.builds b).superseded = some c)
    (hc : (s.builds c).phase = .failed delivered) :
    (∃ d, (s.builds b).phase = .failed d) ∨
      ∃ u, Works object b s u ∧ (u.builds b).phase = .opened := by
  cases hphase : (s.builds b).phase with
  | unstarted => exact absurd ((hs.unstarted_iff b).mp hphase) (not_le.mpr hb)
  | failed d => exact .inl ⟨d, rfl⟩
  | superseding =>
    have hstep : step s (.superseded b) = some (s.proceed b) := by
      simp [step, hphase, hsuperseded, hc]
    have hworks : Works object b s (s.proceed b) :=
      @works_step object b s _ _ s.files hstep trivial rfl
    have hself : ((s.proceed b).builds b).phase =
        if s.needsRebuild then .materializing else .opening := by
      rw [State.proceed, setPhase_phase, if_pos rfl]
    obtain ⟨u, hu, hopened⟩ := works_opened object (s := s.proceed b) (b := b)
      (by rw [hself]; split <;> trivial) (by rw [hself]; split <;> simp [Phase.rank])
    exact .inr ⟨u, hworks.trans hu, hopened⟩
  | _ =>
    exact .inr (works_opened object (hs.fetched b) (by simp [hphase, Phase.rank]))

/-- A build that has not begun its work does not fail. -/
theorem superseding_not_fail {s : State} {b : ℕ} (hb : (s.builds b).phase = .superseding) :
    step s (.fail b) = none := by
  simp [step, hb]

/-- A failing build takes no other build out of the memo. -/
theorem failure_keeps_entry {s t : State} {a : Action} {b c : ℕ} (ha : a = .fail b ∨ a = .deliver b)
    (hstep : step s a = some t) (hc : s.memo object = some c) (hne : c ≠ b) :
    t.memo object = some c := by
  cases step_cases hstep with
  | fail => exact hc
  | parseFailed => exact hc
  | deliver => exact hc
  | @evict d hd hmemo =>
    obtain rfl : d = b := by simpa using ha
    refine (Function.update_of_ne ?_ _ _).trans hc
    rintro rfl
    exact hne (Option.some_inj.mp (hc.symm.trans hmemo))
  | _ => simp at ha

/-- **Failed builds are forgotten.**  From any state that lookups with one
`FlatpakAppStream` reach: a lookup that comes after a failure was delivered does not
await the build that failed; a failing build takes no other one out of the memo, which
loses a build only when a newer one supersedes it or it has failed itself; and a build
that supersedes a failed one need not wait, does what a build does that supersedes
nothing, and can open its database unless it fails itself. -/
theorem failed_forgotten {files : Files} {source : SourceId} {gz : Bool} {object : ℕ} {s : State}
    {as : List Action} (h : Machine.run step (init files source gz) as = some s)
    (hone : ∀ a ∈ as, OneObject object a) :
    (∀ b bs u, (s.builds b).phase = .failed true → (∀ a ∈ bs, OneObject object a) →
      Machine.run step s bs = some u → ∀ l ∈ u.lookups.drop s.lookups.length, l.build ≠ b) ∧
    (∀ b c a t, a = .fail b ∨ a = .deliver b → step s a = some t → s.memo object = some c →
      c ≠ b → t.memo object = some c) ∧
    (∀ c bs u, s.memo object = some c → (∀ a ∈ bs, OneObject object a) →
      Machine.run step s bs = some u → Entry object c u) ∧
    ∀ b c delivered, b < s.started → (s.builds b).superseded = some c →
      (s.builds c).phase = .failed delivered →
        ((s.builds b).phase = .superseding →
          step s (.superseded b) = some (s.proceed b) ∧ step s (.fail b) = none) ∧
        ((∃ d, (s.builds b).phase = .failed d) ∨
          ∃ u, Works object b s u ∧ (u.builds b).phase = .opened) := by
  have hs := run_relay h hone
  refine ⟨fun b bs u hb hbs hrun => failed_not_awaited hs hbs hrun hb,
    fun b c a t ha hstep hc hne => failure_keeps_entry ha hstep hc hne,
    fun c bs u hc hbs hrun => entry_stays hs hbs hrun hc, ?_⟩
  intro b c delivered hb hsuperseded hc
  refine ⟨fun hphase => ⟨?_, superseding_not_fail hphase⟩, superseding_opens hs hb hsuperseded hc⟩
  simp [step, hphase, hsuperseded, hc]

/-- The build of the first lookup fails while the one of the second waits for it. -/
def failedBuild : List Action :=
  [.lookup 0, .lookup 0, .fail 0, .deliver 0, .superseded 1]

theorem failed_forgotten_second :
    ∃ s, Machine.run step (init .empty deployA false) failedBuild = some s ∧
      s.memo 0 = some 1 ∧ (s.builds 0).phase = .failed true ∧
      ∃ u, Works 0 1 s u ∧ (u.builds 1).phase = .opened := by
  refine ⟨_, rfl, rfl, rfl, ?_⟩
  have hforgotten := @failed_forgotten .empty deployA false 0 _ failedBuild rfl
    (by simp [failedBuild, OneObject])
  have hsecond := (hforgotten.2.2.2 1 0 true (by decide) rfl rfl).2
  refine hsecond.resolve_left ?_
  rintro ⟨d, hd⟩
  cases hd

end CatalogBuild
