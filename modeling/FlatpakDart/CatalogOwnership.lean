/-
The builds of `CatalogBuild` as owners of databases (`lib/src/appstream/catalog.dart`).

`CatalogBuild` has the builds of one key, with the files they share; `CatalogHandles` has the
databases that builds of any keys open and close.

* `step_shows` — a step of a build with its files is one of the machine of handles, or none;
* `run_shows` — so a run of theirs is a run there;
* `superseded_once` — and over such a run one build closes a database.
-/
import FlatpakDart.CatalogBuild
import FlatpakDart.CatalogHandles

open InsertionOrder

namespace CatalogHandles

/-! ### The builds of one key with their files -/

/-- A build with its files, where it goes on without waiting for another. -/
def Phase.ofBuild : CatalogBuild.Phase → Phase
  | .unstarted => .unstarted
  | .superseding => .superseding
  | .closing => .closing
  | .materializing | .materialized | .listening | .parsing _ _ | .parsed | .opening => .working
  | .opened => .opened
  | .failed delivered => .failed delivered

/-- The memoised builds of several `FlatpakAppStream`s, each under its number. -/
structure Shows (s : CatalogBuild.State) (t : State ℕ) : Prop where
  phase : ∀ b, t.phase b = .ofBuild (s.builds b).phase
  superseded : ∀ b, (s.builds b).phase = .superseding → t.superseded b = (s.builds b).superseded
  started : t.started = s.started
  key : ∀ b, (s.builds b).phase ≠ .unstarted → t.key b = some (s.builds b).object
  memo : ∀ object, t.memo.get object = s.memo object
  /-- a build that has what it supersedes behind it has let it go -/
  released : ∀ b c, (s.builds b).superseded = some c → (s.builds b).phase ≠ .superseding →
    c ∈ t.released

variable {s s' : CatalogBuild.State} {t : State ℕ}

/-- A build goes on, and something may be let go. -/
theorem shows_setPhase (h : Shows s t) {b : ℕ} {p : CatalogBuild.Phase} {r : List ℕ}
    (hb : (s.builds b).phase ≠ .unstarted) (hp : p ≠ .superseding)
    (hr : ∀ c ∈ t.released, c ∈ r)
    (htaken : (s.builds b).phase = .superseding → ∀ c, (s.builds b).superseded = some c → c ∈ r)
    (hstarted : s'.started = s.started)
    (hphase : ∀ c, (s'.builds c).phase = if c = b then p else (s.builds c).phase)
    (hsuperseded : ∀ c, (s'.builds c).superseded = (s.builds c).superseded)
    (hobject : ∀ c, (s'.builds c).object = (s.builds c).object) (hmemo : s'.memo = s.memo) :
    Shows s' ({ t with released := r }.setPhase b (.ofBuild p)) where
  phase c := by
    show Function.update t.phase b _ c = _
    rw [Function.update_apply, hphase]
    split
    · rfl
    · exact h.phase c
  superseded c hc := by
    rw [hphase] at hc
    rw [hsuperseded]
    split at hc
    · exact absurd hc hp
    · exact h.superseded c hc
  started := h.started.trans hstarted.symm
  key c hc := by
    rw [hphase] at hc
    rw [hobject]
    split at hc
    · next hcb => exact h.key c (hcb ▸ hb)
    · exact h.key c hc
  memo object := by
    rw [hmemo]
    exact h.memo object
  released c d hsuper hc := by
    show d ∈ r
    rw [hsuperseded] at hsuper
    rw [hphase] at hc
    split at hc
    · next hcb =>
      subst hcb
      -- a build that leaves off waiting has taken what it waited for
      by_cases hwait : (s.builds c).phase = .superseding
      · exact htaken hwait d hsuper
      · exact hr d (h.released c d hsuper hwait)
    · exact hr d (h.released c d hsuper hc)

/-- A build goes on by itself. -/
theorem shows_work (h : Shows s t) {b : ℕ} {p : CatalogBuild.Phase}
    (hb : Phase.ofBuild (s.builds b).phase = .working) (hp : Phase.ofBuild p = .working)
    (hstarted : s'.started = s.started)
    (hphase : ∀ c, (s'.builds c).phase = if c = b then p else (s.builds c).phase)
    (hsuperseded : ∀ c, (s'.builds c).superseded = (s.builds c).superseded)
    (hobject : ∀ c, (s'.builds c).object = (s.builds c).object) (hmemo : s'.memo = s.memo) :
    Shows s' t := by
  have hsame : ({ t with released := t.released }.setPhase b (.ofBuild p) : State ℕ) = t := by
    have hphase : Function.update t.phase b (.ofBuild p) = t.phase :=
      Function.update_eq_self_iff.mpr (by rw [h.phase, hb, hp])
    show { t with phase := Function.update t.phase b (.ofBuild p) } = t
    rw [hphase]
  have hshows := shows_setPhase (r := t.released) (p := p) h (b := b)
    (fun h => by simp [h, Phase.ofBuild] at hb) (fun h => by simp [h, Phase.ofBuild] at hp)
    (fun _ => id) (fun h => by simp [h, Phase.ofBuild] at hb) hstarted hphase hsuperseded hobject
    hmemo
  rwa [hsame] at hshows

/-- A build is called. -/
theorem shows_start (h : Shows s t) {object : ℕ}
    {superseded : Option ℕ} {p : CatalogBuild.Phase}
    (hp : Phase.ofBuild p = if superseded.isSome then .superseding else .working)
    (hstarted : s'.started = s.started + 1)
    (hphase : ∀ c, (s'.builds c).phase = if c = s.started then p else (s.builds c).phase)
    (hsuperseded : ∀ c, (s'.builds c).superseded =
      if c = s.started then superseded else (s.builds c).superseded)
    (hobject : ∀ c, (s'.builds c).object = if c = s.started then object else (s.builds c).object)
    (hmemo : s'.memo = Function.update s.memo object (some s.started)) :
    Shows s' (t.start object superseded) where
  phase c := by
    show Function.update t.phase t.started _ c = _
    rw [Function.update_apply, hphase, h.started]
    split
    · exact hp.symm
    · exact h.phase c
  superseded c hc := by
    show Function.update t.superseded t.started _ c = _
    rw [hphase] at hc
    rw [Function.update_apply, hsuperseded, h.started]
    split
    · rfl
    · next hne =>
      rw [if_neg hne] at hc
      exact h.superseded c hc
  started := by
    rw [hstarted, ← h.started]
    rfl
  key c hc := by
    show Function.update t.key t.started _ c = _
    rw [hphase] at hc
    rw [Function.update_apply, hobject, h.started]
    split
    · rfl
    · next hne =>
      rw [if_neg hne] at hc
      exact h.key c hc
  memo object' := by
    show (t.memo.put object t.started).get object' = _
    rw [LinkedMap.get_put, hmemo, Function.update_apply, h.started]
    split
    · rfl
    · exact h.memo object'
  released c d hsuper hc := by
    show d ∈ t.released
    rw [hsuperseded] at hsuper
    rw [hphase] at hc
    split at hsuper
    · next hcb =>
      rw [if_pos hcb] at hc
      -- what supersedes another waits for it first
      rw [hsuper, Option.isSome_some, if_pos rfl] at hp
      cases p <;> first | exact absurd rfl hc | cases hp
    · next hne =>
      rw [if_neg hne] at hc
      exact h.released c d hsuper hc

/-- Nothing of the builds changes. -/
theorem Shows.congr (h : Shows s t) (hbuilds : s'.builds = s.builds)
    (hstarted : s'.started = s.started) (hmemo : s'.memo = s.memo) : Shows s' t where
  phase := hbuilds ▸ h.phase
  superseded := hbuilds ▸ h.superseded
  started := h.started.trans hstarted.symm
  key := hbuilds ▸ h.key
  memo := hmemo ▸ h.memo
  released := hbuilds ▸ h.released

/-- A build goes on where this machine has a step for it. -/
theorem step_shows_setPhase (h : Shows s t) {b : ℕ} {p : CatalogBuild.Phase} {r : List ℕ}
    {a : Action ℕ} (hstep : step t a = some ({ t with released := r }.setPhase b (.ofBuild p)))
    (hb : (s.builds b).phase ≠ .unstarted) (hp : p ≠ .superseding)
    (hr : ∀ c ∈ t.released, c ∈ r)
    (htaken : (s.builds b).phase = .superseding → ∀ c, (s.builds b).superseded = some c → c ∈ r)
    (hstarted : s'.started = s.started)
    (hphase : ∀ c, (s'.builds c).phase = if c = b then p else (s.builds c).phase)
    (hsuperseded : ∀ c, (s'.builds c).superseded = (s.builds c).superseded)
    (hobject : ∀ c, (s'.builds c).object = (s.builds c).object) (hmemo : s'.memo = s.memo) :
    ∃ bs t', Machine.run step t bs = some t' ∧ Shows s' t' :=
  ⟨[a], _, by rw [Machine.run_singleton, hstep],
    shows_setPhase h hb hp hr htaken hstarted hphase hsuperseded hobject hmemo⟩

open CatalogBuild in
/-- A step of the builds is one here, or none. -/
theorem step_shows (h : Shows s t) {a : CatalogBuild.Action}
    (hstep : CatalogBuild.step s a = some s') :
    ∃ bs t', Machine.run step t bs = some t' ∧ Shows s' t' := by
  have hphase {b : ℕ} {p : CatalogBuild.Phase} (hb : (s.builds b).phase = p) :
      t.phase b = .ofBuild p := (h.phase b).trans (congrArg Phase.ofBuild hb)
  have hstart_object (object c : ℕ) (superseded : Option ℕ) :
      ((s.start object superseded).builds c).object =
        if c = s.started then object else (s.builds c).object := by
    by_cases hc : c = s.started <;> simp [CatalogBuild.State.start, hc]
  -- whether it rebuilds or opens, a build that goes on is at work for the owner of handles
  have hproceed : Phase.ofBuild (if s.needsRebuild then .materializing else .opening) =
      .working := by
    split <;> rfl
  have htaken {b c : ℕ} (hc : (s.builds b).superseded = some c) (d : ℕ)
      (hd : (s.builds b).superseded = some d) : d ∈ c :: t.released :=
    Option.some.inj (hc.symm.trans hd) ▸ List.mem_cons_self
  cases CatalogBuild.step_cases hstep with
  -- joined, the lookup makes no handle, and the other machine does nothing
  | join => exact ⟨[], t, rfl, h.congr rfl rfl rfl⟩
  -- both kinds of lookup start the same build there
  | @supersede object b hmemo =>
    refine ⟨[.lookup object true], t.start object (some b), ?_, ?_⟩
    · simp [step, h.memo, hmemo]
    · exact shows_start (p := .superseding) h rfl rfl (start_phase s object _)
        (start_superseded s object _) (fun c => hstart_object object c _) rfl
  | @first object hmemo =>
    refine ⟨[.lookup object false], t.start object none, ?_, ?_⟩
    · simp [step, h.memo, hmemo]
    · refine shows_start (p := if (s.start object none).needsRebuild then .materializing
        else .opening) h ?_ rfl (fun c => ?_) (fun c => ?_) (fun c => ?_) rfl
      · split <;> rfl
      · refine (setPhase_phase _ _ c _).trans ?_
        rw [start_phase]
        split <;> rfl
      · exact (setPhase_superseded _ _ c _).trans (start_superseded s object none c)
      · exact (setPhase_object _ _ c _).trans (hstart_object object c none)
  -- what was superseded is ready, and its handle closed; or it failed, and there is none
  | @close b c hb hc hopened =>
    refine step_shows_setPhase (r := c :: t.released) (p := .closing) (a := .superseded b) h ?_
      (by simp [hb]) (by simp) (fun _ => List.mem_cons_of_mem c) (fun _ => htaken hc) rfl
      (closeSuperseded_phase s b c) (closeSuperseded_superseded s b c)
      (closeSuperseded_object s b c) rfl
    rw [step, hphase hb, h.superseded b hb, hc]
    simp only [Phase.ofBuild, hphase hopened]
    rfl
  | @ignore b c delivered hb hc hfailed =>
    refine step_shows_setPhase (r := c :: t.released)
      (p := if s.needsRebuild then .materializing else .opening) (a := .superseded b) h ?_
      (by simp [hb]) (by split <;> simp) (fun _ => List.mem_cons_of_mem c)
      (fun _ => htaken hc) rfl (setPhase_phase s b · _) (setPhase_superseded s b · _)
      (setPhase_object s b · _) rfl
    rw [hproceed, step, hphase hb, h.superseded b hb, hc]
    simp only [Phase.ofBuild, hphase hfailed]
    rfl
  | @closed b hb =>
    refine step_shows_setPhase (r := t.released)
      (p := if s.needsRebuild then .materializing else .opening) (a := .closed b) h ?_
      (by simp [hb]) (by split <;> simp) (fun _ => id) (by simp [hb]) rfl (setPhase_phase s b · _)
      (setPhase_superseded s b · _) (setPhase_object s b · _) rfl
    rw [hproceed, step, hphase hb]
    rfl
  -- the work of a build is one phase there, and none of its steps is seen
  | @decompress b hb =>
    exact ⟨[], t, rfl, shows_work (p := .materialized) h (by rw [hb]; rfl) rfl rfl
      (setPhase_phase s b · _) (setPhase_superseded s b · _) (setPhase_object s b · _) rfl⟩
  | @materialized b hb =>
    exact ⟨[], t, rfl, shows_work (p := .listening) h (by rw [hb]; split <;> rfl) rfl rfl
      (setPhase_phase s b · _) (setPhase_superseded s b · _) (setPhase_object s b · _) rfl⟩
  | @parse b content hb =>
    exact ⟨[], t, rfl, shows_work (p := .parsing _ content) h (by rw [hb]; rfl) rfl rfl
      (setPhase_phase s b · _) (setPhase_superseded s b · _) (setPhase_object s b · _) rfl⟩
  | @parseDone b i content hb =>
    exact ⟨[], t, rfl, shows_work (p := .parsed) h (by rw [hb]; rfl) rfl rfl
      (setPhase_phase s b · _) (setPhase_superseded s b · _) (setPhase_object s b · _) rfl⟩
  | @stamp b write hb =>
    exact ⟨[], t, rfl, shows_work (p := .opening) h (by rw [hb]; rfl) rfl rfl
      (setPhase_phase s b · _) (setPhase_superseded s b · _) (setPhase_object s b · _) rfl⟩
  | @opened b hb =>
    refine step_shows_setPhase (r := t.released) (p := .opened) (a := .opened b) h ?_
      (by simp [hb]) (by simp) (fun _ => id) (by simp [hb]) rfl (setPhase_phase s b · _)
      (setPhase_superseded s b · _) (setPhase_object s b · _) rfl
    rw [step, hphase hb]
    rfl
  | @fail b hb =>
    have hworking : t.phase b = .working := by
      rw [h.phase]
      simp only [List.mem_cons, List.not_mem_nil, or_false] at hb
      rcases hb with hb | hb | hb | hb <;> rw [hb] <;> rfl
    refine step_shows_setPhase (r := t.released) (p := .failed false) (a := .fail b) h ?_
      (fun hb' => by simp [hb'] at hb) (by simp) (fun _ => id) (fun hb' => by simp [hb'] at hb) rfl
      (setPhase_phase s b · _)
      (setPhase_superseded s b · _) (setPhase_object s b · _) rfl
    rw [step, if_pos hworking]
    rfl
  | @parseFailed b hb =>
    have hworking : t.phase b = .working := by
      rw [h.phase]
      rcases hb with hb | ⟨i, content, hb⟩ <;> rw [hb] <;> rfl
    refine step_shows_setPhase (r := t.released) (p := .failed false) (a := .fail b) h ?_
      (fun hb' => by simp [hb'] at hb) (by simp) (fun _ => id) (fun hb' => by simp [hb'] at hb) rfl
      (setPhase_phase s.dropXml b · _)
      (setPhase_superseded s.dropXml b · _) (setPhase_object s.dropXml b · _) rfl
    rw [step, if_pos hworking]
    rfl
  -- the failure takes the build out of the memo, of the same object on both sides
  | @evict b hb hmemo =>
    have hkey := h.key b (by simp [hb])
    refine ⟨[.deliver b], { t.release b with
      memo := t.memo.remove (s.builds b).object }.setPhase b (.failed true), ?_, ?_⟩
    · rw [Machine.run_singleton, step, if_pos (show t.phase b = .failed false from hphase hb),
        State.forget, hkey]
      simp only [h.memo, if_pos hmemo]
    · have hset : Shows (s.setPhase b (.failed true))
          ({ t with released := b :: t.released }.setPhase b (.ofBuild (.failed true))) :=
        shows_setPhase h (by simp [hb]) (by simp) (fun _ => List.mem_cons_of_mem b) (by simp [hb])
          rfl (setPhase_phase s b · _) (setPhase_superseded s b · _) (setPhase_object s b · _) rfl
      refine ⟨hset.phase, hset.superseded, hset.started, hset.key, fun object => ?_, hset.released⟩
      refine (LinkedMap.get_remove _ _ object).trans ?_
      show _ = Function.update s.memo (s.builds b).object none object
      rw [Function.update_apply, h.memo]
  | @deliver b hb hmemo =>
    refine step_shows_setPhase (r := t.released) (p := .failed true) (a := .deliver b) h ?_
      (by simp [hb]) (by simp) (fun _ => id) (by simp [hb]) rfl (setPhase_phase s b · _)
      (setPhase_superseded s b · _) (setPhase_object s b · _) rfl
    rw [step, if_pos (show t.phase b = .failed false from hphase hb), State.forget,
      h.key b (by simp [hb])]
    simp only [h.memo, if_neg hmemo]
    rfl
  | query => exact ⟨[], t, rfl, h.congr rfl rfl rfl⟩
  | error => exact ⟨[], t, rfl, h.congr rfl rfl rfl⟩
  | answered => exact ⟨[], t, rfl, h.congr rfl rfl rfl⟩
  | repoint => exact ⟨[], t, rfl, h.congr rfl rfl rfl⟩

theorem init_shows (files : CatalogBuild.Files) (source : CatalogCache.SourceId) (gz : Bool) :
    Shows (CatalogBuild.init files source gz) init where
  phase _ := rfl
  superseded _ _ := rfl
  started := rfl
  key _ h := absurd rfl h
  memo _ := rfl
  released _ _ h := absurd h (by simp [CatalogBuild.init])

/-! ### Who closes what -/

/-- The databases that a step of the builds calls `close()` of, each behind the build that
calls it. -/
def closing (s : CatalogBuild.State) : CatalogBuild.Action → List (ℕ × ℕ)
  | .superseded b =>
    match (s.builds b).superseded with
    | some c => if (s.builds c).phase = .opened then [(b, c)] else []
    | none => []
  | _ => []

/-- What a step of the builds does to who supersedes whom and how far they are, and what it
closes. -/
inductive Moves (s s' : CatalogBuild.State) : List (ℕ × ℕ) → Prop
  | stay (hstarted : s'.started = s.started)
      (hphase : ∀ d, (s'.builds d).phase = (s.builds d).phase)
      (hsuperseded : ∀ d, (s'.builds d).superseded = (s.builds d).superseded) : Moves s s' []
  | start {superseded : Option ℕ} {p : CatalogBuild.Phase} (hstarted : s'.started = s.started + 1)
      (hphase : ∀ d, (s'.builds d).phase = if d = s.started then p else (s.builds d).phase)
      (hsuperseded : ∀ d, (s'.builds d).superseded =
        if d = s.started then superseded else (s.builds d).superseded)
      (hp : p ≠ .opened)
      (hnew : ∀ c, superseded = some c → p = .superseding ∧ ∃ object, s.memo object = some c) :
      Moves s s' []
  | goOn {b : ℕ} {p : CatalogBuild.Phase} (hstarted : s'.started = s.started)
      (hphase : ∀ d, (s'.builds d).phase = if d = b then p else (s.builds d).phase)
      (hsuperseded : ∀ d, (s'.builds d).superseded = (s.builds d).superseded)
      (hb : (s.builds b).phase ≠ .superseding ∧ (s.builds b).phase ≠ .opened)
      (hp : p ≠ .superseding) (hopened : p = .opened → (s.builds b).phase = .opening) :
      Moves s s' []
  | take {b c : ℕ} {p : CatalogBuild.Phase} (hstarted : s'.started = s.started)
      (hphase : ∀ d, (s'.builds d).phase = if d = b then p else (s.builds d).phase)
      (hsuperseded : ∀ d, (s'.builds d).superseded = (s.builds d).superseded)
      (hb : (s.builds b).phase = .superseding) (hc : (s.builds b).superseded = some c)
      (hp : p ≠ .superseding ∧ p ≠ .opened) :
      Moves s s' (if (s.builds c).phase = .opened then [(b, c)] else [])

open CatalogBuild in
theorem step_moves {a : CatalogBuild.Action} (h : CatalogBuild.step s a = some s') :
    Moves s s' (closing s a) := by
  have hproceed : (if s.needsRebuild then Phase.materializing else .opening) ≠ .superseding ∧
      (if s.needsRebuild then Phase.materializing else .opening) ≠ .opened := by
    split <;> simp
  cases CatalogBuild.step_cases h with
  -- only the build that waits for a superseded one has something to take
  | join => exact .stay rfl (fun _ => rfl) fun _ => rfl
  | @supersede object b hmemo =>
    refine .start (p := .superseding) rfl (start_phase s object _) (start_superseded s object _)
      (by simp) fun c hc => ?_
    obtain rfl := Option.some.inj hc
    exact ⟨rfl, object, hmemo⟩
  | @first object =>
    refine @Moves.start _ _ none
      (if (s.start object none).needsRebuild then .materializing else .opening) rfl
      (fun d => ?_) (fun d => ?_) (by split <;> simp) (by simp)
    · refine (setPhase_phase _ _ d _).trans ?_
      rw [start_phase]
      split <;> rfl
    · exact (setPhase_superseded _ _ d _).trans (start_superseded s object none d)
  | @close b c hb hc hopened =>
    -- the handle is open at this moment, as the build was
    have htake : Moves s (s.closeSuperseded b c)
        (if (s.builds c).phase = .opened then [(b, c)] else []) :=
      .take (p := .closing) rfl (closeSuperseded_phase s b c) (closeSuperseded_superseded s b c)
        hb hc (by simp)
    simpa only [closing, hc] using htake
  | @ignore b c _ hb hc =>
    have htake : Moves s (s.proceed b) (if (s.builds c).phase = .opened then [(b, c)] else []) :=
      .take rfl (setPhase_phase s b · _) (setPhase_superseded s b · _) hb hc hproceed
    simpa only [closing, hc] using htake
  | closed hb =>
    exact .goOn rfl (setPhase_phase s _ · _) (setPhase_superseded s _ · _) (by simp [hb])
      hproceed.1 fun h => absurd h hproceed.2
  -- from here on a build neither waits nor is open
  | decompress hb =>
    exact .goOn (p := .materialized) rfl (setPhase_phase s _ · _) (setPhase_superseded s _ · _)
      (by simp [hb]) (by simp) (by simp)
  | materialized hb =>
    exact .goOn (p := .listening) rfl (setPhase_phase s _ · _) (setPhase_superseded s _ · _)
      (by rw [hb]; split <;> simp) (by simp) (by simp)
  | parse hb =>
    exact .goOn (p := .parsing _ _) rfl (setPhase_phase s _ · _) (setPhase_superseded s _ · _)
      (by simp [hb]) (by simp) (by simp)
  | parseDone hb =>
    exact .goOn (p := .parsed) rfl (setPhase_phase s _ · _) (setPhase_superseded s _ · _)
      (by simp [hb]) (by simp) (by simp)
  | stamp hb =>
    exact .goOn (p := .opening) rfl (setPhase_phase s _ · _) (setPhase_superseded s _ · _)
      (by simp [hb]) (by simp) (by simp)
  -- a handle that is opened now was not open before
  | opened hb =>
    exact .goOn (p := .opened) rfl (setPhase_phase s _ · _) (setPhase_superseded s _ · _)
      (by simp [hb]) (by simp) fun _ => hb
  | fail hb =>
    exact .goOn (p := .failed false) rfl (setPhase_phase s _ · _) (setPhase_superseded s _ · _)
      ⟨fun h => by simp [h] at hb, fun h => by simp [h] at hb⟩ (by simp) (by simp)
  | parseFailed hb =>
    exact .goOn (p := .failed false) rfl (setPhase_phase s.dropXml _ · _)
      (setPhase_superseded s.dropXml _ · _)
      ⟨fun h => by simp [h] at hb, fun h => by simp [h] at hb⟩ (by simp) (by simp)
  | evict hb =>
    exact .goOn (p := .failed true) rfl (setPhase_phase s _ · _) (setPhase_superseded s _ · _)
      (by simp [hb]) (by simp) (by simp)
  | deliver hb =>
    exact .goOn (p := .failed true) rfl (setPhase_phase s _ · _) (setPhase_superseded s _ · _)
      (by simp [hb]) (by simp) (by simp)
  | query => exact .stay rfl (fun _ => rfl) fun _ => rfl
  | error => exact .stay rfl (fun _ => rfl) fun _ => rfl
  | answered => exact .stay rfl (fun _ => rfl) fun _ => rfl
  | repoint => exact .stay rfl (fun _ => rfl) fun _ => rfl

/-- What is superseded is not memoised: somebody has it in hand, or it was let go. -/
theorem Shows.not_memo (h : Shows s t) (ht : Wf t) {b c : ℕ}
    (hc : (s.builds b).superseded = some c) (object : ℕ) : s.memo object ≠ some c := by
  intro hmemo
  have hmem : c ∈ t.held .memo :=
    LinkedMap.mem_values.mpr ⟨object, (h.memo object).trans hmemo⟩
  by_cases hb : (s.builds b).phase = .superseding
  · have hphase : t.phase b = .superseding := (h.phase b).trans (congrArg Phase.ofBuild hb)
    have hheld : c ∈ t.held (.build b) := by
      rw [held_build hphase ((h.superseded b hb).trans hc)]
      exact List.mem_singleton_self c
    exact absurd (ht.custody.exclusive hmem hheld) (by simp)
  · have hreleased : c ∈ t.held .released := h.released b c hc hb
    exact absurd (ht.custody.exclusive hmem hreleased) (by simp)

/-- What was let go is over. -/
theorem Shows.not_opening (h : Shows s t) (ht : Wf t) {b c : ℕ}
    (hc : (s.builds b).superseded = some c) (hb : (s.builds b).phase ≠ .superseding) :
    (s.builds c).phase ≠ .opening := by
  intro hopening
  have hover := ht.released c (h.released b c hc hb)
  rw [h.phase, hopening] at hover
  cases hover

/-- Each build is superseded by one other, and what was closed so far is what a build behind
its wait supersedes and that had a database. -/
structure Accounted (closed : List (ℕ × ℕ)) (s : CatalogBuild.State) : Prop where
  started : ∀ b c, (s.builds b).superseded = some c → b < s.started
  once : ∀ b b' c, (s.builds b).superseded = some c → (s.builds b').superseded = some c → b' = b
  nodup : (closed.map Prod.snd).Nodup
  closed : ∀ b c, (b, c) ∈ closed ↔ (s.builds b).superseded = some c ∧
    (s.builds b).phase ≠ .superseding ∧ (s.builds c).phase = .opened

/-- **One step** keeps account of what is closed. -/
theorem moves_accounted {closed out : List (ℕ × ℕ)} (hmoves : Moves s s' out) (h : Shows s t)
    (ht : Wf t) (hs : Accounted closed s) : Accounted (closed ++ out) s' := by
  cases hmoves with
  | stay hstarted hphase hsuperseded =>
    rw [List.append_nil]
    refine ⟨?_, ?_, hs.nodup, ?_⟩
    · simpa only [hsuperseded, hstarted] using hs.started
    · simpa only [hsuperseded] using hs.once
    · simpa only [hsuperseded, hphase] using hs.closed
  | @start superseded p hstarted hphase hsuperseded hp hnew =>
    have hunstarted : (s.builds s.started).phase = .unstarted := by
      have hnone := (ht.unstarted s.started).mpr h.started.le
      rw [h.phase] at hnone
      cases hb : (s.builds s.started).phase <;> simp [hb, Phase.ofBuild] at hnone ⊢
    have hopened (d : ℕ) : (s'.builds d).phase = .opened ↔ (s.builds d).phase = .opened := by
      rw [hphase]
      split
      · next hd => simp [hd, hunstarted, hp]
      · exact Iff.rfl
    rw [List.append_nil]
    refine ⟨fun b c hc => ?_, fun b b' c hc hc' => ?_, hs.nodup, fun b c => ?_⟩
    · rw [hsuperseded] at hc
      rw [hstarted]
      split at hc
      · next hb => exact hb ▸ Nat.lt_succ_self s.started
      · exact Nat.lt_succ_of_lt (hs.started b c hc)
    · -- what the new build supersedes was memoised
      rw [hsuperseded] at hc hc'
      split at hc <;> split at hc'
      · next hb hb' => exact hb'.trans hb.symm
      · obtain ⟨-, object, hmemo⟩ := hnew c hc
        exact absurd hmemo (h.not_memo ht hc' object)
      · obtain ⟨-, object, hmemo⟩ := hnew c hc'
        exact absurd hmemo (h.not_memo ht hc object)
      · exact hs.once b b' c hc hc'
    · rw [hs.closed, hopened, hsuperseded, hphase]
      split
      · next hb =>
        refine iff_of_false (fun hold => ?_) fun hnow => hnow.2.1 (hnew c hnow.1).1
        exact absurd (hs.started b c hold.1) (by rw [hb]; exact lt_irrefl _)
      · exact Iff.rfl
  | @goOn b p hstarted hphase hsuperseded hb hp hopening =>
    rw [List.append_nil]
    refine ⟨?_, ?_, hs.nodup, fun d c => ?_⟩
    · simpa only [hsuperseded, hstarted] using hs.started
    · simpa only [hsuperseded] using hs.once
    · have hwaits : (s'.builds d).phase ≠ .superseding ↔ (s.builds d).phase ≠ .superseding := by
        rw [hphase]
        split
        · next hd => exact iff_of_true hp (hd ▸ hb.1)
        · exact Iff.rfl
      rw [hs.closed, hsuperseded, hwaits, hphase]
      refine and_congr_right fun hc => and_congr_right fun hd => ?_
      split
      · next hcb =>
        -- what was let go does not open any more
        subst hcb
        exact iff_of_false hb.2 fun hpo => h.not_opening ht hc hd (hopening hpo)
      · exact Iff.rfl
  | @take b c p hstarted hphase hsuperseded hb hc hp =>
    have hopened (d : ℕ) : (s'.builds d).phase = .opened ↔ (s.builds d).phase = .opened := by
      rw [hphase]
      split
      · next hd => exact iff_of_false hp.2 (by simp [hd, hb])
      · exact Iff.rfl
    have hnone : ∀ b', (b', c) ∉ closed := by
      intro b' hmem
      obtain ⟨hc', hwaits, -⟩ := (hs.closed b' c).mp hmem
      exact hwaits (hs.once b b' c hc hc' ▸ hb)
    refine ⟨?_, ?_, ?_, fun d e => ?_⟩
    · simpa only [hsuperseded, hstarted] using hs.started
    · simpa only [hsuperseded] using hs.once
    · split
      · rw [List.map_append, List.map_singleton, ← List.concat_eq_append, List.nodup_concat]
        refine ⟨fun hmem => ?_, hs.nodup⟩
        obtain ⟨⟨b', c'⟩, hmem', hc'⟩ := List.mem_map.mp hmem
        obtain rfl : c' = c := hc'
        exact hnone b' hmem'
      · rw [List.append_nil]
        exact hs.nodup
    · have hout : (d, e) ∈ (if (s.builds c).phase = .opened then [(b, c)] else []) ↔
          (s.builds c).phase = .opened ∧ d = b ∧ e = c := by
        split <;> simp [*]
      rw [List.mem_append, hs.closed, hout, hopened, hsuperseded, hphase]
      by_cases hd : d = b
      · subst hd
        rw [if_pos rfl, hb, hc, Option.some.injEq]
        constructor
        · rintro (⟨-, hwaits, -⟩ | ⟨hopen, -, rfl⟩)
          · exact absurd rfl hwaits
          · exact ⟨rfl, hp.1, hopen⟩
        · rintro ⟨rfl, -, hopen⟩
          exact .inr ⟨hopen, rfl, rfl⟩
      · rw [if_neg hd]
        simp [hd]

/-- What a build does by itself; lookups, and where the path leads, come from elsewhere. -/
def ofBuild : CatalogBuild.Action → Bool
  | .lookup _ | .resume _ | .answered _ | .repoint _ => false
  | _ => true

/-- No build can go on. -/
def Idle (s : CatalogBuild.State) : Prop :=
  ∀ a, ofBuild a = true → CatalogBuild.step s a = none

/-- A build that waits for another goes on once that is over, and it comes to be over. -/
theorem idle_over (h : Shows s t) (ht : Wf t) (hidle : Idle s) (b : ℕ) :
    (s.builds b).phase = .unstarted ∨ (s.builds b).phase = .opened ∨
      (s.builds b).phase = .failed true := by
  -- what a build supersedes was started before it
  induction b using Nat.strongRecOn with
  | ind b ih =>
    have hfail := hidle (.fail b) rfl
    cases hb : (s.builds b).phase with
    | unstarted => exact .inl rfl
    | opened => exact .inr (.inl rfl)
    | superseding =>
      have hphase : t.phase b = .superseding := (h.phase b).trans (congrArg Phase.ofBuild hb)
      obtain ⟨c, hc, hsuper⟩ := ht.superseding b hphase
      have hsuper' := (h.superseded b hb).symm.trans hsuper
      have hstarted : (s.builds c).phase ≠ .unstarted := by
        intro hnone
        have hlt := ht.lt_started (p := .build b) (b := c) (by rw [held_build hphase hsuper]; simp)
        rw [← Nat.not_le, ← ht.unstarted, h.phase, hnone] at hlt
        exact hlt rfl
      have hnone := hidle (.superseded b) rfl
      rcases ih c hc with hcphase | hcphase | hcphase
      · exact absurd hcphase hstarted
      · simp [CatalogBuild.step, hb, hsuper', hcphase] at hnone
      · simp [CatalogBuild.step, hb, hsuper', hcphase] at hnone
    | closing =>
      have hnone := hidle (.closed b) rfl
      simp [CatalogBuild.step, hb] at hnone
    | failed delivered =>
      cases delivered with
      | true => exact .inr (.inr rfl)
      | false =>
        have hnone := hidle (.deliver b) rfl
        simp [CatalogBuild.step, hb] at hnone
    | materializing | materialized | listening | parsing | parsed | opening =>
      simp [CatalogBuild.step, hb] at hfail

theorem init_accounted (files : CatalogBuild.Files) (source : CatalogCache.SourceId) (gz : Bool) :
    Accounted [] (CatalogBuild.init files source gz) where
  started _ _ h := absurd h (by simp [CatalogBuild.init])
  once _ _ _ h := absurd h (by simp [CatalogBuild.init])
  nodup := List.nodup_nil
  closed _ _ := by simp [CatalogBuild.init]

/-- Every run of builds and lookups of one key shows as a run of this machine, and keeps
account of what it closes. -/
theorem run_shows {files : CatalogBuild.Files} {source : CatalogCache.SourceId} {gz : Bool}
    {as : List CatalogBuild.Action}
    (h : Machine.run CatalogBuild.step (CatalogBuild.init files source gz) as = some s) :
    (∃ bs t, Machine.run step init bs = some t ∧ Shows s t) ∧
    Accounted (Machine.outputs CatalogBuild.step closing (CatalogBuild.init files source gz) as)
      s := by
  have hinit : (∃ bs t, Machine.run step init bs = some t ∧
      Shows (CatalogBuild.init files source gz) t) ∧
      Accounted [] (CatalogBuild.init files source gz) :=
    ⟨⟨[], init, rfl, init_shows files source gz⟩, init_accounted files source gz⟩
  refine Machine.run_invariant_outputs (I := fun closed s =>
    (∃ bs t, Machine.run step init bs = some t ∧ Shows s t) ∧ Accounted closed s)
    (fun {closed s a s'} hstep hs => ?_) h hinit
  obtain ⟨⟨bs, t, hrun, hshows⟩, haccounted⟩ := hs
  obtain ⟨cs, t', hrest, hshows'⟩ := step_shows hshows hstep
  exact ⟨⟨bs ++ cs, t', Machine.run_append_eq_some.mpr ⟨t, hrun, hrest⟩, hshows'⟩,
    moves_accounted (step_moves hstep) hshows (run_wf hrun) haccounted⟩

/-- **The builds with their files are builds here, and one of them closes a database**,
whatever becomes of the files: every interleaving of builds and lookups of one key, with any
number of `FlatpakAppStream`s, shows as a run of this machine.  What a build supersedes is
superseded by no other and memoised nowhere; over the whole run `close()` is called of it once
if it had a database, by the build that supersedes it, and where no build can go on none
waits for another. -/
theorem superseded_once {files : CatalogBuild.Files} {source : CatalogCache.SourceId} {gz : Bool}
    {as : List CatalogBuild.Action}
    (h : Machine.run CatalogBuild.step (CatalogBuild.init files source gz) as = some s) :
    (∃ bs t, Machine.run step init bs = some t ∧ Shows s t) ∧
    (∀ b c, (s.builds b).superseded = some c →
      (∀ b', (s.builds b').superseded = some c → b' = b) ∧ ∀ object, s.memo object ≠ some c) ∧
    ((Machine.outputs CatalogBuild.step closing (CatalogBuild.init files source gz) as).map
      Prod.snd).Nodup ∧
    (∀ b c,
      (b, c) ∈ Machine.outputs CatalogBuild.step closing (CatalogBuild.init files source gz) as ↔
        (s.builds b).superseded = some c ∧ (s.builds b).phase ≠ .superseding ∧
          (s.builds c).phase = .opened) ∧
    (Idle s → ∀ b, (s.builds b).phase ≠ .superseding) := by
  obtain ⟨⟨bs, t, hrun, hshows⟩, haccounted⟩ := run_shows h
  have ht := run_wf hrun
  refine ⟨⟨bs, t, hrun, hshows⟩, fun b c hc => ⟨fun b' => haccounted.once b b' c hc,
    hshows.not_memo ht hc⟩, haccounted.nodup, haccounted.closed, fun hidle b hb => ?_⟩
  rcases idle_over hshows ht hidle b with hphase | hphase | hphase <;>
    exact absurd (hb.symm.trans hphase) (by simp)

/-- The second lookup comes before the stamp: its build supersedes the first. -/
def secondLookup : List CatalogBuild.Action :=
  [.lookup 0, .materialized 0, .parse 0, .parseDone 0, .lookup 0, .stamp 0 .whole, .opened 0,
    .superseded 1]

/-- And closes its database. -/
theorem superseded_once_second :
    ∃ s, Machine.run CatalogBuild.step (CatalogBuild.init .empty CatalogCache.deployA false)
        secondLookup = some s ∧
      (∀ b', (s.builds b').superseded = some 0 → b' = 1) ∧ (∀ object, s.memo object ≠ some 0) ∧
      (1, 0) ∈ Machine.outputs CatalogBuild.step closing
        (CatalogBuild.init .empty CatalogCache.deployA false) secondLookup := by
  obtain ⟨s, hrun, hs⟩ := Machine.exists_run CatalogBuild.step
    (CatalogBuild.init .empty CatalogCache.deployA false) secondLookup
    (p := fun s => (s.builds 1).superseded = some 0 ∧ (s.builds 1).phase = .closing ∧
      (s.builds 0).phase = .opened) (by decide +kernel)
  obtain ⟨hsuper, hclosing, hopened⟩ := of_decide_eq_true hs
  obtain ⟨-, honce, -, hclosed, -⟩ := superseded_once hrun
  obtain ⟨hothers, hmemo⟩ := honce 1 0 hsuper
  exact ⟨s, hrun, hothers, hmemo, (hclosed 1 0).mpr ⟨hsuper, by simp [hclosing], hopened⟩⟩

end CatalogHandles
