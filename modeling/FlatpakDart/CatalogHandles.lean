/-
The open databases of one `FlatpakAppStream` (`lib/src/appstream/catalog.dart`).

`_openCatalog` memoises the future of a build under its key, and a build closes the database
it supersedes; `close`, and so `refresh`, takes every memoised future and closes one after
another.  Any number of lookups, builds and calls of `close` run at once; what runs between
two awaits is one step.

* `step_cases` — what each step needs and does;
* `step_custody` — a build is memoised, in the hands of one that closes it, or let go;
* `stuck_settled` — where nothing can go on, everything is over;
* `settles` — and it comes to that;
* `handles_accounted` — no database is closed twice, and the memoised ones are all that stay open;
* `close_closes` — after `close` nothing stays open, and no lookup gets an older build.
-/
import FlatpakDart.Custody
import FlatpakDart.InsertionOrder
import FlatpakDart.Machine
import Mathlib.Algebra.Order.BigOperators.Group.Finset

open InsertionOrder

namespace CatalogHandles

/-! ### The builds and the calls of `close` -/

/-- Where a `_buildAndOpen` is. -/
inductive Phase
  /-- there is no such build yet -/
  | unstarted
  /-- awaits the future it supersedes -/
  | superseding
  /-- awaits `close()` of the database it supersedes -/
  | closing
  /-- rebuilds the database if it has to, and opens it -/
  | working
  /-- the future has completed with a database -/
  | opened
  /-- the future has completed with an error, which `_openCatalog` has seen or not -/
  | failed (delivered : Bool)
  deriving DecidableEq

/-- A call of `close`: what it has still to go through, and whether it awaits the `close()`
of a database. -/
structure Closer where
  pending : List ℕ
  closing : Bool

variable {κ : Type*} [DecidableEq κ]

structure State (κ : Type*) where
  phase : ℕ → Phase
  key : ℕ → Option κ
  superseded : ℕ → Option ℕ
  /-- the number of the next build -/
  started : ℕ
  /-- `_openDatabases` -/
  memo : LinkedMap κ ℕ
  closers : ℕ → Closer
  /-- the number of the next call of `close` -/
  called : ℕ
  /-- the builds whose future was awaited to close what it opened, or that were forgotten
  because they failed -/
  released : List ℕ

def init : State κ where
  phase _ := .unstarted
  key _ := none
  superseded _ := none
  started := 0
  memo := .empty
  closers _ := ⟨[], false⟩
  called := 0
  released := []

def State.setPhase (s : State κ) (b : ℕ) (phase : Phase) : State κ :=
  { s with phase := Function.update s.phase b phase }

def State.setCloser (s : State κ) (i : ℕ) (closer : Closer) : State κ :=
  { s with closers := Function.update s.closers i closer }

def State.release (s : State κ) (b : ℕ) : State κ := { s with released := b :: s.released }

/-- `_buildAndOpen` is called, and the future it returns is memoised. -/
def State.start (s : State κ) (key : κ) (superseded : Option ℕ) : State κ :=
  { s with
    phase := Function.update s.phase s.started
      (if superseded.isSome then .superseding else .working)
    key := Function.update s.key s.started (some key)
    superseded := Function.update s.superseded s.started superseded
    started := s.started + 1
    memo := s.memo.put key s.started }

/-- The listener of `_openCatalog` is told that the build failed. -/
def State.forget (s : State κ) (b : ℕ) : State κ :=
  match s.key b with
  | some key =>
    if s.memo.get key = some b then { s.release b with memo := s.memo.remove key } else s
  | none => s

inductive Action (κ : Type*)
  /-- a lookup reaches `_openCatalog`; `stale` is what `catalogNeedsRebuild` says -/
  | lookup (key : κ) (stale : Bool)
  /-- the future this build supersedes has completed -/
  | superseded (b : ℕ)
  /-- `close()` of the superseded database has returned, or thrown what is ignored -/
  | closed (b : ℕ)
  | opened (b : ℕ)
  /-- what the build awaits throws, or the parse fails -/
  | fail (b : ℕ)
  /-- `_openCatalog`'s listener is told of the failure -/
  | deliver (b : ℕ)
  /-- `close` is called, by `refresh` or another -/
  | close
  /-- the future that this call of `close` awaits has completed -/
  | awaited (i : ℕ)
  /-- the `close()` that this call of `close` awaits has returned, or thrown what is ignored -/
  | next (i : ℕ)

/-- The action if enabled. -/
def step (s : State κ) : Action κ → Option (State κ)
  | .lookup key stale =>
    match s.memo.get key with
    | some cached => if stale then some (s.start key (some cached)) else some s
    | none => some (s.start key none)
  | .superseded b =>
    match s.phase b, s.superseded b with
    | .superseding, some c =>
      match s.phase c with
      | .opened => some ((s.release c).setPhase b .closing)
      -- an error of the superseded build is ignored
      | .failed _ => some ((s.release c).setPhase b .working)
      | _ => none
    | _, _ => none
  | .closed b => if s.phase b = .closing then some (s.setPhase b .working) else none
  | .opened b => if s.phase b = .working then some (s.setPhase b .opened) else none
  | .fail b => if s.phase b = .working then some (s.setPhase b (.failed false)) else none
  | .deliver b =>
    if s.phase b = .failed false then some ((s.forget b).setPhase b (.failed true)) else none
  | .close =>
    some { s.setCloser s.called ⟨s.memo.values, false⟩ with
      called := s.called + 1
      memo := .empty }
  | .awaited i =>
    match s.closers i with
    | ⟨c :: rest, false⟩ =>
      match s.phase c with
      | .opened => some ((s.release c).setCloser i ⟨rest, true⟩)
      -- an open that never completed has nothing to close
      | .failed _ => some ((s.release c).setCloser i ⟨rest, false⟩)
      | _ => none
    | _ => none
  | .next i =>
    if (s.closers i).closing then some (s.setCloser i ⟨(s.closers i).pending, false⟩) else none

/-- `step` as a relation: what each action needs and does. -/
inductive Step (s : State κ) : Action κ → State κ → Prop
  | join {key : κ} {b : ℕ} (hmemo : s.memo.get key = some b) : Step s (.lookup key false) s
  | supersede {key : κ} {b : ℕ} (hmemo : s.memo.get key = some b) :
      Step s (.lookup key true) (s.start key (some b))
  | first {key : κ} {stale : Bool} (hmemo : s.memo.get key = none) :
      Step s (.lookup key stale) (s.start key none)
  | take {b c : ℕ} (hb : s.phase b = .superseding) (hc : s.superseded b = some c)
      (hopened : s.phase c = .opened) :
      Step s (.superseded b) ((s.release c).setPhase b .closing)
  | ignore {b c : ℕ} {delivered : Bool} (hb : s.phase b = .superseding)
      (hc : s.superseded b = some c) (hfailed : s.phase c = .failed delivered) :
      Step s (.superseded b) ((s.release c).setPhase b .working)
  | closed {b : ℕ} (hb : s.phase b = .closing) : Step s (.closed b) (s.setPhase b .working)
  | opened {b : ℕ} (hb : s.phase b = .working) : Step s (.opened b) (s.setPhase b .opened)
  | fail {b : ℕ} (hb : s.phase b = .working) : Step s (.fail b) (s.setPhase b (.failed false))
  | evict {b : ℕ} {key : κ} (hb : s.phase b = .failed false) (hkey : s.key b = some key)
      (hmemo : s.memo.get key = some b) :
      Step s (.deliver b)
        ({ s.release b with memo := s.memo.remove key }.setPhase b (.failed true))
  | deliver {b : ℕ} (hb : s.phase b = .failed false)
      (hmemo : ∀ key, s.key b = some key → s.memo.get key ≠ some b) :
      Step s (.deliver b) (s.setPhase b (.failed true))
  | close : Step s .close
      { s.setCloser s.called ⟨s.memo.values, false⟩ with
        called := s.called + 1
        memo := .empty }
  | takeNext {i c : ℕ} {rest : List ℕ} (hi : s.closers i = ⟨c :: rest, false⟩)
      (hopened : s.phase c = .opened) :
      Step s (.awaited i) ((s.release c).setCloser i ⟨rest, true⟩)
  | skip {i c : ℕ} {rest : List ℕ} {delivered : Bool} (hi : s.closers i = ⟨c :: rest, false⟩)
      (hfailed : s.phase c = .failed delivered) :
      Step s (.awaited i) ((s.release c).setCloser i ⟨rest, false⟩)
  | next {i : ℕ} (hi : (s.closers i).closing = true) :
      Step s (.next i) (s.setCloser i ⟨(s.closers i).pending, false⟩)

theorem step_cases {s t : State κ} {a : Action κ} (h : step s a = some t) : Step s a t := by
  cases a with
  -- a lookup joins, supersedes or is the first, as the memo has it
  | lookup key stale =>
    simp only [step] at h
    split at h
    · next b hmemo =>
      cases stale with
      | true =>
        obtain rfl := Option.some_inj.mp h
        exact .supersede hmemo
      | false =>
        obtain rfl := Option.some_inj.mp h
        exact .join hmemo
    · next hmemo =>
      obtain rfl := Option.some_inj.mp h
      exact .first hmemo
  | superseded b =>
    simp only [step] at h
    split at h
    · next hb hc =>
      split at h
      · next hopened =>
        obtain rfl := Option.some_inj.mp h
        exact .take hb hc hopened
      · next hfailed =>
        obtain rfl := Option.some_inj.mp h
        exact .ignore hb hc hfailed
      · exact absurd h (by simp)
    · exact absurd h (by simp)
  | closed b =>
    obtain ⟨hb, heq⟩ := Option.ite_none_right_eq_some.mp h
    obtain rfl := Option.some_inj.mp heq
    exact .closed hb
  | opened b =>
    obtain ⟨hb, heq⟩ := Option.ite_none_right_eq_some.mp h
    obtain rfl := Option.some_inj.mp heq
    exact .opened hb
  | fail b =>
    obtain ⟨hb, heq⟩ := Option.ite_none_right_eq_some.mp h
    obtain rfl := Option.some_inj.mp heq
    exact .fail hb
  -- whether the entry is still that of the build
  | deliver b =>
    obtain ⟨hb, heq⟩ := Option.ite_none_right_eq_some.mp h
    obtain rfl := Option.some_inj.mp heq
    rw [State.forget]
    split
    · next key hkey =>
      split
      · next hmemo => exact .evict hb hkey hmemo
      · next hmemo =>
        refine .deliver hb fun key' hkey' => ?_
        obtain rfl := Option.some_inj.mp (hkey.symm.trans hkey')
        exact hmemo
    · next hkey => exact .deliver hb fun key hkey' => absurd (hkey.symm.trans hkey') (by simp)
  | close =>
    obtain rfl := Option.some_inj.mp h
    exact .close
  | awaited i =>
    simp only [step] at h
    split at h
    · next hi =>
      split at h
      · next hopened =>
        obtain rfl := Option.some_inj.mp h
        exact .takeNext hi hopened
      · next hfailed =>
        obtain rfl := Option.some_inj.mp h
        exact .skip hi hfailed
      · exact absurd h (by simp)
    · exact absurd h (by simp)
  | next i =>
    obtain ⟨hi, heq⟩ := Option.ite_none_right_eq_some.mp h
    obtain rfl := Option.some_inj.mp heq
    exact .next hi

/-! ### Who is to close a database -/

inductive Holder
  | memo
  | build (b : ℕ)
  | closer (i : ℕ)
  | released
  deriving DecidableEq

/-- The builds in somebody's hands. -/
def State.held (s : State κ) : Holder → List ℕ
  | .memo => s.memo.values
  | .build b => if s.phase b = .superseding then (s.superseded b).toList else []
  | .closer i => (s.closers i).pending
  | .released => s.released

def Phase.over : Phase → Bool
  | .opened | .failed _ => true
  | _ => false

structure Wf (s : State κ) : Prop where
  unstarted : ∀ b, s.phase b = .unstarted ↔ s.started ≤ b
  uncalled : ∀ i, s.called ≤ i → s.closers i = ⟨[], false⟩
  superseding : ∀ b, s.phase b = .superseding → ∃ c < b, s.superseded b = some c
  key : ∀ {key b}, s.memo.get key = some b → s.key b = some key
  delivered : ∀ {key b}, s.memo.get key = some b → s.phase b ≠ .failed true
  released : ∀ b ∈ s.released, (s.phase b).over = true
  custody : Custody.Inv (List.range s.started) s.held

section Held

omit [DecidableEq κ]

theorem held_setPhase {s : State κ} {b : ℕ} {phase : Phase} (hp : phase ≠ .superseding) :
    (s.setPhase b phase).held = Function.update s.held (.build b) [] := by
  funext p
  cases p with
  | build c =>
    by_cases hc : c = b
    · subst hc
      simp [State.held, State.setPhase, hp]
    · simp [State.held, State.setPhase, hc]
  | _ => rfl

theorem held_setCloser (s : State κ) (i : ℕ) (closer : Closer) :
    (s.setCloser i closer).held = Function.update s.held (.closer i) closer.pending := by
  funext p
  cases p with
  | closer j =>
    by_cases hj : j = i
    · subst hj
      simp [State.held, State.setCloser]
    · simp [State.held, State.setCloser, hj]
  | _ => rfl

theorem held_released (s : State κ) (r : List ℕ) :
    ({ s with released := r } : State κ).held = Function.update s.held .released r := by
  funext p
  cases p <;> rfl

theorem held_memo (s : State κ) (m : LinkedMap κ ℕ) :
    ({ s with memo := m } : State κ).held = Function.update s.held .memo m.values := by
  funext p
  cases p <;> rfl

theorem held_build_of_ne {s : State κ} {b : ℕ} (h : s.phase b ≠ .superseding) :
    s.held (.build b) = [] := if_neg h

theorem held_build {s : State κ} {b c : ℕ} (h : s.phase b = .superseding)
    (hc : s.superseded b = some c) : s.held (.build b) = [c] := by
  rw [State.held, if_pos h, hc]
  rfl

end Held

/-! ### Every step keeps account -/

theorem init_wf : Wf (init : State κ) where
  unstarted b := by simp [init]
  uncalled i _ := rfl
  superseding b h := by simp [init] at h
  key h := by simp [init] at h
  delivered h := by simp [init] at h
  released b h := by simp [init] at h
  custody := by
    have hheld : (init : State κ).held = fun _ => [] := by
      funext p
      cases p <;> rfl
    rw [hheld]
    exact Custody.inv_nil

/-- A build goes on, and lets go what it had in hand. -/
theorem wf_setPhase {s : State κ} (hs : Wf s) {b : ℕ} {p : Phase} {r : List ℕ}
    (hb : s.phase b ≠ .unstarted) (hover : (s.phase b).over = true → p.over = true)
    (hp : p ≠ .unstarted ∧ p ≠ .superseding)
    (hfailed : p = .failed true → ∀ key, s.memo.get key ≠ some b)
    (hr : ∀ c ∈ r, (s.phase c).over = true)
    (hshare : (r ++ []).Perm (s.released ++ s.held (.build b))) :
    Wf ({ s with released := r }.setPhase b p) where
  unstarted c := by
    show Function.update s.phase b p c = _ ↔ _
    rw [Function.update_apply]
    split
    · next hc =>
      subst hc
      exact iff_of_false hp.1 fun h => hb ((hs.unstarted c).mpr h)
    · exact hs.unstarted c
  uncalled := hs.uncalled
  superseding c hc := by
    have hc' : Function.update s.phase b p c = .superseding := hc
    rw [Function.update_apply] at hc'
    split at hc'
    · exact absurd hc' hp.2
    · exact hs.superseding c hc'
  key := hs.key
  -- only the failure that was delivered could break this, and the memo forgot it
  delivered {key c} h hc := by
    have hc' : Function.update s.phase b p c = .failed true := hc
    rw [Function.update_apply] at hc'
    split at hc'
    · next hcb => exact hfailed hc' key (hcb ▸ h)
    · exact hs.delivered h hc'
  released c hc := by
    show (Function.update s.phase b p c).over = true
    rw [Function.update_apply]
    split
    · next hcb => exact hover (hcb ▸ hr c hc)
    · exact hr c hc
  custody := by
    show Custody.Inv (List.range s.started) _
    rw [held_setPhase hp.2, held_released]
    exact hs.custody.transfer (by simp) hshare

/-- A call of `close` goes on. -/
theorem wf_setCloser {s : State κ} (hs : Wf s) {i : ℕ} {closer : Closer} {r : List ℕ}
    (hi : s.closers i ≠ ⟨[], false⟩) (hr : ∀ c ∈ r, (s.phase c).over = true)
    (hshare : (r ++ closer.pending).Perm (s.released ++ (s.closers i).pending)) :
    Wf ({ s with released := r }.setCloser i closer) where
  unstarted := hs.unstarted
  uncalled j hj := by
    show Function.update s.closers i closer j = _
    rw [Function.update_apply, if_neg]
    · exact hs.uncalled j hj
    · rintro rfl
      exact hi (hs.uncalled j hj)
  superseding := hs.superseding
  key := hs.key
  delivered := hs.delivered
  released := hr
  custody := by
    show Custody.Inv (List.range s.started) _
    rw [held_setCloser, held_released]
    exact hs.custody.transfer (by simp) hshare

/-- A failed build is forgotten. -/
theorem wf_evict {s : State κ} (hs : Wf s) {b : ℕ} {key : κ} (hb : (s.phase b).over = true)
    (hmemo : s.memo.get key = some b) :
    Wf ({ s.release b with memo := s.memo.remove key }) where
  unstarted := hs.unstarted
  uncalled := hs.uncalled
  superseding := hs.superseding
  key {key' c} h := by
    rw [LinkedMap.get_remove] at h
    exact hs.key (Option.ite_none_left_eq_some.mp h).2
  delivered {key' c} h := by
    rw [LinkedMap.get_remove] at h
    exact hs.delivered (Option.ite_none_left_eq_some.mp h).2
  released c hc := by
    rcases List.mem_cons.mp hc with rfl | hc
    · exact hb
    · exact hs.released c hc
  custody := by
    show Custody.Inv (List.range s.started) _
    rw [held_memo, State.release, held_released]
    refine hs.custody.transfer (by simp) ?_
    refine List.Perm.trans ?_ (List.Perm.append_left _ (LinkedMap.perm_values_remove hmemo).symm)
    exact List.perm_middle.symm

/-- `close` takes what is memoised. -/
theorem wf_close {s : State κ} (hs : Wf s) :
    Wf { s.setCloser s.called ⟨s.memo.values, false⟩ with
      called := s.called + 1
      memo := .empty } where
  unstarted := hs.unstarted
  uncalled i hi := by
    show Function.update s.closers s.called _ i = _
    rw [Function.update_of_ne (Nat.ne_of_gt hi)]
    exact hs.uncalled i (Nat.le_of_succ_le hi)
  superseding := hs.superseding
  key h := by simp at h
  delivered h := by simp at h
  released := hs.released
  custody := by
    have hheld : State.held { s.setCloser s.called ⟨s.memo.values, false⟩ with
        called := s.called + 1
        memo := .empty } =
        Function.update (Function.update s.held .memo []) (.closer s.called) s.memo.values := by
      rw [Function.update_comm (by simp)]
      exact (held_memo _ .empty).trans (congrArg (Function.update · Holder.memo [])
        (held_setCloser s s.called ⟨s.memo.values, false⟩))
    rw [hheld]
    refine hs.custody.transfer (by simp) ?_
    have hnew : s.held (.closer s.called) = [] := congrArg Closer.pending (hs.uncalled _ le_rfl)
    rw [hnew, List.nil_append, List.append_nil]
    exact List.Perm.refl _

/-- What is held has been started. -/
theorem Wf.lt_started {s : State κ} (hs : Wf s) {b : ℕ} {p : Holder} (hb : b ∈ s.held p) :
    b < s.started := List.mem_range.mp (hs.custody.known_of_mem hb)

theorem Wf.memo_lt {s : State κ} (hs : Wf s) {key : κ} {b : ℕ} (h : s.memo.get key = some b) :
    b < s.started := hs.lt_started (p := .memo) (LinkedMap.mem_values.mpr ⟨key, h⟩)

/-- A new build comes in, and what it supersedes into its hands. -/
theorem custody_start {s : State κ} (hs : Wf s) {key : κ} {superseded : Option ℕ}
    (hmemo : s.memo.get key = superseded) :
    Custody.Inv (List.range (s.started + 1)) (s.start key superseded).held := by
  have hnew : s.started ∉ List.range s.started := by simp
  -- the order of what is known does not matter
  have hrange (hands : Holder → List ℕ)
      (h : Custody.Inv (s.started :: List.range s.started) hands) :
      Custody.Inv (List.range (s.started + 1)) hands :=
    ⟨h.nodup, h.exclusive, fun x => by
      rw [← h.covered x, List.range_succ, List.mem_append, List.mem_singleton, List.mem_cons,
        or_comm]⟩
  have hnone : s.held (.build s.started) = [] :=
    held_build_of_ne (by rw [(hs.unstarted s.started).mpr le_rfl]; simp)
  have hheld : (s.start key superseded).held = Function.update (Function.update s.held .memo
      (s.memo.put key s.started).values) (.build s.started) superseded.toList := by
    funext p
    cases p with
    | memo => rfl
    | build b =>
      by_cases hb : b = s.started
      · subst hb
        cases superseded <;> simp [State.held, State.start]
      · simp [State.held, State.start, hb]
    | closer i => rfl
    | released => rfl
  rw [hheld]
  apply hrange
  cases superseded with
  | none =>
    rw [LinkedMap.values_put_of_not_mem hmemo]
    have hput : Custody.Inv (s.started :: List.range s.started)
        (Function.update s.held .memo (s.memo.values ++ [s.started])) :=
      hs.custody.acquire hnew List.perm_append_comm
    rwa [Option.toList_none, Function.update_eq_self_iff.mpr]
    rw [Function.update_of_ne (by simp), hnone]
  | some c =>
    have hput := hs.custody.acquire hnew (p := .memo) (List.Perm.refl _)
    have hshare : ((s.memo.put key s.started).values ++ [c]).Perm
        (Function.update s.held .memo (s.started :: s.memo.values) .memo ++
          Function.update s.held .memo (s.started :: s.memo.values) (.build s.started)) := by
      rw [Function.update_self, Function.update_of_ne (by simp), hnone, List.append_nil]
      exact LinkedMap.perm_values_put hmemo s.started
    have hgive := hput.transfer (by simp) hshare
    rwa [Function.update_idem] at hgive

theorem wf_start {s : State κ} (hs : Wf s) {key : κ} {superseded : Option ℕ}
    (hmemo : s.memo.get key = superseded) : Wf (s.start key superseded) where
  -- the build with the next number was not started, and is now
  unstarted b := by
    show Function.update s.phase s.started _ b = _ ↔ s.started + 1 ≤ b
    rw [Function.update_apply]
    split
    · next hb =>
      subst hb
      refine iff_of_false ?_ (Nat.not_succ_le_self _)
      split <;> simp
    · next hb => rw [hs.unstarted b, Nat.succ_le_iff, le_iff_eq_or_lt, or_iff_right (Ne.symm hb)]
  uncalled := hs.uncalled
  superseding b hb := by
    have hb' : Function.update s.phase s.started
        (if superseded.isSome then .superseding else .working) b = .superseding := hb
    show ∃ c < b, Function.update s.superseded s.started superseded b = some c
    rw [Function.update_apply] at hb' ⊢
    split
    · next heq =>
      subst heq
      cases superseded with
      | none => exact absurd hb' (by simp)
      | some c => exact ⟨c, hs.memo_lt hmemo, rfl⟩
    · next hne =>
      rw [if_neg hne] at hb'
      exact hs.superseding b hb'
  -- the memo has the new build for the key, and what it had for the others
  key {key' b} h := by
    have h' : (s.memo.put key s.started).get key' = some b := h
    show Function.update s.key s.started (some key) b = some key'
    rw [LinkedMap.get_put] at h'
    split at h'
    · next hkey => rw [← Option.some_inj.mp h', Function.update_self, hkey]
    · rw [Function.update_of_ne (Nat.ne_of_lt (hs.memo_lt h'))]
      exact hs.key h'
  delivered {key' b} h := by
    have h' : (s.memo.put key s.started).get key' = some b := h
    show Function.update s.phase s.started _ b ≠ _
    rw [LinkedMap.get_put] at h'
    split at h'
    · rw [← Option.some_inj.mp h', Function.update_self]
      split <;> simp
    · rw [Function.update_of_ne (Nat.ne_of_lt (hs.memo_lt h'))]
      exact hs.delivered h'
  released b hb := by
    show (Function.update s.phase s.started _ b).over = true
    rw [Function.update_of_ne (Nat.ne_of_lt (hs.lt_started (p := .released) hb))]
    exact hs.released b hb
  custody := custody_start hs hmemo

theorem step_wf {s t : State κ} {a : Action κ} (h : step s a = some t) (hs : Wf s) : Wf t := by
  -- a build that holds nothing goes on
  have hsetPhase {b : ℕ} {p : Phase} (hb : s.phase b = .closing ∨ s.phase b = .working ∨
      s.phase b = .failed false) (hp : p ≠ .unstarted ∧ p ≠ .superseding)
      (hover : (s.phase b).over = true → p.over = true)
      (hfailed : p = .failed true → ∀ key, s.memo.get key ≠ some b) : Wf (s.setPhase b p) := by
    refine wf_setPhase (r := s.released) hs ?_ hover hp hfailed hs.released ?_
    · rcases hb with hb | hb | hb <;> simp [hb]
    · rw [held_build_of_ne]
      rcases hb with hb | hb | hb <;> simp [hb]
  have hreleased {c : ℕ} (hc : (s.phase c).over = true) :
      ∀ d ∈ c :: s.released, (s.phase d).over = true :=
    List.forall_mem_cons.mpr ⟨hc, hs.released⟩
  cases step_cases h with
  | join => exact hs
  | supersede hmemo => exact wf_start hs hmemo
  | first hmemo => exact wf_start hs hmemo
  | @take b c hb hc hopened =>
    refine wf_setPhase hs (by simp [hb]) (by simp [hb, Phase.over]) (by simp) (by simp)
      (hreleased (by simp [hopened, Phase.over])) ?_
    rw [held_build hb hc, List.append_nil]
    exact List.perm_append_singleton c s.released |>.symm
  | @ignore b c _ hb hc hfailed =>
    refine wf_setPhase hs (by simp [hb]) (by simp [hb, Phase.over]) (by simp) (by simp)
      (hreleased (by simp [hfailed, Phase.over])) ?_
    rw [held_build hb hc, List.append_nil]
    exact List.perm_append_singleton c s.released |>.symm
  | closed hb => exact hsetPhase (.inl hb) (by simp) (by simp [hb, Phase.over]) (by simp)
  | opened hb => exact hsetPhase (.inr (.inl hb)) (by simp) (by simp [hb, Phase.over]) (by simp)
  | fail hb => exact hsetPhase (.inr (.inl hb)) (by simp) (by simp [hb, Phase.over]) (by simp)
  | @evict b key hb hkey hmemo =>
    have hevict := wf_evict hs (by simp [hb, Phase.over]) hmemo
    refine wf_setPhase (r := b :: s.released) hevict ?_ ?_ (by simp) ?_ hevict.released ?_
    · exact fun h => absurd (hb.symm.trans h) (by simp)
    · exact fun _ => rfl
    · intro _ key' h
      rw [LinkedMap.get_remove] at h
      obtain ⟨hne, h⟩ := Option.ite_none_left_eq_some.mp h
      exact hne (Option.some_inj.mp ((hs.key h).symm.trans hkey))
    · show (b :: s.released ++ []).Perm (b :: s.released ++ s.held (.build b))
      rw [held_build_of_ne (by simp [hb])]
  | deliver hb hmemo =>
    refine hsetPhase (.inr (.inr hb)) (by simp) (by simp [Phase.over]) fun _ key h => ?_
    exact hmemo key (hs.key h) h
  | close => exact wf_close hs
  | @takeNext i c rest hi hopened =>
    refine wf_setCloser hs (by simp [hi]) (hreleased (by simp [hopened, Phase.over])) ?_
    rw [hi]
    exact List.perm_middle.symm
  | @skip i c rest _ hi hfailed =>
    refine wf_setCloser hs (by simp [hi]) (hreleased (by simp [hfailed, Phase.over])) ?_
    rw [hi]
    exact List.perm_middle.symm
  | @next i hi =>
    refine wf_setCloser (r := s.released) hs ?_ hs.released (List.Perm.refl _)
    intro h
    simp [h] at hi

theorem run_wf {s : State κ} {as : List (Action κ)} (h : Machine.run step init as = some s) :
    Wf s := Machine.run_invariant step_wf h init_wf

/-! ### Going on -/

/-- What goes on without a new call. -/
def Action.internal : Action κ → Bool
  | .lookup _ _ | .close => false
  | _ => true

/-- Every build is over, its failure has been seen, and every call of `close` has returned. -/
structure Settled (s : State κ) : Prop where
  builds : ∀ b, s.phase b = .unstarted ∨ s.phase b = .opened ∨ s.phase b = .failed true
  closers : ∀ i, s.closers i = ⟨[], false⟩

/-- Nothing can go on without a new call. -/
def State.Stuck (s : State κ) : Prop := ∀ a : Action κ, a.internal = true → step s a = none

/-- **Nothing waits for ever**: where nothing can go on, everything is over. -/
theorem stuck_settled {s : State κ} (hs : Wf s) (hstuck : s.Stuck) : Settled s := by
  have hbuilds (b : ℕ) : s.phase b = .unstarted ∨ s.phase b = .opened ∨
      s.phase b = .failed true := by
    -- what a build supersedes was started before it
    induction b using Nat.strongRecOn with
    | ind b ih =>
      cases hb : s.phase b with
      | unstarted => exact .inl rfl
      | opened => exact .inr (.inl rfl)
      | superseding =>
        obtain ⟨c, hc, hsuper⟩ := hs.superseding b hb
        have hnone := hstuck (.superseded b) rfl
        have hstarted : s.phase c ≠ .unstarted := by
          rw [Ne, hs.unstarted, Nat.not_le]
          exact hs.lt_started (p := .build b) (by rw [held_build hb hsuper]; simp)
        rcases ih c hc with hphase | hphase | hphase
        · exact absurd hphase hstarted
        · simp [step, hb, hsuper, hphase] at hnone
        · simp [step, hb, hsuper, hphase] at hnone
      | closing =>
        have hnone := hstuck (.closed b) rfl
        simp [step, hb] at hnone
      | working =>
        have hnone := hstuck (.opened b) rfl
        simp [step, hb] at hnone
      | failed delivered =>
        cases delivered with
        | true => exact .inr (.inr rfl)
        | false =>
          have hnone := hstuck (.deliver b) rfl
          simp [step, hb] at hnone
  refine ⟨hbuilds, fun i => ?_⟩
  have hnext := hstuck (.next i) rfl
  have hawaited := hstuck (.awaited i) rfl
  have hpending : ∀ c ∈ (s.closers i).pending, s.phase c ≠ .unstarted := by
    intro c hc
    rw [Ne, hs.unstarted, Nat.not_le]
    exact hs.lt_started (p := .closer i) hc
  cases hi : s.closers i with
  | mk pending closing =>
    cases closing with
    | true => simp [step, hi] at hnext
    | false =>
      cases pending with
      | nil => rfl
      | cons c rest =>
        rw [hi] at hpending
        rcases hbuilds c with hphase | hphase | hphase
        · exact absurd hphase (hpending c List.mem_cons_self)
        · simp [step, hi, hphase] at hawaited
        · simp [step, hi, hphase] at hawaited

/-- The steps that a build has before it. -/
def Phase.rank : Phase → ℕ
  | .superseding => 4
  | .closing => 3
  | .working => 2
  | .failed false => 1
  | _ => 0

def Closer.rank (closer : Closer) : ℕ := 2 * closer.pending.length + closer.closing.toNat

/-- How many steps there are left without a new call, at most. -/
def State.rank (s : State κ) : ℕ :=
  ∑ b ∈ Finset.range s.started, (s.phase b).rank +
    ∑ i ∈ Finset.range s.called, (s.closers i).rank

theorem sum_update_lt {f : ℕ → ℕ} {n b v : ℕ} (hb : b < n) (hv : v < f b) :
    ∑ c ∈ Finset.range n, Function.update f b v c < ∑ c ∈ Finset.range n, f c := by
  refine Finset.sum_lt_sum (fun c _ => ?_) ⟨b, Finset.mem_range.mpr hb, ?_⟩
  · rw [Function.update_apply]
    split
    · next hc => exact hc ▸ hv.le
    · exact le_rfl
  · rwa [Function.update_self]

omit [DecidableEq κ] in
theorem rank_setPhase {s : State κ} {b : ℕ} {p : Phase} (hb : b < s.started)
    (hp : p.rank < (s.phase b).rank) : (s.setPhase b p).rank < s.rank := by
  refine Nat.add_lt_add_right ?_ _
  simp only [State.setPhase, Function.apply_update fun _ => Phase.rank]
  exact sum_update_lt hb hp

omit [DecidableEq κ] in
theorem rank_setCloser {s : State κ} {i : ℕ} {closer : Closer} (hi : i < s.called)
    (h : closer.rank < (s.closers i).rank) : (s.setCloser i closer).rank < s.rank := by
  refine Nat.add_lt_add_left ?_ _
  simp only [State.setCloser, Function.apply_update fun _ => Closer.rank]
  exact sum_update_lt hi h

theorem step_rank {s t : State κ} {a : Action κ} (hs : Wf s) (ha : a.internal = true)
    (h : step s a = some t) : t.rank < s.rank := by
  have hstarted {b : ℕ} {p : Phase} (hb : s.phase b = p) (hp : p ≠ .unstarted) :
      b < s.started := by
    rw [← Nat.not_le, ← hs.unstarted, hb]
    exact hp
  have hcalled {i : ℕ} (hi : s.closers i ≠ ⟨[], false⟩) : i < s.called := by
    rw [← Nat.not_le]
    exact fun hle => hi (hs.uncalled i hle)
  cases step_cases h with
  -- calls from outside are not bounded
  | join => exact absurd ha (by simp [Action.internal])
  | supersede => exact absurd ha (by simp [Action.internal])
  | first => exact absurd ha (by simp [Action.internal])
  | close => exact absurd ha (by simp [Action.internal])
  -- a build goes to a later phase
  | @take b c hb =>
    exact rank_setPhase (s := s.release c) (hstarted hb (by simp)) (by
      show _ < (s.phase b).rank
      rw [hb]
      decide)
  | @ignore b c _ hb =>
    exact rank_setPhase (s := s.release c) (hstarted hb (by simp)) (by
      show _ < (s.phase b).rank
      rw [hb]
      decide)
  | closed hb => exact rank_setPhase (hstarted hb (by simp)) (by rw [hb]; decide)
  | opened hb => exact rank_setPhase (hstarted hb (by simp)) (by rw [hb]; decide)
  | fail hb => exact rank_setPhase (hstarted hb (by simp)) (by rw [hb]; decide)
  | @evict b key hb =>
    exact rank_setPhase (s := { s.release b with memo := s.memo.remove key })
      (hstarted hb (by simp)) (by
        show _ < (s.phase b).rank
        rw [hb]
        decide)
  | deliver hb => exact rank_setPhase (hstarted hb (by simp)) (by rw [hb]; decide)
  -- a call of close goes on to the next handle, or stops waiting for one
  | @takeNext i c rest hi =>
    refine rank_setCloser (s := s.release c) (hcalled (by simp [hi])) ?_
    show _ < (s.closers i).rank
    rw [hi]
    simp only [Closer.rank, List.length_cons, Bool.toNat_true, Bool.toNat_false]
    omega
  | @skip i c rest _ hi =>
    refine rank_setCloser (s := s.release c) (hcalled (by simp [hi])) ?_
    show _ < (s.closers i).rank
    rw [hi]
    simp only [Closer.rank, List.length_cons, Bool.toNat_false]
    omega
  | @next i hi =>
    refine rank_setCloser (hcalled fun h => by simp [h] at hi) ?_
    simp only [Closer.rank, hi, Bool.toNat_true, Bool.toNat_false]
    omega

/-- Without a new call a run comes to an end. -/
theorem run_rank {s t : State κ} {as : List (Action κ)} (hs : Wf s)
    (has : ∀ a ∈ as, a.internal = true) (h : Machine.run step s as = some t) :
    as.length + t.rank ≤ s.rank := by
  induction as generalizing s with
  | nil =>
    obtain rfl := Option.some_inj.mp h
    simp
  | cons a as ih =>
    obtain ⟨u, hu, hrest⟩ := Machine.run_cons_eq_some.mp h
    have hlt := step_rank hs (has a List.mem_cons_self) hu
    have hle := ih (step_wf hu hs) (fun b hb => has b (List.mem_cons_of_mem a hb)) hrest
    rw [List.length_cons]
    omega

/-- And it can go on until nothing can. -/
theorem settles {s : State κ} (hs : Wf s) :
    ∃ as t, (∀ a ∈ as, a.internal = true) ∧ Machine.run step s as = some t ∧ t.Stuck := by
  induction hn : s.rank using Nat.strongRecOn generalizing s with
  | ind n ih =>
    by_cases hstuck : s.Stuck
    · exact ⟨[], s, by simp, rfl, hstuck⟩
    · simp only [State.Stuck, not_forall] at hstuck
      obtain ⟨a, ha, hstep⟩ := hstuck
      obtain ⟨u, hu⟩ := Option.ne_none_iff_exists'.mp hstep
      obtain ⟨as, t, has, hrun, ht⟩ := ih u.rank (hn ▸ step_rank hs ha hu) (step_wf hu hs) rfl
      exact ⟨a :: as, t, List.forall_mem_cons.mpr ⟨ha, has⟩,
        Machine.run_cons_eq_some.mpr ⟨u, hu, hrun⟩, ht⟩

/-! ### What stays open -/

/-- A database that was opened and that nobody has called `close()` on. -/
def State.Open (s : State κ) (b : ℕ) : Prop := s.phase b = .opened ∧ b ∉ s.released

theorem open_held {s : State κ} (hs : Wf s) {b : ℕ} (hb : s.Open b) :
    ∃ p, p ≠ Holder.released ∧ b ∈ s.held p := by
  have hstarted : b ∈ List.range s.started := by
    rw [List.mem_range, ← Nat.not_le, ← hs.unstarted, hb.1]
    simp
  obtain ⟨p, hp⟩ := (hs.custody.covered b).mp hstarted
  refine ⟨p, ?_, hp⟩
  rintro rfl
  exact hb.2 hp

/-- Where everything is over, what is memoised is what is open. -/
theorem settled_open_iff {s : State κ} (hs : Wf s) (hsettled : Settled s) {b : ℕ} :
    s.Open b ↔ ∃ key, s.memo.get key = some b := by
  constructor
  · intro hb
    obtain ⟨p, hp, hmem⟩ := open_held hs hb
    cases p with
    | memo => exact LinkedMap.mem_values.mp hmem
    | build c =>
      rw [held_build_of_ne] at hmem
      · exact absurd hmem (by simp)
      · rcases hsettled.builds c with h | h | h <;> simp [h]
    | closer i =>
      have hnone : s.held (.closer i) = [] := congrArg Closer.pending (hsettled.closers i)
      rw [hnone] at hmem
      exact absurd hmem (by simp)
    | released => exact absurd rfl hp
  · rintro ⟨key, hkey⟩
    have hmem : b ∈ s.held .memo := LinkedMap.mem_values.mpr ⟨key, hkey⟩
    constructor
    · rcases hsettled.builds b with h | h | h
      · exact absurd ((hs.unstarted b).mp h) (Nat.not_le.mpr (hs.memo_lt hkey))
      · exact h
      · exact absurd h (hs.delivered hkey)
    · exact fun h => absurd (hs.custody.exclusive (p := .memo) (q := .released) hmem h) (by simp)

/-- **Every database is accounted for**: none is closed twice; without new calls a run comes
to an end, and there the open databases are the memoised ones, one under each key. -/
theorem handles_accounted {s : State κ} {as : List (Action κ)}
    (h : Machine.run step init as = some s) :
    s.released.Nodup ∧
    (∃ n, ∀ bs t, (∀ a ∈ bs, a.internal = true) → Machine.run step s bs = some t →
      bs.length ≤ n) ∧
    ∀ bs t, (∀ a ∈ bs, a.internal = true) → Machine.run step s bs = some t → t.Stuck →
      ∀ b, t.Open b ↔ ∃ key, t.memo.get key = some b := by
  have hs := run_wf h
  refine ⟨hs.custody.nodup .released, ⟨s.rank, fun bs t hbs hrun => ?_⟩,
    fun bs t hbs hrun hstuck b => ?_⟩
  · exact Nat.le_of_add_right_le (run_rank hs hbs hrun)
  · have ht := Machine.run_invariant step_wf hrun hs
    exact settled_open_iff ht (stuck_settled ht hstuck)

/-- A superseded database, and one that `close` has to wait for. -/
def replaced : List (Action ℕ) :=
  [.lookup 0 false, .opened 0, .lookup 0 true, .superseded 1, .closed 1, .close, .lookup 0 false,
    .opened 2, .opened 1, .awaited 0, .next 0]

/-- The first two databases are closed, the third is open. -/
theorem handles_accounted_replaced : ∃ s : State ℕ, Machine.run step init replaced = some s ∧
    s.released.Nodup ∧ s.memo.get 0 = some 2 := by
  obtain ⟨s, hrun, hmemo⟩ := Machine.exists_run step init replaced
    (p := fun s => s.memo.get 0 = some 2) (by decide +kernel)
  exact ⟨s, hrun, (handles_accounted hrun).1, of_decide_eq_true hmemo⟩

/-- What is memoised from now on is of builds that start from now on. -/
theorem run_newer {s t : State κ} {n : ℕ} {as : List (Action κ)}
    (h : Machine.run step s as = some t)
    (hs : n ≤ s.started ∧ ∀ key b, s.memo.get key = some b → n ≤ b) :
    n ≤ t.started ∧ ∀ key b, t.memo.get key = some b → n ≤ b := by
  refine Machine.run_invariant (I := fun s : State κ =>
    n ≤ s.started ∧ ∀ key b, s.memo.get key = some b → n ≤ b) (fun {s a t} hstep hs => ?_) h hs
  have hstart (key : κ) (superseded : Option ℕ) : n ≤ (s.start key superseded).started ∧
      ∀ key' b, (s.start key superseded).memo.get key' = some b → n ≤ b := by
    refine ⟨Nat.le_succ_of_le hs.1, fun key' b hb => ?_⟩
    have hb' : (s.memo.put key s.started).get key' = some b := hb
    rw [LinkedMap.get_put] at hb'
    split at hb'
    · exact Option.some_inj.mp hb' ▸ hs.1
    · exact hs.2 key' b hb'
  cases step_cases hstep with
  | supersede => exact hstart _ _
  | first => exact hstart _ _
  | evict =>
    refine ⟨hs.1, fun key b hb => ?_⟩
    have hb' : (s.memo.remove _).get key = some b := hb
    rw [LinkedMap.get_remove] at hb'
    exact hs.2 key b (Option.ite_none_left_eq_some.mp hb').2
  | close => exact ⟨hs.1, fun key b hb => absurd hb (by simp)⟩
  | _ => exact hs

/-- Builds start with lookups only. -/
theorem run_started {s t : State κ} {as : List (Action κ)} (has : ∀ a ∈ as, a.internal = true)
    (h : Machine.run step s as = some t) : t.started = s.started := by
  refine Machine.run_invariant_along (I := fun u : State κ => u.started = s.started)
    (fun u a v htakes hu => ?_) h rfl
  have ha := has a htakes.mem
  cases step_cases htakes.step_eq with
  | supersede => exact absurd ha (by simp [Action.internal])
  | first => exact absurd ha (by simp [Action.internal])
  | _ => exact hu

/-- **After `close`** no lookup gets a build from before it; and if no other call is made,
every run comes to an end, and where nothing can go on the builds and the calls of `close` are
over and no database is open. -/
theorem close_closes {s : State κ} {as : List (Action κ)} (h : Machine.run step init as = some s) :
    (∀ bs t, Machine.run step s (.close :: bs) = some t →
      ∀ key b, t.memo.get key = some b → s.started ≤ b) ∧
    (∃ n, ∀ bs t, (∀ a ∈ bs, a.internal = true) → Machine.run step s (.close :: bs) = some t →
      bs.length ≤ n) ∧
    (∀ bs t, (∀ a ∈ bs, a.internal = true) → Machine.run step s (.close :: bs) = some t →
      t.Stuck → Settled t ∧ ∀ b, ¬ t.Open b) ∧
    ∃ bs t, (∀ a ∈ bs, a.internal = true) ∧ Machine.run step s (.close :: bs) = some t ∧
      t.Stuck := by
  have hs := run_wf h
  obtain ⟨u, hu⟩ : ∃ u, step s .close = some u := ⟨_, rfl⟩
  have hclosed : Wf u := step_wf hu hs
  have hrest {bs : List (Action κ)} {t : State κ}
      (hrun : Machine.run step s (.close :: bs) = some t) : Machine.run step u bs = some t := by
    obtain ⟨u', hu', hrest⟩ := Machine.run_cons_eq_some.mp hrun
    exact Option.some_inj.mp (hu'.symm.trans hu) ▸ hrest
  have hempty : s.started = u.started ∧ ∀ key, u.memo.get key = none := by
    obtain rfl := Option.some_inj.mp hu
    exact ⟨rfl, fun key => LinkedMap.get_empty key⟩
  have hnewer {bs : List (Action κ)} {t : State κ}
      (hrun : Machine.run step s (.close :: bs) = some t) (key : κ) (b : ℕ)
      (hb : t.memo.get key = some b) : s.started ≤ b :=
    (run_newer (hrest hrun) ⟨hempty.1.le, fun key b hb => by simp [hempty.2] at hb⟩).2 key b hb
  refine ⟨fun bs t hrun => hnewer hrun, ⟨u.rank, fun bs t hbs hrun => ?_⟩,
    fun bs t hbs hrun hstuck => ?_, ?_⟩
  · exact Nat.le_of_add_right_le (run_rank hclosed hbs (hrest hrun))
  · have ht := Machine.run_invariant step_wf hrun hs
    have hsettled := stuck_settled ht hstuck
    refine ⟨hsettled, fun b hb => ?_⟩
    obtain ⟨key, hkey⟩ := (settled_open_iff ht hsettled).mp hb
    -- it would have started after `close`
    have hle : t.started ≤ b :=
      ((run_started hbs (hrest hrun)).trans hempty.1.symm).le.trans (hnewer hrun key b hkey)
    exact absurd (ht.memo_lt hkey) (Nat.not_lt.mpr hle)
  · obtain ⟨bs, t, hbs, hrun, ht⟩ := settles hclosed
    exact ⟨bs, t, hbs, Machine.run_cons_eq_some.mpr ⟨u, hu, hrun⟩, ht⟩

/-- `close` while a build supersedes another. -/
theorem close_closes_replaced : ∃ (s : State ℕ) (bs : List (Action ℕ)) (t : State ℕ),
    Machine.run step init (replaced.take 3) = some s ∧
    Machine.run step s (.close :: bs) = some t ∧ Settled t ∧ ∀ b, ¬ t.Open b := by
  obtain ⟨s, hrun, -⟩ := Machine.exists_run step (init : State ℕ) (replaced.take 3)
    (p := fun _ => true) (by decide +kernel)
  obtain ⟨-, -, hover, bs, t, hbs, hclose, ht⟩ := close_closes hrun
  exact ⟨s, bs, t, hrun, hclose, hover bs t hbs hclose ht⟩

end CatalogHandles
