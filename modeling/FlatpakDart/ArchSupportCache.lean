/-
The cache in front of the scan for executable architectures (`lib/src/arch.dart`).

`ArchSupportCache` is the class over Dart's `Stopwatch`; a `World` adds the clock
and, for the statements, the scans so far.  A run is any order of queries,
`invalidate()` and time passing, with any outcome of each scan.

* `Linked` — what every run keeps: where the set comes from, and which scan the
  stopwatch counts from;
* `query_sound_iff` — a query is answered as it should be exactly if it does not come
  within the window of a scan that threw over an older set;
* `staleness_iff` — the same for every query of a run.
-/
import FlatpakDart.Machine
import Mathlib.Algebra.Order.Group.Int

/-! ### The stopwatch -/

/-- `Stopwatch` of `dart:core`, with the clock in microseconds. -/
structure Stopwatch where
  start : ℕ
  stop : Option ℕ

namespace Stopwatch

/-- A new stopwatch does not run. -/
def new : Stopwatch := ⟨0, some 0⟩

/-- `elapsed` -/
def elapsed (w : Stopwatch) (now : ℕ) : ℤ := ((w.stop.getD now : ℕ) : ℤ) - w.start

/-- `reset()` -/
def reset (w : Stopwatch) (now : ℕ) : Stopwatch := { w with start := w.stop.getD now }

/-- `start()`: the time while it was stopped does not count. -/
def run (w : Stopwatch) (now : ℕ) : Stopwatch :=
  match w.stop with
  | some stop => ⟨w.start + (now - stop), none⟩
  | none => w

/-- `stop()` -/
def halt (w : Stopwatch) (now : ℕ) : Stopwatch := { w with stop := some (w.stop.getD now) }

@[simp] theorem elapsed_running (start now : ℕ) :
    elapsed ⟨start, none⟩ now = (now : ℤ) - start := rfl

/-- `reset()` and `start()` count from now. -/
theorem run_reset {w : Stopwatch} {now : ℕ} (h : ∀ stop, w.stop = some stop → stop ≤ now) :
    (w.reset now).run now = ⟨now, none⟩ := by
  obtain ⟨start, stop⟩ := w
  cases stop with
  | none => rfl
  | some stop => simp [reset, run, h stop rfl]

end Stopwatch

/-! ### The cache -/

/-- `ArchSupportCache`, for any type of sets. -/
structure ArchSupportCache (α : Type*) where
  /-- in microseconds, as a `Duration` is -/
  cacheFor : ℤ
  cached : Option α
  age : Stopwatch
  scans : ℕ

namespace ArchSupportCache

variable {α : Type*}

def new (α : Type*) (cacheFor : ℤ) : ArchSupportCache α := ⟨cacheFor, none, Stopwatch.new, 0⟩

/-- What a query does: it returns the cached set, or what `_scan()` gives, with
`none` if that throws. -/
inductive Answer (α : Type*) where
  | fromCache (set : α)
  | fromScan (outcome : Option α)

/-- The set that is returned. -/
def Answer.set? : Answer α → Option α
  | .fromCache set => some set
  | .fromScan outcome => outcome

/-- The rest of `executableArches()`: if `_scan()` throws, `_cached` is not
assigned. -/
def rescan (c : ArchSupportCache α) (now : ℕ) (outcome : Option α) : ArchSupportCache α :=
  { c with
    scans := c.scans + 1
    age := (c.age.reset now).run now
    cached := outcome.or c.cached }

/-- `executableArches()`, when `_scan()` has this outcome. -/
def executableArches (c : ArchSupportCache α) (now : ℕ) (outcome : Option α) :
    ArchSupportCache α × Answer α :=
  match c.cached with
  | some cached =>
    if c.age.elapsed now < c.cacheFor then (c, .fromCache cached)
    else (c.rescan now outcome, .fromScan outcome)
  | none => (c.rescan now outcome, .fromScan outcome)

/-- `invalidate()` -/
def invalidate (c : ArchSupportCache α) (now : ℕ) : ArchSupportCache α :=
  { c with cached := none, age := (c.age.halt now).reset now }

/-- A query returns a set that is young enough, or it scans. -/
theorem executableArches_cases (c : ArchSupportCache α) (now : ℕ) (outcome : Option α) :
    (∃ set, c.cached = some set ∧ c.age.elapsed now < c.cacheFor ∧
      c.executableArches now outcome = (c, .fromCache set)) ∨
    ((∀ set, c.cached = some set → c.cacheFor ≤ c.age.elapsed now) ∧
      c.executableArches now outcome = (c.rescan now outcome, .fromScan outcome)) := by
  cases hcached : c.cached with
  | none => exact .inr ⟨by simp, by rw [executableArches, hcached]⟩
  | some set =>
    by_cases hyoung : c.age.elapsed now < c.cacheFor
    · exact .inl ⟨set, rfl, hyoung, by rw [executableArches, hcached]; exact if_pos hyoung⟩
    · refine .inr ⟨fun _ _ => not_lt.mp hyoung, ?_⟩
      rw [executableArches, hcached]
      exact if_neg hyoung

/-! ### Runs -/

/-- A scan: when it began, and what came of it. -/
structure Scan (α : Type*) where
  began : ℕ
  outcome : Option α

/-- The cache and the clock, with the scans so far and how many of them had begun
at the last `invalidate()`. -/
structure World (α : Type*) where
  clock : ℕ
  cache : ArchSupportCache α
  log : List (Scan α)
  forgotten : ℕ

def World.init (α : Type*) (cacheFor : ℤ) : World α := ⟨0, new α cacheFor, [], 0⟩

/-- What happens: a query, whose scan would take this long; `invalidate()`; time
passes. -/
inductive Event (α : Type*) where
  | query (outcome : Option α) (took : ℕ)
  | invalidate
  | elapse (time : ℕ)

/-- `executableArches()` -/
def World.query (w : World α) (outcome : Option α) (took : ℕ) : World α × Answer α :=
  match w.cache.executableArches w.clock outcome with
  | (c, .fromCache set) => ({ w with cache := c }, .fromCache set)
  | (c, .fromScan r) =>
    ({ w with cache := c, clock := w.clock + took, log := w.log ++ [⟨w.clock, r⟩] }, .fromScan r)

def World.step (w : World α) : Event α → Option (World α)
  | .query outcome took => some (w.query outcome took).1
  | .invalidate =>
    some { w with cache := w.cache.invalidate w.clock, forgotten := w.log.length }
  | .elapse time => some { w with clock := w.clock + time }

/-- The scan `i` succeeded, and no `invalidate()` came since. -/
def World.Valid (w : World α) (i : ℕ) (r : Scan α) (set : α) : Prop :=
  w.log[i]? = some r ∧ r.outcome = some set ∧ w.forgotten ≤ i

/-- Less than `cacheFor` has passed since the scan began. -/
def World.Recent (w : World α) (r : Scan α) : Prop :=
  (w.clock : ℤ) - r.began < w.cache.cacheFor

/-- A query that takes `w` to `w'` is answered as it should be: the set that it
returns is from a scan of its own or from a recent one, after the last
`invalidate()`; and while a recent scan has succeeded, it does not scan. -/
structure Sound (w w' : World α) (answer : Option α) : Prop where
  fresh : ∀ set, answer = some set →
    ∃ i r, w'.Valid i r set ∧ (w.log.length ≤ i ∨ w.Recent r)
  reuse : (∃ i r set, w.Valid i r set ∧ w.Recent r) → w'.log = w.log

/-- The last scan threw not long ago, over a set of an older scan that no
`invalidate()` has dropped. -/
def World.Stale (w : World α) : Prop :=
  (∃ r, w.log.getLast? = some r ∧ r.outcome = none ∧ w.Recent r) ∧ ∃ i r set, w.Valid i r set

/-! ### What every run keeps -/

/-- Where the cached set is from, and what the stopwatch counts from. -/
structure Linked (w : World α) : Prop where
  began : ∀ r ∈ w.log, r.began ≤ w.clock
  ordered : w.log.Pairwise (·.began ≤ ·.began)
  stopped : ∀ stop, w.cache.age.stop = some stop → stop ≤ w.clock
  forgotten : w.forgotten ≤ w.log.length
  /-- the stopwatch counts from the last scan -/
  counting : ∀ set, w.cache.cached = some set →
    ∃ r, w.log.getLast? = some r ∧ w.cache.age = ⟨r.began, none⟩
  dropped : w.cache.cached = none → ∀ i r set, ¬ w.Valid i r set
  /-- the cached set is the last one found, and scans that threw came too late
  for it to be recent -/
  origin : ∀ set, w.cache.cached = some set → ∃ i r, w.Valid i r set ∧
    ∀ j r', i < j → w.log[j]? = some r' →
      r'.outcome = none ∧ w.cache.cacheFor ≤ (r'.began : ℤ) - r.began

theorem linked_init (cacheFor : ℤ) : Linked (World.init α cacheFor) where
  began := by simp [World.init]
  ordered := List.Pairwise.nil
  stopped := by simp [World.init, new, Stopwatch.new]
  forgotten := Nat.le_refl 0
  counting := by simp [World.init, new]
  dropped := by simp [World.init, World.Valid]
  origin := by simp [World.init, new]

/-- A scan of the log after one more is an earlier one, or it is that one. -/
theorem getElem?_log {log : List (Scan α)} {last r : Scan α} {i : ℕ} :
    (log ++ [last])[i]? = some r ↔ log[i]? = some r ∨ (i = log.length ∧ last = r) := by
  rcases Nat.lt_trichotomy i log.length with hi | rfl | hi
  · rw [List.getElem?_append_left hi]
    simp [Nat.ne_of_lt hi]
  · simp
  · rw [List.getElem?_eq_none (by simp; omega), List.getElem?_eq_none (by omega)]
    simp [Nat.ne_of_gt hi]

/-- A query leaves the world as it is, or it adds its scan. -/
theorem World.query_cases (w : World α) (outcome : Option α) (took : ℕ) :
    (∃ set, w.cache.cached = some set ∧ w.cache.age.elapsed w.clock < w.cache.cacheFor ∧
      w.query outcome took = (w, .fromCache set)) ∨
    ((∀ set, w.cache.cached = some set → w.cache.cacheFor ≤ w.cache.age.elapsed w.clock) ∧
      w.query outcome took =
        ({ w with
            cache := w.cache.rescan w.clock outcome
            clock := w.clock + took
            log := w.log ++ [⟨w.clock, outcome⟩] }, .fromScan outcome)) := by
  rcases w.cache.executableArches_cases w.clock outcome with
    ⟨set, hcached, hyoung, heq⟩ | ⟨hold, heq⟩
  · exact .inl ⟨set, hcached, hyoung, by rw [query, heq]⟩
  · exact .inr ⟨hold, by rw [query, heq]⟩

/-- Scans begin one after the other. -/
theorem Linked.began_le {w : World α} (h : Linked w) {i j : ℕ} {r r' : Scan α}
    (hr : w.log[i]? = some r) (hr' : w.log[j]? = some r') (hij : i ≤ j) : r.began ≤ r'.began := by
  obtain ⟨hi, rfl⟩ := List.getElem?_eq_some_iff.mp hr
  obtain ⟨hj, rfl⟩ := List.getElem?_eq_some_iff.mp hr'
  rcases Nat.eq_or_lt_of_le hij with rfl | hlt
  · exact Nat.le_refl _
  · exact List.pairwise_iff_getElem.mp h.ordered i j hi hj hlt

/-- The age of the cached set counts from the last scan. -/
theorem Linked.elapsed_eq {w : World α} (h : Linked w) {set : α}
    (hcached : w.cache.cached = some set) :
    ∃ last, w.log[w.log.length - 1]? = some last ∧ w.log.getLast? = some last ∧
      w.cache.age.elapsed w.clock = (w.clock : ℤ) - last.began := by
  obtain ⟨last, hlast, hage⟩ := h.counting set hcached
  exact ⟨last, by rw [← List.getLast?_eq_getElem?, hlast], hlast, by rw [hage]; rfl⟩

theorem World.Valid.index_le {w : World α} {i : ℕ} {r : Scan α} {set : α} (h : w.Valid i r set) :
    i ≤ w.log.length - 1 := by
  obtain ⟨hi, -⟩ := List.getElem?_eq_some_iff.mp h.1
  omega

theorem linked_query {w : World α} (h : Linked w) (outcome : Option α) (took : ℕ) :
    Linked (w.query outcome took).1 := by
  rcases w.query_cases outcome took with ⟨set, -, -, heq⟩ | ⟨hold, heq⟩
  · rw [heq]
    exact h
  rw [heq]
  have hage : (w.cache.rescan w.clock outcome).age = ⟨w.clock, none⟩ :=
    Stopwatch.run_reset h.stopped
  refine
    { began := fun r hr => ?_, ordered := ?_, stopped := ?_, forgotten := ?_
      counting := ?_, dropped := ?_, origin := ?_ }
  · rcases List.mem_append.mp hr with hr | hr
    · exact (h.began r hr).trans (Nat.le_add_right _ _)
    · rw [List.mem_singleton.mp hr]
      exact Nat.le_add_right _ _
  · refine List.pairwise_append.mpr ⟨h.ordered, List.pairwise_singleton _ _, fun r hr r' hr' => ?_⟩
    rw [List.mem_singleton.mp hr']
    exact h.began r hr
  · intro stop hstop
    rw [hage] at hstop
    cases hstop
  · simpa using Nat.le_succ_of_le h.forgotten
  · exact fun set _ => ⟨⟨w.clock, outcome⟩, by simp, hage⟩
  · rintro hnone i r set ⟨hr, hset, hi⟩
    obtain ⟨rfl, hcached⟩ := Option.or_eq_none_iff.mp hnone
    rcases getElem?_log.mp hr with hr | ⟨-, rfl⟩
    · exact h.dropped hcached i r set ⟨hr, hset, hi⟩
    · cases hset
  · intro set hset
    cases outcome with
    | some found =>
      -- the new scan has found the set
      obtain rfl : found = set := Option.some.inj hset
      refine ⟨w.log.length, ⟨w.clock, some found⟩, ⟨by simp, rfl, h.forgotten⟩,
        fun j r' hj hr' => ?_⟩
      rw [List.getElem?_eq_none (by simpa using Nat.succ_le_of_lt hj)] at hr'
      cases hr'
    | none =>
      -- the new scan threw, when the set was already too old
      have hcached : w.cache.cached = some set := hset
      obtain ⟨i, r, hvalid, hlater⟩ := h.origin set hcached
      refine ⟨i, r, ⟨getElem?_log.mpr (.inl hvalid.1), hvalid.2⟩, fun j r' hj hr' => ?_⟩
      rcases getElem?_log.mp hr' with hr' | ⟨-, rfl⟩
      · exact hlater j r' hj hr'
      · obtain ⟨last, hlast, -, helapsed⟩ := h.elapsed_eq hcached
        have hold := hold set hcached
        have hle := h.began_le hvalid.1 hlast hvalid.index_le
        exact ⟨rfl, by show w.cache.cacheFor ≤ (w.clock : ℤ) - r.began; omega⟩

/-- One event keeps the link. -/
theorem linked_step {w w' : World α} {e : Event α} (h : World.step w e = some w')
    (hw : Linked w) : Linked w' := by
  cases e with
  | query outcome took =>
    obtain rfl := Option.some.inj h
    exact linked_query hw outcome took
  | invalidate =>
    obtain rfl := Option.some.inj h
    exact
      { began := hw.began
        ordered := hw.ordered
        stopped := by
          intro stop hstop
          obtain rfl : w.cache.age.stop.getD w.clock = stop := Option.some.inj hstop
          cases hage : w.cache.age.stop with
          | none => exact Nat.le_refl _
          | some stop => exact hw.stopped stop hage
        forgotten := Nat.le_refl _
        counting := fun set hset => nomatch hset
        dropped := by
          rintro - i r set ⟨hr, -, hi⟩
          rw [List.getElem?_eq_none hi] at hr
          cases hr
        origin := fun set hset => nomatch hset }
  | elapse time =>
    obtain rfl := Option.some.inj h
    exact
      { hw with
        began := fun r hr => (hw.began r hr).trans (Nat.le_add_right _ _)
        stopped := fun stop hstop => (hw.stopped stop hstop).trans (Nat.le_add_right _ _) }

/-- **The link is kept by every run.** -/
theorem linked_run {cacheFor : ℤ} {events : List (Event α)} {w : World α}
    (h : Machine.run World.step (World.init α cacheFor) events = some w) : Linked w :=
  Machine.run_invariant linked_step h (linked_init cacheFor)

/-! ### How old a set can be -/

/-- A cached set is as it should be exactly if the last scan did not throw. -/
theorem sound_cached {w : World α} (h : Linked w) {set : α} (hcached : w.cache.cached = some set)
    (hyoung : w.cache.age.elapsed w.clock < w.cache.cacheFor) :
    Sound w w (some set) ↔ ¬ w.Stale := by
  obtain ⟨last, hlast, hgetLast, helapsed⟩ := h.elapsed_eq hcached
  obtain ⟨i, r, hvalid, hlater⟩ := h.origin set hcached
  have hrecent : w.Recent last := by
    rw [World.Recent]
    omega
  constructor
  · rintro hsound ⟨⟨last', hlast', hthrew, -⟩, -⟩
    obtain rfl : last = last' := Option.some.inj (hgetLast.symm.trans hlast')
    obtain ⟨j, r', hvalid', hj⟩ := hsound.fresh set rfl
    -- the last scan is not the one that found the set
    have hi : i < w.log.length - 1 := by
      refine Nat.lt_of_le_of_ne hvalid.index_le fun heq => ?_
      obtain rfl : r = last := Option.some.inj (hvalid.1.symm.trans (heq ▸ hlast))
      exact absurd hvalid.2.1 (by simp [hthrew])
    have hlong := (hlater _ last hi hlast).2
    rcases Nat.lt_or_ge i j with hij | hij
    · exact absurd (hlater j r' hij hvalid'.1).1 (by simp [hvalid'.2.1])
    · -- a scan that found it earlier is older still
      have hle := h.began_le hvalid'.1 hvalid.1 hij
      have hbegan := h.began last (List.mem_of_getElem? hlast)
      rcases hj with hj | hj
      · have := hvalid'.index_le
        omega
      · rw [World.Recent] at hj
        omega
  · intro hstale
    refine ⟨fun set' hset' => ?_, fun _ => rfl⟩
    obtain rfl := Option.some.inj hset'
    -- so no scan came after the one that found the set
    have hi : ¬ i < w.log.length - 1 := fun hi =>
      hstale ⟨⟨last, hgetLast, (hlater _ last hi hlast).1, hrecent⟩, i, r, set, hvalid⟩
    have heq : i = w.log.length - 1 := Nat.le_antisymm hvalid.index_le (Nat.not_lt.mp hi)
    obtain rfl : r = last := Option.some.inj (hvalid.1.symm.trans (heq ▸ hlast))
    exact ⟨i, r, hvalid, .inr hrecent⟩

/-- There is nothing recent to reuse when a query scans. -/
theorem not_recent_of_old {w : World α} (h : Linked w)
    (hold : ∀ set, w.cache.cached = some set → w.cache.cacheFor ≤ w.cache.age.elapsed w.clock)
    {i : ℕ} {r : Scan α} {set : α} (hvalid : w.Valid i r set) :
    ∃ last, w.log.getLast? = some last ∧ r.began ≤ last.began ∧ ¬ w.Recent last := by
  cases hcached : w.cache.cached with
  | none => exact absurd hvalid (h.dropped hcached i r set)
  | some cached =>
    obtain ⟨last, hlast, hgetLast, helapsed⟩ := h.elapsed_eq hcached
    have hold := hold cached hcached
    refine ⟨last, hgetLast, h.began_le hvalid.1 hlast hvalid.index_le, ?_⟩
    rw [World.Recent]
    omega

/-- **A query is answered as it should be exactly if it does not come within the
window of a scan that threw over an older set.** -/
theorem query_sound_iff {w : World α} (h : Linked w) (outcome : Option α) (took : ℕ) :
    Sound w (w.query outcome took).1 (w.query outcome took).2.set? ↔ ¬ w.Stale := by
  rcases w.query_cases outcome took with ⟨set, hcached, hyoung, heq⟩ | ⟨hold, heq⟩
  · rw [heq]
    exact sound_cached h hcached hyoung
  · rw [heq]
    refine iff_of_true ⟨fun set hset => ?_, ?_⟩ ?_
    · exact ⟨w.log.length, ⟨w.clock, outcome⟩, ⟨by simp, hset, h.forgotten⟩, .inl (Nat.le_refl _)⟩
    · rintro ⟨i, r, set, hvalid, hrecent⟩
      obtain ⟨last, -, hle, hlast⟩ := not_recent_of_old h hold hvalid
      refine absurd hrecent fun hrecent => hlast ?_
      rw [World.Recent] at hrecent ⊢
      omega
    · rintro ⟨⟨last, hlast, -, hrecent⟩, i, r, set, hvalid⟩
      obtain ⟨last', hlast', -, hnot⟩ := not_recent_of_old h hold hvalid
      obtain rfl := Option.some.inj (hlast.symm.trans hlast')
      exact hnot hrecent

/-- **Staleness over a run**: all its queries are answered as they should be
exactly if none comes within the window of a scan that threw over an older set. -/
theorem staleness_iff (cacheFor : ℤ) (events : List (Event α)) :
    (∀ w outcome took w',
      Machine.Takes World.step (World.init α cacheFor) events w (.query outcome took) w' →
        Sound w w' (w.query outcome took).2.set?) ↔
    ∀ w outcome took w',
      Machine.Takes World.step (World.init α cacheFor) events w (.query outcome took) w' →
        ¬ w.Stale := by
  refine forall_congr' fun w => forall_congr' fun outcome => forall_congr' fun took =>
    forall_congr' fun w' => forall_congr' fun htakes => ?_
  obtain ⟨before, hbefore⟩ := htakes.reached
  obtain rfl : (w.query outcome took).1 = w' := Option.some.inj htakes.step_eq
  exact query_sound_iff (linked_run hbefore) outcome took

/-- A scan succeeds, its window ends, the next scan throws, and a query follows. -/
def throwingScan : List (Event Bool) :=
  [.query (some true) 0, .elapse 5, .query none 0, .elapse 1, .query (some false) 0]

/-- The set of the first scan is returned when it is older than the window. -/
theorem stale_throwingScan :
    ¬ ∀ (cacheFor : ℤ) (events : List (Event Bool)) (w : World Bool) (outcome : Option Bool)
      (took : ℕ) (w' : World Bool),
      Machine.Takes World.step (World.init Bool cacheFor) events w (.query outcome took) w' →
        Sound w w' (w.query outcome took).2.set? := by
  intro h
  have hsound := h 5 throwingScan
    ⟨6, ⟨5, some true, ⟨5, none⟩, 2⟩, [⟨0, some true⟩, ⟨5, none⟩], 0⟩ (some false) 0 _
    ⟨throwingScan.take 4, [], rfl, rfl, rfl⟩
  obtain ⟨i, r, ⟨hr, hset, -⟩, hi⟩ := hsound.fresh true rfl
  match i, hr, hi with
  | 0, hr, .inr hrecent =>
    obtain rfl := Option.some.inj hr
    exact absurd hrecent (by simp [World.Recent])
  | 1, hr, _ =>
    obtain rfl := Option.some.inj hr
    cases hset

end ArchSupportCache
