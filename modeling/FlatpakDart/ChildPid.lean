/-
The pid of what a launch started (`native/src/installation_reader.cpp`).

`reread_child_pid` looks for the instance again and again, with longer and longer waits
in between.

* `Waits` — the waits, whatever is seen: each is positive, and they add up to
  `kMaxWaitMs`;
* `Sofar` — what the rounds have seen when one begins;
* `rereadChildPid_probes` — the loop returns, with the first pid that a probe sees, or
  with 0.
-/
import FlatpakDart.Loop
import FlatpakDart.ReaderOperations
import Mathlib.Order.Monotone.Basic

open Libflatpak

namespace InstallationReader

namespace ChildPid

/-! ### `reread_child_pid` -/

def kMaxWaitMs : ℕ := 500

def kMaxBackoffMs : ℕ := 64

/-- What the calls of the loop answer, one probe after another. -/
structure Probes where
  instanceId : CString
  /-- `flatpak_instance_get_all` -/
  all : ℕ → Option (List Instance)
  /-- `cancelled.load()` -/
  cancelled : ℕ → Bool

/-- The instance that a probe finds. -/
def Probes.found (p : Probes) (i : ℕ) : Option Instance :=
  ((p.all i).getD []).find? (·.id = some p.instanceId)

/-- The variables of the loop, and how many probes were made. -/
structure State where
  everSeen : Bool
  waited : ℕ
  delayMs : ℕ
  probes : ℕ
  deriving DecidableEq

def init : State := ⟨false, 0, 1, 0⟩

/-- The end of a round: the deadline, and the sleep. -/
def State.sleep (s : State) (p : Probes) : State ⊕ Int32 :=
  if kMaxWaitMs ≤ s.waited ∨ p.cancelled s.probes then .inr 0
  else
    let sleepMs := min s.delayMs (kMaxWaitMs - s.waited)
    .inl { s with
      waited := s.waited + sleepMs
      delayMs := min (s.delayMs * 2) kMaxBackoffMs
      probes := s.probes + 1 }

/-- One round of the loop. -/
def body (p : Probes) (s : State) : State ⊕ Int32 :=
  match p.found s.probes with
  | some inst =>
    if 0 < inst.childPid then .inr inst.childPid
    else { s with everSeen := true }.sleep p
  | none =>
    -- it appeared and then vanished
    if s.everSeen then .inr 0 else s.sleep p

/-- `reread_child_pid`, which makes no more than 14 probes. -/
def rereadChildPid (p : Probes) : Int32 := (Loop.run (body p) 14 init).getD 0

/-! ### What a probe sees -/

/-- The pid that a probe sees. -/
def Probes.pid (p : Probes) (i : ℕ) : Option Int32 :=
  ((p.found i).map Instance.childPid).filter (0 < ·)

/-- The instance is there. -/
def Probes.Seen (p : Probes) (i : ℕ) : Prop := (p.found i).isSome

theorem Probes.seen_of_found {p : Probes} {i : ℕ} {inst : Instance}
    (h : p.found i = some inst) : p.Seen i := by
  rw [Seen, h]
  rfl

theorem Probes.not_seen {p : Probes} {i : ℕ} (h : p.found i = none) : ¬ p.Seen i := by
  rw [Seen, h]
  exact Bool.false_ne_true

/-- What one round comes to. -/
inductive Round (p : Probes) (s : State) : State ⊕ Int32 → Prop
  | pid {pid : Int32} (h : p.pid s.probes = some pid) : Round p s (.inr pid)
  | vanished (h : ¬ p.Seen s.probes) (hseen : s.everSeen = true) : Round p s (.inr 0)
  | deadline (h : p.pid s.probes = none) (hthere : s.everSeen = true → p.Seen s.probes)
      (hover : kMaxWaitMs ≤ s.waited ∨ p.cancelled s.probes = true) : Round p s (.inr 0)
  | next {everSeen : Bool} (h : p.pid s.probes = none)
      (hthere : s.everSeen = true → p.Seen s.probes)
      (hseen : everSeen = true ↔ s.everSeen = true ∨ p.Seen s.probes)
      (hwaited : s.waited < kMaxWaitMs) : Round p s (.inl {
        everSeen
        waited := s.waited + min s.delayMs (kMaxWaitMs - s.waited)
        delayMs := min (s.delayMs * 2) kMaxBackoffMs
        probes := s.probes + 1 })

theorem round (p : Probes) (s : State) : Round p s (body p s) := by
  -- the deadline and the sleep are the same, whether the instance is seen or not
  have hsleep : ∀ everSeen : Bool, p.pid s.probes = none →
      (s.everSeen = true → p.Seen s.probes) →
      (everSeen = true ↔ s.everSeen = true ∨ p.Seen s.probes) →
      Round p s ({ s with everSeen }.sleep p) := by
    intro everSeen hpid hthere hseen
    rw [State.sleep]
    split
    · next hover => exact .deadline hpid hthere hover
    · next hover =>
      exact .next hpid hthere hseen (Nat.lt_of_not_le (not_or.mp hover).1)
  rw [body]
  cases hfound : p.found s.probes with
  | some inst =>
    have hseen := p.seen_of_found hfound
    simp only
    split
    · next hpos =>
      refine .pid ?_
      rw [Probes.pid, hfound, Option.map_some, Option.filter_some, if_pos (decide_eq_true hpos)]
    · next hpos =>
      refine hsleep true ?_ (fun _ => hseen) (iff_of_true rfl (.inr hseen))
      rw [Probes.pid, hfound, Option.map_some, Option.filter_some,
        if_neg (by simpa using hpos)]
  | none =>
    have hnot := p.not_seen hfound
    simp only
    split
    · next hseen => exact .vanished hnot hseen
    · next hseen =>
      have hpid : p.pid s.probes = none := by
        rw [Probes.pid, hfound, Option.map_none, Option.filter_none]
      exact hsleep s.everSeen hpid (fun h => absurd h hseen)
        ⟨.inl, fun h => h.resolve_right hnot⟩

theorem Probes.seen_of_pid {p : Probes} {i : ℕ} {pid : Int32} (h : p.pid i = some pid) :
    p.Seen i := by
  cases hfound : p.found i with
  | some inst => exact p.seen_of_found hfound
  | none => simp [Probes.pid, hfound] at h

/-! ### The waits -/

/-- What was waited when round `i` begins, and the delay that comes next. -/
def clock : ℕ → ℕ × ℕ
  | 0 => (0, 1)
  | i + 1 =>
    ((clock i).1 + min (clock i).2 (kMaxWaitMs - (clock i).1), min ((clock i).2 * 2) kMaxBackoffMs)

/-- Never more than the budget, and never a delay of zero. -/
theorem clock_bounds (i : ℕ) : (clock i).1 ≤ kMaxWaitMs ∧ 0 < (clock i).2 := by
  induction i with
  | zero => exact ⟨Nat.zero_le _, Nat.one_pos⟩
  | succ i ih =>
    rw [clock]
    constructor
    · show (clock i).1 + min _ _ ≤ _
      omega
    · exact Nat.lt_min.mpr ⟨by omega, by decide⟩

/-- **A sleep is positive** while there is budget left. -/
theorem clock_lt {i : ℕ} (h : (clock i).1 < kMaxWaitMs) : (clock i).1 < (clock (i + 1)).1 := by
  have hdelay := (clock_bounds i).2
  show _ < (clock i).1 + min _ _
  omega

theorem clock_mono : Monotone fun i => (clock i).1 :=
  monotone_nat_of_le_succ fun _ => Nat.le_add_right _ _

/-- The 13th sleep uses the budget up. -/
theorem lt_of_clock {i : ℕ} (h : (clock i).1 < kMaxWaitMs) : i < 13 := by
  by_contra hle
  have hlate : (clock 13).1 ≤ (clock i).1 := clock_mono (Nat.not_lt.mp hle)
  have hall : (clock 13).1 = kMaxWaitMs := by decide
  omega

/-! ### Round by round -/

/-- What is known when a round begins: the time, and what the earlier probes saw. -/
structure Sofar (p : Probes) (s : State) : Prop where
  clock : (s.waited, s.delayMs) = clock s.probes
  everSeen : s.everSeen = true ↔ ∃ j < s.probes, p.Seen j
  noPid : ∀ j < s.probes, p.pid j = none
  /-- once seen, it was there in every later probe -/
  stays : ∀ j k, j < k → k < s.probes → p.Seen j → p.Seen k

theorem init_sofar (p : Probes) : Sofar p init where
  clock := rfl
  everSeen := iff_of_false Bool.false_ne_true fun ⟨_, hj, _⟩ => Nat.not_lt_zero _ hj
  noPid _ hj := absurd hj (Nat.not_lt_zero _)
  stays _ _ _ hk := absurd hk (Nat.not_lt_zero _)

theorem sofar_next {p : Probes} {s t : State} (hs : Sofar p s) (h : body p s = .inl t) :
    Sofar p t ∧ t.probes = s.probes + 1 ∧ s.waited < kMaxWaitMs := by
  have hround := round p s
  rw [h] at hround
  cases hround with
  | next hpid hthere hseen hwaited =>
    have hwas : s.waited = (ChildPid.clock s.probes).1 ∧
        s.delayMs = (ChildPid.clock s.probes).2 := Prod.mk.inj hs.clock
    refine ⟨?_, rfl, hwaited⟩
    constructor
    case clock =>
      rw [ChildPid.clock, hwas.1, hwas.2]
    case everSeen =>
      rw [hseen, hs.everSeen, Nat.exists_lt_succ_right]
    case noPid =>
      intro j hj
      rcases Nat.lt_succ_iff_lt_or_eq.mp hj with hj | rfl
      · exact hs.noPid j hj
      · exact hpid
    case stays =>
      intro j k hjk hk hj
      rcases Nat.lt_succ_iff_lt_or_eq.mp hk with hk | rfl
      · exact hs.stays j k hjk hk hj
      · exact hthere (hs.everSeen.mpr ⟨j, hjk, hj⟩)

theorem after_sofar {p : Probes} {n : ℕ} {u : State} (h : Loop.after (body p) n init = some u) :
    Sofar p u ∧ u.probes = n := by
  refine Loop.after_invariant (I := fun n s => Sofar p s ∧ s.probes = n)
    (fun m s t hs hbody => ?_) h ⟨init_sofar p, rfl⟩
  obtain ⟨hsofar, rfl⟩ := hs
  obtain ⟨ht, hcount, -⟩ := sofar_next hsofar hbody
  exact ⟨ht, hcount⟩

/-- The loop has a last round, one of the first fourteen. -/
theorem exists_last_round (p : Probes) : ∃ n u r,
    Loop.after (body p) n init = some u ∧ body p u = .inr r ∧ n ≤ 13 := by
  have hstep : ∀ s t, Sofar p s → body p s = .inl t →
      Sofar p t ∧ 13 - t.probes < 13 - s.probes := by
    intro s t hs h
    obtain ⟨ht, hprobes, hwaited⟩ := sofar_next hs h
    have hearly : s.probes < 13 := lt_of_clock (by rwa [← (Prod.mk.inj hs.clock).1])
    exact ⟨ht, by omega⟩
  obtain ⟨n, u, r, hafter, hlast⟩ := Loop.exists_last hstep (init_sofar p)
  refine ⟨n, u, r, hafter, hlast, ?_⟩
  cases n with
  | zero => exact Nat.zero_le _
  | succ n =>
    obtain ⟨v, v', hv, hbody, -⟩ := Loop.after_of_lt hafter (Nat.lt_succ_self n)
    obtain ⟨hsofar, hprobes⟩ := after_sofar hv
    have hwaited := (sofar_next hsofar hbody).2.2
    have hearly := lt_of_clock (by rwa [← (Prod.mk.inj hsofar.clock).1])
    omega

/-- What `reread_child_pid` does: it makes the probes `0, …, last`, and returns `pid`. -/
structure Outcome (p : Probes) (last : ℕ) (pid : Int32) : Prop where
  returns : Loop.run (body p) (last + 1) init = some pid
  notBefore : ∀ m ≤ last, Loop.run (body p) m init = none
  few : last ≤ 13
  /-- every sleep is positive and within the budget -/
  sleeps : ∀ i < last, ∃ s t, Loop.after (body p) i init = some s ∧
    Loop.after (body p) (i + 1) init = some t ∧ s.waited < t.waited ∧ t.waited ≤ kMaxWaitMs
  pid_iff : ∀ q, 0 < q → (pid = q ↔ ∃ i ≤ last, p.pid i = some q)
  /-- the first probe that sees a pid is the last one -/
  first : ∀ i ≤ last, p.pid i ≠ none → i = last
  nothing : (∀ i ≤ last, p.pid i = none) → pid = 0
  vanished : ∀ i ≤ last, ¬ p.Seen i → (∃ j < i, p.Seen j) → i = last ∧ pid = 0

/-- **The probe loop**: for everything the probes may see and every moment of
cancellation it stops, in a round before which each sleep was positive and within the
budget, with the first pid that a probe sees, or else with 0; and it stops where the
instance is missing after it was seen. -/
theorem rereadChildPid_probes (p : Probes) : ∃ last, Outcome p last (rereadChildPid p) := by
  obtain ⟨n, u, r, hafter, hlast, hfew⟩ := exists_last_round p
  obtain ⟨hsofar, rfl⟩ := after_sofar hafter
  obtain ⟨hrun, hnotBefore⟩ := Loop.run_of_last hafter hlast
  have hreturn : rereadChildPid p = r := by
    rw [rereadChildPid, Loop.run_of_le hrun (by omega), Option.getD_some]
  rw [hreturn]
  have hround := round p u
  rw [hlast] at hround
  -- the last probe is the only one that may see a pid
  have hlate : ∀ i ≤ u.probes, p.pid i ≠ none → i = u.probes := by
    intro i hi hpid
    rcases Nat.lt_or_eq_of_le hi with hlt | heq
    · exact absurd (hsofar.noPid i hlt) hpid
    · exact heq
  have hpid : ∀ q, 0 < q → (r = q ↔ p.pid u.probes = some q) := by
    intro q hq
    cases hround with
    | pid h => rw [h, Option.some_inj]
    | vanished hnot hseen =>
      refine iff_of_false (fun h => absurd hq (by simp [← h])) fun h => hnot (p.seen_of_pid h)
    | deadline h hthere hover =>
      exact iff_of_false (fun h => absurd hq (by simp [← h])) (by simp [h])
  refine ⟨u.probes, ?_⟩
  constructor
  case returns => exact hrun
  case notBefore => exact hnotBefore
  case few => exact hfew
  case sleeps =>
    intro i hi
    obtain ⟨s, t, hs, hbody, ht⟩ := Loop.after_of_lt hafter hi
    obtain ⟨hbefore, rfl⟩ := after_sofar hs
    obtain ⟨hbehind, hprobes, hwaited⟩ := sofar_next hbefore hbody
    have hclock := (Prod.mk.inj hbefore.clock).1
    have hclock' := (Prod.mk.inj hbehind.clock).1
    rw [hprobes] at hclock'
    refine ⟨s, t, hs, ht, ?_, ?_⟩
    · rw [hclock, hclock']
      exact clock_lt (hclock ▸ hwaited)
    · rw [hclock']
      exact (clock_bounds _).1
  case pid_iff =>
    intro q hq
    rw [hpid q hq]
    constructor
    · exact fun h => ⟨_, le_rfl, h⟩
    · rintro ⟨i, hi, h⟩
      rwa [← hlate i hi (by simp [h])]
  case first => exact hlate
  case nothing =>
    intro hnone
    cases hround with
    | pid h => exact absurd (hnone _ le_rfl) (by simp [h])
    | vanished => rfl
    | deadline => rfl
  case vanished =>
    rintro i hi hmissing ⟨j, hj, hseen⟩
    rcases Nat.lt_or_eq_of_le hi with hlt | rfl
    · exact absurd (hsofar.stays j i hj hlt hseen) hmissing
    · refine ⟨rfl, ?_⟩
      cases hround with
      | pid h => exact absurd (p.seen_of_pid h) hmissing
      | vanished => rfl
      | deadline _ hthere _ =>
        exact absurd (hthere (hsofar.everSeen.mpr ⟨j, hj, hseen⟩)) hmissing

end ChildPid

end InstallationReader
