/-
A first-in first-out server, as a ledger of what it was given and what it did.

The ledger keeps three lists: everything ever accepted, everything served, and
what still waits.  Its two moves append to the first and the last list, or take
the head of the waiting list over to the served one.  Whatever runs:

* `run_balanced` — accepted is served followed by waiting, in that order;
* `served_initial` — the server works in acceptance order and skips nobody;
* `served_eq_accepted` — once nothing waits, everything accepted was served.

A concrete queue is verified by mapping its state to a ledger and showing that
each of its steps is a run of ledger moves (`Machine.run_refines`).
-/
import FlatpakDart.Machine

namespace FifoServer

/-- What a server was given, what it has served, and what waits. -/
structure Ledger (ι : Type*) where
  accepted : List ι
  served : List ι
  waiting : List ι

/-- The two moves of a server. -/
inductive Move (ι : Type*)
  | accept (x : ι)
  | serve

variable {ι : Type*}

/-- The empty ledger. -/
def Ledger.empty : Ledger ι := ⟨[], [], []⟩

/-- Take one move; there is nothing to serve when nothing waits. -/
def Ledger.step (l : Ledger ι) : Move ι → Option (Ledger ι)
  | .accept x => some ⟨l.accepted ++ [x], l.served, l.waiting ++ [x]⟩
  | .serve =>
    match l.waiting with
    | [] => none
    | x :: rest => some ⟨l.accepted, l.served ++ [x], rest⟩

/-- Nothing is lost and nothing changes places. -/
def Ledger.Balanced (l : Ledger ι) : Prop := l.accepted = l.served ++ l.waiting

theorem Ledger.step_accept (l : Ledger ι) (x : ι) :
    l.step (.accept x) = some ⟨l.accepted ++ [x], l.served, l.waiting ++ [x]⟩ := rfl

theorem Ledger.step_serve {l : Ledger ι} {x : ι} {r : List ι} (h : l.waiting = x :: r) :
    l.step .serve = some ⟨l.accepted, l.served ++ [x], r⟩ := by
  simp only [Ledger.step, h]

theorem Ledger.step_balanced {l l' : Ledger ι} {m : Move ι} (h : l.step m = some l')
    (hl : l.Balanced) : l'.Balanced := by
  cases m with
  | accept x =>
    rw [step_accept, Option.some_inj] at h
    subst h
    show l.accepted ++ [x] = l.served ++ (l.waiting ++ [x])
    rw [show l.accepted = l.served ++ l.waiting from hl, List.append_assoc]
  | serve =>
    rcases hw : l.waiting with _ | ⟨x, rest⟩
    · simp [Ledger.step, hw] at h
    · rw [step_serve hw, Option.some_inj] at h
      subst h
      -- the head of `waiting` is the next one of `accepted`
      show l.accepted = (l.served ++ [x]) ++ rest
      rw [show l.accepted = l.served ++ l.waiting from hl, hw, List.append_assoc]
      rfl

theorem run_balanced {l : Ledger ι} {ms : List (Move ι)}
    (h : Machine.run Ledger.step Ledger.empty ms = some l) : l.Balanced :=
  Machine.run_invariant (I := Ledger.Balanced) Ledger.step_balanced h rfl

theorem served_initial {l : Ledger ι} (h : l.Balanced) : l.served <+: l.accepted :=
  ⟨l.waiting, h.symm⟩

theorem served_eq_accepted {l : Ledger ι} (h : l.Balanced) (hw : l.waiting = []) :
    l.served = l.accepted := by
  rw [show l.accepted = l.served ++ l.waiting from h, hw, List.append_nil]

/-- Distinct arrivals are served at most once. -/
theorem served_nodup {l : Ledger ι} (h : l.Balanced) (hd : l.accepted.Nodup) : l.served.Nodup :=
  hd.sublist (served_initial h).sublist

theorem served_subset {l : Ledger ι} (h : l.Balanced) : l.served ⊆ l.accepted :=
  (served_initial h).subset

end FifoServer
