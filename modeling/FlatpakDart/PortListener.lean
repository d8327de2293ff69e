/-
A port and its listener.

The listener handles one message after another and may close the port, which then hears
nothing more.  `Concludes` says of a list of messages that it takes the listener to a
state and that the port is closed by its last message and by no earlier one, so nothing
is sent to a closed port; `Passes` is the way there.

* `Passes.concludes` — messages that leave the port open, followed by one that closes it;
* `Passes.of_forall₂` — messages that each bring one value.
-/
import Mathlib.Data.List.Forall2
import Mathlib.Data.List.Infix

namespace PortListener

/-- A callback and the state it keeps; it answers whether it closed the port. -/
structure Listener (μ σ : Type*) where
  start : σ
  handle : σ → μ → σ × Bool

/-- What the callback keeps, and whether the port is open. -/
structure Port (σ : Type*) where
  state : σ
  isOpen : Bool

variable {μ σ β : Type*}

namespace Listener

/-- A closed port drops the message. -/
def receive (l : Listener μ σ) (p : Port σ) (m : μ) : Port σ :=
  if p.isOpen then ⟨(l.handle p.state m).1, !(l.handle p.state m).2⟩ else p

/-- The port after these messages, in order. -/
def deliver (l : Listener μ σ) (ms : List μ) : Port σ := ms.foldl l.receive ⟨l.start, true⟩

/-- The messages bring the listener to `s`, and the last one, not an earlier one, closes
the port. -/
structure Concludes (l : Listener μ σ) (ms : List μ) (s : σ) : Prop where
  ends : l.deliver ms = ⟨s, false⟩
  stays : ∀ before, before <+: ms → before ≠ ms → (l.deliver before).isOpen = true

/-- The messages take the listener from one state to another, and the port stays open. -/
inductive Passes (l : Listener μ σ) : σ → List μ → σ → Prop
  | nil (s : σ) : Passes l s [] s
  | cons {s s' s'' : σ} {m : μ} {ms : List μ} (hm : l.handle s m = (s', false))
      (hms : Passes l s' ms s'') : Passes l s (m :: ms) s''

variable {l : Listener μ σ} {s s' : σ} {ms : List μ} {m : μ}

theorem receive_open (l : Listener μ σ) (s : σ) (m : μ) :
    l.receive ⟨s, true⟩ m = ⟨(l.handle s m).1, !(l.handle s m).2⟩ := rfl

theorem Passes.foldl (h : l.Passes s ms s') : ms.foldl l.receive ⟨s, true⟩ = ⟨s', true⟩ := by
  induction h with
  | nil s => rfl
  | cons hm _ ih => rw [List.foldl_cons, receive_open, hm, Bool.not_false, ih]

theorem Passes.of_prefix {before : List μ} (h : l.Passes s ms s') (hb : before <+: ms) :
    ∃ t, l.Passes s before t := by
  induction h generalizing before with
  | nil s =>
    obtain rfl := List.prefix_nil.mp hb
    exact ⟨s, .nil s⟩
  | cons hm _ ih =>
    rcases before with _ | ⟨m', before⟩
    · exact ⟨_, .nil _⟩
    · obtain ⟨rfl, hrest⟩ := List.cons_prefix_cons.mp hb
      obtain ⟨t, ht⟩ := ih hrest
      exact ⟨t, .cons hm ht⟩

/-- The port is closed by the last message only. -/
theorem Passes.concludes {s'' : σ} (h : l.Passes l.start ms s')
    (hm : l.handle s' m = (s'', true)) : l.Concludes (ms ++ [m]) s'' where
  ends := by
    rw [deliver, List.foldl_append, h.foldl, List.foldl_cons, List.foldl_nil, receive_open, hm,
      Bool.not_true]
  stays := fun before hb hne => by
    have hbefore : before <+: ms := (List.prefix_concat_iff.mp hb).resolve_left hne
    obtain ⟨t, ht⟩ := h.of_prefix hbefore
    rw [deliver, ht.foldl]

/-- The first message closes the port. -/
theorem concludes_singleton (hm : l.handle l.start m = (s, true)) : l.Concludes [m] s :=
  (Passes.nil l.start).concludes hm

/-- Nothing is heard at a closed port. -/
theorem foldl_closed (l : Listener μ σ) (s : σ) (ms : List μ) :
    ms.foldl l.receive ⟨s, false⟩ = ⟨s, false⟩ := by
  induction ms with
  | nil => rfl
  | cons m ms ih => exact ih

/-- What follows a message that closes the port is not heard. -/
theorem deliver_cons_closes (hm : l.handle l.start m = (s, true)) (ms : List μ) :
    l.deliver (m :: ms) = ⟨s, false⟩ := by
  rw [deliver, List.foldl_cons, receive_open, hm, Bool.not_true, foldl_closed]

/-- A message that changes nothing might as well not have come. -/
theorem deliver_cons_ignored (hm : l.handle l.start m = (l.start, false)) (ms : List μ) :
    l.deliver (m :: ms) = l.deliver ms := by
  rw [deliver, List.foldl_cons, receive_open, hm, Bool.not_false]
  rfl

/-- Messages that each bring one value, which the listener adds to what it keeps. -/
theorem Passes.of_forall₂ {R : μ → β → Prop} {add : σ → β → σ} {bs : List β}
    (hadd : ∀ s m b, R m b → l.handle s m = (add s b, false)) (h : List.Forall₂ R ms bs) (s : σ) :
    l.Passes s ms (bs.foldl add s) := by
  induction h generalizing s with
  | nil => exact .nil s
  | cons hm _ ih => exact .cons (hadd s _ _ hm) (ih _)

end Listener

end PortListener
