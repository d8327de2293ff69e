/-
Parsers that take a prefix of their input.

A parser takes tokens off the front of a list and returns a value, or fails.
`Reads p w a` says that `p` takes the word `w` for the value `a`, wherever `w`
is followed by more input, and that it fails on every proper prefix of `w`.
Both halves compose:

* `Reads.bind` — a word read by `p` and then one read by what follows it;
* `Reads.times` — one word after another, as a counted loop reads them;
* `Reads.cancel` — two words read by the same parser, each followed by
  anything, are equal only if their values and what follows are.

So a format is verified by matching its reader, piece by piece, with the words
its writer appends.
-/
import Mathlib.Data.List.Infix

/-- A parser over tokens `β`. -/
abbrev Parser (β : Type) (α : Type) : Type := StateT (List β) Option α

namespace Parser

variable {β α γ : Type}

/-- Take `n` tokens off the front. -/
def take (n : ℕ) : Parser β (List β) := fun s =>
  if n ≤ s.length then some (s.take n, s.drop n) else none

/-- Give up. -/
def fail : Parser β α := fun _ => none

/-- Run `p` so many times and collect the values. -/
def times : ℕ → Parser β α → Parser β (List α)
  | 0, _ => pure []
  | n + 1, p => do
    let a ← p
    let as ← times n p
    pure (a :: as)

theorem bind_apply (p : Parser β α) (f : α → Parser β γ) (s : List β) :
    (p >>= f) s = (p s).bind fun r => f r.1 r.2 := rfl

/-- `p` reads the word `w` as `a`, and nothing shorter. -/
structure Reads (p : Parser β α) (w : List β) (a : α) : Prop where
  exact : ∀ rest, p (w ++ rest) = some (a, rest)
  cut : ∀ b, b <+: w → b ≠ w → p b = none

/-- A prefix of two words ends in the first one or in the second. -/
theorem prefix_append_cases {b w w' : List β} (h : b <+: w ++ w') (hne : b ≠ w ++ w') :
    (b <+: w ∧ b ≠ w) ∨ ∃ c, b = w ++ c ∧ c <+: w' ∧ c ≠ w' := by
  rcases List.prefix_or_prefix_of_prefix h (List.prefix_append w w') with hb | ⟨c, rfl⟩
  · by_cases heq : b = w
    · subst heq
      exact Or.inr ⟨[], (List.append_nil b).symm, List.nil_prefix,
        fun hc => hne (by rw [← hc, List.append_nil])⟩
    · exact Or.inl ⟨hb, heq⟩
  · exact Or.inr ⟨c, rfl, (List.prefix_append_right_inj w).mp h, fun hc => hne (by rw [hc])⟩

theorem Reads.pure (a : α) : Reads (pure a : Parser β α) [] a where
  exact := fun _ => rfl
  cut := fun _ hb hne => absurd (List.prefix_nil.mp hb) hne

theorem Reads.bind {p : Parser β α} {f : α → Parser β γ} {w w' : List β} {a : α} {c : γ}
    (hp : Reads p w a) (hf : Reads (f a) w' c) : Reads (p >>= f) (w ++ w') c where
  exact := fun rest => by
    rw [bind_apply, List.append_assoc, hp.exact, Option.bind_some]
    exact hf.exact rest
  cut := fun b hb hne => by
    rw [bind_apply]
    rcases prefix_append_cases hb hne with ⟨hw, hwne⟩ | ⟨d, rfl, hd, hdne⟩
    · rw [hp.cut b hw hwne, Option.bind_none]
    · rw [hp.exact, Option.bind_some]
      exact hf.cut d hd hdne

/-- A last step that takes no input. -/
theorem Reads.bind_nil {p : Parser β α} {f : α → Parser β γ} {w : List β} {a : α} {c : γ}
    (hp : Reads p w a) (hf : Reads (f a) [] c) : Reads (p >>= f) w c := by
  have h := hp.bind hf
  rwa [List.append_nil] at h

theorem Reads.bind_pure {p : Parser β α} {w : List β} {a : α} (hp : Reads p w a) (f : α → γ) :
    Reads (p >>= fun x => Pure.pure (f x)) w (f a) :=
  hp.bind_nil (Reads.pure (f a))

theorem Reads.take (w : List β) : Reads (take w.length) w w where
  exact := fun rest => by
    rw [Parser.take, if_pos (by simp), List.take_left, List.drop_left]
  cut := fun b hb hne => by
    have hlt : b.length < w.length :=
      lt_of_le_of_ne hb.length_le (fun h => hne (hb.eq_of_length h))
    rw [Parser.take, if_neg (Nat.not_le.mpr hlt)]

/-- A counted loop reads one word after another. -/
theorem Reads.times {p : Parser β α} {enc : α → List β} {as : List α}
    (h : ∀ a ∈ as, Reads p (enc a) a) : Reads (times as.length p) (as.flatMap enc) as := by
  induction as with
  | nil => exact Reads.pure []
  | cons a as ih =>
    have hrest := ih fun x hx => h x (List.mem_cons_of_mem a hx)
    exact (h a List.mem_cons_self).bind (hrest.bind_pure (a :: ·))

/-- **Unique decoding.** -/
theorem Reads.cancel {p : Parser β α} {w w' t t' : List β} {a a' : α} (h : Reads p w a)
    (h' : Reads p w' a') (heq : w ++ t = w' ++ t') : a = a' ∧ t = t' := by
  have hread := h.exact t
  rw [heq, h'.exact] at hread
  exact ⟨(Prod.mk.inj (Option.some_inj.mp hread)).1.symm,
    (Prod.mk.inj (Option.some_inj.mp hread)).2.symm⟩

end Parser
