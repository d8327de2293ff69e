/-
The scan for the start time, for every process name and every text
(`native/src/installation_reader.cpp`).

`Scan` are the loops of `read_start_time` character by character; `Line` is a text
of `/proc/<pid>/stat` with any command name and any fields.

* `loops_return` — the loops return on every text, with what `readStartTime` says;
* `readStartTime_line` — what the scan makes of a line, by its 20th field after
  the name;
* `readStartTime_fields` — the contract of the scan on every text of that form.
-/
import FlatpakDart.Fields
import FlatpakDart.Loop
import FlatpakDart.ProcStat

namespace ProcStat

open Fields (joinRuns)

/-! ### The loops -/

/-- A place in the loops, with `field` and the text that `p` points to. -/
inductive Scan where
  /-- `while (*p)` -/
  | text (field : ℕ) (p : List UInt8)
  /-- `while (*p == ' ')` -/
  | spaces (field : ℕ) (p : List UInt8)
  /-- `while (*p && *p != ' ')` -/
  | token (field : ℕ) (p : List UInt8)

/-- From one test of a loop to the next one, or to a `return`. -/
def Scan.body : Scan → Scan ⊕ Option UInt64
  | .text _ [] => .inr none
  | .text field (b :: p) => .inl (.spaces field (b :: p))
  | .spaces _ [] => .inr none
  | .spaces field (b :: p) =>
    if b = space then .inl (.spaces field p)
    else if field + 1 = 22 then .inr (strtoull (b :: p))
    else .inl (.token (field + 1) (b :: p))
  | .token field [] => .inl (.text field [])
  | .token field (b :: p) =>
    if b = space then .inl (.text field (b :: p)) else .inl (.token field p)

/-- `read_start_time` with a number of steps to return in. -/
def readStartTimeIn (steps : ℕ) (contents : List UInt8) : Option (Option UInt64) :=
  match afterLastParen (contents.takeWhile (· ≠ 0)) with
  | none => some none
  | some p => Loop.run Scan.body steps (.text 2 p)

theorem scanFields_space (left : ℕ) (p : List UInt8) :
    scanFields left (space :: p) = scanFields left p := by
  cases left <;> simp [scanFields]

@[simp] theorem scanFields_nil (left : ℕ) : scanFields left [] = none := by
  cases left <;> simp [scanFields]

namespace Scan

/-- The field that the loops look for is still ahead. -/
def Ahead : Scan → Prop
  | .text field _ => field < 22
  | .spaces field _ => field < 22
  | .token field _ => field < 22

/-- What the loops return in the end. -/
def value : Scan → Option UInt64
  | .text field p => scanFields (21 - field) p
  | .spaces field p => scanFields (21 - field) p
  | .token field p => scanFields (21 - field) (p.dropWhile (· ≠ space))

/-- Bounds the tests to come: a character of a field takes one, and a space one
of each loop. -/
def rank : Scan → ℕ
  | .text _ p => 4 * p.length + 2
  | .spaces _ p => 4 * p.length + 1
  | .token _ p => if p.head?.all (· = space) then 4 * p.length + 3 else 4 * p.length

/-- One test of a loop leaves what is returned in the end as it is. -/
theorem ranked : Loop.Ranked body Ahead value rank where
  next := by
    intro s s' hs h
    cases s with
    -- the head of the loop, which is left at the end of the text
    | text field p =>
      cases p with
      | nil => simp [body] at h
      | cons b p =>
        obtain rfl := Sum.inl.inj h
        exact ⟨hs, rfl, by simp [rank]⟩
    | spaces field p =>
      cases p with
      | nil => simp [body] at h
      | cons b p =>
        rw [body] at h
        split_ifs at h with hspace hfield
        · obtain rfl := Sum.inl.inj h
          exact ⟨hs, by simp [value, hspace, scanFields_space], by simp [rank]⟩
        · obtain rfl := Sum.inl.inj h
          -- one field further, so one less is to be skipped
          have hahead : field < 22 := hs
          have hleft : 21 - field = 21 - (field + 1) + 1 := by omega
          refine ⟨show field + 1 < 22 by omega, ?_, by simp [rank, hspace]⟩
          simp [value, hleft, scanFields_succ, hspace]
    | token field p =>
      cases p with
      | nil =>
        obtain rfl := Sum.inl.inj h
        exact ⟨hs, rfl, by simp [rank]⟩
      | cons b p =>
        rw [body] at h
        split_ifs at h with hspace
        · obtain rfl := Sum.inl.inj h
          exact ⟨hs, by simp [value, hspace], by simp [rank, hspace]⟩
        · obtain rfl := Sum.inl.inj h
          refine ⟨hs, by simp [value, hspace], ?_⟩
          simp only [rank, List.head?_cons, Option.all_some, hspace, decide_false,
            Bool.false_eq_true, if_false, List.length_cons]
          split <;> omega
  last := by
    intro s r hs h
    cases s with
    | text field p =>
      cases p with
      | nil =>
        obtain rfl := Sum.inr.inj h
        simp [value]
      | cons b p => simp [body] at h
    | spaces field p =>
      cases p with
      | nil =>
        obtain rfl := Sum.inr.inj h
        simp [value]
      | cons b p =>
        rw [body] at h
        split_ifs at h with hspace hfield
        obtain rfl := Sum.inr.inj h
        obtain rfl : field = 21 := by omega
        simp [value, scanFields, hspace]
    | token field p =>
      cases p with
      | nil => simp [body] at h
      | cons b p =>
        rw [body] at h
        split_ifs at h

end Scan

theorem afterLastParen_length {contents p : List UInt8} (h : afterLastParen contents = some p) :
    p.length ≤ contents.length := by
  rw [afterLastParen] at h
  split_ifs at h
  obtain rfl := Option.some.inj h
  calc _ = _ := List.length_reverse
    _ ≤ contents.reverse.length := (List.takeWhile_prefix _).length_le
    _ = contents.length := List.length_reverse

/-- **The loops return on every text**, with what the scan says. -/
theorem loops_return (contents : List UInt8) {steps : ℕ} (h : 4 * contents.length + 2 < steps) :
    readStartTimeIn steps contents = some (readStartTime contents) := by
  rw [readStartTimeIn, readStartTime]
  cases hp : afterLastParen (contents.takeWhile (· ≠ 0)) with
  | none => rfl
  | some p =>
    have hlength : p.length ≤ contents.length :=
      (afterLastParen_length hp).trans (List.takeWhile_prefix _).length_le
    have hahead : (Scan.text 2 p).Ahead := by simp [Scan.Ahead]
    exact Loop.run_eq_some Scan.ranked hahead (by simp only [Scan.rank]; omega)

/-! ### A line of any process -/

/-- `'<pid> (<comm>) '`, then fields with spaces between them, and the end. -/
def lineText (pid comm : List UInt8) (gap : ℕ → List UInt8) (tokens : List (List UInt8))
    (trailer : List UInt8) : List UInt8 :=
  pid ++ [space, 40] ++ comm ++ closeParen :: space :: (joinRuns gap tokens ++ trailer)

/-- A text of `/proc/<pid>/stat`: any command name, any fields, and white space
at the end. -/
structure Line where
  pid : List UInt8
  comm : List UInt8
  gap : ℕ → List UInt8
  tokens : List (List UInt8)
  trailer : List UInt8
  pid_nulFree : 0 ∉ pid
  comm_nulFree : 0 ∉ comm
  gap_spaces : ∀ k, gap k ≠ [] ∧ ∀ b ∈ gap k, b = space
  tokens_plain : ∀ t ∈ tokens, t ≠ [] ∧ ∀ b ∈ t, isSpace b = false ∧ b ≠ closeParen ∧ b ≠ 0
  trailer_space : ∀ b ∈ trailer, isSpace b = true

def Line.text (l : Line) : List UInt8 := lineText l.pid l.comm l.gap l.tokens l.trailer

theorem isSpace_plain {b : UInt8} (h : isSpace b = true) :
    b ≠ closeParen ∧ b ≠ 0 ∧ isDigit b = false := by
  simp only [isDigit, isSpace, closeParen, Bool.and_eq_true, decide_eq_true_eq,
    UInt8.le_iff_toNat_le, ne_eq, ← UInt8.toNat_inj, Bool.or_eq_true, beq_iff_eq,
    Bool.and_eq_false_iff, decide_eq_false_iff_not, UInt8.reduceToNat] at h ⊢
  omega

theorem ne_space {b : UInt8} (h : isSpace b = false) : b ≠ space := by
  rintro rfl
  cases h

theorem scanFields_lead {lead : List UInt8} (h : ∀ b ∈ lead, b = space) (left : ℕ)
    (p : List UInt8) : scanFields left (lead ++ p) = scanFields left p := by
  induction lead with
  | nil => rfl
  | cons b lead ih =>
    rw [h b (by simp), List.cons_append, scanFields_space,
      ih fun c hc => h c (List.mem_cons_of_mem b hc)]

theorem strtoull_white {p : List UInt8} (h : ∀ b ∈ p, isSpace b = true) : strtoull p = none := by
  have hdrop : p.dropWhile isSpace = [] := List.dropWhile_eq_nil_iff.mpr h
  simp [strtoull, hdrop]

/-- White space at the end is no number, and no field after it is. -/
theorem scanFields_white {p : List UInt8} (h : ∀ b ∈ p, isSpace b = true) (left : ℕ) :
    scanFields left p = none := by
  induction left generalizing p with
  | zero =>
    rw [scanFields]
    split_ifs
    · rfl
    · exact strtoull_white fun b hb => h b ((List.dropWhile_suffix _).mem hb)
  | succ left ih =>
    rw [scanFields_succ]
    split_ifs
    · rfl
    · exact ih fun b hb =>
        h b ((List.dropWhile_suffix _).mem ((List.dropWhile_suffix _).mem hb))

/-- A field is read, or it is skipped up to the space after it. -/
theorem scanFields_field {t : List UInt8} (hne : t ≠ []) (ht : ∀ b ∈ t, isSpace b = false)
    (q : List UInt8) :
    scanFields 0 (t ++ q) = strtoull (t ++ q) ∧
      ∀ left, scanFields (left + 1) (t ++ q) = scanFields left (q.dropWhile (· ≠ space)) := by
  obtain ⟨b, bs, rfl⟩ := List.exists_cons_of_ne_nil hne
  have hb : b ≠ space := ne_space (ht b (by simp))
  have hstart : (b :: bs ++ q).dropWhile (· = space) = b :: bs ++ q := by simp [hb]
  refine ⟨by rw [scanFields, hstart, if_neg (by simp)], fun left => ?_⟩
  rw [scanFields_succ, hstart, if_neg (by simp),
    List.dropWhile_append_of_pos fun c hc => by simpa using ne_space (ht c hc)]

/-- **The scan of fields**: what is read is field `left`, with white space or
nothing after it. -/
theorem scanFields_joinRuns {gap : ℕ → List UInt8}
    (hgap : ∀ k, gap k ≠ [] ∧ ∀ b ∈ gap k, b = space) {tokens : List (List UInt8)}
    (htokens : ∀ t ∈ tokens, t ≠ [] ∧ ∀ b ∈ t, isSpace b = false) {trailer : List UInt8}
    (htrailer : ∀ b ∈ trailer, isSpace b = true) (left : ℕ) :
    (tokens[left]? = none → scanFields left (joinRuns gap tokens ++ trailer) = none) ∧
      ∀ t, tokens[left]? = some t →
        ∃ q, (∀ b, q.head? = some b → isSpace b = true) ∧
          scanFields left (joinRuns gap tokens ++ trailer) = strtoull (t ++ q) := by
  fun_induction joinRuns gap tokens generalizing left with
  | case1 =>
    exact ⟨fun _ => scanFields_white (by simpa using htrailer) left, by simp⟩
  | case2 gap w =>
    obtain ⟨hne, hfree⟩ := htokens w (by simp)
    obtain ⟨hread, hskip⟩ := scanFields_field hne hfree trailer
    cases left with
    | zero =>
      refine ⟨by simp, fun t ht => ⟨trailer, fun b hb => htrailer b (List.mem_of_head? hb), ?_⟩⟩
      obtain rfl : w = t := by simpa using ht
      exact hread
    | succ left =>
      refine ⟨fun _ => ?_, by simp⟩
      rw [hskip]
      exact scanFields_white (fun b hb => htrailer b ((List.dropWhile_suffix _).mem hb)) left
  | case3 gap w w' ws ih =>
    obtain ⟨hne, hfree⟩ := htokens w (by simp)
    obtain ⟨hsne, hspaces⟩ := hgap 0
    obtain ⟨c, cs, hcs⟩ := List.exists_cons_of_ne_nil hsne
    have hc : c = space := hspaces c (by simp [hcs])
    rw [List.append_assoc, List.append_assoc]
    set rest := joinRuns (fun k => gap (k + 1)) (w' :: ws) ++ trailer
    obtain ⟨hread, hskip⟩ := scanFields_field hne hfree (gap 0 ++ rest)
    cases left with
    | zero =>
      refine ⟨by simp, fun t ht => ⟨gap 0 ++ rest, fun b hb => ?_, ?_⟩⟩
      · obtain rfl : c = b := by simpa [hcs] using hb
        exact hc ▸ rfl
      · obtain rfl : w = t := by simpa using ht
        exact hread
    | succ left =>
      have hstop : (gap 0 ++ rest).dropWhile (· ≠ space) = gap 0 ++ rest := by simp [hcs, hc]
      rw [hskip, hstop, scanFields_lead hspaces]
      exact ih (fun k => hgap (k + 1)) (fun t ht => htokens t (List.mem_cons_of_mem w ht)) left

/-- A field without a digit is no number. -/
theorem strtoull_noDigits {t q : List UInt8} (hne : t ≠ []) (ht : ∀ b ∈ t, isSpace b = false)
    (hdigits : ∀ b ∈ t, isDigit b = false) (hq : ∀ b, q.head? = some b → isSpace b = true) :
    strtoull (t ++ q) = none := by
  have hhead : ∀ p : List UInt8, (∀ b ∈ p, isDigit b = false) →
      (p ++ q).takeWhile isDigit = [] := by
    intro p hp
    cases p with
    | nil =>
      cases q with
      | nil => rfl
      | cons b q => simp [(isSpace_plain (hq b rfl)).2.2]
    | cons b p => simp [hp b (by simp)]
  obtain ⟨b, bs, rfl⟩ := List.exists_cons_of_ne_nil hne
  have hdrop : (b :: bs ++ q).dropWhile isSpace = b :: bs ++ q := by simp [ht b (by simp)]
  -- with or without a sign, what follows begins with no digit
  have hnone : (if (b :: bs ++ q).head? = some 45 ∨ (b :: bs ++ q).head? = some 43
      then (b :: bs ++ q).tail else b :: bs ++ q).takeWhile isDigit = [] := by
    split_ifs
    · exact hhead bs fun c hc => hdigits c (List.mem_cons_of_mem b hc)
    · exact hhead (b :: bs) hdigits
  simp only [strtoull, hdrop, hnone, if_true]

/-- **What the scan makes of a line**: its 20th field after the name is read, if
there is one. -/
theorem readStartTime_line (l : Line) :
    (l.tokens[19]? = none → readStartTime l.text = none) ∧
      ∀ t, l.tokens[19]? = some t →
        ∃ q, (∀ b, q.head? = some b → isSpace b = true) ∧
          readStartTime l.text = strtoull (t ++ q) := by
  have hbefore : 0 ∉ l.pid ++ [space, 40] ++ l.comm := by
    simp only [List.mem_append, not_or]
    exact ⟨⟨l.pid_nulFree, by decide⟩, l.comm_nulFree⟩
  have hafter : ∀ b ∈ space :: (joinRuns l.gap l.tokens ++ l.trailer),
      b ≠ closeParen ∧ b ≠ 0 := by
    intro b hb
    rcases List.mem_cons.mp hb with rfl | hb
    · decide
    rcases List.mem_append.mp hb with hb | hb
    · rcases Fields.mem_joinRuns hb with ⟨t, ht, hb⟩ | ⟨k, hb⟩
      · exact ((l.tokens_plain t ht).2 b hb).2
      · rw [(l.gap_spaces k).2 b hb]
        decide
    · obtain ⟨hparen, hnul, -⟩ := isSpace_plain (l.trailer_space b hb)
      exact ⟨hparen, hnul⟩
  rw [Line.text, lineText, readStartTime_append hbefore hafter, scanFields_space]
  exact scanFields_joinRuns l.gap_spaces
    (fun t ht => ⟨(l.tokens_plain t ht).1, fun b hb => ((l.tokens_plain t ht).2 b hb).1⟩)
    l.trailer_space 19

/-- **The contract of the scan**: the 20th field after the command name decides
on every line, a text without `)` has no start time, and the loops return. -/
theorem readStartTime_fields :
    (∀ l : Line,
      (∀ t, l.tokens[19]? = some t →
        ((∀ b ∈ t, isDigit b = true) → ofDigits t < 2 ^ 64 →
          readStartTime l.text = some (UInt64.ofNat (ofDigits t))) ∧
        ((∀ b ∈ t, isDigit b = true) → 2 ^ 64 ≤ ofDigits t → readStartTime l.text = none) ∧
        ((∀ b ∈ t, isDigit b = false) → readStartTime l.text = none)) ∧
      (l.tokens.length < 20 → readStartTime l.text = none)) ∧
    (∀ contents, closeParen ∉ contents → readStartTime contents = none) ∧
    (∀ contents steps, 4 * contents.length + 2 < steps →
      readStartTimeIn steps contents = some (readStartTime contents)) := by
  refine ⟨fun l => ⟨fun t ht => ?_, fun hfew => ?_⟩, fun contents hparen => ?_,
    fun contents steps h => loops_return contents h⟩
  · obtain ⟨q, hq, hread⟩ := (readStartTime_line l).2 t ht
    obtain ⟨hne, hplain⟩ := l.tokens_plain t (List.mem_of_getElem? ht)
    have hstop : ∀ b, q.head? = some b → isDigit b = false :=
      fun b hb => (isSpace_plain (hq b hb)).2.2
    rw [hread]
    refine ⟨fun hdigits hfits => ?_, fun hdigits hlarge => ?_, fun hnone => ?_⟩
    · rw [strtoull_digits hne hdigits hstop, if_pos hfits]
    · rw [strtoull_digits hne hdigits hstop, if_neg (Nat.not_lt.mpr hlarge)]
    · exact strtoull_noDigits hne (fun b hb => (hplain b hb).1) hnone hq
  · exact (readStartTime_line l).1 (List.getElem?_eq_none (by omega))
  · have hcut : closeParen ∉ contents.takeWhile (· ≠ 0) :=
      fun h => hparen ((List.takeWhile_prefix _).mem h)
    rw [readStartTime, afterLastParen, if_neg hcut]
    rfl

/-- Twenty fields, with a NUL for the first one: a C string ends there. -/
def nulField : List (List UInt8) := [0] :: List.replicate 19 (decimal 7)

/-- Without NUL-free fields the contract fails: the fields after a NUL are not
read. -/
theorem readStartTime_nulField :
    ¬ ∀ (pid comm : List UInt8) (tokens : List (List UInt8)) (t : List UInt8),
      0 ∉ comm → (∀ t ∈ tokens, t ≠ [] ∧ ∀ b ∈ t, isSpace b = false ∧ b ≠ closeParen) →
      tokens[19]? = some t → (∀ b ∈ t, isDigit b = true) → ofDigits t < 2 ^ 64 →
      readStartTime (lineText pid comm (fun _ => [space]) tokens []) =
        some (UInt64.ofNat (ofDigits t)) := by
  intro h
  have hread := h (decimal 1) [97] nulField (decimal 7) (by decide) (by decide +kernel)
    (by decide +kernel) (by decide +kernel) (by decide +kernel)
  have hnone : readStartTime (lineText (decimal 1) [97] (fun _ => [space]) nulField []) = none := by
    decide +kernel
  rw [hnone] at hread
  cases hread

end ProcStat
