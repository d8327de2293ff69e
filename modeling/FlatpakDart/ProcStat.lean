/-
The start time of a process (`native/src/installation_reader.cpp`).

`readStartTime` scans the text of `/proc/<pid>/stat` for field 22 as
`read_start_time` does, `strtoull` included; a `Stat` is what the kernel prints
there, with any command name.

`readStartTime_text` — the scan finds the start time, whatever the name is.
-/
import Mathlib.Algebra.Group.Nat.Defs
import Mathlib.Data.List.TakeWhile
import Mathlib.Data.Nat.Basic

namespace ProcStat

/-! ### The scan -/

/-- `')'`. -/
def closeParen : UInt8 := 41

/-- `' '`. -/
def space : UInt8 := 32

/-- What follows `strrchr(contents, ')')`. -/
def afterLastParen (contents : List UInt8) : Option (List UInt8) :=
  if closeParen ∈ contents then
    some (contents.reverse.takeWhile (· ≠ closeParen)).reverse
  else none

/-- `isspace`. -/
def isSpace (b : UInt8) : Bool := b == 32 || (9 ≤ b && b ≤ 13)

/-- `isdigit`. -/
def isDigit (b : UInt8) : Bool := 48 ≤ b && b ≤ 57

/-- The number that decimal digits stand for. -/
def ofDigits (ds : List UInt8) : ℕ := ds.foldl (fun n d => 10 * n + (d.toNat - 48)) 0

/-- `strtoull(p, &end, 10)`; `none` if `end == p` or `errno == ERANGE`. -/
def strtoull (p : List UInt8) : Option UInt64 :=
  let p := p.dropWhile isSpace
  let negative := p.head? = some 45
  let p := if p.head? = some 45 ∨ p.head? = some 43 then p.tail else p
  let digits := p.takeWhile isDigit
  if digits = [] then none
  else if 2 ^ 64 ≤ ofDigits digits then none
  else
    let value := UInt64.ofNat (ofDigits digits)
    some (if negative then -value else value)

/-- `while (*p)`: the value of the field that `left` fields come before. -/
def scanFields : ℕ → List UInt8 → Option UInt64
  | left, p =>
    let p := p.dropWhile (· = space)
    if p = [] then none
    else match left with
      | 0 => strtoull p
      | left + 1 => scanFields left (p.dropWhile (· ≠ space))

/-- `read_start_time` on the contents of the file: field 3 is the first one
after the command name, and the start time is field 22. -/
def readStartTime (contents : List UInt8) : Option UInt64 :=
  -- a C string ends at its first NUL
  (afterLastParen (contents.takeWhile (· ≠ 0))).bind (scanFields 19)

/-! ### What the kernel prints -/

/-- A field: no space, no parenthesis and no NUL in it. -/
structure Token where
  bytes : List UInt8
  ne_nil : bytes ≠ []
  plain : ∀ b ∈ bytes, b ≠ space ∧ b ≠ closeParen ∧ b ≠ 0

/-- A field with the space that separates it from the one before. -/
def Token.spaced (t : Token) : List UInt8 := space :: t.bytes

/-- A decimal number, as printed. -/
def decimal (n : ℕ) : List UInt8 := (Nat.toDigits 10 n).map fun c => UInt8.ofNat c.toNat

/-- `/proc/<pid>/stat`: the pid, the command name, fields 3 to 21, the start
time and the rest. -/
structure Stat where
  pid : ℕ
  comm : List UInt8
  fields : List Token
  startTime : UInt64
  rest : List Token
  comm_nulFree : 0 ∉ comm
  fields_length : fields.length = 19

def Stat.text (s : Stat) : List UInt8 :=
  decimal s.pid ++ [space, 40] ++ s.comm ++ closeParen ::
    (s.fields.flatMap Token.spaced ++ space :: decimal s.startTime.toNat ++
      (s.rest.flatMap Token.spaced ++ [10]))

/-! ### The scan finds it -/

theorem toNat_of_mem_toDigits {n : ℕ} {c : Char} (h : c ∈ Nat.toDigits 10 n) :
    (UInt8.ofNat c.toNat).toNat = c.toNat ∧ 48 ≤ c.toNat ∧ c.toNat ≤ 57 := by
  have hdigit : c.isDigit = true := Nat.isDigit_of_mem_toDigits (by decide) (by decide) h
  rw [Char.isDigit, Bool.and_eq_true, decide_eq_true_eq, decide_eq_true_eq] at hdigit
  have hlow : 48 ≤ c.toNat := hdigit.1
  have hhigh : c.toNat ≤ 57 := hdigit.2
  refine ⟨?_, hlow, hhigh⟩
  rw [UInt8.toNat_ofNat', Nat.mod_eq_of_lt (by omega)]

theorem isDigit_decimal {n : ℕ} {b : UInt8} (h : b ∈ decimal n) : isDigit b = true := by
  obtain ⟨c, hc, rfl⟩ := List.mem_map.mp h
  obtain ⟨heq, hlow, hhigh⟩ := toNat_of_mem_toDigits hc
  simp [isDigit, UInt8.le_iff_toNat_le, heq, hlow, hhigh]

/-- A digit is none of the other bytes that the scan looks for. -/
theorem isDigit_plain {b : UInt8} (h : isDigit b = true) :
    b ≠ space ∧ b ≠ closeParen ∧ b ≠ 0 ∧ isSpace b = false ∧ b ≠ 45 ∧ b ≠ 43 := by
  simp only [isDigit, isSpace, space, closeParen, Bool.and_eq_true, decide_eq_true_eq,
    UInt8.le_iff_toNat_le, ne_eq, ← UInt8.toNat_inj, Bool.or_eq_false_iff, beq_eq_false_iff_ne,
    Bool.and_eq_false_iff, decide_eq_false_iff_not, UInt8.reduceToNat] at h ⊢
  omega

theorem decimal_ne_nil (n : ℕ) : decimal n ≠ [] := by
  simp [decimal, Nat.toDigits_ne_nil]

theorem ofDigits_decimal (n : ℕ) : ofDigits (decimal n) = n := by
  have hmap : ∀ (cs : List Char) (a : ℕ), (∀ c ∈ cs, c ∈ Nat.toDigits 10 n) →
      (cs.map fun c => UInt8.ofNat c.toNat).foldl (fun n d => 10 * n + (d.toNat - 48)) a =
        Nat.ofDigitChars 10 cs a := by
    intro cs
    induction cs with
    | nil => intro a _; rfl
    | cons c cs ih =>
      intro a hmem
      rw [List.map_cons, List.foldl_cons, Nat.ofDigitChars_cons,
        (toNat_of_mem_toDigits (hmem c (by simp))).1]
      exact ih _ fun c' hc' => hmem c' (by simp [hc'])
  rw [ofDigits, decimal, hmap _ _ fun c hc => hc, Nat.ofDigitChars_ten_toDigits]

/-- Digits up to a byte that is none are read as a number, if it fits. -/
theorem strtoull_digits {t q : List UInt8} (hne : t ≠ []) (ht : ∀ b ∈ t, isDigit b = true)
    (hq : ∀ b, q.head? = some b → isDigit b = false) :
    strtoull (t ++ q) =
      if ofDigits t < 2 ^ 64 then some (UInt64.ofNat (ofDigits t)) else none := by
  obtain ⟨d, ds, hds⟩ := List.exists_cons_of_ne_nil hne
  have hd := isDigit_plain (ht d (by simp [hds]))
  have hdrop : (t ++ q).dropWhile isSpace = t ++ q := by
    simp [hds, hd.2.2.2.1]
  have hhead : (t ++ q).head? = some d := by simp [hds]
  have htake : (t ++ q).takeWhile isDigit = t := by
    rw [List.takeWhile_append_of_pos ht]
    cases q with
    | nil => simp
    | cons b q => simp [hq b rfl]
  have hunsigned : ¬ (some d = some 45 ∨ some d = some 43) := by simp [hd]
  simp only [strtoull, hdrop, hhead, if_neg hunsigned, htake, if_neg hne]
  by_cases hfits : ofDigits t < 2 ^ 64
  · rw [if_pos hfits, if_neg (Nat.not_le.mpr hfits)]
    simp [hd]
  · rw [if_neg hfits, if_pos (Nat.not_lt.mp hfits)]

theorem strtoull_decimal {n : ℕ} (hn : n < 2 ^ 64) {q : List UInt8}
    (hq : ∀ b, q.head? = some b → isDigit b = false) :
    strtoull (decimal n ++ q) = some (UInt64.ofNat n) := by
  rw [strtoull_digits (decimal_ne_nil n) (fun b hb => isDigit_decimal hb) hq, ofDigits_decimal,
    if_pos hn]

theorem scanFields_succ (left : ℕ) (p : List UInt8) :
    scanFields (left + 1) p =
      if p.dropWhile (· = space) = [] then none
      else scanFields left ((p.dropWhile (· = space)).dropWhile (· ≠ space)) := rfl

/-- The scan up to a field takes one field after the other. -/
theorem scanFields_spaced (fields : List Token) {p : List UInt8}
    (hp : ∀ b, p.head? = some b → b = space) :
    scanFields fields.length (fields.flatMap Token.spaced ++ p) = scanFields 0 p := by
  induction fields with
  | nil => rfl
  | cons f fields ih =>
    obtain ⟨b, bs, hbs⟩ := List.exists_cons_of_ne_nil f.ne_nil
    have hb := f.plain b (by simp [hbs])
    have hrest : ∀ c, (fields.flatMap Token.spaced ++ p).head? = some c → c = space := by
      cases fields with
      | nil => exact hp
      | cons g fields => simp [Token.spaced]
    have hskip : (f.bytes ++ (fields.flatMap Token.spaced ++ p)).dropWhile (· ≠ space) =
        fields.flatMap Token.spaced ++ p := by
      rw [List.dropWhile_append_of_pos fun b hb => by simpa using (f.plain b hb).1]
      cases hrest' : fields.flatMap Token.spaced ++ p with
      | nil => rfl
      | cons c cs => simp [hrest c (by simp [hrest'])]
    have hstart : (f.spaced ++ (fields.flatMap Token.spaced ++ p)).dropWhile (· = space) =
        f.bytes ++ (fields.flatMap Token.spaced ++ p) := by
      simp [Token.spaced, hbs, hb.1]
    rw [List.length_cons, List.flatMap_cons, List.append_assoc, scanFields_succ, hstart,
      if_neg (by simp [f.ne_nil]), hskip]
    exact ih

theorem afterLastParen_append {before after : List UInt8} (h : closeParen ∉ after) :
    afterLastParen (before ++ closeParen :: after) = some after := by
  have hafter : ∀ b ∈ after.reverse, decide (b ≠ closeParen) = true := fun b hb => by
    refine decide_eq_true fun heq => h ?_
    rwa [← heq, ← List.mem_reverse]
  rw [afterLastParen, if_pos (by simp), List.reverse_append, List.reverse_cons, List.append_assoc,
    List.takeWhile_append_of_pos hafter]
  simp

theorem plain_spaced {fields : List Token} {b : UInt8} (h : b ∈ fields.flatMap Token.spaced) :
    b ≠ closeParen ∧ b ≠ 0 := by
  obtain ⟨f, -, hb⟩ := List.mem_flatMap.mp h
  cases hb with
  | head => decide
  | tail _ hb => exact (f.plain b hb).2

/-- What `strrchr` leaves of a text whose last `)` closes the command name. -/
theorem readStartTime_append {before after : List UInt8} (hbefore : 0 ∉ before)
    (hafter : ∀ b ∈ after, b ≠ closeParen ∧ b ≠ 0) :
    readStartTime (before ++ closeParen :: after) = scanFields 19 after := by
  have hall : ∀ b ∈ before ++ closeParen :: after, decide (b ≠ 0) = true := by
    intro b hb
    rw [decide_eq_true_eq]
    rintro rfl
    rcases List.mem_append.mp hb with hb | hb
    · exact hbefore hb
    · cases hb with
      | tail _ hb => exact (hafter 0 hb).2 rfl
  have hparen : closeParen ∉ after := fun h => (hafter _ h).1 rfl
  rw [readStartTime, List.takeWhile_eq_self_iff.mpr hall, afterLastParen_append hparen]
  rfl

/-- **The start time is read back**, whatever the command name is. -/
theorem readStartTime_text (s : Stat) : readStartTime s.text = some s.startTime := by
  have hbefore : 0 ∉ decimal s.pid ++ [space, 40] ++ s.comm := by
    simp only [List.mem_append, not_or]
    exact ⟨⟨fun h => (isDigit_plain (isDigit_decimal h)).2.2.1 rfl, by decide⟩, s.comm_nulFree⟩
  have hafter : ∀ b ∈ s.fields.flatMap Token.spaced ++ space :: decimal s.startTime.toNat ++
      (s.rest.flatMap Token.spaced ++ [10]), b ≠ closeParen ∧ b ≠ 0 := by
    intro b hb
    simp only [List.mem_append, List.mem_cons] at hb
    rcases hb with (hb | rfl | hb) | hb | rfl | hb
    · exact plain_spaced hb
    · decide
    · exact ⟨(isDigit_plain (isDigit_decimal hb)).2.1, (isDigit_plain (isDigit_decimal hb)).2.2.1⟩
    · exact plain_spaced hb
    · decide
    · exact absurd hb List.not_mem_nil
  have hstop : ∀ b, (s.rest.flatMap Token.spaced ++ [10]).head? = some b → isDigit b = false := by
    cases s.rest with
    | nil =>
      rintro b ⟨⟩
      rfl
    | cons f fields =>
      rintro b ⟨⟩
      rfl
  have hspace : (space :: (decimal s.startTime.toNat ++
      (s.rest.flatMap Token.spaced ++ [10]))).dropWhile (· = space) =
        decimal s.startTime.toNat ++ (s.rest.flatMap Token.spaced ++ [10]) := by
    obtain ⟨d, ds, hds⟩ := List.exists_cons_of_ne_nil (decimal_ne_nil s.startTime.toNat)
    have hd : d ≠ space :=
      (isDigit_plain (isDigit_decimal (n := s.startTime.toNat) (b := d) (by simp [hds]))).1
    simp [hds, hd]
  rw [Stat.text, readStartTime_append hbefore hafter, ← s.fields_length, List.append_assoc,
    List.cons_append, scanFields_spaced _ (by rintro b ⟨⟩; rfl), scanFields, hspace,
    if_neg (by simp [decimal_ne_nil])]
  rw [strtoull_decimal s.startTime.toNat_lt hstop, UInt64.ofNat_toNat]

end ProcStat
