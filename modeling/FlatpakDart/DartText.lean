/-
Dart's `String.trim`, `RegExp(r'\s+')` and `int.tryParse`.

`tryParse_decimal` — an integer of 64 bits is read back from its decimal digits.
-/
import FlatpakDart.Fields
import Mathlib.Algebra.Group.Nat.Defs

namespace DartText

/-! ### Whitespace -/

/-- `\s` of a regular expression. -/
def isSpace (c : Char) : Bool :=
  (0x9 ≤ c.toNat && c.toNat ≤ 0xD) || (0x2000 ≤ c.toNat && c.toNat ≤ 0x200A) ||
    [0x20, 0xA0, 0x1680, 0x2028, 0x2029, 0x202F, 0x205F, 0x3000, 0xFEFF].contains c.toNat

/-- What `trim` takes away: `\s` and the next-line character. -/
def isWhitespace (c : Char) : Bool := isSpace c || c.toNat == 0x85

/-- `s.trim()`. -/
def trim (s : List Char) : List Char := Fields.trim isWhitespace s

/-- `s.split(RegExp(r'\s+'))`. -/
def splitSpaces (s : List Char) : List (List Char) := Fields.splitRuns isSpace false s

theorem isSpace_eq_false {c : Char} (h : isWhitespace c = false) : isSpace c = false :=
  (Bool.or_eq_false_iff.mp h).1

/-! ### Numbers -/

/-- The value of a digit, 16 if the character is none. -/
def digitValue (c : Char) : ℕ :=
  if c.isDigit then c.toNat - 48
  else if 'a' ≤ c ∧ c ≤ 'f' then c.toNat - 87
  else if 'A' ≤ c ∧ c ≤ 'F' then c.toNat - 55
  else 16

/-- The number that one or more digits stand for. -/
def parseDigits (radix : ℕ) (s : List Char) : Option ℕ :=
  if s = [] then none
  else if s.all (digitValue · < radix) then
    some (s.foldl (fun n c => radix * n + digitValue c) 0)
  else none

/-- An `int`, if the number is one. -/
def toInt64 (n : ℤ) : Option ℤ :=
  if -0x8000000000000000 ≤ n ∧ n < 0x8000000000000000 then some n else none

/-- A number after its sign; without a minus sign, `0x` may give all the 64 bits. -/
def parseNumber (negative : Bool) (s : List Char) : Option ℤ :=
  if s.take 2 = ['0', 'x'] ∨ s.take 2 = ['0', 'X'] then
    (parseDigits 16 (s.drop 2)).bind fun n =>
      if negative then toInt64 (-n)
      else if n < 2 ^ 64 then some (Int64.ofNat n).toInt
      else none
  else (parseDigits 10 s).bind fun n => toInt64 (if negative then -n else n)

/-- `int.tryParse(source)`. -/
def tryParse (source : List Char) : Option ℤ :=
  let s := trim source
  if s.head? = some '-' then parseNumber true s.tail
  else if s.head? = some '+' then parseNumber false s.tail
  else parseNumber false s

/-- An integer, as printed. -/
def decimal (n : ℤ) : List Char :=
  if n < 0 then '-' :: Nat.toDigits 10 n.natAbs else Nat.toDigits 10 n.natAbs

theorem toInt64_toInt (n : Int64) : toInt64 n.toInt = some n.toInt :=
  if_pos ⟨n.le_toInt, n.toInt_lt⟩

theorem isDigit_bounds {c : Char} (h : c.isDigit = true) : 48 ≤ c.toNat ∧ c.toNat ≤ 57 := by
  rw [Char.isDigit, Bool.and_eq_true, decide_eq_true_eq, decide_eq_true_eq] at h
  exact h

theorem isDigit_plain {c : Char} (h : c.isDigit = true) :
    isWhitespace c = false ∧ c ≠ '\t' ∧ c ≠ '\n' ∧ c ≠ '\r' := by
  obtain ⟨hlow, hhigh⟩ := isDigit_bounds h
  have hne : ∀ d : Char, d.toNat < 48 ∨ 57 < d.toNat → c ≠ d := by
    rintro d hd rfl
    omega
  refine ⟨?_, hne _ (by decide), hne _ (by decide), hne _ (by decide)⟩
  simp [isWhitespace, isSpace]
  omega

theorem isDigit_of_mem {n : ℕ} {c : Char} (h : c ∈ Nat.toDigits 10 n) : c.isDigit = true :=
  Nat.isDigit_of_mem_toDigits (by decide) (by decide) h

theorem parseDigits_toDigits (n : ℕ) : parseDigits 10 (Nat.toDigits 10 n) = some n := by
  have hvalue : ∀ c : Char, c.isDigit = true → digitValue c = c.toNat - 48 :=
    fun c hc => if_pos hc
  have hlt : (Nat.toDigits 10 n).all (digitValue · < 10) = true := by
    rw [List.all_eq_true]
    intro c hc
    rw [decide_eq_true_eq]
    have hdigit := isDigit_of_mem hc
    have hhigh := (isDigit_bounds hdigit).2
    rw [hvalue c hdigit]
    omega
  have hfold : ∀ (cs : List Char) (a : ℕ), (∀ c ∈ cs, c ∈ Nat.toDigits 10 n) →
      cs.foldl (fun n c => 10 * n + digitValue c) a = Nat.ofDigitChars 10 cs a := by
    intro cs
    induction cs with
    | nil => intro a _; rfl
    | cons c cs ih =>
      intro a hmem
      rw [List.foldl_cons, Nat.ofDigitChars_cons, hvalue c (isDigit_of_mem (hmem c (by simp)))]
      exact ih _ fun c' hc' => hmem c' (by simp [hc'])
  rw [parseDigits, if_neg Nat.toDigits_ne_nil, if_pos hlt, hfold _ _ fun c hc => hc,
    Nat.ofDigitChars_ten_toDigits]

/-- What is printed is a minus sign or a digit. -/
theorem mem_decimal {n : ℤ} {c : Char} (h : c ∈ decimal n) : c = '-' ∨ c.isDigit = true := by
  rw [decimal] at h
  split at h
  · rcases List.mem_cons.mp h with h | h
    · exact .inl h
    · exact .inr (isDigit_of_mem h)
  · exact .inr (isDigit_of_mem h)

theorem decimal_plain {n : ℤ} {c : Char} (h : c ∈ decimal n) :
    isWhitespace c = false ∧ c ≠ '\t' ∧ c ≠ '\n' ∧ c ≠ '\r' := by
  rcases mem_decimal h with rfl | h
  · decide
  · exact isDigit_plain h

theorem decimal_ne_nil (n : ℤ) : decimal n ≠ [] := by
  rw [decimal]
  split
  · simp
  · simp [Nat.toDigits_ne_nil]

theorem trim_decimal (n : ℤ) : trim (decimal n) = decimal n :=
  Fields.trim_eq_self (Fields.trimmed_of_free fun _ hc => (decimal_plain hc).1)

/-- Digits are not taken for a hexadecimal number. -/
theorem parseNumber_toDigits (negative : Bool) (n : ℕ) :
    parseNumber negative (Nat.toDigits 10 n) = toInt64 (if negative then -n else n) := by
  have hhex : ∀ x : Char, x.isDigit = false → (Nat.toDigits 10 n).take 2 ≠ ['0', x] := by
    intro x hx h
    have hmem : x ∈ Nat.toDigits 10 n := List.mem_of_mem_take (i := 2) (by rw [h]; simp)
    rw [isDigit_of_mem hmem] at hx
    cases hx
  rw [parseNumber, if_neg (not_or.mpr ⟨hhex 'x' rfl, hhex 'X' rfl⟩), parseDigits_toDigits,
    Option.bind_some]

theorem tryParse_decimal (n : Int64) : tryParse (decimal n.toInt) = some n.toInt := by
  rw [tryParse, trim_decimal, decimal]
  by_cases hneg : n.toInt < 0
  · have habs : -(n.toInt.natAbs : ℤ) = n.toInt := by omega
    rw [if_pos hneg, List.head?_cons, if_pos rfl, List.tail_cons, parseNumber_toDigits, if_pos rfl,
      habs, toInt64_toInt]
  · have habs : (n.toInt.natAbs : ℤ) = n.toInt := by omega
    have hsign : ∀ c : Char, c.isDigit = false →
        (Nat.toDigits 10 n.toInt.natAbs).head? ≠ some c := by
      intro c hc h
      rw [isDigit_of_mem (List.mem_of_head? h)] at hc
      cases hc
    rw [if_neg hneg, if_neg (hsign '-' rfl), if_neg (hsign '+' rfl), parseNumber_toDigits,
      if_neg Bool.false_ne_true, habs, toInt64_toInt]

end DartText
