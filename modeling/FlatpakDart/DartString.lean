/-
Strings of Dart: sequences of UTF-16 code units, compared unit by unit.

`sort_eq_of_perm` — `List.sort` forgets the order of what it sorts.
-/
import Mathlib.Data.List.Basic

/-- A `String`; a surrogate may stand alone in it. -/
abbrev DartString := List UInt16

namespace DartString

/-- The code units of a character. -/
def codeUnits (c : Char) : List UInt16 :=
  if c.val < 0x10000 then [c.val.toUInt16]
  else
    let offset := c.val - 0x10000
    [(0xD800 : UInt16) + (offset >>> 10).toUInt16, (0xDC00 : UInt16) + (offset &&& 0x3FF).toUInt16]

/-- A string literal of the source. -/
def lit (s : String) : DartString := s.toList.flatMap codeUnits

/-- `utf8.encode`, before the bytes: a surrogate that stands alone is replaced. -/
def runes : DartString → List Char
  | [] => []
  | [u] => [if 0xD800 ≤ u ∧ u ≤ 0xDFFF then Char.ofNat 0xFFFD else Char.ofNat u.toNat]
  | u :: v :: rest =>
    if (0xD800 ≤ u ∧ u ≤ 0xDBFF) ∧ 0xDC00 ≤ v ∧ v ≤ 0xDFFF then
      Char.ofNat (0x10000 + 0x400 * (u.toNat - 0xD800) + (v.toNat - 0xDC00)) :: runes rest
    else
      (if 0xD800 ≤ u ∧ u ≤ 0xDFFF then Char.ofNat 0xFFFD else Char.ofNat u.toNat) ::
        runes (v :: rest)

/-- `utf8.encode`. -/
def utf8Encode (s : DartString) : List UInt8 := (runes s).flatMap String.utf8EncodeChar

/-- `a.compareTo(b) <= 0`. -/
def precedes (a b : DartString) : Bool := (compare a b).isLE

/-- `..sort()` on a list of strings. -/
def sort (l : List DartString) : List DartString := l.mergeSort precedes

theorem sort_perm (l : List DartString) : (sort l).Perm l := List.mergeSort_perm l precedes

@[simp] theorem mem_sort {l : List DartString} {a : DartString} : a ∈ sort l ↔ a ∈ l :=
  (sort_perm l).mem_iff

theorem sort_pairwise (l : List DartString) : (sort l).Pairwise fun a b => precedes a b := by
  refine List.pairwise_mergeSort (fun a b c hab hbc => ?_) (fun a b => ?_) l
  · exact Std.TransCmp.isLE_trans hab hbc
  · have hswap : compare a b = (compare b a).swap := Std.OrientedCmp.eq_swap
    cases hba : compare b a with
    | lt => simp [precedes, hba]
    | eq => simp [precedes, hba]
    | gt => simp [precedes, hswap, hba]

/-- Two strings that precede each other are the same, so there is one sorted list. -/
theorem sort_eq_of_perm {l l' : List DartString} (h : l.Perm l') : sort l = sort l' := by
  refine List.Perm.eq_of_pairwise (fun a b _ _ hab hba => ?_) (sort_pairwise l) (sort_pairwise l')
    ((sort_perm l).trans (h.trans (sort_perm l').symm))
  exact Std.LawfulEqCmp.eq_of_compare (Std.OrientedCmp.isLE_antisymm hab hba)

end DartString
