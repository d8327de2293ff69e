/-
Strings and their bytes.

`utf8Encode` and `utf8Decode` are Dart's `utf8.encode` and `utf8.decode`: the
decoder throws on malformed input and drops a leading byte order mark.  A
`CString` is what a `const char*` points at, up to its terminator.

`utf8Decode_encode` — decoding inverts encoding, save for that mark.
-/
import Mathlib.Algebra.Group.Nat.Defs
import Mathlib.Data.List.Basic
import Mathlib.Data.List.TakeWhile

namespace Text

/-- `utf8.encode`. -/
def utf8Encode (s : String) : List UInt8 := s.toList.flatMap String.utf8EncodeChar

/-- The encoding of U+FEFF. -/
def byteOrderMark : List UInt8 := [0xEF, 0xBB, 0xBF]

/-- `utf8.decode` drops a byte order mark in front. -/
def dropMark (bs : List UInt8) : List UInt8 :=
  if byteOrderMark <+: bs then bs.drop 3 else bs

/-- `utf8.decode`; `none` is a `FormatException`. -/
def utf8Decode (bs : List UInt8) : Option String :=
  String.fromUTF8? (dropMark bs).toByteArray

theorem toByteArray_encode (s : String) : (utf8Encode s).toByteArray = s.toByteArray := by
  conv_rhs => rw [← String.ofList_toList (s := s)]
  rfl

theorem fromUTF8_encode (s : String) : String.fromUTF8? (utf8Encode s).toByteArray = some s := by
  rw [toByteArray_encode, String.fromUTF8?, dif_pos s.isValidUTF8]
  rfl

theorem utf8Decode_encode {s : String} (h : ¬ byteOrderMark <+: utf8Encode s) :
    utf8Decode (utf8Encode s) = some s := by
  rw [utf8Decode, dropMark, if_neg h, fromUTF8_encode]

theorem utf8Encode_inj {s t : String} (h : utf8Encode s = utf8Encode t) : s = t := by
  rw [← String.toByteArray_inj, ← toByteArray_encode, ← toByteArray_encode, h]

/-- What was decoded are the bytes behind the mark. -/
theorem encode_of_decode {bs : List UInt8} {s : String} (h : utf8Decode bs = some s) :
    utf8Encode s = dropMark bs := by
  rw [← List.toByteArray_inj, toByteArray_encode]
  rw [utf8Decode, String.fromUTF8?] at h
  split at h
  · exact congrArg String.toByteArray (Option.some.inj h).symm
  · cases h

/-- A byte below 128 is the whole of a character. -/
theorem toNat_of_ascii_mem {c : Char} {b : UInt8} (h : b ∈ String.utf8EncodeChar c)
    (hb : b.toNat < 0x80) : c.toNat = b.toNat := by
  unfold String.utf8EncodeChar at h
  simp only at h
  split at h
  case isTrue hone =>
    obtain rfl := List.mem_singleton.mp h
    rw [UInt8.toNat_ofNat', Nat.mod_eq_of_lt (by omega)]
    rfl
  case isFalse =>
    -- every byte of a longer code has its top bit set
    exfalso
    split_ifs at h <;> simp only [List.mem_cons, List.not_mem_nil, or_false] at h
    · rcases h with rfl | rfl <;> · simp at hb; omega
    · rcases h with rfl | rfl | rfl <;> · simp at hb; omega
    · rcases h with rfl | rfl | rfl | rfl <;> · simp at hb; omega

end Text

/-- The bytes a `const char*` points at, before the terminating NUL; no object
is larger than `PTRDIFF_MAX`. -/
structure CString where
  bytes : List UInt8
  nulFree : 0 ∉ bytes
  bounded : bytes.length < 2 ^ 63
  deriving DecidableEq

namespace CString

/-- A string literal of the source. -/
def lit (s : String) (h : 0 ∉ Text.utf8Encode s ∧ (Text.utf8Encode s).length < 2 ^ 63) : CString :=
  ⟨Text.utf8Encode s, h.1, h.2⟩

/-- What C reads of these bytes: up to the first NUL. -/
def ofBytes (bs : List UInt8) : CString where
  bytes := (bs.takeWhile (· ≠ 0)).take (2 ^ 63 - 1)
  nulFree := fun h => by simpa using List.mem_takeWhile_imp (List.mem_of_mem_take h)
  bounded := by
    rw [List.length_take]
    omega

/-- Bytes without a NUL are all read. -/
theorem bytes_ofBytes {bs : List UInt8} (h : 0 ∉ bs) (hlength : bs.length < 2 ^ 63) :
    (ofBytes bs).bytes = bs := by
  have hall : ∀ b ∈ bs, decide (b ≠ 0) = true := by
    intro b hb
    rw [decide_eq_true_eq]
    rintro rfl
    exact h hb
  show (bs.takeWhile (· ≠ 0)).take (2 ^ 63 - 1) = bs
  rw [List.takeWhile_eq_self_iff.mpr hall, List.take_of_length_le (by omega)]

/-- `toNativeUtf8()`. -/
def ofString (s : String) : CString := ofBytes (Text.utf8Encode s)

end CString
