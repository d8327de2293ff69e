/-
The bounds of `Reader` (`native/include/glaze_meta.h`), with pointers that are addresses
of 64 bits.

A read compares `p + n` with `end` after the sum is reduced modulo `2 ^ 64`, and the wire
says what `n` is.

* `inBounds_iff` — what a read returns lies within the buffer, exactly if the sum does not
  wrap or the read throws;
* `readString_agrees` — below the middle of the address space `read_string` is the reader
  that compares lengths as numbers;
* `reader_inBounds_iff` — when each of the primitives stays in bounds.
-/
import FlatpakDart.GlazeMeta

namespace Glz.Raw

/-! ### Memory -/

abbrev Address : Type := BitVec 64

/-- A span of memory: the bytes from `begin` to `end`. -/
structure Buffer where
  memory : Address → UInt8
  beginPtr : Address
  endPtr : Address

/-- A position of the reader. -/
structure Cursor (b : Buffer) where
  p : Address
  begin_le : b.beginPtr ≤ p
  le_end : p ≤ b.endPtr

/-- The allocations that are granted, by their size in bytes; a `std::string` and a
`std::vector` refuse those above `PTRDIFF_MAX` themselves. -/
structure Allocator where
  grants : ℕ → Bool
  lt_of_grants : ∀ {bytes}, grants bytes = true → bytes < 2 ^ 63

/-- There is always memory. -/
def Allocator.plenty : Allocator := ⟨fun bytes => bytes < 2 ^ 63, of_decide_eq_true⟩

/-- An arithmetic type, and what `memcpy` makes of the bytes of a value. -/
class Arithmetic (T : Type) where
  size : ℕ
  size_pos : 0 < size
  size_le : size ≤ 16
  ofBytes : List UInt8 → T

open Arithmetic (size ofBytes)

instance : Arithmetic (BitVec 64) where
  size := 8
  size_pos := by decide
  size_le := by decide
  ofBytes bs := .ofNat 64 (LittleEndian.value bs)

/-- A `std::string_view`, or a `std::span`; nothing is copied. -/
structure View where
  data : Address
  size : BitVec 64
  deriving DecidableEq

namespace Buffer

variable (b : Buffer)

/-- The bytes at an address. -/
def bytesAt (p : Address) (n : ℕ) : List UInt8 :=
  (List.range n).map fun i => b.memory (p + .ofNat 64 i)

/-- The bytes between two addresses. -/
def between (x y : ℕ) : List UInt8 :=
  (List.range' x (y - x)).map fun i => b.memory (.ofNat 64 i)

end Buffer

/-! ### The primitives

A read is given `p`, and returns it after the read; `none` is a thrown exception. -/

section Primitives

variable (T : Type) [Arithmetic T] (a : Allocator) (b : Buffer)

/-- `read<T>()`. -/
def read (p : Address) : Option (T × Address) :=
  if b.endPtr < p + .ofNat 64 (size T) then none
  else some (ofBytes (b.bytesAt p (size T)), p + .ofNat 64 (size T))

/-- `read_bool()`. -/
def readBool (p : Address) : Option (Bool × Address) :=
  if b.endPtr ≤ p then none else some (b.memory p != 0, p + 1)

/-- The read of a length and of so many elements, whose bytes are taken as they are. -/
def readSized {α : Type} (elementSize : ℕ) (grants : ℕ → Bool) (make : Address → BitVec 64 → α)
    (p : Address) : Option (α × Address) :=
  (read (BitVec 64) b p).bind fun (n, p) =>
    if b.endPtr < p + n * .ofNat 64 elementSize then none
    else if grants n.toNat then some (make p n, p + n * .ofNat 64 elementSize)
    else none

/-- `read_string()`; the constructor of the string throws if there is no memory. -/
def readString (p : Address) : Option (List UInt8 × Address) :=
  readSized b 1 a.grants (fun p n => b.bytesAt p n.toNat) p

/-- `read_string_view()`. -/
def readStringView (p : Address) : Option (View × Address) :=
  readSized b 1 (fun _ => true) View.mk p

/-- `read_span<T>()`. -/
def readSpan (p : Address) : Option (View × Address) :=
  readSized b (size T) (fun _ => true) View.mk p

/-- The loop of `read_vector`. -/
def readTimes : ℕ → Address → Option (List T × Address)
  | 0, p => some ([], p)
  | n + 1, p =>
    (read T b p).bind fun (v, p) => (readTimes n p).map fun (vs, p) => (v :: vs, p)

/-- `read_vector<T>()`; `reserve` throws if there is no memory. -/
def readVector (p : Address) : Option (List T × Address) :=
  (read (BitVec 64) b p).bind fun (n, p) =>
    if a.grants (n.toNat * size T) then readTimes T b n.toNat p else none

end Primitives

/-! ### Bounds -/

variable {T : Type} [Arithmetic T] {a : Allocator} {b : Buffer}

/-- What is returned lies within the buffer, and is what it should be. -/
def InBounds {α : Type} (b : Buffer) (p : Address) (result : Option (α × Address))
    (Holds : α → Address → Prop) : Prop :=
  ∀ v p', result = some (v, p') → p ≤ p' ∧ p' ≤ b.endPtr ∧ Holds v p'

/-- The string is made of the bytes between its length prefix and `p'`. -/
def StringFills (b : Buffer) (p : Address) (s : List UInt8) (p' : Address) : Prop :=
  p.toNat + 8 ≤ p'.toNat ∧ s = b.between (p.toNat + 8) p'.toNat

/-- The view, of elements of this size, covers the bytes between its length prefix and
`p'`. -/
def ViewFills (elementSize : ℕ) (p : Address) (v : View) (p' : Address) : Prop :=
  v.data.toNat = p.toNat + 8 ∧ v.data.toNat + v.size.toNat * elementSize = p'.toNat

/-- The elements of the vector take the bytes between its length prefix and `p'`. -/
def VectorFills (p : Address) (vs : List T) (p' : Address) : Prop :=
  p.toNat + 8 + vs.length * size T = p'.toNat

/-- The length that a prefix encodes. -/
def encodedLength (b : Buffer) (p : Address) : ℕ := LittleEndian.value (b.bytesAt p 8) % 2 ^ 64

/-- The check of so many bytes throws: `p + n > end`, after the sum has wrapped. -/
def Refused (b : Buffer) (p : Address) (n : ℕ) : Prop :=
  b.endPtr.toNat < (p.toNat + n) % 2 ^ 64

instance (p : Address) (n : ℕ) : Decidable (Refused b p n) := inferInstanceAs (Decidable (_ < _))

/-- **A read of `k` bytes in all** stays in bounds exactly if their end does not wrap or it
throws. -/
theorem inBounds_iff {α : Type} {p : Address} {result : Option (α × Address)}
    {Holds : α → Address → Prop} {k : ℕ}
    (hresult : ∀ v p', result = some (v, p') →
      p' = p + .ofNat 64 k ∧ p' ≤ b.endPtr ∧ (Holds v p' ↔ p.toNat + k = p'.toNat)) :
    InBounds b p result Holds ↔ p.toNat + k < 2 ^ 64 ∨ result = none := by
  constructor
  · intro h
    cases hread : result with
    | none => exact .inr rfl
    | some read =>
      obtain ⟨v, p'⟩ := read
      obtain ⟨-, -, hholds⟩ := h v p' hread
      rw [(hresult v p' hread).2.2.mp hholds]
      exact .inl p'.isLt
  · rintro (hwrap | hnone) v p' hread
    · obtain ⟨hp', hend, hholds⟩ := hresult v p' hread
      have hsum : p.toNat + k = p'.toNat := by
        rw [hp', BitVec.toNat_add, BitVec.toNat_ofNat, Nat.add_mod_mod, Nat.mod_eq_of_lt hwrap]
      exact ⟨BitVec.le_def.mpr (by omega), hend, hholds.mpr hsum⟩
    · rw [hnone] at hread
      cases hread

/-! ### When the checks throw -/

theorem lt_advance_iff {p : Address} {n : ℕ} : b.endPtr < p + .ofNat 64 n ↔ Refused b p n := by
  rw [BitVec.lt_def, BitVec.toNat_add, BitVec.toNat_ofNat, Nat.add_mod_mod, Refused]

theorem le_of_not_refused {p : Address} {n : ℕ} (h : ¬ Refused b p n) :
    p + .ofNat 64 n ≤ b.endPtr :=
  BitVec.not_lt.mp (mt lt_advance_iff.mp h)

theorem refused_advance (p : Address) (m n : ℕ) :
    Refused b (p + .ofNat 64 m) n ↔ Refused b p (m + n) := by
  rw [← lt_advance_iff, ← lt_advance_iff, BitVec.add_assoc, ← BitVec.ofNat_add]

theorem read_eq (T : Type) [Arithmetic T] (b : Buffer) (p : Address) :
    read T b p = if Refused b p (size T) then none
      else some (ofBytes (b.bytesAt p (size T)), p + .ofNat 64 (size T)) := by
  simp only [read, lt_advance_iff]

/-- The length is what the first eight bytes encode. -/
theorem readPrefix_eq (b : Buffer) (p : Address) :
    read (BitVec 64) b p = if Refused b p 8 then none
      else some (.ofNat 64 (encodedLength b p), p + .ofNat 64 8) := by
  have hlength : ofBytes (b.bytesAt p 8) = BitVec.ofNat 64 (encodedLength b p) :=
    BitVec.eq_of_toNat_eq (by simp [encodedLength, ofBytes])
  rw [← hlength]
  exact read_eq (BitVec 64) b p

theorem toNat_encodedLength (b : Buffer) (p : Address) :
    (BitVec.ofNat 64 (encodedLength b p)).toNat = encodedLength b p := by
  rw [BitVec.toNat_ofNat, encodedLength, Nat.mod_mod]

/-- The prefix is read, and then the bytes. -/
theorem readSized_eq {α : Type} (elementSize : ℕ) (grants : ℕ → Bool)
    (make : Address → BitVec 64 → α) (p : Address) :
    readSized b elementSize grants make p =
      if Refused b p 8 ∨ Refused b p (8 + encodedLength b p * elementSize) then none
      else if grants (encodedLength b p) then
        some (make (p + .ofNat 64 8) (.ofNat 64 (encodedLength b p)),
          p + .ofNat 64 (8 + encodedLength b p * elementSize))
      else none := by
  have hsum : p + .ofNat 64 8 + .ofNat 64 (encodedLength b p) * .ofNat 64 elementSize =
      p + .ofNat 64 (8 + encodedLength b p * elementSize) := by
    rw [← BitVec.ofNat_mul, BitVec.add_assoc, ← BitVec.ofNat_add]
  rw [readSized, readPrefix_eq]
  by_cases hbegins : Refused b p 8
  · rw [if_pos hbegins, if_pos (.inl hbegins)]
    rfl
  · rw [if_neg hbegins, Option.bind_some]
    simp only [hsum, lt_advance_iff, toNat_encodedLength, hbegins, false_or]

/-- The loop throws as soon as one of its elements does. -/
theorem readTimes_eq_none_iff (n : ℕ) (p : Address) :
    readTimes T b n p = none ↔ ∃ j < n, Refused b p ((j + 1) * size T) := by
  induction n generalizing p with
  | zero => simp [readTimes]
  | succ n ih =>
    rw [readTimes, read_eq, Nat.exists_lt_succ_left, zero_add, one_mul]
    by_cases hfirst : Refused b p (size T)
    · simp [hfirst]
    · simp only [hfirst, if_false, Option.bind_some, Option.map_eq_none_iff, ih, refused_advance,
        false_or]
      refine exists_congr fun j => and_congr_right fun _ => ?_
      rw [add_mul (j + 1) 1, one_mul, add_comm ((j + 1) * size T)]

theorem readTimes_eq_some {n : ℕ} {p p' : Address} {vs : List T}
    (h : readTimes T b n p = some (vs, p')) :
    vs.length = n ∧ p' = p + .ofNat 64 (n * size T) := by
  induction n generalizing p vs with
  | zero =>
    obtain ⟨rfl, rfl⟩ := Prod.mk.inj (Option.some.inj h)
    simp
  | succ n ih =>
    rw [readTimes, read_eq] at h
    split at h
    case isTrue => cases h
    case isFalse =>
      obtain ⟨⟨rest, q⟩, hrest, hpair⟩ := Option.map_eq_some_iff.mp h
      obtain ⟨rfl, rfl⟩ := Prod.mk.inj hpair
      obtain ⟨hlength, rfl⟩ := ih hrest
      refine ⟨by rw [List.length_cons, hlength], ?_⟩
      rw [BitVec.add_assoc, ← BitVec.ofNat_add, Nat.add_one_mul, Nat.add_comm (size T)]

/-! ### What is returned -/

theorem between_length (b : Buffer) (x y : ℕ) : (b.between x y).length = y - x := by
  simp [Buffer.between]

theorem bytesAt_length (b : Buffer) (p : Address) (n : ℕ) : (b.bytesAt p n).length = n := by
  simp [Buffer.bytesAt]

theorem bytesAt_eq_between (b : Buffer) (x n : ℕ) :
    b.bytesAt (.ofNat 64 x) n = b.between x (x + n) := by
  rw [Buffer.bytesAt, Buffer.between, Nat.add_sub_cancel_left, List.range'_eq_map_range,
    List.map_map]
  exact List.map_congr_left fun i _ => congrArg b.memory (BitVec.ofNat_add x i).symm

/-- A string is filled, exactly if the length does not wrap. -/
theorem stringFills_iff {p p' : Address} {n : ℕ} :
    StringFills b p (b.bytesAt (p + .ofNat 64 8) n) p' ↔ p.toNat + (8 + n) = p'.toNat := by
  have hstart : p + .ofNat 64 8 = .ofNat 64 (p.toNat + 8) := by
    rw [BitVec.ofNat_add, BitVec.ofNat_toNat, BitVec.setWidth_eq]
  rw [StringFills, hstart, bytesAt_eq_between]
  constructor
  · rintro ⟨hle, hbytes⟩
    have hlength := congrArg List.length hbytes
    rw [between_length, between_length] at hlength
    omega
  · intro h
    exact ⟨by omega, by rw [← h, add_assoc]⟩

theorem viewFills_iff (elementSize : ℕ) {p p' : Address} {n : ℕ} (hn : n < 2 ^ 64) :
    ViewFills elementSize p ⟨p + .ofNat 64 8, .ofNat 64 n⟩ p' ↔
      p.toNat + (8 + n * elementSize) = p'.toNat := by
  have hp' := p'.isLt
  rw [ViewFills, BitVec.toNat_add, BitVec.toNat_ofNat, BitVec.toNat_ofNat, Nat.add_mod_mod,
    Nat.mod_eq_of_lt hn]
  constructor
  · rintro ⟨hdata, hend⟩
    omega
  · intro h
    have hdata : (p.toNat + 8) % 2 ^ 64 = p.toNat + 8 := Nat.mod_eq_of_lt (by omega)
    exact ⟨hdata, by omega⟩

/-! ### The primitives -/

theorem read_inBounds_iff (T : Type) [Arithmetic T] (b : Buffer) (p : Address) :
    InBounds b p (read T b p) (fun _ p' => p.toNat + size T = p'.toNat) ↔
      p.toNat + size T < 2 ^ 64 ∨ Refused b p (size T) := by
  rw [read_eq]
  refine (inBounds_iff fun v p' h => ?_).trans (or_congr_right ?_)
  · obtain ⟨hcheck, h⟩ := Option.ite_none_left_eq_some.mp h
    obtain ⟨rfl, rfl⟩ := Prod.mk.inj (Option.some.inj h)
    exact ⟨rfl, le_of_not_refused hcheck, Iff.rfl⟩
  · simp

/-- `p` is below `end`, so that the next address is no more than `end`. -/
theorem readBool_inBounds (b : Buffer) (p : Address) :
    InBounds b p (readBool b p) (fun _ p' => p.toNat + 1 = p'.toNat) := by
  intro v p' h
  obtain ⟨hcheck, h⟩ := Option.ite_none_left_eq_some.mp h
  obtain ⟨rfl, rfl⟩ := Prod.mk.inj (Option.some.inj h)
  have hend := b.endPtr.isLt
  have hlt : p.toNat < b.endPtr.toNat := BitVec.lt_def.mp (BitVec.not_le.mp hcheck)
  have hnext : (p + 1).toNat = p.toNat + 1 := by
    rw [BitVec.toNat_add]
    exact Nat.mod_eq_of_lt (by simp; omega)
  exact ⟨BitVec.le_def.mpr (by omega), BitVec.le_def.mpr (by omega), hnext.symm⟩

/-- A read of a length and of so many elements. -/
theorem readSized_inBounds_iff {α : Type} (b : Buffer) (elementSize : ℕ) (grants : ℕ → Bool)
    (make : Address → BitVec 64 → α) (p : Address) {Holds : α → Address → Prop}
    (hholds : ∀ p', Holds (make (p + .ofNat 64 8) (.ofNat 64 (encodedLength b p))) p' ↔
      p.toNat + (8 + encodedLength b p * elementSize) = p'.toNat) :
    InBounds b p (readSized b elementSize grants make p) Holds ↔
      p.toNat + (8 + encodedLength b p * elementSize) < 2 ^ 64 ∨
        (Refused b p 8 ∨ Refused b p (8 + encodedLength b p * elementSize)) ∨
          grants (encodedLength b p) = false := by
  rw [readSized_eq]
  refine (inBounds_iff fun v p' h => ?_).trans (or_congr_right ?_)
  · obtain ⟨hcheck, h⟩ := Option.ite_none_left_eq_some.mp h
    obtain ⟨-, h⟩ := Option.ite_none_right_eq_some.mp h
    obtain ⟨rfl, rfl⟩ := Prod.mk.inj (Option.some.inj h)
    exact ⟨rfl, le_of_not_refused (not_or.mp hcheck).2, hholds _⟩
  · by_cases hcheck : Refused b p 8 ∨ Refused b p (8 + encodedLength b p * elementSize)
    · simp only [hcheck, if_true, true_or]
    · simp [hcheck]

theorem encodedLength_lt (b : Buffer) (p : Address) : encodedLength b p < 2 ^ 64 :=
  Nat.mod_lt _ (by decide)

theorem readVector_eq (T : Type) [Arithmetic T] (a : Allocator) (b : Buffer) (p : Address) :
    readVector T a b p = if Refused b p 8 ∨ a.grants (encodedLength b p * size T) = false then none
      else readTimes T b (encodedLength b p) (p + .ofNat 64 8) := by
  rw [readVector, readPrefix_eq]
  by_cases hbegins : Refused b p 8
  · simp only [hbegins, if_true, true_or, Option.bind_none]
  · simp only [hbegins, if_false, false_or, Option.bind_some, toNat_encodedLength]
    cases a.grants (encodedLength b p * size T) <;> rfl

/-- A vector throws with its prefix, with the allocation or with one of its elements. -/
theorem readVector_eq_none_iff (T : Type) [Arithmetic T] (a : Allocator) (b : Buffer)
    (p : Address) :
    readVector T a b p = none ↔
      (∃ j ≤ encodedLength b p, Refused b p (8 + j * size T)) ∨
        a.grants (encodedLength b p * size T) = false := by
  simp only [← Nat.lt_succ_iff]
  rw [readVector_eq, ite_eq_left_iff, readTimes_eq_none_iff, Nat.exists_lt_succ_left, zero_mul,
    add_zero, ← or_iff_not_imp_left, or_right_comm]
  simp only [refused_advance]

theorem readVector_eq_some {p p' : Address} {vs : List T}
    (h : readVector T a b p = some (vs, p')) :
    vs.length = encodedLength b p ∧ p' = p + .ofNat 64 (8 + encodedLength b p * size T) := by
  rw [readVector_eq] at h
  obtain ⟨hlength, rfl⟩ := readTimes_eq_some (Option.ite_none_left_eq_some.mp h).2
  exact ⟨hlength, by rw [BitVec.add_assoc, ← BitVec.ofNat_add]⟩

theorem readVector_inBounds_iff (T : Type) [Arithmetic T] (a : Allocator) (b : Buffer)
    (p : Address) :
    InBounds b p (readVector T a b p) (VectorFills p) ↔
      p.toNat + (8 + encodedLength b p * size T) < 2 ^ 64 ∨
        (∃ j ≤ encodedLength b p, Refused b p (8 + j * size T)) ∨
          a.grants (encodedLength b p * size T) = false := by
  refine (inBounds_iff fun vs p' h => ?_).trans
    (or_congr_right (readVector_eq_none_iff T a b p))
  obtain ⟨hlength, rfl⟩ := readVector_eq_some h
  refine ⟨rfl, le_of_not_refused fun hlast => ?_, by rw [VectorFills, hlength, add_assoc]⟩
  have hnone := (readVector_eq_none_iff T a b p).mpr
    (.inl ⟨encodedLength b p, le_rfl, hlast⟩)
  rw [hnone] at h
  cases h

theorem readString_inBounds_iff (a : Allocator) (b : Buffer) (p : Address) :
    InBounds b p (readString a b p) (StringFills b p) ↔
      p.toNat + (8 + encodedLength b p) < 2 ^ 64 ∨
        (Refused b p 8 ∨ Refused b p (8 + encodedLength b p)) ∨
          a.grants (encodedLength b p) = false := by
  have hfills : ∀ p', StringFills b p (b.bytesAt (p + .ofNat 64 8)
      (BitVec.ofNat 64 (encodedLength b p)).toNat) p' ↔
        p.toNat + (8 + encodedLength b p * 1) = p'.toNat := by
    intro p'
    rw [toNat_encodedLength, mul_one]
    exact stringFills_iff
  have hstring := readSized_inBounds_iff b 1 a.grants (fun p n => b.bytesAt p n.toNat) p hfills
  rw [mul_one] at hstring
  exact hstring

/-- A view is never refused for want of memory. -/
theorem readView_inBounds_iff (b : Buffer) (elementSize : ℕ) (p : Address) :
    InBounds b p (readSized b elementSize (fun _ => true) View.mk p) (ViewFills elementSize p) ↔
      p.toNat + (8 + encodedLength b p * elementSize) < 2 ^ 64 ∨
        Refused b p 8 ∨ Refused b p (8 + encodedLength b p * elementSize) :=
  (readSized_inBounds_iff b elementSize (fun _ => true) View.mk p fun _ =>
    viewFills_iff elementSize (encodedLength_lt b p)).trans
      (or_congr_right (or_iff_left (by decide)))

/-! ### Buffers in the lower half

No address of a user process lies in the upper half. -/

/-- `take` of the bytes that are left is what is read at `p`, and throws with the check. -/
theorem take_between {x y n : ℕ} (hle : x ≤ y) :
    Parser.take n (b.between x y) =
      if y < x + n then none else some (b.between x (x + n), b.between (x + n) y) := by
  rw [Parser.take, between_length]
  by_cases hshort : y < x + n
  · rw [if_pos hshort, if_neg (by omega)]
  · rw [if_neg hshort, if_pos (by omega), Buffer.between, ← List.map_take, ← List.map_drop,
      List.take_range'_of_length_ge (by omega), List.drop_range', mul_one]
    rw [Buffer.between, Buffer.between, Nat.add_sub_cancel_left, Nat.sub_sub]

theorem encodedLength_eq (b : Buffer) (p : Address) :
    encodedLength b p = LittleEndian.value (b.between p.toNat (p.toNat + 8)) := by
  have hstart : p = .ofNat 64 p.toNat := by rw [BitVec.ofNat_toNat, BitVec.setWidth_eq]
  have hlt := LittleEndian.value_lt (b.bytesAt p 8)
  rw [bytesAt_length] at hlt
  rw [encodedLength, Nat.mod_eq_of_lt (hlt.trans_eq (by decide)), ← bytesAt_eq_between, ← hstart]

/-- The string at the front of the bytes that are left. -/
theorem readString_between {x y n : ℕ} (hle : x ≤ y)
    (hn : LittleEndian.value (b.between x (x + 8)) = n) :
    (Reader.readString (b.between x y)).map (fun r => (r.1.val, r.2)) =
      if y < x + 8 ∨ y < x + 8 + n ∨ 2 ^ 63 ≤ n then none
      else some (b.between (x + 8) (x + 8 + n), b.between (x + 8 + n) y) := by
  rw [Reader.readString, Reader.readSize, bind_assoc, Parser.bind_apply, take_between hle]
  by_cases hshort : y < x + 8
  · simp only [hshort, true_or, if_true, Option.bind_none, Option.map_none]
  · rw [if_neg hshort, Option.bind_some, pure_bind, hn, Parser.bind_apply,
      take_between (not_lt.mp hshort)]
    by_cases hlong : y < x + 8 + n
    · simp only [hlong, true_or, or_true, if_true, Option.bind_none, Option.map_none]
    · have hlength : (b.between (x + 8) (x + 8 + n)).length = n := by
        rw [between_length, Nat.add_sub_cancel_left]
      rw [if_neg hlong, Option.bind_some, Reader.ofList]
      by_cases hsize : n < 2 ^ 63
      · rw [dif_pos (hlength.trans_lt hsize), if_neg (by omega)]
        rfl
      · rw [dif_neg (by rwa [hlength]), if_pos (by omega)]
        rfl

/-- **`read_string()`** takes the string off the bytes that are left. -/
theorem readString_agrees (a : Allocator) (ha : ∀ n < 2 ^ 63, a.grants n = true) (c : Cursor b)
    (hlow : b.endPtr.toNat < 2 ^ 63) :
    (readString a b c.p).map (fun r => (r.1, b.between r.2.toNat b.endPtr.toNat)) =
      (Reader.readString (b.between c.p.toNat b.endPtr.toNat)).map fun r => (r.1.val, r.2) := by
  have hend := BitVec.le_def.mp c.le_end
  have hbegins : Refused b c.p 8 ↔ b.endPtr.toNat < c.p.toNat + 8 := by
    rw [Refused, Nat.mod_eq_of_lt (by omega)]
  rw [readString_between hend (encodedLength_eq b c.p).symm, readString, readSized_eq, mul_one]
  by_cases hshort : b.endPtr.toNat < c.p.toNat + 8
  · rw [if_pos (.inl (hbegins.mpr hshort)), if_pos (.inl hshort), Option.map_none]
  · by_cases hsmall : encodedLength b c.p < 2 ^ 63
    · -- there is memory for the string, and its end does not wrap
      have hsum : c.p.toNat + (8 + encodedLength b c.p) < 2 ^ 64 := by omega
      have hcheck : Refused b c.p (8 + encodedLength b c.p) ↔
          b.endPtr.toNat < c.p.toNat + 8 + encodedLength b c.p := by
        rw [Refused, Nat.mod_eq_of_lt hsum, add_assoc]
      have hnext : (c.p + .ofNat 64 (8 + encodedLength b c.p)).toNat =
          c.p.toNat + 8 + encodedLength b c.p := by
        rw [BitVec.toNat_add, BitVec.toNat_ofNat, Nat.add_mod_mod, Nat.mod_eq_of_lt hsum, add_assoc]
      have hbytes : b.bytesAt (c.p + .ofNat 64 8) (encodedLength b c.p) =
          b.between (c.p.toNat + 8) (c.p.toNat + 8 + encodedLength b c.p) := by
        rw [← bytesAt_eq_between, BitVec.ofNat_add, BitVec.ofNat_toNat, BitVec.setWidth_eq]
      simp only [hbegins, hcheck, not_le.mpr hsmall, or_false, ha _ hsmall, if_true,
        toNat_encodedLength, hbytes]
      split_ifs
      · rfl
      · rw [Option.map_some, hnext]
    · -- there is none for a string of this length
      have hgrants : ¬ a.grants (encodedLength b c.p) = true := mt a.lt_of_grants hsmall
      rw [if_neg hgrants, ite_self, Option.map_none, if_pos (.inr (.inr (not_lt.mp hsmall)))]

/-- Sixteen bytes, which start with a length of sixteen less than `2 ^ 64`. -/
def hugeLength : Buffer where
  memory p := if p = 0x1000 then 0xF0 else 0xFF
  beginPtr := 0x1000
  endPtr := 0x1010

def atStart : Cursor hugeLength := ⟨0x1000, by decide, by decide⟩

/-- There is no string of a huge length. -/
example : readString .plenty hugeLength atStart.p = none := by
  have hagrees := readString_agrees .plenty (fun _ => decide_eq_true) atStart (by decide)
  have hnone : (Reader.readString (hugeLength.between atStart.p.toNat hugeLength.endPtr.toNat)).map
      (fun r => (r.1.val, r.2)) = none := by
    decide +kernel
  exact Option.map_eq_none_iff.mp (hagrees.trans hnone)

/-! ### All primitives -/

/-- **When the primitives stay in bounds**: if the address behind what the wire announces
does not wrap, or if it does and one of the checks throws nevertheless. -/
theorem reader_inBounds_iff (T : Type) [Arithmetic T] (a : Allocator) (b : Buffer)
    (c : Cursor b) :
    (InBounds b c.p (read T b c.p) (fun _ p' => c.p.toNat + size T = p'.toNat) ↔
      c.p.toNat + size T < 2 ^ 64) ∧
    InBounds b c.p (readBool b c.p) (fun _ p' => c.p.toNat + 1 = p'.toNat) ∧
    (InBounds b c.p (readString a b c.p) (StringFills b c.p) ↔
      c.p.toNat + (8 + encodedLength b c.p) < 2 ^ 64 ∨
        (Refused b c.p 8 ∨ Refused b c.p (8 + encodedLength b c.p)) ∨
          a.grants (encodedLength b c.p) = false) ∧
    (InBounds b c.p (readStringView b c.p) (ViewFills 1 c.p) ↔
      c.p.toNat + (8 + encodedLength b c.p) < 2 ^ 64 ∨
        Refused b c.p 8 ∨ Refused b c.p (8 + encodedLength b c.p)) ∧
    (InBounds b c.p (readSpan T b c.p) (ViewFills (size T) c.p) ↔
      c.p.toNat + (8 + encodedLength b c.p * size T) < 2 ^ 64 ∨
        Refused b c.p 8 ∨ Refused b c.p (8 + encodedLength b c.p * size T)) ∧
    (InBounds b c.p (readVector T a b c.p) (VectorFills c.p) ↔
      c.p.toNat + (8 + encodedLength b c.p * size T) < 2 ^ 64 ∨
        (∃ j ≤ encodedLength b c.p, Refused b c.p (8 + j * size T)) ∨
          a.grants (encodedLength b c.p * size T) = false) := by
  have hsmall := Arithmetic.size_le (T := T)
  have hend := BitVec.le_def.mp c.le_end
  refine ⟨?_, readBool_inBounds b c.p, ?_, ?_, ?_, readVector_inBounds_iff T a b c.p⟩
  · refine (read_inBounds_iff T b c.p).trans (or_iff_left_of_imp fun hrefused => ?_)
    -- a sum that wraps by so little is below `p`
    rw [Refused] at hrefused
    by_contra hwrap
    have hlt := c.p.isLt
    omega
  · exact readString_inBounds_iff a b c.p
  · have hview := readView_inBounds_iff b 1 c.p
    rw [mul_one] at hview
    exact hview
  · exact readView_inBounds_iff b (size T) c.p

/-- **The view of a huge length** is returned, with `p` in front of the buffer. -/
theorem readStringView_hugeLength :
    readStringView hugeLength atStart.p = some (⟨0x1008, 0xFFFFFFFFFFFFFFF0⟩, 0x0FF8) ∧
      ¬ InBounds hugeLength atStart.p (readStringView hugeLength atStart.p)
        (ViewFills 1 atStart.p) := by
  have hread : readStringView hugeLength atStart.p =
      some (⟨0x1008, 0xFFFFFFFFFFFFFFF0⟩, 0x0FF8) := by
    decide +kernel
  refine ⟨hread, fun h => ?_⟩
  obtain ⟨hle, -⟩ := h _ _ hread
  exact absurd hle (by decide)

end Glz.Raw
