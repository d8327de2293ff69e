/-
BEVE-Lite, the wire format of `native/include/glaze_meta.h`.

`glz::meta<T>::fields` lists a struct's fields in wire order; `Writer` and
`Reader` walk that list.  Here the list is a value of `Fields`, whose members
are the shapes `Reader::read_value` has a branch for, and `Fields.den` is the
tuple of C++ values it describes.

* `Fields.reads` — the reader takes exactly what the writer appended, and
  throws on everything shorter;
* `glaze_roundtrip` — the contract of `write_binary` and `read_binary` for
  every registered type.

A `Reader` is the span between its two pointers.  Lengths are compared as
numbers, so `p + n` is not reduced modulo the address space here.
-/
import FlatpakDart.LittleEndian
import FlatpakDart.Parser

namespace Glz

/-! ### C++ values -/

/-- A `std::vector`: its size never exceeds `max_size()`, which is at most
`PTRDIFF_MAX`. -/
def CppVector (α : Type) : Type := { l : List α // l.length < 2 ^ 63 }

/-- A `std::string`: any bytes, NUL included. -/
abbrev CppString : Type := CppVector UInt8

/-- The arithmetic types other than `bool`. -/
inductive Scalar
  | u8
  | u16
  | u32
  | u64
  | i8
  | i16
  | i32
  | i64

/-- `sizeof`. -/
def Scalar.size : Scalar → ℕ
  | .u8 | .i8 => 1
  | .u16 | .i16 => 2
  | .u32 | .i32 => 4
  | .u64 | .i64 => 8

mutual

/-- The types `read_value<T>` is defined for. -/
inductive Elem
  | string
  | scalar (s : Scalar)
  | struct (fs : Fields)

/-- The types a registered field may have: those of `read_value`, and the
three the struct reader handles itself. -/
inductive Field
  | elem (e : Elem)
  | bool
  | vector (e : Elem)
  | optional (e : Elem)

/-- `glz::meta<T>::fields`. -/
inductive Fields
  | nil
  | cons (name : String) (f : Field) (fs : Fields)

end

mutual

/-- The C++ type an element description stands for. -/
def Elem.den : Elem → Type
  | .string => CppString
  | .scalar s => BitVec (8 * s.size)
  | .struct fs => fs.den

def Field.den : Field → Type
  | .elem e => e.den
  | .bool => Bool
  | .vector e => CppVector e.den
  | .optional e => Option e.den

/-- The members of a struct, as a tuple. -/
def Fields.den : Fields → Type
  | .nil => Unit
  | .cons _ f fs => f.den × fs.den

end

/-! ### Writer -/

namespace Writer

/-- `write(T v)` for arithmetic `T`: the object's bytes, little-endian. -/
def writeScalar (s : Scalar) (v : BitVec (8 * s.size)) : List UInt8 :=
  LittleEndian.bytes s.size v.toNat

/-- `write<uint64_t>(n)` for a size. -/
def writeSize (n : ℕ) : List UInt8 := LittleEndian.bytes 8 n

def writeBool (v : Bool) : List UInt8 := [if v then 1 else 0]

def writeString (s : CppString) : List UInt8 := writeSize s.val.length ++ s.val

/-- `write(const std::vector<T>&)`, given `write(const T&)`. -/
def writeVector {α : Type} (write : α → List UInt8) (v : CppVector α) : List UInt8 :=
  writeSize v.val.length ++ v.val.flatMap write

/-- `write(const std::optional<T>&)`, given `write(const T&)`. -/
def writeOptional {α : Type} (write : α → List UInt8) : Option α → List UInt8
  | none => [0]
  | some v => 1 :: write v

end Writer

mutual

def Elem.write : (e : Elem) → e.den → List UInt8
  | .string, v => Writer.writeString v
  | .scalar s, v => Writer.writeScalar s v
  | .struct fs, v => fs.write v

def Field.write : (f : Field) → f.den → List UInt8
  | .elem e, v => e.write v
  | .bool, v => Writer.writeBool v
  | .vector e, v => Writer.writeVector e.write v
  | .optional e, v => Writer.writeOptional e.write v

/-- `write(const T&)` for a registered struct: its fields in turn. -/
def Fields.write : (fs : Fields) → fs.den → List UInt8
  | .nil, _ => []
  | .cons _ f fs, v => f.write v.1 ++ fs.write v.2

end

/-! ### Reader -/

/-- What is left between `p` and `end`; `none` is a thrown exception. -/
abbrev Reader (α : Type) : Type := Parser UInt8 α

namespace Reader

/-- `read<T>()`. -/
def readScalar (s : Scalar) : Reader (BitVec (8 * s.size)) := do
  let bs ← Parser.take s.size
  pure (BitVec.ofNat _ (LittleEndian.value bs))

/-- `read<uint64_t>()`, used as a size. -/
def readSize : Reader ℕ := do
  let bs ← Parser.take 8
  pure (LittleEndian.value bs)

def readBool : Reader Bool := do
  let bs ← Parser.take 1
  pure (LittleEndian.value bs != 0)

/-- A vector built from what was read; past `max_size()` the constructor and
`reserve` throw `std::length_error`. -/
def ofList {α : Type} (l : List α) : Reader (CppVector α) :=
  if h : l.length < 2 ^ 63 then pure ⟨l, h⟩ else Parser.fail

def readString : Reader CppString := do
  let n ← readSize
  let bs ← Parser.take n
  ofList bs

/-- `read_vector<T>()`, given `read_value<T>()`. -/
def readVector {α : Type} (read : Reader α) : Reader (CppVector α) := do
  let n ← readSize
  -- `reserve` throws before an element is read
  if n < 2 ^ 63 then
    let vs ← Parser.times n read
    ofList vs
  else Parser.fail

/-- `read_optional<T>()`, given `read_value<T>()`. -/
def readOptional {α : Type} (read : Reader α) : Reader (Option α) := do
  let present ← readBool
  if present then
    let v ← read
    pure (some v)
  else pure none

end Reader

mutual

/-- `read_value<T>()`. -/
def Elem.read : (e : Elem) → Reader e.den
  | .string => Reader.readString
  | .scalar s => Reader.readScalar s
  | .struct fs => fs.read

/-- The `if constexpr` chain of the struct reader. -/
def Field.read : (f : Field) → Reader f.den
  | .elem e => e.read
  | .bool => Reader.readBool
  | .vector e => Reader.readVector e.read
  | .optional e => Reader.readOptional e.read

def Fields.read : (fs : Fields) → Reader fs.den
  | .nil => pure ()
  | .cons _ f fs => do
    let v ← f.read
    let vs ← fs.read
    pure (v, vs)

end

/-! ### The reader takes what the writer appends -/

open Parser (Reads)

namespace Reader

theorem readScalar_reads (s : Scalar) (v : BitVec (8 * s.size)) :
    Reads (readScalar s) (Writer.writeScalar s v) v := by
  have hbytes := Reads.take (Writer.writeScalar s v)
  rw [show (Writer.writeScalar s v).length = s.size from LittleEndian.bytes_length _ _] at hbytes
  -- the bytes of a value of this width are less than 256 to its size
  have hvalue : BitVec.ofNat (8 * s.size) (LittleEndian.value (Writer.writeScalar s v)) = v := by
    have hlt : v.toNat < 256 ^ s.size := by
      rw [show 256 = 2 ^ 8 from rfl, ← pow_mul]
      exact v.isLt
    rw [Writer.writeScalar, LittleEndian.value_bytes_of_lt hlt, BitVec.ofNat_toNat,
      BitVec.setWidth_eq]
  have hread := hbytes.bind_pure fun bs => BitVec.ofNat (8 * s.size) (LittleEndian.value bs)
  rwa [hvalue] at hread

theorem readSize_reads {n : ℕ} (h : n < 2 ^ 64) : Reads readSize (Writer.writeSize n) n := by
  have hbytes := Reads.take (Writer.writeSize n)
  rw [show (Writer.writeSize n).length = 8 from LittleEndian.bytes_length _ _] at hbytes
  have hread := hbytes.bind_pure LittleEndian.value
  rwa [Writer.writeSize, LittleEndian.value_bytes_of_lt (h.trans_eq (by decide))] at hread

theorem readBool_reads (v : Bool) : Reads readBool (Writer.writeBool v) v := by
  have hread := (Reads.take (Writer.writeBool v)).bind_pure fun bs => LittleEndian.value bs != 0
  cases v <;> exact hread

theorem ofList_reads {α : Type} (v : CppVector α) : Reads (ofList v.val) [] v := by
  rw [ofList, dif_pos v.2]
  exact Reads.pure v

theorem size_lt {α : Type} (v : CppVector α) : v.val.length < 2 ^ 64 :=
  v.2.trans (by decide)

theorem readString_reads (s : CppString) : Reads readString (Writer.writeString s) s :=
  (readSize_reads (size_lt s)).bind ((Reads.take s.val).bind_nil (ofList_reads s))

theorem readVector_reads {α : Type} {read : Reader α} {write : α → List UInt8}
    (h : ∀ a, Reads read (write a) a) (v : CppVector α) :
    Reads (readVector read) (Writer.writeVector write v) v := by
  refine (readSize_reads (size_lt v)).bind ?_
  rw [if_pos v.2]
  exact (Reads.times fun a _ => h a).bind_nil (ofList_reads v)

theorem readOptional_reads {α : Type} {read : Reader α} {write : α → List UInt8}
    (h : ∀ a, Reads read (write a) a) (v : Option α) :
    Reads (readOptional read) (Writer.writeOptional write v) v := by
  cases v with
  | none => exact (readBool_reads false).bind_nil (Reads.pure none)
  | some a => exact (readBool_reads true).bind ((h a).bind_pure some)

end Reader

mutual

theorem Elem.reads : ∀ (e : Elem) (v : e.den), Reads e.read (e.write v) v
  | .string, v => Reader.readString_reads v
  | .scalar s, v => Reader.readScalar_reads s v
  | .struct fs, v => Fields.reads fs v

theorem Field.reads : ∀ (f : Field) (v : f.den), Reads f.read (f.write v) v
  | .elem e, v => Elem.reads e v
  | .bool, v => Reader.readBool_reads v
  | .vector e, v => Reader.readVector_reads (Elem.reads e) v
  | .optional e, v => Reader.readOptional_reads (Elem.reads e) v

/-- **The fields of a struct**: its reader takes exactly what its writer
appends, by recursion on the field list and the types in it. -/
theorem Fields.reads : ∀ (fs : Fields) (v : fs.den), Reads fs.read (fs.write v) v
  | .nil, _ => Reads.pure ()
  | .cons _ f fs, v =>
    (Field.reads f v.1).bind ((Fields.reads fs v.2).bind_pure fun vs => (v.1, vs))

end

/-! ### Registered types -/

/-- A type with a `glz::meta<T>` specialisation: its field list, and what the
member pointers reach in an object. -/
class Reflectable (T : Type) where
  fields : Fields
  get : T → fields.den
  set : fields.den → T
  set_get : ∀ v, set (get v) = v

variable {T : Type} [Reflectable T]

/-- `Writer::write(const T&)`, into an empty buffer. -/
def writeBinary (v : T) : List UInt8 := (Reflectable.fields T).write (Reflectable.get v)

/-- `Reader::read_value<T>()`. -/
def readValue (T : Type) [Reflectable T] : Reader T := do
  let vs ← (Reflectable.fields T).read
  pure (Reflectable.set vs)

/-- `read_binary(bytes, out)`: the answer, and what `out` holds afterwards. -/
def readBinary (bytes : List UInt8) (out : T) : Bool × T :=
  match readValue T bytes with
  | some (v, _) => (true, v)
  | none => (false, out)

theorem readValue_reads (v : T) : Reads (readValue T) (writeBinary v) v := by
  have h := (Fields.reads (Reflectable.fields T) (Reflectable.get v)).bind_pure Reflectable.set
  rwa [Reflectable.set_get] at h

/-- Every struct description is registered for the tuple it describes. -/
instance (fs : Fields) : Reflectable fs.den where
  fields := fs
  get := id
  set := id
  set_get := fun _ => rfl

/-- **The contract of the codec**, for every registered type: values written
one after another, and followed by anything, are read back one by one and
leave what follows; different values have different encodings; and a cut
encoding is refused with `out` as it was. -/
theorem glaze_roundtrip (T : Type) [Reflectable T] :
    (∀ (v : T) (t : List UInt8), readValue T (writeBinary v ++ t) = some (v, t)) ∧
    (∀ (vs : List T) (t : List UInt8),
      Parser.times vs.length (readValue T) (vs.flatMap writeBinary ++ t) = some (vs, t)) ∧
    Function.Injective (writeBinary (T := T)) ∧
    (∀ (v out : T) (b : List UInt8), b <+: writeBinary v → b ≠ writeBinary v →
      readBinary b out = (false, out)) := by
  refine ⟨fun v => (readValue_reads v).exact,
    fun vs => (Reads.times fun v _ => readValue_reads v).exact, ?_, ?_⟩
  · intro v v' heq
    exact ((readValue_reads v).cancel (readValue_reads v') (congrArg (· ++ []) heq)).1
  · intro v out b hb hne
    rw [readBinary, (readValue_reads v).cut b hb hne]

end Glz
