/-
The hash in the key of a catalog (`lib/src/appstream/catalog_cache.dart`).

`fnv1a64` goes through the bytes of a path, and each of its steps can be undone: the
bytes are xored in, and the prime is odd.

`fnv1a64_apart` — paths of one length that differ in one byte have different hashes,
and different keys.
-/
import FlatpakDart.CacheKey
import FlatpakDart.OneDifference

namespace CacheKey

/-- The body of the loop of `fnv1a64`. -/
def mix (hash : Int64) (byte : UInt8) : Int64 := (hash ^^^ byte.toUInt64.toInt64) * 0x100000001b3

/-- `fnv1a64`, of bytes. -/
def fnvBytes (bytes : List UInt8) : Int64 :=
  bytes.foldl mix (0xcbf29ce484222325 : UInt64).toInt64

/-- What `_installKey` writes of a hash. -/
def fragment (hash : Int64) : DartString := padLeft (toRadixString16 hash.toInt) 16 (hexDigit 0)

theorem fnv1a64_eq (value : DartString) :
    fnv1a64 value = fnvBytes (DartString.utf8Encode value) := rfl

theorem hashPart_eq (name : DartString) : hashPart name = fragment (fnv1a64 name) := rfl

/-! ### One step -/

/-- What undoes a multiplication by the prime. -/
def primeInverse : Int64 := (0xce965057aff6957b : UInt64).toInt64

theorem mul_prime_injective : Function.Injective fun h : Int64 => h * 0x100000001b3 := by
  have hinverse : (0x100000001b3 : Int64) * primeInverse = 1 := by decide
  have hback : Function.LeftInverse (fun h : Int64 => h * primeInverse)
      fun h => h * 0x100000001b3 := by
    intro h
    show h * 0x100000001b3 * primeInverse = h
    rw [Int64.mul_assoc, hinverse, Int64.mul_one]
  exact hback.injective

theorem mix_injective_hash (byte : UInt8) : Function.Injective fun hash => mix hash byte :=
  fun _ _ h => (Int64.xor_left_inj _).mp (mul_prime_injective h)

theorem mix_injective_byte (hash : Int64) : Function.Injective (mix hash) := by
  intro a b h
  have hbyte := (Int64.xor_right_inj hash).mp (mul_prime_injective h)
  have hword := congrArg Int64.toUInt64 hbyte
  rw [UInt64.toUInt64_toInt64, UInt64.toUInt64_toInt64] at hword
  exact UInt8.toUInt64_inj.mp hword

/-! ### Paths -/

theorem fragment_injective : Function.Injective fragment :=
  fun _ _ h => Int64.toInt_inj.mp (padLeft_inj h)

theorem fnvBytes_ne {xs ys : List UInt8} (h : DifferOnce xs ys) : fnvBytes xs ≠ fnvBytes ys :=
  foldl_ne mix_injective_hash mix_injective_byte h _

/-- Different hashes make different keys. -/
theorem installKey_ne {a b : DartString} (h : fnv1a64 a ≠ fnv1a64 b) :
    installKey a ≠ installKey b := by
  intro heq
  have hcut : installKey a ++ underscore :: [] = installKey b ++ underscore :: [] := by rw [heq]
  obtain ⟨rfl, -⟩ := (installKey_inj fun hfnv => absurd hfnv h).mp hcut
  exact h rfl

/-- **No collision on near-identical paths**: byte strings of one length that differ in
exactly one position have different hashes and different key fragments, and so do the
names that are encoded so. -/
theorem fnv1a64_apart :
    (∀ xs ys : List UInt8, DifferOnce xs ys →
      fnvBytes xs ≠ fnvBytes ys ∧ fragment (fnvBytes xs) ≠ fragment (fnvBytes ys)) ∧
    ∀ a b : DartString, DifferOnce (DartString.utf8Encode a) (DartString.utf8Encode b) →
      fnv1a64 a ≠ fnv1a64 b ∧ hashPart a ≠ hashPart b ∧ installKey a ≠ installKey b := by
  constructor
  · intro xs ys h
    exact ⟨fnvBytes_ne h, fragment_injective.ne (fnvBytes_ne h)⟩
  · intro a b h
    have hne : fnv1a64 a ≠ fnv1a64 b := by
      rw [fnv1a64_eq, fnv1a64_eq]
      exact fnvBytes_ne h
    have hpart : hashPart a ≠ hashPart b := by
      rw [hashPart_eq, hashPart_eq]
      exact fragment_injective.ne hne
    exact ⟨hne, hpart, installKey_ne hne⟩

theorem fnv1a64_apart_opt :
    fragment (fnvBytes [0x61, 0x62]) ≠ fragment (fnvBytes [0x61, 0x63]) ∧
      installKey (.lit "/opt/a") ≠ installKey (.lit "/opt/b") := by
  have hbytes : DifferOnce [0x61, 0x62] ([0x61, 0x63] : List UInt8) :=
    .of_split [0x61] (by decide) []
  have hnames : DifferOnce (DartString.utf8Encode (.lit "/opt/a"))
      (DartString.utf8Encode (.lit "/opt/b")) :=
    .of_split (DartString.utf8Encode (.lit "/opt/")) (show (0x61 : UInt8) ≠ 0x62 by decide) []
  exact ⟨(fnv1a64_apart.1 _ _ hbytes).2, (fnv1a64_apart.2 _ _ hnames).2.2⟩

end CacheKey
