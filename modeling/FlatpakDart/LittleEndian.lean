/-
Little-endian bytes of a number.

`bytes k n` is the `k`-byte little-endian representation of `n`, reduced modulo
`256 ^ k` as a store of a machine integer does; `value` reads bytes back.
`value_bytes` and `bytes_length` are what a codec needs of them.
-/
import Mathlib.Data.Nat.Bitwise

namespace LittleEndian

/-- The low `k` bytes of `n`, least significant first. -/
def bytes : ℕ → ℕ → List UInt8
  | 0, _ => []
  | k + 1, n => UInt8.ofNat n :: bytes k (n / 256)

/-- The number a list of bytes stands for. -/
def value : List UInt8 → ℕ
  | [] => 0
  | b :: bs => b.toNat + 256 * value bs

@[simp] theorem bytes_length (k n : ℕ) : (bytes k n).length = k := by
  induction k generalizing n with
  | zero => rfl
  | succ k ih => rw [bytes, List.length_cons, ih]

theorem value_bytes (k n : ℕ) : value (bytes k n) = n % 256 ^ k := by
  induction k generalizing n with
  | zero => simp [bytes, value, Nat.mod_one]
  | succ k ih =>
    have hlow : (UInt8.ofNat n).toNat = n % 256 := UInt8.toNat_ofNat'
    rw [bytes, value, ih, hlow, pow_succ' 256 k, Nat.mod_mul (x := n) (a := 256)]

theorem value_bytes_of_lt {k n : ℕ} (h : n < 256 ^ k) : value (bytes k n) = n := by
  rw [value_bytes, Nat.mod_eq_of_lt h]

theorem value_lt (bs : List UInt8) : value bs < 256 ^ bs.length := by
  induction bs with
  | nil => simp [value]
  | cons b bs ih =>
    have hbyte := b.toNat_lt
    rw [value, List.length_cons, pow_succ']
    omega

end LittleEndian
