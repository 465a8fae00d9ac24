import Mathlib.Data.Nat.Bitwise
import Mathlib.Tactic.NormNum

/-!
# C integer conversions on an LP64 target

Values of C integer types are integers; converting one to a type of `w` bits reduces it
modulo `2 ^ w`, into the signed or the unsigned range. On LP64, `int` and `unsigned int`
have 32 bits, `long`, `size_t` and `ssize_t` have 64. A conversion is the identity on the
range of its target, which is all that most callers need.

`Double` is the value of a finite C `double`, a dyadic rational; the two conversions
between it and `long` are the truncating one of the language and the round-to-nearest one
(ties to even, 53 bits of precision).
-/

namespace C

/-- Conversion to `int`. -/
def toInt (x : ℤ) : ℤ := x.bmod (2 ^ 32)

/-- Conversion to `unsigned int`. -/
def toUInt (x : ℤ) : ℤ := x % 2 ^ 32

/-- Conversion to `long` (and to `ssize_t`). -/
def toLong (x : ℤ) : ℤ := x.bmod (2 ^ 64)

/-- Conversion to `size_t` (and to `unsigned long`). -/
def toSize (x : ℤ) : ℤ := x % 2 ^ 64

/-- A value of the type `int` is converted to itself. -/
theorem toInt_eq_self {x : ℤ} (h₀ : -2 ^ 31 ≤ x) (h₁ : x < 2 ^ 31) : toInt x = x := by
  unfold toInt
  rw [Int.bmod_eq_of_le (by norm_num; omega) (by norm_num; omega)]

/-- On the upper half of the unsigned range the conversion to `int` subtracts `2 ^ 32`. -/
theorem toInt_eq_sub {x : ℤ} (h₀ : 2 ^ 31 ≤ x) (h₁ : x < 2 ^ 32) : toInt x = x - 2 ^ 32 := by
  unfold toInt
  rw [Int.bmod_def]
  norm_num at h₀ h₁ ⊢
  omega

/-- A conversion never makes a non-negative value larger. -/
theorem toInt_le_self {x : ℤ} (h : 0 ≤ x) : toInt x ≤ x := by
  unfold toInt
  rw [Int.bmod_def]
  norm_num
  omega

/-- A value of the type `unsigned int` is converted to itself. -/
theorem toUInt_eq_self {x : ℤ} (h₀ : 0 ≤ x) (h₁ : x < 2 ^ 32) : toUInt x = x :=
  Int.emod_eq_of_lt h₀ h₁

@[simp] theorem toInt_toInt (x : ℤ) : toInt (toInt x) = toInt x := Int.bmod_bmod

@[simp] theorem toUInt_toInt (x : ℤ) : toUInt (toInt x) = toUInt x := by
  unfold toUInt toInt
  exact Int.bmod_emod

/-- A value of the type `long` is converted to itself. -/
theorem toLong_eq_self {x : ℤ} (h₀ : -2 ^ 63 ≤ x) (h₁ : x < 2 ^ 63) : toLong x = x := by
  unfold toLong
  rw [Int.bmod_eq_of_le (by norm_num; omega) (by norm_num; omega)]

/-- The upper half of the `size_t` range is negative as a `ssize_t`. -/
theorem toLong_neg {x : ℤ} (h₀ : 2 ^ 63 ≤ x) (h₁ : x < 2 ^ 64) : toLong x < 0 := by
  unfold toLong
  rw [Int.bmod_def]
  norm_num at h₀ h₁ ⊢
  omega

/-- A value of the type `size_t` is converted to itself. -/
theorem toSize_eq_self {x : ℤ} (h₀ : 0 ≤ x) (h₁ : x < 2 ^ 64) : toSize x = x :=
  Int.emod_eq_of_lt h₀ h₁

/-- A finite `double`: `num / 2 ^ scale`. -/
structure Double where
  num : ℤ
  scale : ℕ
  deriving DecidableEq, Repr

namespace Double

/-- The `double` of an integer literal or of an exactly representable integer. -/
def ofInt (n : ℤ) : Double := ⟨n, 0⟩

/-- Conversion of a `double` to `long` (and to `ssize_t`): truncation toward zero; a value
out of range gives the indefinite integer of the target. -/
def toLong (d : Double) : ℤ :=
  let t := d.num.tdiv (2 ^ d.scale)
  if -2 ^ 63 ≤ t ∧ t < 2 ^ 63 then t else -2 ^ 63

/-- A double that is converted is a `long`, as large as it may be. -/
theorem toLong_lt (d : Double) : d.toLong < 2 ^ 63 := by
  unfold toLong
  dsimp only
  split
  · rename_i h
    exact h.2
  · norm_num

/-- A `long` survives as a double of that value. -/
@[simp] theorem toLong_ofInt {n : ℤ} (h₀ : -2 ^ 63 ≤ n) (h₁ : n < 2 ^ 63) :
    (ofInt n).toLong = n := by
  simp only [toLong, ofInt, pow_zero, Int.tdiv_one]
  exact if_pos ⟨h₀, h₁⟩

end Double

/-- The natural number rounded to 53 significant bits, to nearest with ties to even. -/
def roundNat (n : ℕ) : ℕ :=
  let e := n.log2 - 52
  let q := n / 2 ^ e
  let r := n % 2 ^ e
  if 2 * r < 2 ^ e ∨ 2 * r = 2 ^ e ∧ q % 2 = 0 then q * 2 ^ e else (q + 1) * 2 ^ e

/-- Conversion of a `long` to `double`. -/
def longToDouble (n : ℤ) : Double := .ofInt (n.sign * roundNat n.natAbs)

end C
