import HiveSDK.C.Integers
import Mathlib.Data.Fin.Basic

/-!
# Error codes

`hiveMkError` is the macro `HIVE_MK_ERROR` of `ela_hive.h`. Its value is an
`unsigned int`, or a `long` when the code argument is a `long`; in both cases it is the
same number between `2 ^ 31` and `2 ^ 32`, so the type of the argument does not matter to
what a `return` statement makes of it. What matters is the return type of the function:
an `int` function returns a negative number (`toInt_hiveMkError_neg`), a `ssize_t`
function returns the number itself.

`Exit` records which of the two kinds of `return` statement a function takes, and
`Exit.int`, `Exit.ssize` are the value the caller sees.
-/

namespace HiveSDK

open C

/-! ### Facilities and codes -/

def HIVEF_GENERAL : ℕ := 0x01
def HIVEF_SYS : ℕ := 0x02
def HIVEF_CURL : ℕ := 0x05
def HIVEF_CURLU : ℕ := 0x06
def HIVEF_HTTP_STATUS : ℕ := 0x07

def HIVEERR_INVALID_ARGS : ℤ := 0x01
def HIVEERR_OUT_OF_MEMORY : ℤ := 0x02
def HIVEERR_BUFFER_TOO_SMALL : ℤ := 0x03
def HIVEERR_BAD_PERSISTENT_DATA : ℤ := 0x04
def HIVEERR_INVALID_PERSISTENCE_FILE : ℤ := 0x05
def HIVEERR_INVALID_CREDENTIAL : ℤ := 0x06
def HIVEERR_NOT_SUPPORTED : ℤ := 0x10
def HIVEERR_LIMIT_EXCEEDED : ℤ := 0x11
def HIVEERR_BAD_BOOTSTRAP_HOST : ℤ := 0x13
def HIVEERR_BAD_ADDRESS : ℤ := 0x15
def HIVEERR_BAD_JSON_FORMAT : ℤ := 0x16
def HIVEERR_TRY_AGAIN : ℤ := 0x17

/-- `HIVE_MK_ERROR(facility, code)`. -/
def hiveMkError (facility : ℕ) (code : ℤ) : ℤ :=
  let c := (code % 2 ^ 32).toNat
  ((0x80000000 ||| facility <<< 24) |||
    (((c &&& 0x80000000) >>> 8) ||| (c &&& 0x7FFFFFFF)) : ℕ)

def hiveGeneralError (code : ℤ) : ℤ := hiveMkError HIVEF_GENERAL code
def hiveSysError (code : ℤ) : ℤ := hiveMkError HIVEF_SYS code
def hiveCurlError (code : ℤ) : ℤ := hiveMkError HIVEF_CURL code
def hiveCurluError (code : ℤ) : ℤ := hiveMkError HIVEF_CURLU code
def hiveHttpStatusError (code : ℤ) : ℤ := hiveMkError HIVEF_HTTP_STATUS code

/-- An error number has its highest bit set. -/
theorem le_hiveMkError (facility : ℕ) (code : ℤ) : 2 ^ 31 ≤ hiveMkError facility code := by
  unfold hiveMkError
  generalize (code % 2 ^ 32).toNat = c
  have h : 0x80000000 ≤ ((0x80000000 ||| facility <<< 24) |||
      (((c &&& 0x80000000) >>> 8) ||| (c &&& 0x7FFFFFFF))) :=
    Nat.left_le_or.trans Nat.left_le_or
  norm_num
  exact_mod_cast h

/-- And is one of 32 bits. -/
theorem hiveMkError_lt {facility : ℕ} (hf : facility < 128) (code : ℤ) :
    hiveMkError facility code < 2 ^ 32 := by
  unfold hiveMkError
  generalize (code % 2 ^ 32).toNat = c
  have hshift : facility <<< 24 < 2 ^ 32 := by
    rw [Nat.shiftLeft_eq]
    omega
  have hlow : c &&& 0x7FFFFFFF < 2 ^ 32 := Nat.and_le_right.trans_lt (by norm_num)
  have hhigh : (c &&& 0x80000000) >>> 8 < 2 ^ 32 := by
    rw [Nat.shiftRight_eq_div_pow]
    exact (Nat.div_le_self _ _).trans_lt (Nat.and_le_right.trans_lt (by norm_num))
  have h : ((0x80000000 ||| facility <<< 24) |||
      (((c &&& 0x80000000) >>> 8) ||| (c &&& 0x7FFFFFFF))) < 2 ^ 32 :=
    Nat.or_lt_two_pow (Nat.or_lt_two_pow (by norm_num) hshift)
      (Nat.or_lt_two_pow hhigh hlow)
  norm_num
  exact_mod_cast h

/-- A code below `2 ^ 24` is kept as it is, behind the facility. -/
theorem hiveMkError_eq {facility : ℕ} (hf : facility < 128) {code : ℕ} (hc : code < 2 ^ 24) :
    hiveMkError facility code = (2 ^ 31 + facility * 2 ^ 24 + code : ℕ) := by
  have hself : ((code : ℤ) % 2 ^ 32).toNat = code := by
    rw [Int.emod_eq_of_lt (Int.natCast_nonneg _) (by omega), Int.toNat_natCast]
  have hhigh : code &&& 0x80000000 = 0 := by
    have hbit : code.testBit 31 = false := Nat.testBit_lt_two_pow (hc.trans (by norm_num))
    rw [show 0x80000000 = 2 ^ 31 from rfl, Nat.and_two_pow, hbit]
    rfl
  have hlow : code &&& 0x7FFFFFFF = code := by
    rw [show 0x7FFFFFFF = 2 ^ 31 - 1 from rfl,
      Nat.and_two_pow_sub_one_of_lt_two_pow (hc.trans (by norm_num))]
  have hfac : 0x80000000 ||| facility <<< 24 = 2 ^ 31 + facility * 2 ^ 24 := by
    rw [Nat.shiftLeft_eq, show 0x80000000 = 2 ^ 31 * 1 from rfl,
      ← Nat.two_pow_add_eq_or_of_lt (by omega), Nat.mul_one]
  have hcode : (2 ^ 31 + facility * 2 ^ 24) ||| code = 2 ^ 31 + facility * 2 ^ 24 + code := by
    rw [show 2 ^ 31 + facility * 2 ^ 24 = 2 ^ 24 * (2 ^ 7 + facility) by omega,
      ← Nat.two_pow_add_eq_or_of_lt hc]
  simp only [hiveMkError, hself, hhigh, hlow, hfac, Nat.zero_shiftRight, Nat.zero_or, hcode]

/-- Returned from an `int` function, an error is negative. -/
theorem toInt_hiveMkError_neg {facility : ℕ} (hf : facility < 128) (code : ℤ) :
    toInt (hiveMkError facility code) < 0 := by
  have h₀ := le_hiveMkError facility code
  have h₁ := hiveMkError_lt hf code
  rw [toInt_eq_sub h₀ h₁]
  omega

@[simp] theorem toInt_hiveGeneralError_neg (code : ℤ) : toInt (hiveGeneralError code) < 0 :=
  toInt_hiveMkError_neg (by decide) code

@[simp] theorem toInt_hiveSysError_neg (code : ℤ) : toInt (hiveSysError code) < 0 :=
  toInt_hiveMkError_neg (by decide) code

@[simp] theorem toInt_hiveCurlError_neg (code : ℤ) : toInt (hiveCurlError code) < 0 :=
  toInt_hiveMkError_neg (by decide) code

@[simp] theorem toInt_hiveCurluError_neg (code : ℤ) : toInt (hiveCurluError code) < 0 :=
  toInt_hiveMkError_neg (by decide) code

@[simp] theorem toInt_hiveHttpStatusError_neg (code : ℤ) :
    toInt (hiveHttpStatusError code) < 0 :=
  toInt_hiveMkError_neg (by decide) code

/-! ### The value a `return` statement gives -/

/-- How a function returning `int` or `ssize_t` is left: `ret v` is `return v;` with `v` an
`int` or `ssize_t` variable, `err e` is `return HIVE_…_ERROR(…);` with `e` the value of
the macro. -/
inductive Exit
  | ret (v : ℤ)
  | err (e : ℤ)
  deriving DecidableEq, Repr

namespace Exit

/-- The value returned by a function declared `int`. -/
def int : Exit → ℤ
  | ret v => v
  | err e => toInt e

/-- The value returned by a function declared `ssize_t`: an error is an `unsigned int` (or a
`long`), and 64 bits hold it unchanged. -/
def ssize : Exit → ℤ
  | ret v => v
  | err e => e

@[simp] theorem ssize_ret (v : ℤ) : (ret v).ssize = v := rfl
@[simp] theorem ssize_err (e : ℤ) : (err e).ssize = e := rfl

end Exit

end HiveSDK
