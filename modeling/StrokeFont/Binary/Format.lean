namespace StrokeFont.Binary

/-- The finite numbers are plus or minus `mantissa * 2 ^ exponent`. Zero has a sign, and there is
one value that is not a number. -/
inductive Number where
  | nan
  | infinity (negative : Bool)
  | finite (negative : Bool) (mantissa : Nat) (exponent : Int)
  deriving DecidableEq, Repr, Inhabited

inductive ConversionError where
  | tooLarge
  | infinite
  | notANumber
  deriving DecidableEq, Repr

namespace ConversionError

def message : ConversionError → String
  | tooLarge => "int too large to convert to float"
  | infinite => "cannot convert float infinity to integer"
  | notANumber => "cannot convert float NaN to integer"

end ConversionError

def signed (negative : Bool) (size : Nat) : Int :=
  if negative then -(size : Int) else size

@[simp] theorem signed_zero (negative : Bool) : signed negative 0 = 0 := by
  cases negative <;> rfl

theorem natAbs_signed (negative : Bool) (size : Nat) : (signed negative size).natAbs = size := by
  cases negative with
  | false => rfl
  | true => exact Int.natAbs_neg size

namespace Number

/-- The size of `mantissa * 2 ^ exponent` as a quotient of two naturals, the second a power of
two. At most one of the two exponents used here differs from zero. -/
def ratio (mantissa : Nat) (exponent : Int) : Nat × Nat :=
  (mantissa <<< exponent.toNat, 1 <<< (-exponent).toNat)

def truncate : Number → Except ConversionError Int
  | nan => .error .notANumber
  | infinity _ => .error .infinite
  | finite negative mantissa exponent =>
      let (num, den) := ratio mantissa exponent
      .ok (signed negative (num / den))

def valueEq : Number → Number → Bool
  | infinity s, infinity t => s == t
  | finite s m e, finite t n f =>
      let (a, b) := ratio m e
      let (c, d) := ratio n f
      signed s (a * d) == signed t (c * b)
  | _, _ => false

theorem ratio_pos (mantissa : Nat) (exponent : Int) : 0 < (ratio mantissa exponent).2 := by
  simp only [ratio, Nat.one_shiftLeft]
  exact Nat.two_pow_pos _

end Number

/-- A mantissa has `precision` bits, and fewer only at the least exponent. -/
structure Format where
  precision : Nat
  minExponent : Int
  maxExponent : Int
  deriving DecidableEq, Repr

namespace Format

def single : Format := ⟨24, -149, 104⟩

def double : Format := ⟨53, -1074, 971⟩

end Format

/-- The natural number nearest to `num / den`, the even one when two are equally near. -/
def roundHalfEven (num den : Nat) : Nat :=
  let low := num / den
  match compare (2 * (num % den)) den with
  | .lt => low
  | .gt => low + 1
  | .eq => low + low % 2

theorem roundHalfEven_of_dvd {num den : Nat} (hden : 0 < den) (h : den ∣ num) :
    roundHalfEven num den = num / den := by
  have hlt : compare 0 den = .lt := Nat.compare_eq_lt.2 hden
  simp [roundHalfEven, Nat.mod_eq_zero_of_dvd h, hlt]

theorem roundHalfEven_bounds (num den : Nat) :
    num / den ≤ roundHalfEven num den ∧ roundHalfEven num den ≤ num / den + 1 := by
  simp only [roundHalfEven]
  split <;> omega

/-- The exponent `e` with `2 ^ e ≤ num / den < 2 ^ (e + 1)`, for a positive quotient. The bit
counts of the two naturals leave two candidates. -/
def floorLog2 (num den : Nat) : Int :=
  let guess : Int := num.log2 - den.log2
  if den <<< guess.toNat ≤ num <<< (-guess).toNat then guess else guess - 1

namespace Format

/-- The exponent that gives a quotient the format's full precision, or the least exponent when
the quotient is too small for that. -/
def exponentFor (f : Format) (num den : Nat) : Int :=
  max f.minExponent (floorLog2 num den + 1 - f.precision)

def pack (f : Format) (negative : Bool) (mantissa : Nat) (exponent : Int) : Number :=
  let (m, e) := if mantissa = 1 <<< f.precision then (1 <<< (f.precision - 1), exponent + 1)
    else (mantissa, exponent)
  if f.maxExponent < e then .infinity negative else .finite negative m e

def round (f : Format) (negative : Bool) (num den : Nat) : Number :=
  if num = 0 then .finite negative 0 f.minExponent
  else
    let e := f.exponentFor num den
    f.pack negative (roundHalfEven (num <<< (-e).toNat) (den <<< e.toNat)) e

def nearest (f : Format) (n : Int) : Number := f.round (decide (n < 0)) n.natAbs 1

def ofInt (f : Format) (n : Int) : Except ConversionError Number :=
  match f.nearest n with
  | .finite s m e => .ok (.finite s m e)
  | _ => .error .tooLarge

end Format

end StrokeFont.Binary
