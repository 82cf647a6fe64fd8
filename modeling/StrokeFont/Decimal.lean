import StrokeFont.Binary.Arithmetic

namespace StrokeFont.Decimal

open Binary (Format Number)

/-- The number nearest to plus or minus `digits * 10 ^ exponent`. A decimal far outside the range of
the format is not expanded: beyond `limit` places it is infinite, and as far below it is zero. -/
def round (f : Format) (limit : Nat) (negative : Bool) (digits : Nat) (exponent : Int) : Number :=
  let places : Int := (Nat.toDigits 10 digits).length + exponent
  if digits = 0 ∨ places < -(limit : Int) then .finite negative 0 f.minExponent
  else if (limit : Int) < places then .infinity negative
  else f.round negative (digits * Nat.pow 10 exponent.toNat) (Nat.pow 10 (-exponent).toNat)

def toDouble (negative : Bool) (digits : Nat) (exponent : Int) : Number :=
  round .double 400 negative digits exponent

structure Digits where
  digits : List Char
  point : Int
  deriving DecidableEq, Repr

/-- The reals that round to a number, as numerators over one denominator. Both ends belong to the
interval when the mantissa is even. -/
structure Interval where
  low : Nat
  value : Nat
  high : Nat
  den : Nat
  closed : Bool

def Interval.around (mantissa : Nat) (exponent : Int) : Interval :=
  let narrow := mantissa = Number.hiddenBit ∧ -1074 < exponent
  let quarters (n : Nat) : Nat := n <<< (exponent - 2).toNat
  { low := quarters (4 * mantissa - if narrow then 1 else 2)
    value := quarters (4 * mantissa)
    high := quarters (4 * mantissa + 2)
    den := 1 <<< (2 - exponent).toNat
    closed := mantissa % 2 = 0 }

def decimalPoint (num den : Nat) : Int :=
  let guess : Int := (Nat.toDigits 10 num).length - (Nat.toDigits 10 den).length
  if num * Nat.pow 10 (-guess).toNat < den * Nat.pow 10 guess.toNat then guess else guess + 1

namespace Interval

def contains (i : Interval) (n : Nat) (grid : Int) : Bool :=
  let x := n * Nat.pow 10 grid.toNat * i.den
  let low := i.low * Nat.pow 10 (-grid).toNat
  let high := i.high * Nat.pow 10 (-grid).toNat
  if i.closed then low ≤ x && x ≤ high else low < x && x < high

/-- The better of the two multiples of `10 ^ grid` next to the value, if one is in the interval. Of
two equally near the even one is taken. -/
def nearestOn (i : Interval) (grid : Int) : Option Nat :=
  let num := i.value * Nat.pow 10 (-grid).toNat
  let den := i.den * Nat.pow 10 grid.toNat
  let below := num / den
  let nearest := Binary.roundHalfEven num den
  let other := if nearest = below then below + 1 else below
  [nearest, other].find? (i.contains · grid)

end Interval

/-- Seventeen digits always suffice for a double. -/
def shortest (mantissa : Nat) (exponent : Int) : Digits :=
  let i := Interval.around mantissa exponent
  let point := decimalPoint i.value i.den
  let found := (List.range 17).findSome? fun (k : Nat) =>
    let grid := point - (k + 1 : Nat)
    (i.nearestOn grid).map fun n => (Nat.toDigits 10 n, grid)
  match found with
  | some (digits, grid) =>
      { digits := (digits.reverse.dropWhile (· == '0')).reverse
        point := digits.length + grid }
  | none => { digits := Nat.toDigits 10 (i.value / i.den), point := point }

/-- Where positional writing ends: the least and the greatest exponent of the leading digit that are
written without an exponent part, and the least number of digits in that part. -/
structure Style where
  leastPositional : Int
  greatestPositional : Int
  exponentWidth : Nat

namespace Style

def positional (d : Digits) : List Char :=
  let zeros (n : Int) := List.replicate n.toNat '0'
  let count : Int := d.digits.length
  if d.point ≤ 0 then '0' :: '.' :: zeros (-d.point) ++ d.digits
  else if count ≤ d.point then d.digits ++ zeros (d.point - count) ++ ['.', '0']
  else d.digits.take d.point.toNat ++ '.' :: d.digits.drop d.point.toNat

def exponential (style : Style) (d : Digits) : List Char :=
  let e := d.point - 1
  let places := Nat.toDigits 10 e.natAbs
  let fraction := if d.digits.length ≤ 1 then [] else '.' :: d.digits.tail
  d.digits.take 1 ++ fraction ++ 'e' :: (if e < 0 then '-' else '+')
    :: List.replicate (style.exponentWidth - places.length) '0' ++ places

def magnitude (style : Style) (mantissa : Nat) (exponent : Int) : List Char :=
  if mantissa = 0 then ['0', '.', '0']
  else
    let d := shortest mantissa exponent
    if style.leastPositional ≤ d.point - 1 ∧ d.point - 1 ≤ style.greatestPositional then positional d
    else style.exponential d

def render (style : Style) : Number → String
  | .nan => "nan"
  | .infinity negative => if negative then "-inf" else "inf"
  | .finite negative mantissa exponent =>
      String.ofList ((if negative then ['-'] else []) ++ style.magnitude mantissa exponent)

end Style

end StrokeFont.Decimal
