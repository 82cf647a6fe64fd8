import StrokeFont.Binary.Format

namespace StrokeFont.Binary.Format

open Number (ratio)

def convert (f : Format) : Number → Number
  | .finite s m e => f.round s (ratio m e).1 (ratio m e).2
  | x => x

def mul (f : Format) : Number → Number → Number
  | .nan, _ => .nan
  | _, .nan => .nan
  | .infinity s, .infinity t => .infinity (s != t)
  | .infinity s, .finite t m _ => if m = 0 then .nan else .infinity (s != t)
  | .finite s m _, .infinity t => if m = 0 then .nan else .infinity (s != t)
  | .finite s m d, .finite t n e =>
      let (num, den) := ratio (m * n) (d + e)
      f.round (s != t) num den

/-- Division by a finite number other than zero; the other divisors do not occur and give `nan`. -/
def div (f : Format) : Number → Number → Number
  | .infinity s, .finite t n _ => if n = 0 then .nan else .infinity (s != t)
  | .finite s m d, .finite t n e =>
      if n = 0 then .nan
      else
        let (num, den) := ratio m (d - e)
        f.round (s != t) num (n * den)
  | _, _ => .nan

/-- The exact sum over a common denominator, rounded. A sum that is exactly zero is negative only
when both terms are. -/
def add (f : Format) : Number → Number → Number
  | .nan, _ => .nan
  | _, .nan => .nan
  | .infinity s, .infinity t => if s = t then .infinity s else .nan
  | .infinity s, .finite _ _ _ => .infinity s
  | .finite _ _ _, .infinity t => .infinity t
  | .finite s m d, .finite t n e =>
      let (a, b) := ratio m d
      let (c, g) := ratio n e
      let total := signed s (a * g) + signed t (c * b)
      let negative := if total = 0 then s && t else decide (total < 0)
      f.round negative total.natAbs (b * g)

end StrokeFont.Binary.Format

namespace StrokeFont.Binary.Number

def negate : Number → Number
  | nan => nan
  | infinity s => infinity !s
  | finite s m e => finite (!s) m e

end StrokeFont.Binary.Number

namespace StrokeFont.Binary.Format

def sub (f : Format) (x y : Number) : Number := f.add x y.negate

end StrokeFont.Binary.Format

namespace StrokeFont.Binary.Number

def hiddenBit : Nat := 1 <<< 52

def ofBits (bits : UInt64) : Number :=
  let negative := decide (1 <<< 63 ≤ bits.toNat)
  let biased : Nat := (bits.toNat >>> 52) % 2048
  let fraction : Nat := bits.toNat % hiddenBit
  if biased = 2047 then (if fraction = 0 then infinity negative else nan)
  else if biased = 0 then finite negative fraction (-1074)
  else finite negative (hiddenBit + fraction) ((biased : Int) - 1075)

def toBits : Number → UInt64
  | nan => 0x7ff8000000000000
  | infinity s => withSign s 0x7ff0000000000000
  | finite s m e =>
      if m < hiddenBit then withSign s m
      else withSign s ((e + 1075).toNat * hiddenBit + (m - hiddenBit))
where
  withSign (negative : Bool) (size : Nat) : UInt64 :=
    UInt64.ofNat (if negative then 1 <<< 63 + size else size)

end StrokeFont.Binary.Number
