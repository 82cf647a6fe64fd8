import StrokeFont.Decimal
import StrokeFont.Settings.Basic
import StrokeFont.Text.Digit
import StrokeFont.Toml.Scan

namespace StrokeFont.Toml

open Settings (Value)
open Text (digitLimit digits? hexDigit? natOfDigits sign)

def basedInteger? (text : List Char) : Option (Value × List Char) := do
  let (base, rest) ← match text with
    | '0' :: 'x' :: rest => some (16, rest)
    | '0' :: 'o' :: rest => some (8, rest)
    | '0' :: 'b' :: rest => some (2, rest)
    | _ => none
  let (digits, rest) ← digits? (fun c => (hexDigit? c).any (· < base)) rest
  return (.integer (natOfDigits base hexDigit? digits), rest)

/-- A decimal number without a sign: its whole part has no leading zeros. -/
structure Decimals where
  whole : List Char
  fraction : Option (List Char)
  exponent : Option (Bool × List Char)

def whole? : List Char → Option (List Char × List Char)
  | '0' :: rest => some (['0'], rest)
  | text => digits? Char.isDigit text

def fraction : List Char → Option (List Char) × List Char
  | '.' :: rest =>
      match digits? Char.isDigit rest with
      | some (digits, rest) => (some digits, rest)
      | none => (none, '.' :: rest)
  | text => (none, text)

def exponent : List Char → Option (Bool × List Char) × List Char
  | c :: rest =>
      if c = 'e' ∨ c = 'E' then
        let (negative, after) := sign rest
        match digits? Char.isDigit after with
        | some (digits, after) => (some (negative, digits), after)
        | none => (none, c :: rest)
      else (none, c :: rest)
  | [] => (none, [])

def decimals? (text : List Char) : Option (Decimals × List Char) := do
  let (whole, rest) ← whole? text
  let (fraction, rest) := fraction rest
  let (exponent, rest) := exponent rest
  return (⟨whole, fraction, exponent⟩, rest)

def Decimals.value (negative : Bool) (d : Decimals) : Except Error Value :=
  if d.fraction.isNone ∧ d.exponent.isNone then
    if digitLimit < d.whole.length then .error (.integerTooLong d.whole.length)
    else .ok (.integer (Binary.signed negative (natOfDigits 10 hexDigit? d.whole)))
  else
    let fraction := d.fraction.getD []
    let (down, places) := d.exponent.getD (false, [])
    let scale := Binary.signed down (natOfDigits 10 hexDigit? places)
    .ok (.float (Decimal.toDouble negative (natOfDigits 10 hexDigit? (d.whole ++ fraction))
      (scale - fraction.length)))

def special? : List Char → Option (Value × List Char)
  | 'i' :: 'n' :: 'f' :: rest => some (.float (.infinity false), rest)
  | '+' :: 'i' :: 'n' :: 'f' :: rest => some (.float (.infinity false), rest)
  | '-' :: 'i' :: 'n' :: 'f' :: rest => some (.float (.infinity true), rest)
  | 'n' :: 'a' :: 'n' :: rest => some (.float .nan, rest)
  | '+' :: 'n' :: 'a' :: 'n' :: rest => some (.float .nan, rest)
  | '-' :: 'n' :: 'a' :: 'n' :: rest => some (.float .nan, rest)
  | _ => none

def number : Scan Value := do
  if let some value ← Scan.attempt basedInteger? then return value
  let signed (text : List Char) : Option ((Bool × Decimals) × List Char) := do
    let (negative, rest) := sign text
    let (d, rest) ← decimals? rest
    return ((negative, d), rest)
  if let some (negative, d) ← Scan.attempt signed then return ← d.value negative
  if let some value ← Scan.attempt special? then return value
  Scan.invalid

def fixed? (width : Nat) (text : List Char) : Option (Nat × List Char) :=
  let digits := text.take width
  if digits.length = width ∧ digits.all Char.isDigit then
    some (natOfDigits 10 hexDigit? digits, text.drop width)
  else none

def mark? (marks : List Char) : List Char → Option (List Char)
  | c :: rest => if c ∈ marks then some rest else none
  | [] => none

structure Day where
  year : Nat
  month : Nat
  day : Nat

/-- The form of a date; days 29 to 31 are accepted in every month here. -/
def day? (text : List Char) : Option (Day × List Char) := do
  let (year, rest) ← fixed? 4 text
  let (month, rest) ← fixed? 2 (← mark? ['-'] rest)
  let (day, rest) ← fixed? 2 (← mark? ['-'] rest)
  if 1 ≤ month ∧ month ≤ 12 ∧ 1 ≤ day ∧ day ≤ 31 then some (⟨year, month, day⟩, rest) else none

def isLeap (year : Nat) : Bool := year % 4 == 0 && (year % 100 != 0 || year % 400 == 0)

def daysIn (year month : Nat) : Nat :=
  if month = 2 then (if isLeap year then 29 else 28)
  else if month ∈ [4, 6, 9, 11] then 30
  else 31

def Day.exists (d : Day) : Bool := 1 ≤ d.year && d.day ≤ daysIn d.year d.month

def hourMinute? (text : List Char) : Option (List Char) := do
  let (hour, rest) ← fixed? 2 text
  let (minute, rest) ← fixed? 2 (← mark? [':'] rest)
  if hour ≤ 23 ∧ minute ≤ 59 then some rest else none

def time? (text : List Char) : Option (Unit × List Char) := do
  let rest ← hourMinute? text
  let (second, rest) ← fixed? 2 (← mark? [':'] rest)
  guard (second ≤ 59)
  match rest with
  | '.' :: c :: after =>
      if c.isDigit then return ((), after.dropWhile Char.isDigit) else return ((), rest)
  | _ => return ((), rest)

def zone (text : List Char) : List Char :=
  match mark? ['Z', 'z'] text with
  | some rest => rest
  | none => ((mark? ['+', '-'] text).bind hourMinute?).getD text

def moment? (text : List Char) : Option (Day × List Char) := do
  let (day, rest) ← day? text
  match (mark? ['T', 't', ' '] rest).bind time? with
  | some (_, rest) => return (day, zone rest)
  | none => return (day, rest)

end StrokeFont.Toml
