import StrokeFont.Binary.Format
import StrokeFont.Text.Digit
import StrokeFont.Text.Quoted

namespace StrokeFont.Glyph

open Text (hexDigit? isHexDigit)

/-- The offset is where the search for the operand stopped. -/
structure Malformed where
  program : String
  offset : Nat
  deriving DecidableEq, Repr

namespace Malformed

def atEnd (program : String) : Malformed := ⟨program, program.length⟩

def message (m : Malformed) : String :=
  s!"glyph program ended while reading an operand at offset {m.offset}: {Text.quoted m.program}"

end Malformed

def isBlank (c : Char) : Bool := c == ' ' || c == '\t' || c == '\r' || c == '\n'

def operandAt? (negative : Bool) (c : Char) : Option Int :=
  (hexDigit? c).map (Binary.signed negative)

/-- An operand is one hexadecimal digit. What stands before it is skipped, and a minus sign among that
makes it negative. -/
def operand? (text : List Char) : Option (Int × List Char) :=
  let skipped := text.takeWhile (!isHexDigit ·)
  match text.dropWhile (!isHexDigit ·) with
  | [] => none
  | digit :: rest => (operandAt? (skipped.contains '-') digit).map (·, rest)

theorem operandAt?_bounds {negative : Bool} {c : Char} {n : Int}
    (h : operandAt? negative c = some n) : -15 ≤ n ∧ n ≤ 15 := by
  simp only [operandAt?, Option.map_eq_some_iff] at h
  obtain ⟨digit, hdigit, rfl⟩ := h
  have hlt := Text.hexDigit?_lt hdigit
  cases negative with
  | false => simp only [Binary.signed, Bool.false_eq_true, if_false]; omega
  | true => simp only [Binary.signed, if_true]; omega

/-- For reading a program piece by piece. The caller decides whether an opcode or an operand comes next,
and may go on after a failure. -/
structure Cursor where
  program : String
  position : Nat
  position_le : position ≤ program.length

namespace Cursor

def start (program : String) : Cursor := ⟨program, 0, Nat.zero_le _⟩

def ahead (c : Cursor) : List Char := c.program.toList.drop c.position

def atEnd (c : Cursor) : Bool := c.program.length ≤ c.position

def before (c : Cursor) (rest : List Char) : Cursor :=
  ⟨c.program, c.program.length - rest.length, Nat.sub_le _ _⟩

def nextOpcode (c : Cursor) : Option Char × Cursor :=
  match c.ahead.dropWhile isBlank with
  | [] => (none, c.before [])
  | opcode :: rest => (some opcode, c.before rest)

def nextNumber (c : Cursor) : Except Malformed Int × Cursor :=
  match operand? c.ahead with
  | none => (.error (.atEnd c.program), c.before [])
  | some (n, rest) => (.ok n, c.before rest)

end Cursor

end StrokeFont.Glyph
