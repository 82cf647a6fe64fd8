import StrokeFont.Text.Digit

namespace StrokeFont.Toml

open Text (hexDigit? isHexDigit natOfDigits)

inductive Error where
  | invalid
  | integerTooLong (digits : Nat)
  deriving DecidableEq, Repr

abbrev Scan := StateT (List Char) (Except Error)

namespace Scan

variable {α : Type}

def invalid : Scan α := throw .invalid

def peek? : Scan (Option Char) := return (← get).head?

def accept (text : List Char) : Scan Bool := do
  let s ← get
  if text.isPrefixOf s then
    set (s.drop text.length)
    return true
  else return false

def expect (text : List Char) : Scan Unit := do
  unless ← accept text do invalid

def takeWhile (p : Char → Bool) : Scan (List Char) := do
  let s ← get
  set (s.dropWhile p)
  return s.takeWhile p

/-- Runs a reader that gives a value and the rest, and leaves the text alone when it gives none. -/
def attempt (read : List Char → Option (α × List Char)) : Scan (Option α) := do
  match read (← get) with
  | some (a, rest) =>
      set rest
      return some a
  | none => return none

end Scan

def isGap (c : Char) : Bool := c == ' ' || c == '\t'

def isGapOrNewline (c : Char) : Bool := isGap c || c == '\n'

def isPlain (c : Char) : Bool := c == '\t' || (32 ≤ c.toNat && c.toNat != 127)

def skipGaps : Scan Unit := do
  let _ ← Scan.takeWhile isGap

def skipComment : Scan Unit := do
  if ← Scan.accept ['#'] then
    let comment ← Scan.takeWhile (· != '\n')
    unless comment.all isPlain do Scan.invalid

def isAllowed (long : Bool) (c : Char) : Bool := isPlain c || (long && c == '\n')

def numericEscape (width : Nat) (text : List Char) : Option (List Char × List Char) :=
  let digits := text.take width
  let n := natOfDigits 16 hexDigit? digits
  if digits.length = width ∧ digits.all isHexDigit ∧ n.isValidChar then
    some ([Char.ofNat n], text.drop width)
  else none

/-- What a backslash and the following text stand for, and the rest. In a text of several lines a
backslash at the end of a line takes away all blanks up to the next visible character. -/
def escape (long : Bool) : List Char → Option (List Char × List Char)
  | 'b' :: rest => some (['\x08'], rest)
  | 't' :: rest => some (['\t'], rest)
  | 'n' :: rest => some (['\n'], rest)
  | 'f' :: rest => some (['\x0c'], rest)
  | 'r' :: rest => some (['\r'], rest)
  | '"' :: rest => some (['"'], rest)
  | '\\' :: rest => some (['\\'], rest)
  | 'u' :: rest => numericEscape 4 rest
  | 'U' :: rest => numericEscape 8 rest
  | c :: rest =>
      if long && isGapOrNewline c then
        match (c :: rest).dropWhile isGap with
        | '\n' :: rest => some ([], rest.dropWhile isGapOrNewline)
        | [] => some ([], [])
        | _ => none
      else none
  | [] => none

def escapedText (long : Bool) : Nat → List Char → Option (List Char × List Char)
  | 0, _ => none
  | _, [] => none
  | fuel + 1, c :: rest =>
      let go (shown rest : List Char) := do
        let (more, rest) ← escapedText long fuel rest
        return (shown ++ more, rest)
      if c = '"' then
        if !long then some ([], rest)
        else if ['"', '"'].isPrefixOf rest then some ([], rest.drop 2)
        else go [c] rest
      else if c = '\\' then do
        let (shown, rest) ← escape long rest
        go shown rest
      else if isAllowed long c then go [c] rest
      else none

def literalText (long : Bool) : List Char → Option (List Char × List Char)
  | [] => none
  | c :: rest =>
      if c = '\'' ∧ !long then some ([], rest)
      else if ['\'', '\'', '\''].isPrefixOf (c :: rest) then some ([], rest.drop 2)
      else if isAllowed long c then do
        let (more, rest) ← literalText long rest
        return (c :: more, rest)
      else none

def textBody (quote : Char) (long : Bool) : Scan (List Char) := do
  let read (s : List Char) :=
    if quote = '"' then escapedText long (s.length + 1) s else literalText long s
  match ← Scan.attempt read with
  | some text => return text
  | none => Scan.invalid

def shortText (quote : Char) : Scan String := do
  Scan.expect [quote]
  return String.ofList (← textBody quote false)

/-- A text of one or of several lines. The latter does not count a newline at its start, and may end
with up to two quotes of its own before the closing ones. -/
def anyText (quote : Char) : Scan String := do
  if ← Scan.accept [quote, quote, quote] then
    let _ ← Scan.accept ['\n']
    let text ← textBody quote true
    if ← Scan.accept [quote, quote] then return String.ofList (text ++ [quote, quote])
    if ← Scan.accept [quote] then return String.ofList (text ++ [quote])
    return String.ofList text
  else shortText quote

end StrokeFont.Toml
