import StrokeFont.Binary.Format
import StrokeFont.Text.Digit

namespace StrokeFont.Command

open Text (decimalDigit? isDecimalDigit)

def isSpace (c : Char) : Bool :=
  let n := c.toNat
  (9 ≤ n && n ≤ 13) || n == 32 || n == 0x85 || n == 0xa0 || n == 0x1680 ||
    (0x2000 ≤ n && n ≤ 0x200a) || n == 0x2028 || n == 0x2029 || n == 0x202f || n == 0x205f ||
    n == 0x3000

def trim (text : List Char) : List Char :=
  ((text.dropWhile isSpace).reverse.dropWhile isSpace).reverse

def integer? (s : String) : Option Int :=
  let (negative, rest) := Text.sign (trim s.toList)
  match Text.digits? isDecimalDigit rest with
  | some (digits, []) =>
      if Text.digitLimit < digits.length then none
      else some (Binary.signed negative (Text.natOfDigits 10 decimalDigit? digits))
  | _ => none

def looksNegative (s : String) : Bool :=
  match s.toList with
  | '-' :: rest =>
      let rest := if rest.getLast? = some '\n' then rest.dropLast else rest
      let whole := rest.takeWhile isDecimalDigit
      match rest.dropWhile isDecimalDigit with
      | [] => !whole.isEmpty
      | '.' :: fraction => !fraction.isEmpty && fraction.all isDecimalDigit
      | _ => false
  | _ => false

inductive Flag where
  | help
  | config
  | size
  | stroke
  | dotSize
  | maxWidth
  | margin
  | verbose
  deriving DecidableEq, Repr

namespace Flag

def all : List Flag := [help, config, size, stroke, dotSize, maxWidth, margin, verbose]

def name : Flag → String
  | help => "--help"
  | config => "--config"
  | size => "--size"
  | stroke => "--stroke"
  | dotSize => "--dot-size"
  | maxWidth => "--max-width"
  | margin => "--margin"
  | verbose => "--verbose"

def ofName? (s : String) : Option Flag := all.find? (·.name == s)

end Flag

/-- One argument by its form. `shortHelp` is the one-letter form of help with what is attached to it,
after an equals sign or without. -/
inductive Item where
  | plain (s : String)
  | separator
  | flag (f : Flag) (attached : Option String)
  | shortHelp (attached : List Char)
  | unknown
  deriving DecidableEq, Repr

def separator : String := "--"

def splitEquals (s : String) : Option (String × String) :=
  let name := s.toList.takeWhile (· != '=')
  match s.toList.dropWhile (· != '=') with
  | _ :: value => some (String.ofList name, String.ofList value)
  | [] => none

def classify (s : String) : Option Item :=
  match s.toList with
  | '-' :: c :: rest =>
      let (name, attached) := match splitEquals s with
        | some (name, value) => (name, some value)
        | none => (s, none)
      if let some f := Flag.ofName? s then some (.flag f none)
      else if let some f := Flag.ofName? name then some (.flag f attached)
      else if c = '-' then
        match Flag.all.filter fun f => name.toList.isPrefixOf f.name.toList with
        | [f] => some (.flag f attached)
        | _ :: _ :: _ => none
        | [] => some (unmatched s)
      else if c = 'h' then
        match rest with
        | [] => some (.flag .help none)
        | '=' :: value => some (.shortHelp value)
        | _ => some (.shortHelp rest)
      else some (unmatched s)
  | _ => some (.plain s)
where
  unmatched (s : String) : Item :=
    if looksNegative s ∨ ' ' ∈ s.toList then .plain s else .unknown

def items : List String → Option (List Item)
  | [] => some []
  | s :: rest =>
      if s = separator then some (.separator :: rest.map .plain)
      else do
        let item ← classify s
        let more ← items rest
        return item :: more

/-- What was given for an option. A separator attached to an option is dropped and leaves it
`empty`. -/
inductive Given (α : Type) where
  | absent
  | empty
  | value (a : α)
  deriving DecidableEq, Repr

def Given.ofText? {α : Type} (read : String → Option α) (text : String) : Option (Given α) :=
  if text = separator then some .empty else (read text).map .value

structure Request where
  text : String
  out : Option String
  config : Given String
  size : Given Int
  stroke : Given Int
  dotSize : Given Int
  maxWidth : Given Int
  margin : Given Int
  verbose : Bool
  deriving DecidableEq, Repr

inductive Parsed where
  | request (r : Request)
  | help
  | usage
  deriving DecidableEq, Repr

def Request.initial : Request :=
  ⟨"", none, .absent, .absent, .absent, .absent, .absent, .absent, false⟩

def Request.set (r : Request) (f : Flag) (value : String) : Option Request :=
  match f with
  | .help | .verbose => none
  | .config => (Given.ofText? some value).map fun given => { r with config := given }
  | .size => (Given.ofText? integer? value).map fun given => { r with size := given }
  | .stroke => (Given.ofText? integer? value).map fun given => { r with stroke := given }
  | .dotSize => (Given.ofText? integer? value).map fun given => { r with dotSize := given }
  | .maxWidth => (Given.ofText? integer? value).map fun given => { r with maxWidth := given }
  | .margin => (Given.ofText? integer? value).map fun given => { r with margin := given }

/-- The state between two arguments. `loose` tells that a separator waits for the next positional
argument; one right after a positional argument belongs to that. -/
structure Progress where
  request : Request
  positionals : List (Option String)
  adjacent : Bool
  loose : Bool
  surplus : Bool

namespace Progress

def start : Progress := ⟨.initial, [], false, false, false⟩

def addPlain (p : Progress) (s : String) : Progress :=
  if p.positionals.length < 2 then
    let value := if s = separator ∧ !p.loose then none else some s
    { p with positionals := p.positionals ++ [value], adjacent := true, loose := false }
  else { p with surplus := true, adjacent := false }

def addSeparator (p : Progress) : Progress :=
  if p.adjacent then { p with adjacent := false } else { p with loose := true }

def finish (p : Progress) : Parsed :=
  match p.positionals with
  | [some text, out] =>
      if p.surplus ∨ p.loose then .usage else .request { p.request with text := text, out := out }
  | _ => .usage

end Progress

/-- Reads the items in order. Help ends the reading at once, and so does an option in error; surplus
arguments count only at the end. The letter of help may be repeated. -/
def read : List Item → Progress → Parsed
  | [], p => p.finish
  | .plain s :: rest, p => read rest (p.addPlain s)
  | .separator :: rest, p => read rest p.addSeparator
  | .unknown :: rest, p => read rest { p with surplus := true, adjacent := false }
  | .shortHelp attached :: _, _ =>
      if !attached.isEmpty && attached.all (· == 'h') then .help else .usage
  | .flag .help none :: _, _ => .help
  | .flag .verbose none :: rest, p =>
      read rest { p with request := { p.request with verbose := true }, adjacent := false }
  | .flag f (some value) :: rest, p =>
      match p.request.set f value with
      | some request => read rest { p with request := request, adjacent := false }
      | none => .usage
  | .flag f none :: .plain value :: rest, p =>
      match p.request.set f value with
      | some request => read rest { p with request := request, adjacent := false }
      | none => .usage
  | .flag _ none :: _, _ => .usage

def parse (arguments : List String) : Parsed :=
  match items arguments with
  | some items => read items .start
  | none => .usage

end StrokeFont.Command
