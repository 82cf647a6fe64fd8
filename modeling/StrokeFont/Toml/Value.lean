import StrokeFont.Toml.Numeral

namespace StrokeFont.Toml

open Settings (Value)

abbrev Table := List (String × Value)

abbrev Path := List String

def mapLast {α : Type} (f : α → Except Error α) : List α → Except Error (List α)
  | [] => .error .invalid
  | [a] => return [← f a]
  | a :: rest => return a :: (← mapLast f rest)

def Value.asTable : Value → Except Error Table
  | .table entries => .ok entries
  | _ => .error .invalid

/-- Changes the table at the end of a path. Lists are entered only if `throughLists` says so. -/
def Table.change (throughLists : Bool) (f : Table → Except Error Table) :
    Path → Table → Except Error Table
  | [], table => f table
  | key :: path, table => do
      let value ← match Keyed.find? key table with
        | none => return Keyed.insert key (.table (← Table.change throughLists f path [])) table
        | some value => pure value
      let enter (value : Value) : Except Error Value := do
        return .table (← Table.change throughLists f path (← Value.asTable value))
      match value with
      | .list items =>
          if throughLists then return Keyed.insert key (.list (← mapLast enter items)) table
          else .error .invalid
      | value => return Keyed.insert key (← enter value) table

def Table.add (key : String) (value : Value) (table : Table) : Except Error Table :=
  match Keyed.find? key table with
  | none => .ok (Keyed.insert key value table)
  | some _ => .error .invalid

def Table.extendList (key : String) (table : Table) : Except Error Table :=
  match Keyed.find? key table with
  | none => .ok (Keyed.insert key (.list [.table []]) table)
  | some (.list items) => .ok (Keyed.insert key (.list (items ++ [.table []])) table)
  | some _ => .error .invalid

structure Key where
  parents : Path
  last : String

def Key.path (key : Key) : Path := key.parents ++ [key.last]

def isBareKey (c : Char) : Bool := c.isAlphanum || c == '-' || c == '_'

def keyPart : Scan String := do
  match ← Scan.peek? with
  | some '"' => shortText '"'
  | some '\'' => shortText '\''
  | _ =>
      match ← Scan.takeWhile isBareKey with
      | [] => Scan.invalid
      | name => return String.ofList name

def keyParts : Nat → Scan Path
  | 0 => Scan.invalid
  | fuel + 1 => do
      skipGaps
      if ← Scan.accept ['.'] then
        skipGaps
        let part ← keyPart
        return part :: (← keyParts fuel)
      else return []

def key : Scan Key := do
  let first ← keyPart
  let parts := first :: (← keyParts ((← get).length + 1))
  return ⟨parts.dropLast, parts.getLastD first⟩

def skipLines : Nat → Scan Unit
  | 0 => return ()
  | fuel + 1 => do
      let _ ← Scan.takeWhile isGapOrNewline
      if (← Scan.peek?) = some '#' then
        skipComment
        skipLines fuel

def skipAllLines : Scan Unit := do skipLines ((← get).length + 1)

def moment : Scan (Option Value) := do
  if let some day ← Scan.attempt moment? then
    unless day.exists do Scan.invalid
    return some .moment
  if let some _ ← Scan.attempt time? then return some .moment
  return none

def scalar : Scan Value := do
  match ← Scan.peek? with
  | some '"' => return .text (← anyText '"')
  | some '\'' => return .text (← anyText '\'')
  | _ =>
      if ← Scan.accept "true".toList then return .boolean true
      if ← Scan.accept "false".toList then return .boolean false
      if let some value ← moment then return value
      number

/-- Keys of an inline table that can no longer be reached into, because their value was complete. -/
def isSealed (sealed : List Path) (path : Path) : Bool :=
  sealed.any (·.isPrefixOf path)

def Value.holdsValues : Value → Bool
  | .list _ | .table _ => true
  | _ => false

mutual

def value : Nat → Scan Value
  | 0 => Scan.invalid
  | fuel + 1 => do
      if ← Scan.accept ['['] then
        skipAllLines
        if ← Scan.accept [']'] then return .list []
        return .list (← items fuel)
      if ← Scan.accept ['\x7b'] then
        skipGaps
        if ← Scan.accept ['\x7d'] then return .table []
        return .table (← entries fuel [] [])
      scalar

def items : Nat → Scan (List Value)
  | 0 => Scan.invalid
  | fuel + 1 => do
      let item ← value fuel
      skipAllLines
      if ← Scan.accept [']'] then return [item]
      Scan.expect [',']
      skipAllLines
      if ← Scan.accept [']'] then return [item]
      return item :: (← items fuel)

def entries : Nat → Table → List Path → Scan Table
  | 0, _, _ => Scan.invalid
  | fuel + 1, table, sealed => do
      let key ← key
      skipGaps
      Scan.expect ['=']
      skipGaps
      let item ← value fuel
      if isSealed sealed key.path then Scan.invalid
      let table ← Table.change false (Table.add key.last item) key.parents table
      skipGaps
      if ← Scan.accept ['\x7d'] then return table
      Scan.expect [',']
      skipGaps
      entries fuel table (if Value.holdsValues item then key.path :: sealed else sealed)

end

/-- Each step into a value reads a character, so twice the length of the text bounds the calls. -/
def anyValue : Scan Value := do value (2 * (← get).length + 2)

end StrokeFont.Toml
