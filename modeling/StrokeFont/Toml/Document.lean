import StrokeFont.Toml.Value

namespace StrokeFont.Toml

open Settings (Value)

/-- Tables that were opened cannot be opened again. Those that a dotted key made are pending, and count
as opened from the next table header on. Nothing is added at or below a complete path. -/
structure Document where
  table : Table
  current : Path
  opened : List Path
  pending : List Path
  complete : List Path

namespace Document

def empty : Document := ⟨[], [], [], [], []⟩

def isComplete (d : Document) (path : Path) : Bool :=
  d.complete.any (·.isPrefixOf path)

def settle (d : Document) : Document :=
  { d with opened := d.pending ++ d.opened, pending := [] }

def openTable (d : Document) (key : Key) : Except Error Document :=
  if key.path ∈ d.opened ∨ d.isComplete key.path then .error .invalid
  else do
    let table ← Table.change true .ok key.path d.table
    return { d with table := table, current := key.path, opened := key.path :: d.opened }

/-- A further table of a list. What is known about the paths below concerned the one before it. -/
def openListTable (d : Document) (key : Key) : Except Error Document :=
  if d.isComplete key.path then .error .invalid
  else do
    let table ← Table.change true (Table.extendList key.last) key.parents d.table
    let keep (paths : List Path) := paths.filter (!key.path.isPrefixOf ·)
    return { d with
      table := table
      current := key.path
      opened := key.path :: keep d.opened
      complete := keep d.complete }

def addEntry (d : Document) (key : Key) (value : Value) : Except Error Document := do
  let tables := (List.range key.parents.length).map fun k => d.current ++ key.parents.take (k + 1)
  let parent := d.current ++ key.parents
  if tables.any (· ∈ d.opened) ∨ d.isComplete parent then .error .invalid
  else
    let table ← Table.change true (Table.add key.last value) parent d.table
    return { d with
      table := table
      pending := tables ++ d.pending
      complete := if Value.holdsValues value then (d.current ++ key.path) :: d.complete
        else d.complete }

def statement (d : Document) : Scan Document := do
  if ← Scan.accept ['[', '['] then
    skipGaps
    let key ← key
    let d ← d.settle.openListTable key
    Scan.expect [']', ']']
    return d
  if ← Scan.accept ['['] then
    skipGaps
    let key ← key
    let d ← d.settle.openTable key
    Scan.expect [']']
    return d
  match ← Scan.peek? with
  | none => return d
  | some c =>
      if c == '\n' || c == '#' then return d
      let key ← key
      Scan.expect ['=']
      skipGaps
      let value ← anyValue
      d.addEntry key value

def lines : Nat → Document → Scan Document
  | 0, _ => Scan.invalid
  | fuel + 1, d => do
      skipGaps
      let d ← d.statement
      skipGaps
      skipComment
      if (← Scan.peek?).isNone then return d
      Scan.expect ['\n']
      lines fuel d

end Document

def joinLineEnds : List Char → List Char
  | '\r' :: '\n' :: rest => '\n' :: joinLineEnds rest
  | c :: rest => c :: joinLineEnds rest
  | [] => []

def parse (text : String) : Except Error Table := do
  let text := joinLineEnds text.toList
  let (d, _) ← (Document.empty.lines (text.length + 1)).run text
  return d.table

def Error.message? : Error → Option String
  | .invalid => none
  | .integerTooLong digits =>
      some (s!"Exceeds the limit ({StrokeFont.Text.digitLimit} digits) for integer string conversion: " ++
        s!"value has {digits} digits; use sys.set_int_max_str_digits() to increase the limit")

end StrokeFont.Toml
