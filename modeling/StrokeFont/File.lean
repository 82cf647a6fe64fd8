import StrokeFont.Text.Lowercase

namespace StrokeFont.File

inductive Anchor where
  | here
  | root
  | doubleRoot
  deriving DecidableEq, Repr

structure Path where
  anchor : Anchor
  steps : List String
  deriving DecidableEq, Repr

namespace Anchor

def text : Anchor → String
  | here => ""
  | root => "/"
  | doubleRoot => "//"

def ofSlashes : Nat → Anchor
  | 0 => here
  | 2 => doubleRoot
  | _ => root

end Anchor

namespace Path

def ofString (s : String) : Path where
  anchor := .ofSlashes (s.toList.takeWhile (· == '/')).length
  steps := (s.splitOn "/").filter fun step => step != "" && step != "."

def toString (p : Path) : String :=
  match p.anchor, p.steps with
  | .here, [] => "."
  | anchor, steps => anchor.text ++ "/".intercalate steps

def parent (p : Path) : Path := { p with steps := p.steps.dropLast }

def name (p : Path) : String := p.steps.getLastD ""

/-- The name from its last dot on, in small letters. Dots at the start of a name do not count. -/
def extension (p : Path) : String :=
  let stem := (p.name.toList.dropWhile (· == '.')).reverse
  match stem.dropWhile (· != '.') with
  | [] => ""
  | _ => String.ofList (Text.lowercase ('.' :: (stem.takeWhile (· != '.')).reverse))

end Path

/-- What a path leads to. A file can be made where a path is `vacant`: all but its last step is
there. A path is `blocked` when a step goes on from a file. -/
inductive Entry where
  | missing
  | vacant
  | folder
  | file (content : ByteArray)
  | blocked
  | nameTooLong
  | unnameable

structure Folder where
  files : List (String × ByteArray)

inductive Place where
  | within
  | above
  | file (content : ByteArray)

def nameLimit : Nat := 255

def pathLimit : Nat := 4095

/-- What the steps that are left lead to from a place. A name is looked up only in a folder. -/
def Folder.entryFrom (folder : Folder) : Place → List String → Entry
  | .within, [] | .above, [] => .folder
  | .file content, [] => .file content
  | .file _, _ :: _ => .blocked
  | place, step :: rest =>
      if step = ".." then folder.entryFrom .above rest
      else if nameLimit < step.utf8ByteSize then .nameTooLong
      else
        match place, folder.files.lookup step with
        | .within, some content => folder.entryFrom (.file content) rest
        | _, _ => if rest.isEmpty then .vacant else .missing

def Folder.entry (folder : Folder) (p : Path) : Entry :=
  if '\x00' ∈ p.toString.toList then .unnameable
  else if pathLimit < p.toString.utf8ByteSize then .nameTooLong
  else folder.entryFrom (if p.anchor = .here then .within else .above) p.steps

end StrokeFont.File
