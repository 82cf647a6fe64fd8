import StrokeFont.Command.Picture

namespace StrokeFont.Main

def usage : String :=
  "usage: strokefont [-h] [--config CONFIG] [--size SIZE] [--stroke STROKE] [--dot-size DOT_SIZE]\n" ++
    "                  [--max-width MAX_WIDTH] [--margin MARGIN] [--verbose]\n" ++
    "                  text out"

/-- The most bytes that a canvas may take. -/
def memory : Nat := 8589934592

def isFolder (path : File.Path) : IO Bool := do
  try return ← (← IO.FS.realPath path.toString).isDir
  catch _ => return false

def content? (path : File.Path) : IO (Option ByteArray) := do
  try return some (← IO.FS.readBinFile path.toString)
  catch _ => return none

def entryAt (path : File.Path) : IO File.Entry := do
  if ← isFolder path then return .folder
  if let some content ← content? path then return .file content
  if path.steps.any fun step => File.nameLimit < step.utf8ByteSize then return .nameTooLong
  if ← isFolder path.parent then return .vacant
  let ancestors := (List.range path.steps.length).map fun n => { path with steps := path.steps.take n }
  return if ← ancestors.anyM fun p => return (← content? p).isSome then .blocked else .missing

def log (verbose : Bool) (notes : List Note) : IO Unit := do
  for note in notes do
    match note.severity with
    | .warning => IO.eprintln s!"WARNING: {note.text}"
    | .debug => if verbose then IO.eprintln s!"DEBUG: {note.text}"

def fail (message : String) : IO UInt32 := do
  IO.eprintln message
  return 1

def failWith (cause : Command.Failure) : IO UInt32 :=
  fail (cause.message?.getD "the settings file cannot be read")

def write (target : Command.Target) (picture : Command.Picture) : IO UInt32 := do
  IO.FS.writeBinFile target.path.toString ⟨(target.encode picture.painter.canvas).toArray⟩
  match target.report picture.frame with
  | .error cause => failWith cause
  | .ok text =>
      IO.println text
      return 0

def paint (r : Command.Request) : IO UInt32 := do
  let entry ← match r.config with
    | .value path => entryAt (.ofString path)
    | _ => pure .missing
  match r.settings fun _ => entry with
  | .error cause => failWith cause
  | .ok settings =>
      let painted := r.picture memory settings
      log r.verbose painted.notes
      match painted.result with
      | .error cause => failWith cause
      | .ok picture =>
          let entry ← match r.out with
            | some out => entryAt (.ofString out)
            | none => pure .missing
          match r.target Image.formats fun _ => entry with
          | .error cause => failWith cause
          | .ok target => write target picture

end StrokeFont.Main

def main (arguments : List String) : IO UInt32 := do
  match StrokeFont.Command.parse arguments with
  | .help =>
      IO.println StrokeFont.Main.usage
      return 0
  | .usage =>
      IO.eprintln StrokeFont.Main.usage
      return 2
  | .request r => StrokeFont.Main.paint r
