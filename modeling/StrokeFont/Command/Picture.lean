import StrokeFont.Canvas.Painter
import StrokeFont.Command.Arguments
import StrokeFont.Image
import StrokeFont.Layout
import StrokeFont.Settings.Load

namespace StrokeFont.Command

open Binary (ConversionError)

inductive Obstacle where
  | missingFolder
  | notAFolder
  | folder
  | nameTooLong
  deriving DecidableEq, Repr

def Obstacle.message : Obstacle → String
  | missingFolder => "[Errno 2] No such file or directory"
  | notAFolder => "[Errno 20] Not a directory"
  | folder => "[Errno 21] Is a directory"
  | nameTooLong => "[Errno 36] File name too long"

inductive Failure where
  | settings (cause : Settings.LoadError)
  | emptyOption (f : Flag)
  | conversion (cause : Binary.ConversionError)
  | canvas (cause : Canvas.Excess)
  | noOutput
  | unknownExtension (extension : String)
  | refusal (message : String)
  | output (path : File.Path) (obstacle : Obstacle)
  | unnameableOutput
  | sizeTooLong

/-- An option that was left empty fails by what its value is needed for. -/
def emptyMessage : Flag → String
  | .dotSize => "unsupported operand type(s) for -: 'list' and 'int'"
  | .margin => "unsupported operand type(s) for +: 'int' and 'list'"
  | .size | .stroke | .maxWidth => "'>' not supported between instances of 'list' and 'int'"
  | .config | .help | .verbose => "expected str, bytes or os.PathLike object, not list"

def Failure.message? : Failure → Option String
  | settings cause => cause.message?
  | emptyOption f => some (emptyMessage f)
  | conversion cause => some cause.message
  | canvas cause => some cause.message
  | noOutput => some (emptyMessage .config)
  | unknownExtension extension => some s!"unknown file extension: {extension}"
  | refusal message => some message
  | output path obstacle => some s!"{obstacle.message}: {Text.quoted path.toString}"
  | unnameableOutput => some "embedded null byte"
  | sizeTooLong =>
      some (s!"Exceeds the limit ({Text.digitLimit} digits) for integer string conversion; " ++
        "use sys.set_int_max_str_digits() to increase the limit")

def Given.get {α : Type} (f : Flag) (default : α) : Given α → Except Failure α
  | absent => .ok default
  | empty => .error (.emptyOption f)
  | value a => .ok a

def sampleGlyphs : GlyphStore where
  programs := [
    (' ', "a4"),
    ('.', "a3 M12d"),
    ('!', "a3 M14 P18 M12d"),
    ('E', "a6 M58 P18 P12 P52 M15 P45"),
    ('H', "a6 M12 P18 M52 P58 M15 P55"),
    ('I', "a3 M12 P18"),
    ('L', "a6 M18 P12 P52"),
    ('O', "a7 M13 P17 p11 p30 p1-1 P53 p-1-1 p-30 p-11"),
    ('T', "a6 M08 P58 M38 P32"),
    ('a', "a6 M46 p0-4 p-30 p-11 p02 p11 p20 p1-1 M18d M38d")].map fun (c, program) =>
      ((c.toNat : Int), program)

def unescape : List Char → List Char
  | '\\' :: 'n' :: rest => '\n' :: unescape rest
  | c :: rest => c :: unescape rest
  | [] => []

def Request.lines (r : Request) : String := String.ofList (unescape r.text.toList)

def Given.adjust (given : Given Int) (f : Flag) (set : Settings → Int → Settings) (s : Settings) :
    Except Failure Settings :=
  match given with
  | absent => .ok s
  | empty => .error (.emptyOption f)
  | value n => .ok (set s n)

def Request.fileSettings (r : Request) (entry : File.Path → File.Entry) : Except Failure Settings :=
  match r.config with
  | .absent => .ok .default
  | .empty => .error (.emptyOption .config)
  | .value file =>
      let path := File.Path.ofString file
      (Settings.load path (entry path)).mapError .settings

/-- Sizes given as options win over those of the settings file. -/
def Request.settings (r : Request) (entry : File.Path → File.Entry) : Except Failure Settings := do
  let s ← r.fileSettings entry
  let s ← r.size.adjust .size Settings.setFontSize s
  let s ← r.stroke.adjust .stroke Settings.setStrokeWidth s
  r.dotSize.adjust .dotSize Settings.setDotSize s

structure Sheet where
  text : String
  settings : Settings
  maxWidth : Int
  margin : Int

/-- The computed size of a picture. The canvas has at least one pixel each way. -/
structure Frame where
  width : Int
  height : Int
  deriving DecidableEq, Repr

namespace Frame

def columns (f : Frame) : Nat := (max 1 f.width).toNat

def rows (f : Frame) : Nat := (max 1 f.height).toNat

def canvas (f : Frame) : Canvas := .filled f.columns f.rows Color.black.toPixel

end Frame

namespace Sheet

def measure (s : Sheet) : Noted ConversionError Int :=
  Layout.measure (some sampleGlyphs) s.settings s.maxWidth s.text

def render (s : Sheet) (origin : Point) : Drawing Int :=
  Layout.render (some sampleGlyphs) s.settings s.maxWidth origin s.text

def frame (s : Sheet) : Noted ConversionError Frame := do
  let measured ← s.measure
  let extent ← (s.render .zero).unpainted
  return ⟨measured + 2 * s.margin + s.settings.strokeWidth, extent + 2 * s.margin⟩

def origin (s : Sheet) : Point := ⟨s.margin, s.margin + s.settings.fontSize⟩

def paint (s : Sheet) (f : Frame) : Noted ConversionError CanvasPainter := do
  let final := s.render s.origin
  let _ ← final.unpainted
  return (CanvasPainter.new f.canvas .yellow).paintAll final.pixels

end Sheet

def throughGlyph : List Char → Option (List Char)
  | [] => none
  | c :: rest =>
      if (sampleGlyphs.lookup? c.toNat).isSome then some [c]
      else (throughGlyph rest).map (c :: ·)

/-- What is painted for a request. A maximal width that was left empty is found out at the first
glyph, and a margin that was left empty when the text has been measured. -/
def Request.sheet (r : Request) (settings : Settings) : Noted Failure Sheet := do
  let measured (text : String) (maxWidth : Int) : Noted Failure Int :=
    (Sheet.measure ⟨text, settings, maxWidth, 0⟩).mapError .conversion
  let maxWidth ← match r.maxWidth.get .maxWidth 0, throughGlyph r.lines.toList with
    | .ok n, _ => pure n
    | .error _, none => pure 0
    | .error cause, some text => do
        let _ ← measured (String.ofList text) 0
        Except.error cause
  let margin ← match r.margin.get .margin 8 with
    | .ok n => pure n
    | .error cause => do
        let _ ← measured r.lines maxWidth
        Except.error cause
  return ⟨r.lines, settings, maxWidth, margin⟩

structure Picture where
  frame : Frame
  painter : CanvasPainter

def Request.picture (r : Request) (memory : Nat) (settings : Settings) : Noted Failure Picture := do
  let sheet ← r.sheet settings
  let frame ← sheet.frame.mapError .conversion
  match Canvas.excess? memory frame.columns frame.rows with
  | some cause => Except.error (Failure.canvas cause)
  | none => do
      let painter ← (sheet.paint frame).mapError .conversion
      return ⟨frame, painter⟩

structure Target where
  path : File.Path
  encode : Canvas → List UInt8

def obstacle? (path : File.Path) : File.Entry → Option Failure
  | .vacant | .file _ => none
  | .missing => some (.output path .missingFolder)
  | .blocked => some (.output path .notAFolder)
  | .folder => some (.output path .folder)
  | .nameTooLong => some (.output path .nameTooLong)
  | .unnameable => some .unnameableOutput

/-- Where a picture goes; `entry` is what a path leads to. The extension decides the format. -/
def Request.target (r : Request) (formats : List Image.Format) (entry : File.Path → File.Entry) :
    Except Failure Target :=
  match r.out with
  | none => .error .noOutput
  | some out =>
      let path := File.Path.ofString out
      match formats.find? (·.extensions.contains path.extension) with
      | none => .error (.unknownExtension path.extension)
      | some format =>
          match format.support, obstacle? path (entry path) with
          | .refusedUnopened message, _ => .error (.refusal message)
          | _, some failure => .error failure
          | .refusedOpen message, none => .error (.refusal message)
          | .taken encode, none => .ok ⟨path, encode⟩

def Target.report (t : Target) (f : Frame) : Except Failure String :=
  let digits (n : Int) : Nat := (toString n.natAbs).length
  if Text.digitLimit < max (digits f.width) (digits f.height) then .error .sizeTooLong
  else .ok s!"wrote {t.path.toString} ({f.width}x{f.height})"

end StrokeFont.Command
