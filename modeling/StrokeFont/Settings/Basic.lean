import StrokeFont.Binary.Arithmetic
import StrokeFont.Decimal
import StrokeFont.Table

namespace StrokeFont

open Binary (ConversionError Format Number)

structure Settings where
  fontSize : Int
  dotRadius : Int
  strokeWidth : Int
  lineSpacing : Number
  deriving DecidableEq, Repr

namespace Settings

def leastFontSize : Int := 8

def leastDotRadius : Int := 0

def leastStrokeWidth : Int := 1

def clamped (fontSize dotRadius strokeWidth : Int) (lineSpacing : Number) : Settings where
  fontSize := max leastFontSize fontSize
  dotRadius := max leastDotRadius dotRadius
  strokeWidth := max leastStrokeWidth strokeWidth
  lineSpacing := lineSpacing

def defaultFontSize : Int := 16

def defaultDotRadius : Int := 0

def defaultStrokeWidth : Int := 1

def defaultLineSpacing : Number := Decimal.toDouble false 12 (-1)

def default : Settings :=
  clamped defaultFontSize defaultDotRadius defaultStrokeWidth defaultLineSpacing

instance : Inhabited Settings := ⟨default⟩

def setFontSize (s : Settings) (size : Int) : Settings :=
  { s with fontSize := max leastFontSize size }

/-- A dot of size one is a single pixel, a disc of radius zero. -/
def setDotSize (s : Settings) (size : Int) : Settings :=
  { s with dotRadius := max leastDotRadius (size - 1) }

def setStrokeWidth (s : Settings) (width : Int) : Settings :=
  { s with strokeWidth := max leastStrokeWidth width }

def setLineSpacing (s : Settings) (spacing : Number) : Settings :=
  { s with lineSpacing := spacing }

def lineHeightFactor : Number := Format.double.round false 5 4

def lineHeight (s : Settings) : Except ConversionError Int := do
  let size ← Format.double.ofInt s.fontSize
  (Format.double.mul (Format.double.mul s.lineSpacing size) lineHeightFactor).truncate

def valueEq (s t : Settings) : Bool :=
  s.fontSize == t.fontSize && s.dotRadius == t.dotRadius && s.strokeWidth == t.strokeWidth &&
    s.lineSpacing.valueEq t.lineSpacing

def spacingStyle : Decimal.Style := ⟨-4, 15, 2⟩

def describe (s : Settings) : String :=
  s!"RenderConfig(font_size={s.fontSize}, dot_radius={s.dotRadius}, " ++
    s!"stroke_width={s.strokeWidth}, line_spacing={spacingStyle.render s.lineSpacing})"

/-- The keys of a table differ from each other; their order has no meaning. -/
inductive Value where
  | integer (n : Int)
  | float (x : Number)
  | boolean (b : Bool)
  | text (s : String)
  | null
  | moment
  | list (items : List Value)
  | table (entries : List (String × Value))

/-- The settings that a table may hold, in the order in which they are read. -/
inductive Key where
  | fontSize
  | dotSize
  | strokeWidth
  | lineSpacing
  deriving DecidableEq, Repr

namespace Key

def all : List Key := [fontSize, dotSize, strokeWidth, lineSpacing]

def name : Key → String
  | fontSize => "font_size"
  | dotSize => "dot_size"
  | strokeWidth => "stroke_width"
  | lineSpacing => "line_spacing"

def isName (s : String) : Bool := all.any (·.name == s)

end Key

inductive Fault where
  | notTable
  | unknownKeys (names : List String)
  | notInteger (key : Key)
  | notNumber (key : Key)
  | unrepresentable (cause : ConversionError)
  deriving DecidableEq, Repr

def Fault.message : Fault → String
  | notTable => "`render` must be a table"
  | unknownKeys names => "unknown render settings: " ++ ", ".intercalate names
  | notInteger key => s!"`{key.name}` must be an integer"
  | notNumber key => s!"`{key.name}` must be a number"
  | unrepresentable cause => cause.message

namespace Value

def toInteger (key : Key) : Value → Except Fault Int
  | integer n => .ok n
  | _ => .error (.notInteger key)

def toNumber (key : Key) : Value → Except Fault Number
  | integer n => (Format.double.ofInt n).mapError .unrepresentable
  | float x => .ok x
  | _ => .error (.notNumber key)

end Value

def Key.set (s : Settings) (value : Value) : Key → Except Fault Settings
  | fontSize => return s.setFontSize (← value.toInteger fontSize)
  | dotSize => return s.setDotSize (← value.toInteger dotSize)
  | strokeWidth => return s.setStrokeWidth (← value.toInteger strokeWidth)
  | lineSpacing => return s.setLineSpacing (← value.toNumber lineSpacing)

def sortNames (names : List String) : List String :=
  names.mergeSort fun a b => !decide (b < a)

/-- Unknown keys are reported before any value is looked at. -/
def ofTable (entries : List (String × Value)) : Except Fault Settings :=
  match (entries.map (·.1)).filter (!Key.isName ·) with
  | [] =>
      Key.all.foldlM (fun s key =>
        match Keyed.find? key.name entries with
        | none => .ok s
        | some value => key.set s value) default
  | unknown => .error (.unknownKeys (sortNames unknown))

def ofValue : Value → Except Fault Settings
  | .table entries => ofTable entries
  | _ => .error .notTable

end Settings

end StrokeFont
