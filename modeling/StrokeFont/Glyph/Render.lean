import StrokeFont.Drawing
import StrokeFont.Glyph.Reading
import StrokeFont.Settings.Basic

namespace StrokeFont.Glyph

open Binary (ConversionError)

/-- Notes every stray character, also of a program that turns out to be malformed. -/
def trace (program : String) : Noted Malformed Trace where
  notes := (Mode.opcode.strays 0 program.toList).map fun (c, offset) => .strayCharacter c offset
  result :=
    match instructions? program.toList with
    | some instructions => .ok (execute instructions)
    | none => .error (.atEnd program)

def trace? {ε : Type} (program : String) : Noted ε (Option Trace) :=
  match trace program with
  | ⟨notes, .ok t⟩ => ⟨notes, .ok (some t)⟩
  | ⟨notes, .error cause⟩ => ⟨notes ++ [.glyphSkipped cause], .ok none⟩

/-- The operand after the first letter `a` wherever it stands, or 0 without that letter. The rest of
the program is not read. -/
def firstAdvance (program : String) : Except Malformed Int :=
  match program.toList.dropWhile (· != 'a') with
  | [] => .ok 0
  | _ :: rest =>
      match operand? rest with
      | some (n, _) => .ok n
      | none => .error (.atEnd program)

def Primitive.paint (settings : Settings) (origin : Point) : Primitive → Drawing Unit
  | .line start finish => do
      let start ← Scale.toDevice settings.fontSize origin start
      let finish ← Scale.toDevice settings.fontSize origin finish
      Drawing.paint (Raster.line settings.strokeWidth start finish)
  | .dot center => do
      let center ← Scale.toDevice settings.fontSize origin center
      Drawing.paint (Raster.dot center settings.dotRadius)

/-- Paints a trace and returns its advance in pixels, which is scaled last. -/
def Trace.paint (settings : Settings) (origin : Point) (t : Trace) : Drawing Int := do
  t.primitives.forM (Primitive.paint settings origin)
  Scale.length settings.fontSize t.advance

def render (settings : Settings) (origin : Point) (program : String) : Drawing Int := do
  match ← (trace? program : Noted ConversionError (Option Trace)) with
  | none => return 0
  | some t => t.paint settings origin

def width (settings : Settings) (program : String) : Noted ConversionError Int :=
  match firstAdvance program with
  | .ok units => ⟨[], Scale.length settings.fontSize units⟩
  | .error cause => ⟨[.glyphWithoutWidth cause], .ok 0⟩

end StrokeFont.Glyph
