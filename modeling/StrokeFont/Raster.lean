import StrokeFont.Binary.Arithmetic

namespace StrokeFont

open Binary (ConversionError Format Number)

structure Point where
  x : Int
  y : Int
  deriving DecidableEq, Repr, Inhabited

namespace Point

instance : Add Point := ⟨fun p q => ⟨p.x + q.x, p.y + q.y⟩⟩

@[simp] theorem add_x (p q : Point) : (p + q).x = p.x + q.x := rfl

@[simp] theorem add_y (p q : Point) : (p + q).y = p.y + q.y := rfl

def zero : Point := ⟨0, 0⟩

end Point

namespace Scale

def unitsPerEm : Number := Format.double.nearest 8

def baseline : Int := 2

/-- A length in pixels: `fontSize * units / 8` in doubles, without its fraction. -/
def length (fontSize units : Int) : Except ConversionError Int := do
  let size ← Format.double.ofInt fontSize
  let units ← Format.double.ofInt units
  (Format.double.div (Format.double.mul size units) unitsPerEm).truncate

def height (fontSize y : Int) : Except ConversionError Int :=
  length fontSize (y - baseline)

def toDevice (fontSize : Int) (origin p : Point) : Except ConversionError Point := do
  let right ← length fontSize p.x
  let up ← height fontSize p.y
  return ⟨origin.x + right, origin.y - up⟩

end Scale

namespace Raster

/-- What stays fixed along a line: its end, its extents in both directions, the vertical one counted
negative, and the unit steps toward its end. -/
structure Course where
  finish : Point
  dx : Int
  dy : Int
  sx : Int
  sy : Int

namespace Course

def between (start finish : Point) : Course where
  finish := finish
  dx := (finish.x - start.x).natAbs
  dy := -((finish.y - start.y).natAbs : Int)
  sx := if start.x < finish.x then 1 else -1
  sy := if start.y < finish.y then 1 else -1

def step (c : Course) (pixel : Point) (error : Int) : Point × Int :=
  -- Both tests look at the error before either coordinate moves.
  let right := 2 * error > c.dy
  let down := 2 * error < c.dx
  (⟨if right then pixel.x + c.sx else pixel.x, if down then pixel.y + c.sy else pixel.y⟩,
    error + (if right then c.dy else 0) + (if down then c.dx else 0))

def walk (c : Course) : Nat → Point → Int → List Point
  | 0, pixel, _ => [pixel]
  | steps + 1, pixel, error =>
      if pixel = c.finish then [pixel]
      else
        let (next, error) := c.step pixel error
        pixel :: c.walk steps next error

end Course

/-- The pixels of a thin line. Each step moves the coordinate that has farther to go, so the longer
extent bounds the steps. -/
def thinLine (start finish : Point) : List Point :=
  let c := Course.between start finish
  c.walk (max (finish.x - start.x).natAbs (finish.y - start.y).natAbs) start (c.dx + c.dy)

def blockHeight (width : Int) : Int := (width + 2) / 2

/-- The pixels of a stroke at one pixel of its line, column by column. The block grows to the right
and downward from that pixel. -/
def block (width : Int) (corner : Point) : List Point :=
  (List.range width.toNat).flatMap fun i =>
    (List.range (blockHeight width).toNat).map fun j => corner + ⟨i, j⟩

def line (width : Int) (start finish : Point) : List Point :=
  if 1 < width then (thinLine start finish).flatMap (block width) else thinLine start finish

def offsets (radius : Int) : List Int :=
  (List.range (2 * radius + 1).toNat).map fun (k : Nat) => (k : Int) - radius

def dot (center : Point) (radius : Int) : List Point :=
  (offsets radius).flatMap fun dy =>
    ((offsets radius).filter fun dx => dx * dx + dy * dy ≤ radius * radius).map fun dx =>
      center + ⟨dx, dy⟩

end Raster

end StrokeFont
