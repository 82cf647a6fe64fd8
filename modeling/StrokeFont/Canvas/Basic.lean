import StrokeFont.Binary.Arithmetic
import StrokeFont.Raster

namespace StrokeFont

open Binary (Format Number roundHalfEven)

structure Color where
  red : Int
  green : Int
  blue : Int
  alpha : Int
  deriving DecidableEq, Repr

structure Pixel where
  red : UInt8
  green : UInt8
  blue : UInt8
  alpha : UInt8
  deriving DecidableEq, Repr, Inhabited

namespace Color

def black : Color := ⟨0, 0, 0, 255⟩

def yellow : Color := ⟨255, 255, 0, 255⟩

def components (c : Color) : List Int := [c.red, c.green, c.blue, c.alpha]

def isByte (n : Int) : Bool := 0 ≤ n && n ≤ 255

def byte (n : Int) : UInt8 := UInt8.ofNat (n % 256).toNat

def toPixel (c : Color) : Pixel := ⟨byte c.red, byte c.green, byte c.blue, byte c.alpha⟩

/-- The share of a colour in a blend and the share of what is below it. The alpha component is divided
in double precision; each share is then rounded to single precision. -/
def shares (alpha : Int) : Number × Number :=
  let share := Format.double.div (Format.double.nearest alpha) (Format.double.nearest 255)
  let rest := Format.double.sub (Format.double.nearest 1) share
  (Format.single.convert share, Format.single.convert rest)

def mix (shares : Number × Number) (source : Int) (below : UInt8) : UInt8 :=
  let single := Format.single
  let sum := single.add (single.mul (single.nearest source) shares.1)
    (single.mul (single.nearest below.toNat) shares.2)
  match sum.truncate with
  | .ok n => byte n
  | .error _ => 0

def cover (c : Color) (p : Pixel) : Pixel :=
  let s := shares c.alpha
  ⟨mix s c.red p.red, mix s c.green p.green, mix s c.blue p.blue, 255⟩

end Color

namespace Canvas

inductive Excess where
  | side
  | area
  | memory (width height : Nat)
  deriving DecidableEq, Repr

def largestCount : Nat := 9223372036854775807

def byteCount (width height : Nat) : Nat := 4 * (width * height)

/-- The sides are looked at before the area, and the area before the bytes that can be had. -/
def excess? (memory width height : Nat) : Option Excess :=
  if largestCount < max width height then some .side
  else if largestCount < byteCount width height then some .area
  else if memory < byteCount width height then some (.memory width height)
  else none

def threeDigits (num den : Nat) : String :=
  let hundredths := roundHalfEven (100 * num) den
  let tenths := roundHalfEven (10 * num) den
  if hundredths < 1000 then
    s!"{hundredths / 100}.{hundredths / 10 % 10}{hundredths % 10}"
  else if tenths < 1000 then s!"{tenths / 10}.{tenths % 10}"
  else s!"{roundHalfEven num den}."

def units : List String := ["bytes", "KiB", "MiB", "GiB", "TiB", "PiB", "EiB"]

/-- A number of bytes in the largest unit that leaves at least one of it. The quotient is taken in
double precision; one that rounds to a whole next unit is written in that. -/
def sizeText (bytes : Nat) : String :=
  let unit := bytes.log2 / 10
  let (num, den) := match Format.double.round false bytes (1 <<< (10 * unit)) with
    | .finite _ mantissa exponent => Number.ratio mantissa exponent
    | _ => (bytes, 1)
  let (unit, den) := if roundHalfEven num den = 1024 then (unit + 1, 1024 * den) else (unit, den)
  threeDigits num den ++ " " ++ units.getD unit ""

def Excess.message : Excess → String
  | side => "Maximum allowed dimension exceeded"
  | area =>
      "array is too big; `arr.size * arr.dtype.itemsize` is larger than the maximum possible size."
  | memory width height =>
      s!"Unable to allocate {sizeText (byteCount width height)} for an array with shape " ++
        s!"({height}, {width}, 4) and data type uint8"

end Canvas

/-- The pixels lie row by row from the top, each row from the left. -/
structure Canvas where
  width : Nat
  height : Nat
  pixels : Array Pixel
  size_eq : pixels.size = width * height

namespace Canvas

inductive Error where
  | emptySurface
  | excess (cause : Excess)
  | componentOutOfRange (n : Int)
  deriving DecidableEq, Repr

def Error.message : Error → String
  | .emptySurface => "width and height must be > 0"
  | .excess cause => cause.message
  | .componentOutOfRange n => s!"Python integer {n} out of bounds for uint8"

def filled (width height : Nat) (p : Pixel) : Canvas :=
  ⟨width, height, Array.replicate (width * height) p, Array.size_replicate⟩

def new (memory : Nat) (width height : Int) (color : Color) : Except Error Canvas :=
  if width ≤ 0 ∨ height ≤ 0 then .error .emptySurface
  else
    match excess? memory width.toNat height.toNat, color.components.find? (!Color.isByte ·) with
    | some cause, _ => .error (.excess cause)
    | none, some n => .error (.componentOutOfRange n)
    | none, none => .ok (filled width.toNat height.toNat color.toPixel)

def contains (c : Canvas) (p : Point) : Bool :=
  0 ≤ p.x && p.x < c.width && 0 ≤ p.y && p.y < c.height

def index (c : Canvas) (p : Point) : Nat := p.y.toNat * c.width + p.x.toNat

def get? (c : Canvas) (p : Point) : Option Pixel :=
  if c.contains p then c.pixels[c.index p]? else none

def modify (c : Canvas) (p : Point) (f : Pixel → Pixel) : Canvas :=
  if c.contains p then
    { c with
      pixels := c.pixels.modify (c.index p) f
      size_eq := by rw [Array.size_modify, c.size_eq] }
  else c

def rows (c : Canvas) : List (List Pixel) :=
  (List.range c.height).map fun y =>
    (c.pixels.extract (y * c.width) ((y + 1) * c.width)).toList

@[simp] theorem width_modify (c : Canvas) (p : Point) (f : Pixel → Pixel) :
    (c.modify p f).width = c.width := by
  unfold modify
  split <;> rfl

@[simp] theorem height_modify (c : Canvas) (p : Point) (f : Pixel → Pixel) :
    (c.modify p f).height = c.height := by
  unfold modify
  split <;> rfl

theorem contains_modify (c : Canvas) (p q : Point) (f : Pixel → Pixel) :
    (c.modify p f).contains q = c.contains q := by
  simp only [contains, width_modify, height_modify]

theorem contains_iff (c : Canvas) (p : Point) :
    c.contains p = true ↔ 0 ≤ p.x ∧ p.x < c.width ∧ 0 ≤ p.y ∧ p.y < c.height := by
  simp only [contains, Bool.and_eq_true, decide_eq_true_eq, and_assoc]

theorem index_inj (c : Canvas) {p q : Point} (hp : c.contains p = true) (hq : c.contains q = true)
    (h : c.index p = c.index q) : p = q := by
  rw [contains_iff] at hp hq
  obtain ⟨px, py⟩ := p
  obtain ⟨qx, qy⟩ := q
  simp only at hp hq
  simp only [index] at h
  have hx : px.toNat < c.width := by omega
  have hy : qx.toNat < c.width := by omega
  have hpos : 0 < c.width := by omega
  have hrow : px.toNat = qx.toNat := by
    have := congrArg (· % c.width) h
    simpa only [Nat.mul_add_mod_self_right, Nat.mod_eq_of_lt hx, Nat.mod_eq_of_lt hy] using this
  have hcol : py.toNat = qy.toNat := by
    have : py.toNat * c.width = qy.toNat * c.width := by omega
    exact Nat.eq_of_mul_eq_mul_right hpos this
  have h1 : px = qx := by omega
  have h2 : py = qy := by omega
  rw [h1, h2]

theorem get?_modify (c : Canvas) (p q : Point) (f : Pixel → Pixel) :
    (c.modify p f).get? q = if p = q then (c.get? q).map f else c.get? q := by
  by_cases hq : c.contains q = true
  · by_cases hp : c.contains p = true
    · have hm : (c.modify p f).pixels = c.pixels.modify (c.index p) f := by
        simp only [modify, hp, if_true]
      have hi : (c.modify p f).index q = c.index q := by
        simp only [index, width_modify]
      simp only [get?, contains_modify, hq, if_true, hm, hi, Array.getElem?_modify]
      by_cases h : p = q
      · simp only [h, if_true]
      · rw [if_neg fun he => h (c.index_inj hp hq he), if_neg h]
    · have hne : p ≠ q := fun h => hp (h ▸ hq)
      simp only [modify, hp, if_false, hne, Bool.false_eq_true]
  · simp only [get?, contains_modify, hq, if_false, Option.map_none, ite_self, Bool.false_eq_true]

theorem index_lt (c : Canvas) {p : Point} (hp : c.contains p = true) : c.index p < c.pixels.size := by
  rw [contains_iff] at hp
  rw [c.size_eq, index]
  have hx : p.x.toNat < c.width := by omega
  have hy : p.y.toNat < c.height := by omega
  calc p.y.toNat * c.width + p.x.toNat < p.y.toNat * c.width + c.width := by omega
    _ = (p.y.toNat + 1) * c.width := by rw [Nat.add_mul, Nat.one_mul]
    _ ≤ c.height * c.width := Nat.mul_le_mul_right _ hy
    _ = c.width * c.height := Nat.mul_comm _ _

theorem get?_filled (width height : Nat) (pixel : Pixel) (p : Point) :
    (filled width height pixel).get? p =
      if (filled width height pixel).contains p then some pixel else none := by
  unfold get?
  by_cases h : (filled width height pixel).contains p = true
  · have hi := index_lt _ h
    rw [if_pos h, if_pos h, Array.getElem?_eq_getElem hi]
    simp only [filled, Array.getElem_replicate]
  · rw [if_neg h, if_neg h]

end Canvas

end StrokeFont
