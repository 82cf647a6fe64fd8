import StrokeFont.Proofs.Glyph.Ink
import StrokeFont.Proofs.Raster
import StrokeFont.Proofs.Scale

namespace StrokeFont

namespace Scale

variable {fontSize u v : Int}

/-- What is known of a font size for which no length of a few units is rounded. -/
structure Exact (fontSize : Int) : Prop where
  pos : 0 < fontSize
  lt : fontSize < 2 ^ 49

theorem Exact.length (h : Exact fontSize) (h0 : 0 ≤ u) (hu : u ≤ 15) :
    length fontSize u = .ok (fontSize * u / 8) := by
  have hpos := h.pos
  have hlt := h.lt
  have hnonneg : 0 ≤ fontSize * u := Int.mul_nonneg hpos.le h0
  have hproduct : fontSize * u ≤ 2 ^ 53 :=
    calc fontSize * u ≤ 2 ^ 49 * 15 := Int.mul_le_mul hlt.le hu h0 (by decide)
      _ ≤ 2 ^ 53 := by decide
  rw [length_exact hpos (by omega) (by omega) (by omega), Int.tdiv_eq_ediv_of_nonneg hnonneg]

theorem Exact.fits (h : Exact fontSize) (h0 : 0 ≤ u) (hu : u ≤ 15) : fits fontSize u = true :=
  fits_of_length (h.length h0 hu)

theorem Exact.pixels (h : Exact fontSize) (h0 : 0 ≤ u) (hu : u ≤ 15) :
    pixels fontSize u = fontSize * u / 8 :=
  pixels_of_length (h.length h0 hu)

theorem Exact.pixels_nonneg (h : Exact fontSize) (h0 : 0 ≤ u) (hu : u ≤ 15) :
    0 ≤ Scale.pixels fontSize u := by
  rw [h.pixels h0 hu]
  exact Int.ediv_nonneg (Int.mul_nonneg h.pos.le h0) (by decide)

theorem Exact.pixels_mono (h : Exact fontSize) (h0 : 0 ≤ u) (huv : u ≤ v) (hv : v ≤ 15) :
    Scale.pixels fontSize u ≤ Scale.pixels fontSize v := by
  rw [h.pixels h0 (huv.trans hv), h.pixels (h0.trans huv) hv]
  exact Int.ediv_le_ediv (by decide) (Int.mul_le_mul_of_nonneg_left huv h.pos.le)

theorem Exact.pixels_em (h : Exact fontSize) : Scale.pixels fontSize 8 = fontSize := by
  rw [h.pixels (by decide) (by decide), Int.mul_ediv_cancel _ (by decide)]

end Scale

namespace Glyph

def inEm (advance : Int) (p : Point) : Bool :=
  0 ≤ p.x && p.x ≤ advance && Scale.baseline ≤ p.y && p.y ≤ Scale.baseline + 8

theorem inEm_iff {advance : Int} {p : Point} : inEm advance p = true ↔
    0 ≤ p.x ∧ p.x ≤ advance ∧ Scale.baseline ≤ p.y ∧ p.y ≤ Scale.baseline + 8 := by
  simp only [inEm, Bool.and_eq_true, decide_eq_true_eq, and_assoc]

def Primitive.points : Primitive → List Point
  | line start finish => [start, finish]
  | dot center => [center]

theorem Primitive.fits_iff {fontSize : Int} {p : Primitive} :
    p.fits fontSize = true ↔ ∀ q ∈ p.points, Scale.pointFits fontSize q = true := by
  cases p with
  | line start finish => simp [fits, points]
  | dot center => simp [fits, points]

/-- Whether all of a glyph stands above its advance and inside the em. -/
def Trace.inEm (t : Trace) : Bool :=
  0 ≤ t.advance && t.advance ≤ 15 &&
    t.primitives.all fun p => p.points.all (Glyph.inEm t.advance)

section Place

variable {fontSize advance : Int} {p : Point}

theorem pointFits_of_inEm (h : Scale.Exact fontSize) (hadvance : advance ≤ 15)
    (hp : inEm advance p = true) : Scale.pointFits fontSize p = true := by
  obtain ⟨hleft, hright, hbottom, htop⟩ := inEm_iff.1 hp
  rw [Scale.pointFits, Bool.and_eq_true]
  exact ⟨h.fits hleft (hright.trans hadvance), h.fits (by omega) (by omega)⟩

theorem place_within (h : Scale.Exact fontSize) (hadvance : advance ≤ 15) (hp : inEm advance p = true)
    (origin : Point) :
    (Scale.place fontSize origin p).Within ⟨origin.x, origin.y - fontSize⟩
      ⟨origin.x + Scale.pixels fontSize advance, origin.y⟩ := by
  obtain ⟨hleft, hright, hbottom, htop⟩ := inEm_iff.1 hp
  have hx := h.pixels_nonneg hleft (hright.trans hadvance)
  have hx' := h.pixels_mono hleft hright hadvance
  have hy := h.pixels_nonneg (u := p.y - Scale.baseline) (by omega) (by omega)
  have hy' := h.pixels_mono (u := p.y - Scale.baseline) (v := 8) (by omega) (by omega) (by decide)
  rw [h.pixels_em] at hy'
  constructor <;> simp only [Scale.place] <;> omega

end Place

end Glyph

/-- What the pen and the dots of a glyph add on its sides, but for the width of the pen, stays in a
margin. -/
structure Settings.FitsMargin (s : Settings) (margin : Int) : Prop where
  pen : 1 ≤ s.strokeWidth
  block : Raster.blockHeight s.strokeWidth - 1 ≤ margin
  center : 0 ≤ s.dotRadius
  dot : s.dotRadius ≤ margin

namespace Glyph

variable {settings : Settings} {margin : Int} {t : Trace}

def lowest (settings : Settings) (margin : Int) (origin : Point) : Point :=
  ⟨origin.x - margin, origin.y - settings.fontSize - margin⟩

def highest (settings : Settings) (margin advance : Int) (origin : Point) : Point :=
  ⟨origin.x + advance + settings.strokeWidth - 1 + margin, origin.y + margin⟩

theorem Primitive.ink_within (h : Scale.Exact settings.fontSize) (hmargin : settings.FitsMargin margin)
    {advance : Int} (hadvance : advance ≤ 15) {p : Primitive}
    (hp : ∀ q ∈ p.points, inEm advance q = true) (origin : Point) :
    ∀ pixel ∈ p.ink settings origin, pixel.Within (lowest settings margin origin)
      (highest settings margin (Scale.pixels settings.fontSize advance) origin) := by
  obtain ⟨hpen, hblock, hcenter, hdot⟩ := hmargin
  have hheight := Raster.blockHeight_pos hpen
  intro pixel hpixel
  cases p with
  | line start finish =>
      have hstart := place_within h hadvance (hp start List.mem_cons_self) origin
      have hfinish := place_within h hadvance
        (hp finish (List.mem_cons_of_mem _ List.mem_cons_self)) origin
      obtain ⟨hleft, hright, htop, hbottom⟩ := Raster.line_within hpen hstart hfinish pixel hpixel
      simp only [Point.add_x, Point.add_y] at hleft hright htop hbottom
      constructor <;> simp only [lowest, highest] <;> omega
  | dot center =>
      have hplace := place_within h hadvance (hp center List.mem_cons_self) origin
      obtain ⟨hleft, hright, htop, hbottom⟩ := Raster.dot_within hplace pixel hpixel
      simp only [Point.add_x, Point.add_y] at hleft hright htop hbottom
      constructor <;> simp only [lowest, highest] <;> omega

theorem Primitive.fits_of_points {fontSize advance : Int} (h : Scale.Exact fontSize)
    (hadvance : advance ≤ 15) {p : Primitive} (hp : ∀ q ∈ p.points, inEm advance q = true) :
    p.fits fontSize = true :=
  fits_iff.2 fun q hq => pointFits_of_inEm h hadvance (hp q hq)

namespace Trace

theorem inEm_iff : t.inEm = true ↔ 0 ≤ t.advance ∧ t.advance ≤ 15 ∧
    ∀ p ∈ t.primitives, ∀ q ∈ p.points, Glyph.inEm t.advance q = true := by
  simp only [inEm, Bool.and_eq_true, decide_eq_true_eq, List.all_eq_true, and_assoc]

theorem fits_of_inEm {fontSize : Int} (h : Scale.Exact fontSize) (ht : t.inEm = true) :
    t.fits fontSize = true := by
  obtain ⟨hnonneg, hle, hpoints⟩ := inEm_iff.1 ht
  rw [fits, Bool.and_eq_true, List.all_eq_true]
  exact ⟨fun p hp => Primitive.fits_of_points h hle (hpoints p hp), h.fits hnonneg hle⟩

theorem ink_within (h : Scale.Exact settings.fontSize) (hmargin : settings.FitsMargin margin)
    (ht : t.inEm = true) (origin : Point) :
    ∀ pixel ∈ t.ink settings origin, pixel.Within (lowest settings margin origin)
      (highest settings margin (Scale.pixels settings.fontSize t.advance) origin) := by
  obtain ⟨-, hle, hpoints⟩ := inEm_iff.1 ht
  intro pixel hpixel
  obtain ⟨p, hp, hpixel⟩ := List.mem_flatMap.1 hpixel
  exact Primitive.ink_within h hmargin hle (hpoints p hp) origin pixel hpixel

end Trace

end Glyph

end StrokeFont
