import StrokeFont.Proofs.Canvas.Order

namespace StrokeFont

namespace Color

open Binary (Number)
open Binary.Format (single)

variable {red green blue : UInt8}

def solid (red green blue : UInt8) : Color := ⟨red.toNat, green.toNat, blue.toNat, 255⟩

theorem shares_solid : single.Denotes (shares 255).1 false 1 ∧ single.Denotes (shares 255).2 false 0 := by
  constructor
  · refine ⟨2 ^ 23, -23, by decide +kernel, ?_, by decide, by decide, by decide⟩
    norm_num
  · refine ⟨0, -149, by decide +kernel, ?_, by decide, by decide, by decide⟩
    norm_num

theorem mix_of_shares {shares : Number × Number} (hpen : single.Denotes shares.1 false 1)
    (hrest : single.Denotes shares.2 false 0) (source below : UInt8) :
    mix shares source.toNat below = source := by
  -- Nothing is rounded: not the products with one and zero, and not their sum.
  have hsource := holds_byte source
  have hzero : single.Holds 0 := hrest.holds
  have hover := Binary.Format.mul_of_holds (denotes_byte source) hpen (by rwa [mul_one])
  have hunder := Binary.Format.mul_of_holds (denotes_byte below) hrest (by rwa [mul_zero])
  have hsum := Binary.Format.add_of_holds hover hunder (by rwa [mul_one, mul_zero, add_zero])
  rw [mul_one, mul_zero, add_zero] at hsum
  have htruncate := hsum.truncate
  rw [Nat.floor_natCast] at htruncate
  simp only [mix, htruncate]
  exact byte_toNat source

theorem cover_solid (pixel : Pixel) : (solid red green blue).cover pixel = ⟨red, green, blue, 255⟩ := by
  obtain ⟨hpen, hrest⟩ := shares_solid
  simp only [cover, solid, mix_of_shares hpen hrest]

theorem iterate_cover_solid {n : Nat} (hn : n ≠ 0) (pixel : Pixel) :
    (solid red green blue).cover^[n] pixel = ⟨red, green, blue, 255⟩ := by
  obtain ⟨k, rfl⟩ := Nat.exists_eq_succ_of_ne_zero hn
  rw [Function.iterate_succ_apply', cover_solid]

end Color

theorem Canvas.exists_get? {c : Canvas} {p : Point} (h : c.contains p = true) :
    ∃ pixel, c.get? p = some pixel :=
  ⟨_, by rw [get?, if_pos h, Array.getElem?_eq_getElem (c.index_lt h)]⟩

namespace CanvasPainter

variable {painter : CanvasPainter} {red green blue : UInt8} {points others : List Point} {p : Point}

theorem get?_paintAll_of_mem (hpen : painter.pen = .solid red green blue)
    (hp : painter.canvas.contains p = true) (h : p ∈ points) :
    (painter.paintAll points).canvas.get? p = some ⟨red, green, blue, 255⟩ := by
  obtain ⟨pixel, hpixel⟩ := Canvas.exists_get? hp
  have hcount : points.count p ≠ 0 := (List.count_pos_iff.2 h).ne'
  rw [get?_paintAll, hpixel, hpen, Option.map_some, Color.iterate_cover_solid hcount]

theorem paintAll_canvas_congr (hpen : painter.pen = .solid red green blue)
    (h : ∀ p, painter.canvas.contains p = true → (p ∈ points ↔ p ∈ others)) :
    (painter.paintAll others).canvas = (painter.paintAll points).canvas := by
  obtain ⟨hwidth, hheight⟩ := painter.paintAll_size points
  obtain ⟨hwidth', hheight'⟩ := painter.paintAll_size others
  apply Canvas.ext_get? (hwidth'.trans hwidth.symm) (hheight'.trans hheight.symm)
  intro p
  by_cases hp : painter.canvas.contains p = true
  · by_cases hmem : p ∈ points
    · rw [get?_paintAll_of_mem hpen hp hmem, get?_paintAll_of_mem hpen hp ((h p hp).1 hmem)]
    · have hmem' : p ∉ others := fun hmem' => hmem ((h p hp).2 hmem')
      rw [get?_paintAll_of_not_mem painter hmem, get?_paintAll_of_not_mem painter hmem']
  · rw [get?_paintAll, get?_paintAll, Canvas.get?, if_neg hp, Option.map_none, Option.map_none]

/-- Where a canvas is painted with an opaque pen, it has the colour of the pen, and elsewhere what it had
before. So the canvas depends only on which of its pixels are named, in whatever order, however often and
with whatever points beside it. -/
theorem overlap_is_harmless (canvas : Canvas) (red green blue : UInt8) (points : List Point) :
    let painter : CanvasPainter := .new canvas ⟨red.toNat, green.toNat, blue.toNat, 255⟩
    let inside (p : Point) : Prop := 0 ≤ p.x ∧ p.x < canvas.width ∧ 0 ≤ p.y ∧ p.y < canvas.height
    let after := (painter.paintAll points).canvas
    (∀ p, inside p → p ∈ points → after.get? p = some ⟨red, green, blue, 255⟩) ∧
      (∀ p, p ∉ points → after.get? p = canvas.get? p) ∧
      ∀ others, (∀ p, inside p → (p ∈ points ↔ p ∈ others)) →
        (painter.paintAll others).canvas = after := by
  intro painter inside after
  have hpen : painter.pen = .solid red green blue := rfl
  have hinside (p : Point) : painter.canvas.contains p = true ↔ inside p := canvas.contains_iff p
  refine ⟨?_, ?_, ?_⟩
  · intro p hp hmem
    exact get?_paintAll_of_mem hpen ((hinside p).2 hp) hmem
  · intro p hmem
    exact get?_paintAll_of_not_mem painter hmem
  · intro others h
    apply paintAll_canvas_congr hpen
    intro p hp
    exact h p ((hinside p).1 hp)

end CanvasPainter

end StrokeFont
