import Mathlib.Data.List.Count
import Mathlib.Logic.Function.Iterate
import StrokeFont.Canvas.Painter
import StrokeFont.Proofs.Canvas.Blending

namespace StrokeFont

namespace CanvasPainter

theorem canvas_paint (painter : CanvasPainter) (p : Point) :
    (painter.paint p).canvas = painter.canvas.modify p painter.pen.cover := by
  unfold paint
  split
  · rfl
  · rename_i h
    exact (if_neg h).symm

theorem pen_paint (painter : CanvasPainter) (p : Point) : (painter.paint p).pen = painter.pen := by
  unfold paint
  split <;> rfl

@[simp] theorem paint_width (painter : CanvasPainter) (p : Point) :
    (painter.paint p).canvas.width = painter.canvas.width := by
  rw [canvas_paint, Canvas.width_modify]

@[simp] theorem paint_height (painter : CanvasPainter) (p : Point) :
    (painter.paint p).canvas.height = painter.canvas.height := by
  rw [canvas_paint, Canvas.height_modify]

theorem paintAll_size (painter : CanvasPainter) (points : List Point) :
    (painter.paintAll points).canvas.width = painter.canvas.width ∧
      (painter.paintAll points).canvas.height = painter.canvas.height := by
  induction points generalizing painter with
  | nil => exact ⟨rfl, rfl⟩
  | cons p points ih =>
      obtain ⟨hwidth, hheight⟩ := ih (painter.paint p)
      rw [paintAll_cons, hwidth, hheight]
      exact ⟨paint_width painter p, paint_height painter p⟩

theorem contains_paint (painter : CanvasPainter) (p : Point) :
    (painter.paint p).canvas.contains = painter.canvas.contains := by
  funext q
  rw [canvas_paint, Canvas.contains_modify]

theorem counters_paintAll (painter : CanvasPainter) (points : List Point) :
    (painter.paintAll points).painted = painter.painted + points.countP painter.canvas.contains ∧
      (painter.paintAll points).discarded =
        painter.discarded + points.countP (!painter.canvas.contains ·) := by
  induction points generalizing painter with
  | nil => exact ⟨rfl, rfl⟩
  | cons p points ih =>
      obtain ⟨hpainted, hdiscarded⟩ := ih (painter.paint p)
      rw [contains_paint] at hpainted hdiscarded
      rw [paintAll_cons, hpainted, hdiscarded, List.countP_cons, List.countP_cons, paint]
      cases painter.canvas.contains p with
      | true => simp only [if_true, Bool.not_true, Bool.false_eq_true, if_false]; omega
      | false => simp only [if_true, Bool.not_false, Bool.false_eq_true, if_false]; omega

theorem paintAll_of_contained {painter : CanvasPainter} {points : List Point}
    (h : ∀ p ∈ points, painter.canvas.contains p = true) :
    (painter.paintAll points).discarded = painter.discarded ∧
      (painter.paintAll points).painted = painter.painted + points.length := by
  obtain ⟨hpainted, hdiscarded⟩ := painter.counters_paintAll points
  have hnone : points.countP (!painter.canvas.contains ·) = 0 := by
    apply List.countP_eq_zero.2
    intro p hp
    simp only [h p hp, Bool.not_true, Bool.false_eq_true, not_false_eq_true]
  rw [hpainted, hdiscarded, hnone, List.countP_eq_length.2 h]
  exact ⟨rfl, rfl⟩

end CanvasPainter

namespace Canvas

variable {c d : Canvas}

theorem get?_of_index {i : Nat} (hi : i < c.pixels.size) :
    c.get? ⟨(i % c.width : Nat), (i / c.width : Nat)⟩ = some c.pixels[i] := by
  have harea : i < c.width * c.height := c.size_eq ▸ hi
  have hwidth : 0 < c.width := Nat.pos_of_mul_pos_right (Nat.zero_lt_of_lt harea)
  have hcontains : c.contains ⟨(i % c.width : Nat), (i / c.width : Nat)⟩ = true := by
    rw [contains_iff]
    have hcolumn : i % c.width < c.width := Nat.mod_lt i hwidth
    have hrow : i / c.width < c.height := Nat.div_lt_of_lt_mul harea
    exact ⟨Int.natCast_nonneg _, Int.ofNat_lt.2 hcolumn, Int.natCast_nonneg _, Int.ofNat_lt.2 hrow⟩
  have hindex : c.index ⟨(i % c.width : Nat), (i / c.width : Nat)⟩ = i := by
    simp only [index, Int.toNat_natCast, Nat.mul_comm _ c.width]
    exact Nat.div_add_mod i c.width
  rw [get?, if_pos hcontains, hindex, Array.getElem?_eq_getElem hi]

theorem ext_get? (hwidth : c.width = d.width) (hheight : c.height = d.height)
    (h : ∀ p, c.get? p = d.get? p) : c = d := by
  have hsize : c.pixels.size = d.pixels.size := by
    rw [c.size_eq, d.size_eq, hwidth, hheight]
  have hpixels : c.pixels = d.pixels := by
    apply Array.ext hsize
    intro i hc hd
    have hpixel := get?_of_index hc
    rw [h, hwidth, get?_of_index hd] at hpixel
    exact (Option.some.inj hpixel).symm
  obtain ⟨width, height, pixels, _⟩ := c
  obtain ⟨width', height', pixels', _⟩ := d
  obtain rfl : width = width' := hwidth
  obtain rfl : height = height' := hheight
  obtain rfl : pixels = pixels' := hpixels
  rfl

end Canvas

namespace CanvasPainter

theorem pen_paintAll (painter : CanvasPainter) (points : List Point) :
    (painter.paintAll points).pen = painter.pen := by
  induction points generalizing painter with
  | nil => rfl
  | cons p points ih => rw [paintAll_cons, ih, pen_paint]

theorem get?_paintAll (painter : CanvasPainter) (points : List Point) (p : Point) :
    (painter.paintAll points).canvas.get? p =
      (painter.canvas.get? p).map painter.pen.cover^[points.count p] := by
  induction points generalizing painter with
  | nil => simp
  | cons q points ih =>
      rw [paintAll_cons, ih, pen_paint, canvas_paint, Canvas.get?_modify, List.count_cons]
      by_cases hq : q = p
      · simp only [hq, if_true, beq_self_eq_true, Option.map_map, Function.iterate_succ]
      · simp only [if_neg hq, beq_eq_false_iff_ne.2 hq, Bool.false_eq_true, if_false, Nat.add_zero]

theorem get?_paintAll_of_not_mem (painter : CanvasPainter) {points : List Point} {p : Point}
    (h : p ∉ points) : (painter.paintAll points).canvas.get? p = painter.canvas.get? p := by
  rw [get?_paintAll, List.count_eq_zero.2 h, Function.iterate_zero, Option.map_id, id]

theorem paintAll_congr {painter : CanvasPainter} {s t : List Point} (h : s.Perm t) :
    painter.paintAll s = painter.paintAll t := by
  obtain ⟨hpainted, hdiscarded⟩ := painter.counters_paintAll s
  obtain ⟨hpainted', hdiscarded'⟩ := painter.counters_paintAll t
  rw [h.countP_eq, ← hpainted'] at hpainted
  rw [h.countP_eq, ← hdiscarded'] at hdiscarded
  obtain ⟨hwidth, hheight⟩ := painter.paintAll_size s
  obtain ⟨hwidth', hheight'⟩ := painter.paintAll_size t
  have hcanvas : (painter.paintAll s).canvas = (painter.paintAll t).canvas := by
    apply Canvas.ext_get? (hwidth.trans hwidth'.symm) (hheight.trans hheight'.symm)
    intro p
    rw [get?_paintAll, get?_paintAll, h.count_eq]
  have hpen : (painter.paintAll s).pen = (painter.paintAll t).pen := by
    rw [pen_paintAll, pen_paintAll]
  calc painter.paintAll s
      = ⟨(painter.paintAll s).canvas, (painter.paintAll s).pen, (painter.paintAll s).painted,
          (painter.paintAll s).discarded⟩ := rfl
    _ = ⟨(painter.paintAll t).canvas, (painter.paintAll t).pen, (painter.paintAll t).painted,
          (painter.paintAll t).discarded⟩ := by rw [hcanvas, hpen, hpainted, hdiscarded]

/-- Painting the same points in another order leaves the same canvas and the same counters. These count
the points on the canvas and the others, a pixel that is not named keeps its value, and one that is named
is covered by the pen as often as it is named, whatever becomes of the others. To be covered is to take on
the mixture with the pen in each colour, and to be opaque. -/
theorem paint_order_irrelevant (painter : CanvasPainter) {points reordered : List Point}
    (h : points.Perm reordered) :
    let after := painter.paintAll points
    let inside (p : Point) : Bool :=
      0 ≤ p.x ∧ p.x < painter.canvas.width ∧ 0 ≤ p.y ∧ p.y < painter.canvas.height
    painter.paintAll reordered = after ∧
      after.painted = painter.painted + points.countP inside ∧
      after.discarded = painter.discarded + points.countP (!inside ·) ∧
      (∀ p, p ∉ points → after.canvas.get? p = painter.canvas.get? p) ∧
      (∀ p, after.canvas.get? p = (painter.canvas.get? p).map painter.pen.cover^[points.count p]) ∧
      ((∀ n ∈ painter.pen.components, 0 ≤ n ∧ n ≤ 255) → ∀ below,
        let pen := painter.pen
        let covered := pen.cover below
        Color.Mixture pen.alpha pen.red below.red covered.red ∧
          Color.Mixture pen.alpha pen.green below.green covered.green ∧
          Color.Mixture pen.alpha pen.blue below.blue covered.blue ∧ covered.alpha = 255) := by
  intro after inside
  have hinside : painter.canvas.contains = inside := by
    funext p
    rw [Bool.eq_iff_iff, Canvas.contains_iff, decide_eq_true_eq]
  obtain ⟨hpainted, hdiscarded⟩ := painter.counters_paintAll points
  rw [hinside] at hpainted hdiscarded
  exact ⟨(paintAll_congr h).symm, hpainted, hdiscarded, fun _ => painter.get?_paintAll_of_not_mem,
    painter.get?_paintAll points, Color.cover_mixture⟩

/-- A translucent pen that meets one pixel twice, and misses the canvas on two sides. -/
theorem paint_order_irrelevant_translucent :
    let painter : CanvasPainter := .new (.filled 3 2 Color.black.toPixel) ⟨255, 128, 0, 100⟩
    let points : List Point := [⟨1, 1⟩, ⟨-1, 0⟩, ⟨2, 0⟩, ⟨1, 1⟩, ⟨0, 2⟩]
    let reordered : List Point := [⟨0, 2⟩, ⟨2, 0⟩, ⟨1, 1⟩, ⟨1, 1⟩, ⟨-1, 0⟩]
    points.Perm reordered ∧ (∀ n ∈ painter.pen.components, 0 ≤ n ∧ n ≤ 255) ∧
      let after := painter.paintAll points
      let inside (p : Point) : Bool := 0 ≤ p.x ∧ p.x < (3 : Nat) ∧ 0 ≤ p.y ∧ p.y < (2 : Nat)
      painter.paintAll reordered = after ∧
        after.painted = 0 + points.countP inside ∧
        after.discarded = 0 + points.countP (!inside ·) ∧
        (∀ p, p ∉ points → after.canvas.get? p = painter.canvas.get? p) ∧
        (∀ p, after.canvas.get? p = (painter.canvas.get? p).map painter.pen.cover^[points.count p]) ∧
        (∀ below, let covered := painter.pen.cover below
          Color.Mixture 100 255 below.red covered.red ∧ Color.Mixture 100 128 below.green covered.green ∧
            Color.Mixture 100 0 below.blue covered.blue ∧ covered.alpha = 255) ∧
        after.canvas.get? ⟨1, 1⟩ = some ⟨160, 80, 0, 255⟩ ∧
        after.canvas.get? ⟨2, 0⟩ = some ⟨100, 50, 0, 255⟩ ∧
        after.canvas.get? ⟨0, 0⟩ = some ⟨0, 0, 0, 255⟩ ∧
        after.painted = 3 ∧ after.discarded = 2 := by
  intro painter points reordered
  have h : points.Perm reordered := by decide
  have hpen : ∀ n ∈ painter.pen.components, 0 ≤ n ∧ n ≤ 255 := by decide
  obtain ⟨horder, hpainted, hdiscarded, hunnamed, hnamed, hblend⟩ := paint_order_irrelevant painter h
  refine ⟨h, hpen, horder, hpainted, hdiscarded, hunnamed, hnamed, hblend hpen, ?_⟩
  decide +kernel

end CanvasPainter

end StrokeFont
