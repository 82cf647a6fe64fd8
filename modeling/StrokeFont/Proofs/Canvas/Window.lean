import StrokeFont.Proofs.Canvas.Order
import StrokeFont.Proofs.Translation

namespace StrokeFont

namespace Canvas

def row (c : Canvas) (y : Nat) : List Pixel :=
  (c.pixels.extract (y * c.width) ((y + 1) * c.width)).toList

/-- The rows of a window, which has its upper left pixel at the corner. -/
def window (c : Canvas) (corner : Point) (width height : Nat) : List (List Pixel) :=
  ((c.rows.drop corner.y.toNat).take height).map fun row => (row.drop corner.x.toNat).take width

section Rows

variable {c : Canvas} {x y : Nat}

theorem row_end_le (hy : y < c.height) : (y + 1) * c.width ≤ c.pixels.size := by
  rw [c.size_eq, Nat.mul_comm c.width]
  exact Nat.mul_le_mul_right _ hy

theorem length_row (hy : y < c.height) : (c.row y).length = c.width := by
  rw [row, Array.length_toList, Array.size_extract, Nat.min_eq_left (row_end_le hy), Nat.add_mul,
    Nat.one_mul, Nat.add_sub_cancel_left]

theorem getElem?_row (hx : x < c.width) (hy : y < c.height) : (c.row y)[x]? = c.get? ⟨x, y⟩ := by
  have hend := row_end_le hy
  rw [Nat.add_mul, Nat.one_mul] at hend
  have hcontains : c.contains ⟨x, y⟩ = true := by
    rw [contains_iff]
    simp only
    omega
  have hinside : x < min ((y + 1) * c.width) c.pixels.size - y * c.width := by
    rw [Nat.min_eq_left (row_end_le hy), Nat.add_mul, Nat.one_mul]
    omega
  rw [get?, if_pos hcontains, row, Array.getElem?_toList, Array.getElem?_extract, if_pos hinside]
  rfl

theorem drop_take_range {n k m : Nat} (h : k + m ≤ n) :
    ((List.range n).drop k).take m = (List.range m).map (k + ·) := by
  apply List.ext_getElem
  · simp only [List.length_take, List.length_drop, List.length_range, List.length_map]
    omega
  · intro i _ _
    simp only [List.getElem_take, List.getElem_drop, List.getElem_range, List.getElem_map]

end Rows

/-- A canvas that shows what another one has from a corner on. -/
structure Shows (small big : Canvas) (corner : Point) : Prop where
  left : 0 ≤ corner.x
  right : corner.x + small.width ≤ big.width
  top : 0 ≤ corner.y
  bottom : corner.y + small.height ≤ big.height
  get?_eq : ∀ p, small.contains p = true → small.get? p = big.get? (p + corner)

namespace Shows

variable {small big : Canvas} {corner : Point}

theorem modify (h : Shows small big corner) (p : Point) (f : Pixel → Pixel) :
    Shows (small.modify p f) (big.modify (p + corner) f) corner where
  left := h.left
  right := by
    rw [width_modify, width_modify]
    exact h.right
  top := h.top
  bottom := by
    rw [height_modify, height_modify]
    exact h.bottom
  get?_eq q hq := by
    rw [contains_modify] at hq
    simp only [get?_modify, Point.add_right_cancel_iff, h.get?_eq q hq]

theorem row_eq (h : Shows small big corner) {y : Nat} (hy : y < small.height) :
    small.row y = ((big.row (corner.y.toNat + y)).drop corner.x.toNat).take small.width := by
  obtain ⟨hleft, hright, htop, hbottom, hget⟩ := h
  have hy' : corner.y.toNat + y < big.height := by omega
  apply List.ext_getElem?
  intro x
  by_cases hx : x < small.width
  · have hx' : corner.x.toNat + x < big.width := by omega
    have hcontains : small.contains ⟨x, y⟩ = true := by
      rw [contains_iff]
      simp only
      omega
    have hplace : (⟨x, y⟩ + corner : Point) = ⟨(corner.x.toNat + x : Nat), (corner.y.toNat + y : Nat)⟩ := by
      ext
      · simp only [Point.add_x]
        omega
      · simp only [Point.add_y]
        omega
    calc (small.row y)[x]? = small.get? ⟨x, y⟩ := getElem?_row hx hy
      _ = big.get? (⟨x, y⟩ + corner) := hget _ hcontains
      _ = (big.row (corner.y.toNat + y))[corner.x.toNat + x]? := by
        rw [hplace, getElem?_row hx' hy']
      _ = _ := by rw [List.getElem?_take_of_lt hx, List.getElem?_drop]
  · rw [List.getElem?_eq_none (by rw [length_row hy]; omega),
      List.getElem?_eq_none ((List.length_take_le _ _).trans (Nat.le_of_not_lt hx))]

theorem rows_eq (h : Shows small big corner) :
    small.rows = big.window corner small.width small.height := by
  have htop := h.top
  have hbottom := h.bottom
  have hrows (c : Canvas) : c.rows = (List.range c.height).map c.row := rfl
  rw [window, hrows, hrows, ← List.map_drop, ← List.map_take, drop_take_range (by omega),
    List.map_map, List.map_map]
  apply List.map_congr_left
  intro y hy
  exact h.row_eq (List.mem_range.1 hy)

theorem filled {width height width' height' : Nat} (pixel : Pixel) (hleft : 0 ≤ corner.x)
    (hright : corner.x + width ≤ width') (htop : 0 ≤ corner.y) (hbottom : corner.y + height ≤ height') :
    Shows (.filled width height pixel) (.filled width' height' pixel) corner where
  left := hleft
  right := hright
  top := htop
  bottom := hbottom
  get?_eq p hp := by
    have hp' : (Canvas.filled width' height' pixel).contains (p + corner) = true := by
      rw [contains_iff] at hp ⊢
      simp only [Canvas.filled, Point.add_x, Point.add_y] at hp ⊢
      omega
    rw [get?_filled, get?_filled, if_pos hp, if_pos hp']

end Shows

theorem excess?_of_le {memory width height width' height' : Nat} (hwidth : width ≤ width')
    (hheight : height ≤ height') (h : excess? memory width' height' = none) :
    excess? memory width height = none := by
  have harea : byteCount width height ≤ byteCount width' height' :=
    Nat.mul_le_mul_left 4 (Nat.mul_le_mul hwidth hheight)
  have hside : max width height ≤ max width' height' := max_le_max hwidth hheight
  unfold excess? at h ⊢
  split at h
  · cases h
  · split at h
    · cases h
    · split at h
      · cases h
      · rw [if_neg (by omega), if_neg (by omega), if_neg (by omega)]

theorem new_of_le {memory : Nat} {width height width' height' : Int} {color : Color} {big : Canvas}
    (hbig : new memory width' height' color = .ok big) (hwidth : 0 < width) (hwidth' : width ≤ width')
    (hheight : 0 < height) (hheight' : height ≤ height') :
    big = filled width'.toNat height'.toNat color.toPixel ∧
      new memory width height color = .ok (filled width.toNat height.toNat color.toPixel) := by
  unfold new at hbig ⊢
  rw [if_neg (by omega)] at hbig ⊢
  cases hexcess : excess? memory width'.toNat height'.toNat with
  | some cause =>
      simp only [hexcess] at hbig
      cases hbig
  | none =>
      rw [excess?_of_le (by omega) (by omega) hexcess]
      cases hcomponents : color.components.find? (!Color.isByte ·) with
      | some n =>
          simp only [hexcess, hcomponents] at hbig
          cases hbig
      | none =>
          simp only [hexcess, hcomponents] at hbig ⊢
          exact ⟨(Except.ok.inj hbig).symm, trivial⟩

end Canvas

namespace CanvasPainter

theorem shows_paintAll (small big : CanvasPainter) {corner : Point} (hpen : small.pen = big.pen)
    (h : small.canvas.Shows big.canvas corner) (points : List Point) :
    (small.paintAll points).canvas.Shows (big.paintAll (points.map (· + corner))).canvas corner := by
  induction points generalizing small big with
  | nil => exact h
  | cons p points ih =>
      apply ih
      · rw [pen_paint, pen_paint, hpen]
      · rw [canvas_paint, canvas_paint, hpen]
        exact h.modify p _

end CanvasPainter

/-- A text on a canvas, seen through a window, is the text on a canvas of the window's size, painted
from where its origin lies in the window. However little memory there is for canvases, the small one
finds room where the large one does. -/
theorem render_through_window (memory : Nat) (glyphs : Option GlyphStore) (settings : Settings)
    (maxWidth : Int) (origin : Point) (text : String) (background pen : Color) (corner : Point)
    {canvasWidth canvasHeight : Int} {canvas : Canvas}
    (hcanvas : Canvas.new memory canvasWidth canvasHeight background = .ok canvas)
    {width height : Int} (hwidth : 0 < width) (hheight : 0 < height)
    (hleft : 0 ≤ corner.x) (hright : corner.x + width ≤ canvasWidth)
    (htop : 0 ≤ corner.y) (hbottom : corner.y + height ≤ canvasHeight) :
    let rendered := Layout.render glyphs settings maxWidth origin text
    let moved :=
      Layout.render glyphs settings maxWidth ⟨origin.x - corner.x, origin.y - corner.y⟩ text
    moved.result = rendered.result ∧ ∃ small, Canvas.new memory width height background = .ok small ∧
      ((CanvasPainter.new small pen).paintAll moved.pixels).canvas.rows =
        ((CanvasPainter.new canvas pen).paintAll rendered.pixels).canvas.window corner width.toNat
          height.toNat := by
  intro rendered moved
  have horigin : (⟨origin.x - corner.x, origin.y - corner.y⟩ + corner : Point) = origin := by
    ext
    · simp only [Point.add_x]
      omega
    · simp only [Point.add_y]
      omega
  have hrendered : rendered = moved.translate corner := by
    rw [← Layout.render_add, horigin]
  obtain ⟨rfl, hsmall⟩ := Canvas.new_of_le hcanvas hwidth (by omega) hheight (by omega)
  let small : Canvas := .filled width.toNat height.toNat background.toPixel
  let large : Canvas := .filled canvasWidth.toNat canvasHeight.toNat background.toPixel
  have hshows : small.Shows large corner :=
    Canvas.Shows.filled _ hleft (by omega) htop (by omega)
  have hpainted := CanvasPainter.shows_paintAll (.new small pen) (.new large pen) rfl hshows
    moved.pixels
  obtain ⟨hcolumns, hrows⟩ := CanvasPainter.paintAll_size (.new small pen) moved.pixels
  rw [hrendered]
  refine ⟨rfl, small, hsmall, ?_⟩
  rw [hpainted.rows_eq, hcolumns, hrows]
  rfl

theorem render_through_window_narrow :
    let page := Layout.narrowPage
    let canvas := Canvas.filled 60 50 Color.black.toPixel
    let pen : Color := ⟨255, 128, 0, 100⟩
    Canvas.new 12000 60 50 .black = .ok canvas ∧ (0 : Int) < 24 ∧ (0 : Int) < 16 ∧ (0 : Int) ≤ 10 ∧
      (10 : Int) + 24 ≤ 60 ∧ (0 : Int) ≤ 20 ∧ (20 : Int) + 16 ≤ 50 ∧
      let rendered := Layout.render page.glyphs page.settings 20 ⟨3, 40⟩ "ab-a\na"
      let moved := Layout.render page.glyphs page.settings 20 ⟨3 - 10, 40 - 20⟩ "ab-a\na"
      moved.result = rendered.result ∧ ∃ small, Canvas.new 12000 24 16 .black = .ok small ∧
        ((CanvasPainter.new small pen).paintAll moved.pixels).canvas.rows =
          ((CanvasPainter.new canvas pen).paintAll rendered.pixels).canvas.window ⟨10, 20⟩ 24 16 := by
  intro page canvas pen
  have hcanvas : Canvas.new 12000 60 50 .black = .ok canvas := rfl
  exact ⟨hcanvas, by decide, by decide, by decide, by decide, by decide, by decide,
    render_through_window 12000 page.glyphs page.settings 20 ⟨3, 40⟩ "ab-a\na" .black pen ⟨10, 20⟩ hcanvas
      (by decide) (by decide) (by decide) (by decide) (by decide) (by decide)⟩

end StrokeFont
