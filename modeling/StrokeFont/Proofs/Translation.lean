import StrokeFont.Proofs.Layout.Partition

namespace StrokeFont

namespace Point

@[ext] theorem ext {p q : Point} (hx : p.x = q.x) (hy : p.y = q.y) : p = q := by
  cases p
  cases q
  simp_all

theorem add_right_cancel_iff {p q v : Point} : p + v = q + v ↔ p = q := by
  constructor
  · intro h
    have hx := congrArg Point.x h
    have hy := congrArg Point.y h
    simp only [add_x, add_y] at hx hy
    ext <;> omega
  · rintro rfl
    rfl

theorem add_right_comm (p v q : Point) : p + v + q = p + q + v := by
  ext <;> simp only [add_x, add_y] <;> omega

end Point

namespace Raster

namespace Course

def translate (v : Point) (c : Course) : Course := { c with finish := c.finish + v }

theorem between_add (start finish v : Point) :
    between (start + v) (finish + v) = (between start finish).translate v := by
  have hx : finish.x + v.x - (start.x + v.x) = finish.x - start.x := by omega
  have hy : finish.y + v.y - (start.y + v.y) = finish.y - start.y := by omega
  simp only [between, translate, Point.add_x, Point.add_y, hx, hy, Int.add_lt_add_iff_right]

theorem step_add (c : Course) (v pixel : Point) (error : Int) :
    (c.translate v).step (pixel + v) error =
      ((c.step pixel error).1 + v, (c.step pixel error).2) := by
  have hstep : (c.translate v).step (pixel + v) error = c.step (pixel + v) error := rfl
  rw [hstep]
  refine Prod.ext ?_ rfl
  ext
  · simp only [step, Point.add_x]
    split <;> omega
  · simp only [step, Point.add_y]
    split <;> omega

theorem walk_add (c : Course) (v : Point) (steps : Nat) (pixel : Point) (error : Int) :
    (c.translate v).walk steps (pixel + v) error = (c.walk steps pixel error).map (· + v) := by
  induction steps generalizing pixel error with
  | zero => rfl
  | succ steps ih =>
      simp only [walk, step_add, ih]
      have hend : pixel + v = (c.translate v).finish ↔ pixel = c.finish := Point.add_right_cancel_iff
      by_cases h : pixel = c.finish
      · rw [if_pos h, if_pos (hend.2 h)]
        rfl
      · rw [if_neg h, if_neg (mt hend.1 h)]
        rfl

end Course

theorem thinLine_add (start finish v : Point) :
    thinLine (start + v) (finish + v) = (thinLine start finish).map (· + v) := by
  have hx : finish.x + v.x - (start.x + v.x) = finish.x - start.x := by omega
  have hy : finish.y + v.y - (start.y + v.y) = finish.y - start.y := by omega
  simp only [thinLine, Course.between_add, Point.add_x, Point.add_y, hx, hy]
  apply Course.walk_add

theorem block_add (width : Int) (corner v : Point) :
    block width (corner + v) = (block width corner).map (· + v) := by
  simp only [block, List.map_flatMap, List.map_map, Function.comp_def, Point.add_right_comm]

theorem line_add (width : Int) (start finish v : Point) :
    line width (start + v) (finish + v) = (line width start finish).map (· + v) := by
  unfold line
  rw [thinLine_add]
  split
  · simp only [List.flatMap_map, List.map_flatMap, block_add]
  · rfl

theorem dot_add (center v : Point) (radius : Int) :
    dot (center + v) radius = (dot center radius).map (· + v) := by
  simp only [dot, List.map_flatMap, List.map_map, Function.comp_def, Point.add_right_comm]

end Raster

theorem Scale.toDevice_add (fontSize : Int) (origin v p : Point) :
    toDevice fontSize (origin + v) p = (toDevice fontSize origin p).map (· + v) := by
  unfold toDevice
  cases length fontSize p.x with
  | error e => rfl
  | ok right =>
      cases height fontSize p.y with
      | error e => rfl
      | ok up =>
          apply congrArg Except.ok
          ext
          · simp only [Point.add_x]
            omega
          · simp only [Point.add_y]
            omega

namespace Drawing

variable {α β : Type}

def translate (v : Point) (d : Drawing α) : Drawing α := { d with pixels := d.pixels.map (· + v) }

@[simp] theorem translate_pure (v : Point) (a : α) : (pure a : Drawing α).translate v = pure a := rfl

@[simp] theorem translate_lift (v : Point) (x : Noted Binary.ConversionError α) :
    (liftM x : Drawing α).translate v = liftM x := rfl

theorem translate_bind (v : Point) (d : Drawing α) (f : α → Drawing β) :
    (d >>= f).translate v = d.translate v >>= fun a => (f a).translate v := by
  obtain ⟨pixels, notes, result⟩ := d
  cases result with
  | error e => rfl
  | ok a => simp only [translate, bind_ok, List.map_append]

end Drawing

namespace Glyph

theorem Primitive.paint_add (settings : Settings) (origin v : Point) (p : Primitive) :
    p.paint settings (origin + v) = (p.paint settings origin).translate v := by
  cases p with
  | line start finish =>
      simp only [paint, Scale.toDevice_add]
      cases Scale.toDevice settings.fontSize origin start with
      | error e => rfl
      | ok start =>
          cases Scale.toDevice settings.fontSize origin finish with
          | error e => rfl
          | ok finish =>
              exact congrArg Drawing.paint (Raster.line_add settings.strokeWidth start finish v)
  | dot center =>
      simp only [paint, Scale.toDevice_add]
      cases Scale.toDevice settings.fontSize origin center with
      | error e => rfl
      | ok center => exact congrArg Drawing.paint (Raster.dot_add center v settings.dotRadius)

theorem Trace.paint_primitives_add (settings : Settings) (origin v : Point)
    (primitives : List Primitive) :
    primitives.forM (Primitive.paint settings (origin + v)) =
      (primitives.forM (Primitive.paint settings origin)).translate v := by
  induction primitives with
  | nil => rfl
  | cons p primitives ih =>
      change (p.paint settings (origin + v) >>= fun _ =>
          primitives.forM (Primitive.paint settings (origin + v))) =
        (p.paint settings origin >>= fun _ =>
          primitives.forM (Primitive.paint settings origin)).translate v
      rw [Drawing.translate_bind, ih, p.paint_add]

theorem Trace.paint_add (settings : Settings) (origin v : Point) (t : Trace) :
    t.paint settings (origin + v) = (t.paint settings origin).translate v := by
  simp only [paint, paint_primitives_add, Drawing.translate_bind]
  rfl

end Glyph

namespace Layout

namespace Page

theorem paintSized_add (page : Page) (origin v : Point) (g : Sized) :
    page.paintSized (origin + v) g = (page.paintSized origin g).translate v := by
  obtain ⟨trace, advance⟩ := g
  cases trace with
  | none => rfl
  | some t => simp only [paintSized, Glyph.Trace.paint_add, Drawing.translate_bind, Drawing.translate_pure]

theorem nextPlace_add (page : Page) (lineHeight left : Int) (cursor v : Point) (g : Sized) :
    page.nextPlace lineHeight (left + v.x) (cursor + v) g =
      page.nextPlace lineHeight left cursor g + v := by
  -- The decision to wrap sees the width of the line, not where the line stands.
  have hwidth : (cursor + v).x - (left + v.x) = cursor.x - left := by
    rw [Point.add_x]
    omega
  rw [nextPlace, nextPlace, hwidth]
  split
  · refine Point.ext rfl ?_
    simp only [Point.add_y]
    omega
  · rfl

theorem renderFrom_add (page : Page) (lineHeight left : Int) (cursor v : Point) (text : List Char) :
    page.renderFrom lineHeight (left + v.x) (cursor + v) text =
      (· + v.y) <$> (page.renderFrom lineHeight left cursor text).translate v := by
  induction text generalizing cursor with
  | nil => rfl
  | cons c rest ih =>
      by_cases hc : c = '\n'
      · have hcursor : (⟨left + v.x, cursor.y + v.y + lineHeight⟩ : Point) =
            ⟨left, cursor.y + lineHeight⟩ + v := by
          refine Point.ext rfl ?_
          simp only [Point.add_y]
          omega
        simp only [renderFrom, if_pos hc, Point.add_y, hcursor, ih]
      · rw [renderFrom_cons hc, renderFrom_cons hc, Drawing.translate_bind, Drawing.translate_lift,
          map_bind]
        congr 1
        funext glyph
        cases glyph with
        | none => exact ih cursor
        | some g =>
            simp only [nextPlace_add, paintSized_add, Drawing.translate_bind, map_bind, ← ih]
            congr 1
            funext _
            congr 1
            refine Point.ext ?_ rfl
            simp only [Point.add_x]
            omega

theorem render_add (page : Page) (origin v : Point) (text : String) :
    page.render (origin + v) text = (page.render origin text).translate v := by
  have hextent (last lineHeight : Int) :
      last + v.y - (origin.y + v.y) + lineHeight = last - origin.y + lineHeight := by omega
  simp only [render, Drawing.translate_bind, Drawing.translate_pure, Point.add_x, Point.add_y,
    renderFrom_add, bind_map_left, hextent]
  rfl

end Page

theorem render_add (glyphs : Option GlyphStore) (settings : Settings) (maxWidth : Int)
    (origin v : Point) (text : String) :
    render glyphs settings maxWidth (origin + v) text =
      (render glyphs settings maxWidth origin text).translate v := by
  cases glyphs with
  | none => rfl
  | some glyphs => exact Page.render_add ..

/-- A text has the same outcome from every origin, and its pixels move with the origin: as many in the
same order, also those before a failure. -/
theorem render_equivariant (glyphs : Option GlyphStore) (settings : Settings) (maxWidth : Int)
    (origin shift : Point) (text : String) :
    let here := render glyphs settings maxWidth origin text
    let there := render glyphs settings maxWidth ⟨origin.x + shift.x, origin.y + shift.y⟩ text
    there.result = here.result ∧ there.notes = here.notes ∧
      there.pixels = here.pixels.map fun p => ⟨p.x + shift.x, p.y + shift.y⟩ := by
  intro here there
  have hmoved : there = here.translate shift := render_add ..
  rw [hmoved]
  exact ⟨rfl, rfl, rfl⟩

end Layout

end StrokeFont
