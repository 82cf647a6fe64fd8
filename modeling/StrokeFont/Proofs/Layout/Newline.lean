import StrokeFont.Proofs.Layout.Success
import StrokeFont.Proofs.Translation

namespace StrokeFont.Layout

namespace Page

theorem renderFrom_newline (page : Page) (lineHeight left : Int) (cursor : Point) (s t : List Char) :
    page.renderFrom lineHeight left cursor (s ++ '\n' :: t) = (do
      let baseline ← page.renderFrom lineHeight left cursor s
      page.renderFrom lineHeight left ⟨left, baseline + lineHeight⟩ t) := by
  induction s generalizing cursor with
  | nil => simp only [List.nil_append, renderFrom, if_true, pure_bind]
  | cons c s ih =>
      rw [List.cons_append]
      by_cases hc : c = '\n'
      · rw [renderFrom, if_pos hc, ih, renderFrom, if_pos hc]
      · rw [renderFrom_cons hc, renderFrom_cons hc, bind_assoc]
        congr 1
        funext glyph
        cases glyph with
        | none => exact ih cursor
        | some g => simp only [ih, bind_assoc]

theorem measureFrom_newline (page : Page) (widest line : Int) (s t : List Char) :
    page.measureFrom widest line (s ++ '\n' :: t) = (do
      let width ← page.measureFrom widest line s
      page.measureFrom width 0 t) := by
  induction s generalizing widest line with
  | nil => simp only [List.nil_append, measureFrom, if_true, pure_bind]
  | cons c s ih =>
      rw [List.cons_append]
      by_cases hc : c = '\n'
      · rw [measureFrom, if_pos hc, ih, measureFrom, if_pos hc]
      · rw [measureFrom_cons hc, measureFrom_cons hc, bind_assoc]
        congr 1
        funext glyph
        cases glyph with
        | none => exact ih widest line
        | some g =>
            simp only [ih]
            split <;> rfl

theorem measureFrom_max (page : Page) (width widest line : Int) (text : List Char) :
    page.measureFrom (max width widest) line text = max width <$> page.measureFrom widest line text := by
  induction text generalizing widest line with
  | nil => rw [measureFrom, measureFrom, map_pure, max_assoc]
  | cons c rest ih =>
      by_cases hc : c = '\n'
      · rw [measureFrom, if_pos hc, max_assoc, ih, measureFrom, if_pos hc]
      · rw [measureFrom_cons hc, measureFrom_cons hc, map_bind]
        congr 1
        funext glyph
        cases glyph with
        | none => exact ih widest line
        | some g =>
            simp only [max_assoc, ih]
            split <;> rfl

theorem toList_newline (s t : String) : (s ++ "\n" ++ t).toList = s.toList ++ '\n' :: t.toList := by
  simp

theorem render_newline (page : Page) (origin : Point) (s t : String) :
    page.render origin (s ++ "\n" ++ t) = (do
      let above ← page.render origin s
      let below ← page.render ⟨origin.x, origin.y + above⟩ t
      return above + below) := by
  simp only [render, toList_newline, renderFrom_newline]
  cases page.settings.lineHeight with
  | error e => rfl
  | ok lineHeight =>
      have hline {β : Type} (f : Int → Drawing β) :
          (liftM (Except.ok lineHeight : Except Binary.ConversionError Int) >>= f) = f lineHeight := rfl
      have hbelow (last : Int) : origin.y + (last - origin.y + lineHeight) = last + lineHeight := by
        omega
      have hextent (last below : Int) : last - origin.y + lineHeight +
          (below - (last + lineHeight) + lineHeight) = below - origin.y + lineHeight := by omega
      simp only [hline, bind_assoc, pure_bind, hbelow, hextent]

theorem measure_newline (page : Page) (s t : String) :
    page.measure (s ++ "\n" ++ t) = (do
      let above ← page.measure s
      let below ← page.measure t
      return max above below) := by
  -- A width is not negative, so it is the maximum of itself and an empty line.
  have hnonneg : page.measure s = max 0 <$> page.measure s := by
    rw [measure, ← measureFrom_max, max_self]
  have hempty (above : Int) : max (max 0 above) 0 = max 0 above := max_eq_left (le_max_left 0 above)
  calc page.measure (s ++ "\n" ++ t)
      = page.measure s >>= fun above => page.measureFrom above 0 t.toList := by
        rw [measure, toList_newline, measureFrom_newline, measure]
    _ = page.measure s >>= fun above => page.measureFrom (max above 0) 0 t.toList := by
        rw [hnonneg, bind_map_left, bind_map_left]
        simp only [hempty]
    _ = page.measure s >>= fun above => max above <$> page.measure t := by
        simp only [measureFrom_max, measure]
    _ = _ := by simp only [map_eq_pure_bind]

end Page

/-- A text on both sides of a newline. The pixels of the first part come first, then those of the second
part, which starts below by the extent of the first. The extents add up, and the wider part is measured. -/
theorem newline_joins_layouts (glyphs : GlyphStore) (settings : Settings) (maxWidth : Int)
    (origin : Point) (s t : String) {above below : Int}
    (hs : (render (some glyphs) settings maxWidth origin s).result = .ok above)
    (ht : (render (some glyphs) settings maxWidth origin t).result = .ok below) :
    let rendered := render (some glyphs) settings maxWidth origin (s ++ "\n" ++ t)
    let measured := measure (some glyphs) settings maxWidth
    rendered.result = .ok (above + below) ∧
      rendered.pixels = (render (some glyphs) settings maxWidth origin s).pixels ++
        (render (some glyphs) settings maxWidth ⟨origin.x, origin.y + above⟩ t).pixels ∧
      ∃ width width', (measured s).result = .ok width ∧ (measured t).result = .ok width' ∧
        (measured (s ++ "\n" ++ t)).result = .ok (max width width') := by
  intro rendered measured
  let page : Page := ⟨glyphs, settings, maxWidth⟩
  have hs : (page.render origin s).result = .ok above := hs
  -- The second part has the same extent wherever it stands.
  have ht : (page.render ⟨origin.x, origin.y + above⟩ t).result = .ok below := by
    have hplace : (⟨origin.x, origin.y + above⟩ : Point) = origin + ⟨0, above⟩ := by
      ext <;> simp
    rw [hplace, page.render_add]
    exact ht
  have hrendered : rendered = _ := page.render_newline origin s t
  rw [Drawing.bind_of_ok hs, Drawing.bind_of_ok ht] at hrendered
  have hwidth := Page.measure_of_fits (Page.fits_of_render hs).2
  have hwidth' := Page.measure_of_fits (Page.fits_of_render ht).2
  have hmeasured : measured (s ++ "\n" ++ t) = _ := page.measure_newline s t
  refine ⟨?_, ?_, _, _, hwidth, hwidth', ?_⟩
  · rw [hrendered]
    rfl
  · rw [hrendered]
    exact congrArg (_ ++ ·) (List.append_nil _)
  · rw [hmeasured, Noted.bind_of_ok hwidth, Noted.bind_of_ok hwidth']
    rfl

theorem newline_joins_layouts_narrow :
    let rendered := render (some narrowPage.glyphs) .default 20 ⟨3, 40⟩
    let measured := measure (some narrowPage.glyphs) .default 20
    (rendered "aab\n-").result = .ok 72 ∧ (rendered "c aa\n").result = .ok 72 ∧
      (rendered ("aab\n-" ++ "\n" ++ "c aa\n")).result = .ok (72 + 72) ∧
      (rendered ("aab\n-" ++ "\n" ++ "c aa\n")).pixels = (rendered "aab\n-").pixels ++
        (render (some narrowPage.glyphs) .default 20 ⟨3, 40 + 72⟩ "c aa\n").pixels ∧
      ∃ width width', (measured "aab\n-").result = .ok width ∧
        (measured "c aa\n").result = .ok width' ∧
        (measured ("aab\n-" ++ "\n" ++ "c aa\n")).result = .ok (max width width') := by
  have hs : (render (some narrowPage.glyphs) .default 20 ⟨3, 40⟩ "aab\n-").result = .ok 72 := by
    decide +kernel
  have ht : (render (some narrowPage.glyphs) .default 20 ⟨3, 40⟩ "c aa\n").result = .ok 72 := by
    decide +kernel
  exact ⟨hs, ht, newline_joins_layouts narrowPage.glyphs .default 20 ⟨3, 40⟩ _ _ hs ht⟩

end StrokeFont.Layout
