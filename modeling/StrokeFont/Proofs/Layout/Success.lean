import StrokeFont.Proofs.Layout.Partition

namespace StrokeFont

theorem Scale.pointFits_of_toDevice {fontSize : Int} {origin p q : Point}
    (h : toDevice fontSize origin p = .ok q) : pointFits fontSize p = true := by
  unfold toDevice height at h
  rw [pointFits, Bool.and_eq_true]
  cases hright : length fontSize p.x with
  | error e =>
      rw [hright] at h
      cases h
  | ok right =>
      cases hup : length fontSize (p.y - baseline) with
      | error e =>
          rw [hright, hup] at h
          cases h
      | ok up => exact ⟨fits_of_length hright, fits_of_length hup⟩

namespace Glyph

variable {settings : Settings} {origin : Point}

theorem Primitive.fits_of_paint {p : Primitive} (h : (p.paint settings origin).result = .ok ()) :
    p.fits settings.fontSize = true := by
  cases p with
  | line start finish =>
      obtain ⟨_, hstart, h⟩ := Drawing.ok_of_bind h
      obtain ⟨_, hfinish, -⟩ := Drawing.ok_of_bind h
      rw [fits, Bool.and_eq_true]
      exact ⟨Scale.pointFits_of_toDevice hstart, Scale.pointFits_of_toDevice hfinish⟩
  | dot center =>
      obtain ⟨_, hcenter, -⟩ := Drawing.ok_of_bind h
      exact Scale.pointFits_of_toDevice hcenter

theorem Trace.fits_of_paint_primitives {primitives : List Primitive}
    (h : (primitives.forM (Primitive.paint settings origin)).result = .ok ()) :
    ∀ p ∈ primitives, p.fits settings.fontSize = true := by
  induction primitives with
  | nil => simp
  | cons p primitives ih =>
      obtain ⟨_, hp, hrest⟩ := Drawing.ok_of_bind h
      rintro q (_ | ⟨_, hq⟩)
      · exact p.fits_of_paint hp
      · exact ih hrest q hq

theorem Trace.fits_of_paint {t : Trace} {n : Int} (h : (t.paint settings origin).result = .ok n) :
    t.fits settings.fontSize = true := by
  obtain ⟨_, hprimitives, hadvance⟩ := Drawing.ok_of_bind h
  rw [fits, Bool.and_eq_true, List.all_eq_true]
  exact ⟨fits_of_paint_primitives hprimitives, Scale.fits_of_length hadvance⟩

end Glyph

namespace Layout.Page

variable {page : Page}

theorem fits_of_paintSized {c : Char} {glyph : Option Sized}
    (hsized : (page.sized? c).result = .ok glyph)
    (hpaint : ∀ g, glyph = some g → ∃ place, (page.paintSized place g).result = .ok ()) :
    page.fits c = true := by
  rw [fits, Bool.or_eq_true]
  right
  cases hprogram : page.glyphs.lookup? c.toNat with
  | none => rfl
  | some program =>
      rw [sized?_of_lookup hprogram] at hsized
      rw [Option.all_some]
      cases ht : (Glyph.trace program).result with
      | error e => rfl
      | ok t =>
          simp only [ht] at hsized
          cases hadvance : Scale.length page.settings.fontSize t.advance with
          | error e =>
              rw [hadvance] at hsized
              cases hsized
          | ok n =>
              rw [hadvance] at hsized
              obtain ⟨place, hplace⟩ := hpaint _ (Except.ok.inj hsized).symm
              obtain ⟨_, ht, -⟩ := Drawing.ok_of_bind hplace
              exact t.fits_of_paint ht

theorem fits_of_renderFrom {lineHeight left last : Int} {cursor : Point} {text : List Char}
    (h : (page.renderFrom lineHeight left cursor text).result = .ok last) :
    ∀ c ∈ text, page.fits c = true := by
  induction text generalizing cursor with
  | nil => simp
  | cons c rest ih =>
      by_cases hc : c = '\n'
      · rw [renderFrom, if_pos hc] at h
        rintro d (_ | ⟨_, hd⟩)
        · simp [fits, hc]
        · exact ih h d hd
      · rw [renderFrom_cons hc] at h
        obtain ⟨glyph, hsized, h⟩ := Drawing.ok_of_bind h
        cases glyph with
        | none =>
            rintro d (_ | ⟨_, hd⟩)
            · exact fits_of_paintSized hsized (by simp)
            · exact ih h d hd
        | some g =>
            obtain ⟨_, hpaint, h⟩ := Drawing.ok_of_bind h
            rintro d (_ | ⟨_, hd⟩)
            · refine fits_of_paintSized hsized ?_
              rintro _ ⟨⟩
              exact ⟨_, hpaint⟩
            · exact ih h d hd

theorem fits_of_render {origin : Point} {text : String} {extent : Int}
    (h : (page.render origin text).result = .ok extent) :
    (∃ lineHeight, page.settings.lineHeight = .ok lineHeight) ∧
      ∀ c ∈ text.toList, page.fits c = true := by
  obtain ⟨lineHeight, hheight, h⟩ := Drawing.ok_of_bind h
  obtain ⟨last, hlast, -⟩ := Drawing.ok_of_bind h
  exact ⟨⟨lineHeight, hheight⟩, fits_of_renderFrom hlast⟩

/-- Painting and measuring a text succeed, with its lines. -/
structure Realized (page : Page) (origin : Point) (text : String) (lineHeight : Int) : Prop where
  extent : (page.render origin text).result = .ok (lineHeight * (page.lines text).length)
  pixels : (page.render origin text).pixels =
    inkAll page.settings (places origin lineHeight 0 (page.lines text))
  width : (page.measure text).result = .ok (((page.lines text).map lineWidth).foldl max 0)

theorem realized_of_render {origin : Point} {text : String} {extent : Int}
    (h : (page.render origin text).result = .ok extent) :
    ∃ lineHeight, page.settings.lineHeight = .ok lineHeight ∧
      ∀ maxWidth, Realized ⟨page.glyphs, page.settings, maxWidth⟩ origin text lineHeight := by
  obtain ⟨⟨lineHeight, hheight⟩, hfits⟩ := fits_of_render h
  refine ⟨lineHeight, hheight, fun maxWidth => ?_⟩
  let limited : Page := ⟨page.glyphs, page.settings, maxWidth⟩
  have hfits' : ∀ c ∈ text.toList, limited.fits c = true := hfits
  obtain ⟨hpixels, hextent⟩ := limited.render_of_fits hfits' hheight origin
  exact ⟨hextent, hpixels, limited.measure_of_fits hfits'⟩

end Layout.Page

end StrokeFont
