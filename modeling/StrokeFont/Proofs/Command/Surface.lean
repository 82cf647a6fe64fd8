import StrokeFont.Command.Picture
import StrokeFont.Proofs.Canvas.Order
import StrokeFont.Proofs.Layout.Extent
import StrokeFont.Proofs.Settings

namespace StrokeFont

namespace Command

theorem sampleGlyphs_inEm : sampleGlyphs.inEm = true := by decide +kernel

/-- Where the canvas is expected to fit the text: lengths are exact, pen and dots stay in the margin,
and the lines do not overlap. -/
structure Sheet.Roomy (s : Sheet) (lineHeight : Int) : Prop where
  exact : Scale.Exact s.settings.fontSize
  margin : s.settings.FitsMargin s.margin
  lineHeight_eq : s.settings.lineHeight = .ok lineHeight
  fontSize_lt : s.settings.fontSize < lineHeight

namespace Sheet

def page (s : Sheet) : Layout.Page := ⟨sampleGlyphs, s.settings, s.maxWidth⟩

def lines (s : Sheet) : List (List Layout.Sized) := s.page.lines s.text

variable {s : Sheet} {lineHeight : Int}

theorem Roomy.fits (h : s.Roomy lineHeight) : ∀ c ∈ s.text.toList, s.page.fits c = true :=
  fun c _ => Layout.Page.fits_of_inEm h.exact sampleGlyphs_inEm c

theorem Roomy.measure (h : s.Roomy lineHeight) :
    s.measure.result = .ok ((s.lines.map Layout.lineWidth).foldl max 0) :=
  Layout.Page.measure_of_fits h.fits

theorem Roomy.render (h : s.Roomy lineHeight) (origin : Point) :
    (s.render origin).result = .ok (lineHeight * s.lines.length) :=
  (Layout.Page.render_of_fits h.fits h.lineHeight_eq origin).2

def surface (s : Sheet) (lineHeight : Int) : Frame where
  width := (s.lines.map Layout.lineWidth).foldl max 0 + 2 * s.margin + s.settings.strokeWidth
  height := lineHeight * s.lines.length + 2 * s.margin

theorem Roomy.frame (h : s.Roomy lineHeight) : s.frame.result = .ok (s.surface lineHeight) := by
  rw [Sheet.frame, Noted.bind_of_ok h.measure]
  have hrender : (s.render .zero).unpainted.result = .ok (lineHeight * s.lines.length) := h.render .zero
  simp only [Noted.bind_of_ok hrender]
  rfl

theorem Roomy.surface_pos (h : s.Roomy lineHeight) :
    0 < (s.surface lineHeight).width ∧ 0 < (s.surface lineHeight).height := by
  obtain ⟨hpen, -, hcenter, hdot⟩ := h.margin
  have hwidest := Layout.widest_nonneg s.lines
  have hlines : 0 < s.lines.length := List.length_pos_of_ne_nil (Layout.breakLines_ne_nil _ _ _)
  have hline : 0 < lineHeight * s.lines.length :=
    Int.mul_pos (h.exact.pos.trans h.fontSize_lt) (by exact_mod_cast hlines)
  constructor <;> simp only [surface] <;> omega

theorem Roomy.contained (h : s.Roomy lineHeight) :
    ∀ pixel ∈ (s.render s.origin).pixels, 0 ≤ pixel.x ∧ pixel.x < (s.surface lineHeight).width ∧
      0 ≤ pixel.y ∧ pixel.y < (s.surface lineHeight).height := by
  intro pixel hpixel
  obtain ⟨hpen, -, hcenter, hdot⟩ := h.margin
  have hspacing := h.fontSize_lt
  have hpos := h.exact.pos
  have hstore : s.page.glyphs.inEm = true := sampleGlyphs_inEm
  obtain ⟨hleft, hright, htop, hbottom⟩ := Layout.Page.render_within h.exact hstore h.margin
    h.lineHeight_eq (by omega) s.origin pixel hpixel
  simp only [Glyph.lowest, Glyph.highest, page, origin] at hleft hright htop hbottom
  simp only [surface, lines, page]
  omega

end Sheet

namespace Frame

theorem columns_of_pos {f : Frame} (h : 0 < f.width) : (f.columns : Int) = f.width := by
  rw [columns, Int.toNat_of_nonneg (by omega)]
  omega

theorem rows_of_pos {f : Frame} (h : 0 < f.height) : (f.rows : Int) = f.height := by
  rw [rows, Int.toNat_of_nonneg (by omega)]
  omega

theorem contains_canvas {f : Frame} (hwidth : 0 < f.width) (hheight : 0 < f.height) {p : Point}
    (h : 0 ≤ p.x ∧ p.x < f.width ∧ 0 ≤ p.y ∧ p.y < f.height) : f.canvas.contains p = true := by
  rw [← columns_of_pos hwidth, ← rows_of_pos hheight] at h
  exact (Canvas.contains_iff _ p).2 h

theorem paintAll_of_inside {f : Frame} (hwidth : 0 < f.width) (hheight : 0 < f.height) (pen : Color)
    {points : List Point}
    (h : ∀ p ∈ points, 0 ≤ p.x ∧ p.x < f.width ∧ 0 ≤ p.y ∧ p.y < f.height) :
    ∃ painter, (CanvasPainter.new f.canvas pen).paintAll points = painter ∧ painter.discarded = 0 ∧
      painter.painted = points.length ∧ painter.canvas.width = f.columns ∧
      painter.canvas.height = f.rows := by
  have hon : ∀ p ∈ points, (CanvasPainter.new f.canvas pen).canvas.contains p = true :=
    fun p hp => contains_canvas hwidth hheight (h p hp)
  obtain ⟨hdiscarded, hpainted⟩ := CanvasPainter.paintAll_of_contained hon
  obtain ⟨hcolumns, hrows⟩ := CanvasPainter.paintAll_size (.new f.canvas pen) points
  exact ⟨_, rfl, hdiscarded, hpainted.trans (Nat.zero_add _), hcolumns, hrows⟩

end Frame

theorem Target.report_of_fits (t : Target) {f : Frame} {memory : Nat} (hwidth : 0 < f.width)
    (hheight : 0 < f.height) (h : Canvas.excess? memory f.columns f.rows = none) :
    t.report f = .ok s!"wrote {t.path.toString} ({f.columns}x{f.rows})" := by
  have hside : ¬ Canvas.largestCount < max f.columns f.rows := by
    intro hside
    rw [Canvas.excess?, if_pos hside] at h
    cases h
  have hdigits {n : Nat} (hn : n ≤ Canvas.largestCount) : (toString n).length ≤ Text.digitLimit :=
    ((Nat.length_repr_le_iff (k := 19) (by decide)).2 (Nat.lt_of_le_of_lt hn (by decide))).trans
      (by decide)
  have hcolumns := hdigits (n := f.columns) (by omega)
  have hrows := hdigits (n := f.rows) (by omega)
  rw [report, ← Frame.columns_of_pos hwidth, ← Frame.rows_of_pos hheight]
  simp only [Int.natAbs_natCast]
  rw [if_neg (by omega)]
  rfl

namespace Request

variable {r : Request} {settings : Settings}

theorem sheet_of_get (settings : Settings) {maxWidth margin : Int}
    (hmaxWidth : r.maxWidth.get .maxWidth 0 = .ok maxWidth)
    (hmargin : r.margin.get .margin 8 = .ok margin) :
    r.sheet settings = ⟨[], .ok ⟨r.lines, settings, maxWidth, margin⟩⟩ := by
  simp only [sheet, hmaxWidth, hmargin]
  rfl

theorem picture_of_sheet (memory : Nat) {s : Sheet} {f : Frame} {painter : CanvasPainter}
    (hsheet : (r.sheet settings).result = .ok s) (hframe : s.frame.result = .ok f)
    (hpaint : (s.paint f).result = .ok painter) :
    (r.picture memory settings).result =
      match Canvas.excess? memory f.columns f.rows with
      | some cause => .error (.canvas cause)
      | none => .ok ⟨f, painter⟩ := by
  have hframe' : (s.frame.mapError Failure.conversion).result = .ok f := by
    simp only [Noted.mapError, hframe, Except.mapError]
  have hpaint' : ((s.paint f).mapError Failure.conversion).result = .ok painter := by
    simp only [Noted.mapError, hpaint, Except.mapError]
  rw [picture, Noted.bind_of_ok hsheet]
  simp only [Noted.bind_of_ok hframe']
  cases Canvas.excess? memory f.columns f.rows with
  | some cause => rfl
  | none =>
      simp only [Noted.bind_of_ok hpaint']
      rfl

end Request

theorem Sheet.Roomy.paint {s : Sheet} {lineHeight : Int} (h : s.Roomy lineHeight) (f : Frame) :
    (s.paint f).result =
      .ok ((CanvasPainter.new f.canvas .yellow).paintAll (s.render s.origin).pixels) := by
  have hrender : (s.render s.origin).unpainted.result = .ok (lineHeight * s.lines.length) :=
    h.render s.origin
  rw [Sheet.paint, Noted.bind_of_ok hrender]
  rfl

/-- The canvas of a request fits its text. Unless the memory has no room for the canvas at all, every pixel
of the final rendering is painted on it, none is discarded, and its size is reported. -/
theorem canvas_fits_text (memory : Nat) {r : Request} {entry : File.Path → File.Entry} {settings : Settings}
    {maxWidth margin lineHeight : Int} (hsettings : r.settings entry = .ok settings)
    (hmaxWidth : r.maxWidth.get .maxWidth 0 = .ok maxWidth)
    (hmargin : r.margin.get .margin 8 = .ok margin) (hsize : settings.fontSize < 2 ^ 49)
    (hdot : settings.dotRadius ≤ margin) (hblock : Raster.blockHeight settings.strokeWidth - 1 ≤ margin)
    (hheight : settings.lineHeight = .ok lineHeight) (hspacing : settings.fontSize < lineHeight) :
    let s : Sheet := ⟨r.lines, settings, maxWidth, margin⟩
    let pixels := (s.render s.origin).pixels
    ∃ measured extent : Int, ∃ f : Frame,
      s.measure.result = .ok measured ∧ (s.render .zero).result = .ok extent ∧
      f = ⟨measured + 2 * margin + settings.strokeWidth, extent + 2 * margin⟩ ∧
      (∀ pixel ∈ pixels, 0 ≤ pixel.x ∧ pixel.x < f.width ∧ 0 ≤ pixel.y ∧ pixel.y < f.height) ∧
      match Canvas.excess? memory f.columns f.rows with
      | some cause => (r.picture memory settings).result = .error (.canvas cause)
      | none => ∃ painter : CanvasPainter, (r.picture memory settings).result = .ok ⟨f, painter⟩ ∧
          painter.discarded = 0 ∧ painter.painted = pixels.length ∧
          painter.canvas.width = f.width ∧ painter.canvas.height = f.height ∧
          ∀ target : Target, target.report f =
            .ok s!"wrote {target.path.toString} ({painter.canvas.width}x{painter.canvas.height})" := by
  intro s pixels
  obtain ⟨hfont, hradius, hwidth⟩ := Request.clamped_of_settings hsettings
  have hroomy : s.Roomy lineHeight :=
    ⟨⟨Int.lt_of_lt_of_le (by decide) hfont, hsize⟩, ⟨hwidth, hblock, hradius, hdot⟩, hheight, hspacing⟩
  obtain ⟨hcolumns, hrows⟩ := hroomy.surface_pos
  have hcontained := hroomy.contained
  obtain ⟨painter, hpainter, hdiscarded, hpainted, hwidth', hheight'⟩ :=
    Frame.paintAll_of_inside hcolumns hrows .yellow hcontained
  have hpaint := hroomy.paint (s.surface lineHeight)
  rw [hpainter] at hpaint
  have hpicture := Request.picture_of_sheet memory
    (congrArg Noted.result (Request.sheet_of_get settings hmaxWidth hmargin))
    hroomy.frame hpaint
  refine ⟨_, _, s.surface lineHeight, hroomy.measure, hroomy.render .zero, rfl, hcontained, ?_⟩
  rw [hpicture]
  cases hexcess : Canvas.excess? memory (s.surface lineHeight).columns (s.surface lineHeight).rows with
  | some cause => rfl
  | none =>
      refine ⟨painter, rfl, hdiscarded, hpainted, ?_, ?_, ?_⟩
      · rw [hwidth']
        exact Frame.columns_of_pos hcolumns
      · rw [hheight']
        exact Frame.rows_of_pos hrows
      · intro target
        rw [hwidth', hheight']
        exact target.report_of_fits hcolumns hrows hexcess

def wrappedRequest : Request :=
  { Request.initial with
    text := "HO.a\\nTE !"
    stroke := .value 3
    dotSize := .value 4
    maxWidth := .value 40 }

def wrappedSettings : Settings := (Settings.default.setStrokeWidth 3).setDotSize 4

theorem canvas_fits_text_wrapped :
    let memory : Nat := 2 ^ 20
    let r := wrappedRequest
    let settings := wrappedSettings
    let s : Sheet := ⟨r.lines, settings, 40, 8⟩
    let pixels := (s.render s.origin).pixels
    r.settings (fun _ => .missing) = .ok settings ∧ r.maxWidth.get .maxWidth 0 = .ok 40 ∧
      r.margin.get .margin 8 = .ok 8 ∧ settings.fontSize < 2 ^ 49 ∧ settings.dotRadius ≤ 8 ∧
      Raster.blockHeight settings.strokeWidth - 1 ≤ 8 ∧ settings.lineHeight = .ok 24 ∧
      settings.fontSize < 24 ∧
      ∃ measured extent : Int, ∃ f : Frame,
        s.measure.result = .ok measured ∧ (s.render .zero).result = .ok extent ∧
        f = ⟨measured + 2 * 8 + settings.strokeWidth, extent + 2 * 8⟩ ∧
        (∀ pixel ∈ pixels, 0 ≤ pixel.x ∧ pixel.x < f.width ∧ 0 ≤ pixel.y ∧ pixel.y < f.height) ∧
        match Canvas.excess? memory f.columns f.rows with
        | some cause => (r.picture memory settings).result = .error (.canvas cause)
        | none => ∃ painter : CanvasPainter, (r.picture memory settings).result = .ok ⟨f, painter⟩ ∧
            painter.discarded = 0 ∧ painter.painted = pixels.length ∧
            painter.canvas.width = f.width ∧ painter.canvas.height = f.height ∧
            ∀ target : Target, target.report f =
              .ok s!"wrote {target.path.toString} ({painter.canvas.width}x{painter.canvas.height})" := by
  have hheight : wrappedSettings.lineHeight = .ok 24 := by decide +kernel
  have hsettings : wrappedRequest.settings (fun _ => .missing) = .ok wrappedSettings := rfl
  exact ⟨hsettings, rfl, rfl, by decide, by decide, by decide, hheight, by decide,
    canvas_fits_text (2 ^ 20) hsettings rfl rfl (by decide) (by decide) (by decide) hheight (by decide)⟩

end Command

end StrokeFont
