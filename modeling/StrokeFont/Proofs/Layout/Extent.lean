import StrokeFont.Proofs.Glyph.Extent
import StrokeFont.Proofs.Keyed
import StrokeFont.Proofs.Layout.Partition

namespace StrokeFont

def GlyphStore.inEm (store : GlyphStore) : Bool :=
  store.programs.all fun (_, program) => (Glyph.trace program).result.toOption.all (·.inEm)

theorem GlyphStore.inEm_of_lookup {store : GlyphStore} (h : store.inEm = true) {n : Int}
    {program : String} (hn : store.lookup? n = some program) {t : Glyph.Trace}
    (ht : (Glyph.trace program).result = .ok t) : t.inEm = true := by
  have hprogram := List.all_eq_true.1 h _ (Keyed.mem_of_find? hn)
  simpa [ht, Except.toOption] using hprogram

namespace Layout

variable {fontSize : Int}

namespace Sized

/-- A glyph inside the em at its scaled advance, or a malformed one without an advance. -/
def InEm (fontSize : Int) (g : Sized) : Prop :=
  match g.trace with
  | none => g.advance = 0
  | some t => t.inEm = true ∧ g.advance = Scale.pixels fontSize t.advance

theorem InEm.advance_nonneg {g : Sized} (hg : g.InEm fontSize) (h : Scale.Exact fontSize) :
    0 ≤ g.advance := by
  obtain ⟨trace, advance⟩ := g
  cases trace with
  | none => exact hg.ge
  | some t =>
      obtain ⟨ht, hadvance⟩ := hg
      obtain ⟨hnonneg, hle, -⟩ := Glyph.Trace.inEm_iff.1 ht
      rw [hadvance]
      exact h.pixels_nonneg hnonneg hle

theorem InEm.ink_within {settings : Settings} {margin : Int} {g : Sized} (hg : g.InEm settings.fontSize)
    (h : Scale.Exact settings.fontSize) (hmargin : settings.FitsMargin margin) (place : Point) :
    ∀ pixel ∈ g.ink settings place, pixel.Within (Glyph.lowest settings margin place)
      (Glyph.highest settings margin g.advance place) := by
  obtain ⟨trace, advance⟩ := g
  intro pixel hpixel
  cases trace with
  | none => cases hpixel
  | some t =>
      obtain ⟨ht, hadvance⟩ := hg
      simp only [ink, Glyph.Trace.paint_of_fits (Glyph.Trace.fits_of_inEm h ht)] at hpixel
      simp only at hadvance
      rw [hadvance]
      exact Glyph.Trace.ink_within h hmargin ht place pixel hpixel

end Sized

section Places

variable {line : List Sized} {lines : List (List Sized)} {place origin : Point} {g : Sized}

theorem lineWidth_nonneg (h : ∀ g ∈ line, 0 ≤ g.advance) : 0 ≤ lineWidth line := by
  refine List.sum_nonneg fun n hn => ?_
  obtain ⟨g, hg, rfl⟩ := List.mem_map.1 hn
  exact h g hg

theorem init_le_foldl_max (n : Int) (ns : List Int) : n ≤ ns.foldl max n := by
  rw [List.foldl_max]
  exact le_max_left _ _

theorem le_foldl_max {n : Int} {ns : List Int} (h : n ∈ ns) (m : Int) : n ≤ ns.foldl max m := by
  rw [List.foldl_max_eq_max (List.ne_nil_of_mem h)]
  exact (List.le_max_of_mem h).trans (le_max_right _ _)

theorem lineWidth_le_widest (h : line ∈ lines) : lineWidth line ≤ (lines.map lineWidth).foldl max 0 :=
  le_foldl_max (List.mem_map_of_mem h) 0

theorem widest_nonneg (lines : List (List Sized)) : 0 ≤ (lines.map lineWidth).foldl max 0 :=
  init_le_foldl_max 0 _

theorem mem_linePlaces {left baseline : Int} (h : (place, g) ∈ linePlaces left baseline line) :
    ∃ before after, line = before ++ g :: after ∧ place = ⟨left + lineWidth before, baseline⟩ := by
  simp only [linePlaces, List.mem_map, Prod.exists, Prod.mk.injEq] at h
  obtain ⟨g', k, hk, rfl, rfl⟩ := h
  obtain ⟨hlt, rfl⟩ := List.getElem?_eq_some_iff.1 (List.mk_mem_zipIdx_iff_getElem?.1 hk)
  refine ⟨line.take k, line.drop (k + 1), ?_, rfl⟩
  rw [List.cons_getElem_drop_succ, List.take_append_drop]

theorem mem_places {lineHeight : Int} (h : (place, g) ∈ places origin lineHeight 0 lines) :
    ∃ i line, lines[i]? = some line ∧
      (place, g) ∈ linePlaces origin.x (origin.y + (i : Nat) * lineHeight) line := by
  simp only [places, List.mem_flatMap, Prod.exists] at h
  obtain ⟨line, i, hi, hplace⟩ := h
  exact ⟨i, line, List.mk_mem_zipIdx_iff_getElem?.1 hi, hplace⟩

theorem mem_of_mem_places {lineHeight : Int} (h : (place, g) ∈ places origin lineHeight 0 lines) :
    ∃ line ∈ lines, g ∈ line := by
  obtain ⟨i, line, hi, hplace⟩ := mem_places h
  obtain ⟨before, after, rfl, -⟩ := mem_linePlaces hplace
  exact ⟨_, List.mem_of_getElem? hi, List.mem_append_right _ List.mem_cons_self⟩

theorem place_bounds {lineHeight : Int} (hheight : 0 ≤ lineHeight)
    (hlines : ∀ line ∈ lines, ∀ g ∈ line, 0 ≤ g.advance)
    (h : (place, g) ∈ places origin lineHeight 0 lines) :
    origin.x ≤ place.x ∧ place.x + g.advance ≤ origin.x + (lines.map lineWidth).foldl max 0 ∧
      origin.y ≤ place.y ∧ place.y + lineHeight ≤ origin.y + lineHeight * lines.length := by
  obtain ⟨i, line, hi, hplace⟩ := mem_places h
  obtain ⟨hlt, rfl⟩ := List.getElem?_eq_some_iff.1 hi
  obtain ⟨before, after, hline, rfl⟩ := mem_linePlaces hplace
  have hmem : lines[i] ∈ lines := List.getElem_mem hlt
  have hadvances := hlines _ hmem
  have hwidest := lineWidth_le_widest hmem
  rw [hline] at hadvances hwidest
  have hbefore := lineWidth_nonneg fun g hg => hadvances g (List.mem_append_left _ hg)
  have hafter : 0 ≤ lineWidth after := lineWidth_nonneg fun g hg =>
    hadvances g (List.mem_append_right _ (List.mem_cons_of_mem _ hg))
  have hcons : lineWidth (g :: after) = g.advance + lineWidth after := by
    simpa using lineWidth_append [g] after
  rw [lineWidth_append, hcons] at hwidest
  have hrow : ((i : Int) + 1) * lineHeight ≤ lines.length * lineHeight := by
    gcongr
    exact_mod_cast hlt
  have htop : 0 ≤ (i : Int) * lineHeight := by positivity
  refine ⟨by simp only; omega, by simp only; omega, by simp only; omega, ?_⟩
  simp only
  linarith

end Places

namespace Page

variable {page : Page}

theorem inEm_of_glyph? (hstore : page.glyphs.inEm = true) {c : Char} {g : Sized}
    (hg : page.glyph? c = some g) : g.InEm page.settings.fontSize := by
  obtain ⟨program, hprogram, rfl⟩ := Option.map_eq_some_iff.1 hg
  cases ht : (Glyph.trace program).result with
  | error e => rfl
  | ok t => exact ⟨GlyphStore.inEm_of_lookup hstore hprogram ht, rfl⟩

theorem inEm_of_mem_lines (hstore : page.glyphs.inEm = true) (text : String) :
    ∀ line ∈ page.lines text, ∀ g ∈ line, g.InEm page.settings.fontSize := by
  intro line hline g hg
  have hmem := List.mem_flatten_of_mem hline hg
  rw [flatten_lines, List.mem_filterMap] at hmem
  obtain ⟨c, -, hc⟩ := hmem
  exact inEm_of_glyph? hstore hc

theorem fits_of_inEm (h : Scale.Exact page.settings.fontSize) (hstore : page.glyphs.inEm = true)
    (c : Char) : page.fits c = true := by
  rw [fits, Bool.or_eq_true]
  right
  cases hprogram : page.glyphs.lookup? c.toNat with
  | none => rfl
  | some program =>
      rw [Option.all_some]
      cases ht : (Glyph.trace program).result with
      | error e => rfl
      | ok t => exact Glyph.Trace.fits_of_inEm h (GlyphStore.inEm_of_lookup hstore hprogram ht)

/-- The box of all pixels of a text: as wide as it is measured, as high as it is rendered, with a
margin on all sides and the width of the pen on the right. -/
theorem render_within (h : Scale.Exact page.settings.fontSize) (hstore : page.glyphs.inEm = true)
    {margin : Int} (hmargin : page.settings.FitsMargin margin) {lineHeight : Int}
    (hheight : page.settings.lineHeight = .ok lineHeight) (hnonneg : 0 ≤ lineHeight)
    {text : String} (origin : Point) :
    ∀ pixel ∈ (page.render origin text).pixels, pixel.Within
      (Glyph.lowest page.settings margin origin)
      (Glyph.highest page.settings margin (((page.lines text).map lineWidth).foldl max 0)
        ⟨origin.x, origin.y + lineHeight * (page.lines text).length - lineHeight⟩) := by
  intro pixel hpixel
  rw [(render_of_fits (fun c _ => fits_of_inEm h hstore c) hheight origin).1] at hpixel
  obtain ⟨⟨place, g⟩, hplace, hpixel⟩ := List.mem_flatMap.1 hpixel
  have hlines := inEm_of_mem_lines hstore text
  obtain ⟨hx, hx', hy, hy'⟩ := place_bounds hnonneg
    (fun line hline g hg => (hlines line hline g hg).advance_nonneg h) hplace
  obtain ⟨line, hline, hg⟩ := mem_of_mem_places hplace
  obtain ⟨hleft, hright, htop, hbottom⟩ :=
    (hlines line hline g hg).ink_within h hmargin place pixel hpixel
  simp only [Glyph.lowest, Glyph.highest] at hleft hright htop hbottom
  constructor <;> simp only [Glyph.lowest, Glyph.highest] <;> omega

end Page

end Layout

end StrokeFont
