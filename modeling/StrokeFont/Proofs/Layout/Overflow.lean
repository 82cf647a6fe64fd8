import StrokeFont.Proofs.Layout.Limit

namespace StrokeFont.Layout

open Binary (ConversionError)

namespace Page

/-- One round of the painting loop: where the cursor stands behind a character. -/
def renderRound (page : Page) (lineHeight left : Int) (cursor : Point) (c : Char) : Drawing Point :=
  if c = '\n' then return ⟨left, cursor.y + lineHeight⟩
  else do
    match ← page.sized? c with
    | none => return cursor
    | some g =>
        let place := page.nextPlace lineHeight left cursor g
        page.paintSized place g
        return ⟨place.x + g.advance, place.y⟩

def measureRound (page : Page) (widths : Int × Int) (c : Char) : Noted ConversionError (Int × Int) :=
  let (widest, line) := widths
  if c = '\n' then return (max widest line, 0)
  else do
    match ← page.sized? c with
    | none => return (widest, line)
    | some g =>
        if wraps page.maxWidth line g.advance then return (max widest line, g.advance)
        else return (widest, line + g.advance)

variable {page : Page} {c : Char} {text : List Char}

theorem renderFrom_eq_foldlM (page : Page) (lineHeight left : Int) (cursor : Point) (text : List Char) :
    page.renderFrom lineHeight left cursor text =
      Point.y <$> text.foldlM (page.renderRound lineHeight left) cursor := by
  induction text generalizing cursor with
  | nil => rfl
  | cons c rest ih =>
      rw [List.foldlM_cons, map_bind, renderRound]
      by_cases hc : c = '\n'
      · rw [renderFrom, if_pos hc, if_pos hc, pure_bind, ih]
      · rw [renderFrom_cons hc, if_neg hc, bind_assoc]
        congr 1
        funext glyph
        cases glyph with
        | none => simp only [pure_bind, ih]
        | some g => simp only [bind_assoc, pure_bind, ih]

theorem measureFrom_eq_foldlM (page : Page) (widest line : Int) (text : List Char) :
    page.measureFrom widest line text =
      (fun widths => max widths.1 widths.2) <$> text.foldlM page.measureRound (widest, line) := by
  induction text generalizing widest line with
  | nil => rfl
  | cons c rest ih =>
      rw [List.foldlM_cons, map_bind, measureRound]
      by_cases hc : c = '\n'
      · rw [measureFrom, if_pos hc, if_pos hc, pure_bind, ih]
      · rw [measureFrom_cons hc, if_neg hc, bind_assoc]
        congr 1
        funext glyph
        cases glyph with
        | none => simp only [pure_bind, ih]
        | some g =>
            simp only
            split <;> simp only [pure_bind, ih]

end Page

namespace Stage

variable {maxWidth : Int} {s : Stage} {items : List Item}

def cursor (origin : Point) (lineHeight : Int) (s : Stage) : Point :=
  ⟨origin.x + lineWidth s.line, origin.y + s.ended * lineHeight⟩

theorem cursor_eq (origin : Point) (lineHeight : Int) (s : Stage) :
    s.cursor origin lineHeight = Page.cursorBehind origin lineHeight s.ended s.line := rfl

theorem getLast?_cons_breakLines (ended line : List Sized) (items : List Item) :
    (ended :: breakLines maxWidth line items).getLast? = (breakLines maxWidth line items).getLast? :=
  List.getLast?_cons_of_ne_nil (breakLines_ne_nil maxWidth line items)

theorem line_foldl (maxWidth : Int) (s : Stage) (items : List Item) :
    (breakLines maxWidth s.line items).getLast? = some (items.foldl (put maxWidth) s).line := by
  induction items generalizing s with
  | nil => rfl
  | cons item items ih =>
      rw [List.foldl_cons, ← ih]
      cases item with
      | newline => exact getLast?_cons_breakLines s.line [] items
      | glyph g =>
          rw [put, breakLines]
          split
          · exact getLast?_cons_breakLines s.line [g] items
          · rfl

end Stage

namespace Page

variable {page : Page} {c : Char} {text : List Char} {lineHeight : Int} {origin : Point} {s : Stage}

def next (page : Page) (s : Stage) (c : Char) : Stage :=
  match page.item? c with
  | none => s
  | some item => s.put page.maxWidth item

theorem next_newline (page : Page) (s : Stage) : page.next s '\n' = ⟨s.ended + 1, []⟩ := rfl

theorem next_of_missing (hc : c ≠ '\n') (hg : page.glyph? c = none) (s : Stage) : page.next s c = s := by
  rw [next, item?_of_glyph hc hg, Option.map_none]

theorem next_of_glyph (hc : c ≠ '\n') {g : Sized} (hg : page.glyph? c = some g) (s : Stage) :
    page.next s c = s.put page.maxWidth (.glyph g) := by
  rw [next, item?_of_glyph hc hg, Option.map_some]

theorem cursor_put (page : Page) (lineHeight : Int) (origin : Point) (s : Stage) (g : Sized) :
    let place := page.nextPlace lineHeight origin.x (s.cursor origin lineHeight) g
    (s.put page.maxWidth (.glyph g)).cursor origin lineHeight = ⟨place.x + g.advance, place.y⟩ := by
  have hplace := nextPlace_cursorBehind page origin lineHeight s.ended s.line g
  simp only [Stage.cursor_eq, hplace, Stage.put]
  split
  · exact cursorBehind_concat origin lineHeight (s.ended + 1) [] g
  · exact cursorBehind_concat origin lineHeight s.ended s.line g

theorem renderRound_of_fits (hfits : page.fits c = true) (lineHeight : Int) (origin : Point) (s : Stage) :
    (page.renderRound lineHeight origin.x (s.cursor origin lineHeight) c).result =
      .ok ((page.next s c).cursor origin lineHeight) := by
  rw [renderRound]
  split
  · rename_i hc
    subst hc
    rw [next_newline, Stage.cursor_eq, Stage.cursor_eq, cursorBehind_newline origin lineHeight s.ended s.line]
    rfl
  · rename_i hc
    obtain ⟨hsized, hglyph⟩ := sized?_of_fits hfits hc
    have hlift : (liftM (page.sized? c) : Drawing _).result = .ok (page.glyph? c) := hsized
    rw [Drawing.bind_of_ok hlift]
    cases hg : page.glyph? c with
    | none =>
        rw [next_of_missing hc hg]
        rfl
    | some g =>
        let place := page.nextPlace lineHeight origin.x (s.cursor origin lineHeight) g
        have hpaint : (page.paintSized place g).result = .ok () := (paintSized_of_fits (hglyph g hg) place).2
        rw [next_of_glyph hc hg, cursor_put]
        simp only
        rw [Drawing.bind_of_ok hpaint]
        rfl

theorem measureRound_of_fits (hfits : page.fits c = true) (widest : Int) (s : Stage) :
    ∃ widest', (page.measureRound (widest, lineWidth s.line) c).result =
      .ok (widest', lineWidth (page.next s c).line) := by
  rw [measureRound]
  split
  · rename_i hc
    subst hc
    exact ⟨_, rfl⟩
  · rename_i hc
    rw [Noted.bind_of_ok (sized?_of_fits hfits hc).1]
    cases hg : page.glyph? c with
    | none => exact ⟨widest, by rw [next_of_missing hc hg]; rfl⟩
    | some g =>
        rw [next_of_glyph hc hg, Stage.put]
        simp only [wraps_iff]
        split
        · exact ⟨max widest (lineWidth s.line), by rw [lineWidth_singleton]; rfl⟩
        · exact ⟨widest, by rw [lineWidth_append, lineWidth_singleton]; rfl⟩

theorem renderRounds_of_fits (h : ∀ c ∈ text, page.fits c = true) (lineHeight : Int) (origin : Point)
    (s : Stage) :
    (text.foldlM (page.renderRound lineHeight origin.x) (s.cursor origin lineHeight)).result =
      .ok ((text.foldl page.next s).cursor origin lineHeight) := by
  induction text generalizing s with
  | nil => rfl
  | cons c rest ih =>
      obtain ⟨hc, hrest⟩ := List.forall_mem_cons.1 h
      rw [List.foldlM_cons, Drawing.bind_of_ok (renderRound_of_fits hc lineHeight origin s)]
      exact ih hrest (page.next s c)

theorem measureRounds_of_fits (h : ∀ c ∈ text, page.fits c = true) (widest : Int) (s : Stage) :
    ∃ widest', (text.foldlM page.measureRound (widest, lineWidth s.line)).result =
      .ok (widest', lineWidth (text.foldl page.next s).line) := by
  induction text generalizing widest s with
  | nil => exact ⟨widest, rfl⟩
  | cons c rest ih =>
      obtain ⟨hc, hrest⟩ := List.forall_mem_cons.1 h
      obtain ⟨widest', hround⟩ := measureRound_of_fits hc widest s
      rw [List.foldlM_cons, Noted.bind_of_ok hround]
      exact ih hrest widest' (page.next s c)

theorem getLast?_lines (page : Page) (text : List Char) :
    (page.lines (.ofList text)).getLast? = some (text.foldl page.next ⟨0, []⟩).line := by
  have hstages : text.foldl page.next ⟨0, []⟩ =
      (text.filterMap page.item?).foldl (Stage.put page.maxWidth) ⟨0, []⟩ := by
    rw [List.foldl_filterMap]
    congr 1
    funext s c
    cases hitem : page.item? c <;> simp only [next, hitem]
  rw [hstages, ← Stage.line_foldl, lines, String.toList_ofList]

end Page

theorem Page.width_le (page : Page) (hpos : 0 < page.maxWidth) (text : String) :
    ((page.lines text).map lineWidth).foldl max 0 ≤
      ((page.glyphsOf text).map Sized.advance).foldl max (page.maxWidth - 1) := by
  have hlimit := init_le_foldl_max (page.maxWidth - 1) ((page.glyphsOf text).map Sized.advance)
  apply widest_le
  · omega
  · intro line hline
    rcases narrow_or_single (.inl hpos) hpos line hline with hnarrow | ⟨g, rfl⟩
    · omega
    · rw [lineWidth_singleton]
      apply le_foldl_max
      exact List.mem_map_of_mem (mem_glyphsOf.2 ⟨[g], hline, List.mem_cons_self⟩)

/-- The glyphs on the open line behind a part of a text. Both loops have come as far as these glyphs are
wide, which is less than the limit unless there is only one. -/
structure Page.OpenLine (page : Page) (lineHeight : Int) (origin : Point) (text : List Char)
    (line : List Sized) : Prop where
  last : (page.lines (.ofList text)).getLast? = some line
  cursor : ∃ y, (text.foldlM (page.renderRound lineHeight origin.x) origin).result =
    .ok ⟨origin.x + lineWidth line, y⟩
  widths : ∃ widest, (text.foldlM page.measureRound (0, 0)).result = .ok (widest, lineWidth line)
  room : lineWidth line < page.maxWidth ∨ ∃ g, line = [g] ∧ lineWidth line = g.advance

theorem Page.openLine_of_fits {page : Page} (hpos : 0 < page.maxWidth) {text : List Char}
    (h : ∀ c ∈ text, page.fits c = true) (lineHeight : Int) (origin : Point) :
    page.OpenLine lineHeight origin text (text.foldl page.next ⟨0, []⟩).line where
  last := page.getLast?_lines text
  cursor := by
    have hstart : (⟨0, []⟩ : Stage).cursor origin lineHeight = origin := by simp [Stage.cursor]
    have hcursor := renderRounds_of_fits h lineHeight origin ⟨0, []⟩
    rw [hstart] at hcursor
    exact ⟨_, hcursor⟩
  widths := measureRounds_of_fits h 0 ⟨0, []⟩
  room := by
    have hline := List.mem_of_getLast? (page.getLast?_lines text)
    rcases narrow_or_single (.inl hpos) hpos _ hline with hnarrow | ⟨g, hg⟩
    · exact .inl hnarrow
    · exact .inr ⟨g, hg, by rw [hg, lineWidth_singleton]⟩

/-- The loops that paint and measure a text are runs of their rounds. Behind every character the open
line has room below the limit or holds a lone glyph, so a text is no wider than the limit allows or than
its widest glyph. -/
theorem only_lone_glyph_reaches_limit (page : Page) {origin : Point} {text : String} {extent : Int}
    (hpos : 0 < page.maxWidth) (h : (page.render origin text).result = .ok extent) :
    ∃ lineHeight width, page.settings.lineHeight = .ok lineHeight ∧
      page.renderFrom lineHeight origin.x origin text.toList =
        Point.y <$> text.toList.foldlM (page.renderRound lineHeight origin.x) origin ∧
      page.measure text =
        (fun widths => max widths.1 widths.2) <$> text.toList.foldlM page.measureRound (0, 0) ∧
      (∀ before, before <+: text.toList → ∃ line, page.OpenLine lineHeight origin before line) ∧
      (page.measure text).result = .ok width ∧ 0 ≤ width ∧
      width ≤ ((page.glyphsOf text).map Sized.advance).foldl max (page.maxWidth - 1) := by
  obtain ⟨⟨lineHeight, hheight⟩, hfits⟩ := page.fits_of_render h
  refine ⟨lineHeight, _, hheight, page.renderFrom_eq_foldlM .., page.measureFrom_eq_foldlM ..,
    fun before hbefore => ?_, page.measure_of_fits hfits, widest_nonneg _, page.width_le hpos text⟩
  have hbefore' : ∀ c ∈ before, page.fits c = true := fun c hc => hfits c (hbefore.subset hc)
  exact ⟨_, Page.openLine_of_fits hpos hbefore' lineHeight origin⟩

def wideStore : GlyphStore := ⟨[(87, "a6 M46 p0-4"), (63, "P1"), (45, "a-3 M12d")]⟩

theorem only_lone_glyph_reaches_limit_wide :
    let page : Page := ⟨wideStore, .default, 10⟩
    let text := "W?-W-\n-WW"
    0 < page.maxWidth ∧ (page.render ⟨3, 40⟩ text).result = .ok 120 ∧
      ∃ lineHeight width, page.settings.lineHeight = .ok lineHeight ∧
        page.renderFrom lineHeight 3 ⟨3, 40⟩ text.toList =
          Point.y <$> text.toList.foldlM (page.renderRound lineHeight 3) ⟨3, 40⟩ ∧
        page.measure text =
          (fun widths => max widths.1 widths.2) <$> text.toList.foldlM page.measureRound (0, 0) ∧
        (∀ before, before <+: text.toList → ∃ line, page.OpenLine lineHeight ⟨3, 40⟩ before line) ∧
        (page.measure text).result = .ok width ∧ 0 ≤ width ∧
        width ≤ ((page.glyphsOf text).map Sized.advance).foldl max (page.maxWidth - 1) := by
  intro page text
  have hpos : 0 < page.maxWidth := by decide
  have hrender : (page.render ⟨3, 40⟩ text).result = .ok 120 := by decide +kernel
  exact ⟨hpos, hrender, only_lone_glyph_reaches_limit page hpos hrender⟩

end StrokeFont.Layout
