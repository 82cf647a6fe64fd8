import Mathlib.Tactic.Ring
import StrokeFont.Proofs.Layout.Lines

namespace StrokeFont.Layout

theorem wraps_iff (maxWidth line advance : Int) :
    wraps maxWidth line advance = true ↔ 0 < maxWidth ∧ maxWidth ≤ line + advance := by
  simp only [wraps, Bool.and_eq_true, decide_eq_true_eq]

namespace Page

variable {page : Page} {c : Char} {rest : List Char}

theorem item?_newline (page : Page) : page.item? '\n' = some .newline := if_pos rfl

theorem item?_of_glyph (hc : c ≠ '\n') {glyph : Option Sized} (h : page.glyph? c = glyph) :
    page.item? c = glyph.map .glyph := by
  rw [item?, if_neg hc, h]

theorem measureFrom_cons (hc : c ≠ '\n') (widest line : Int) :
    page.measureFrom widest line (c :: rest) = (do
      match ← page.sized? c with
      | none => page.measureFrom widest line rest
      | some g =>
          if wraps page.maxWidth line g.advance then
            page.measureFrom (max widest line) g.advance rest
          else page.measureFrom widest (line + g.advance) rest) :=
  if_neg hc

theorem measureFrom_of_glyph (hfits : page.fits c = true) (hc : c ≠ '\n') (widest line : Int) :
    (page.measureFrom widest line (c :: rest)).result =
      match page.glyph? c with
      | none => (page.measureFrom widest line rest).result
      | some g =>
          if 0 < page.maxWidth ∧ page.maxWidth ≤ line + g.advance then
            (page.measureFrom (max widest line) g.advance rest).result
          else (page.measureFrom widest (line + g.advance) rest).result := by
  rw [measureFrom_cons hc, Noted.bind_of_ok (sized?_of_fits hfits hc).1]
  cases page.glyph? c with
  | none => rfl
  | some g =>
      simp only [wraps_iff]
      split <;> rfl

theorem measureFrom_of_fits {text : List Char} (h : ∀ c ∈ text, page.fits c = true) (widest : Int)
    (line : List Sized) :
    (page.measureFrom widest (lineWidth line) text).result =
      .ok (((breakLines page.maxWidth line (text.filterMap page.item?)).map lineWidth).foldl max
        widest) := by
  induction text generalizing widest line with
  | nil => rfl
  | cons c rest ih =>
      have hrest := ih fun d hd => h d (List.mem_cons_of_mem _ hd)
      by_cases hc : c = '\n'
      · subst hc
        rw [measureFrom, if_pos rfl, List.filterMap_cons_some page.item?_newline]
        exact hrest (max widest (lineWidth line)) []
      · rw [measureFrom_of_glyph (h c List.mem_cons_self) hc]
        cases hg : page.glyph? c with
        | none =>
            rw [List.filterMap_cons_none (item?_of_glyph hc hg)]
            exact hrest widest line
        | some g =>
            rw [List.filterMap_cons_some (item?_of_glyph hc hg), breakLines]
            by_cases hfull : 0 < page.maxWidth ∧ page.maxWidth ≤ lineWidth line + g.advance
            · simp only [if_pos hfull]
              simpa using hrest (max widest (lineWidth line)) [g]
            · simp only [if_neg hfull]
              simpa using hrest widest (line ++ [g])

def nextPlace (page : Page) (lineHeight left : Int) (cursor : Point) (g : Sized) : Point :=
  if wraps page.maxWidth (cursor.x - left) g.advance then ⟨left, cursor.y + lineHeight⟩ else cursor

theorem renderFrom_cons (hc : c ≠ '\n') {lineHeight left : Int} {cursor : Point} :
    page.renderFrom lineHeight left cursor (c :: rest) = (do
      match ← page.sized? c with
      | none => page.renderFrom lineHeight left cursor rest
      | some g =>
          let place := page.nextPlace lineHeight left cursor g
          page.paintSized place g
          page.renderFrom lineHeight left ⟨place.x + g.advance, place.y⟩ rest) :=
  if_neg hc

theorem renderFrom_of_missing (rest : List Char) (hfits : page.fits c = true) (hc : c ≠ '\n')
    (hg : page.glyph? c = none) (lineHeight left : Int) (cursor : Point) :
    (page.renderFrom lineHeight left cursor (c :: rest)).pixels =
        (page.renderFrom lineHeight left cursor rest).pixels ∧
      (page.renderFrom lineHeight left cursor (c :: rest)).result =
        (page.renderFrom lineHeight left cursor rest).result := by
  have hsized := (sized?_of_fits hfits hc).1
  rw [hg] at hsized
  have hlift : (liftM (page.sized? c) : Drawing _).result = .ok none := hsized
  rw [renderFrom_cons hc, Drawing.bind_of_ok hlift]
  exact ⟨List.nil_append _, rfl⟩

theorem renderFrom_of_glyph (rest : List Char) (hfits : page.fits c = true) (hc : c ≠ '\n') {g : Sized}
    (hg : page.glyph? c = some g) {lineHeight left : Int} {cursor place : Point}
    (hplace : page.nextPlace lineHeight left cursor g = place) :
    (page.renderFrom lineHeight left cursor (c :: rest)).pixels =
        g.ink page.settings place ++
          (page.renderFrom lineHeight left ⟨place.x + g.advance, place.y⟩ rest).pixels ∧
      (page.renderFrom lineHeight left cursor (c :: rest)).result =
        (page.renderFrom lineHeight left ⟨place.x + g.advance, place.y⟩ rest).result := by
  obtain ⟨hsized, hglyph⟩ := sized?_of_fits hfits hc
  rw [hg] at hsized
  have hlift : (liftM (page.sized? c) : Drawing _).result = .ok (some g) := hsized
  obtain ⟨hpixels, hresult⟩ := paintSized_of_fits (hglyph g hg) place
  have hpaint := Drawing.bind_of_ok hresult fun _ =>
    page.renderFrom lineHeight left ⟨place.x + g.advance, place.y⟩ rest
  subst hplace
  rw [renderFrom_cons hc, Drawing.bind_of_ok hlift]
  constructor
  · refine (congrArg Drawing.pixels hpaint).trans ?_
    rw [← hpixels]
  · have hresult := congrArg Drawing.result hpaint
    exact hresult

def lastBaseline (top lineHeight : Int) (n : Nat) (lines : List (List Sized)) : Int :=
  top + (n + lines.length - 1) * lineHeight

theorem lastBaseline_singleton (top lineHeight : Int) (n : Nat) (line : List Sized) :
    lastBaseline top lineHeight n [line] = top + n * lineHeight := by
  simp [lastBaseline]

theorem lastBaseline_cons (top lineHeight : Int) (n : Nat) (line : List Sized)
    (lines : List (List Sized)) :
    lastBaseline top lineHeight n (line :: lines) = lastBaseline top lineHeight (n + 1) lines := by
  simp only [lastBaseline, List.length_cons]
  push_cast
  ring

section Tracks

variable {origin : Point} {lineHeight : Int} {n : Nat} {line : List Sized} {g : Sized}

def cursorBehind (origin : Point) (lineHeight : Int) (n : Nat) (line : List Sized) : Point :=
  ⟨origin.x + lineWidth line, origin.y + n * lineHeight⟩

theorem cursorBehind_newline (origin : Point) (lineHeight : Int) (n : Nat) (line : List Sized) :
    cursorBehind origin lineHeight (n + 1) [] =
      ⟨origin.x, (cursorBehind origin lineHeight n line).y + lineHeight⟩ := by
  simp only [cursorBehind, lineWidth_nil, Int.add_zero]
  congr 1
  push_cast
  ring

theorem cursorBehind_concat (origin : Point) (lineHeight : Int) (n : Nat) (line : List Sized) (g : Sized) :
    cursorBehind origin lineHeight n (line ++ [g]) = ⟨(cursorBehind origin lineHeight n line).x + g.advance,
      (cursorBehind origin lineHeight n line).y⟩ := by
  simp only [cursorBehind, lineWidth_append, lineWidth_singleton, Int.add_assoc]

theorem nextPlace_cursorBehind (page : Page) (origin : Point) (lineHeight : Int) (n : Nat)
    (line : List Sized) (g : Sized) :
    page.nextPlace lineHeight origin.x (cursorBehind origin lineHeight n line) g =
      if 0 < page.maxWidth ∧ page.maxWidth ≤ lineWidth line + g.advance then
        cursorBehind origin lineHeight (n + 1) []
      else cursorBehind origin lineHeight n line := by
  have hwidth : (cursorBehind origin lineHeight n line).x - origin.x = lineWidth line :=
    add_sub_cancel_left _ _
  simp only [nextPlace, hwidth, wraps_iff, cursorBehind_newline origin lineHeight n line]

theorem renderFrom_behind (rest : List Char) (hfits : page.fits c = true) (hc : c ≠ '\n')
    (hg : page.glyph? c = some g) {cursor : Point}
    (hplace : page.nextPlace lineHeight origin.x cursor g = cursorBehind origin lineHeight n line) :
    inkAll page.settings (linePlaces origin.x (origin.y + n * lineHeight) line) ++
        (page.renderFrom lineHeight origin.x cursor (c :: rest)).pixels =
      inkAll page.settings (linePlaces origin.x (origin.y + n * lineHeight) (line ++ [g])) ++
        (page.renderFrom lineHeight origin.x (cursorBehind origin lineHeight n (line ++ [g])) rest).pixels ∧
    (page.renderFrom lineHeight origin.x cursor (c :: rest)).result =
      (page.renderFrom lineHeight origin.x (cursorBehind origin lineHeight n (line ++ [g])) rest).result := by
  obtain ⟨hpixels, hresult⟩ := renderFrom_of_glyph rest hfits hc hg hplace
  rw [hpixels, hresult, cursorBehind_concat, linePlaces_concat, inkAll_append, inkAll_singleton,
    List.append_assoc]
  exact ⟨rfl, rfl⟩

/-- The painting loop behind the glyphs `line` of line `n` keeps to the lines that the text makes behind them.
What these glyphs painted is added on the left, so that the whole of the current line stands on both sides. -/
structure Tracks (page : Page) (origin : Point) (lineHeight : Int) (n : Nat) (line : List Sized)
    (text : List Char) : Prop where
  pixels : inkAll page.settings (linePlaces origin.x (origin.y + n * lineHeight) line) ++
      (page.renderFrom lineHeight origin.x (cursorBehind origin lineHeight n line) text).pixels =
    inkAll page.settings
      (places origin lineHeight n (breakLines page.maxWidth line (text.filterMap page.item?)))
  result : (page.renderFrom lineHeight origin.x (cursorBehind origin lineHeight n line) text).result =
    .ok (lastBaseline origin.y lineHeight n (breakLines page.maxWidth line (text.filterMap page.item?)))

namespace Tracks

theorem nil (page : Page) : Tracks page origin lineHeight n line [] where
  pixels := by simp [renderFrom, breakLines, places_cons]
  result := by simp [renderFrom, breakLines, cursorBehind, lastBaseline_singleton]

theorem newline (h : Tracks page origin lineHeight (n + 1) [] rest) :
    Tracks page origin lineHeight n line ('\n' :: rest) := by
  obtain ⟨hpixels, hresult⟩ := h
  rw [cursorBehind_newline origin lineHeight n line] at hpixels hresult
  constructor
  · rw [renderFrom, if_pos rfl, List.filterMap_cons_some page.item?_newline, breakLines, places_cons,
      inkAll_append]
    exact congrArg (_ ++ ·) hpixels
  · rw [renderFrom, if_pos rfl, List.filterMap_cons_some page.item?_newline, breakLines, lastBaseline_cons]
    exact hresult

theorem missing (hfits : page.fits c = true) (hc : c ≠ '\n') (hg : page.glyph? c = none)
    (h : Tracks page origin lineHeight n line rest) : Tracks page origin lineHeight n line (c :: rest) := by
  obtain ⟨hpixels, hresult⟩ := renderFrom_of_missing rest hfits hc hg lineHeight origin.x
    (cursorBehind origin lineHeight n line)
  constructor
  · rw [hpixels, List.filterMap_cons_none (item?_of_glyph hc hg)]
    exact h.pixels
  · rw [hresult, List.filterMap_cons_none (item?_of_glyph hc hg)]
    exact h.result

theorem wrapped (hfits : page.fits c = true) (hc : c ≠ '\n') (hg : page.glyph? c = some g)
    (hfull : 0 < page.maxWidth ∧ page.maxWidth ≤ lineWidth line + g.advance)
    (h : Tracks page origin lineHeight (n + 1) [g] rest) :
    Tracks page origin lineHeight n line (c :: rest) := by
  obtain ⟨hpixels, hresult⟩ := renderFrom_behind rest hfits hc hg
    ((nextPlace_cursorBehind page origin lineHeight n line g).trans (if_pos hfull))
  constructor
  · rw [List.filterMap_cons_some (item?_of_glyph hc hg), breakLines, if_pos hfull, places_cons, inkAll_append]
    exact congrArg (_ ++ ·) (hpixels.trans h.pixels)
  · rw [hresult, List.filterMap_cons_some (item?_of_glyph hc hg), breakLines, if_pos hfull, lastBaseline_cons]
    exact h.result

theorem joined (hfits : page.fits c = true) (hc : c ≠ '\n') (hg : page.glyph? c = some g)
    (hroom : ¬ (0 < page.maxWidth ∧ page.maxWidth ≤ lineWidth line + g.advance))
    (h : Tracks page origin lineHeight n (line ++ [g]) rest) :
    Tracks page origin lineHeight n line (c :: rest) := by
  obtain ⟨hpixels, hresult⟩ := renderFrom_behind rest hfits hc hg
    ((nextPlace_cursorBehind page origin lineHeight n line g).trans (if_neg hroom))
  constructor
  · rw [hpixels, List.filterMap_cons_some (item?_of_glyph hc hg), breakLines, if_neg hroom]
    exact h.pixels
  · rw [hresult, List.filterMap_cons_some (item?_of_glyph hc hg), breakLines, if_neg hroom]
    exact h.result

end Tracks

theorem renderFrom_of_fits {text : List Char} (h : ∀ c ∈ text, page.fits c = true) (origin : Point)
    (lineHeight : Int) (n : Nat) (line : List Sized) : Tracks page origin lineHeight n line text := by
  induction text generalizing n line with
  | nil => exact .nil page
  | cons c rest ih =>
      obtain ⟨hfits, hrest⟩ := List.forall_mem_cons.1 h
      by_cases hc : c = '\n'
      · subst hc
        exact (ih hrest (n + 1) []).newline
      · cases hg : page.glyph? c with
        | none => exact (ih hrest n line).missing hfits hc hg
        | some g =>
            by_cases hfull : 0 < page.maxWidth ∧ page.maxWidth ≤ lineWidth line + g.advance
            · exact (ih hrest (n + 1) [g]).wrapped hfits hc hg hfull
            · exact (ih hrest n (line ++ [g])).joined hfits hc hg hfull

end Tracks

theorem measure_of_fits {text : String} (h : ∀ c ∈ text.toList, page.fits c = true) :
    (page.measure text).result = .ok (((page.lines text).map lineWidth).foldl max 0) :=
  measureFrom_of_fits h 0 []

theorem render_of_fits {text : String} (h : ∀ c ∈ text.toList, page.fits c = true)
    {lineHeight : Int} (hheight : page.settings.lineHeight = .ok lineHeight) (origin : Point) :
    (page.render origin text).pixels =
        inkAll page.settings (places origin lineHeight 0 (page.lines text)) ∧
      (page.render origin text).result = .ok (lineHeight * (page.lines text).length) := by
  have hcursor : cursorBehind origin lineHeight 0 [] = origin := by simp [cursorBehind]
  obtain ⟨hpixels, hresult⟩ := renderFrom_of_fits h origin lineHeight 0 []
  rw [hcursor] at hpixels hresult
  rw [render, hheight]
  have hlast := Drawing.bind_of_ok hresult fun last => (pure (last - origin.y + lineHeight) : Drawing Int)
  constructor
  · exact (congrArg Drawing.pixels hlast).trans ((List.append_nil _).trans hpixels)
  · refine (congrArg Drawing.result hlast).trans (congrArg Except.ok ?_)
    simp only [lines, lastBaseline]
    push_cast
    ring

theorem flatten_lines (page : Page) (text : String) :
    (page.lines text).flatten = (text.toList.filter (· ≠ '\n')).filterMap page.glyph? := by
  rw [lines, flatten_breakLines, List.nil_append, List.filterMap_filterMap, List.filterMap_filter]
  congr 1
  funext c
  by_cases hc : c = '\n'
  · simp [item?, hc, Item.glyph?]
  · cases hg : page.glyph? c <;> simp [item?, hc, hg, Item.glyph?]

theorem mem_glyphsOf {g : Sized} {text : String} :
    g ∈ page.glyphsOf text ↔ ∃ line ∈ page.lines text, g ∈ line := by
  rw [glyphsOf, ← flatten_lines, List.mem_flatten]

end Page

/-- One list of lines, of all glyphs of the text in order, is behind painting and measuring: its widest
line is measured, its number of lines makes the height, and each glyph is painted where it stands. -/
theorem render_and_measure_share_lines (page : Page) (origin : Point) (text : String)
    {lineHeight : Int} (hheight : page.settings.lineHeight = .ok lineHeight)
    (hfits : ∀ c ∈ text.toList, page.fits c = true) :
    let lines := page.lines text
    let rendered := render (some page.glyphs) page.settings page.maxWidth origin text
    lines.flatten = (text.toList.filter (· ≠ '\n')).filterMap page.glyph? ∧
      (measure (some page.glyphs) page.settings page.maxWidth text).result =
        .ok ((lines.map lineWidth).foldl max 0) ∧
      rendered.result = .ok (lineHeight * lines.length) ∧
      rendered.pixels = inkAll page.settings (places origin lineHeight 0 lines) := by
  obtain ⟨hpixels, hresult⟩ := Page.render_of_fits hfits hheight origin
  exact ⟨page.flatten_lines text, Page.measure_of_fits hfits, hresult, hpixels⟩

def narrowPage : Page where
  glyphs := ⟨[(97, "a6 M46 p0-4"), (98, "P1"), (45, "a-3 M12d")]⟩
  settings := .default
  maxWidth := 20

theorem render_and_measure_share_lines_narrow :
    let lines := narrowPage.lines "ab-a\nc aa"
    let rendered := render (some narrowPage.glyphs) .default 20 ⟨3, 40⟩ "ab-a\nc aa"
    Settings.default.lineHeight = .ok 24 ∧
      (∀ c ∈ "ab-a\nc aa".toList, narrowPage.fits c = true) ∧
      lines.flatten = ("ab-a\nc aa".toList.filter (· ≠ '\n')).filterMap narrowPage.glyph? ∧
      (measure (some narrowPage.glyphs) .default 20 "ab-a\nc aa").result =
        .ok ((lines.map lineWidth).foldl max 0) ∧
      rendered.result = .ok (24 * lines.length) ∧
      rendered.pixels = inkAll .default (places ⟨3, 40⟩ 24 0 lines) := by
  have hheight : Settings.default.lineHeight = .ok 24 := by decide +kernel
  have hall : "ab-a\nc aa".toList.all narrowPage.fits = true := by decide +kernel
  have hfits : ∀ c ∈ "ab-a\nc aa".toList, narrowPage.fits c = true := List.all_eq_true.1 hall
  exact ⟨hheight, hfits, render_and_measure_share_lines narrowPage ⟨3, 40⟩ "ab-a\nc aa" hheight hfits⟩

end StrokeFont.Layout
