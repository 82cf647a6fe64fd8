import StrokeFont.Proofs.Layout.Extent
import StrokeFont.Proofs.Layout.Success

namespace StrokeFont.Layout

namespace Sized

def blank : Sized := ⟨none, 0⟩

theorem blank_advance : blank.advance = 0 := rfl

def isVisible (g : Sized) : Bool := g ≠ blank

theorem isVisible_blank : blank.isVisible = false := rfl

theorem isVisible_of_ne {g : Sized} (h : g ≠ blank) : g.isVisible = true := decide_eq_true h

theorem ink_blank (settings : Settings) (place : Point) : blank.ink settings place = [] := rfl

end Sized

def Item.isVisible : Item → Bool
  | newline => true
  | glyph g => g.isVisible

section Lines

variable {maxWidth : Int} {line : List Sized} {items : List Item}

@[simp] theorem lineWidth_filter_visible (line : List Sized) :
    lineWidth (line.filter Sized.isVisible) = lineWidth line := by
  induction line with
  | nil => rfl
  | cons g line ih =>
      simp only [lineWidth, List.filter_cons] at ih ⊢
      by_cases hg : g = .blank
      · simp [Sized.isVisible, hg, ih, Sized.blank]
      · simp [Sized.isVisible, hg, ih]

def openLine (maxWidth : Int) (line : List Sized) (items : List Item) : List Sized :=
  (breakLines maxWidth line items).getLast (breakLines_ne_nil maxWidth line items)

def isFull (maxWidth : Int) (line : List Sized) : Bool := 0 < maxWidth && maxWidth ≤ lineWidth line

theorem openLine_newline : openLine maxWidth line (.newline :: items) = openLine maxWidth [] items :=
  List.getLast_cons (breakLines_ne_nil maxWidth [] items)

theorem openLine_glyph {g : Sized} : openLine maxWidth line (.glyph g :: items) =
    if 0 < maxWidth ∧ maxWidth ≤ lineWidth line + g.advance then openLine maxWidth [g] items
    else openLine maxWidth (line ++ [g]) items := by
  unfold openLine
  split
  · rename_i h
    simp only [breakLines, if_pos h]
    exact List.getLast_cons (breakLines_ne_nil maxWidth [g] items)
  · rename_i h
    simp only [breakLines, if_neg h]

theorem isFull_iff : isFull maxWidth line = true ↔ 0 < maxWidth ∧ maxWidth ≤ lineWidth line := by
  simp only [isFull, Bool.and_eq_true, decide_eq_true_eq]

theorem breakLines_filter_visible
    (h : ∀ before after, items = before ++ .glyph .blank :: after →
      isFull maxWidth (openLine maxWidth line before) = false) :
    breakLines maxWidth (line.filter Sized.isVisible) (items.filter Item.isVisible) =
      (breakLines maxWidth line items).map (List.filter Sized.isVisible) := by
  induction items generalizing line with
  | nil => rfl
  | cons item items ih =>
      -- What is supposed of the blank glyphs holds of the rest, behind the line that the first item leaves.
      have hlater {next : List Sized}
          (hopen : ∀ before, openLine maxWidth line (item :: before) = openLine maxWidth next before) :
          breakLines maxWidth (next.filter Sized.isVisible) (items.filter Item.isVisible) =
            (breakLines maxWidth next items).map (List.filter Sized.isVisible) := by
        apply ih
        intro before after hitems
        rw [← hopen]
        exact h (item :: before) after (congrArg (item :: ·) hitems)
      cases item with
      | newline =>
          have hrest := hlater fun _ => openLine_newline
          simp only [List.filter_cons, Item.isVisible, if_true, breakLines, List.map_cons]
          exact congrArg (_ :: ·) hrest
      | glyph g =>
          by_cases hg : g = .blank
          · subst hg
            have hopen : isFull maxWidth line = false := h [] items rfl
            have hroom : ¬ (0 < maxWidth ∧ maxWidth ≤ lineWidth line + Sized.blank.advance) := by
              rw [Sized.blank_advance, Int.add_zero, ← isFull_iff, hopen]
              exact Bool.false_ne_true
            have hrest := hlater fun _ => openLine_glyph.trans (if_neg hroom)
            rw [List.filter_append] at hrest
            rw [breakLines, if_neg hroom, ← hrest]
            simp only [List.filter_cons, List.filter_nil, Item.isVisible, Sized.isVisible_blank,
              Bool.false_eq_true, if_false, List.append_nil]
          · have hvisible := Sized.isVisible_of_ne hg
            by_cases hfull : 0 < maxWidth ∧ maxWidth ≤ lineWidth line + g.advance
            · have hrest := hlater fun _ => openLine_glyph.trans (if_pos hfull)
              simp only [List.filter_cons, Item.isVisible, hvisible, if_true, breakLines,
                lineWidth_filter_visible, if_pos hfull, List.map_cons, List.filter_nil] at hrest ⊢
              rw [hrest]
            · have hrest := hlater fun _ => openLine_glyph.trans (if_neg hfull)
              rw [List.filter_append] at hrest
              simp only [List.filter_cons, Item.isVisible, hvisible, if_true, breakLines,
                lineWidth_filter_visible, if_neg hfull, List.filter_nil] at hrest ⊢
              rw [hrest]

theorem breakLines_concat {g : Sized}
    (h : 0 < maxWidth ∧ maxWidth ≤ lineWidth (openLine maxWidth line items) + g.advance) :
    breakLines maxWidth line (items ++ [.glyph g]) = breakLines maxWidth line items ++ [[g]] := by
  induction items generalizing line with
  | nil => exact if_pos h
  | cons item items ih =>
      rw [List.cons_append]
      cases item with
      | newline =>
          rw [openLine_newline] at h
          exact congrArg (line :: ·) (ih h)
      | glyph g' =>
          rw [openLine_glyph] at h
          simp only [breakLines]
          split at h
          · rename_i hfull
            rw [if_pos hfull, if_pos hfull]
            exact congrArg (line :: ·) (ih h)
          · rename_i hfull
            rw [if_neg hfull, if_neg hfull]
            exact ih h

end Lines

section Ink

variable {settings : Settings} {origin : Point} {lineHeight left baseline : Int} {n : Nat}

theorem inkAll_linePlaces_filter (line : List Sized) :
    inkAll settings (linePlaces left baseline (line.filter Sized.isVisible)) =
      inkAll settings (linePlaces left baseline line) := by
  induction line using List.reverseRecOn with
  | nil => rfl
  | append_singleton line g ih =>
      rw [List.filter_append, linePlaces_concat, inkAll_append, inkAll_singleton, ← ih]
      by_cases hg : g = .blank
      · subst hg
        simp only [List.filter_cons, Sized.isVisible_blank, Bool.false_eq_true, if_false, List.filter_nil,
          List.append_nil, Sized.ink_blank]
      · simp only [List.filter_cons, Sized.isVisible_of_ne hg, if_true, List.filter_nil, linePlaces_concat,
          inkAll_append, inkAll_singleton, lineWidth_filter_visible]

theorem inkAll_places_filter (lines : List (List Sized)) :
    inkAll settings (places origin lineHeight n (lines.map (List.filter Sized.isVisible))) =
      inkAll settings (places origin lineHeight n lines) := by
  induction lines generalizing n with
  | nil => rfl
  | cons line lines ih =>
      simp only [List.map_cons, places_cons, inkAll_append, inkAll_linePlaces_filter, ih]

theorem inkAll_places_concat_blank (lines : List (List Sized)) :
    inkAll settings (places origin lineHeight n (lines ++ [[.blank]])) =
      inkAll settings (places origin lineHeight n lines) := by
  induction lines generalizing n with
  | nil => rfl
  | cons line lines ih => simp only [List.cons_append, places_cons, inkAll_append, ih]

end Ink

namespace Page

variable {page : Page} {c : Char}

def isMalformed (page : Page) (c : Char) : Bool :=
  c ≠ '\n' && (page.glyphs.lookup? c.toNat).any fun program => !(Glyph.trace program).result.isOk

def withoutMalformed (page : Page) (text : String) : String :=
  .ofList (text.toList.filter (!page.isMalformed ·))

def endsFull (page : Page) (text : String) : Bool :=
  isFull page.maxWidth ((page.lines text).getLast (breakLines_ne_nil _ _ _))

/-- Whether the character at a position is malformed and meets a full line. -/
def meetsFull (page : Page) (text : String) (n : Nat) : Bool :=
  (text.toList[n]?).any page.isMalformed && page.endsFull (.ofList (text.toList.take n))

/-- Two texts that are painted and measured in the same way. -/
structure SameLayout (page : Page) (s t : String) : Prop where
  pixels : ∀ origin, (page.render origin s).pixels = (page.render origin t).pixels
  extent : ∀ origin, (page.render origin s).result = (page.render origin t).result
  width : (page.measure s).result = (page.measure t).result

theorem item?_of_malformed (h : page.isMalformed c = true) : page.item? c = some (.glyph .blank) := by
  rw [isMalformed, Bool.and_eq_true, decide_eq_true_eq, Option.any_eq_true] at h
  obtain ⟨hc, program, hprogram, htrace⟩ := h
  rw [item?, if_neg hc, glyph?, hprogram]
  cases ht : (Glyph.trace program).result with
  | ok t => simp [ht, Except.isOk, Except.toBool] at htrace
  | error e =>
      simp only [Option.map_some, ht]
      rfl

theorem isVisible_of_item {item : Item} (h : page.item? c = some item) :
    item.isVisible = !page.isMalformed c := by
  by_cases hc : c = '\n'
  · rw [item?, if_pos hc] at h
    obtain rfl := Option.some.inj h
    simp [isMalformed, hc, Item.isVisible]
  · rw [item?, if_neg hc] at h
    obtain ⟨g, hg, rfl⟩ := Option.map_eq_some_iff.1 h
    obtain ⟨program, hprogram, rfl⟩ := Option.map_eq_some_iff.1 hg
    rw [isMalformed, hprogram]
    cases ht : (Glyph.trace program).result with
    | ok t => simp [Item.isVisible, Sized.isVisible, Sized.blank, Except.isOk, Except.toBool, ht]
    | error e => simp [Item.isVisible, Sized.isVisible, Sized.blank, Except.isOk, Except.toBool, ht, hc]

theorem filterMap_withoutMalformed (page : Page) (text : List Char) :
    (text.filter (!page.isMalformed ·)).filterMap page.item? =
      (text.filterMap page.item?).filter Item.isVisible := by
  induction text with
  | nil => rfl
  | cons c text ih =>
      cases hmalformed : page.isMalformed c with
      | true =>
          rw [List.filterMap_cons_some (item?_of_malformed hmalformed)]
          simpa [hmalformed, Item.isVisible, Sized.isVisible_blank] using ih
      | false =>
          cases hitem : page.item? c with
          | none => simpa [hmalformed, hitem] using ih
          | some item =>
              have hvisible := isVisible_of_item hitem
              simpa [hmalformed, hitem, hvisible] using ih

theorem exists_of_filterMap_eq {text : List Char} {before after : List Item} {item : Item}
    (h : text.filterMap page.item? = before ++ item :: after) :
    ∃ n c, text[n]? = some c ∧ page.item? c = some item ∧ (text.take n).filterMap page.item? = before := by
  obtain ⟨s, t, rfl, hs, ht⟩ := List.filterMap_eq_append_iff.1 h
  obtain ⟨skipped, c, rest, rfl, hskipped, hc, -⟩ := List.filterMap_eq_cons_iff.1 ht
  refine ⟨(s ++ skipped).length, c, ?_, hc, ?_⟩
  · rw [← List.append_assoc, List.getElem?_append_right (Nat.le_refl _), Nat.sub_self]
    rfl
  · rw [← List.append_assoc, List.take_left, List.filterMap_append, hs,
      List.filterMap_eq_nil_iff.2 hskipped, List.append_nil]

theorem endsFull_ofList (page : Page) (text : List Char) : page.endsFull (.ofList text) =
    isFull page.maxWidth (openLine page.maxWidth [] (text.filterMap page.item?)) := by
  simp only [endsFull, lines, openLine, String.toList_ofList]

theorem lines_withoutMalformed {text : String}
    (h : ∀ n < text.length, page.meetsFull text n = false) :
    page.lines (page.withoutMalformed text) = (page.lines text).map (List.filter Sized.isVisible) := by
  have hblank (before after : List Item)
      (hitems : text.toList.filterMap page.item? = before ++ .glyph .blank :: after) :
      isFull page.maxWidth (openLine page.maxWidth [] before) = false := by
    obtain ⟨n, c, hn, hc, rfl⟩ := exists_of_filterMap_eq hitems
    have hmalformed : page.isMalformed c = true := by
      simpa [Item.isVisible, Sized.isVisible_blank] using isVisible_of_item hc
    have hmeets := h n (String.length_toList ▸ (List.getElem?_eq_some_iff.1 hn).1)
    simpa [meetsFull, hn, hmalformed, endsFull_ofList] using hmeets
  rw [lines, withoutMalformed, String.toList_ofList, filterMap_withoutMalformed]
  exact breakLines_filter_visible hblank

theorem lines_of_meetsFull {text : String} {n : Nat} (h : page.meetsFull text n = true) :
    page.lines (.ofList (text.toList.take (n + 1))) =
      page.lines (.ofList (text.toList.take n)) ++ [[.blank]] := by
  rw [meetsFull, Bool.and_eq_true, Option.any_eq_true] at h
  obtain ⟨⟨c, hn, hmalformed⟩, hfull⟩ := h
  rw [endsFull_ofList, isFull_iff] at hfull
  simp only [lines, String.toList_ofList, List.take_add_one, hn, Option.toList_some,
    List.filterMap_append, List.filterMap_cons_some (item?_of_malformed hmalformed),
    List.filterMap_nil]
  exact breakLines_concat (by simpa only [Sized.blank_advance, Int.add_zero] using hfull)

variable {lineHeight : Int}

theorem sameLayout_of_lines (hheight : page.settings.lineHeight = .ok lineHeight) {s t : String}
    (hs : ∀ c ∈ s.toList, page.fits c = true) (ht : ∀ c ∈ t.toList, page.fits c = true)
    (h : page.lines t = (page.lines s).map (List.filter Sized.isVisible)) : page.SameLayout s t where
  pixels origin := by
    rw [(render_of_fits hs hheight origin).1, (render_of_fits ht hheight origin).1, h,
      inkAll_places_filter]
  extent origin := by
    rw [(render_of_fits hs hheight origin).2, (render_of_fits ht hheight origin).2, h, List.length_map]
  width := by
    rw [measure_of_fits hs, measure_of_fits ht, h, List.map_map]
    simp only [Function.comp_def, lineWidth_filter_visible]

/-- A text that continues another one by a line of nothing. -/
structure AddsLine (page : Page) (lineHeight : Int) (s t : String) : Prop where
  pixels : ∀ origin, (page.render origin t).pixels = (page.render origin s).pixels
  extent : ∀ origin, ∃ n, (page.render origin s).result = .ok n ∧
    (page.render origin t).result = .ok (n + lineHeight)
  width : (page.measure t).result = (page.measure s).result

theorem addsLine_of_lines (hheight : page.settings.lineHeight = .ok lineHeight) {s t : String}
    (hs : ∀ c ∈ s.toList, page.fits c = true) (ht : ∀ c ∈ t.toList, page.fits c = true)
    (h : page.lines t = page.lines s ++ [[.blank]]) : page.AddsLine lineHeight s t where
  pixels origin := by
    rw [(render_of_fits hs hheight origin).1, (render_of_fits ht hheight origin).1, h,
      inkAll_places_concat_blank]
  extent origin := by
    refine ⟨_, (render_of_fits hs hheight origin).2, ?_⟩
    rw [(render_of_fits ht hheight origin).2, h, List.length_append, List.length_singleton]
    push_cast
    rw [Int.mul_add, Int.mul_one]
  width := by
    rw [measure_of_fits hs, measure_of_fits ht, h, List.map_append, List.foldl_append]
    have hwidest := widest_nonneg (page.lines s)
    exact congrArg Except.ok (max_eq_left hwidest)

end Page

/-- Malformed glyphs can be left out of a text unnoticed, unless one meets a line that has reached the
limit. That one adds a line of nothing to the text before it. -/
theorem malformed_takes_no_space (page : Page) {origin : Point} {text : String} {extent : Int}
    (h : (page.render origin text).result = .ok extent) :
    ((∀ n < text.length, page.meetsFull text n = false) →
      page.SameLayout text (page.withoutMalformed text)) ∧
    ∃ lineHeight, page.settings.lineHeight = .ok lineHeight ∧
      ∀ n, page.meetsFull text n = true →
        page.AddsLine lineHeight (.ofList (text.toList.take n)) (.ofList (text.toList.take (n + 1))) := by
  obtain ⟨⟨lineHeight, hheight⟩, hfits⟩ := Page.fits_of_render h
  have hpart (n : Nat) : ∀ c ∈ (String.ofList (text.toList.take n)).toList, page.fits c = true := by
    intro c hc
    rw [String.toList_ofList] at hc
    exact hfits c (List.mem_of_mem_take hc)
  refine ⟨fun hnone => ?_, lineHeight, hheight, fun n hfull => ?_⟩
  · refine Page.sameLayout_of_lines hheight hfits (fun c hc => ?_) (Page.lines_withoutMalformed hnone)
    rw [Page.withoutMalformed, String.toList_ofList] at hc
    exact hfits c (List.mem_of_mem_filter hc)
  · exact Page.addsLine_of_lines hheight (hpart n) (hpart (n + 1)) (Page.lines_of_meetsFull hfull)

def wideGlyphPage : Page where
  glyphs := ⟨[(87, "a6 M46 p0-4"), (63, "P1")]⟩
  settings := .default
  maxWidth := 5

theorem malformed_takes_no_space_narrow :
    ((narrowPage.render ⟨3, 40⟩ "ab-ba\nb aa").result = .ok 72 ∧
      (∀ n < "ab-ba\nb aa".length, narrowPage.meetsFull "ab-ba\nb aa" n = false) ∧
      narrowPage.SameLayout "ab-ba\nb aa" (narrowPage.withoutMalformed "ab-ba\nb aa")) ∧
    (wideGlyphPage.render .zero "W?W").result = .ok 96 ∧
      wideGlyphPage.meetsFull "W?W" 1 = true ∧
      ∃ lineHeight, Settings.default.lineHeight = .ok lineHeight ∧
        wideGlyphPage.AddsLine lineHeight "W" "W?" := by
  have hnarrow : (narrowPage.render ⟨3, 40⟩ "ab-ba\nb aa").result = .ok 72 := by decide +kernel
  have hnone : ∀ n < "ab-ba\nb aa".length, narrowPage.meetsFull "ab-ba\nb aa" n = false := by
    decide +kernel
  have hwide : (wideGlyphPage.render .zero "W?W").result = .ok 96 := by decide +kernel
  have hfull : wideGlyphPage.meetsFull "W?W" 1 = true := by decide +kernel
  obtain ⟨lineHeight, hheight, hadds⟩ := (malformed_takes_no_space wideGlyphPage hwide).2
  exact ⟨⟨hnarrow, hnone, (malformed_takes_no_space narrowPage hnarrow).1 hnone⟩, hwide, hfull,
    lineHeight, hheight, hadds 1 hfull⟩

theorem malformed_takes_line_behind_wide_glyph :
    (wideGlyphPage.render .zero "W?").result = .ok 72 ∧
      (wideGlyphPage.render .zero (wideGlyphPage.withoutMalformed "W?")).result = .ok 48 := by
  decide +kernel

end StrokeFont.Layout
