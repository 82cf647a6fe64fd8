import Mathlib.Order.Bounds.Defs
import StrokeFont.Proofs.Layout.Limit

namespace StrokeFont.Layout

/-- A way to put glyphs on lines in order, all below the limit. Without any glyph there is still a line. -/
structure Cutting (maxWidth : Int) (glyphs : List Sized) (groups : List (List Sized)) : Prop where
  ne_nil : groups ≠ []
  flatten : groups.flatten = glyphs
  narrow : ∀ group ∈ groups, lineWidth group < maxWidth

def IsFewest (maxWidth : Int) (glyphs : List Sized) (n : Nat) : Prop :=
  IsLeast {k | ∃ groups, Cutting maxWidth glyphs groups ∧ groups.length = k} n

section Lines

variable {maxWidth : Int} {line glyphs group : List Sized} {items : List Item}

theorem breakLines_newline (line : List Sized) (s t : List Item) :
    breakLines maxWidth line (s ++ .newline :: t) = breakLines maxWidth line s ++ breakLines maxWidth [] t := by
  induction s generalizing line with
  | nil => rfl
  | cons item s ih =>
      cases item with
      | newline => exact congrArg (line :: ·) (ih [])
      | glyph g =>
          rw [List.cons_append, breakLines, breakLines]
          split
          · exact congrArg (line :: ·) (ih [g])
          · exact ih (line ++ [g])

theorem breakLines_group (hgroup : ∀ g ∈ group, 0 ≤ g.advance)
    (hroom : lineWidth line + lineWidth group < maxWidth) (items : List Item) :
    breakLines maxWidth line (group.map .glyph ++ items) = breakLines maxWidth (line ++ group) items := by
  induction group generalizing line with
  | nil => rw [List.map_nil, List.nil_append, List.append_nil]
  | cons g group ih =>
      obtain ⟨-, hrest⟩ := List.forall_mem_cons.1 hgroup
      have hcons : lineWidth (g :: group) = g.advance + lineWidth group := by
        simpa using lineWidth_append [g] group
      have hnonneg := lineWidth_nonneg hrest
      have hopen : ¬ (0 < maxWidth ∧ maxWidth ≤ lineWidth line + g.advance) := by omega
      rw [List.map_cons, List.cons_append, breakLines, if_neg hopen, ih hrest, List.append_assoc,
        List.singleton_append]
      rw [lineWidth_append, lineWidth_singleton]
      omega

theorem length_breakLines_le_succ (line : List Sized) (hitems : ∀ g, Item.glyph g ∈ items → 0 ≤ g.advance) :
    (breakLines maxWidth line items).length ≤ (breakLines maxWidth [] items).length + 1 := by
  have hlimit : Narrower maxWidth maxWidth := by
    rw [Narrower]
    omega
  have hstart : Stage.Behind ⟨0, line⟩ ⟨1, []⟩ := ⟨le_rfl, .inl Nat.zero_lt_one⟩
  have hend := (hstart.foldl hlimit hitems).order
  have hended := Stage.ended_foldl maxWidth ⟨0, line⟩ items
  have hended' := Stage.ended_foldl maxWidth ⟨1, []⟩ items
  simp only at hended hended'
  omega

theorem length_breakLines_le_cutting {groups : List (List Sized)} (h : Cutting maxWidth glyphs groups)
    (hglyphs : ∀ g ∈ glyphs, 0 ≤ g.advance) :
    (breakLines maxWidth [] (glyphs.map .glyph)).length ≤ groups.length := by
  -- By induction on the groups of the cutting: each lies on one line of the greedy layout, which then does
  -- not lose more than the start of the next line.
  obtain ⟨hne, rfl, hnarrow⟩ := h
  induction groups with
  | nil => exact absurd rfl hne
  | cons group groups ih =>
      rw [List.flatten_cons, List.forall_mem_append] at hglyphs
      obtain ⟨hgroup, hrest⟩ := hglyphs
      obtain ⟨hroom, hnarrow⟩ := List.forall_mem_cons.1 hnarrow
      rw [List.flatten_cons, List.map_append, breakLines_group hgroup (by simpa using hroom),
        List.nil_append]
      cases groups with
      | nil => exact le_rfl
      | cons next groups =>
          have hitems : ∀ g, Item.glyph g ∈ (next :: groups).flatten.map Item.glyph → 0 ≤ g.advance := by
            intro g hg
            obtain ⟨g', hg', hglyph⟩ := List.mem_map.1 hg
            exact Item.glyph.inj hglyph ▸ hrest g' hg'
          have hlater := ih (List.cons_ne_nil _ _) hnarrow hrest
          exact (length_breakLines_le_succ group hitems).trans (Nat.succ_le_succ hlater)

theorem cutting_breakLines (hpos : 0 < maxWidth) (hglyphs : ∀ g ∈ glyphs, g.advance < maxWidth) :
    Cutting maxWidth glyphs (breakLines maxWidth [] (glyphs.map .glyph)) where
  ne_nil := breakLines_ne_nil _ _ _
  flatten := by
    rw [flatten_breakLines, List.nil_append, List.filterMap_map]
    exact List.filterMap_some
  narrow := by
    intro group hgroup
    rcases narrow_or_single (.inl hpos) hpos group hgroup with hnarrow | ⟨g, rfl⟩
    · exact hnarrow
    · obtain ⟨g', hg', hglyph⟩ := List.mem_map.1 (mem_breakLines_iff.1 ⟨[g], hgroup, List.mem_cons_self⟩)
      obtain rfl := Item.glyph.inj hglyph
      rw [lineWidth_singleton]
      exact hglyphs g' hg'

theorem isFewest_breakLines (hpos : 0 < maxWidth)
    (hglyphs : ∀ g ∈ glyphs, 0 ≤ g.advance ∧ g.advance < maxWidth) :
    IsFewest maxWidth glyphs (breakLines maxWidth [] (glyphs.map .glyph)).length := by
  constructor
  · exact ⟨_, cutting_breakLines hpos fun g hg => (hglyphs g hg).2, rfl⟩
  · rintro n ⟨groups, hgroups, rfl⟩
    exact length_breakLines_le_cutting hgroups fun g hg => (hglyphs g hg).1

end Lines

namespace Page

variable {page : Page}

theorem item?_of_ne {c : Char} (hc : c ≠ '\n') : page.item? c = (page.glyph? c).map .glyph := if_neg hc

theorem breakLines_paragraphs (page : Page) (text : List Char) :
    breakLines page.maxWidth [] (text.filterMap page.item?) =
      (text.splitOn '\n').flatMap fun paragraph =>
        breakLines page.maxWidth [] ((paragraph.filterMap page.glyph?).map .glyph) := by
  induction hlength : text.length using Nat.strongRecOn generalizing text with
  | ind n ih =>
      by_cases hnewline : '\n' ∈ text
      · obtain ⟨s, t, rfl⟩ := List.append_of_mem hnewline
        rw [List.length_append, List.length_cons] at hlength
        rw [List.filterMap_append, List.filterMap_cons_some page.item?_newline, breakLines_newline,
          List.splitOn_append_cons_self, List.flatMap_append, ih s.length (by omega) s rfl,
          ih t.length (by omega) t rfl]
      · rw [List.splitOn_eq_singleton hnewline, List.flatMap_singleton, List.map_filterMap]
        congr 1
        apply List.filterMap_congr
        intro c hc
        exact item?_of_ne fun h => hnewline (h ▸ hc)

theorem mem_glyphsOf_of_paragraph {text : String} {paragraph : List Char}
    (hparagraph : paragraph ∈ text.toList.splitOn '\n') {g : Sized}
    (hg : g ∈ paragraph.filterMap page.glyph?) : g ∈ page.glyphsOf text := by
  obtain ⟨line, hline, hg⟩ := (@mem_breakLines_iff page.maxWidth _ g).2 (List.mem_map_of_mem hg)
  rw [mem_glyphsOf, lines, breakLines_paragraphs]
  exact ⟨line, List.mem_flatMap.2 ⟨paragraph, hparagraph, hline⟩, hg⟩

end Page

/-- A text whose glyphs do not go back and are all below the limit stands on as few lines as it can:
its height is that of the fewest lines of its paragraphs. -/
theorem greedy_uses_fewest_lines (page : Page) {origin : Point} {text : String} {extent : Int}
    (hpos : 0 < page.maxWidth)
    (hglyphs : ∀ g ∈ page.glyphsOf text, 0 ≤ g.advance ∧ g.advance < page.maxWidth)
    (h : (page.render origin text).result = .ok extent) :
    ∃ lineHeight counts, page.settings.lineHeight = .ok lineHeight ∧
      List.Forall₂ (fun paragraph n => IsFewest page.maxWidth (paragraph.filterMap page.glyph?) n)
        (text.toList.splitOn '\n') counts ∧
      extent = lineHeight * counts.sum := by
  obtain ⟨lineHeight, hheight, hrealized⟩ := page.realized_of_render h
  have hextent : (page.render origin text).result = _ := (hrealized page.maxWidth).extent
  rw [h, Except.ok.injEq] at hextent
  let count (paragraph : List Char) : Nat :=
    (breakLines page.maxWidth [] ((paragraph.filterMap page.glyph?).map .glyph)).length
  refine ⟨lineHeight, (text.toList.splitOn '\n').map count, hheight, ?_, ?_⟩
  · rw [List.forall₂_map_right_iff, List.forall₂_same]
    intro paragraph hparagraph
    exact isFewest_breakLines hpos fun g hg => hglyphs g (Page.mem_glyphsOf_of_paragraph hparagraph hg)
  · rw [hextent, ← List.length_flatMap, ← page.breakLines_paragraphs]
    rfl

theorem greedy_uses_fewest_lines_letters :
    let page : Page := ⟨letterStore, .default, 30⟩
    let text := "WWI?WI\n\nW W"
    0 < page.maxWidth ∧
      (∀ g ∈ page.glyphsOf text, 0 ≤ g.advance ∧ g.advance < page.maxWidth) ∧
      (page.render ⟨3, 40⟩ text).result = .ok 96 ∧
      ∃ lineHeight counts, page.settings.lineHeight = .ok lineHeight ∧
        List.Forall₂ (fun paragraph n => IsFewest page.maxWidth (paragraph.filterMap page.glyph?) n)
          (text.toList.splitOn '\n') counts ∧
        96 = lineHeight * counts.sum := by
  intro page text
  have hpos : 0 < page.maxWidth := by decide
  have hglyphs : ∀ g ∈ page.glyphsOf text, 0 ≤ g.advance ∧ g.advance < page.maxWidth := by decide +kernel
  have hrender : (page.render ⟨3, 40⟩ text).result = .ok 96 := by decide +kernel
  exact ⟨hpos, hglyphs, hrender, greedy_uses_fewest_lines page hpos hglyphs hrender⟩

end StrokeFont.Layout
