import StrokeFont.Proofs.Layout.Extent
import StrokeFont.Proofs.Layout.Success

namespace StrokeFont.Layout

/-- A limit that ends no line earlier than another one does. -/
def Narrower (maxWidth maxWidth' : Int) : Prop := maxWidth' ≤ 0 ∨ 0 < maxWidth ∧ maxWidth ≤ maxWidth'

theorem Narrower.full {maxWidth maxWidth' n : Int} (h : Narrower maxWidth maxWidth')
    (hfull : 0 < maxWidth' ∧ maxWidth' ≤ n) : 0 < maxWidth ∧ maxWidth ≤ n := by
  rcases h with hunlimited | ⟨hpos, hle⟩
  · omega
  · exact ⟨hpos, hle.trans hfull.2⟩

/-- A layout under way: how many lines are ended, and what stands on the open one. -/
structure Stage where
  ended : Nat
  line : List Sized

namespace Stage

def put (maxWidth : Int) (s : Stage) : Item → Stage
  | .newline => ⟨s.ended + 1, []⟩
  | .glyph g =>
      if 0 < maxWidth ∧ maxWidth ≤ lineWidth s.line + g.advance then ⟨s.ended + 1, [g]⟩
      else ⟨s.ended, s.line ++ [g]⟩

theorem ended_foldl (maxWidth : Int) (s : Stage) (items : List Item) :
    (items.foldl (put maxWidth) s).ended + 1 = s.ended + (breakLines maxWidth s.line items).length := by
  induction items generalizing s with
  | nil => rfl
  | cons item items ih =>
      rw [List.foldl_cons, ih]
      cases item with
      | newline =>
          simp only [put, breakLines, List.length_cons]
          omega
      | glyph g =>
          rw [put, breakLines]
          split
          · simp only [List.length_cons]
            omega
          · rfl

/-- One layout stays behind another if it has ended fewer lines, or as many and its open line is no wider.
Where the open lines begin is not compared. -/
structure Behind (s' s : Stage) : Prop where
  nonneg : 0 ≤ lineWidth s.line
  order : s'.ended < s.ended ∨ s'.ended = s.ended ∧ lineWidth s'.line ≤ lineWidth s.line

variable {maxWidth maxWidth' : Int} {s s' : Stage}

theorem Behind.put (h : Behind s' s) (hlimit : Narrower maxWidth maxWidth') {item : Item}
    (hitem : ∀ g, item = .glyph g → 0 ≤ g.advance) :
    Behind (s'.put maxWidth' item) (s.put maxWidth item) := by
  obtain ⟨hnonneg, horder⟩ := h
  cases item with
  | newline => exact ⟨le_rfl, by simp only [Stage.put, le_refl, and_true]; omega⟩
  | glyph g =>
      have hg : 0 ≤ g.advance := hitem g rfl
      by_cases hfull' : 0 < maxWidth' ∧ maxWidth' ≤ lineWidth s'.line + g.advance
      · by_cases hfull : 0 < maxWidth ∧ maxWidth ≤ lineWidth s.line + g.advance
        · simp only [Stage.put, if_pos hfull, if_pos hfull']
          constructor <;> simp only [lineWidth_singleton] <;> omega
        · -- Only the wider limit ends its line here, so that layout was a whole line behind.
          have hbehind : s'.ended < s.ended := by
            rcases horder with hlt | ⟨-, hle⟩
            · exact hlt
            · exact absurd (hlimit.full ⟨hfull'.1, hfull'.2.trans (by omega)⟩) hfull
          simp only [Stage.put, if_neg hfull, if_pos hfull']
          constructor <;> simp only [lineWidth_append, lineWidth_singleton] <;> omega
      · by_cases hfull : 0 < maxWidth ∧ maxWidth ≤ lineWidth s.line + g.advance
        · simp only [Stage.put, if_pos hfull, if_neg hfull']
          constructor <;> simp only [lineWidth_singleton] <;> omega
        · simp only [Stage.put, if_neg hfull, if_neg hfull']
          constructor <;> simp only [lineWidth_append, lineWidth_singleton] <;> omega

theorem Behind.foldl (h : Behind s' s) (hlimit : Narrower maxWidth maxWidth') {items : List Item}
    (hitems : ∀ g, Item.glyph g ∈ items → 0 ≤ g.advance) :
    Behind (items.foldl (Stage.put maxWidth') s') (items.foldl (Stage.put maxWidth) s) := by
  induction items generalizing s s' with
  | nil => exact h
  | cons item items ih =>
      apply ih
      · apply h.put hlimit
        rintro g rfl
        exact hitems g List.mem_cons_self
      · intro g hg
        exact hitems g (List.mem_cons_of_mem _ hg)

end Stage

section Lines

variable {maxWidth maxWidth' : Int} {line : List Sized} {items : List Item}

theorem length_breakLines_le (hlimit : Narrower maxWidth maxWidth')
    (hitems : ∀ g, Item.glyph g ∈ items → 0 ≤ g.advance) :
    (breakLines maxWidth' [] items).length ≤ (breakLines maxWidth [] items).length := by
  have hstart : Stage.Behind ⟨0, []⟩ ⟨0, []⟩ := ⟨le_rfl, .inr ⟨rfl, le_rfl⟩⟩
  have hend := (hstart.foldl hlimit hitems).order
  have hended := Stage.ended_foldl maxWidth ⟨0, []⟩ items
  have hended' := Stage.ended_foldl maxWidth' ⟨0, []⟩ items
  simp only at hended hended'
  omega

theorem advance_le_lineWidth (h : ∀ g ∈ line, 0 ≤ g.advance) {g : Sized} (hg : g ∈ line) :
    g.advance ≤ lineWidth line := by
  apply List.single_le_sum
  · intro n hn
    obtain ⟨g', hg', rfl⟩ := List.mem_map.1 hn
    exact h g' hg'
  · exact List.mem_map_of_mem hg

theorem widest_le {lines : List (List Sized)} {n : Int} (hn : 0 ≤ n) (h : ∀ line ∈ lines, lineWidth line ≤ n) :
    (lines.map lineWidth).foldl max 0 ≤ n := by
  rw [List.foldl_max]
  apply max_le hn
  cases hmax : (lines.map lineWidth).max? with
  | none => exact hn
  | some widest =>
      rw [Option.getD_some, List.max?_le_iff hmax, List.forall_mem_map]
      exact h

theorem narrow_or_single (hstart : lineWidth line < maxWidth ∨ ∃ g, line = [g]) (hpos : 0 < maxWidth) :
    ∀ l ∈ breakLines maxWidth line items, lineWidth l < maxWidth ∨ ∃ g, l = [g] := by
  induction items generalizing line with
  | nil =>
      intro l hl
      obtain rfl := List.mem_singleton.1 hl
      exact hstart
  | cons item items ih =>
      cases item with
      | newline => exact List.forall_mem_cons.2 ⟨hstart, ih (.inl hpos)⟩
      | glyph g =>
          rw [breakLines]
          split
          · exact List.forall_mem_cons.2 ⟨hstart, ih (.inr ⟨g, rfl⟩)⟩
          · rename_i hroom
            apply ih
            left
            rw [lineWidth_append, lineWidth_singleton]
            omega

theorem exists_as_wide (maxWidth : Int) (line : List Sized)
    (hitems : ∀ g, Item.glyph g ∈ items → 0 ≤ g.advance) :
    ∃ l ∈ breakLines maxWidth line items, lineWidth line ≤ lineWidth l := by
  induction items generalizing line with
  | nil => exact ⟨line, List.mem_singleton_self _, le_rfl⟩
  | cons item items ih =>
      cases item with
      | newline => exact ⟨line, List.mem_cons_self, le_rfl⟩
      | glyph g =>
          rw [breakLines]
          split
          · exact ⟨line, List.mem_cons_self, le_rfl⟩
          · obtain ⟨l, hl, hle⟩ := ih (line ++ [g]) fun g' hg' => hitems g' (List.mem_cons_of_mem _ hg')
            rw [lineWidth_append, lineWidth_singleton] at hle
            exact ⟨l, hl, by linarith [hitems g List.mem_cons_self]⟩

/-- Up to the first line that only the narrower limit breaks, both limits make the same lines. That line
goes on and reaches the narrower limit. -/
theorem same_or_reaches (line : List Sized) (hlimit : Narrower maxWidth maxWidth')
    (hitems : ∀ g, Item.glyph g ∈ items → 0 ≤ g.advance) :
    breakLines maxWidth' line items = breakLines maxWidth line items ∨
      0 < maxWidth ∧ ∃ l ∈ breakLines maxWidth' line items, maxWidth ≤ lineWidth l := by
  induction items generalizing line with
  | nil => exact .inl rfl
  | cons item items ih =>
      have hrest : ∀ g, Item.glyph g ∈ items → 0 ≤ g.advance :=
        fun g hg => hitems g (List.mem_cons_of_mem _ hg)
      -- A line that both limits end changes nothing.
      have hended (next : List Sized) :
          line :: breakLines maxWidth' next items = line :: breakLines maxWidth next items ∨
            0 < maxWidth ∧ ∃ l ∈ line :: breakLines maxWidth' next items, maxWidth ≤ lineWidth l := by
        rcases ih next hrest with heq | ⟨hpos, l, hl, hle⟩
        · exact .inl (congrArg (line :: ·) heq)
        · exact .inr ⟨hpos, l, List.mem_cons_of_mem _ hl, hle⟩
      cases item with
      | newline => exact hended []
      | glyph g =>
          simp only [breakLines]
          by_cases hfull : 0 < maxWidth ∧ maxWidth ≤ lineWidth line + g.advance
          · by_cases hfull' : 0 < maxWidth' ∧ maxWidth' ≤ lineWidth line + g.advance
            · rw [if_pos hfull, if_pos hfull']
              exact hended [g]
            · rw [if_pos hfull, if_neg hfull']
              obtain ⟨l, hl, hle⟩ := exists_as_wide maxWidth' (line ++ [g]) hrest
              rw [lineWidth_append, lineWidth_singleton] at hle
              exact .inr ⟨hfull.1, l, hl, hfull.2.trans hle⟩
          · rw [if_neg hfull, if_neg (mt hlimit.full hfull)]
            exact ih (line ++ [g]) hrest

theorem mem_breakLines_iff {g : Sized} :
    (∃ l ∈ breakLines maxWidth [] items, g ∈ l) ↔ Item.glyph g ∈ items := by
  rw [← List.mem_flatten, flatten_breakLines, List.nil_append, List.mem_filterMap]
  constructor
  · rintro ⟨item, hitem, hg⟩
    cases item with
    | newline => cases hg
    | glyph g' => exact Option.some.inj hg ▸ hitem
  · intro hg
    exact ⟨.glyph g, hg, rfl⟩

theorem widest_mono (hlimit : Narrower maxWidth maxWidth')
    (hitems : ∀ g, Item.glyph g ∈ items → 0 ≤ g.advance) :
    ((breakLines maxWidth [] items).map lineWidth).foldl max 0 ≤
      ((breakLines maxWidth' [] items).map lineWidth).foldl max 0 := by
  rcases same_or_reaches [] hlimit hitems with heq | ⟨hpos, wide, hwide, hreaches⟩
  · rw [heq]
  · have hlimit' := hreaches.trans (lineWidth_le_widest hwide)
    apply widest_le (hpos.le.trans hlimit')
    intro l hl
    rcases narrow_or_single (.inl hpos) hpos l hl with hnarrow | ⟨g, rfl⟩
    · exact hnarrow.le.trans hlimit'
    · -- A single glyph stands on some line of the wider limit, too.
      have hg := mem_breakLines_iff.1 ⟨[g], hl, List.mem_cons_self⟩
      obtain ⟨l', hl', hg'⟩ := mem_breakLines_iff.2 hg
      have hforward : ∀ g ∈ l', 0 ≤ g.advance :=
        fun g hg => hitems g (mem_breakLines_iff.1 ⟨l', hl', hg⟩)
      rw [lineWidth_singleton]
      exact (advance_le_lineWidth hforward hg').trans (lineWidth_le_widest hl')

end Lines

def Forward (glyphs : GlyphStore) (settings : Settings) (text : String) : Prop :=
  ∀ c ∈ text.toList, c ≠ '\n' → ∀ program, glyphs.lookup? c.toNat = some program →
    ∀ t, (Glyph.trace program).result = .ok t → 0 ≤ Scale.pixels settings.fontSize t.advance

theorem Forward.items {page : Page} {text : String} (h : Forward page.glyphs page.settings text) :
    ∀ g, Item.glyph g ∈ text.toList.filterMap page.item? → 0 ≤ g.advance := by
  intro g hg
  obtain ⟨c, hmem, hc⟩ := List.mem_filterMap.1 hg
  rw [Page.item?] at hc
  split at hc
  · cases hc
  · rename_i hnewline
    obtain ⟨g', hg', hglyph⟩ := Option.map_eq_some_iff.1 hc
    obtain rfl := Item.glyph.inj hglyph
    obtain ⟨program, hprogram, rfl⟩ := Option.map_eq_some_iff.1 hg'
    have hadvance := h c hmem hnewline program hprogram
    cases ht : (Glyph.trace program).result with
    | error e => exact le_rfl
    | ok t => exact hadvance t ht

theorem forward_of_inEm {glyphs : GlyphStore} {settings : Settings} (h : Scale.Exact settings.fontSize)
    (hglyphs : glyphs.inEm = true) (text : String) : Forward glyphs settings text := by
  intro c _ _ program hprogram t ht
  obtain ⟨hnonneg, hle, -⟩ := Glyph.Trace.inEm_iff.1 (GlyphStore.inEm_of_lookup hglyphs hprogram ht)
  exact h.pixels_nonneg hnonneg hle

/-- A text with a wider limit is no higher and no narrower, and without a limit it is lowest and widest. -/
theorem wider_limit_monotone (glyphs : Option GlyphStore) (settings : Settings) (origin : Point)
    (text : String) {maxWidth maxWidth' : Int}
    (hlimit : maxWidth' ≤ 0 ∨ 0 < maxWidth ∧ maxWidth ≤ maxWidth')
    (hheight : ∀ lineHeight, settings.lineHeight = .ok lineHeight → 0 ≤ lineHeight)
    (hforward : ∀ store, glyphs = some store → Forward store settings text) {extent : Int}
    (h : (render glyphs settings maxWidth origin text).result = .ok extent) :
    ∃ extent' width width',
      (render glyphs settings maxWidth' origin text).result = .ok extent' ∧
      (measure glyphs settings maxWidth text).result = .ok width ∧
      (measure glyphs settings maxWidth' text).result = .ok width' ∧
      extent' ≤ extent ∧ width ≤ width' := by
  cases glyphs with
  | none => exact ⟨0, 0, 0, rfl, rfl, rfl, (Except.ok.inj h).le, le_rfl⟩
  | some store =>
      let page : Page := ⟨store, settings, maxWidth⟩
      let page' : Page := ⟨store, settings, maxWidth'⟩
      obtain ⟨⟨lineHeight, hlineHeight⟩, hfits⟩ := page.fits_of_render h
      have hforward' : Forward page.glyphs page.settings text := hforward store rfl
      have hitems := hforward'.items
      -- What becomes of the characters does not depend on the limit, nor whether they can be scaled.
      have hfits' : ∀ c ∈ text.toList, page'.fits c = true := hfits
      have hlines : (page'.lines text).length ≤ (page.lines text).length :=
        length_breakLines_le hlimit hitems
      have hwidest := widest_mono hlimit hitems
      have hextent := (page.render_of_fits hfits hlineHeight origin).2
      rw [show (page.render origin text).result = .ok extent from h] at hextent
      refine ⟨_, _, _, (page'.render_of_fits hfits' hlineHeight origin).2, page.measure_of_fits hfits,
        page'.measure_of_fits hfits', ?_, hwidest⟩
      rw [Except.ok.inj hextent]
      exact Int.mul_le_mul_of_nonneg_left (by exact_mod_cast hlines) (hheight lineHeight hlineHeight)

def letterStore : GlyphStore := ⟨[(87, "a6 M46 p0-4"), (63, "P1"), (73, "a3 M12 P18")]⟩

theorem wider_limit_monotone_letters :
    ((30 : Int) ≤ 0 ∨ (0 : Int) < 5 ∧ (5 : Int) ≤ 30) ∧
      (∀ lineHeight, Settings.default.lineHeight = .ok lineHeight → 0 ≤ lineHeight) ∧
      (∀ store, some letterStore = some store → Forward store .default "WI?WI\nW W") ∧
      (render (some letterStore) .default 5 ⟨3, 40⟩ "WI?WI\nW W").result = .ok 216 ∧
      ∃ extent' width width',
        (render (some letterStore) .default 30 ⟨3, 40⟩ "WI?WI\nW W").result = .ok extent' ∧
        (measure (some letterStore) .default 5 "WI?WI\nW W").result = .ok width ∧
        (measure (some letterStore) .default 30 "WI?WI\nW W").result = .ok width' ∧
        extent' ≤ 216 ∧ width ≤ width' := by
  have hlimit : (30 : Int) ≤ 0 ∨ (0 : Int) < 5 ∧ (5 : Int) ≤ 30 := by decide
  have hheight : ∀ lineHeight, Settings.default.lineHeight = .ok lineHeight → 0 ≤ lineHeight := by
    intro lineHeight h
    have hdefault : Settings.default.lineHeight = .ok 24 := by decide +kernel
    rw [hdefault] at h
    exact Except.ok.inj h ▸ by decide
  have hforward : ∀ store, some letterStore = some store → Forward store .default "WI?WI\nW W" := by
    rintro store ⟨⟩
    exact forward_of_inEm ⟨by decide, by decide⟩ (by decide +kernel) _
  have hrender : (render (some letterStore) .default 5 ⟨3, 40⟩ "WI?WI\nW W").result = .ok 216 := by
    decide +kernel
  exact ⟨hlimit, hheight, hforward, hrender,
    wider_limit_monotone _ .default ⟨3, 40⟩ _ hlimit hheight hforward hrender⟩

end StrokeFont.Layout
