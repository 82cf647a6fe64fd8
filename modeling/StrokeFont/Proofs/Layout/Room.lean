import StrokeFont.Proofs.Layout.Limit

namespace StrokeFont.Layout

section Lines

variable {maxWidth unlimited : Int} {line : List Sized} {items : List Item}

theorem length_unlimited_le (hunlimited : unlimited ≤ 0) (line line' : List Sized) (items : List Item) :
    (breakLines unlimited line items).length ≤ (breakLines maxWidth line' items).length := by
  induction items generalizing line line' with
  | nil => exact le_rfl
  | cons item items ih =>
      cases item with
      | newline => exact Nat.succ_le_succ (ih [] [])
      | glyph g =>
          rw [breakLines, if_neg (by omega), breakLines]
          split
          · exact (ih _ _).trans (Nat.le_succ _)
          · exact ih _ _

/-- Either no line reaches the limit and it ends none, or it makes more lines. -/
theorem same_or_longer (hpos : 0 < maxWidth) (hunlimited : unlimited ≤ 0) (items : List Item)
    (hline : lineWidth line < maxWidth) :
    (breakLines maxWidth line items = breakLines unlimited line items ∧
        ∀ l ∈ breakLines unlimited line items, lineWidth l < maxWidth) ∨
      (breakLines unlimited line items).length < (breakLines maxWidth line items).length := by
  induction items generalizing line with
  | nil => exact .inl ⟨rfl, List.forall_mem_singleton.2 hline⟩
  | cons item items ih =>
      cases item with
      | newline =>
          rcases ih (show lineWidth [] < maxWidth from hpos) with ⟨heq, hall⟩ | hlonger
          · exact .inl ⟨congrArg (line :: ·) heq, List.forall_mem_cons.2 ⟨hline, hall⟩⟩
          · exact .inr (Nat.succ_lt_succ hlonger)
      | glyph g =>
          have hopen : ¬ (0 < unlimited ∧ unlimited ≤ lineWidth line + g.advance) := by omega
          simp only [breakLines, if_neg hopen]
          split
          · exact .inr (Nat.lt_succ_of_le (length_unlimited_le hunlimited _ _ _))
          · apply ih
            rw [lineWidth_append, lineWidth_singleton]
            omega

theorem breakLines_eq_of_widest_lt (hunlimited : unlimited ≤ 0)
    (hitems : ∀ g, Item.glyph g ∈ items → 0 ≤ g.advance)
    (hwidest : ((breakLines unlimited [] items).map lineWidth).foldl max 0 < maxWidth) :
    breakLines maxWidth [] items = breakLines unlimited [] items := by
  have hlimit : Narrower maxWidth unlimited := .inl hunlimited
  rcases same_or_reaches [] hlimit hitems with heq | ⟨-, l, hl, hreaches⟩
  · exact heq.symm
  · have hle := lineWidth_le_widest hl
    omega

theorem length_eq_iff_widest_lt (hpos : 0 < maxWidth) (hunlimited : unlimited ≤ 0)
    (hitems : ∀ g, Item.glyph g ∈ items → 0 ≤ g.advance) :
    (breakLines maxWidth [] items).length = (breakLines unlimited [] items).length ↔
      ((breakLines unlimited [] items).map lineWidth).foldl max 0 < maxWidth := by
  constructor
  · intro hlength
    rcases same_or_longer hpos hunlimited items (show lineWidth [] < maxWidth from hpos) with ⟨-, hall⟩ | hlonger
    · have hwidest := widest_le (n := maxWidth - 1) (by omega) fun l hl => Int.le_sub_one_of_lt (hall l hl)
      omega
    · omega
  · intro hwidest
    rw [breakLines_eq_of_widest_lt hunlimited hitems hwidest]

end Lines

/-- A text has the height that it has without a limit exactly when it is measured below the limit, and
then it is painted and measured as without one. -/
theorem limit_inactive_iff_room (glyphs : Option GlyphStore) (settings : Settings) (origin : Point)
    (text : String) {maxWidth unlimited : Int} (hpos : 0 < maxWidth) (hunlimited : unlimited ≤ 0)
    (hheight : ∀ lineHeight, settings.lineHeight = .ok lineHeight → lineHeight ≠ 0)
    (hforward : ∀ store, glyphs = some store → Forward store settings text) {extent : Int}
    (h : (render glyphs settings unlimited origin text).result = .ok extent) :
    ∃ extent' width width',
      (render glyphs settings maxWidth origin text).result = .ok extent' ∧
      (measure glyphs settings unlimited text).result = .ok width ∧
      (measure glyphs settings maxWidth text).result = .ok width' ∧
      (extent' = extent ↔ width < maxWidth) ∧
      (width < maxWidth →
        (render glyphs settings maxWidth origin text).pixels =
          (render glyphs settings unlimited origin text).pixels ∧ width' = width) := by
  cases glyphs with
  | none => exact ⟨extent, 0, 0, h, rfl, rfl, iff_of_true rfl hpos, fun _ => ⟨rfl, rfl⟩⟩
  | some store =>
      let limited : Page := ⟨store, settings, maxWidth⟩
      let free : Page := ⟨store, settings, unlimited⟩
      have hforward' : Forward free.glyphs free.settings text := hforward store rfl
      have hitems := hforward'.items
      obtain ⟨lineHeight, hlineHeight, hrealized⟩ := free.realized_of_render h
      have hfree : free.Realized origin text lineHeight := hrealized unlimited
      have hlimited : limited.Realized origin text lineHeight := hrealized maxWidth
      have hnonzero := hheight lineHeight hlineHeight
      have hextent := hfree.extent
      rw [show (free.render origin text).result = .ok extent from h, Except.ok.injEq] at hextent
      refine ⟨_, _, _, hlimited.extent, hfree.width, hlimited.width, ?_, fun hroom => ?_⟩
      · rw [hextent, mul_right_inj' hnonzero, Nat.cast_inj]
        exact length_eq_iff_widest_lt hpos hunlimited hitems
      · have hlines : limited.lines text = free.lines text := breakLines_eq_of_widest_lt hunlimited hitems hroom
        refine ⟨?_, by rw [hlines]⟩
        change (limited.render origin text).pixels = (free.render origin text).pixels
        rw [hlimited.pixels, hfree.pixels, hlines]

theorem limit_inactive_iff_room_letters :
    let rendered (maxWidth : Int) := render (some letterStore) .default maxWidth ⟨3, 40⟩ "WI?WI\nW W"
    let measured (maxWidth : Int) := measure (some letterStore) .default maxWidth "WI?WI\nW W"
    (0 : Int) < 37 ∧ (0 : Int) ≤ 0 ∧
      (∀ lineHeight, Settings.default.lineHeight = .ok lineHeight → lineHeight ≠ 0) ∧
      (∀ store, some letterStore = some store → Forward store .default "WI?WI\nW W") ∧
      (rendered 0).result = .ok 48 ∧
      ∃ extent' width width', (rendered 37).result = .ok extent' ∧ (measured 0).result = .ok width ∧
        (measured 37).result = .ok width' ∧ (extent' = 48 ↔ width < 37) ∧
        (width < 37 → (rendered 37).pixels = (rendered 0).pixels ∧ width' = width) := by
  intro rendered measured
  have hheight : ∀ lineHeight, Settings.default.lineHeight = .ok lineHeight → lineHeight ≠ 0 := by
    intro lineHeight h
    have hdefault : Settings.default.lineHeight = .ok 24 := by decide +kernel
    rw [hdefault] at h
    exact Except.ok.inj h ▸ by decide
  have hforward : ∀ store, some letterStore = some store → Forward store .default "WI?WI\nW W" := by
    rintro store ⟨⟩
    exact forward_of_inEm ⟨by decide, by decide⟩ (by decide +kernel) _
  have hrender : (rendered 0).result = .ok 48 := by decide +kernel
  exact ⟨by decide, by decide, hheight, hforward, hrender, limit_inactive_iff_room _ .default ⟨3, 40⟩ _
    (by decide) (by decide) hheight hforward hrender⟩

end StrokeFont.Layout
