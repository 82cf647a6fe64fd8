import StrokeFont.Proofs.Glyph.Extent
import StrokeFont.Proofs.Glyph.Turtle
import StrokeFont.Proofs.Settings

namespace StrokeFont

namespace Scale

def quotient (fontSize units : Int) : Int := (fontSize * units).tdiv 8

def exactPlace (fontSize : Int) (origin p : Point) : Point :=
  ⟨origin.x + quotient fontSize p.x, origin.y - quotient fontSize (p.y - baseline)⟩

variable {fontSize : Int} {bound : Nat}

/-- The products of a font size with all units up to a bound are exact. -/
structure ExactUpTo (fontSize : Int) (bound : Nat) : Prop where
  pos : 0 < fontSize
  bound_pos : 0 < bound
  product : fontSize.natAbs * bound ≤ 2 ^ 53

theorem ExactUpTo.length (h : ExactUpTo fontSize bound) {units : Int} (hunits : units.natAbs ≤ bound) :
    length fontSize units = .ok (quotient fontSize units) := by
  have hpos := h.pos
  have hsize : fontSize.natAbs ≤ 2 ^ 53 := (Nat.le_mul_of_pos_right _ h.bound_pos).trans h.product
  have hbound : bound ≤ 2 ^ 53 := (Nat.le_mul_of_pos_left _ (by omega)).trans h.product
  have hproduct : (fontSize * units).natAbs ≤ 2 ^ 53 := by
    rw [Int.natAbs_mul]
    exact (Nat.mul_le_mul_left _ hunits).trans h.product
  exact length_exact hpos hsize (hunits.trans hbound) hproduct

end Scale

structure Point.Near (bound : Nat) (p : Point) : Prop where
  x : p.x.natAbs ≤ bound
  y : p.y.natAbs + 2 ≤ bound

theorem Point.Near.mono {bound bound' : Nat} {p : Point} (h : p.Near bound) (hle : bound ≤ bound') :
    p.Near bound' :=
  ⟨h.x.trans hle, h.y.trans hle⟩

namespace Glyph

namespace Grammar

namespace Turtle

variable {t : Turtle} {bound : Nat}

/-- All that a turtle has done so far is within a bound. -/
structure Reaches (t : Turtle) (bound : Nat) : Prop where
  advance : t.advance.natAbs ≤ 15
  pen : t.pen.Near bound
  ink : ∀ p ∈ t.ink, ∀ q ∈ p.points, q.Near bound

theorem reaches_start : start.Reaches 2 :=
  ⟨by decide, ⟨by decide, by decide⟩, fun p hp => by cases hp⟩

theorem Reaches.mono {bound' : Nat} (h : t.Reaches bound) (hle : bound ≤ bound') : t.Reaches bound' :=
  ⟨h.advance, h.pen.mono hle, fun p hp q hq => (h.ink p hp q hq).mono hle⟩

theorem Reaches.moveTo (h : t.Reaches bound) {p : Point} (hp : p.Near bound) : (t.moveTo p).Reaches bound :=
  ⟨h.advance, hp, h.ink⟩

theorem Reaches.drawTo (h : t.Reaches bound) {p : Point} (hp : p.Near bound) :
    (t.drawTo p).Reaches bound := by
  refine ⟨h.advance, hp, ?_⟩
  intro p' hp' q hq
  rcases List.mem_append.1 hp' with hp' | hp'
  · exact h.ink p' hp' q hq
  · obtain rfl := List.mem_singleton.1 hp'
    rcases List.mem_cons.1 hq with rfl | hq
    · exact h.pen
    · obtain rfl := List.mem_singleton.1 hq
      exact hp

theorem near_target {pen : Point} (hpen : pen.Near bound) (motion : Motion) (x y : Operand) :
    (motion.target pen ⟨x.number, y.number⟩).Near (bound + 15) := by
  have hx := x.number_bounds
  have hy := y.number_bounds
  obtain ⟨hpenx, hpeny⟩ := hpen
  cases motion with
  | moveTo | lineTo =>
      constructor
      · exact hx.trans (Nat.le_add_left _ _)
      · show y.number.natAbs + 2 ≤ bound + 15
        omega
  | moveBy | lineBy =>
      constructor
      · show (pen.x + x.number).natAbs ≤ bound + 15
        omega
      · show (pen.y + y.number).natAbs + 2 ≤ bound + 15
        omega

theorem three_le_length (motion : Motion) (x y : Operand) :
    3 ≤ (Statement.pen motion x y).text.length := by
  simp only [Statement.text, Statement.operands, Operand.text, List.flatMap_cons, List.flatMap_nil,
    List.length_cons, List.length_append, List.length_nil]
  omega

theorem Reaches.perform (h : t.Reaches bound) (s : Statement) :
    (t.perform s).Reaches (bound + 5 * s.text.length) := by
  -- A statement that moves the pen has three characters at least, and moves it by 15 units at most.
  have hkept := h.mono (Nat.le_add_right bound (5 * s.text.length))
  cases s with
  | advance units => exact ⟨units.number_bounds, hkept.pen, hkept.ink⟩
  | pen motion x y =>
      have hlength := three_le_length motion x y
      have hnext := (near_target h.pen motion x y).mono
        (show bound + 15 ≤ bound + 5 * (Statement.pen motion x y).text.length by omega)
      cases motion with
      | moveTo | moveBy => exact hkept.moveTo hnext
      | lineTo | lineBy => exact hkept.drawTo hnext
  | dot =>
      refine ⟨hkept.advance, hkept.pen, ?_⟩
      intro p hp q hq
      rcases List.mem_append.1 hp with hp | hp
      · exact hkept.ink p hp q hq
      · obtain rfl := List.mem_singleton.1 hp
        obtain rfl := List.mem_singleton.1 hq
        exact hkept.pen

theorem Reaches.run (h : t.Reaches bound) (statements : List Statement) :
    (t.run statements).Reaches (bound + 5 * (statements.map (·.text.length)).sum) := by
  induction statements generalizing t bound with
  | nil => exact h
  | cons s statements ih =>
      have hrest := ih (h.perform s)
      rw [List.map_cons, List.sum_cons, Nat.mul_add, ← Nat.add_assoc]
      exact hrest

end Turtle

theorem Sentence.sum_length_le (s : Sentence) :
    (s.statements.map (·.text.length)).sum ≤ s.text.length := by
  induction s with
  | done noise => exact Nat.zero_le _
  | more noise statement rest ih =>
      simp only [statements, text, List.map_cons, List.sum_cons, List.length_append]
      omega

theorem Sentence.reaches (s : Sentence) :
    (Turtle.start.run s.statements).Reaches (2 + 5 * s.text.length) := by
  have hlength := s.sum_length_le
  exact (Turtle.reaches_start.run s.statements).mono (by omega)

end Grammar

variable {settings : Settings} {bound : Nat}

def Primitive.inkAt (settings : Settings) (place : Point → Point) : Primitive → List Point
  | line start finish => Raster.line settings.strokeWidth (place start) (place finish)
  | dot center => Raster.dot (place center) settings.dotRadius

theorem Primitive.ink_eq_inkAt (settings : Settings) (origin : Point) (p : Primitive) :
    p.ink settings origin = p.inkAt settings (Scale.place settings.fontSize origin) := by
  cases p with
  | line | dot => rfl

theorem Primitive.inkAt_congr {place place' : Point → Point} {p : Primitive}
    (h : ∀ q ∈ p.points, place q = place' q) : p.inkAt settings place = p.inkAt settings place' := by
  cases p with
  | line start finish =>
      rw [inkAt, inkAt, h start List.mem_cons_self, h finish (List.mem_cons_of_mem _ List.mem_cons_self)]
  | dot center => rw [inkAt, inkAt, h center List.mem_cons_self]

/-- The pixels of a glyph and its advance, with all lengths scaled in whole numbers. -/
def exactRender (settings : Settings) (origin : Point) (program : String) : List Point × Int :=
  match (trace program).result with
  | .ok t =>
      (t.primitives.flatMap (·.inkAt settings (Scale.exactPlace settings.fontSize origin)),
        Scale.quotient settings.fontSize t.advance)
  | .error _ => ([], 0)

theorem place_exact (h : Scale.ExactUpTo settings.fontSize bound) {p : Point} (hp : p.Near bound)
    (origin : Point) : Scale.pointFits settings.fontSize p = true ∧
      Scale.place settings.fontSize origin p = Scale.exactPlace settings.fontSize origin p := by
  have hx := h.length hp.x
  have hheight : (p.y - Scale.baseline).natAbs ≤ bound := by
    have hnear := hp.y
    simp only [Scale.baseline]
    omega
  have hy := h.length hheight
  constructor
  · rw [Scale.pointFits, Scale.fits_of_length hx, Scale.fits_of_length hy, Bool.and_true]
  · rw [Scale.place, Scale.pixels_of_length hx, Scale.pixels_of_length hy, Scale.exactPlace]

theorem Trace.paint_exact (h : Scale.ExactUpTo settings.fontSize bound) {t : Trace}
    (hadvance : t.advance.natAbs ≤ bound)
    (hpoints : ∀ p ∈ t.primitives, ∀ q ∈ p.points, q.Near bound) (origin : Point) :
    t.paint settings origin =
      ⟨t.primitives.flatMap (·.inkAt settings (Scale.exactPlace settings.fontSize origin)), [],
        .ok (Scale.quotient settings.fontSize t.advance)⟩ := by
  have hlength := h.length hadvance
  have hfits : t.fits settings.fontSize = true := by
    rw [fits, Bool.and_eq_true, List.all_eq_true]
    refine ⟨?_, Scale.fits_of_length hlength⟩
    intro p hp
    exact Primitive.fits_iff.2 fun q hq => (place_exact h (hpoints p hp q hq) origin).1
  have hink : t.ink settings origin =
      t.primitives.flatMap (·.inkAt settings (Scale.exactPlace settings.fontSize origin)) := by
    apply List.flatMap_congr
    intro p hp
    rw [p.ink_eq_inkAt]
    exact Primitive.inkAt_congr fun q hq => (place_exact h (hpoints p hp q hq) origin).2
  rw [paint_of_fits hfits, hink, Scale.pixels_of_length hlength]

/-- A program that is short for its font size is painted without a failure and without any rounding but
the last: its pixels and its advance are those of whole numbers. -/
theorem render_exact_of_short {settings : Settings} (hsettings : settings.Clamped) {program : String}
    (hbound : settings.fontSize * (5 * program.length + 15) ≤ 2 ^ 53) (origin : Point) :
    (render settings origin program).pixels = (exactRender settings origin program).1 ∧
      (render settings origin program).result = .ok (exactRender settings origin program).2 := by
  have hsize : 8 ≤ settings.fontSize := hsettings.fontSize
  have hexact : Scale.ExactUpTo settings.fontSize (5 * program.length + 15) := by
    refine ⟨by omega, by omega, ?_⟩
    have hcast : (settings.fontSize.natAbs : Int) = settings.fontSize :=
      Int.natAbs_of_nonneg (by omega)
    zify
    rw [abs_of_nonneg (by omega)]
    exact hbound
  by_cases hsentence : ∃ s : Grammar.Sentence, s.text = program.toList
  · obtain ⟨s, hs⟩ := hsentence
    have htrace := Grammar.trace_result_of_text hs
    have hreaches := s.reaches
    rw [hs, String.length_toList] at hreaches
    have hwithin := hreaches.mono (show _ ≤ 5 * program.length + 15 by omega)
    have hpaint := Trace.paint_exact hexact (t := s.meaning)
      (hwithin.advance.trans (Nat.le_add_left _ _)) hwithin.ink origin
    obtain ⟨hpixels, hresult⟩ := render_of_trace htrace settings origin
    rw [hpixels, hresult, hpaint]
    simp only [exactRender, htrace, and_self]
  · have htrace := Grammar.trace_result_of_no_text hsentence
    obtain ⟨hpixels, hresult⟩ := render_of_malformed htrace settings origin
    rw [hpixels, hresult]
    simp only [exactRender, htrace, and_self]

theorem render_exact_of_short_mixed :
    Settings.default.Clamped ∧
      Settings.default.fontSize * (5 * "a6 m46 p-4-F M58d p11 a-3".length + 15) ≤ 2 ^ 53 ∧
      (render .default ⟨3, 40⟩ "a6 m46 p-4-F M58d p11 a-3").pixels =
        (exactRender .default ⟨3, 40⟩ "a6 m46 p-4-F M58d p11 a-3").1 ∧
      (render .default ⟨3, 40⟩ "a6 m46 p-4-F M58d p11 a-3").result =
        .ok (exactRender .default ⟨3, 40⟩ "a6 m46 p-4-F M58d p11 a-3").2 := by
  have hbound : Settings.default.fontSize * (5 * "a6 m46 p-4-F M58d p11 a-3".length + 15) ≤ 2 ^ 53 := by
    decide
  exact ⟨Settings.clamped_default, hbound, render_exact_of_short Settings.clamped_default hbound _⟩

end Glyph

end StrokeFont
