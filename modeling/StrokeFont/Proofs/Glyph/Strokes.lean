import StrokeFont.Proofs.Glyph.Ink
import StrokeFont.Proofs.Glyph.Width
import StrokeFont.Proofs.Raster.Midpoint

namespace StrokeFont

def Point.Touches (p q : Point) : Prop := (q.x - p.x).natAbs ≤ 1 ∧ (q.y - p.y).natAbs ≤ 1

theorem Point.touches_self (p : Point) : p.Touches p := by
  simp [Touches]

theorem Point.Adjacent.touches {p q : Point} (h : p.Adjacent q) : p.Touches q :=
  max_le_iff.1 (le_of_eq h)

namespace Raster

variable {p q r : Point} {s t : List Point}

/-- Pixels from one to another, in an order in which there is no gap between two of them. -/
structure Unbroken (start finish : Point) (pixels : List Point) : Prop where
  head : pixels.head? = some start
  last : pixels.getLast? = some finish
  touching : pixels.IsChain Point.Touches

theorem Unbroken.append (hs : Unbroken p q s) (ht : Unbroken q r t) : Unbroken p r (s ++ t) := by
  constructor
  · rw [List.head?_append, hs.head, Option.some_or]
  · rw [List.getLast?_append, ht.last, Option.some_or]
  · apply hs.touching.append ht.touching
    intro x hx y hy
    obtain rfl : q = x := by simpa [hs.last] using hx
    obtain rfl : q = y := by simpa [ht.head] using hy
    exact q.touches_self

theorem unbroken_line {width : Int} (hwidth : width ≤ 1) (start finish : Point) :
    Unbroken start finish (line width start finish) := by
  have hline := isMidpointLine_midpoints start finish
  rw [← thinLine_eq] at hline
  rw [line_of_le_one hwidth]
  exact ⟨hline.head, hline.last, hline.adjacent.imp fun _ _ h => h.touches⟩

end Raster

namespace Glyph

variable {settings : Settings} {origin p q r : Point} {s t : List Point}

/-- The pixels lead without a gap from the place of one glyph point to that of another. -/
def Joins (settings : Settings) (origin p q : Point) (pixels : List Point) : Prop :=
  ∃ start finish, Scale.toDevice settings.fontSize origin p = .ok start ∧
    Scale.toDevice settings.fontSize origin q = .ok finish ∧ Raster.Unbroken start finish pixels

theorem Joins.append (hs : Joins settings origin p q s) (ht : Joins settings origin q r t) :
    Joins settings origin p r (s ++ t) := by
  obtain ⟨start, middle, hp, hq, hs⟩ := hs
  obtain ⟨middle', finish, hq', hr, ht⟩ := ht
  obtain rfl : middle = middle' := Except.ok.inj (hq.symm.trans hq')
  exact ⟨start, finish, hp, hr, hs.append ht⟩

theorem joins_of_paint_line (hpen : settings.strokeWidth ≤ 1)
    (h : ((Primitive.line p q).paint settings origin).result = .ok ()) :
    Joins settings origin p q ((Primitive.line p q).paint settings origin).pixels := by
  obtain ⟨start, hstart, h⟩ := Drawing.ok_of_bind h
  obtain ⟨finish, hfinish, -⟩ := Drawing.ok_of_bind h
  have hpixels : ((Primitive.line p q).paint settings origin).pixels =
      Raster.line settings.strokeWidth start finish := by
    rw [Primitive.paint, Drawing.bind_of_ok hstart, Drawing.bind_of_ok hfinish]
    rfl
  rw [hpixels]
  exact ⟨start, finish, hstart, hfinish, Raster.unbroken_line hpen start finish⟩

namespace Grammar

def Statement.draws : Statement → Bool
  | pen motion _ _ => motion.draws
  | advance _ | dot => false

def painting (settings : Settings) (origin pen : Point) (statements : List Statement) : Drawing Unit :=
  (draw pen (statements.map Statement.instruction)).forM (Primitive.paint settings origin)

namespace Turtle

variable {t : Turtle} {before run after : List Statement}

theorem draw_append (t : Turtle) (s s' : List Statement) :
    draw t.pen ((s ++ s').map Statement.instruction) =
      draw t.pen (s.map Statement.instruction) ++ draw (t.run s).pen (s'.map Statement.instruction) := by
  have hall := congrArg Trace.primitives (t.trace_run (s ++ s'))
  have hs := congrArg Trace.primitives (t.trace_run s)
  have hs' := congrArg Trace.primitives ((t.run s).trace_run s')
  simp only [trace, run_append] at hall hs hs'
  rw [hs', hs, List.append_assoc] at hall
  exact (List.append_cancel_left hall).symm

theorem draw_of_advances {run : List Statement} (h : ∀ s ∈ run, s.isAdvance) (t : Turtle) :
    draw t.pen (run.map Statement.instruction) = [] ∧ (t.run run).pen = t.pen := by
  induction run generalizing t with
  | nil => exact ⟨rfl, rfl⟩
  | cons s run ih =>
      obtain ⟨units, rfl⟩ := Statement.eq_advance (h s List.mem_cons_self)
      exact ih (fun s hs => h s (List.mem_cons_of_mem _ hs)) (t.perform (.advance units))

theorem painting_append (h : (painting settings origin t.pen (before ++ after)).result = .ok ()) :
    (painting settings origin t.pen before).result = .ok () ∧
      (painting settings origin (t.run before).pen after).result = .ok () ∧
      (painting settings origin t.pen (before ++ after)).pixels =
        (painting settings origin t.pen before).pixels ++
          (painting settings origin (t.run before).pen after).pixels := by
  simp only [painting, draw_append] at h ⊢
  exact Drawing.forM_append h

theorem painting_cons {s : Statement} (hs : s.draws) (t : Turtle) (rest : List Statement) :
    painting settings origin t.pen (s :: rest) =
      (Primitive.line t.pen (t.perform s).pen).paint settings origin >>= fun _ =>
        painting settings origin (t.perform s).pen rest := by
  cases s with
  | advance units => cases hs
  | dot => cases hs
  | pen motion x y =>
      cases motion with
      | moveTo | moveBy => cases hs
      | lineTo | lineBy => rfl

theorem painting_joins (hpen : settings.strokeWidth ≤ 1) (hrun : ∀ s ∈ run, s.draws ∨ s.isAdvance)
    (hstroke : ∃ s ∈ run, s.draws) (h : (painting settings origin t.pen run).result = .ok ()) :
    Joins settings origin t.pen (t.run run).pen (painting settings origin t.pen run).pixels := by
  induction run generalizing t with
  | nil =>
      obtain ⟨s, hs, -⟩ := hstroke
      cases hs
  | cons s run ih =>
      obtain ⟨hs, hrest⟩ := List.forall_mem_cons.1 hrun
      by_cases hdraws : s.draws
      · rw [painting_cons hdraws] at h ⊢
        obtain ⟨_, hline, hpainted⟩ := Drawing.ok_of_bind h
        have hjoins := joins_of_paint_line hpen hline
        rw [Drawing.bind_of_ok hline]
        by_cases hmore : ∃ s ∈ run, s.draws
        · exact hjoins.append (ih hrest hmore hpainted)
        · -- Without a further stroke the pen stays where the first one ends.
          have hadvances : ∀ s ∈ run, s.isAdvance := by
            intro s' hs'
            exact (hrest s' hs').resolve_left fun hdraws' => hmore ⟨s', hs', hdraws'⟩
          obtain ⟨hnone, hstays⟩ := draw_of_advances hadvances (t.perform s)
          rw [painting, hnone]
          change Joins settings origin t.pen ((t.perform s).run run).pen (_ ++ [])
          rw [hstays, List.append_nil]
          exact hjoins
      · obtain ⟨units, rfl⟩ := Statement.eq_advance (hs.resolve_left hdraws)
        obtain ⟨s', hs', hdraws'⟩ := hstroke
        have hmore : ∃ s ∈ run, s.draws := by
          rcases List.mem_cons.1 hs' with rfl | hs'
          · cases hdraws'
          · exact ⟨s', hs', hdraws'⟩
        exact ih (t := t.perform (.advance units)) hrest hmore h

end Turtle

theorem painting_of_paint {s : Sentence} {n : Int}
    (h : (s.meaning.paint settings origin).result = .ok n) :
    (painting settings origin Turtle.start.pen s.statements).result = .ok () ∧
      (s.meaning.paint settings origin).pixels =
        (painting settings origin Turtle.start.pen s.statements).pixels := by
  rw [Sentence.meaning, ← execute_instructions] at h ⊢
  obtain ⟨_, hall, -⟩ := Drawing.ok_of_bind h
  rw [Trace.paint, Drawing.bind_of_ok hall]
  exact ⟨hall, List.append_nil _⟩

end Grammar

open Grammar

/-- The pixels of strokes between which the pen is not lifted start on the pixel of the pen before them,
end on the pixel of the pen after them, and leave no gap. Advances may stand between the strokes. -/
theorem strokes_leave_no_gap {program : String} {s : Sentence} (hs : s.text = program.toList)
    {settings : Settings} (hpen : settings.strokeWidth ≤ 1) {origin : Point} {n : Int}
    (hn : (render settings origin program).result = .ok n) {before run after : List Statement}
    (hsplit : s.statements = before ++ (run ++ after)) (hrun : ∀ s ∈ run, s.draws ∨ s.isAdvance)
    (hstroke : ∃ s ∈ run, s.draws) :
    let start := Turtle.start.run before
    let finish := start.run run
    (render settings origin program).pixels =
        (painting settings origin Turtle.start.pen before).pixels ++
          ((painting settings origin start.pen run).pixels ++
            (painting settings origin finish.pen after).pixels) ∧
      Joins settings origin start.pen finish.pen (painting settings origin start.pen run).pixels := by
  intro start finish
  obtain ⟨hpixels, hresult⟩ := render_of_trace (trace_result_of_text hs) settings origin
  rw [hresult] at hn
  obtain ⟨hall, hall_pixels⟩ := painting_of_paint hn
  rw [hsplit] at hall hall_pixels
  obtain ⟨-, hrest, hrest_pixels⟩ := Turtle.painting_append hall
  obtain ⟨hpainted, -, hrun_pixels⟩ := Turtle.painting_append hrest
  rw [hpixels, hall_pixels, hrest_pixels, hrun_pixels]
  exact ⟨rfl, Turtle.painting_joins hpen hrun hstroke hpainted⟩

section Corner

def toStart : Statement := .pen .moveTo (.plain '1' 1 (by decide)) (.plain '2' 2 (by decide))

def corner : List Statement :=
  [.pen .lineTo (.plain '3' 3 (by decide)) (.plain '4' 4 (by decide)),
    .advance (.plain '6' 6 (by decide)),
    .pen .lineBy (.plain '1' 1 (by decide)) (.plain '1' 1 (by decide))]

def stray : Noise := ⟨['z'], by simp [opcodes]⟩

def cornerSentence : Sentence :=
  ([toStart] ++ (corner ++ [Statement.dot])).foldr (.more stray) (.done stray)

theorem strokes_leave_no_gap_corner :
    let settings := Settings.default.setFontSize 13
    let start := Turtle.start.run [toStart]
    let finish := start.run corner
    cornerSentence.text = "zM12zP34za6zp11zdz".toList ∧ settings.strokeWidth ≤ 1 ∧
      (render settings ⟨3, 40⟩ "zM12zP34za6zp11zdz").result = .ok 9 ∧
      cornerSentence.statements = [toStart] ++ (corner ++ [.dot]) ∧
      (∀ s ∈ corner, s.draws ∨ s.isAdvance) ∧ (∃ s ∈ corner, s.draws) ∧
      (render settings ⟨3, 40⟩ "zM12zP34za6zp11zdz").pixels =
        (painting settings ⟨3, 40⟩ Turtle.start.pen [toStart]).pixels ++
          ((painting settings ⟨3, 40⟩ start.pen corner).pixels ++
            (painting settings ⟨3, 40⟩ finish.pen [.dot]).pixels) ∧
      Joins settings ⟨3, 40⟩ start.pen finish.pen (painting settings ⟨3, 40⟩ start.pen corner).pixels := by
  intro settings start finish
  have htext : cornerSentence.text = "zM12zP34za6zp11zdz".toList := rfl
  have hpen : settings.strokeWidth ≤ 1 := by decide
  have hn : (render settings ⟨3, 40⟩ "zM12zP34za6zp11zdz").result = .ok 9 := by decide +kernel
  have hsplit : cornerSentence.statements = [toStart] ++ (corner ++ [.dot]) := rfl
  have hrun : ∀ s ∈ corner, s.draws ∨ s.isAdvance := by decide
  have hstroke : ∃ s ∈ corner, s.draws := by decide
  exact ⟨htext, hpen, hn, hsplit, hrun, hstroke, strokes_leave_no_gap htext hpen hn hsplit hrun hstroke⟩

end Corner

end Glyph

end StrokeFont
