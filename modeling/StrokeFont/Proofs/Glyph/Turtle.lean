import StrokeFont.Glyph.Render
import StrokeFont.Proofs.Glyph.Recognition

namespace StrokeFont.Glyph.Grammar

structure Turtle where
  advance : Int
  pen : Point
  ink : List Primitive

namespace Turtle

def start : Turtle := ⟨0, ⟨0, 0⟩, []⟩

def moveTo (t : Turtle) (p : Point) : Turtle := { t with pen := p }

def drawTo (t : Turtle) (p : Point) : Turtle := { t with pen := p, ink := t.ink ++ [.line t.pen p] }

def perform (t : Turtle) : Statement → Turtle
  | .advance units => { t with advance := units.number }
  | .pen .moveTo x y => t.moveTo ⟨x.number, y.number⟩
  | .pen .moveBy x y => t.moveTo ⟨t.pen.x + x.number, t.pen.y + y.number⟩
  | .pen .lineTo x y => t.drawTo ⟨x.number, y.number⟩
  | .pen .lineBy x y => t.drawTo ⟨t.pen.x + x.number, t.pen.y + y.number⟩
  | .dot => { t with ink := t.ink ++ [.dot t.pen] }

def run (t : Turtle) (statements : List Statement) : Turtle := statements.foldl perform t

theorem run_append (t : Turtle) (s s' : List Statement) : t.run (s ++ s') = (t.run s).run s' :=
  List.foldl_append

def trace (t : Turtle) : Trace := ⟨t.advance, t.ink⟩

theorem trace_run (t : Turtle) (statements : List Statement) :
    (t.run statements).trace =
      ⟨advanceAfter t.advance (statements.map Statement.instruction),
        t.ink ++ draw t.pen (statements.map Statement.instruction)⟩ := by
  induction statements generalizing t with
  | nil => simp [run, trace, advanceAfter, draw]
  | cons s statements ih =>
      have hrun : t.run (s :: statements) = (t.perform s).run statements := rfl
      rw [hrun, ih]
      cases s with
      | advance units => rfl
      | pen motion x y =>
          cases motion with
          | moveTo | moveBy => rfl
          | lineTo | lineBy =>
              simp only [perform, drawTo, List.append_assoc]
              rfl
      | dot =>
          simp only [perform, List.append_assoc]
          rfl

end Turtle

def Sentence.meaning (s : Sentence) : Trace := (Turtle.start.run s.statements).trace

theorem execute_instructions (statements : List Statement) :
    execute (statements.map Statement.instruction) = (Turtle.start.run statements).trace :=
  (Turtle.start.trace_run statements).symm

theorem instructions?_eq_none {text : List Char} (h : ¬ ∃ s : Sentence, s.text = text) :
    instructions? text = none := by
  rw [← after_eq_opcode_iff] at h
  unfold instructions?
  split
  · contradiction
  · rfl

theorem trace_result_of_reads {program : String} {statements : List Statement}
    (h : Reads .opcode program.toList (statements.map Statement.instruction) .opcode) :
    (Glyph.trace program).result = .ok (Turtle.start.run statements).trace := by
  obtain ⟨hafter, hmade⟩ := h
  simp only [Glyph.trace, instructions?, hafter, hmade, execute_instructions]

theorem trace_result_of_text {program : String} {s : Sentence} (h : s.text = program.toList) :
    (Glyph.trace program).result = .ok s.meaning :=
  trace_result_of_reads (h ▸ reads_sentence s)

theorem trace_result_of_no_text {program : String} (h : ¬ ∃ s : Sentence, s.text = program.toList) :
    (Glyph.trace program).result = .error ⟨program, program.length⟩ := by
  simp only [Glyph.trace, instructions?_eq_none h, Malformed.atEnd]

theorem sentence_of_trace {program : String} {t : Trace} (h : (Glyph.trace program).result = .ok t) :
    ∃ s : Sentence, s.text = program.toList ∧ s.meaning = t := by
  by_cases hs : ∃ s : Sentence, s.text = program.toList
  · obtain ⟨s, hs⟩ := hs
    rw [trace_result_of_text hs] at h
    exact ⟨s, hs, Except.ok.inj h⟩
  · rw [trace_result_of_no_text hs] at h
    cases h

/-- Tracing accepts exactly the sentences of the grammar, each of which is derived in one way, and
yields what the turtle draws. Of any other text it reports the whole text and its end. -/
theorem trace_iff_derivation (program : String) :
    (∀ t, (Glyph.trace program).result = .ok t ↔
      ∃ s : Sentence, s.text = program.toList ∧ s.meaning = t) ∧
    (∀ cause, (Glyph.trace program).result = .error cause ↔
      (¬ ∃ s : Sentence, s.text = program.toList) ∧ cause = ⟨program, program.length⟩) ∧
    ∀ s s' : Sentence, s.text = program.toList → s'.text = program.toList → s = s' := by
  have unique (s s' : Sentence) (hs : s.text = program.toList) (hs' : s'.text = program.toList) :
      s = s' :=
    Sentence.text_injective (hs.trans hs'.symm)
  by_cases h : ∃ s : Sentence, s.text = program.toList
  · obtain ⟨s, hs⟩ := h
    rw [trace_result_of_text hs]
    refine ⟨fun t => ⟨?_, ?_⟩, fun cause => ⟨?_, ?_⟩, unique⟩
    · intro ht
      exact ⟨s, hs, Except.ok.inj ht⟩
    · rintro ⟨s', hs', rfl⟩
      rw [unique s s' hs hs']
    · intro he
      cases he
    · rintro ⟨hnone, -⟩
      exact absurd ⟨s, hs⟩ hnone
  · rw [trace_result_of_no_text h]
    refine ⟨fun t => ⟨?_, ?_⟩, fun cause => ⟨?_, ?_⟩, unique⟩
    · intro ht
      cases ht
    · rintro ⟨s, hs, -⟩
      exact absurd ⟨s, hs⟩ h
    · intro he
      exact ⟨h, (Except.error.inj he).symm⟩
    · rintro ⟨-, rfl⟩
      rfl

end StrokeFont.Glyph.Grammar
