import StrokeFont.Proofs.Glyph.Width

namespace StrokeFont.Glyph

namespace Grammar

section Joined

def home : Statement := .pen .moveTo (.plain '0' 0 (by decide)) (.plain '0' 0 (by decide))

/-- From the origin on, a turtle draws what a new one draws. Of the turtle that was there before only
the advance is left, and only until there is another one. -/
theorem Turtle.run_home (t : Turtle) (statements : List Statement) :
    ((t.perform home).run statements).trace =
      ⟨if statements.any Statement.isAdvance then (Turtle.start.run statements).advance else t.advance,
        t.ink ++ (Turtle.start.run statements).ink⟩ := by
  have hnew := Turtle.start.trace_run statements
  rw [Turtle.trace, Trace.mk.injEq] at hnew
  rw [trace_run, advanceAfter_eq, hnew.1, hnew.2]
  rfl

theorem reads_home : Reads .opcode home.text [home.instruction] .opcode := reads_statement home

theorem after_text_home (s : Sentence) (q : List Char) :
    Mode.opcode.after (s.text ++ (home.text ++ q)) = Mode.opcode.after q := by
  rw [Mode.after_append, (reads_sentence s).1, Mode.after_append, reads_home.1]

end Joined

section Completed

theorem due_le_two (mode : Mode) : due mode ≤ 2 := by
  cases mode with
  | opcode => decide
  | operand pending negative => cases pending <;> simp [due, missing]

theorem eq_opcode_of_due {mode : Mode} (h : due mode = 0) : mode = .opcode := by
  cases mode with
  | opcode => rfl
  | operand pending negative => cases pending <;> cases h

theorem due_step {mode : Mode} {c : Char} {n : Nat} (hc : IsDigit c n) (hplain : c ∉ opcodes) :
    due (mode.step c).1 = due mode - 1 := by
  cases mode with
  | opcode => simp only [Mode.step, (opcode?_eq_none_iff c).2 hplain, due]
  | operand pending negative =>
      simp only [Mode.step, operandAt?_of_isDigit hc]
      cases pending with
      | advance | abscissa motion | ordinate motion x => rfl

theorem after_digits {mode : Mode} {digits : List Char}
    (h : ∀ c ∈ digits, (∃ n, IsDigit c n) ∧ c ∉ opcodes) (hdue : due mode ≤ digits.length) :
    mode.after digits = .opcode := by
  induction digits generalizing mode with
  | nil => exact eq_opcode_of_due (Nat.le_zero.1 hdue)
  | cons c digits ih =>
      obtain ⟨⟨⟨n, hc⟩, hplain⟩, hrest⟩ := List.forall_mem_cons.1 h
      rw [Mode.after_cons]
      apply ih hrest
      rw [due_step hc hplain]
      exact Nat.sub_le_of_le_add hdue

def zeros : Noise := ⟨['0', '0'], by simp [opcodes]⟩

theorem after_zeros (text : List Char) : Mode.opcode.after (text ++ zeros.text) = .opcode := by
  rw [Mode.after_append]
  apply after_digits
  · have hzero : (∃ n, IsDigit '0' n) ∧ '0' ∉ opcodes := ⟨⟨0, by decide⟩, by decide⟩
    intro c hc
    obtain rfl : c = '0' := by simpa [zeros] using hc
    exact hzero
  · exact due_le_two _

theorem firstAdvance_append_zero (p : String) :
    firstAdvance (p ++ "0") = .ok ((firstAdvance p).toOption.getD 0) := by
  have hzero : (p ++ "0").toList = p.toList ++ ['0'] := String.toList_append
  obtain ⟨units, h⟩ := exists_letterUnits p.toList
  generalize htext : p.toList = text at h hzero
  cases h with
  | absent h =>
      have hmore : 'a' ∉ (p ++ "0").toList := by
        rw [hzero, List.mem_append, not_or]
        exact ⟨h, by decide⟩
      rw [firstAdvance_of_absent hmore, firstAdvance_of_absent (htext ▸ h)]
      rfl
  | @cut before after h hafter =>
      let o : Operand := ⟨after, '0', 0, hafter, by decide⟩
      have hmore : (p ++ "0").toList = before ++ 'a' :: (o.text ++ []) := by
        rw [hzero, List.append_nil, List.append_assoc]
        rfl
      have hnumber : o.number = 0 := by simp [Operand.number, o]
      rw [firstAdvance_of_read hmore h, firstAdvance_of_cut htext h hafter, hnumber]
      rfl
  | @read before after h o =>
      have hmore : (p ++ "0").toList = before ++ 'a' :: (o.text ++ (after ++ ['0'])) := by
        rw [hzero, List.append_assoc, List.cons_append, List.append_assoc]
      rw [firstAdvance_of_read hmore h, firstAdvance_of_read htext h]
      rfl

end Completed

end Grammar

open Grammar

/-- After a complete program the pen can be sent home and another program read. The two are accepted
as the other one is alone, draw one after the other, and the last advance of both counts. -/
theorem trace_joined {p q : String} {t : Trace} (hp : (trace p).result = .ok t) :
    ((∃ cause, (trace (p ++ "M00" ++ q)).result = .error cause) ↔
      ∃ cause, (trace q).result = .error cause) ∧
    ∀ u, (trace q).result = .ok u → ∃ s : Sentence, s.text = q.toList ∧
      (trace (p ++ "M00" ++ q)).result =
        .ok ⟨if s.statements.any Statement.isAdvance then u.advance else t.advance,
          t.primitives ++ u.primitives⟩ := by
  obtain ⟨s, hs, rfl⟩ := sentence_of_trace hp
  have htext : (p ++ "M00" ++ q).toList = s.text ++ (home.text ++ q.toList) := by
    rw [hs, String.toList_append, String.toList_append, List.append_assoc]
    rfl
  have hjoined (u : Sentence) (hu : u.text = q.toList) : (trace (p ++ "M00" ++ q)).result =
      .ok ⟨if u.statements.any Statement.isAdvance then u.meaning.advance else s.meaning.advance,
        s.meaning.primitives ++ u.meaning.primitives⟩ := by
    have hreads := (reads_sentence s).append (reads_home.append (reads_sentence u))
    rw [hu, ← htext, List.singleton_append, ← List.map_cons, ← List.map_append] at hreads
    rw [trace_result_of_reads hreads, Turtle.run_append]
    exact congrArg Except.ok (Turtle.run_home _ u.statements)
  by_cases hq : ∃ u : Sentence, u.text = q.toList
  · obtain ⟨u, hu⟩ := hq
    rw [hjoined u hu, trace_result_of_text hu]
    refine ⟨⟨?_, ?_⟩, ?_⟩
    · rintro ⟨cause, hcause⟩
      cases hcause
    · rintro ⟨cause, hcause⟩
      cases hcause
    · rintro _ ⟨⟩
      exact ⟨u, hu, rfl⟩
  · have hneither : ¬ ∃ u : Sentence, u.text = (p ++ "M00" ++ q).toList := by
      rw [← after_eq_opcode_iff, htext, after_text_home, after_eq_opcode_iff]
      exact hq
    rw [trace_result_of_no_text hq, trace_result_of_no_text hneither]
    refine ⟨iff_of_true ⟨_, rfl⟩ ⟨_, rfl⟩, ?_⟩
    intro u hu
    cases hu

theorem trace_joined_sign :
    (trace "a6 P34 -").result = .ok ⟨6, [.line ⟨0, 0⟩ ⟨3, 4⟩]⟩ ∧
    ((∃ cause, (trace ("a6 P34 -" ++ "M00" ++ "p11 d")).result = .error cause) ↔
      ∃ cause, (trace "p11 d").result = .error cause) ∧
    ∀ u, (trace "p11 d").result = .ok u → ∃ s : Sentence, s.text = "p11 d".toList ∧
      (trace ("a6 P34 -" ++ "M00" ++ "p11 d")).result =
        .ok ⟨if s.statements.any Statement.isAdvance then u.advance else 6,
          [.line ⟨0, 0⟩ ⟨3, 4⟩] ++ u.primitives⟩ := by
  have hp : (trace "a6 P34 -").result = .ok ⟨6, [.line ⟨0, 0⟩ ⟨3, 4⟩]⟩ := by decide
  exact ⟨hp, trace_joined hp⟩

/-- A program that is not accepted is only cut off: with two digits more it is complete. To a complete
program they mean nothing. The advance of a glyph that is measured alone lacks one digit at most. -/
theorem completed_by_zeros (p : String) :
    (∃ t, (trace (p ++ "00")).result = .ok t) ∧
    (∀ t, (trace p).result = .ok t → (trace (p ++ "00")).result = .ok t) ∧
    (∀ n, firstAdvance p = .ok n → firstAdvance (p ++ "0") = .ok n) ∧
    ∀ cause, firstAdvance p = .error cause → firstAdvance (p ++ "0") = .ok 0 := by
  have htext : (p ++ "00").toList = p.toList ++ zeros.text := String.toList_append
  refine ⟨?_, ?_, ?_, ?_⟩
  · obtain ⟨s, hs⟩ := (after_eq_opcode_iff _).1 (after_zeros p.toList)
    exact ⟨s.meaning, trace_result_of_text (hs.trans htext.symm)⟩
  · intro t ht
    obtain ⟨s, hs, rfl⟩ := sentence_of_trace ht
    have hreads := (reads_sentence s).append (reads_noise zeros)
    rw [hs, ← htext, List.append_nil] at hreads
    exact trace_result_of_reads hreads
  · intro n hn
    rw [firstAdvance_append_zero, hn]
    rfl
  · intro cause hcause
    rw [firstAdvance_append_zero, hcause]
    rfl

end StrokeFont.Glyph
