import Mathlib.Data.List.TakeWhile
import StrokeFont.Proofs.Glyph.Ink
import StrokeFont.Proofs.Glyph.Turtle
import StrokeFont.Proofs.Scale
import StrokeFont.Proofs.Settings

namespace StrokeFont.Glyph

namespace Grammar

/-- The units after the first letter `a` of a text; none are read without the letter or without a digit
after it. -/
inductive LetterUnits : List Char → Int → Prop where
  | absent {text : List Char} (h : 'a' ∉ text) : LetterUnits text 0
  | cut {before after : List Char} (h : 'a' ∉ before) (hafter : ∀ c ∈ after, ¬ ∃ n, IsDigit c n) :
      LetterUnits (before ++ 'a' :: after) 0
  | read {before after : List Char} (h : 'a' ∉ before) (o : Operand) :
      LetterUnits (before ++ 'a' :: (o.text ++ after)) o.number

theorem LetterUnits.prepend {text before : List Char} {units : Int} (h : LetterUnits text units)
    (hbefore : 'a' ∉ before) : LetterUnits (before ++ text) units := by
  have hnone {s : List Char} (hs : 'a' ∉ s) : 'a' ∉ before ++ s := by
    rw [List.mem_append, not_or]
    exact ⟨hbefore, hs⟩
  cases h with
  | absent h => exact .absent (hnone h)
  | cut h hafter =>
      rw [← List.append_assoc]
      exact .cut (hnone h) hafter
  | read h o =>
      rw [← List.append_assoc]
      exact .read (hnone h) o

theorem operand_or_none (text : List Char) :
    (∃ (o : Operand) (after : List Char), text = o.text ++ after) ∨ ∀ c ∈ text, ¬ ∃ n, IsDigit c n := by
  induction text with
  | nil => exact .inr fun c hc => by cases hc
  | cons c text ih =>
      by_cases hc : ∃ n, IsDigit c n
      · obtain ⟨n, hn⟩ := hc
        exact .inl ⟨⟨[], c, n, by simp, hn⟩, text, rfl⟩
      · rcases ih with ⟨o, after, rfl⟩ | hnone
        · refine .inl ⟨⟨c :: o.skipped, o.digit, o.value, ?_, o.is_digit⟩, after, rfl⟩
          exact List.forall_mem_cons.2 ⟨hc, o.no_digit⟩
        · exact .inr (List.forall_mem_cons.2 ⟨hc, hnone⟩)

theorem exists_letterUnits (text : List Char) : ∃ units, LetterUnits text units := by
  by_cases ha : 'a' ∈ text
  · obtain ⟨before, after, rfl, hbefore⟩ := List.eq_append_cons_of_mem ha
    rcases operand_or_none after with ⟨o, after, rfl⟩ | hnone
    · exact ⟨_, .read hbefore o⟩
    · exact ⟨_, .cut hbefore hnone⟩
  · exact ⟨_, .absent ha⟩

theorem LetterUnits.bounds {text : List Char} {units : Int} (h : LetterUnits text units) :
    units.natAbs ≤ 15 := by
  cases h with
  | absent | cut => decide
  | read h o => exact o.number_bounds

theorem isHexDigit_iff (c : Char) : Text.isHexDigit c = true ↔ ∃ n, IsDigit c n := by
  rw [Text.isHexDigit, Option.isSome_iff_exists]
  simp only [hexDigit?_eq_some_iff]

theorem operand?_text (o : Operand) (after : List Char) :
    operand? (o.text ++ after) = some (o.number, after) := by
  have hskipped : ∀ c ∈ o.skipped, (!Text.isHexDigit c) = true := by
    intro c hc
    rw [Bool.not_eq_true', Bool.eq_false_iff, Ne, isHexDigit_iff]
    exact o.no_digit c hc
  have hdigit : ¬ (!Text.isHexDigit o.digit) = true := by
    rw [Bool.not_eq_true', Bool.eq_false_iff, Ne, isHexDigit_iff, not_not]
    exact ⟨o.value, o.is_digit⟩
  rw [operand?, Operand.text, List.append_assoc, List.singleton_append,
    List.takeWhile_append_of_pos hskipped, List.dropWhile_append_of_pos hskipped,
    List.takeWhile_cons_of_neg (p := (!Text.isHexDigit ·)) hdigit,
    List.dropWhile_cons_of_neg (p := (!Text.isHexDigit ·)) hdigit, List.append_nil]
  simp only [List.contains_eq_mem, operandAt?_digit, Option.map_some]

theorem operand?_of_no_digit {text : List Char} (h : ∀ c ∈ text, ¬ ∃ n, IsDigit c n) :
    operand? text = none := by
  have hall : ∀ c ∈ text, (!Text.isHexDigit c) = true := by
    intro c hc
    rw [Bool.not_eq_true', Bool.eq_false_iff, Ne, isHexDigit_iff]
    exact h c hc
  simp only [operand?, List.dropWhile_eq_nil_iff.2 hall]

theorem not_mem_a_of_noise (noise : Noise) : 'a' ∉ noise.text :=
  fun h => noise.no_opcode 'a' h List.mem_cons_self

theorem bne_of_not_mem {text : List Char} (h : 'a' ∉ text) : ∀ c ∈ text, (c != 'a') = true := by
  intro c hc
  rw [bne_iff_ne]
  rintro rfl
  exact h hc

theorem firstAdvance_of_absent {program : String} (h : 'a' ∉ program.toList) :
    firstAdvance program = .ok 0 := by
  simp only [firstAdvance, List.dropWhile_eq_nil_iff.2 (bne_of_not_mem h)]

theorem firstAdvance_of_read {program : String} {before after : List Char} {o : Operand}
    (htext : program.toList = before ++ 'a' :: (o.text ++ after)) (h : 'a' ∉ before) :
    firstAdvance program = .ok o.number := by
  rw [firstAdvance, htext, List.dropWhile_append_of_pos (bne_of_not_mem h),
    List.dropWhile_cons_of_neg (by decide)]
  simp only [operand?_text]

theorem firstAdvance_of_cut {program : String} {before after : List Char}
    (htext : program.toList = before ++ 'a' :: after) (h : 'a' ∉ before)
    (hafter : ∀ c ∈ after, ¬ ∃ n, IsDigit c n) : firstAdvance program = .error (.atEnd program) := by
  rw [firstAdvance, htext, List.dropWhile_append_of_pos (bne_of_not_mem h),
    List.dropWhile_cons_of_neg (by decide)]
  simp only [operand?_of_no_digit hafter]

theorem firstAdvance_of_letterUnits {program : String} {units : Int}
    (h : LetterUnits program.toList units) :
    firstAdvance program = .ok units ∨ (units = 0 ∧ firstAdvance program = .error (.atEnd program)) := by
  generalize htext : program.toList = text at h
  cases h with
  | absent h => exact .inl (firstAdvance_of_absent (htext ▸ h))
  | cut h hafter => exact .inr ⟨rfl, firstAdvance_of_cut htext h hafter⟩
  | read h o => exact .inl (firstAdvance_of_read htext h)

namespace Statement

def isAdvance : Statement → Bool
  | advance _ => true
  | _ => false

def HasLetter (s : Statement) : Prop := ∃ o ∈ s.operands, o.digit = 'a'

theorem eq_advance {s : Statement} (hs : s.isAdvance) : ∃ units, s = .advance units := by
  cases s with
  | advance units => exact ⟨units, rfl⟩
  | pen motion x y => cases hs
  | dot => cases hs

theorem not_mem_a {s : Statement} (hs : ¬ s.isAdvance) (h : ¬ s.HasLetter) : 'a' ∉ s.text := by
  have hop : s.opcode ≠ 'a' := by
    cases s with
    | advance units => exact absurd rfl hs
    | pen motion x y => cases motion <;> simp [opcode]
    | dot => simp [opcode]
  intro ha
  rcases List.mem_cons.1 ha with ha | ha
  · exact hop ha.symm
  · obtain ⟨o, ho, ha⟩ := List.mem_flatMap.1 ha
    rcases List.mem_append.1 ha with ha | ha
    · exact o.no_digit 'a' ha ⟨10, by decide, .inl rfl⟩
    · exact h ⟨o, ho, (List.mem_singleton.1 ha).symm⟩

end Statement

theorem Sentence.advance_meaning (s : Sentence) :
    s.meaning.advance = advanceAfter 0 (s.statements.map Statement.instruction) := by
  rw [Sentence.meaning, ← execute_instructions]
  rfl

theorem advanceAfter_of_not_advance {s : Statement} (hs : ¬ s.isAdvance) (advance : Int)
    (rest : List Instruction) :
    advanceAfter advance (s.instruction :: rest) = advanceAfter advance rest := by
  cases s with
  | advance units => exact absurd rfl hs
  | pen motion x y => rfl
  | dot => rfl

theorem advanceAfter_eq (statements : List Statement) (advance : Int) :
    advanceAfter advance (statements.map Statement.instruction) =
      if statements.any Statement.isAdvance then
        advanceAfter 0 (statements.map Statement.instruction) else advance := by
  induction statements with
  | nil => rfl
  | cons s statements ih =>
      by_cases hs : s.isAdvance
      · obtain ⟨units, rfl⟩ := Statement.eq_advance hs
        rfl
      · rw [List.map_cons, advanceAfter_of_not_advance hs, advanceAfter_of_not_advance hs, ih,
          List.any_cons, Bool.eq_false_iff.2 hs, Bool.false_or]

theorem advanceAfter_of_none {statements : List Statement} (h : ∀ s ∈ statements, ¬ s.isAdvance)
    (advance : Int) : advanceAfter advance (statements.map Statement.instruction) = advance := by
  rw [advanceAfter_eq, if_neg]
  rw [List.any_eq_true]
  rintro ⟨s, hs, hadvance⟩
  exact h s hs hadvance

theorem advanceAfter_bounds (statements : List Statement) {advance : Int} (h : advance.natAbs ≤ 15) :
    (advanceAfter advance (statements.map Statement.instruction)).natAbs ≤ 15 := by
  induction statements generalizing advance with
  | nil => exact h
  | cons s statements ih =>
      cases s with
      | advance units => exact ih units.number_bounds
      | pen motion x y => exact ih h
      | dot => exact ih h

theorem letterUnits_of_plain {s : Sentence} (hone : s.statements.countP Statement.isAdvance ≤ 1)
    (hplain : ∀ t ∈ s.statements.takeWhile (!Statement.isAdvance ·), ¬ t.HasLetter) :
    LetterUnits s.text (advanceAfter 0 (s.statements.map Statement.instruction)) := by
  induction s with
  | done noise => exact .absent (not_mem_a_of_noise noise)
  | more noise statement rest ih =>
      rw [Sentence.statements] at hone hplain
      by_cases hstatement : statement.isAdvance
      · obtain ⟨units, rfl⟩ := Statement.eq_advance hstatement
        rw [List.countP_cons_of_pos hstatement] at hone
        have hrest := List.countP_eq_zero.1 (Nat.le_zero.1 (Nat.le_of_succ_le_succ hone))
        have hadvance : advanceAfter 0 ((Sentence.more noise (.advance units) rest).statements.map
            Statement.instruction) = units.number := advanceAfter_of_none hrest units.number
        have htext : (Sentence.more noise (.advance units) rest).text =
            noise.text ++ 'a' :: (units.text ++ rest.text) := by
          simp [Sentence.text, Statement.text, Statement.opcode, Statement.operands]
        rw [hadvance, htext]
        exact .read (not_mem_a_of_noise noise) units
      · rw [List.countP_cons_of_neg hstatement] at hone
        rw [List.takeWhile_cons_of_pos (by simpa using hstatement), List.forall_mem_cons] at hplain
        rw [Sentence.statements, List.map_cons, advanceAfter_of_not_advance hstatement]
        have hletter := Statement.not_mem_a hstatement hplain.1
        exact ((ih hone hplain.2).prepend hletter).prepend (not_mem_a_of_noise noise)

end Grammar

theorem width_of_letterUnits {settings : Settings} {program : String} {units w : Int}
    (h : Grammar.LetterUnits program.toList units) (hw : (width settings program).result = .ok w) :
    Scale.length settings.fontSize units = .ok w ∨ (units = 0 ∧ w = 0) := by
  rcases Grammar.firstAdvance_of_letterUnits h with hfirst | ⟨rfl, hfirst⟩
  · left
    simpa only [width, hfirst] using hw
  · right
    simp only [width, hfirst, Except.ok.injEq] at hw
    exact ⟨rfl, hw.symm⟩

theorem length_of_render {settings : Settings} {origin : Point} {program : String} {t : Trace} {n : Int}
    (ht : (trace program).result = .ok t) (hn : (render settings origin program).result = .ok n) :
    Scale.length settings.fontSize t.advance = .ok n := by
  rw [(render_of_trace ht settings origin).2] at hn
  obtain ⟨-, -, hlength⟩ := Drawing.ok_of_bind (b := n) hn
  exact hlength

/-- A glyph that is accepted is measured as it is rendered exactly when the units after the first letter
`a` of its program are its advance. With one advance at most this is so unless an operand before it is
that letter. -/
theorem width_eq_rendered_iff {program : String} {s : Grammar.Sentence} (hs : s.text = program.toList)
    (hone : s.statements.countP Grammar.Statement.isAdvance ≤ 1) {settings : Settings}
    (hsettings : settings.Clamped) {origin : Point} {w n : Int}
    (hw : (width settings program).result = .ok w)
    (hn : (render settings origin program).result = .ok n) :
    (w = n ↔ Grammar.LetterUnits program.toList s.meaning.advance) ∧
      ((∀ t ∈ s.statements.takeWhile (!Grammar.Statement.isAdvance ·), ¬ t.HasLetter) → w = n) := by
  have hlength := length_of_render (Grammar.trace_result_of_text hs) hn
  have hbounds : s.meaning.advance.natAbs ≤ 15 := by
    rw [s.advance_meaning]
    exact Grammar.advanceAfter_bounds _ (by decide)
  have hzero := Scale.length_zero hsettings.fontSize hlength
  have hiff : w = n ↔ Grammar.LetterUnits program.toList s.meaning.advance := by
    obtain ⟨units, hunits⟩ := Grammar.exists_letterUnits program.toList
    constructor
    · rintro rfl
      have hmeasured : Scale.length settings.fontSize units = .ok w := by
        rcases width_of_letterUnits hunits hw with h | ⟨rfl, rfl⟩
        · exact h
        · exact hzero
      rw [← Scale.length_injective hsettings.fontSize hunits.bounds hbounds hmeasured hlength]
      exact hunits
    · intro hadvance
      rcases width_of_letterUnits hadvance hw with h | ⟨hadvance', rfl⟩
      · exact Except.ok.inj (h.symm.trans hlength)
      · rw [hadvance'] at hlength
        exact Except.ok.inj (hzero.symm.trans hlength)
  refine ⟨hiff, fun hplain => hiff.2 ?_⟩
  rw [← hs, s.advance_meaning]
  exact Grammar.letterUnits_of_plain hone hplain

def movedSentence (x y : Char) (m n : Nat) (hx : Grammar.IsDigit x m) (hy : Grammar.IsDigit y n) :
    Grammar.Sentence :=
  .more ⟨[], List.forall_mem_nil _⟩
    (.pen .moveTo ⟨[], x, m, List.forall_mem_nil _, hx⟩ ⟨[], y, n, List.forall_mem_nil _, hy⟩)
    (.more ⟨[' '], by simp [Grammar.opcodes]⟩
      (.advance ⟨[], '6', 6, List.forall_mem_nil _, by decide, by decide⟩)
      (.done ⟨[], List.forall_mem_nil _⟩))

theorem width_eq_rendered_iff_moved :
    let s := movedSentence '1' '2' 1 2 ⟨by decide, by decide⟩ ⟨by decide, by decide⟩
    s.text = "M12 a6".toList ∧ s.statements.countP Grammar.Statement.isAdvance ≤ 1 ∧
      Settings.default.Clamped ∧ (width .default "M12 a6").result = .ok 12 ∧
      (render .default ⟨3, 40⟩ "M12 a6").result = .ok 12 ∧
      (((12 : Int) = 12 ↔ Grammar.LetterUnits "M12 a6".toList s.meaning.advance) ∧
        ((∀ t ∈ s.statements.takeWhile (!Grammar.Statement.isAdvance ·), ¬ t.HasLetter) →
          (12 : Int) = 12)) := by
  intro s
  have hw : (width .default "M12 a6").result = .ok 12 := by decide +kernel
  have hn : (render .default ⟨3, 40⟩ "M12 a6").result = .ok 12 := by decide +kernel
  exact ⟨rfl, by decide, Settings.clamped_default, hw, hn,
    width_eq_rendered_iff (s := s) rfl (by decide) Settings.clamped_default hw hn⟩

/-- An operand that is the letter is taken for an advance of five, though the glyph advances by six. -/
theorem width_ne_rendered_of_letter :
    let s := movedSentence 'a' '5' 10 5 ⟨by decide, by decide⟩ ⟨by decide, by decide⟩
    s.text = "Ma5 a6".toList ∧ s.statements.countP Grammar.Statement.isAdvance ≤ 1 ∧
      Settings.default.Clamped ∧ (width .default "Ma5 a6").result = .ok 10 ∧
      (render .default ⟨3, 40⟩ "Ma5 a6").result = .ok 12 := by
  intro s
  refine ⟨rfl, by decide, Settings.clamped_default, ?_, ?_⟩
  · decide +kernel
  · decide +kernel

end StrokeFont.Glyph
