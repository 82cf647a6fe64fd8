import StrokeFont.Proofs.Glyph.Width

namespace StrokeFont.Glyph

namespace Grammar

/-- The same text, but for blanks that are inserted or deleted. -/
inductive Respaced : List Char → List Char → Prop
  | nil : Respaced [] []
  | keep (c : Char) {s t : List Char} (h : Respaced s t) : Respaced (c :: s) (c :: t)
  | insert {c : Char} {s t : List Char} (hc : isBlank c) (h : Respaced s t) : Respaced s (c :: t)
  | delete {c : Char} {s t : List Char} (hc : isBlank c) (h : Respaced s t) : Respaced (c :: s) t

def visible (text : List Char) : List Char := text.filter (!isBlank ·)

section Visible

variable {c : Char} {s t : List Char}

theorem visible_cons_blank (hc : isBlank c) (s : List Char) : visible (c :: s) = visible s := by
  simp [visible, hc]

theorem visible_cons (hc : ¬ isBlank c) (s : List Char) : visible (c :: s) = c :: visible s := by
  simp [visible, hc]

theorem visible_append (s t : List Char) : visible (s ++ t) = visible s ++ visible t :=
  List.filter_append s t

theorem mem_of_mem_visible (h : c ∈ visible s) : c ∈ s := List.mem_of_mem_filter h

theorem mem_visible (hc : ¬ isBlank c) : c ∈ visible s ↔ c ∈ s := by
  simp [visible, hc]

theorem Respaced.visible_eq (h : Respaced s t) : visible s = visible t := by
  induction h with
  | nil => rfl
  | keep c h ih =>
      by_cases hc : isBlank c
      · rw [visible_cons_blank hc, visible_cons_blank hc, ih]
      · rw [visible_cons hc, visible_cons hc, ih]
  | insert hc h ih => rw [visible_cons_blank hc, ih]
  | delete hc h ih => rw [visible_cons_blank hc, ih]

end Visible

theorem not_blank_of_isDigit {c : Char} {n : Nat} (h : IsDigit c n) : ¬ isBlank c := by
  have digits : ∀ n < 16, ¬ isBlank n.digitChar ∧ ¬ isBlank n.digitChar.toUpper := by decide
  obtain ⟨hn, rfl | rfl⟩ := h
  · exact (digits n hn).1
  · exact (digits n hn).2

theorem not_blank_of_opcode {c : Char} (h : c ∈ opcodes) : ¬ isBlank c := by
  have letters : opcodes.all (!isBlank ·) = true := by decide
  simpa using List.all_eq_true.1 letters c h

theorem step_blank (mode : Mode) {c : Char} (hc : isBlank c) : mode.step c = (mode, .quiet) := by
  cases mode with
  | opcode =>
      have hnone := (opcode?_eq_none_iff c).2 fun h => not_blank_of_opcode h hc
      simp only [Mode.step, hnone, hc, if_true]
  | operand pending negative =>
      have hnone : operandAt? negative c = none := by
        rw [operandAt?_eq_none_iff]
        rintro ⟨n, h⟩
        exact not_blank_of_isDigit h hc
      have hsign : (c == '-') = false := by
        rw [beq_eq_false_iff_ne]
        rintro rfl
        exact absurd hc (by decide)
      simp only [Mode.step, hnone, hsign, Bool.or_false]

theorem drops_blanks (mode : Mode) (text : List Char) : Drops mode text (visible text) := by
  induction text generalizing mode with
  | nil => exact .nil mode
  | cons c text ih =>
      by_cases hc : isBlank c
      · have hidle : Idle mode c := by
          rw [Idle, step_blank mode hc]
          exact ⟨rfl, rfl⟩
        rw [visible_cons_blank hc]
        exact .delete hidle (ih mode)
      · rw [visible_cons hc]
        exact .keep c (ih _)

theorem instructions?_visible (text : List Char) : instructions? (visible text) = instructions? text :=
  instructions?_of_drops (drops_blanks .opcode text)

theorem trace_toOption (program : String) :
    (Glyph.trace program).result.toOption = (instructions? program.toList).map execute := by
  unfold Glyph.trace
  cases instructions? program.toList with
  | none => rfl
  | some made => rfl

def Operand.visible (o : Operand) : Operand where
  skipped := Grammar.visible o.skipped
  digit := o.digit
  value := o.value
  no_digit c hc := o.no_digit c (mem_of_mem_visible hc)
  is_digit := o.is_digit

theorem visible_text_operand (o : Operand) : visible o.text = o.visible.text := by
  rw [Operand.text, visible_append, visible_cons (not_blank_of_isDigit o.is_digit)]
  rfl

theorem number_visible (o : Operand) : o.visible.number = o.number := by
  have hsign : '-' ∈ o.visible.skipped ↔ '-' ∈ o.skipped := mem_visible (by decide)
  simp only [Operand.number, hsign]
  rfl

theorem visible_letter (before after : List Char) :
    visible (before ++ 'a' :: after) = visible before ++ 'a' :: visible after := by
  rw [visible_append, visible_cons (by decide)]

theorem firstAdvance_visible {program program' : String} (h : program'.toList = visible program.toList) :
    (firstAdvance program').toOption = (firstAdvance program).toOption := by
  obtain ⟨units, hunits⟩ := exists_letterUnits program.toList
  generalize htext : program.toList = text at h hunits
  cases hunits with
  | absent ha =>
      have ha' : 'a' ∉ program'.toList := by
        rw [h]
        exact fun hmem => ha (mem_of_mem_visible hmem)
      rw [firstAdvance_of_absent ha', firstAdvance_of_absent (htext ▸ ha)]
  | @cut before after ha hafter =>
      rw [visible_letter] at h
      rw [firstAdvance_of_cut h (fun hmem => ha (mem_of_mem_visible hmem))
        fun c hc => hafter c (mem_of_mem_visible hc), firstAdvance_of_cut htext ha hafter]
      rfl
  | @read before after ha o =>
      rw [visible_letter, visible_append, visible_text_operand] at h
      rw [firstAdvance_of_read h fun hmem => ha (mem_of_mem_visible hmem), number_visible,
        firstAdvance_of_read htext ha]

end Grammar

open Grammar

/-- Programs that are the same but for their blanks are both malformed or have one trace. Measured alone,
they both fail or have one advance. -/
theorem blanks_mean_nothing {p q : String} (h : Respaced p.toList q.toList) :
    (trace p).result.toOption = (trace q).result.toOption ∧
      (firstAdvance p).toOption = (firstAdvance q).toOption := by
  have hvisible := h.visible_eq
  constructor
  · rw [trace_toOption, trace_toOption, ← instructions?_visible, hvisible, instructions?_visible]
  · have hp : (String.ofList (visible p.toList)).toList = visible p.toList := String.toList_ofList
    rw [← firstAdvance_visible hp, firstAdvance_visible (hp.trans hvisible)]

theorem blanks_mean_nothing_sign :
    Respaced "p-1F a6".toList "\tp - 1\r\nF a\n6".toList ∧
      (trace "p-1F a6").result.toOption = (trace "\tp - 1\r\nF a\n6").result.toOption ∧
      (firstAdvance "p-1F a6").toOption = (firstAdvance "\tp - 1\r\nF a\n6").toOption := by
  have h : Respaced "p-1F a6".toList "\tp - 1\r\nF a\n6".toList :=
    .insert rfl (.keep 'p' (.insert rfl (.keep '-' (.insert rfl (.keep '1' (.insert rfl (.insert rfl
      (.keep 'F' (.keep ' ' (.keep 'a' (.insert rfl (.keep '6' .nil))))))))))))
  exact ⟨h, blanks_mean_nothing h⟩

end StrokeFont.Glyph
