import StrokeFont.Glyph.Reading
import StrokeFont.Proofs.Glyph.Grammar

namespace StrokeFont.Glyph.Grammar

open Text (hexDigit?)

theorem hexDigit?_eq_some_iff (c : Char) (n : Nat) : hexDigit? c = some n ↔ IsDigit c n := by
  have char_eq {d : Char} (h : c.toNat = d.toNat) : c = d := Char.toNat_inj.1 h
  have toNat_le {a b : Char} (hab : a ≤ b) : a.toNat ≤ b.toNat := hab
  constructor
  · intro h
    have hn : n < 16 := Text.hexDigit?_lt h
    refine ⟨hn, ?_⟩
    simp only [hexDigit?] at h
    split at h
    · rename_i hc
      have h0 : 48 ≤ c.toNat := toNat_le hc.1
      have hv : c.toNat - 48 = n := Option.some.inj h
      have h9 : c.toNat ≤ 57 := toNat_le hc.2
      have small : ∀ k < 10, k.digitChar.toNat = 48 + k := by decide
      exact .inl (char_eq (by rw [small n (by omega)]; omega))
    split at h
    · rename_i hc
      have h0 : 65 ≤ c.toNat := toNat_le hc.1
      have hv : 10 + (c.toNat - 65) = n := Option.some.inj h
      have capital : ∀ k < 16, 10 ≤ k → k.digitChar.toUpper.toNat = 55 + k := by decide
      exact .inr (char_eq (by rw [capital n hn (by omega)]; omega))
    split at h
    · rename_i hc
      have h0 : 97 ≤ c.toNat := toNat_le hc.1
      have hv : 10 + (c.toNat - 97) = n := Option.some.inj h
      have small : ∀ k < 16, 10 ≤ k → k.digitChar.toNat = 87 + k := by decide
      exact .inl (char_eq (by rw [small n hn (by omega)]; omega))
    · cases h
  · have values : ∀ k < 16, hexDigit? k.digitChar = some k ∧ hexDigit? k.digitChar.toUpper = some k := by
      decide
    rintro ⟨hn, rfl | rfl⟩
    · exact (values n hn).1
    · exact (values n hn).2

theorem operandAt?_of_isDigit {c : Char} {n : Nat} (h : IsDigit c n) (negative : Bool) :
    operandAt? negative c = some (Binary.signed negative n) := by
  rw [operandAt?, (hexDigit?_eq_some_iff c n).2 h, Option.map_some]

theorem operandAt?_digit (o : Operand) : operandAt? (decide ('-' ∈ o.skipped)) o.digit = some o.number := by
  rw [operandAt?_of_isDigit o.is_digit]
  simp only [Binary.signed, Operand.number, decide_eq_true_eq]

theorem operandAt?_eq_none_iff (negative : Bool) (c : Char) :
    operandAt? negative c = none ↔ ¬ ∃ n, IsDigit c n := by
  rw [operandAt?, Option.map_eq_none_iff, Option.eq_none_iff_forall_ne_some]
  simp only [← hexDigit?_eq_some_iff, ne_eq, not_exists]

theorem opcode?_eq_none_iff (c : Char) : opcode? c = none ↔ c ∉ opcodes := by
  unfold opcode?
  split <;> simp_all [opcodes]

namespace Statement

def instruction : Statement → Instruction
  | advance units => .advance units.number
  | pen motion x y => .pen motion ⟨x.number, y.number⟩
  | dot => .dot

end Statement

/-- The machine goes from one mode to another over a text and completes some instructions. -/
def Reads (mode : Mode) (text : List Char) (made : List Instruction) (last : Mode) : Prop :=
  mode.after text = last ∧ mode.instructions text = made

theorem Reads.nil (mode : Mode) : Reads mode [] [] mode := ⟨rfl, rfl⟩

theorem Reads.append {first second last : Mode} {s t : List Char} {made more : List Instruction}
    (hs : Reads first s made second) (ht : Reads second t more last) :
    Reads first (s ++ t) (made ++ more) last := by
  obtain ⟨rfl, rfl⟩ := hs
  obtain ⟨rfl, rfl⟩ := ht
  exact ⟨Mode.after_append .., Mode.instructions_append ..⟩

def completed : Event → List Instruction
  | .instruction i => [i]
  | .quiet | .stray => []

theorem Reads.step {mode : Mode} {c : Char} {outcome : Mode × Event} (h : mode.step c = outcome) :
    Reads mode [c] (completed outcome.2) outcome.1 := by
  obtain ⟨last, event⟩ := outcome
  constructor
  · simp only [Mode.after_cons, Mode.after_nil, h]
  · simp only [Mode.instructions, h]
    cases event <;> rfl

theorem Reads.cons {mode last : Mode} {text : List Char} {made : List Instruction} (c : Char)
    (h : Reads (mode.step c).1 text made last) :
    Reads mode (c :: text) (completed (mode.step c).2 ++ made) last :=
  (Reads.step rfl).append h

theorem instructions_cons (mode : Mode) (c : Char) (text : List Char) : mode.instructions (c :: text) =
    completed (mode.step c).2 ++ (mode.step c).1.instructions text :=
  (Reads.cons c ⟨rfl, rfl⟩).2

section Drops

/-- A character that completes nothing and leaves due what was due before it. -/
def Idle (mode : Mode) (c : Char) : Prop := (mode.step c).1 = mode ∧ completed (mode.step c).2 = []

/-- A text, and what is left of it when characters are deleted that are idle where they stand. -/
inductive Drops : Mode → List Char → List Char → Prop
  | nil (mode : Mode) : Drops mode [] []
  | keep {mode : Mode} (c : Char) {s t : List Char} (h : Drops (mode.step c).1 s t) :
      Drops mode (c :: s) (c :: t)
  | delete {mode : Mode} {c : Char} {s t : List Char} (hc : Idle mode c) (h : Drops mode s t) :
      Drops mode (c :: s) t

theorem Drops.reads {mode : Mode} {s t : List Char} (h : Drops mode s t) :
    Reads mode t (mode.instructions s) (mode.after s) := by
  induction h with
  | nil mode => exact .nil mode
  | keep c h ih =>
      rw [instructions_cons, Mode.after_cons]
      exact ih.cons c
  | delete hc h ih =>
      rw [instructions_cons, Mode.after_cons, hc.1, hc.2]
      exact ih

theorem instructions?_of_drops {s t : List Char} (h : Drops .opcode s t) :
    instructions? t = instructions? s := by
  obtain ⟨hafter, hmade⟩ := h.reads
  simp only [instructions?, hafter, hmade]

end Drops

theorem reads_noise (noise : Noise) : Reads .opcode noise.text [] .opcode := by
  obtain ⟨text, hn⟩ := noise
  induction text with
  | nil => exact .nil _
  | cons c text ih =>
      have hc := (opcode?_eq_none_iff c).2 (hn c List.mem_cons_self)
      have hstep : Mode.opcode.step c = (.opcode, if isBlank c then .quiet else .stray) := by
        simp only [Mode.step, hc]
      have hnone : completed (if isBlank c then .quiet else .stray) = [] := by
        split <;> rfl
      have := (Reads.step hstep).append (ih fun d hd => hn d (List.mem_cons_of_mem _ hd))
      rw [hnone] at this
      exact this

theorem sign_cons (negative : Bool) (c : Char) (text : List Char) :
    (negative || decide ('-' ∈ c :: text)) = ((negative || c == '-') || decide ('-' ∈ text)) := by
  simp only [List.mem_cons, Bool.decide_or, Bool.or_assoc, eq_comm, Bool.beq_eq_decide_eq]

theorem reads_skipped (pending : Pending) (negative : Bool) (text : List Char)
    (h : ∀ c ∈ text, ¬ ∃ n, IsDigit c n) :
    Reads (.operand pending negative) text [] (.operand pending (negative || decide ('-' ∈ text))) := by
  induction text generalizing negative with
  | nil => simpa using Reads.nil (.operand pending negative)
  | cons c text ih =>
      have hc := (operandAt?_eq_none_iff negative c).2 (h c List.mem_cons_self)
      have hstep : (Mode.operand pending negative).step c =
          (.operand pending (negative || c == '-'), .quiet) := by
        simp only [Mode.step, hc]
      have hrest := ih (negative || c == '-') fun d hd => h d (List.mem_cons_of_mem _ hd)
      rw [sign_cons]
      exact (Reads.step hstep).append hrest

theorem reads_operand (pending : Pending) (o : Operand) :
    Reads (.operand pending false) o.text (completed (pending.supply o.number).outcome.2)
      (pending.supply o.number).outcome.1 := by
  have hstep : (Mode.operand pending (false || decide ('-' ∈ o.skipped))).step o.digit =
      (pending.supply o.number).outcome := by
    simp only [Mode.step, Bool.false_or, operandAt?_digit]
  exact (reads_skipped pending false o.skipped o.no_digit).append (Reads.step hstep)

theorem reads_statement (s : Statement) : Reads .opcode s.text [s.instruction] .opcode := by
  have letter {progress : Progress} (h : opcode? s.opcode = some progress) :
      Mode.opcode.step s.opcode = progress.outcome := by
    simp only [Mode.step, h]
  cases s with
  | advance units =>
      simp only [Statement.text, Statement.operands, List.flatMap_cons, List.flatMap_nil,
        List.append_nil]
      exact (Reads.step (letter rfl)).append (reads_operand .advance units)
  | pen motion x y =>
      have hmotion : opcode? (Statement.pen motion x y).opcode = some (.awaiting (.abscissa motion)) := by
        cases motion <;> rfl
      simp only [Statement.text, Statement.operands, List.flatMap_cons, List.flatMap_nil,
        List.append_nil]
      exact (Reads.step (letter hmotion)).append ((reads_operand (.abscissa motion) x).append
        (reads_operand (.ordinate motion x.number) y))
  | dot => exact Reads.step (letter rfl)

theorem reads_sentence (s : Sentence) :
    Reads .opcode s.text (s.statements.map Statement.instruction) .opcode := by
  induction s with
  | done noise => exact reads_noise noise
  | more noise statement rest ih =>
      exact (reads_noise noise).append ((reads_statement statement).append ih)

def missing : Pending → Nat
  | .advance | .ordinate _ _ => 1
  | .abscissa _ => 2

def due : Mode → Nat
  | .opcode => 0
  | .operand pending _ => missing pending

/-- What may follow a mode in a program that is not cut off. -/
def Follows (mode : Mode) (text : List Char) : Prop :=
  ∃ (operands : List Operand) (rest : Sentence), operands.length = due mode ∧
    operands.flatMap Operand.text ++ rest.text = text

def Operand.delay (c : Char) (h : ¬ ∃ n, IsDigit c n) (o : Operand) : Operand where
  skipped := c :: o.skipped
  digit := o.digit
  value := o.value
  no_digit := List.forall_mem_cons.2 ⟨h, o.no_digit⟩
  is_digit := o.is_digit

def Noise.delay (c : Char) (h : c ∉ opcodes) (noise : Noise) : Noise where
  text := c :: noise.text
  no_opcode := List.forall_mem_cons.2 ⟨h, noise.no_opcode⟩

def Sentence.delay (c : Char) (h : c ∉ opcodes) : Sentence → Sentence
  | done noise => done (noise.delay c h)
  | more noise statement rest => more (noise.delay c h) statement rest

theorem Sentence.text_delay (c : Char) (h : c ∉ opcodes) (s : Sentence) :
    (s.delay c h).text = c :: s.text := by
  cases s <;> rfl

theorem follows_operand_skip {pending : Pending} {negative negative' : Bool} {c : Char}
    {text : List Char} (hc : ¬ ∃ n, IsDigit c n) (h : Follows (.operand pending negative') text) :
    Follows (.operand pending negative) (c :: text) := by
  obtain ⟨operands, rest, hlength, rfl⟩ := h
  cases operands with
  | nil => cases pending <;> simp [due, missing] at hlength
  | cons o operands => exact ⟨o.delay c hc :: operands, rest, hlength, rfl⟩

theorem follows_operand_digit {pending : Pending} {negative : Bool} {c : Char} {n : Nat} {i : Int}
    {text : List Char} (hc : IsDigit c n) (h : Follows (pending.supply i).outcome.1 text) :
    Follows (.operand pending negative) (c :: text) := by
  obtain ⟨operands, rest, hlength, rfl⟩ := h
  refine ⟨⟨[], c, n, by simp, hc⟩ :: operands, rest, ?_, rfl⟩
  cases pending <;> simpa [due, missing, Pending.supply, Progress.outcome] using hlength

theorem follows_opcode_letter {progress : Progress} {c : Char} {text : List Char}
    (hc : opcode? c = some progress) (h : Follows progress.outcome.1 text) :
    Follows .opcode (c :: text) := by
  obtain ⟨operands, rest, hlength, rfl⟩ := h
  have statement : ∃ s : Statement, s.opcode = c ∧ s.operands = operands := by
    have pen {letter : Char} (motion : Motion) (h : operands.length = 2)
        (hletter : ∀ x y, (Statement.pen motion x y).opcode = letter) :
        ∃ s : Statement, s.opcode = letter ∧ s.operands = operands := by
      match operands, h with
      | [x, y], _ => exact ⟨.pen motion x y, hletter x y, rfl⟩
    unfold opcode? at hc
    split at hc
    · cases hc
      obtain ⟨units, rfl⟩ := List.length_eq_one_iff.1 hlength
      exact ⟨.advance units, rfl, rfl⟩
    · cases hc
      exact pen .moveTo hlength fun _ _ => rfl
    · cases hc
      exact pen .moveBy hlength fun _ _ => rfl
    · cases hc
      exact pen .lineTo hlength fun _ _ => rfl
    · cases hc
      exact pen .lineBy hlength fun _ _ => rfl
    · cases hc
      obtain rfl := List.eq_nil_of_length_eq_zero hlength
      exact ⟨.dot, rfl, rfl⟩
    · cases hc
  obtain ⟨s, rfl, rfl⟩ := statement
  exact ⟨[], .more ⟨[], by simp⟩ s rest, rfl, rfl⟩

theorem follows_of_after {mode : Mode} {text : List Char} (h : mode.after text = .opcode) :
    Follows mode text := by
  -- By induction on the text, for all modes at once: a character either joins what the rest derives or
  -- starts the statement or the operand that the rest continues.
  induction text generalizing mode with
  | nil =>
      obtain rfl : mode = .opcode := h
      exact ⟨[], .done ⟨[], by simp⟩, rfl, rfl⟩
  | cons c text ih =>
      have hrest := ih h
      cases mode with
      | opcode =>
          cases hc : opcode? c with
          | none =>
              simp only [Mode.step, hc] at hrest
              obtain ⟨operands, rest, hlength, rfl⟩ := hrest
              obtain rfl := List.eq_nil_of_length_eq_zero hlength
              exact ⟨[], rest.delay c ((opcode?_eq_none_iff c).1 hc), rfl, rest.text_delay c _⟩
          | some progress =>
              simp only [Mode.step, hc] at hrest
              exact follows_opcode_letter hc hrest
      | operand pending negative =>
          cases hc : operandAt? negative c with
          | none =>
              simp only [Mode.step, hc] at hrest
              exact follows_operand_skip ((operandAt?_eq_none_iff negative c).1 hc) hrest
          | some i =>
              simp only [Mode.step, hc] at hrest
              obtain ⟨n, hn, -⟩ := Option.map_eq_some_iff.1 hc
              exact follows_operand_digit ((hexDigit?_eq_some_iff c n).1 hn) hrest

theorem after_eq_opcode_iff (text : List Char) :
    Mode.opcode.after text = .opcode ↔ ∃ s : Sentence, s.text = text := by
  constructor
  · intro h
    obtain ⟨operands, rest, hlength, rfl⟩ := follows_of_after h
    obtain rfl := List.eq_nil_of_length_eq_zero hlength
    exact ⟨rest, rfl⟩
  · rintro ⟨s, rfl⟩
    exact (reads_sentence s).1

end StrokeFont.Glyph.Grammar
