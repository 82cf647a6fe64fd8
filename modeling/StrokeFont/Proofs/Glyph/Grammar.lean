import StrokeFont.Glyph.Reading

namespace StrokeFont.Glyph.Grammar

def IsDigit (c : Char) (n : Nat) : Prop := n < 16 ∧ (c = n.digitChar ∨ c = n.digitChar.toUpper)

instance (c : Char) (n : Nat) : Decidable (IsDigit c n) := inferInstanceAs (Decidable (_ ∧ _))

def opcodes : List Char := ['a', 'M', 'm', 'P', 'p', 'd']

structure Noise where
  text : List Char
  no_opcode : ∀ c ∈ text, c ∉ opcodes

/-- One digit, after any characters that are none. -/
structure Operand where
  skipped : List Char
  digit : Char
  value : Nat
  no_digit : ∀ c ∈ skipped, ¬ ∃ n, IsDigit c n
  is_digit : IsDigit digit value

namespace Operand

def text (o : Operand) : List Char := o.skipped ++ [o.digit]

theorem no_digit_nil : ∀ c ∈ ([] : List Char), ¬ ∃ n, IsDigit c n := List.forall_mem_nil _

def plain (digit : Char) (value : Nat) (h : IsDigit digit value) : Operand :=
  ⟨[], digit, value, no_digit_nil, h⟩

def number (o : Operand) : Int := if '-' ∈ o.skipped then -(o.value : Int) else o.value

theorem number_bounds (o : Operand) : o.number.natAbs ≤ 15 := by
  have hvalue := o.is_digit.1
  rw [number]
  split <;> omega

end Operand

inductive Statement where
  | advance (units : Operand)
  | pen (motion : Motion) (x y : Operand)
  | dot

namespace Statement

def opcode : Statement → Char
  | advance _ => 'a'
  | pen .moveTo _ _ => 'M'
  | pen .moveBy _ _ => 'm'
  | pen .lineTo _ _ => 'P'
  | pen .lineBy _ _ => 'p'
  | dot => 'd'

def operands : Statement → List Operand
  | advance units => [units]
  | pen _ x y => [x, y]
  | dot => []

def text (s : Statement) : List Char := s.opcode :: s.operands.flatMap Operand.text

end Statement

/-- A derivation of a program. -/
inductive Sentence where
  | done (noise : Noise)
  | more (noise : Noise) (statement : Statement) (rest : Sentence)

namespace Sentence

def text : Sentence → List Char
  | done noise => noise.text
  | more noise statement rest => noise.text ++ (statement.text ++ rest.text)

def statements : Sentence → List Statement
  | done _ => []
  | more _ statement rest => statement :: rest.statements

end Sentence

theorem split_unique {p : Char → Prop} {s t u v : List Char} {c d : Char}
    (hs : ∀ x ∈ s, ¬ p x) (ht : ∀ x ∈ t, ¬ p x) (hc : p c) (hd : p d)
    (h : s ++ c :: u = t ++ d :: v) : s = t ∧ c = d ∧ u = v := by
  induction s generalizing t with
  | nil =>
      cases t with
      | nil => simpa using h
      | cons y t =>
          obtain ⟨rfl, -⟩ := List.cons.inj h
          exact absurd hc (ht c List.mem_cons_self)
  | cons x s ih =>
      cases t with
      | nil =>
          obtain ⟨rfl, -⟩ := List.cons.inj h
          exact absurd hd (hs x List.mem_cons_self)
      | cons y t =>
          simp only [List.cons_append, List.cons.injEq] at h
          obtain ⟨rfl, h⟩ := h
          obtain ⟨rfl, rest⟩ := ih (fun z hz => hs z (List.mem_cons_of_mem _ hz))
            (fun z hz => ht z (List.mem_cons_of_mem _ hz)) h
          exact ⟨rfl, rest⟩

theorem IsDigit.value_unique {c : Char} {m n : Nat} (hm : IsDigit c m) (hn : IsDigit c n) : m = n := by
  have distinct : ∀ m < 16, ∀ n < 16, (m.digitChar = n.digitChar ∨ m.digitChar = n.digitChar.toUpper) ∨
      (m.digitChar.toUpper = n.digitChar ∨ m.digitChar.toUpper = n.digitChar.toUpper) → m = n := by
    decide
  obtain ⟨hm, rfl | rfl⟩ := hm
  · exact distinct m hm n hn.1 (.inl hn.2)
  · exact distinct m hm n hn.1 (.inr hn.2)

theorem Operand.eq_of_text_append {o o' : Operand} {u v : List Char}
    (h : o.text ++ u = o'.text ++ v) : o = o' ∧ u = v := by
  obtain ⟨s, c, n, hs, hc⟩ := o
  obtain ⟨t, d, m, ht, hd⟩ := o'
  simp only [Operand.text, List.append_assoc, List.singleton_append] at h
  obtain ⟨rfl, rfl, rfl⟩ := split_unique hs ht ⟨n, hc⟩ ⟨m, hd⟩ h
  obtain rfl := hc.value_unique hd
  exact ⟨rfl, rfl⟩

theorem Statement.eq_of_text_append {s s' : Statement} {u v : List Char}
    (h : s.text ++ u = s'.text ++ v) : s = s' ∧ u = v := by
  simp only [text, List.cons_append, List.cons.injEq] at h
  obtain ⟨hop, h⟩ := h
  cases s with
  | advance units =>
      cases s' with
      | advance units' =>
          simp only [operands, List.flatMap_cons, List.flatMap_nil, List.append_nil] at h
          obtain ⟨rfl, rfl⟩ := Operand.eq_of_text_append h
          exact ⟨rfl, rfl⟩
      | pen motion x y => cases motion <;> simp [opcode] at hop
      | dot => simp [opcode] at hop
  | pen motion x y =>
      cases s' with
      | advance units => cases motion <;> simp [opcode] at hop
      | pen motion' x' y' =>
          have hm : motion = motion' := by
            cases motion <;> cases motion' <;> simp_all [opcode]
          simp only [operands, List.flatMap_cons, List.flatMap_nil, List.append_nil,
            List.append_assoc] at h
          obtain ⟨rfl, hy⟩ := Operand.eq_of_text_append h
          obtain ⟨rfl, rfl⟩ := Operand.eq_of_text_append hy
          exact ⟨by rw [hm], rfl⟩
      | dot => cases motion <;> simp [opcode] at hop
  | dot =>
      cases s' with
      | advance units => simp [opcode] at hop
      | pen motion x y => cases motion <;> simp [opcode] at hop
      | dot => exact ⟨rfl, h⟩

theorem Statement.opcode_mem (s : Statement) : s.opcode ∈ opcodes := by
  cases s with
  | advance units => simp [opcode, opcodes]
  | pen motion x y => cases motion <;> simp [opcode, opcodes]
  | dot => simp [opcode, opcodes]

theorem Sentence.text_injective : Function.Injective Sentence.text := by
  -- Noise that runs to the end of a text leaves no room for the opcode of a statement.
  have opcode_absent (noise noise' : Noise) (s : Statement) (u : List Char)
      (h : noise.text = noise'.text ++ (s.text ++ u)) : False :=
    noise.no_opcode s.opcode (by simp [h, Statement.text]) s.opcode_mem
  intro s s' h
  induction s generalizing s' with
  | done noise =>
      cases s' with
      | done noise' =>
          obtain ⟨text, _⟩ := noise
          obtain ⟨text', _⟩ := noise'
          obtain rfl : text = text' := h
          rfl
      | more noise' statement' rest' => exact (opcode_absent _ _ _ _ h).elim
  | more noise statement rest ih =>
      cases s' with
      | done noise' => exact (opcode_absent _ _ _ _ h.symm).elim
      | more noise' statement' rest' =>
          obtain ⟨text, hn⟩ := noise
          obtain ⟨text', hn'⟩ := noise'
          simp only [Sentence.text, Statement.text, List.cons_append] at h
          obtain ⟨rfl, hop, htail⟩ := split_unique (p := (· ∈ opcodes)) hn hn'
            statement.opcode_mem statement'.opcode_mem h
          have hstatement : statement.text ++ rest.text = statement'.text ++ rest'.text := by
            simp only [Statement.text, List.cons_append, hop, htail]
          obtain ⟨rfl, hrest⟩ := Statement.eq_of_text_append hstatement
          rw [ih hrest]

end StrokeFont.Glyph.Grammar
