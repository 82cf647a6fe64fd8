import StrokeFont.Glyph.Cursor
import StrokeFont.Proofs.Glyph.Blank

namespace StrokeFont.Glyph.Cursor

open Grammar

inductive Call where
  | opcode
  | number
  deriving DecidableEq, Repr

inductive Reply where
  | opcode (found : Option Char)
  | number (found : Except Malformed Int)
  deriving DecidableEq

def Reply.succeeded : Reply → Bool
  | opcode found => found.isSome
  | number found => found.isOk

namespace Call

def seeks : Call → Char → Bool
  | opcode, c => !isBlank c
  | number, c => Text.isHexDigit c

def failure (program : String) : Call → Reply
  | opcode => .opcode none
  | number => .number (.error (.atEnd program))

end Call

def answer (c : Cursor) : Call → Reply × Cursor
  | .opcode => c.nextOpcode.map .opcode id
  | .number => c.nextNumber.map .number id

structure Exchange where
  before : Cursor
  call : Call

namespace Exchange

def reply (x : Exchange) : Reply := (x.before.answer x.call).1

def after (x : Exchange) : Cursor := (x.before.answer x.call).2

end Exchange

/-- The calls that are made one after the other, each where the one before it left the cursor. -/
def history (c : Cursor) : List Call → List Exchange
  | [] => []
  | call :: rest => ⟨c, call⟩ :: history (c.answer call).2 rest

/-- The search for an operand, one opcode after another. A sign on the way is kept, any other opcode that is
no digit is passed over, and the fault says where the opcodes ended. -/
inductive Search : Bool → Cursor → Except Malformed Int × Cursor → Prop
  | cut {negative : Bool} {c last : Cursor} (h : c.nextOpcode = (none, last)) :
      Search negative c (.error ⟨last.program, last.position⟩, last)
  | digit {negative : Bool} {c next : Cursor} {o : Char} {n : Int} (h : c.nextOpcode = (some o, next))
      (hn : operandAt? negative o = some n) : Search negative c (.ok n, next)
  | pass {negative : Bool} {c next : Cursor} {o : Char} {outcome : Except Malformed Int × Cursor}
      (h : c.nextOpcode = (some o, next)) (ho : operandAt? negative o = none)
      (more : Search (negative || o == '-') next outcome) : Search negative c outcome

section Ahead

variable {c : Cursor} {passed rest : List Char} {o : Char}

theorem length_ahead (c : Cursor) : c.ahead.length = c.program.length - c.position := by
  rw [ahead, List.length_drop, String.length_toList]

theorem position_before (h : c.ahead = passed ++ rest) :
    (c.before rest).position = c.position + passed.length := by
  have hlength := c.length_ahead
  have hle := c.position_le
  rw [h, List.length_append] at hlength
  simp only [before]
  omega

theorem ahead_before (h : c.ahead = passed ++ rest) : (c.before rest).ahead = rest := by
  have hprogram : c.program.toList.drop c.position = passed ++ rest := h
  rw [ahead, position_before h, ← List.drop_drop]
  simp only [before, hprogram, List.drop_left]

theorem before_ahead (c : Cursor) : c.before c.ahead = c := by
  have hposition := position_before (List.nil_append c.ahead).symm
  obtain ⟨program, position, hle⟩ := c
  simpa only [before, mk.injEq, true_and, List.length_nil, Nat.add_zero] using hposition

theorem position_behind (h : c.ahead = passed ++ o :: rest) :
    (c.before rest).position = c.position + passed.length + 1 := by
  rw [List.append_cons] at h
  rw [position_before h, List.length_append, List.length_singleton, Nat.add_assoc]

theorem ahead_behind (h : c.ahead = passed ++ o :: rest) : (c.before rest).ahead = rest := by
  rw [List.append_cons] at h
  exact ahead_before h

theorem getElem?_behind (h : c.ahead = passed ++ o :: rest) :
    c.program.toList[c.position + passed.length]? = some o := by
  have hplace : c.ahead[passed.length]? = some o := by
    rw [h, List.getElem?_append_right (Nat.le_refl _), Nat.sub_self, List.getElem?_cons_zero]
  rwa [ahead, List.getElem?_drop] at hplace

theorem ahead_eq_nil (h : c.position = c.program.length) : c.ahead = [] := by
  apply List.eq_nil_of_length_eq_zero
  rw [length_ahead, h, Nat.sub_self]

theorem nextOpcode_nil (h : c.ahead = []) : c.nextOpcode = (none, c.before []) := by
  simp only [nextOpcode, h, List.dropWhile_nil]

theorem nextOpcode_cons (h : c.ahead = o :: rest) (ho : ¬ isBlank o) :
    c.nextOpcode = (some o, c.before rest) := by
  simp only [nextOpcode, h, List.dropWhile_cons_of_neg ho]

theorem nextOpcode_blank (h : c.ahead = o :: rest) (ho : isBlank o) :
    c.nextOpcode = (c.before rest).nextOpcode := by
  have hrest : (c.before rest).ahead = rest := @ahead_before c [o] rest h
  rw [nextOpcode, nextOpcode, h, hrest, List.dropWhile_cons_of_pos ho]
  rfl

end Ahead

section Step

variable {c next : Cursor} {call : Call} {reply : Reply}

/-- What a call does: it stops behind the first character that it seeks, or at the end. -/
inductive Stops (c : Cursor) : Call → Reply → Cursor → Prop
  | opcode {blanks rest : List Char} {o : Char} (hahead : c.ahead = blanks ++ o :: rest)
      (hblanks : ∀ b ∈ blanks, isBlank b) (ho : ¬ isBlank o) :
      Stops c .opcode (.opcode (some o)) (c.before rest)
  | noOpcode (hblanks : ∀ b ∈ c.ahead, isBlank b) : Stops c .opcode (.opcode none) (c.before [])
  | number {rest : List Char} (o : Operand) (hahead : c.ahead = o.skipped ++ o.digit :: rest) :
      Stops c .number (.number (.ok o.number)) (c.before rest)
  | noNumber (hahead : ∀ x ∈ c.ahead, ¬ ∃ n, IsDigit x n) :
      Stops c .number (.number (.error (.atEnd c.program))) (c.before [])

theorem answer_stops (c : Cursor) (call : Call) : Stops c call (c.answer call).1 (c.answer call).2 := by
  cases call with
  | opcode =>
      cases hfind : c.ahead.find? (!isBlank ·) with
      | some o =>
          obtain ⟨ho, blanks, rest, hahead, hblanks⟩ := List.find?_eq_some_iff_append.1 hfind
          simp only [Bool.not_eq_true', Bool.not_not, ← Bool.not_eq_true] at ho hblanks
          have hnext : c.nextOpcode = (some o, c.before rest) := by
            simp only [nextOpcode, hahead, List.dropWhile_append_of_pos hblanks, List.dropWhile_cons_of_neg ho]
          rw [answer, hnext]
          exact .opcode hahead hblanks ho
      | none =>
          have hblanks : ∀ b ∈ c.ahead, isBlank b := by simpa using List.find?_eq_none.1 hfind
          have hnext : c.nextOpcode = (none, c.before []) := by
            simp only [nextOpcode, List.dropWhile_eq_nil_iff.2 hblanks]
          rw [answer, hnext]
          exact .noOpcode hblanks
  | number =>
      rcases operand_or_none c.ahead with ⟨o, rest, hahead⟩ | hnone
      · have hnext : c.nextNumber = (.ok o.number, c.before rest) := by
          simp only [nextNumber, hahead, operand?_text]
        rw [Operand.text, List.append_assoc, List.singleton_append] at hahead
        rw [answer, hnext]
        exact .number o hahead
      · have hnext : c.nextNumber = (.error (.atEnd c.program), c.before []) := by
          simp only [nextNumber, operand?_of_no_digit hnone]
        rw [answer, hnext]
        exact .noNumber hnone

theorem Call.seeks_opcode (o : Char) : Call.opcode.seeks o ↔ ¬ isBlank o := by
  rw [seeks, Bool.not_eq_true', Bool.eq_false_iff]

theorem Call.seeks_number (o : Char) : Call.number.seeks o ↔ ∃ n, IsDigit o n :=
  isHexDigit_iff o

namespace Stops

theorem behind (h : Stops c call reply next) (hs : reply.succeeded) : ∃ passed o rest,
    c.ahead = passed ++ o :: rest ∧ next = c.before rest ∧ (∀ p ∈ passed, ¬ call.seeks p) ∧ call.seeks o := by
  cases h with
  | @opcode blanks rest o hahead hblanks ho =>
      refine ⟨blanks, o, rest, hahead, rfl, ?_, (Call.seeks_opcode o).2 ho⟩
      exact fun b hb => (Call.seeks_opcode b).not.2 (not_not.2 (hblanks b hb))
  | @number rest o hahead =>
      refine ⟨o.skipped, o.digit, rest, hahead, rfl, ?_, (Call.seeks_number o.digit).2 ⟨o.value, o.is_digit⟩⟩
      exact fun x hx => (Call.seeks_number x).not.2 (o.no_digit x hx)
  | noOpcode | noNumber => cases hs

theorem at_end (h : Stops c call reply next) (hs : reply.succeeded = false) :
    next = c.before [] ∧ ∀ x ∈ c.ahead, ¬ call.seeks x := by
  cases h with
  | opcode | number => cases hs
  | noOpcode hblanks => exact ⟨rfl, fun x hx => (Call.seeks_opcode x).not.2 (not_not.2 (hblanks x hx))⟩
  | noNumber hahead => exact ⟨rfl, fun x hx => (Call.seeks_number x).not.2 (hahead x hx)⟩

theorem succeeded_iff (h : Stops c call reply next) : reply.succeeded ↔ ∃ x ∈ c.ahead, call.seeks x := by
  constructor
  · intro hs
    obtain ⟨passed, o, rest, hahead, -, -, ho⟩ := h.behind hs
    exact ⟨o, by simp [hahead], ho⟩
  · rintro ⟨x, hx, hseeks⟩
    by_contra hs
    exact (h.at_end (Bool.eq_false_iff.2 hs)).2 x hx hseeks

theorem first (h : Stops c call reply next) (hs : reply.succeeded) : ∃ passed o,
    c.ahead = passed ++ o :: next.ahead ∧ (∀ p ∈ passed, ¬ call.seeks p) ∧ call.seeks o := by
  obtain ⟨passed, o, rest, hahead, rfl, hpassed, ho⟩ := h.behind hs
  refine ⟨passed, o, ?_, hpassed, ho⟩
  rw [ahead_behind hahead]
  exact hahead

theorem position_lt (h : Stops c call reply next) (hs : reply.succeeded) : c.position < next.position := by
  obtain ⟨passed, o, rest, hahead, rfl, -⟩ := h.behind hs
  rw [position_behind hahead]
  omega

theorem position_eq (h : Stops c call reply next) (hs : reply.succeeded = false) :
    next.position = c.program.length := by
  rw [(h.at_end hs).1]
  rfl

theorem position_le (h : Stops c call reply next) : c.position ≤ next.position := by
  cases hs : reply.succeeded with
  | true => exact Nat.le_of_lt (h.position_lt hs)
  | false =>
      rw [h.position_eq hs]
      exact c.position_le

theorem program_eq (h : Stops c call reply next) : next.program = c.program := by
  cases h with
  | opcode | noOpcode | number | noNumber => rfl

theorem reply_eq_failure (h : Stops c call reply next) (hend : c.position = c.program.length) :
    reply = call.failure c.program := by
  have hnone := ahead_eq_nil hend
  cases h with
  | opcode hahead | number o hahead => simp [hnone] at hahead
  | noOpcode | noNumber => rfl

theorem opcode_behind {o : Char} (h : Stops c call (.opcode (some o)) next) :
    ¬ isBlank o ∧ ∃ i, next.position = i + 1 ∧ c.program.toList[i]? = some o := by
  cases h with
  | opcode hahead hblanks ho => exact ⟨ho, _, position_behind hahead, getElem?_behind hahead⟩

theorem number_bounds {n : Int} (h : Stops c call (.number (.ok n)) next) : -15 ≤ n ∧ n ≤ 15 := by
  cases h with
  | number o hahead => exact operandAt?_bounds (operandAt?_digit o)

theorem fault_eq {cause : Malformed} (h : Stops c call (.number (.error cause)) next) :
    cause = .atEnd c.program := by
  cases h with
  | noNumber hahead => rfl

end Stops

end Step

section Search

variable {c d : Cursor} {negative : Bool} {outcome : Except Malformed Int × Cursor}

theorem Search.of_nextOpcode_eq (h : Search negative d outcome) (hnext : c.nextOpcode = d.nextOpcode) :
    Search negative c outcome := by
  cases h with
  | cut h => exact .cut (hnext.trans h)
  | digit h hn => exact .digit (hnext.trans h) hn
  | pass h ho more => exact .pass (hnext.trans h) ho more

theorem Search.cons {o : Char} {rest : List Char} (hahead : c.ahead = o :: rest)
    (ho : ¬ ∃ n, IsDigit o n) (h : Search (negative || o == '-') (c.before rest) outcome) :
    Search negative c outcome := by
  by_cases hblank : isBlank o
  · have hsign : (o == '-') = false := by
      rw [beq_eq_false_iff_ne]
      rintro rfl
      exact absurd hblank (by decide)
    rw [hsign, Bool.or_false] at h
    exact h.of_nextOpcode_eq (nextOpcode_blank hahead hblank)
  · exact .pass (nextOpcode_cons hahead hblank) ((operandAt?_eq_none_iff negative o).2 ho) h

theorem Search.append {skipped rest : List Char} (hahead : c.ahead = skipped ++ rest)
    (hskipped : ∀ o ∈ skipped, ¬ ∃ n, IsDigit o n)
    (h : Search (negative || decide ('-' ∈ skipped)) (c.before rest) outcome) :
    Search negative c outcome := by
  induction skipped generalizing c negative with
  | nil =>
      obtain rfl : c.ahead = rest := hahead
      simpa only [List.not_mem_nil, decide_false, Bool.or_false, before_ahead] using h
  | cons o skipped ih =>
      obtain ⟨ho, hskipped⟩ := List.forall_mem_cons.1 hskipped
      rw [sign_cons] at h
      exact .cons hahead ho (ih (@ahead_before c [o] _ hahead) hskipped h)

theorem Stops.search {found : Except Malformed Int} {call : Call} (h : Stops c call (.number found) d) :
    Search false c (found, d) := by
  cases h with
  | @number rest o hahead =>
      apply Search.append hahead o.no_digit
      apply Search.digit (nextOpcode_cons (ahead_before hahead) (not_blank_of_isDigit o.is_digit))
      rw [Bool.false_or]
      exact operandAt?_digit o
  | noNumber hnone =>
      have hahead : c.ahead = c.ahead ++ [] := (List.append_nil _).symm
      apply Search.append hahead hnone
      exact .cut (nextOpcode_nil (ahead_before hahead))

end Search

section History

variable {c d : Cursor}

structure LeadsTo (c d : Cursor) : Prop where
  program : d.program = c.program
  position : c.position ≤ d.position

theorem LeadsTo.refl (c : Cursor) : LeadsTo c c := ⟨rfl, Nat.le_refl _⟩

theorem LeadsTo.trans {e : Cursor} (h : LeadsTo c d) (h' : LeadsTo d e) : LeadsTo c e :=
  ⟨h'.program.trans h.program, Nat.le_trans h.position h'.position⟩

theorem Stops.leadsTo {call : Call} {reply : Reply} (h : Stops c call reply d) : LeadsTo c d :=
  ⟨h.program_eq, h.position_le⟩

theorem leadsTo_of_mem_history (c : Cursor) (calls : List Call) : ∀ x ∈ c.history calls, LeadsTo c x.before := by
  induction calls generalizing c with
  | nil => exact List.forall_mem_nil _
  | cons call calls ih =>
      refine List.forall_mem_cons.2 ⟨.refl c, ?_⟩
      intro x hx
      exact (answer_stops c call).leadsTo.trans (ih _ x hx)

theorem pairwise_history (c : Cursor) (calls : List Call) :
    (c.history calls).Pairwise fun x later => LeadsTo x.after later.before := by
  induction calls generalizing c with
  | nil => exact .nil
  | cons call calls ih => exact .cons (leadsTo_of_mem_history _ calls) (ih _)

theorem map_call_history (c : Cursor) (calls : List Call) : (c.history calls).map (·.call) = calls := by
  induction calls generalizing c with
  | nil => rfl
  | cons call calls ih => exact congrArg (call :: ·) (ih _)

end History

structure Exchange.Orderly (program : String) (x : Exchange) : Prop where
  forward : x.before.position ≤ x.after.position
  inside : x.after.position ≤ program.length
  finds_iff : x.reply.succeeded ↔ ∃ c ∈ program.toList.drop x.before.position, x.call.seeks c
  first : x.reply.succeeded → ∃ passed c, program.toList.drop x.before.position =
    passed ++ c :: program.toList.drop x.after.position ∧ (∀ p ∈ passed, ¬ x.call.seeks p) ∧ x.call.seeks c
  advances : x.reply.succeeded → x.before.position < x.after.position
  ends : x.reply.succeeded = false → x.after.position = program.length
  opcode : ∀ o, x.reply = .opcode (some o) →
    ¬ isBlank o ∧ ∃ i, x.after.position = i + 1 ∧ program.toList[i]? = some o
  number : ∀ n, x.reply = .number (.ok n) → -15 ≤ n ∧ n ≤ 15
  fault : ∀ cause, x.reply = .number (.error cause) → cause.program = program ∧ cause.offset = program.length
  search : ∀ found, x.reply = .number found → Search false x.before (found, x.after)

theorem Exchange.orderly (x : Exchange) : x.Orderly x.before.program := by
  have h : Stops x.before x.call x.reply x.after := answer_stops x.before x.call
  exact {
    forward := h.position_le
    inside := h.program_eq ▸ x.after.position_le
    finds_iff := h.succeeded_iff
    first := fun hs => by simpa only [ahead, h.program_eq] using h.first hs
    advances := h.position_lt
    ends := h.position_eq
    opcode := fun o ho => (ho ▸ h).opcode_behind
    number := fun n hn => (hn ▸ h).number_bounds
    fault := fun cause hcause => by
      obtain rfl := (hcause ▸ h).fault_eq
      exact ⟨rfl, rfl⟩
    search := fun found hfound => (hfound ▸ h).search }

/-- Over any calls the cursor goes ahead and stays inside the program. Every call that finds something leaves it
further on; once a call has found nothing it is at the end, and no later call finds anything. -/
theorem cursor_never_turns_back (program : String) (calls : List Call) :
    let history := (start program).history calls
    history.map (·.call) = calls ∧ (∀ x ∈ history, x.Orderly program) ∧
      history.Pairwise fun x later => x.after.position ≤ later.before.position ∧
        (x.reply.succeeded = false → later.reply = later.call.failure program) := by
  intro history
  have hprogram : ∀ x ∈ history, x.before.program = program := fun x hx =>
    (leadsTo_of_mem_history _ calls x hx).program
  have horderly : ∀ x ∈ history, x.Orderly program := fun x hx => hprogram x hx ▸ x.orderly
  refine ⟨map_call_history _ calls, horderly, ?_⟩
  apply (pairwise_history (start program) calls).imp_of_mem
  intro x later hx hlater hleads
  refine ⟨hleads.position, ?_⟩
  intro hfailed
  -- The later cursor is not behind the end, and there is nothing behind the end.
  have hend : later.before.position = later.before.program.length := by
    apply Nat.le_antisymm later.before.position_le
    rw [hprogram later hlater, ← (horderly x hx).ends hfailed]
    exact hleads.position
  rw [← hprogram later hlater]
  exact (answer_stops later.before later.call).reply_eq_failure hend

theorem cursor_never_turns_back_signed :
    let history := (start "-\tF a z").history [.number, .opcode, .number, .opcode, .number]
    history.map (·.reply) = [.number (.ok (-15)), .opcode (some 'a'), .number (.error ⟨"-\tF a z", 7⟩),
        .opcode none, .number (.error ⟨"-\tF a z", 7⟩)] ∧
      history.map (·.after.position) = [3, 5, 7, 7, 7] ∧ (∀ x ∈ history, x.Orderly "-\tF a z") ∧
      history.Pairwise fun x later => x.after.position ≤ later.before.position ∧
        (x.reply.succeeded = false → later.reply = later.call.failure "-\tF a z") :=
  ⟨by decide, by decide, (cursor_never_turns_back _ _).2⟩

end StrokeFont.Glyph.Cursor
