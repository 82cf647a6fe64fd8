import StrokeFont.Glyph.Cursor
import StrokeFont.Raster

namespace StrokeFont.Glyph

inductive Motion where
  | moveTo
  | moveBy
  | lineTo
  | lineBy
  deriving DecidableEq, Repr

namespace Motion

def draws : Motion → Bool
  | moveTo | moveBy => false
  | lineTo | lineBy => true

def isRelative : Motion → Bool
  | moveTo | lineTo => false
  | moveBy | lineBy => true

def target (m : Motion) (pen operands : Point) : Point :=
  if m.isRelative then pen + operands else operands

end Motion

inductive Instruction where
  | advance (units : Int)
  | pen (motion : Motion) (operands : Point)
  | dot
  deriving DecidableEq, Repr

inductive Primitive where
  | line (start finish : Point)
  | dot (center : Point)
  deriving DecidableEq, Repr

def draw : Point → List Instruction → List Primitive
  | _, [] => []
  | pen, .advance _ :: rest => draw pen rest
  | pen, .dot :: rest => .dot pen :: draw pen rest
  | pen, .pen motion operands :: rest =>
      let next := motion.target pen operands
      if motion.draws then .line pen next :: draw next rest else draw next rest

def advanceAfter (advance : Int) : List Instruction → Int
  | [] => advance
  | .advance units :: rest => advanceAfter units rest
  | _ :: rest => advanceAfter advance rest

/-- A glyph without its program: its width and its ink, in glyph units. -/
structure Trace where
  advance : Int
  primitives : List Primitive
  deriving DecidableEq, Repr

def execute (instructions : List Instruction) : Trace :=
  ⟨advanceAfter 0 instructions, draw .zero instructions⟩

/-- An instruction of which the operands named here are missing. -/
inductive Pending where
  | advance
  | abscissa (motion : Motion)
  | ordinate (motion : Motion) (x : Int)
  deriving DecidableEq, Repr

/-- What is due next. For an operand, whether a minus sign has been skipped on the way to it. -/
inductive Mode where
  | opcode
  | operand (pending : Pending) (negative : Bool)
  deriving DecidableEq, Repr

/-- What a character settles: nothing yet, an instruction, or that it has no meaning where it
stands. -/
inductive Event where
  | quiet
  | instruction (i : Instruction)
  | stray
  deriving DecidableEq, Repr

inductive Progress where
  | complete (i : Instruction)
  | awaiting (pending : Pending)
  deriving DecidableEq, Repr

namespace Progress

def outcome : Progress → Mode × Event
  | complete i => (.opcode, .instruction i)
  | awaiting pending => (.operand pending false, .quiet)

end Progress

def opcode? : Char → Option Progress
  | 'a' => some (.awaiting .advance)
  | 'M' => some (.awaiting (.abscissa .moveTo))
  | 'm' => some (.awaiting (.abscissa .moveBy))
  | 'P' => some (.awaiting (.abscissa .lineTo))
  | 'p' => some (.awaiting (.abscissa .lineBy))
  | 'd' => some (.complete .dot)
  | _ => none

namespace Pending

def supply : Pending → Int → Progress
  | advance, n => .complete (.advance n)
  | abscissa motion, x => .awaiting (.ordinate motion x)
  | ordinate motion x, y => .complete (.pen motion ⟨x, y⟩)

end Pending

namespace Mode

def step : Mode → Char → Mode × Event
  | opcode, c =>
      match opcode? c with
      | some progress => progress.outcome
      | none => (.opcode, if isBlank c then .quiet else .stray)
  | operand pending negative, c =>
      match operandAt? negative c with
      | some n => (pending.supply n).outcome
      | none => (.operand pending (negative || c == '-'), .quiet)

def after (mode : Mode) (text : List Char) : Mode :=
  text.foldl (fun mode c => (mode.step c).1) mode

def instructions : Mode → List Char → List Instruction
  | _, [] => []
  | mode, c :: rest =>
      match mode.step c with
      | (next, .instruction i) => i :: next.instructions rest
      | (next, _) => next.instructions rest

def strays : Mode → Nat → List Char → List (Char × Nat)
  | _, _, [] => []
  | mode, offset, c :: rest =>
      match mode.step c with
      | (next, .stray) => (c, offset) :: next.strays (offset + 1) rest
      | (next, _) => next.strays (offset + 1) rest

@[simp] theorem after_nil (mode : Mode) : mode.after [] = mode := rfl

@[simp] theorem after_cons (mode : Mode) (c : Char) (rest : List Char) :
    mode.after (c :: rest) = (mode.step c).1.after rest := rfl

theorem after_append (mode : Mode) (s t : List Char) :
    mode.after (s ++ t) = (mode.after s).after t :=
  List.foldl_append

theorem instructions_append (mode : Mode) (s t : List Char) :
    mode.instructions (s ++ t) = mode.instructions s ++ (mode.after s).instructions t := by
  induction s generalizing mode with
  | nil => rfl
  | cons c s ih =>
      simp only [List.cons_append, instructions, after_cons]
      split <;> simp_all only [List.cons_append]

end Mode

def instructions? (program : List Char) : Option (List Instruction) :=
  match Mode.opcode.after program with
  | .opcode => some (Mode.opcode.instructions program)
  | .operand _ _ => none

end StrokeFont.Glyph
