import StrokeFont.Binary.Format
import StrokeFont.Glyph.Cursor
import StrokeFont.Raster

namespace StrokeFont

inductive Severity where
  | debug
  | warning
  deriving DecidableEq, Repr

inductive Note where
  | strayCharacter (c : Char) (offset : Nat)
  | glyphSkipped (cause : Glyph.Malformed)
  | glyphWithoutWidth (cause : Glyph.Malformed)
  | glyphMissing (c : Char)
  deriving DecidableEq, Repr

namespace Note

def severity : Note → Severity
  | strayCharacter _ _ | glyphMissing _ => .debug
  | glyphSkipped _ | glyphWithoutWidth _ => .warning

def text : Note → String
  | strayCharacter c offset =>
      s!"ignoring unknown glyph opcode {Text.quoted c.toString} at offset {offset}"
  | glyphSkipped cause => s!"skipping malformed glyph: {cause.message}"
  | glyphWithoutWidth cause => s!"measuring malformed glyph as zero width: {cause.message}"
  | glyphMissing c => s!"no glyph for {Text.quoted c.toString}"

end Note

/-- A computation that takes notes, for a log. Those from before a failure are kept. -/
structure Noted (ε α : Type) where
  notes : List Note
  result : Except ε α

namespace Noted

variable {ε α β : Type}

instance : Monad (Noted ε) where
  pure a := ⟨[], .ok a⟩
  bind x f :=
    match x.result with
    | .error e => ⟨x.notes, .error e⟩
    | .ok a => ⟨x.notes ++ (f a).notes, (f a).result⟩

instance : MonadLift (Except ε) (Noted ε) := ⟨fun r => ⟨[], r⟩⟩

def note (n : Note) : Noted ε Unit := ⟨[n], .ok ()⟩

def mapError {ε' : Type} (f : ε → ε') (x : Noted ε α) : Noted ε' α := ⟨x.notes, x.result.mapError f⟩

@[simp] theorem pure_def (a : α) : (pure a : Noted ε α) = ⟨[], .ok a⟩ := rfl

@[simp] theorem bind_ok (notes : List Note) (a : α) (f : α → Noted ε β) :
    (⟨notes, .ok a⟩ >>= f : Noted ε β) = ⟨notes ++ (f a).notes, (f a).result⟩ := rfl

@[simp] theorem bind_error (notes : List Note) (e : ε) (f : α → Noted ε β) :
    (⟨notes, .error e⟩ >>= f : Noted ε β) = ⟨notes, .error e⟩ := rfl

instance : LawfulMonad (Noted ε) := LawfulMonad.mk' _
  (fun ⟨notes, result⟩ => by
    cases result with
    | error e => rfl
    | ok a => exact congrArg (Noted.mk · (.ok a)) (List.append_nil notes))
  (fun _ _ => rfl)
  (fun ⟨notes, result⟩ f g => by
    cases result with
    | error e => rfl
    | ok a =>
        simp only [bind_ok]
        generalize f a = y
        obtain ⟨more, result⟩ := y
        cases result with
        | error e => rfl
        | ok b => simp only [bind_ok, List.append_assoc])

end Noted

/-- A computation that also paints. The pixels are handed to a painter when it has ended, whether or not
it failed, so they cannot depend on who paints them. -/
structure Drawing (α : Type) where
  pixels : List Point
  notes : List Note
  result : Except Binary.ConversionError α

namespace Drawing

variable {α β : Type}

instance : Monad Drawing where
  pure a := ⟨[], [], .ok a⟩
  bind x f :=
    match x.result with
    | .error e => ⟨x.pixels, x.notes, .error e⟩
    | .ok a => ⟨x.pixels ++ (f a).pixels, x.notes ++ (f a).notes, (f a).result⟩

instance : MonadLift (Noted Binary.ConversionError) Drawing :=
  ⟨fun x => ⟨[], x.notes, x.result⟩⟩

def paint (pixels : List Point) : Drawing Unit := ⟨pixels, [], .ok ()⟩

/-- The same computation with nobody to paint for. -/
def unpainted (d : Drawing α) : Noted Binary.ConversionError α := ⟨d.notes, d.result⟩

@[simp] theorem pure_def (a : α) : (pure a : Drawing α) = ⟨[], [], .ok a⟩ := rfl

@[simp] theorem bind_ok (pixels : List Point) (notes : List Note) (a : α) (f : α → Drawing β) :
    (⟨pixels, notes, .ok a⟩ >>= f : Drawing β) =
      ⟨pixels ++ (f a).pixels, notes ++ (f a).notes, (f a).result⟩ := rfl

@[simp] theorem bind_error (pixels : List Point) (notes : List Note) (e : Binary.ConversionError)
    (f : α → Drawing β) :
    (⟨pixels, notes, .error e⟩ >>= f : Drawing β) = ⟨pixels, notes, .error e⟩ := rfl

instance : LawfulMonad Drawing := LawfulMonad.mk' _
  (fun ⟨pixels, notes, result⟩ => by
    cases result with
    | error e => rfl
    | ok a =>
        exact (congrArg (Drawing.mk · (notes ++ []) (.ok a)) (List.append_nil pixels)).trans
          (congrArg (Drawing.mk pixels · (.ok a)) (List.append_nil notes)))
  (fun _ _ => rfl)
  (fun ⟨pixels, notes, result⟩ f g => by
    cases result with
    | error e => rfl
    | ok a =>
        simp only [bind_ok]
        generalize f a = y
        obtain ⟨more, further, result⟩ := y
        cases result with
        | error e => rfl
        | ok b => simp only [bind_ok, List.append_assoc])

end Drawing

end StrokeFont
