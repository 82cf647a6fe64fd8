import StrokeFont.Canvas.Painter
import StrokeFont.Layout

namespace StrokeFont.Session

open Binary (ConversionError Number)

/-- What receives the pixels of a font: a painter, or a caller's function, which passes each pixel and
its context on to the painter of its name. -/
inductive Receiver (κ : Type) where
  | painter (name : Nat)
  | callable (name : Nat) (context : Option κ)
  deriving DecidableEq, Repr

def Receiver.painterName {κ : Type} : Receiver κ → Nat
  | painter name => name
  | callable name _ => name

inductive Offer where
  | nothing
  | painter (name : Nat)
  | callable (name : Nat)
  | unusable
  deriving DecidableEq, Repr

inductive BindingError where
  | contextForPainter
  | notAPainter
  deriving DecidableEq, Repr

def BindingError.message : BindingError → String
  | contextForPainter =>
      "context applies only to callable painters; Painter objects carry their own"
  | notAPainter => "painter must provide paint(x, y) or be callable"

def Offer.receiver {κ : Type} (context : Option κ) : Offer → Except BindingError (Option (Receiver κ))
  | nothing => .ok none
  | painter name =>
      match context with
      | none => .ok (some (.painter name))
      | some _ => .error .contextForPainter
  | callable name => .ok (some (.callable name context))
  | unusable => .error .notAPainter

structure Font (κ : Type) where
  settings : Nat
  receiver : Option (Receiver κ)
  glyphs : Option Nat

/-- What a font is built from. Its settings are some of those given, or none. -/
structure Parts (given : Nat) where
  settings : Option (Fin given) := none
  painter : Option Nat := none
  glyphs : Option Nat := none

def Parts.font {κ : Type} {given : Nat} (parts : Parts given) (number : Nat) : Font κ where
  settings :=
    match parts.settings with
    | some i => i
    | none => given + number
  receiver := parts.painter.map .painter
  glyphs := parts.glyphs

end Session

/-- Fonts that use one name share what it stands for. The stores never change. -/
structure Session (κ : Type) where
  fonts : Table (Session.Font κ)
  settings : Table Settings
  stores : Table GlyphStore
  studio : Studio

namespace Session

open Binary (ConversionError Number)

variable {κ : Type}

inductive Call (κ : Type) where
  | setFontSize (size : Int)
  | setDotSize (size : Int)
  | setStrokeWidth (width : Int)
  | setLineSpacing (spacing : Number)
  | fontSize
  | dotRadius
  | strokeWidth
  | lineSpacing
  | lineHeight
  | setPainter (offer : Offer) (context : Option κ)
  | setGlyphs (store : Option Nat)
  | bindings
  | width (program : String)
  | renderGlyph (origin : Point) (program : String)
  | render (origin : Point) (text : String) (maxWidth : Int)
  | measure (text : String) (maxWidth : Int)

inductive Answer (κ : Type) where
  | done
  | integer (n : Int)
  | number (x : Number)
  | bindings (receiver : Option (Receiver κ)) (glyphs : Option Nat)

inductive Failure where
  | conversion (cause : ConversionError)
  | binding (cause : BindingError)
  deriving DecidableEq, Repr

/-- The result of a call, and the pixels painted on the way to it with who received them. -/
structure Outcome (κ : Type) where
  result : Except Failure (Answer κ)
  receiver : Option (Receiver κ)
  pixels : List Point
  notes : List Note

namespace Outcome

def silent (result : Except Failure (Answer κ)) : Outcome κ := ⟨result, none, [], []⟩

def ofNoted (x : Noted ConversionError Int) : Outcome κ :=
  ⟨(x.result.map .integer).mapError .conversion, none, [], x.notes⟩

def ofDrawing (receiver : Option (Receiver κ)) (d : Drawing Int) : Outcome κ :=
  ⟨(d.result.map .integer).mapError .conversion, receiver,
    if receiver.isSome then d.pixels else [], d.notes⟩

def deliver (studio : Studio) (o : Outcome κ) : Studio :=
  match o.receiver with
  | none => studio
  | some receiver => studio.paint receiver.painterName o.pixels

end Outcome

/-- The session in which fonts have just been built. Names that are no place in the list of fonts stand
for fonts built from nothing. -/
def start (settings : List Settings) (fonts : List (Parts settings.length))
    (stores : Table GlyphStore) (studio : Studio) : Session κ where
  fonts number := (fonts.getD number {}).font number
  settings := .ofList settings .default
  stores := stores
  studio := studio

def settingsOf (s : Session κ) (font : Nat) : Settings := s.settings (s.fonts font).settings

def glyphsOf (s : Session κ) (font : Nat) : Option GlyphStore := (s.fonts font).glyphs.map s.stores

def changeSettings (s : Session κ) (font : Nat) (f : Settings → Settings) : Session κ :=
  { s with settings := s.settings.assign (s.fonts font).settings (f (s.settingsOf font)) }

def changeFont (s : Session κ) (font : Nat) (f : Font κ → Font κ) : Session κ :=
  { s with fonts := s.fonts.assign font (f (s.fonts font)) }

/-- A drawing of a font. Its pixels are painted even when it fails. -/
def paint (s : Session κ) (font : Nat) (d : Drawing Int) : Session κ × Outcome κ :=
  let outcome := .ofDrawing (s.fonts font).receiver d
  ({ s with studio := Outcome.deliver s.studio outcome }, outcome)

def call (s : Session κ) (font : Nat) : Call κ → Session κ × Outcome κ
  | .setFontSize size => (s.changeSettings font (·.setFontSize size), .silent (.ok .done))
  | .setDotSize size => (s.changeSettings font (·.setDotSize size), .silent (.ok .done))
  | .setStrokeWidth width => (s.changeSettings font (·.setStrokeWidth width), .silent (.ok .done))
  | .setLineSpacing spacing =>
      (s.changeSettings font (·.setLineSpacing spacing), .silent (.ok .done))
  | .fontSize => (s, .silent (.ok (.integer (s.settingsOf font).fontSize)))
  | .dotRadius => (s, .silent (.ok (.integer (s.settingsOf font).dotRadius)))
  | .strokeWidth => (s, .silent (.ok (.integer (s.settingsOf font).strokeWidth)))
  | .lineSpacing => (s, .silent (.ok (.number (s.settingsOf font).lineSpacing)))
  | .lineHeight => (s, .ofNoted ⟨[], (s.settingsOf font).lineHeight⟩)
  | .setPainter offer context =>
      match offer.receiver context with
      | .ok receiver =>
          (s.changeFont font fun f => { f with receiver := receiver }, .silent (.ok .done))
      | .error cause => (s, .silent (.error (.binding cause)))
  | .setGlyphs store =>
      (s.changeFont font fun f => { f with glyphs := store }, .silent (.ok .done))
  | .bindings =>
      (s, .silent (.ok (.bindings (s.fonts font).receiver (s.fonts font).glyphs)))
  | .width program => (s, .ofNoted (Glyph.width (s.settingsOf font) program))
  | .renderGlyph origin program =>
      s.paint font (Glyph.render (s.settingsOf font) origin program)
  | .render origin text maxWidth =>
      s.paint font (Layout.render (s.glyphsOf font) (s.settingsOf font) maxWidth origin text)
  | .measure text maxWidth =>
      (s, .ofNoted (Layout.measure (s.glyphsOf font) (s.settingsOf font) maxWidth text))

def run (s : Session κ) : List (Nat × Call κ) → Session κ × List (Outcome κ)
  | [] => (s, [])
  | (font, c) :: rest =>
      let (next, outcome) := s.call font c
      let (last, outcomes) := next.run rest
      (last, outcome :: outcomes)

end Session

end StrokeFont
