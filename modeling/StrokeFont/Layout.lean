import StrokeFont.Glyph.Render
import StrokeFont.Table
import StrokeFont.Text.Quoted

namespace StrokeFont

open Binary (ConversionError)

inductive GlyphName where
  | text (s : String)
  | codePoint (n : Int)
  deriving DecidableEq, Repr

structure GlyphStore where
  programs : List (Int × String)
  deriving DecidableEq, Repr

namespace GlyphStore

def codePoint? : GlyphName → Except String Int
  | .codePoint n => .ok n
  | .text s =>
      match s.toList with
      | [c] => .ok c.toNat
      | _ => .error s

def resolve : List (GlyphName × String) → Except String (List (Int × String))
  | [] => .ok []
  | (name, program) :: rest => do
      let n ← codePoint? name
      let resolved ← resolve rest
      return (n, program) :: resolved

/-- Of several programs under one name the last counts, at the place of the first. Of the two names of
a glyph the one first mentioned later counts. -/
def ofList (entries : List (GlyphName × String)) : Except String GlyphStore := do
  let resolved ← resolve (Keyed.ofList entries)
  return ⟨Keyed.ofList resolved⟩

def lookup? (store : GlyphStore) (codePoint : Int) : Option String :=
  Keyed.find? codePoint store.programs

def badNameMessage (name : String) : String :=
  s!"glyph key must be a single character, got {Text.quoted name}"

end GlyphStore

namespace Layout

/-- A width that is not positive means no limit. -/
structure Page where
  glyphs : GlyphStore
  settings : Settings
  maxWidth : Int

/-- A glyph ready to be placed. A malformed one has no trace and takes no space. -/
structure Sized where
  trace : Option Glyph.Trace
  advance : Int
  deriving DecidableEq, Repr

def wraps (maxWidth line advance : Int) : Bool :=
  0 < maxWidth && maxWidth ≤ line + advance

namespace Page

def sized? (page : Page) (c : Char) : Noted ConversionError (Option Sized) := do
  match page.glyphs.lookup? c.toNat with
  | none =>
      Noted.note (.glyphMissing c)
      return none
  | some program =>
      match ← Glyph.trace? program with
      | none => return some ⟨none, 0⟩
      | some t => return some ⟨some t, ← Scale.length page.settings.fontSize t.advance⟩

def paintSized (page : Page) (origin : Point) : Sized → Drawing Unit
  | ⟨none, _⟩ => return ()
  | ⟨some t, _⟩ => do
      let _ ← t.paint page.settings origin

/-- Paints a text from the cursor on and returns the last baseline. Lines start at `left`. -/
def renderFrom (page : Page) (lineHeight left : Int) : Point → List Char → Drawing Int
  | cursor, [] => return cursor.y
  | cursor, c :: rest =>
      if c = '\n' then page.renderFrom lineHeight left ⟨left, cursor.y + lineHeight⟩ rest
      else do
        match ← page.sized? c with
        | none => page.renderFrom lineHeight left cursor rest
        | some glyph =>
            let place : Point :=
              if wraps page.maxWidth (cursor.x - left) glyph.advance then
                ⟨left, cursor.y + lineHeight⟩
              else cursor
            page.paintSized place glyph
            page.renderFrom lineHeight left ⟨place.x + glyph.advance, place.y⟩ rest

def render (page : Page) (origin : Point) (text : String) : Drawing Int := do
  let lineHeight ← page.settings.lineHeight
  let last ← page.renderFrom lineHeight origin.x origin text.toList
  return last - origin.y + lineHeight

/-- The width of the widest line, of those before and of the rest of a text, which continues a line
of the given width. -/
def measureFrom (page : Page) : Int → Int → List Char → Noted ConversionError Int
  | widest, line, [] => return max widest line
  | widest, line, c :: rest =>
      if c = '\n' then page.measureFrom (max widest line) 0 rest
      else do
        match ← page.sized? c with
        | none => page.measureFrom widest line rest
        | some glyph =>
            if wraps page.maxWidth line glyph.advance then
              page.measureFrom (max widest line) glyph.advance rest
            else page.measureFrom widest (line + glyph.advance) rest

def measure (page : Page) (text : String) : Noted ConversionError Int :=
  page.measureFrom 0 0 text.toList

end Page

def render (glyphs : Option GlyphStore) (settings : Settings) (maxWidth : Int) (origin : Point)
    (text : String) : Drawing Int :=
  match glyphs with
  | none => return 0
  | some glyphs => Page.render ⟨glyphs, settings, maxWidth⟩ origin text

def measure (glyphs : Option GlyphStore) (settings : Settings) (maxWidth : Int) (text : String) :
    Noted ConversionError Int :=
  match glyphs with
  | none => return 0
  | some glyphs => Page.measure ⟨glyphs, settings, maxWidth⟩ text

end Layout

end StrokeFont
