import Mathlib.Algebra.Ring.Int.Defs
import StrokeFont.Layout
import StrokeFont.Proofs.Glyph.Ink

namespace StrokeFont.Layout

inductive Item where
  | newline
  | glyph (g : Sized)

def lineWidth (line : List Sized) : Int := (line.map Sized.advance).sum

@[simp] theorem lineWidth_nil : lineWidth [] = 0 := rfl

@[simp] theorem lineWidth_singleton (g : Sized) : lineWidth [g] = g.advance := by
  simp [lineWidth]

@[simp] theorem lineWidth_append (s t : List Sized) :
    lineWidth (s ++ t) = lineWidth s + lineWidth t := by
  simp [lineWidth]

/-- The lines that items make behind glyphs that already stand on the first line. A line ends at a
newline, and before a glyph that would fill it up to a positive limit. -/
def breakLines (maxWidth : Int) : List Sized → List Item → List (List Sized)
  | line, [] => [line]
  | line, .newline :: rest => line :: breakLines maxWidth [] rest
  | line, .glyph g :: rest =>
      if 0 < maxWidth ∧ maxWidth ≤ lineWidth line + g.advance then
        line :: breakLines maxWidth [g] rest
      else breakLines maxWidth (line ++ [g]) rest

theorem breakLines_ne_nil (maxWidth : Int) (line : List Sized) (items : List Item) :
    breakLines maxWidth line items ≠ [] := by
  induction items generalizing line with
  | nil => exact List.cons_ne_nil _ _
  | cons item items ih =>
      cases item with
      | newline => exact List.cons_ne_nil _ _
      | glyph g =>
          rw [breakLines]
          split
          · exact List.cons_ne_nil _ _
          · exact ih _

def linePlaces (left baseline : Int) (line : List Sized) : List (Point × Sized) :=
  line.zipIdx.map fun (g, k) => (⟨left + lineWidth (line.take k), baseline⟩, g)

/-- The places of all glyphs, for lines that are numbered from `n` on. -/
def places (origin : Point) (lineHeight : Int) (n : Nat) (lines : List (List Sized)) :
    List (Point × Sized) :=
  (lines.zipIdx n).flatMap fun (line, i) => linePlaces origin.x (origin.y + i * lineHeight) line

@[simp] theorem linePlaces_nil (left baseline : Int) : linePlaces left baseline [] = [] := rfl

theorem linePlaces_concat (left baseline : Int) (line : List Sized) (g : Sized) :
    linePlaces left baseline (line ++ [g]) =
      linePlaces left baseline line ++ [(⟨left + lineWidth line, baseline⟩, g)] := by
  simp only [linePlaces, List.zipIdx_append, List.map_append]
  congr 1
  · apply List.map_congr_left
    rintro ⟨h, k⟩ hk
    have hlt : k < line.length := by simpa using List.snd_lt_of_mem_zipIdx hk
    simp only [List.take_append_of_le_length (Nat.le_of_lt hlt)]
  · simp

@[simp] theorem places_nil (origin : Point) (lineHeight : Int) (n : Nat) :
    places origin lineHeight n [] = [] := rfl

theorem places_cons (origin : Point) (lineHeight : Int) (n : Nat) (line : List Sized)
    (lines : List (List Sized)) :
    places origin lineHeight n (line :: lines) =
      linePlaces origin.x (origin.y + n * lineHeight) line ++
        places origin lineHeight (n + 1) lines := by
  simp only [places, List.zipIdx_cons, List.flatMap_cons]

def Item.glyph? : Item → Option Sized
  | newline => none
  | glyph g => some g

theorem flatten_breakLines (maxWidth : Int) (line : List Sized) (items : List Item) :
    (breakLines maxWidth line items).flatten = line ++ items.filterMap Item.glyph? := by
  induction items generalizing line with
  | nil => simp [breakLines]
  | cons item items ih =>
      rw [List.filterMap_cons]
      cases item with
      | newline => simp only [breakLines, Item.glyph?, List.flatten_cons, ih, List.nil_append]
      | glyph g =>
          simp only [breakLines, Item.glyph?]
          split
          · simp only [List.flatten_cons, ih, List.singleton_append]
          · simp only [ih, List.append_assoc, List.singleton_append]

namespace Sized

def fits (fontSize : Int) (g : Sized) : Bool := g.trace.all (·.fits fontSize)

def ink (settings : Settings) (place : Point) (g : Sized) : List Point :=
  match g.trace with
  | none => []
  | some t => (t.paint settings place).pixels

end Sized

def inkAll (settings : Settings) (placed : List (Point × Sized)) : List Point :=
  placed.flatMap fun (place, g) => g.ink settings place

@[simp] theorem inkAll_nil (settings : Settings) : inkAll settings [] = [] := rfl

theorem inkAll_append (settings : Settings) (s t : List (Point × Sized)) :
    inkAll settings (s ++ t) = inkAll settings s ++ inkAll settings t :=
  List.flatMap_append

theorem inkAll_singleton (settings : Settings) (place : Point) (g : Sized) :
    inkAll settings [(place, g)] = g.ink settings place := by
  simp [inkAll]

namespace Page

def glyph? (page : Page) (c : Char) : Option Sized :=
  (page.glyphs.lookup? c.toNat).map fun program =>
    match (Glyph.trace program).result with
    | .ok t => ⟨some t, Scale.pixels page.settings.fontSize t.advance⟩
    | .error _ => ⟨none, 0⟩

def item? (page : Page) (c : Char) : Option Item :=
  if c = '\n' then some .newline else (page.glyph? c).map .glyph

def lines (page : Page) (text : String) : List (List Sized) :=
  breakLines page.maxWidth [] (text.toList.filterMap page.item?)

def glyphsOf (page : Page) (text : String) : List Sized :=
  (text.toList.filter (· ≠ '\n')).filterMap page.glyph?

def fits (page : Page) (c : Char) : Bool :=
  c == '\n' || (page.glyphs.lookup? c.toNat).all fun program =>
    match (Glyph.trace program).result with
    | .ok t => t.fits page.settings.fontSize
    | .error _ => true

variable {page : Page} {c : Char}

theorem sized?_of_missing (h : page.glyphs.lookup? c.toNat = none) :
    (page.sized? c).result = .ok none := by
  rw [sized?, h]
  rfl

theorem sized?_of_lookup {program : String} (h : page.glyphs.lookup? c.toNat = some program) :
    (page.sized? c).result =
      match (Glyph.trace program).result with
      | .ok t => (Scale.length page.settings.fontSize t.advance).map fun n => some ⟨some t, n⟩
      | .error _ => .ok (some ⟨none, 0⟩) := by
  rw [sized?, h]
  simp only
  rw [Noted.bind_of_ok (Glyph.trace?_result program)]
  cases (Glyph.trace program).result with
  | error e => rfl
  | ok t =>
      simp only [Except.toOption]
      cases Scale.length page.settings.fontSize t.advance <;> rfl

theorem sized?_of_fits (h : page.fits c = true) (hc : c ≠ '\n') :
    (page.sized? c).result = .ok (page.glyph? c) ∧
      ∀ g, page.glyph? c = some g → g.fits page.settings.fontSize = true := by
  rw [fits, Bool.or_eq_true, beq_iff_eq, or_iff_right hc] at h
  unfold glyph?
  cases hl : page.glyphs.lookup? c.toNat with
  | none => exact ⟨sized?_of_missing hl, by simp⟩
  | some program =>
      rw [hl, Option.all_some] at h
      rw [sized?_of_lookup hl, Option.map_some]
      cases ht : (Glyph.trace program).result with
      | error e => exact ⟨rfl, by rintro g ⟨⟩; rfl⟩
      | ok t =>
          simp only [ht] at h
          have hadvance := Scale.length_of_fits (Bool.and_eq_true_iff.1 h).2
          refine ⟨by simp only [hadvance]; rfl, ?_⟩
          rintro g ⟨⟩
          exact h

theorem paintSized_of_fits {g : Sized} (h : g.fits page.settings.fontSize = true) (place : Point) :
    (page.paintSized place g).pixels = g.ink page.settings place ∧
      (page.paintSized place g).result = .ok () := by
  obtain ⟨trace, advance⟩ := g
  cases trace with
  | none => exact ⟨rfl, rfl⟩
  | some t =>
      have hpaint := Glyph.Trace.paint_of_fits (t := t) (by simpa [Sized.fits] using h) place
      simp only [paintSized, Sized.ink, hpaint]
      exact ⟨List.append_nil _, rfl⟩

end Page

end StrokeFont.Layout
