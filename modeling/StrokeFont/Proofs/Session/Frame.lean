import StrokeFont.Proofs.Canvas.Studio
import StrokeFont.Session

namespace StrokeFont.Session

variable {κ : Type} {s t : Session κ} {f g : Nat}

/-- What a call on a font does to a session. The change is the same in every session. -/
inductive Effect (g : Nat) (c : Call κ) : Prop
  | settings (change : Settings → Settings)
      (h : ∀ s : Session κ, (s.call g c).1 = s.changeSettings g change)
  | font (change : Font κ → Font κ) (hsettings : ∀ x, (change x).settings = x.settings)
      (h : ∀ s : Session κ, (s.call g c).1 = s.changeFont g change)
  | painting (h : ∀ s : Session κ, ∃ studio, (s.call g c).1 = { s with studio := studio })

theorem effect (g : Nat) (c : Call κ) : Effect g c := by
  cases c with
  | setFontSize size => exact .settings (·.setFontSize size) fun _ => rfl
  | setDotSize size => exact .settings (·.setDotSize size) fun _ => rfl
  | setStrokeWidth width => exact .settings (·.setStrokeWidth width) fun _ => rfl
  | setLineSpacing spacing => exact .settings (·.setLineSpacing spacing) fun _ => rfl
  | setPainter offer context =>
      cases hoffer : offer.receiver context with
      | ok receiver =>
          refine .font (fun x => { x with receiver := receiver }) (fun _ => rfl) fun s => ?_
          simp only [call, hoffer]
      | error cause =>
          refine .painting fun s => ⟨s.studio, ?_⟩
          simp only [call, hoffer]
  | setGlyphs store => exact .font (fun x => { x with glyphs := store }) (fun _ => rfl) fun _ => rfl
  | renderGlyph origin program | render origin text maxWidth => exact .painting fun _ => ⟨_, rfl⟩
  | fontSize | dotRadius | strokeWidth | lineSpacing | lineHeight | bindings | width program
  | measure text maxWidth => exact .painting fun s => ⟨s.studio, rfl⟩

theorem settings_changeSettings (s : Session κ) (font : Nat) (change : Settings → Settings) (name : Nat) :
    (s.changeSettings font change).settings name =
      if (s.fonts font).settings = name then change (s.settings name) else s.settings name := by
  by_cases hname : (s.fonts font).settings = name
  · subst hname
    rw [if_pos rfl]
    exact Table.assign_same _ _ _
  · rw [if_neg hname]
    exact Table.assign_of_ne _ _ (Ne.symm hname)

theorem settingsOf_changeSettings (s : Session κ) (g : Nat) (change : Settings → Settings) (f : Nat) :
    (s.changeSettings g change).settingsOf f =
      if (s.fonts f).settings = (s.fonts g).settings then change (s.settingsOf g) else s.settingsOf f :=
  rfl

theorem fonts_changeFont (s : Session κ) (g : Nat) (change : Font κ → Font κ) (f : Nat) :
    (s.changeFont g change).fonts f = if f = g then change (s.fonts g) else s.fonts f :=
  rfl

theorem settingsName_changeFont {change : Font κ → Font κ}
    (hsettings : ∀ x, (change x).settings = x.settings) (s : Session κ) (g f : Nat) :
    ((s.changeFont g change).fonts f).settings = (s.fonts f).settings := by
  rw [fonts_changeFont]
  by_cases hf : f = g
  · rw [if_pos hf, hsettings, hf]
  · rw [if_neg hf]

theorem settingsOf_changeFont {change : Font κ → Font κ}
    (hsettings : ∀ x, (change x).settings = x.settings) (s : Session κ) (g f : Nat) :
    (s.changeFont g change).settingsOf f = s.settingsOf f :=
  congrArg s.settings (settingsName_changeFont hsettings s g f)

theorem settingsName_call (s : Session κ) (g : Nat) (c : Call κ) (f : Nat) :
    ((s.call g c).1.fonts f).settings = (s.fonts f).settings := by
  cases effect g c with
  | settings change h => rw [h]; rfl
  | font change hsettings h => rw [h, settingsName_changeFont hsettings]
  | painting h =>
      obtain ⟨studio, hstudio⟩ := h s
      rw [hstudio]

section Start

variable {settings : List Settings} {fonts : List (Parts settings.length)} {stores : Table GlyphStore}
  {studio : Studio}

theorem settingsName_start_ne (hne : f ≠ g)
    (h : ∀ i, (fonts.getD f {}).settings = some i → (fonts.getD g {}).settings ≠ some i) :
    ((start settings fonts stores studio : Session κ).fonts f).settings ≠
      ((start settings fonts stores studio : Session κ).fonts g).settings := by
  simp only [start, Parts.font]
  cases hf : (fonts.getD f {}).settings with
  | none =>
      cases hg : (fonts.getD g {}).settings with
      | none => simpa only [ne_eq, Nat.add_left_cancel_iff] using hne
      | some j =>
          have hj := j.isLt
          simp only
          omega
  | some i =>
      cases hg : (fonts.getD g {}).settings with
      | none =>
          have hi := i.isLt
          simp only
          omega
      | some j =>
          intro heq
          exact h i hf (hg.trans (congrArg some (Fin.ext heq.symm)))

end Start

/-- Whether nothing in two sessions looks different to a font, apart from who paints. -/
structure Alike (f : Nat) (s t : Session κ) : Prop where
  font : s.fonts f = t.fonts f
  settings : s.settingsOf f = t.settingsOf f
  stores : s.stores = t.stores

namespace Alike

theorem refl (f : Nat) (s : Session κ) : Alike f s s := ⟨rfl, rfl, rfl⟩

theorem outcome (h : Alike g s t) (c : Call κ) : (s.call g c).2 = (t.call g c).2 := by
  have hglyphs : s.glyphsOf g = t.glyphsOf g := by rw [glyphsOf, glyphsOf, h.font, h.stores]
  cases c with
  | setFontSize | setDotSize | setStrokeWidth | setLineSpacing | setGlyphs => rfl
  | setPainter offer context =>
      simp only [call]
      split <;> rfl
  | bindings => simp only [call, h.font]
  | fontSize | dotRadius | strokeWidth | lineSpacing | lineHeight | width program =>
      simp only [call, h.settings]
  | renderGlyph origin program => simp only [call, paint, h.settings, h.font]
  | render origin text maxWidth => simp only [call, paint, h.settings, h.font, hglyphs]
  | measure text maxWidth => simp only [call, h.settings, hglyphs]

theorem call (hf : Alike f s t) (hg : Alike g s t) (c : Call κ) :
    Alike f (s.call g c).1 (t.call g c).1 := by
  cases effect g c with
  | settings change h =>
      rw [h, h]
      refine ⟨hf.font, ?_, hf.stores⟩
      rw [settingsOf_changeSettings, settingsOf_changeSettings, hf.font, hg.font, hf.settings,
        hg.settings]
  | font change hsettings h =>
      rw [h, h]
      refine ⟨?_, ?_, hf.stores⟩
      · rw [fonts_changeFont, fonts_changeFont, hf.font, hg.font]
      · rw [settingsOf_changeFont hsettings, settingsOf_changeFont hsettings, hf.settings]
  | painting h =>
      obtain ⟨studio, hs⟩ := h s
      obtain ⟨studio', ht⟩ := h t
      rw [hs, ht]
      exact ⟨hf.font, hf.settings, hf.stores⟩

theorem call_left (hf : Alike f s t) (hapart : (s.fonts f).settings ≠ (s.fonts g).settings)
    (c : Call κ) : Alike f (s.call g c).1 t := by
  cases effect g c with
  | settings change h =>
      rw [h]
      refine ⟨hf.font, ?_, hf.stores⟩
      rw [settingsOf_changeSettings, if_neg hapart, hf.settings]
  | font change hsettings h =>
      have hne : f ≠ g := fun heq => hapart (heq ▸ rfl)
      rw [h]
      refine ⟨?_, ?_, hf.stores⟩
      · rw [fonts_changeFont, if_neg hne, hf.font]
      · rw [settingsOf_changeFont hsettings, hf.settings]
  | painting h =>
      obtain ⟨studio, hs⟩ := h s
      rw [hs]
      exact ⟨hf.font, hf.settings, hf.stores⟩

end Alike

theorem canvas?_deliver (o : Outcome κ) (studio : Studio) (n : Nat) :
    ((o.deliver studio).painters n).canvas? = (studio.painters n).canvas? := by
  unfold Outcome.deliver
  cases o.receiver with
  | none => rfl
  | some receiver => exact Studio.canvas?_paint studio receiver.painterName o.pixels n

theorem studio_call (s : Session κ) (g : Nat) (c : Call κ) :
    (s.call g c).1.studio = (s.call g c).2.deliver s.studio := by
  cases c with
  | setPainter offer context =>
      simp only [call]
      split <;> rfl
  | _ => rfl

theorem length_run (s : Session κ) (calls : List (Nat × Call κ)) :
    (s.run calls).2.length = calls.length := by
  induction calls generalizing s with
  | nil => rfl
  | cons x calls ih => exact congrArg (· + 1) (ih (s.call x.1 x.2).1)

theorem studio_run (s : Session κ) (calls : List (Nat × Call κ)) :
    (s.run calls).1.studio = (s.run calls).2.foldl Outcome.deliver s.studio := by
  induction calls generalizing s with
  | nil => rfl
  | cons x calls ih =>
      rw [run, List.foldl_cons, ← studio_call]
      exact ih (s.call x.1 x.2).1

theorem canvas?_run (s : Session κ) (calls : List (Nat × Call κ)) (n : Nat) :
    ((s.run calls).1.studio.painters n).canvas? = (s.studio.painters n).canvas? := by
  rw [studio_run]
  generalize (s.run calls).2 = outcomes
  generalize s.studio = studio
  induction outcomes generalizing studio with
  | nil => rfl
  | cons o outcomes ih => rw [List.foldl_cons, ih, canvas?_deliver]

end StrokeFont.Session
