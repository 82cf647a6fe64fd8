import StrokeFont.Command.Picture

namespace StrokeFont

open Command (Given Failure Flag Request)

section Except

variable {ε ε' α β : Type}

theorem ok_of_bind {x : Except ε α} {f : α → Except ε β} {b : β} (h : (x >>= f) = .ok b) :
    ∃ a, x = .ok a ∧ f a = .ok b := by
  cases x with
  | error e => cases h
  | ok a => exact ⟨a, rfl, h⟩

theorem ok_of_mapError {x : Except ε α} {f : ε → ε'} {a : α} (h : x.mapError f = .ok a) : x = .ok a := by
  cases x with
  | error e => cases h
  | ok b => exact congrArg Except.ok (Except.ok.inj h)

theorem foldlM_ok_induction {motive : β → Prop} {f : β → α → Except ε β}
    (step : ∀ b a c, motive b → f b a = .ok c → motive c) {list : List α} {b c : β} (hb : motive b)
    (h : list.foldlM f b = .ok c) : motive c := by
  induction list generalizing b with
  | nil => exact Except.ok.inj h ▸ hb
  | cons a list ih =>
      rw [List.foldlM_cons] at h
      obtain ⟨next, hnext, hrest⟩ := ok_of_bind h
      exact ih (step b a next hb hnext) hrest

end Except

namespace Settings

/-- Settings whose sizes are not below the least ones. -/
structure Clamped (s : Settings) : Prop where
  fontSize : leastFontSize ≤ s.fontSize
  dotRadius : leastDotRadius ≤ s.dotRadius
  strokeWidth : leastStrokeWidth ≤ s.strokeWidth

theorem clamped_clamped (fontSize dotRadius strokeWidth : Int) (lineSpacing : Binary.Number) :
    (clamped fontSize dotRadius strokeWidth lineSpacing).Clamped :=
  ⟨Int.le_max_left _ _, Int.le_max_left _ _, Int.le_max_left _ _⟩

theorem clamped_default : Settings.default.Clamped := clamped_clamped _ _ _ _

variable {s t : Settings}

namespace Clamped

theorem setFontSize (h : s.Clamped) (n : Int) : (s.setFontSize n).Clamped :=
  ⟨Int.le_max_left _ _, h.dotRadius, h.strokeWidth⟩

theorem setDotSize (h : s.Clamped) (n : Int) : (s.setDotSize n).Clamped :=
  ⟨h.fontSize, Int.le_max_left _ _, h.strokeWidth⟩

theorem setStrokeWidth (h : s.Clamped) (n : Int) : (s.setStrokeWidth n).Clamped :=
  ⟨h.fontSize, h.dotRadius, Int.le_max_left _ _⟩

theorem setLineSpacing (h : s.Clamped) (x : Binary.Number) : (s.setLineSpacing x).Clamped :=
  ⟨h.fontSize, h.dotRadius, h.strokeWidth⟩

theorem key (h : s.Clamped) {value : Value} {key : Key}
    (hset : key.set s value = .ok t) : t.Clamped := by
  cases key with
  | fontSize =>
      obtain ⟨n, -, hn⟩ := ok_of_bind hset
      exact Except.ok.inj hn ▸ h.setFontSize n
  | dotSize =>
      obtain ⟨n, -, hn⟩ := ok_of_bind hset
      exact Except.ok.inj hn ▸ h.setDotSize n
  | strokeWidth =>
      obtain ⟨n, -, hn⟩ := ok_of_bind hset
      exact Except.ok.inj hn ▸ h.setStrokeWidth n
  | lineSpacing =>
      obtain ⟨x, -, hx⟩ := ok_of_bind hset
      exact Except.ok.inj hx ▸ h.setLineSpacing x

theorem adjust (h : s.Clamped) {given : Given Int} {flag : Flag} {set : Settings → Int → Settings}
    (hset : ∀ n, (set s n).Clamped) (ht : given.adjust flag set s = .ok t) : t.Clamped := by
  cases given with
  | absent => exact Except.ok.inj ht ▸ h
  | empty => cases ht
  | value n => exact Except.ok.inj ht ▸ hset n

end Clamped

theorem clamped_of_ofTable {entries : List (String × Value)} (h : ofTable entries = .ok s) :
    s.Clamped := by
  unfold ofTable at h
  split at h
  · refine foldlM_ok_induction (motive := Clamped) ?_ clamped_default h
    intro b key c hb hc
    split at hc
    · exact Except.ok.inj hc ▸ hb
    · exact hb.key hc
  · cases h

theorem clamped_of_ofValue {value : Value} (h : ofValue value = .ok s) : s.Clamped := by
  unfold ofValue at h
  split at h
  · exact clamped_of_ofTable h
  · cases h

theorem clamped_of_load {path : File.Path} {entry : File.Entry} (h : load path entry = .ok s) :
    s.Clamped := by
  unfold load at h
  split at h
  iterate 6 cases h
  split at h
  · cases h
  · obtain ⟨document, -, hdocument⟩ := ok_of_bind h
    exact clamped_of_ofValue (ok_of_mapError hdocument)

end Settings

namespace Command.Request

variable {r : Request} {entry : File.Path → File.Entry} {s : Settings}

theorem clamped_of_fileSettings (h : r.fileSettings entry = .ok s) : s.Clamped := by
  unfold fileSettings at h
  split at h
  · exact Except.ok.inj h ▸ Settings.clamped_default
  · cases h
  · exact Settings.clamped_of_load (ok_of_mapError h)

/-- Whatever a request asks for, and whatever its settings file holds, its settings are clamped. -/
theorem clamped_of_settings (h : r.settings entry = .ok s) : s.Clamped := by
  obtain ⟨file, hfile, h⟩ := ok_of_bind h
  obtain ⟨sized, hsized, h⟩ := ok_of_bind h
  obtain ⟨stroked, hstroked, h⟩ := ok_of_bind h
  have hfile := clamped_of_fileSettings hfile
  have hsized := hfile.adjust hfile.setFontSize hsized
  have hstroked := hsized.adjust hsized.setStrokeWidth hstroked
  exact hstroked.adjust hstroked.setDotSize h

end Command.Request

end StrokeFont
