import Mathlib.Algebra.Ring.Int.Defs
import StrokeFont.Proofs.Session.Independence

namespace StrokeFont.Session

variable {κ : Type} {s t : Session κ}

def Outcome.succeeded (o : Outcome κ) : Bool := o.result.isOk

def Call.draws : Call κ → Bool
  | renderGlyph _ _ | render _ _ _ => true
  | _ => false

/-- The outcome of a call, and how fonts and settings are after it. -/
structure Moment (κ : Type) where
  outcome : Outcome κ
  fonts : Table (Font κ)
  settings : Table Settings

def history (s : Session κ) : List (Nat × Call κ) → List (Moment κ)
  | [] => []
  | (font, c) :: rest =>
      let (next, outcome) := s.call font c
      ⟨outcome, next.fonts, next.settings⟩ :: next.history rest

def successes (s : Session κ) (calls : List (Nat × Call κ)) : List (Nat × Call κ) :=
  ((calls.zip (s.history calls)).filter (·.2.outcome.succeeded)).map (·.1)

theorem map_outcome_history (s : Session κ) (calls : List (Nat × Call κ)) :
    (s.history calls).map (·.outcome) = (s.run calls).2 := by
  induction calls generalizing s with
  | nil => rfl
  | cons x calls ih => exact congrArg ((s.call x.1 x.2).2 :: ·) (ih (s.call x.1 x.2).1)

/-- Two sessions that differ at most in what has been painted. -/
structure Twins (s t : Session κ) : Prop where
  fonts : s.fonts = t.fonts
  settings : s.settings = t.settings
  stores : s.stores = t.stores

namespace Twins

theorem refl (s : Session κ) : Twins s s := ⟨rfl, rfl, rfl⟩

theorem trans {u : Session κ} (h : Twins s t) (h' : Twins t u) : Twins s u :=
  ⟨h.fonts.trans h'.fonts, h.settings.trans h'.settings, h.stores.trans h'.stores⟩

theorem alike (h : Twins s t) (f : Nat) : Alike f s t :=
  ⟨congrFun h.fonts f, by rw [settingsOf, settingsOf, h.settings, h.fonts], h.stores⟩

theorem call (h : Twins s t) (g : Nat) (c : Call κ) : Twins (s.call g c).1 (t.call g c).1 := by
  have hsettings : s.settingsOf g = t.settingsOf g := (h.alike g).settings
  cases effect g c with
  | settings change heffect =>
      rw [heffect, heffect]
      exact ⟨h.fonts, by rw [changeSettings, changeSettings, h.settings, h.fonts, hsettings], h.stores⟩
  | font change _ heffect =>
      rw [heffect, heffect]
      exact ⟨by rw [changeFont, changeFont, h.fonts], h.settings, h.stores⟩
  | painting heffect =>
      obtain ⟨studio, hs⟩ := heffect s
      obtain ⟨studio', ht⟩ := heffect t
      rw [hs, ht]
      exact ⟨h.fonts, h.settings, h.stores⟩

end Twins

theorem twins_of_failure {g : Nat} {c : Call κ} (h : (s.call g c).2.succeeded = false) :
    Twins (s.call g c).1 s := by
  cases c with
  | setFontSize | setDotSize | setStrokeWidth | setLineSpacing | setGlyphs => cases h
  | setPainter offer context =>
      cases hoffer : offer.receiver context with
      | ok receiver =>
          simp only [call, hoffer] at h
          cases h
      | error cause =>
          simp only [call, hoffer]
          exact Twins.refl s
  | _ => exact ⟨rfl, rfl, rfl⟩

theorem pixels_of_not_draws {c : Call κ} (h : c.draws = false) (s : Session κ) (g : Nat) :
    (s.call g c).2.pixels = [] := by
  cases c with
  | renderGlyph | render => cases h
  | setPainter offer context =>
      simp only [call]
      split <;> rfl
  | _ => rfl

theorem pixels_of_mem_history (s : Session κ) (calls : List (Nat × Call κ)) :
    ∀ x ∈ calls.zip (s.history calls), x.1.2.draws = false → x.2.outcome.pixels = [] := by
  induction calls generalizing s with
  | nil => exact List.forall_mem_nil _
  | cons x calls ih =>
      refine List.forall_mem_cons.2 ⟨?_, ih (s.call x.1 x.2).1⟩
      intro hdraws
      exact pixels_of_not_draws hdraws s x.1

theorem history_successes (h : Twins s t) (calls : List (Nat × Call κ)) :
    t.history (s.successes calls) = (s.history calls).filter (·.outcome.succeeded) ∧
      Twins (s.run calls).1 (t.run (s.successes calls)).1 := by
  induction calls generalizing s t with
  | nil => exact ⟨rfl, h⟩
  | cons x calls ih =>
      obtain ⟨g, c⟩ := x
      simp only [successes, history, run, List.zip_cons_cons, List.filter_cons]
      by_cases hc : (s.call g c).2.succeeded = true
      · have hnext := h.call g c
        obtain ⟨hhistory, hfonts⟩ := ih hnext
        have houtcome : (t.call g c).2 = (s.call g c).2 := ((h.alike g).outcome c).symm
        simp only [hc, if_true, List.map_cons, history, run, houtcome, ← hnext.fonts, ← hnext.settings]
        exact ⟨congrArg (_ :: ·) hhistory, hfonts⟩
      · have hfailed := twins_of_failure (Bool.eq_false_iff.2 hc)
        simp only [hc, Bool.false_eq_true, if_false]
        exact ih (hfailed.trans h)

namespace Outcome

variable {studio other : Studio} {c : Nat} {p : Point}

theorem agreeAt_deliver (h : Studio.AgreeAt c p studio other) (o : Outcome κ) :
    Studio.AgreeAt c p (o.deliver studio) (o.deliver other) := by
  unfold deliver
  cases o.receiver with
  | none => exact h
  | some receiver => exact h.paint receiver.painterName o.pixels

theorem agreeAt_deliver_left (h : Studio.AgreeAt c p studio other) {o : Outcome κ}
    (ho : o.canvas? studio = some c → p ∉ o.pixels) : Studio.AgreeAt c p (o.deliver studio) other := by
  unfold deliver
  cases hreceiver : o.receiver with
  | none => exact h
  | some receiver =>
      simp only [canvas?, hreceiver, Option.bind_some] at ho
      exact h.paint_left ho

theorem agreeAt_foldl {α : Type} {kept : α → Bool} {outcome : α → Outcome κ} (xs : List α)
    (h : Studio.AgreeAt c p studio other)
    (hothers : ∀ x ∈ xs, kept x = false → (outcome x).canvas? studio = some c → p ∉ (outcome x).pixels) :
    Studio.AgreeAt c p ((xs.map outcome).foldl deliver studio)
      (((xs.filter kept).map outcome).foldl deliver other) := by
  apply foldl_deliver_filter (Studio.AgreeAt c p) (fun studio o => o.canvas? studio = some c → p ∉ o.pixels)
    (fun _ _ o h => agreeAt_deliver h o) (fun _ _ _ h ho => agreeAt_deliver_left h ho) _ xs h hothers
  intro a o earlier ho hplace
  exact ho ((canvas?_after o earlier a).symm.trans hplace)

end Outcome

/-- Calls that fail can be left out. The others keep their outcomes, with the pixels painted on the way to
them, and after each of them fonts and settings are the same, also at the end. A call that fails paints only
when it draws, and no pixel that it has not painted is different without it. -/
theorem failed_calls_leave_no_trace (s : Session κ) (calls : List (Nat × Call κ)) :
    let all := s.history calls
    let kept := s.successes calls
    s.history kept = all.filter (·.outcome.succeeded) ∧
      (s.run kept).1.fonts = (s.run calls).1.fonts ∧ (s.run kept).1.settings = (s.run calls).1.settings ∧
      (∀ x ∈ calls.zip all, x.2.outcome.succeeded = false → x.1.2.draws = false → x.2.outcome.pixels = []) ∧
      ∀ c p, (∀ m ∈ all, m.outcome.succeeded = false →
          m.outcome.canvas? s.studio = some c → p ∉ m.outcome.pixels) →
        ((s.run kept).1.studio.canvases c).get? p = ((s.run calls).1.studio.canvases c).get? p := by
  intro all kept
  obtain ⟨hhistory, htwins⟩ := history_successes (Twins.refl s) calls
  refine ⟨hhistory, htwins.fonts.symm, htwins.settings.symm, ?_, ?_⟩
  · intro x hx _
    exact pixels_of_mem_history s calls x hx
  · intro c p hp
    have hagree := Outcome.agreeAt_foldl all (Studio.AgreeAt.refl c p s.studio) hp
    rw [← hhistory, map_outcome_history, map_outcome_history, ← studio_run, ← studio_run] at hagree
    exact hagree.pixel.symm

def brokenOffCalls : List (Nat × Call Unit) :=
  [(0, .setFontSize (2 ^ 1023)), (2, .renderGlyph ⟨1, 1⟩ "M02d P0F"), (0, .setPainter (.painter 2) (some ())),
    (2, .setFontSize 8), (0, .renderGlyph ⟨2, 1⟩ "M02d")]

theorem failed_calls_leave_no_trace_midway :
    (threeFonts.history brokenOffCalls).map (·.outcome.succeeded) = [true, false, false, true, true] ∧
      (threeFonts.history brokenOffCalls).map (·.outcome.pixels) = [[], [⟨1, 1⟩], [], [], [⟨2, 1⟩]] ∧
      let kept := threeFonts.run (threeFonts.successes brokenOffCalls)
      let all := threeFonts.run brokenOffCalls
      kept.1.fonts = all.1.fonts ∧ kept.1.settings = all.1.settings ∧
        ∀ p, p ≠ ⟨1, 1⟩ → (kept.1.studio.canvases 0).get? p = (all.1.studio.canvases 0).get? p := by
  refine ⟨by decide +kernel, by decide +kernel, ?_⟩
  obtain ⟨-, hfonts, hsettings, -, hpixels⟩ := failed_calls_leave_no_trace threeFonts brokenOffCalls
  refine ⟨hfonts, hsettings, ?_⟩
  intro p hp
  have hpainted : ∀ m ∈ threeFonts.history brokenOffCalls, m.outcome.succeeded = false →
      ∀ q ∈ m.outcome.pixels, q = ⟨1, 1⟩ := by
    decide +kernel
  exact hpixels 0 p fun m hm hfailed _ hmem => hp (hpainted m hm hfailed p hmem)

end StrokeFont.Session
