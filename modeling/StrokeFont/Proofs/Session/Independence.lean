import StrokeFont.Proofs.Session.Frame

namespace StrokeFont.Session

variable {κ : Type} {s t : Session κ}

namespace Outcome

variable {studio other : Studio} {c : Nat}

def canvas? (o : Outcome κ) (studio : Studio) : Option Nat :=
  o.receiver.bind fun receiver => (studio.painters receiver.painterName).canvas?

theorem canvas?_after (o earlier : Outcome κ) (studio : Studio) :
    o.canvas? (earlier.deliver studio) = o.canvas? studio := by
  simp only [canvas?, Session.canvas?_deliver]

theorem agree_deliver (h : Studio.Agree c studio other) (o : Outcome κ) :
    Studio.Agree c (o.deliver studio) (o.deliver other) := by
  unfold deliver
  cases o.receiver with
  | none => exact h
  | some receiver => exact h.paint receiver.painterName o.pixels

theorem agree_deliver_left (h : Studio.Agree c studio other) {o : Outcome κ}
    (ho : o.canvas? studio = some c → o.pixels = []) : Studio.Agree c (o.deliver studio) other := by
  unfold deliver
  cases hreceiver : o.receiver with
  | none => exact h
  | some receiver =>
      simp only [canvas?, hreceiver, Option.bind_some] at ho
      by_cases hplace : (studio.painters receiver.painterName).canvas? = some c
      · simp only [ho hplace, Studio.paint_nil]
        exact h
      · exact h.paint_left hplace o.pixels

/-- Outcomes that make no difference to what is compared can be left out. Whether they do is not changed by
what is delivered before them. -/
theorem foldl_deliver_filter {α : Type} {kept : α → Bool} {outcome : α → Outcome κ}
    (Same : Studio → Studio → Prop) (Idle : Studio → Outcome κ → Prop)
    (hboth : ∀ a b (o : Outcome κ), Same a b → Same (o.deliver a) (o.deliver b))
    (hidle : ∀ a b (o : Outcome κ), Same a b → Idle a o → Same (o.deliver a) b)
    (hafter : ∀ a (o earlier : Outcome κ), Idle a o → Idle (earlier.deliver a) o) (xs : List α)
    (h : Same studio other)
    (hothers : ∀ x ∈ xs, kept x = false → Idle studio (outcome x)) :
    Same ((xs.map outcome).foldl deliver studio) (((xs.filter kept).map outcome).foldl deliver other) := by
  induction xs generalizing studio other with
  | nil => exact h
  | cons x xs ih =>
      have hrest : ∀ y ∈ xs, kept y = false → Idle ((outcome x).deliver studio) (outcome y) :=
        fun y hy hkept => hafter _ _ _ (hothers y (List.mem_cons_of_mem _ hy) hkept)
      by_cases hx : kept x = true
      · rw [List.filter_cons_of_pos hx]
        exact ih (hboth _ _ _ h) hrest
      · rw [List.filter_cons_of_neg hx]
        have hleft := hothers x List.mem_cons_self (Bool.eq_false_iff.2 hx)
        exact ih (hidle _ _ _ h hleft) hrest

theorem agree_foldl {α : Type} {kept : α × Outcome κ → Bool} (outcomes : List (α × Outcome κ))
    (h : Studio.Agree c studio other)
    (hothers : ∀ x ∈ outcomes, kept x = false → x.2.canvas? studio = some c → x.2.pixels = []) :
    Studio.Agree c ((outcomes.map (·.2)).foldl deliver studio)
      (((outcomes.filter kept).map (·.2)).foldl deliver other) := by
  apply foldl_deliver_filter (Studio.Agree c) (fun studio o => o.canvas? studio = some c → o.pixels = [])
    (fun _ _ o h => agree_deliver h o) (fun _ _ _ h ho => agree_deliver_left h ho) _ outcomes h hothers
  intro a o earlier ho hplace
  exact ho ((canvas?_after o earlier a).symm.trans hplace)

end Outcome

/-- Whether the chosen fonts share no settings with the others. -/
def Apart (chosen : Nat → Bool) (s : Session κ) : Prop :=
  ∀ f g, chosen f = true → chosen g = false → (s.fonts f).settings ≠ (s.fonts g).settings

theorem apart_start {chosen : Nat → Bool} {settings : List Settings}
    {fonts : List (Parts settings.length)}
    (h : ∀ f g i, chosen f = true → chosen g = false →
      (fonts.getD f {}).settings = some i → (fonts.getD g {}).settings ≠ some i)
    (stores : Table GlyphStore) (studio : Studio) :
    Apart chosen (start settings fonts stores studio : Session κ) := by
  intro f g hf hg
  apply settingsName_start_ne
  · intro heq
    rw [heq, hg] at hf
    cases hf
  · exact fun i => h f g i hf hg

theorem Apart.call {chosen : Nat → Bool} (h : Apart chosen s) (g : Nat) (c : Call κ) :
    Apart chosen (s.call g c).1 := by
  intro f f' hf hf'
  rw [settingsName_call, settingsName_call]
  exact h f f' hf hf'

theorem run_alike {chosen : Nat → Bool} (hapart : Apart chosen s)
    (h : ∀ f, chosen f = true → Alike f s t) (calls : List (Nat × Call κ)) :
    (t.run (calls.filter (chosen ·.1))).2 =
        ((calls.zip (s.run calls).2).filter (chosen ·.1.1)).map (·.2) ∧
      ∀ f, chosen f = true → Alike f (s.run calls).1 (t.run (calls.filter (chosen ·.1))).1 := by
  induction calls generalizing s t with
  | nil => exact ⟨rfl, h⟩
  | cons x calls ih =>
      obtain ⟨g, c⟩ := x
      simp only [run, List.zip_cons_cons, List.filter_cons]
      by_cases hg : chosen g = true
      · have hnext : ∀ f, chosen f = true → Alike f (s.call g c).1 (t.call g c).1 :=
          fun f hf => (h f hf).call (h g hg) c
        obtain ⟨houtcomes, hfonts⟩ := ih (hapart.call g c) hnext
        simp only [hg, if_true, run, List.map_cons, houtcomes, (h g hg).outcome c, true_and]
        exact hfonts
      · have hnext : ∀ f, chosen f = true → Alike f (s.call g c).1 t :=
          fun f hf => (h f hf).call_left (hapart f g hf (Bool.eq_false_iff.2 hg)) c
        simp only [hg, Bool.false_eq_true, if_false]
        exact ih (hapart.call g c) hnext

/-- Calls on other fonts can be left out. The remaining ones keep their results, and the pixels painted
on the way to them, and their fonts keep the settings; a canvas that the others never paint on keeps its
pixels and the counters of its painters. -/
theorem other_fonts_irrelevant (s : Session κ) {chosen : Nat → Bool} (hapart : Apart chosen s)
    (calls : List (Nat × Call κ)) :
    let all := s.run calls
    let kept := s.run (calls.filter (chosen ·.1))
    kept.2 = ((calls.zip all.2).filter (chosen ·.1.1)).map (·.2) ∧
      (∀ f, chosen f = true →
        kept.1.fonts f = all.1.fonts f ∧ kept.1.settingsOf f = all.1.settingsOf f) ∧
      ∀ c, (∀ x ∈ calls.zip all.2, chosen x.1.1 = false →
          x.2.canvas? s.studio = some c → x.2.pixels = []) →
        kept.1.studio.canvases c = all.1.studio.canvases c ∧
        ∀ n, (s.studio.painters n).canvas? = some c →
          kept.1.studio.painters n = all.1.studio.painters n := by
  intro all kept
  obtain ⟨houtcomes, hfonts⟩ := run_alike hapart (fun f _ => Alike.refl f s) calls
  refine ⟨houtcomes, ?_, ?_⟩
  · intro f hf
    exact ⟨(hfonts f hf).font.symm, (hfonts f hf).settings.symm⟩
  · intro c hothers
    have hall : all.2 = (calls.zip all.2).map (·.2) :=
      (List.map_snd_zip (Nat.le_of_eq (length_run s calls))).symm
    have hagree := Outcome.agree_foldl _ (Studio.Agree.refl c s.studio) hothers
    rw [← hall, ← houtcomes, ← studio_run, ← studio_run] at hagree
    refine ⟨hagree.canvas.symm, ?_⟩
    intro n hn
    exact (hagree.painters n ((canvas?_run s calls n).trans hn)).symm

def threeFonts : Session Unit :=
  .start [.default] [⟨some 0, some 0, some 0⟩, ⟨none, some 1, none⟩, ⟨some 0, some 2, none⟩]
    (.ofList [⟨[(73, "a3 M12 P18")]⟩] ⟨[]⟩)
    { painters := .ofList [.canvas 0 .yellow 0 0, .canvas 1 .black 0 0, .canvas 0 .black 0 0] .recorder
      canvases := .ofList [] (.filled 6 6 Color.black.toPixel) }

def threeFontsCalls : List (Nat × Call Unit) :=
  [(1, .setFontSize 40), (0, .setFontSize 8), (1, .renderGlyph ⟨1, 7⟩ "M04 P44"),
    (2, .renderGlyph ⟨0, 7⟩ "M04 P44 a3"), (1, .setPainter .unusable none), (2, .lineHeight),
    (1, .setPainter (.callable 7) (some ())), (0, .render ⟨1, 4⟩ "I\nI" 0), (1, .bindings),
    (2, .setPainter (.painter 0) (some ())), (1, .renderGlyph ⟨0, 0⟩ "P2"), (0, .fontSize)]

theorem other_fonts_irrelevant_three :
    let chosen (f : Nat) : Bool := f = 0 ∨ f = 2
    Apart chosen threeFonts ∧
      let all := threeFonts.run threeFontsCalls
      let kept := threeFonts.run (threeFontsCalls.filter (chosen ·.1))
      kept.2 = ((threeFontsCalls.zip all.2).filter (chosen ·.1.1)).map (·.2) ∧
        (∀ f, chosen f = true →
          kept.1.fonts f = all.1.fonts f ∧ kept.1.settingsOf f = all.1.settingsOf f) ∧
        kept.1.studio.canvases 0 = all.1.studio.canvases 0 ∧
        ∀ n, (threeFonts.studio.painters n).canvas? = some 0 →
          kept.1.studio.painters n = all.1.studio.painters n := by
  intro chosen
  have hapart : Apart chosen threeFonts := by
    apply apart_start
    intro f g i hf hg _
    -- A font that is not chosen has settings of its own.
    match g with
    | 0 | 2 => cases hg
    | 1 | _ + 3 => exact nofun
  obtain ⟨houtcomes, hfonts, hcanvases⟩ := other_fonts_irrelevant threeFonts hapart threeFontsCalls
  exact ⟨hapart, houtcomes, hfonts, hcanvases 0 (by decide +kernel)⟩

end StrokeFont.Session
