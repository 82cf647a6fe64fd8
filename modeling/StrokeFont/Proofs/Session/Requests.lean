import StrokeFont.Proofs.Session.Independence
import StrokeFont.Proofs.Settings

namespace StrokeFont

open Binary (Number)

namespace Settings

inductive Request where
  | fontSize (size : Int)
  | dotSize (size : Int)
  | strokeWidth (width : Int)
  | lineSpacing (spacing : Number)

namespace Request

def apply (s : Settings) : Request → Settings
  | fontSize size => s.setFontSize size
  | dotSize size => s.setDotSize size
  | strokeWidth width => s.setStrokeWidth width
  | lineSpacing spacing => s.setLineSpacing spacing

def fontSize? : Request → Option Int
  | fontSize size => some size
  | _ => none

def dotSize? : Request → Option Int
  | dotSize size => some size
  | _ => none

def strokeWidth? : Request → Option Int
  | strokeWidth width => some width
  | _ => none

def lineSpacing? : Request → Option Number
  | lineSpacing spacing => some spacing
  | _ => none

theorem field_foldl {α β : Type} (field : Settings → β) (asks : Request → Option α) (clamp : α → β)
    (h : ∀ s r, field (apply s r) = ((asks r).map clamp).getD (field s)) (requests : List Request)
    (s : Settings) :
    field (requests.foldl apply s) = ((requests.filterMap asks).getLast?.map clamp).getD (field s) := by
  induction requests generalizing s with
  | nil => rfl
  | cons r requests ih =>
      rw [List.foldl_cons, ih, h]
      cases hr : asks r with
      | none => rw [List.filterMap_cons_none hr, Option.map_none, Option.getD_none]
      | some a =>
          rw [List.filterMap_cons_some hr, List.getLast?_cons]
          cases (requests.filterMap asks).getLast? <;> rfl

theorem fontSize_foldl (requests : List Request) (s : Settings) :
    (requests.foldl apply s).fontSize =
      ((requests.filterMap fontSize?).getLast?.map (max leastFontSize)).getD s.fontSize :=
  field_foldl Settings.fontSize fontSize? _ (fun _ r => by cases r <;> rfl) requests s

theorem dotRadius_foldl (requests : List Request) (s : Settings) :
    (requests.foldl apply s).dotRadius =
      ((requests.filterMap dotSize?).getLast?.map fun size => max leastDotRadius (size - 1)).getD s.dotRadius :=
  field_foldl Settings.dotRadius dotSize? _ (fun _ r => by cases r <;> rfl) requests s

theorem strokeWidth_foldl (requests : List Request) (s : Settings) :
    (requests.foldl apply s).strokeWidth =
      ((requests.filterMap strokeWidth?).getLast?.map (max leastStrokeWidth)).getD s.strokeWidth :=
  field_foldl Settings.strokeWidth strokeWidth? _ (fun _ r => by cases r <;> rfl) requests s

theorem lineSpacing_foldl (requests : List Request) (s : Settings) :
    (requests.foldl apply s).lineSpacing = (requests.filterMap lineSpacing?).getLast?.getD s.lineSpacing := by
  have h := field_foldl Settings.lineSpacing lineSpacing? id (fun _ r => by cases r <;> rfl) requests s
  rwa [Option.map_id, id] at h

end Request

/-- Settings as they are made: from values for each of them, or from a settings document. -/
inductive Built : Settings → Prop
  | values (fontSize dotRadius strokeWidth : Int) (lineSpacing : Number) :
      Built (clamped fontSize dotRadius strokeWidth lineSpacing)
  | document {value : Value} {s : Settings} (h : ofValue value = .ok s) : Built s

theorem Built.clamped {s : Settings} (h : s.Built) : s.Clamped := by
  cases h with
  | values fontSize dotRadius strokeWidth lineSpacing => exact clamped_clamped _ _ _ _
  | document h => exact clamped_of_ofValue h

namespace Clamped

variable {s : Settings}

theorem apply (h : s.Clamped) (r : Request) : (r.apply s).Clamped := by
  cases r with
  | fontSize size => exact h.setFontSize size
  | dotSize size => exact h.setDotSize size
  | strokeWidth width => exact h.setStrokeWidth width
  | lineSpacing spacing => exact h.setLineSpacing spacing

theorem foldl_apply (h : s.Clamped) (requests : List Request) : (requests.foldl Request.apply s).Clamped := by
  induction requests generalizing s with
  | nil => exact h
  | cons r requests ih => exact ih (h.apply r)

theorem setFontSize_self (h : s.Clamped) : s.setFontSize s.fontSize = s := by
  rw [Settings.setFontSize, Int.max_eq_right h.fontSize]

theorem setDotSize_self (h : s.Clamped) : s.setDotSize (s.dotRadius + 1) = s := by
  rw [Settings.setDotSize, Int.add_sub_cancel, Int.max_eq_right h.dotRadius]

theorem setStrokeWidth_self (h : s.Clamped) : s.setStrokeWidth s.strokeWidth = s := by
  rw [Settings.setStrokeWidth, Int.max_eq_right h.strokeWidth]

end Clamped

end Settings

namespace Session

variable {κ : Type} {s : Session κ}

/-- What may be done about settings that fonts share: a call on a font, or a request to the settings
themselves. -/
inductive Event (κ : Type) where
  | call (font : Nat) (c : Call κ)
  | request (name : Nat) (r : Settings.Request)

def perform (s : Session κ) : Event κ → Session κ
  | .call font c => (s.call font c).1
  | .request name r => { s with settings := s.settings.assign name (r.apply (s.settings name)) }

def Call.request? : Call κ → Option Settings.Request
  | setFontSize size => some (.fontSize size)
  | setDotSize size => some (.dotSize size)
  | setStrokeWidth stroke => some (.strokeWidth stroke)
  | setLineSpacing spacing => some (.lineSpacing spacing)
  | _ => none

def Event.request? (s : Session κ) (name : Nat) : Event κ → Option Settings.Request
  | .call font c => if (s.fonts font).settings = name then c.request? else none
  | .request target r => if target = name then some r else none

theorem settingsName_perform (s : Session κ) (e : Event κ) (font : Nat) :
    ((s.perform e).fonts font).settings = (s.fonts font).settings := by
  cases e with
  | call g c => exact settingsName_call s g c font
  | request name r => rfl

theorem request?_perform (s : Session κ) (e : Event κ) (name : Nat) :
    Event.request? (s.perform e) name = Event.request? s name := by
  funext other
  cases other with
  | call font c => simp only [Event.request?, settingsName_perform]
  | request target r => rfl

theorem settings_call (s : Session κ) (font : Nat) (c : Call κ) (name : Nat) :
    (s.call font c).1.settings name =
      ((Event.call font c).request? s name).elim (s.settings name) (·.apply (s.settings name)) := by
  have hother (h : c.request? = none) (hsame : (s.call font c).1.settings = s.settings) :
      (s.call font c).1.settings name =
        ((Event.call font c).request? s name).elim (s.settings name) (·.apply (s.settings name)) := by
    rw [hsame, Event.request?, h, ite_self, Option.elim_none]
  cases c with
  | setFontSize | setDotSize | setStrokeWidth | setLineSpacing =>
      rw [call, settings_changeSettings, Event.request?]
      split <;> rfl
  | setPainter offer context =>
      apply hother rfl
      simp only [call]
      split <;> rfl
  | _ => exact hother rfl rfl

theorem settings_perform (s : Session κ) (e : Event κ) (name : Nat) :
    (s.perform e).settings name = (e.request? s name).elim (s.settings name) (·.apply (s.settings name)) := by
  cases e with
  | call font c => exact settings_call s font c name
  | request target r =>
      rw [Event.request?]
      by_cases htarget : target = name
      · rw [if_pos htarget, htarget]
        exact Table.assign_same _ _ _
      · rw [if_neg htarget]
        exact Table.assign_of_ne _ _ (Ne.symm htarget)

theorem settings_foldl_perform (s : Session κ) (events : List (Event κ)) (name : Nat) :
    (events.foldl perform s).settings name =
      (events.filterMap (Event.request? s name)).foldl Settings.Request.apply (s.settings name) := by
  induction events generalizing s with
  | nil => rfl
  | cons e events ih =>
      rw [List.foldl_cons, ih, request?_perform, settings_perform]
      cases hrequest : e.request? s name with
      | none => rw [List.filterMap_cons_none hrequest, Option.elim_none]
      | some r => rw [List.filterMap_cons_some hrequest, Option.elim_some, List.foldl_cons]

theorem settingsName_foldl_perform (s : Session κ) (events : List (Event κ)) (font : Nat) :
    ((events.foldl perform s).fonts font).settings = (s.fonts font).settings := by
  induction events generalizing s with
  | nil => rfl
  | cons e events ih => rw [List.foldl_cons, ih, settingsName_perform]

/-- Whether asking a font for what it says of its settings changes nothing. It says the radius of its dots, and
is asked for their size. -/
structure Settled (s : Session κ) (font : Nat) : Prop where
  fontSize : ∃ n, (s.call font .fontSize).2.result = .ok (.integer n) ∧ (s.call font (.setFontSize n)).1 = s
  dotSize : ∃ n, (s.call font .dotRadius).2.result = .ok (.integer n) ∧
    (s.call font (.setDotSize (n + 1))).1 = s
  strokeWidth : ∃ n, (s.call font .strokeWidth).2.result = .ok (.integer n) ∧
    (s.call font (.setStrokeWidth n)).1 = s
  lineSpacing : ∃ x, (s.call font .lineSpacing).2.result = .ok (.number x) ∧
    (s.call font (.setLineSpacing x)).1 = s

theorem changeSettings_of_fixed {font : Nat} (change : Settings → Settings)
    (h : change (s.settingsOf font) = s.settingsOf font) : s.changeSettings font change = s := by
  rw [changeSettings, h, settingsOf, Table.assign_self]

theorem settled_of_clamped {font : Nat} (h : (s.settingsOf font).Clamped) : s.Settled font where
  fontSize := ⟨_, rfl, changeSettings_of_fixed (·.setFontSize _) h.setFontSize_self⟩
  dotSize := ⟨_, rfl, changeSettings_of_fixed (·.setDotSize _) h.setDotSize_self⟩
  strokeWidth := ⟨_, rfl, changeSettings_of_fixed (·.setStrokeWidth _) h.setStrokeWidth_self⟩
  lineSpacing := ⟨_, rfl, changeSettings_of_fixed (·.setLineSpacing _) rfl⟩

/-- Each setting is what it was last asked to be, by whatever way, and raised to its least value; when nobody
asked it is what it was. So the sizes are never below their least values, and a font that is asked for what it
says changes nothing. -/
theorem settings_follow_last_requests (s : Session κ) {name : Nat} (hbuilt : (s.settings name).Built)
    (events : List (Event κ)) :
    let requests := events.filterMap (Event.request? s name)
    let before := s.settings name
    let after := events.foldl perform s
    let now := after.settings name
    now.fontSize = ((requests.filterMap (·.fontSize?)).getLast?.map (max 8)).getD before.fontSize ∧
      now.dotRadius =
        ((requests.filterMap (·.dotSize?)).getLast?.map fun size => max 0 (size - 1)).getD before.dotRadius ∧
      now.strokeWidth = ((requests.filterMap (·.strokeWidth?)).getLast?.map (max 1)).getD before.strokeWidth ∧
      now.lineSpacing = (requests.filterMap (·.lineSpacing?)).getLast?.getD before.lineSpacing ∧
      8 ≤ now.fontSize ∧ 0 ≤ now.dotRadius ∧ 1 ≤ now.strokeWidth ∧
      ∀ font, (s.fonts font).settings = name → after.Settled font := by
  intro requests before after now
  have hnow : now = requests.foldl Settings.Request.apply before := settings_foldl_perform s events name
  have hclamped : now.Clamped := hnow ▸ hbuilt.clamped.foldl_apply requests
  refine ⟨?_, ?_, ?_, ?_, hclamped.fontSize, hclamped.dotRadius, hclamped.strokeWidth, ?_⟩
  · rw [hnow, Settings.Request.fontSize_foldl]
    rfl
  · rw [hnow, Settings.Request.dotRadius_foldl]
    rfl
  · rw [hnow, Settings.Request.strokeWidth_foldl]
    rfl
  · rw [hnow, Settings.Request.lineSpacing_foldl]
  · rintro font rfl
    apply settled_of_clamped
    rwa [settingsOf, settingsName_foldl_perform]

def sharedEvents : List (Event Unit) :=
  [.call 2 (.setFontSize 3), .request 0 (.dotSize 9), .call 0 (.setFontSize 30), .call 1 (.setFontSize 40),
    .call 2 (.setStrokeWidth (-4)), .request 1 (.lineSpacing .nan), .call 2 (.setDotSize 3),
    .call 0 (.setPainter .unusable none), .request 1 (.dotSize 7)]

theorem settings_follow_last_requests_shared :
    (threeFonts.settings 0).Built ∧
      let after := sharedEvents.foldl perform threeFonts
      let now := after.settings 0
      now.fontSize = 30 ∧ now.dotRadius = 2 ∧ now.strokeWidth = 1 ∧
        now.lineSpacing = Settings.defaultLineSpacing ∧ after.Settled 0 ∧ after.Settled 2 := by
  have hbuilt : (threeFonts.settings 0).Built := .values _ _ _ _
  obtain ⟨hsize, hradius, hwidth, hspacing, -, -, -, hfonts⟩ :=
    settings_follow_last_requests threeFonts hbuilt sharedEvents
  exact ⟨hbuilt, hsize.trans (by decide), hradius.trans (by decide), hwidth.trans (by decide),
    hspacing, hfonts 0 rfl, hfonts 2 rfl⟩

end Session

end StrokeFont
