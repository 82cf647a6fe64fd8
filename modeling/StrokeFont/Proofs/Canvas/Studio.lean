import StrokeFont.Canvas.Painter
import StrokeFont.Proofs.Canvas.Order

namespace StrokeFont

def Painter.brush? : Painter → Option (Nat × Color)
  | recorder => none
  | canvas name pen _ _ => some (name, pen)

theorem Painter.canvas?_eq (painter : Painter) : painter.canvas? = painter.brush?.map (·.1) := by
  cases painter <;> rfl

namespace Studio

variable {studio other : Studio} {c name : Nat}

theorem canvas?_paint (studio : Studio) (name : Nat) (points : List Point) (n : Nat) :
    ((studio.paint name points).painters n).canvas? = (studio.painters n).canvas? := by
  unfold paint
  split
  · rfl
  · rename_i hname
    by_cases hn : n = name
    · rw [hn, hname]
      simp only [Table.assign_same, Painter.canvas?]
    · simp only [Table.assign_of_ne _ _ hn]

@[simp] theorem paint_nil (studio : Studio) (name : Nat) : studio.paint name [] = studio := by
  unfold paint
  split
  · rfl
  · rename_i hname
    simp only [CanvasPainter.paintAll_nil, ← hname, Table.assign_self]

theorem brush?_paint (studio : Studio) (name : Nat) (points : List Point) (n : Nat) :
    ((studio.paint name points).painters n).brush? = (studio.painters n).brush? := by
  unfold paint
  split
  · rfl
  · rename_i hname
    by_cases hn : n = name
    · rw [hn, hname]
      simp only [Table.assign_same, Painter.brush?]
    · simp only [Table.assign_of_ne _ _ hn]

theorem get?_paint {pen : Color} (h : (studio.painters name).brush? = some (c, pen)) (points : List Point)
    (p : Point) :
    ((studio.paint name points).canvases c).get? p =
      ((studio.canvases c).get? p).map pen.cover^[points.count p] := by
  cases hname : studio.painters name with
  | recorder =>
      rw [hname] at h
      cases h
  | canvas d color painted discarded =>
      rw [hname] at h
      cases h
      simp only [paint, hname, Table.assign_same, CanvasPainter.get?_paintAll]

theorem get?_paint_of_not_mem {points : List Point} {p : Point}
    (h : (studio.painters name).canvas? = some c → p ∉ points) :
    ((studio.paint name points).canvases c).get? p = (studio.canvases c).get? p := by
  cases hname : studio.painters name with
  | recorder => simp only [paint, hname]
  | canvas d pen painted discarded =>
      by_cases hc : c = d
      · have hp : p ∉ points := h (by rw [hname, hc]; rfl)
        have hbrush : (studio.painters name).brush? = some (c, pen) := by rw [hname, hc]; rfl
        rw [get?_paint hbrush, List.count_eq_zero.2 hp, Function.iterate_zero, Option.map_id, id]
      · simp only [paint, hname, Table.assign_of_ne _ _ hc]

/-- Two studios agree on a canvas when it looks the same in both, and so do the painters on it. Other
canvases may differ, but not where somebody paints. -/
structure Agree (c : Nat) (studio other : Studio) : Prop where
  places : ∀ n, (studio.painters n).canvas? = (other.painters n).canvas?
  canvas : studio.canvases c = other.canvases c
  painters : ∀ n, (studio.painters n).canvas? = some c → studio.painters n = other.painters n

namespace Agree

theorem refl (c : Nat) (studio : Studio) : Agree c studio studio :=
  ⟨fun _ => rfl, rfl, fun _ _ => rfl⟩

theorem symm (h : Agree c studio other) : Agree c other studio := by
  refine ⟨fun n => (h.places n).symm, h.canvas.symm, ?_⟩
  intro n hn
  exact (h.painters n ((h.places n).trans hn)).symm

theorem paint_left (h : Agree c studio other) (hname : (studio.painters name).canvas? ≠ some c)
    (points : List Point) : Agree c (studio.paint name points) other := by
  have hplaces : ∀ n, ((studio.paint name points).painters n).canvas? = (other.painters n).canvas? :=
    fun n => (canvas?_paint studio name points n).trans (h.places n)
  unfold paint at hplaces ⊢
  split
  · exact h
  · rename_i d pen painted discarded hbrush
    simp only [hbrush] at hplaces
    rw [hbrush, Painter.canvas?] at hname
    have hcanvas : c ≠ d := fun heq => hname (congrArg some heq.symm)
    refine ⟨hplaces, ?_, ?_⟩
    · simp only [Table.assign_of_ne _ _ hcanvas]
      exact h.canvas
    · intro n hn
      have hne : n ≠ name := by
        intro heq
        simp only [heq, Table.assign_same, Painter.canvas?] at hn
        exact hname hn
      simp only [Table.assign_of_ne _ _ hne] at hn ⊢
      exact h.painters n hn

theorem paint (h : Agree c studio other) (name : Nat) (points : List Point) :
    Agree c (studio.paint name points) (other.paint name points) := by
  by_cases hname : (studio.painters name).canvas? = some c
  · have hplaces : ∀ n, ((studio.paint name points).painters n).canvas? =
        ((other.paint name points).painters n).canvas? := by
      intro n
      rw [canvas?_paint, canvas?_paint]
      exact h.places n
    have hsame := h.painters name hname
    cases hbrush : studio.painters name with
    | recorder => rw [hbrush] at hname; cases hname
    | canvas d pen painted discarded =>
        have hbrush' : other.painters name = .canvas d pen painted discarded := hsame ▸ hbrush
        obtain rfl : d = c := by simpa only [hbrush, Painter.canvas?, Option.some.injEq] using hname
        -- The painter sees the same canvas on both sides.
        simp only [Studio.paint, hbrush, hbrush', h.canvas] at hplaces ⊢
        refine ⟨hplaces, ?_, ?_⟩
        · simp only [Table.assign_same]
        · intro n hn
          by_cases hne : n = name
          · simp only [hne, Table.assign_same]
          · simp only [Table.assign_of_ne _ _ hne] at hn ⊢
            exact h.painters n hn
  · have hleft := h.paint_left hname points
    have hname' : (other.painters name).canvas? ≠ some c := h.places name ▸ hname
    exact (hleft.symm.paint_left hname' points).symm

end Agree

/-- Two studios agree on one pixel of a canvas, and everybody paints with the same pen on the same canvas. -/
structure AgreeAt (c : Nat) (p : Point) (studio other : Studio) : Prop where
  brushes : ∀ n, (studio.painters n).brush? = (other.painters n).brush?
  pixel : (studio.canvases c).get? p = (other.canvases c).get? p

namespace AgreeAt

variable {p : Point} {points : List Point}

theorem refl (c : Nat) (p : Point) (studio : Studio) : AgreeAt c p studio studio := ⟨fun _ => rfl, rfl⟩

theorem paint_left (h : AgreeAt c p studio other) (hp : (studio.painters name).canvas? = some c → p ∉ points) :
    AgreeAt c p (studio.paint name points) other :=
  ⟨fun n => (brush?_paint studio name points n).trans (h.brushes n), (get?_paint_of_not_mem hp).trans h.pixel⟩

theorem paint (h : AgreeAt c p studio other) (name : Nat) (points : List Point) :
    AgreeAt c p (studio.paint name points) (other.paint name points) := by
  refine ⟨fun n => by rw [brush?_paint, brush?_paint, h.brushes n], ?_⟩
  have hcanvas : (studio.painters name).canvas? = (other.painters name).canvas? := by
    rw [Painter.canvas?_eq, Painter.canvas?_eq, h.brushes]
  by_cases hname : (studio.painters name).canvas? = some c
  · obtain ⟨⟨d, pen⟩, hbrush, rfl⟩ := Option.map_eq_some_iff.1 ((Painter.canvas?_eq _).symm.trans hname)
    rw [get?_paint hbrush, get?_paint ((h.brushes name).symm.trans hbrush), h.pixel]
  · rw [get?_paint_of_not_mem fun heq => absurd heq hname,
      get?_paint_of_not_mem fun heq => absurd (hcanvas.trans heq) hname, h.pixel]

end AgreeAt

end Studio

end StrokeFont
