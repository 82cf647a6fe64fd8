import StrokeFont.Canvas.Basic
import StrokeFont.Table

namespace StrokeFont

structure CanvasPainter where
  canvas : Canvas
  pen : Color
  painted : Nat
  discarded : Nat

namespace CanvasPainter

def new (canvas : Canvas) (pen : Color) : CanvasPainter := ⟨canvas, pen, 0, 0⟩

def paint (painter : CanvasPainter) (p : Point) : CanvasPainter :=
  if painter.canvas.contains p then
    { painter with
      canvas := painter.canvas.modify p painter.pen.cover
      painted := painter.painted + 1 }
  else { painter with discarded := painter.discarded + 1 }

def paintAll (painter : CanvasPainter) (points : List Point) : CanvasPainter :=
  points.foldl paint painter

@[simp] theorem paintAll_nil (painter : CanvasPainter) : painter.paintAll [] = painter := rfl

@[simp] theorem paintAll_cons (painter : CanvasPainter) (p : Point) (points : List Point) :
    painter.paintAll (p :: points) = (painter.paint p).paintAll points := rfl

end CanvasPainter

/-- A painter only records its calls, or also paints on the canvas of a name. -/
inductive Painter where
  | recorder
  | canvas (name : Nat) (pen : Color) (painted discarded : Nat)

def Painter.canvas? : Painter → Option Nat
  | recorder => none
  | canvas name _ _ _ => some name

structure Studio where
  painters : Table Painter
  canvases : Table Canvas

namespace Studio

def canvasPainter? (studio : Studio) (name : Nat) : Option CanvasPainter :=
  match studio.painters name with
  | .recorder => none
  | .canvas c pen painted discarded => some ⟨studio.canvases c, pen, painted, discarded⟩

/-- Hands points to a painter. Other painters on its canvas see what it painted, but count nothing. -/
def paint (studio : Studio) (name : Nat) (points : List Point) : Studio :=
  match studio.painters name with
  | .recorder => studio
  | .canvas c pen painted discarded =>
      let after := CanvasPainter.paintAll ⟨studio.canvases c, pen, painted, discarded⟩ points
      { painters := studio.painters.assign name (.canvas c pen after.painted after.discarded)
        canvases := studio.canvases.assign c after.canvas }

end Studio

end StrokeFont
