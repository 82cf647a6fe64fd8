import StrokeFont.Proofs.Raster.Midpoint

namespace StrokeFont.Raster

section Pen

variable {width width' : Int} {start finish pixel : Point}

def mark (width : Int) (pixel : Point) : List Point :=
  if 1 < width then block width pixel else [pixel]

theorem line_eq_marks (width : Int) (start finish : Point) :
    line width start finish = (thinLine start finish).flatMap (mark width) := by
  by_cases h : 1 < width
  · have hmark : mark width = block width := funext fun pixel => if_pos h
    rw [hmark, line_eq_blocks h.le]
  · have hmark : mark width = fun pixel => [pixel] := funext fun pixel => if_neg h
    rw [hmark, List.flatMap_singleton', line_of_le_one (not_lt.1 h)]

theorem corner_mem_block (h : 1 ≤ width) (corner : Point) : corner ∈ block width corner := by
  have hheight := blockHeight_pos h
  rw [mem_block]
  omega

theorem mem_line (h : 1 ≤ width) : pixel ∈ line width start finish ↔
    ∃ k ≤ span start finish, pixel ∈ block width (midpoint start finish k) := by
  rw [line_eq_blocks h, List.mem_flatMap]
  constructor
  · rintro ⟨corner, hcorner, hpixel⟩
    obtain ⟨k, hk, rfl⟩ := mem_thinLine.1 hcorner
    exact ⟨k, hk, hpixel⟩
  · rintro ⟨k, hk, hpixel⟩
    exact ⟨_, mem_thinLine.2 ⟨k, hk, rfl⟩, hpixel⟩

theorem start_mem_line (h : 1 ≤ width) (start finish : Point) : start ∈ line width start finish := by
  rw [mem_line h]
  refine ⟨0, Nat.zero_le _, ?_⟩
  rw [midpoint_zero]
  exact corner_mem_block h start

theorem finish_mem_line (h : 1 ≤ width) (start finish : Point) : finish ∈ line width start finish := by
  rw [mem_line h]
  refine ⟨span start finish, le_rfl, ?_⟩
  rw [midpoint_span]
  exact corner_mem_block h finish

theorem block_subset (h : width ≤ width') (corner : Point) : block width corner ⊆ block width' corner := by
  intro pixel hpixel
  rw [mem_block] at hpixel ⊢
  simp only [blockHeight] at hpixel ⊢
  omega

theorem line_subset (h : 1 ≤ width) (hle : width ≤ width') (start finish : Point) :
    line width start finish ⊆ line width' start finish := by
  intro pixel hpixel
  obtain ⟨k, hk, hpixel⟩ := (mem_line h).1 hpixel
  exact (mem_line (h.trans hle)).2 ⟨k, hk, block_subset hle _ hpixel⟩

end Pen

namespace Course

/-- The walk with a pen. Before each test for the end the pen leaves its mark. -/
inductive Paints (c : Course) (width : Int) : Point → Int → List Point → Prop
  | finish {error : Int} : Paints c width c.finish error (mark width c.finish)
  | step {pixel : Point} {error : Int} {painted : List Point} (hne : pixel ≠ c.finish)
      (rest : Paints c width (c.step pixel error).1 (c.step pixel error).2 painted) :
      Paints c width pixel error (mark width pixel ++ painted)

variable {c : Course} {width : Int} {pixel : Point} {error : Int}

theorem Arrives.paints {pixels : List Point} (h : c.Arrives pixel error pixels) :
    c.Paints width pixel error (pixels.flatMap (mark width)) := by
  induction h with
  | finish =>
      rw [List.flatMap_singleton]
      exact .finish
  | step hne rest ih =>
      rw [List.flatMap_cons]
      exact .step hne ih

theorem Paints.exists_arrives {painted : List Point} (h : c.Paints width pixel error painted) :
    ∃ pixels, c.Arrives pixel error pixels ∧ painted = pixels.flatMap (mark width) := by
  induction h with
  | finish => exact ⟨_, .finish, (List.flatMap_singleton _ _).symm⟩
  | step hne rest ih =>
      obtain ⟨pixels, hpixels, rfl⟩ := ih
      exact ⟨_, .step hne hpixels, (List.flatMap_cons ..).symm⟩

end Course

theorem paints_iff (width : Int) (start finish : Point) (painted : List Point) :
    (Course.between start finish).Paints width start
        ((Course.between start finish).dx + (Course.between start finish).dy) painted ↔
      painted = line width start finish := by
  have harrives := Course.arrives_midpoints start finish
  rw [← thinLine_eq] at harrives
  rw [line_eq_marks]
  constructor
  · intro h
    obtain ⟨pixels, hpixels, rfl⟩ := h.exists_arrives
    rw [hpixels.unique harrives]
  · rintro rfl
    exact harrives.paints

/-- A pen of any width walks the thin line. Each of its pixels becomes a block of the width, and of a
height that grows with every other width, column by column; up to width 1 it stays as it is. What a pen
paints is also painted by every wider one. -/
theorem stroke_is_dilated_line (start finish : Point) :
    (∀ width painted, (Course.between start finish).Paints width start
        ((Course.between start finish).dx + (Course.between start finish).dy) painted ↔
      painted = line width start finish) ∧
    (∀ width ≥ 1, line width start finish = (line 1 start finish).flatMap fun corner =>
      (List.range width.toNat).flatMap fun i =>
        (List.range ((width + 2) / 2).toNat).map fun j => corner + ⟨i, j⟩) ∧
    (∀ width ≤ 1, line width start finish = line 1 start finish) ∧
    ∀ width width', 1 ≤ width → width ≤ width' → line width start finish ⊆ line width' start finish := by
  refine ⟨?_, ?_, ?_, ?_⟩
  · intro width painted
    exact paints_iff width start finish painted
  · intro width hwidth
    rw [line_of_le_one le_rfl]
    exact line_eq_blocks hwidth start finish
  · intro width hwidth
    rw [line_of_le_one hwidth, line_of_le_one le_rfl]
  · intro width width' hwidth hle
    exact line_subset hwidth hle start finish

example : line 3 ⟨5, 7⟩ ⟨5, 7⟩ = [⟨5, 7⟩, ⟨5, 8⟩, ⟨6, 7⟩, ⟨6, 8⟩, ⟨7, 7⟩, ⟨7, 8⟩] := by decide

end StrokeFont.Raster
