import Mathlib.Tactic.Linarith
import Mathlib.Tactic.Ring
import StrokeFont.Raster

namespace StrokeFont

theorem Point.add_zero (p : Point) : p + ⟨0, 0⟩ = p := by
  obtain ⟨x, y⟩ := p
  exact congrArg₂ Point.mk (Int.add_zero x) (Int.add_zero y)

structure Point.Within (p low high : Point) : Prop where
  left : low.x ≤ p.x
  right : p.x ≤ high.x
  top : low.y ≤ p.y
  bottom : p.y ≤ high.y

namespace Raster

theorem towards_end (start finish : Int) :
    start + (finish - start).natAbs * (if start < finish then 1 else -1) = finish := by
  split <;> omega

theorem towards_bounds {start finish low high : Int} {i : Nat} (hi : i ≤ (finish - start).natAbs)
    (hstart : low ≤ start ∧ start ≤ high) (hfinish : low ≤ finish ∧ finish ≤ high) :
    low ≤ start + i * (if start < finish then 1 else -1) ∧
      start + i * (if start < finish then 1 else -1) ≤ high := by
  split <;> omega

namespace Course

/-- After `i` moves sideways and `j` moves up or down. The error term is determined by these two
counts, and neither exceeds the extent of the line. -/
structure Reaches (start finish : Point) (i j : Nat) (pixel : Point) (error : Int) : Prop where
  columns : i ≤ (finish.x - start.x).natAbs
  rows : j ≤ (finish.y - start.y).natAbs
  x_eq : pixel.x = start.x + i * (between start finish).sx
  y_eq : pixel.y = start.y + j * (between start finish).sy
  error_eq : error = (j + 1) * (between start finish).dx + (i + 1) * (between start finish).dy

variable {start finish pixel : Point} {i j : Nat} {error : Int}

theorem reaches_start (start finish : Point) :
    Reaches start finish 0 0 start ((between start finish).dx + (between start finish).dy) := by
  constructor <;> simp

theorem Reaches.within {low high : Point} (h : Reaches start finish i j pixel error)
    (hstart : start.Within low high) (hfinish : finish.Within low high) : pixel.Within low high := by
  obtain ⟨hleft, hright⟩ :=
    towards_bounds h.columns ⟨hstart.left, hstart.right⟩ ⟨hfinish.left, hfinish.right⟩
  obtain ⟨htop, hbottom⟩ :=
    towards_bounds h.rows ⟨hstart.top, hstart.bottom⟩ ⟨hfinish.top, hfinish.bottom⟩
  have hx := h.x_eq
  have hy := h.y_eq
  simp only [between] at hx hy
  constructor <;> omega

theorem Reaches.eq_finish (h : Reaches start finish i j pixel error)
    (hi : i = (finish.x - start.x).natAbs) (hj : j = (finish.y - start.y).natAbs) : pixel = finish := by
  have hx := h.x_eq
  have hy := h.y_eq
  rw [hi] at hx
  rw [hj] at hy
  rw [show pixel = ⟨pixel.x, pixel.y⟩ from rfl, hx, hy]
  simp only [between, towards_end]

theorem Reaches.columns_lt (h : Reaches start finish i j pixel error) (hne : pixel ≠ finish)
    (hmove : 2 * error > (between start finish).dy) : i < (finish.x - start.x).natAbs := by
  -- With no columns left, all moves that are left are vertical, and the error term shows it.
  refine lt_of_le_of_ne h.columns fun hi => ?_
  have hj : j < (finish.y - start.y).natAbs :=
    lt_of_le_of_ne h.rows fun hj => hne (h.eq_finish hi hj)
  have herror := h.error_eq
  simp only [between] at hmove herror
  have hcolumns : ((j : Int) + 1) * (finish.x - start.x).natAbs ≤
      (finish.y - start.y).natAbs * (finish.x - start.x).natAbs := by
    gcongr
    exact_mod_cast hj
  rw [hi] at herror
  nlinarith

theorem Reaches.rows_lt (h : Reaches start finish i j pixel error) (hne : pixel ≠ finish)
    (hmove : 2 * error < (between start finish).dx) : j < (finish.y - start.y).natAbs := by
  refine lt_of_le_of_ne h.rows fun hj => ?_
  have hi : i < (finish.x - start.x).natAbs :=
    lt_of_le_of_ne h.columns fun hi => hne (h.eq_finish hi hj)
  have herror := h.error_eq
  simp only [between] at hmove herror
  have hrows : ((i : Int) + 1) * (finish.y - start.y).natAbs ≤
      (finish.x - start.x).natAbs * (finish.y - start.y).natAbs := by
    gcongr
    exact_mod_cast hi
  rw [hj] at herror
  nlinarith

theorem Reaches.step (h : Reaches start finish i j pixel error) (hne : pixel ≠ finish) :
    Reaches start finish (if 2 * error > (between start finish).dy then i + 1 else i)
      (if 2 * error < (between start finish).dx then j + 1 else j)
      ((between start finish).step pixel error).1 ((between start finish).step pixel error).2 := by
  constructor
  · split
    · exact h.columns_lt hne (by assumption)
    · exact h.columns
  · split
    · exact h.rows_lt hne (by assumption)
    · exact h.rows
  · simp only [Course.step, h.x_eq]
    split <;> push_cast <;> ring
  · simp only [Course.step, h.y_eq]
    split <;> push_cast <;> ring
  · have herror := h.error_eq
    simp only [Course.step]
    split <;> split <;> push_cast <;> linarith

theorem Reaches.walk (h : Reaches start finish i j pixel error) (steps : Nat) :
    ∀ p ∈ (between start finish).walk steps pixel error, ∃ i' j' e, Reaches start finish i' j' p e := by
  induction steps generalizing i j pixel error with
  | zero =>
      intro p hp
      obtain rfl := List.mem_singleton.1 hp
      exact ⟨i, j, error, h⟩
  | succ steps ih =>
      intro p hp
      rw [Course.walk] at hp
      split at hp
      · obtain rfl := List.mem_singleton.1 hp
        exact ⟨i, j, error, h⟩
      · rename_i hne
        rcases List.mem_cons.1 hp with rfl | hp
        · exact ⟨i, j, error, h⟩
        · exact ih (h.step hne) p hp

end Course

theorem thinLine_within {start finish low high : Point} (hstart : start.Within low high)
    (hfinish : finish.Within low high) : ∀ p ∈ thinLine start finish, p.Within low high := by
  intro p hp
  obtain ⟨i, j, e, hreaches⟩ := (Course.reaches_start start finish).walk _ p hp
  exact hreaches.within hstart hfinish

theorem blockHeight_pos {width : Int} (h : 1 ≤ width) : 1 ≤ blockHeight width := by
  simp only [blockHeight]
  omega

theorem mem_block {width : Int} {corner pixel : Point} : pixel ∈ block width corner ↔
    (corner.x ≤ pixel.x ∧ pixel.x < corner.x + width) ∧
      corner.y ≤ pixel.y ∧ pixel.y < corner.y + blockHeight width := by
  simp only [block, List.mem_flatMap, List.mem_map, List.mem_range]
  constructor
  · rintro ⟨i, hi, j, hj, rfl⟩
    simp only [Point.add_x, Point.add_y]
    omega
  · rintro ⟨hx, hy⟩
    refine ⟨(pixel.x - corner.x).toNat, by omega, (pixel.y - corner.y).toNat, by omega, ?_⟩
    rw [Int.toNat_of_nonneg (by omega), Int.toNat_of_nonneg (by omega)]
    exact congrArg₂ Point.mk (add_sub_cancel _ _) (add_sub_cancel _ _)

theorem block_one (pixel : Point) : block 1 pixel = [pixel] := by
  simp [block, blockHeight, pixel.add_zero]

theorem block_within {width : Int} {corner low high : Point} (h : corner.Within low high) :
    ∀ p ∈ block width corner, p.Within low (high + ⟨width - 1, blockHeight width - 1⟩) := by
  intro p hp
  rw [mem_block] at hp
  have hright := h.right
  have hbottom := h.bottom
  refine ⟨h.left.trans hp.1.1, ?_, h.top.trans hp.2.1, ?_⟩
  · simp only [Point.add_x]
    omega
  · simp only [Point.add_y]
    omega

theorem line_of_le_one {width : Int} (h : width ≤ 1) (start finish : Point) :
    line width start finish = thinLine start finish := if_neg (by omega)

theorem line_eq_blocks {width : Int} (h : 1 ≤ width) (start finish : Point) :
    line width start finish = (thinLine start finish).flatMap (block width) := by
  rcases h.lt_or_eq with hlt | rfl
  · exact if_pos hlt
  · rw [line_of_le_one le_rfl, funext block_one, List.flatMap_singleton']

theorem line_within {width : Int} {start finish low high : Point} (h1 : 1 ≤ width)
    (hstart : start.Within low high) (hfinish : finish.Within low high) :
    ∀ p ∈ line width start finish, p.Within low (high + ⟨width - 1, blockHeight width - 1⟩) := by
  intro p hp
  rw [line_eq_blocks h1] at hp
  obtain ⟨corner, hcorner, hp⟩ := List.mem_flatMap.1 hp
  exact block_within (thinLine_within hstart hfinish corner hcorner) p hp

theorem mem_offsets {radius n : Int} (h : n ∈ offsets radius) : -radius ≤ n ∧ n ≤ radius := by
  simp only [offsets, List.mem_map, List.mem_range] at h
  obtain ⟨k, hk, rfl⟩ := h
  omega

theorem dot_within {radius : Int} {center low high : Point} (h : center.Within low high) :
    ∀ p ∈ dot center radius, p.Within (low + ⟨-radius, -radius⟩) (high + ⟨radius, radius⟩) := by
  intro p hp
  simp only [dot, List.mem_flatMap, List.mem_map, List.mem_filter] at hp
  obtain ⟨dy, hdy, dx, ⟨hdx, -⟩, rfl⟩ := hp
  have hx := mem_offsets hdx
  have hy := mem_offsets hdy
  obtain ⟨hleft, hright, htop, hbottom⟩ := h
  constructor <;> simp only [Point.add_x, Point.add_y] <;> omega

end Raster

end StrokeFont
