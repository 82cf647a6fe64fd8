import Mathlib.Algebra.BigOperators.Ring.Finset
import Mathlib.Data.Int.ConditionallyCompleteOrder
import Mathlib.Data.Int.Interval
import Mathlib.Data.Int.Order.Lemmas
import Mathlib.Data.Int.Range
import Mathlib.Data.List.Sort
import StrokeFont.Proofs.Raster

namespace StrokeFont

def Point.squareSymmetries : List (Point → Point) :=
  [fun p => p, fun p => ⟨-p.y, p.x⟩, fun p => ⟨-p.x, -p.y⟩, fun p => ⟨p.y, -p.x⟩,
    fun p => ⟨-p.x, p.y⟩, fun p => ⟨p.x, -p.y⟩, fun p => ⟨p.y, p.x⟩, fun p => ⟨-p.y, -p.x⟩]

namespace Raster

section Range

variable {a b c d : Int}

theorem pairwise_lt_range (a b : Int) : (Int.range a b).Pairwise (· < ·) := by
  rw [Int.range, List.pairwise_map]
  apply List.pairwise_lt_range.imp
  intro k l h
  omega

theorem length_range (a b : Int) : (Int.range a b).length = (b - a).toNat := by
  rw [Int.range, List.length_map, List.length_range]

theorem filter_range {p : Int → Bool} (hc : a ≤ c) (hd : d ≤ b) (hp : ∀ n, p n = true ↔ c ≤ n ∧ n < d) :
    (Int.range a b).filter p = Int.range c d := by
  apply ((pairwise_lt_range a b).filter p).eq_of_mem_iff (pairwise_lt_range c d)
  intro n
  rw [List.mem_filter, Int.mem_range_iff, Int.mem_range_iff, hp]
  omega

theorem offsets_eq_range (radius : Int) : offsets radius = Int.range (-radius) (radius + 1) := by
  rw [offsets, Int.range, show radius + 1 - -radius = 2 * radius + 1 by omega]
  apply List.map_congr_left
  intro k _
  omega

end Range

section Disc

variable {center offset pixel : Point} {radius dx dy : Int}

/-- How far a disc reaches to both sides of its center line, in the row at a distance from it. -/
def reach (radius dy : Int) : Int := Int.sqrt (radius ^ 2 - dy ^ 2)

def row (center : Point) (radius dy : Int) : List Point :=
  (Int.range (-reach radius dy) (reach radius dy + 1)).map fun dx => ⟨center.x + dx, center.y + dy⟩

theorem reach_le (h : 0 ≤ radius) : reach radius dy ≤ radius := by
  calc reach radius dy ≤ Int.sqrt (radius * radius) := by
        apply Int.ofNat_le.2
        apply Nat.sqrt_le_sqrt
        apply Int.toNat_le_toNat
        nlinarith
    _ = radius := by rw [Int.sqrt_eq, Int.natAbs_of_nonneg h]

theorem inside_iff (h : dy ^ 2 ≤ radius ^ 2) :
    dx * dx + dy * dy ≤ radius * radius ↔ -reach radius dy ≤ dx ∧ dx < reach radius dy + 1 := by
  rw [Int.lt_add_one_iff, ← abs_le, reach, Int.abs_le_sqrt (by omega)]
  constructor
  · intro h
    nlinarith
  · intro h
    nlinarith

theorem dot_eq_rows (center : Point) (radius : Int) :
    dot center radius = (Int.range (-radius) (radius + 1)).flatMap (row center radius) := by
  rw [dot, offsets_eq_range]
  apply List.flatMap_congr
  intro dy hdy
  rw [Int.mem_range_iff] at hdy
  have hsq : dy ^ 2 ≤ radius ^ 2 := sq_le_sq' hdy.1 (by omega)
  have hreach : reach radius dy ≤ radius := reach_le (by omega)
  rw [filter_range (c := -reach radius dy) (d := reach radius dy + 1) (by omega) (by omega)]
  · rfl
  · intro dx
    rw [decide_eq_true_eq, inside_iff hsq]

theorem pairwise_row (center : Point) (radius dy : Int) : (row center radius dy).Pairwise (· ≠ ·) := by
  rw [row, List.pairwise_map]
  apply (pairwise_lt_range _ _).imp
  intro dx dx' hlt heq
  have hx := congrArg Point.x heq
  simp only at hx
  omega

theorem y_of_mem_row (h : pixel ∈ row center radius dy) : pixel.y = center.y + dy := by
  obtain ⟨dx, -, rfl⟩ := List.mem_map.1 h
  rfl

theorem nodup_dot (center : Point) (radius : Int) : (dot center radius).Nodup := by
  rw [dot_eq_rows, List.nodup_flatMap]
  refine ⟨fun dy _ => pairwise_row center radius dy, (pairwise_lt_range _ _).imp ?_⟩
  intro dy dy' hlt pixel hpixel hpixel'
  have hy := y_of_mem_row hpixel
  have hy' := y_of_mem_row hpixel'
  omega

theorem length_row (center : Point) (radius dy : Int) :
    ((row center radius dy).length : Int) = 2 * reach radius dy + 1 := by
  have hreach : 0 ≤ reach radius dy := Int.sqrt_nonneg _
  rw [row, List.length_map, length_range, Int.toNat_of_nonneg (by omega)]
  omega

theorem length_dot (center : Point) (radius : Int) :
    ((dot center radius).length : Int) =
      ∑ dy ∈ Finset.Icc (-radius) radius, (2 * reach radius dy + 1) := by
  have hnodup : (Int.range (-radius) (radius + 1)).Nodup := (pairwise_lt_range _ _).imp (by omega)
  have hfinset : (Int.range (-radius) (radius + 1)).toFinset = Finset.Icc (-radius) radius := by
    ext dy
    rw [List.mem_toFinset, Int.mem_range_iff, Finset.mem_Icc]
    omega
  rw [← hfinset, List.sum_toFinset _ hnodup, dot_eq_rows, List.length_flatMap, Nat.cast_list_sum,
    List.map_map]
  simp only [Function.comp_def, length_row]

theorem mem_dot : pixel ∈ dot center radius ↔
    0 ≤ radius ∧ (pixel.x - center.x) ^ 2 + (pixel.y - center.y) ^ 2 ≤ radius ^ 2 := by
  simp only [dot, offsets_eq_range, List.mem_flatMap, List.mem_map, List.mem_filter, Int.mem_range_iff,
    decide_eq_true_eq]
  constructor
  · rintro ⟨dy, hdy, dx, ⟨-, hle⟩, rfl⟩
    simp only [Point.add_x, Point.add_y, add_sub_cancel_left]
    exact ⟨by omega, by nlinarith⟩
  · rintro ⟨h, hle⟩
    have hx : |pixel.x - center.x| ≤ radius := by
      apply abs_le_of_sq_le_sq _ h
      linarith [sq_nonneg (pixel.y - center.y)]
    have hy : |pixel.y - center.y| ≤ radius := by
      apply abs_le_of_sq_le_sq _ h
      linarith [sq_nonneg (pixel.x - center.x)]
    rw [abs_le] at hx hy
    refine ⟨pixel.y - center.y, by omega, pixel.x - center.x, ⟨by omega, by nlinarith⟩, ?_⟩
    exact congrArg₂ Point.mk (add_sub_cancel _ _) (add_sub_cancel _ _)

theorem dot_eq_nil_iff : dot center radius = [] ↔ radius < 0 := by
  rw [List.eq_nil_iff_forall_not_mem]
  constructor
  · intro h
    by_contra hradius
    apply h center
    rw [mem_dot, sub_self, sub_self]
    exact ⟨by omega, by nlinarith⟩
  · intro h pixel hpixel
    have hradius := (mem_dot.1 hpixel).1
    omega

theorem sq_add_sq_symmetry {symmetry : Point → Point} (h : symmetry ∈ Point.squareSymmetries) (p : Point) :
    (symmetry p).x ^ 2 + (symmetry p).y ^ 2 = p.x ^ 2 + p.y ^ 2 := by
  simp only [Point.squareSymmetries, List.mem_cons, List.not_mem_nil, or_false] at h
  rcases h with rfl | rfl | rfl | rfl | rfl | rfl | rfl | rfl <;> ring

theorem symmetry_mem_dot {symmetry : Point → Point} (h : symmetry ∈ Point.squareSymmetries) :
    center + symmetry offset ∈ dot center radius ↔ center + offset ∈ dot center radius := by
  simp only [mem_dot, Point.add_x, Point.add_y, add_sub_cancel_left, sq_add_sq_symmetry h]

theorem dot_subset (center : Point) (radius : Int) : dot center radius ⊆ dot center (radius + 1) := by
  intro pixel hpixel
  rw [mem_dot] at hpixel ⊢
  exact ⟨by omega, by nlinarith⟩

/-- A dot is painted row by row from the top, each row from the left and as far to both sides as the
square root allows. No pixel is painted twice, and none at all for a negative radius. The disc looks
the same from all sides of a square, and lies in the disc of the next radius. -/
theorem dot_is_disc (center : Point) (radius : Int) :
    (dot center radius = [] ↔ radius < 0) ∧
    (dot center radius = (Int.range (-radius) (radius + 1)).flatMap fun dy =>
      (Int.range (-Int.sqrt (radius ^ 2 - dy ^ 2)) (Int.sqrt (radius ^ 2 - dy ^ 2) + 1)).map fun dx =>
        ⟨center.x + dx, center.y + dy⟩) ∧
    (dot center radius).Nodup ∧
    ((dot center radius).length : Int) =
      ∑ dy ∈ Finset.Icc (-radius) radius, (2 * Int.sqrt (radius ^ 2 - dy ^ 2) + 1) ∧
    (∀ symmetry ∈ Point.squareSymmetries, ∀ offset,
      center + symmetry offset ∈ dot center radius ↔ center + offset ∈ dot center radius) ∧
    dot center radius ⊆ dot center (radius + 1) := by
  refine ⟨dot_eq_nil_iff, dot_eq_rows center radius, nodup_dot center radius, length_dot center radius,
    ?_, dot_subset center radius⟩
  intro symmetry hsymmetry offset
  exact symmetry_mem_dot hsymmetry

example : (dot ⟨0, 0⟩ 5).length = 81 ∧ ⟨4, 3⟩ ∈ dot ⟨0, 0⟩ 5 ∧ ⟨4, 4⟩ ∉ dot ⟨0, 0⟩ 5 := by decide

end Disc

end Raster

end StrokeFont
