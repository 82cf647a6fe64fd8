import Mathlib.Data.List.Nodup
import Mathlib.Data.List.Range
import StrokeFont.Proofs.Raster

namespace StrokeFont

def Point.Adjacent (p q : Point) : Prop := max (q.x - p.x).natAbs (q.y - p.y).natAbs = 1

namespace Raster

def span (start finish : Point) : Nat := max (finish.x - start.x).natAbs (finish.y - start.y).natAbs

/-- The whole number nearest to `short * k / long`. Of two that are equally near it is the smaller,
which is on the side of the start. -/
def across (long short k : Nat) : Nat := (2 * short * k + long - 1) / (2 * long)

def midpoint (start finish : Point) (k : Nat) : Point :=
  let a := (finish.x - start.x).natAbs
  let b := (finish.y - start.y).natAbs
  let sx := (finish.x - start.x).sign
  let sy := (finish.y - start.y).sign
  if b ≤ a then ⟨start.x + sx * k, start.y + sy * across a b k⟩
  else ⟨start.x + sx * across b a k, start.y + sy * k⟩

theorem across_eq_iff {long short k m : Nat} (h : 0 < long) :
    across long short k = m ↔
      2 * m * long < 2 * short * k + long ∧ 2 * short * k ≤ (2 * m + 1) * long := by
  have hlow : m * (2 * long) = 2 * m * long := by ring
  have hhigh : (2 * m + 1) * long = 2 * m * long + long := by ring
  rw [across, Nat.div_eq_iff (by omega), hlow, hhigh]
  omega

theorem across_bounds {long : Nat} (h : 0 < long) (short k : Nat) :
    2 * across long short k * long < 2 * short * k + long ∧
      2 * short * k ≤ (2 * across long short k + 1) * long :=
  (across_eq_iff h).1 rfl

theorem across_of_tie {long short k m : Nat} (h : 0 < long) (htie : 2 * short * k = (2 * m + 1) * long) :
    across long short k = m := by
  rw [across_eq_iff h]
  constructor <;> linarith

/-- How far a coordinate has moved after `k` pixels, for its own extent and that of the other one. -/
def progress (own other k : Nat) : Nat := if other ≤ own then k else across other own k

theorem progress_of_le {own other : Nat} (h : other ≤ own) (k : Nat) : progress own other k = k := if_pos h

theorem progress_of_lt {own other : Nat} (h : own < other) (k : Nat) :
    progress own other k = across other own k := if_neg (Nat.not_le.2 h)

theorem progress_eq_across {own other k : Nat} (h : own ≤ other) (hk : k ≤ other) :
    progress own other k = across other own k := by
  rcases h.lt_or_eq with hlt | rfl
  · exact progress_of_lt hlt k
  · rw [progress_of_le le_rfl]
    rcases Nat.eq_zero_or_pos own with rfl | hpos
    · obtain rfl : k = 0 := by omega
      rfl
    · rw [eq_comm, across_eq_iff hpos]
      constructor <;> linarith

theorem progress_zero (own other : Nat) : progress own other 0 = 0 := by
  rcases Nat.lt_or_ge own other with h | h
  · rw [progress_of_lt h, across_eq_iff (by omega)]
    omega
  · exact progress_of_le h 0

theorem progress_max (own other : Nat) : progress own other (max own other) = own := by
  rcases Nat.lt_or_ge own other with h | h
  · rw [progress_of_lt h, across_eq_iff (by omega), max_eq_right h.le]
    constructor <;> nlinarith
  · rw [progress_of_le h, max_eq_left h]

theorem progress_succ {own other k : Nat} (hk : k < max own other) :
    progress own other (k + 1) =
      if (2 * progress own other k + 1) * other < 2 * (progress other own k + 1) * own
        then progress own other k + 1 else progress own other k := by
  rcases Nat.lt_trichotomy own other with h | rfl | h
  · -- The shorter one: the test is the one that sets the nearest whole number of the next pixel.
    have hpos : 0 < other := by omega
    obtain ⟨hlow, hhigh⟩ := across_bounds hpos own k
    rw [progress_of_lt h, progress_of_lt h, progress_of_le h.le, across_eq_iff hpos]
    split
    · constructor <;> linarith
    · constructor <;> linarith
  · rw [max_self] at hk
    rw [progress_of_le le_rfl, progress_of_le le_rfl, if_pos]
    nlinarith
  · have hpos : 0 < own := by omega
    obtain ⟨hlow, hhigh⟩ := across_bounds hpos other k
    rw [progress_of_le h.le, progress_of_le h.le, progress_of_lt h, if_pos]
    linarith

theorem direction_mul {start finish : Int} {i : Nat} (hi : i ≤ (finish - start).natAbs) :
    i * (if start < finish then 1 else -1) = (finish - start).sign * i := by
  rcases Int.lt_trichotomy (finish - start) 0 with h | h | h
  · rw [if_neg (by omega), Int.sign_eq_neg_one_of_neg h]
    omega
  · obtain rfl : i = 0 := by omega
    simp
  · rw [if_pos (by omega), Int.sign_eq_one_of_pos h]
    omega

def columns (start finish : Point) (k : Nat) : Nat :=
  progress (finish.x - start.x).natAbs (finish.y - start.y).natAbs k

def rows (start finish : Point) (k : Nat) : Nat :=
  progress (finish.y - start.y).natAbs (finish.x - start.x).natAbs k

section Line

variable {start finish : Point} {k : Nat}

theorem columns_succ (hk : k < span start finish) : columns start finish (k + 1) =
    if (2 * columns start finish k + 1) * (finish.y - start.y).natAbs <
        2 * (rows start finish k + 1) * (finish.x - start.x).natAbs
      then columns start finish k + 1 else columns start finish k :=
  progress_succ hk

theorem rows_succ (hk : k < span start finish) : rows start finish (k + 1) =
    if (2 * rows start finish k + 1) * (finish.x - start.x).natAbs <
        2 * (columns start finish k + 1) * (finish.y - start.y).natAbs
      then rows start finish k + 1 else rows start finish k := by
  rw [span, max_comm] at hk
  exact progress_succ hk

theorem columns_span (start finish : Point) :
    columns start finish (span start finish) = (finish.x - start.x).natAbs :=
  progress_max _ _

theorem rows_span (start finish : Point) :
    rows start finish (span start finish) = (finish.y - start.y).natAbs := by
  rw [rows, span, max_comm]
  exact progress_max _ _

theorem columns_or_rows (start finish : Point) :
    (∀ k, columns start finish k = k) ∧ span start finish = (finish.x - start.x).natAbs ∨
      (∀ k, rows start finish k = k) ∧ span start finish = (finish.y - start.y).natAbs := by
  rcases Nat.le_total (finish.y - start.y).natAbs (finish.x - start.x).natAbs with h | h
  · exact .inl ⟨progress_of_le h, max_eq_left h⟩
  · exact .inr ⟨progress_of_le h, max_eq_right h⟩

theorem midpoint_eq (hk : k ≤ span start finish) :
    midpoint start finish k = ⟨start.x + (finish.x - start.x).sign * columns start finish k,
      start.y + (finish.y - start.y).sign * rows start finish k⟩ := by
  rw [span] at hk
  simp only [midpoint, columns, rows]
  split
  · rename_i h
    rw [progress_of_le h, progress_eq_across h (by omega)]
  · rename_i h
    rw [progress_of_lt (by omega), progress_of_le (by omega)]

end Line

namespace Course

/-- The walk without a bound on its steps. It ends at the end of the line and nowhere else. -/
inductive Arrives (c : Course) : Point → Int → List Point → Prop
  | finish {error : Int} : Arrives c c.finish error [c.finish]
  | step {pixel : Point} {error : Int} {pixels : List Point} (hne : pixel ≠ c.finish)
      (rest : Arrives c (c.step pixel error).1 (c.step pixel error).2 pixels) :
      Arrives c pixel error (pixel :: pixels)

theorem Arrives.ne_nil {c : Course} {pixel : Point} {error : Int} {pixels : List Point}
    (h : c.Arrives pixel error pixels) : pixels ≠ [] := by
  cases h <;> exact List.cons_ne_nil _ _

theorem Arrives.walk_eq {c : Course} {pixel : Point} {error : Int} {pixels : List Point}
    (h : c.Arrives pixel error pixels) {steps : Nat} (hsteps : pixels.length ≤ steps + 1) :
    c.walk steps pixel error = pixels := by
  induction h generalizing steps with
  | finish =>
      cases steps with
      | zero => rfl
      | succ steps => exact if_pos rfl
  | step hne rest ih =>
      have hrest := List.length_pos_of_ne_nil rest.ne_nil
      rw [List.length_cons] at hsteps
      cases steps with
      | zero => omega
      | succ steps =>
          rw [walk, if_neg hne]
          exact congrArg (_ :: ·) (ih (by omega))

theorem Arrives.unique {c : Course} {pixel : Point} {error : Int} {s t : List Point}
    (hs : c.Arrives pixel error s) (ht : c.Arrives pixel error t) : s = t := by
  have hs' : c.walk (s.length + t.length) pixel error = s := hs.walk_eq (by omega)
  have ht' : c.walk (s.length + t.length) pixel error = t := ht.walk_eq (by omega)
  exact hs'.symm.trans ht'

variable {start finish pixel : Point} {error : Int} {k : Nat}

theorem Reaches.counts_eq {i j : Nat} (h : Reaches start finish i j finish error) :
    i = (finish.x - start.x).natAbs ∧ j = (finish.y - start.y).natAbs := by
  have hx := h.x_eq
  have hy := h.y_eq
  have hright := towards_end start.x finish.x
  have hdown := towards_end start.y finish.y
  simp only [between] at hx hy
  constructor
  · split at hx <;> omega
  · split at hy <;> omega

/-- The walk stands on the `k`-th pixel of its line. -/
def Stands (start finish : Point) (k : Nat) : Point → Int → Prop :=
  Reaches start finish (columns start finish k) (rows start finish k)

theorem stands_start (start finish : Point) :
    Stands start finish 0 start ((between start finish).dx + (between start finish).dy) := by
  simpa only [Stands, columns, rows, progress_zero] using reaches_start start finish

theorem Stands.eq_finish (h : Stands start finish (span start finish) pixel error) : pixel = finish :=
  Reaches.eq_finish h (columns_span start finish) (rows_span start finish)

theorem Stands.ne_finish (h : Stands start finish k pixel error) (hk : k < span start finish) :
    pixel ≠ finish := by
  rintro rfl
  obtain ⟨hcolumns, hrows⟩ := Reaches.counts_eq h
  rcases columns_or_rows start pixel with ⟨hall, hspan⟩ | ⟨hall, hspan⟩
  · rw [hall] at hcolumns
    omega
  · rw [hall] at hrows
    omega

theorem Stands.eq_midpoint (h : Stands start finish k pixel error) (hk : k ≤ span start finish) :
    pixel = midpoint start finish k := by
  have hx := h.x_eq
  have hy := h.y_eq
  simp only [between] at hx hy
  rw [direction_mul h.columns] at hx
  rw [direction_mul h.rows] at hy
  rw [midpoint_eq hk, ← hx, ← hy]

theorem Reaches.tests_iff {i j : Nat} (h : Reaches start finish i j pixel error) :
    (2 * error > (between start finish).dy ↔
        (2 * i + 1) * (finish.y - start.y).natAbs < 2 * (j + 1) * (finish.x - start.x).natAbs) ∧
      (2 * error < (between start finish).dx ↔
        (2 * j + 1) * (finish.x - start.x).natAbs < 2 * (i + 1) * (finish.y - start.y).natAbs) := by
  have herror := h.error_eq
  simp only [between] at herror ⊢
  rw [herror]
  zify
  constructor <;> constructor <;> intro <;> linarith

theorem Stands.step (h : Stands start finish k pixel error) (hk : k < span start finish) :
    Stands start finish (k + 1) ((between start finish).step pixel error).1
      ((between start finish).step pixel error).2 := by
  obtain ⟨hright, hdown⟩ := Reaches.tests_iff h
  have hstep := Reaches.step h (h.ne_finish hk)
  simp only [hright, hdown] at hstep
  rw [Stands, columns_succ hk, rows_succ hk]
  exact hstep

theorem Stands.arrives (h : Stands start finish k pixel error) {steps : Nat}
    (hsteps : k + steps = span start finish) :
    (between start finish).Arrives pixel error
      ((List.range' k (steps + 1)).map (midpoint start finish)) := by
  induction steps generalizing k pixel error with
  | zero =>
      obtain rfl : k = span start finish := hsteps
      have hpixel := h.eq_midpoint le_rfl
      obtain rfl := h.eq_finish
      rw [List.range'_one, List.map_singleton, ← hpixel]
      exact .finish
  | succ steps ih =>
      have hrest := ih (h.step (by omega)) (by omega)
      rw [List.range'_succ, List.map_cons, ← h.eq_midpoint (by omega)]
      exact .step (h.ne_finish (by omega)) hrest

theorem arrives_midpoints (start finish : Point) :
    (between start finish).Arrives start ((between start finish).dx + (between start finish).dy)
      ((List.range (span start finish + 1)).map (midpoint start finish)) := by
  rw [List.range_eq_range']
  exact (stands_start start finish).arrives (Nat.zero_add _)

end Course

theorem thinLine_eq (start finish : Point) :
    thinLine start finish = (List.range (span start finish + 1)).map (midpoint start finish) := by
  apply (Course.arrives_midpoints start finish).walk_eq
  rw [List.length_map, List.length_range]
  rfl

section Pixels

variable {start finish : Point} {k l : Nat}

theorem mem_thinLine {pixel : Point} :
    pixel ∈ thinLine start finish ↔ ∃ k ≤ span start finish, midpoint start finish k = pixel := by
  simp only [thinLine_eq, List.mem_map, List.mem_range, Nat.lt_succ_iff]

theorem midpoint_zero (start finish : Point) : midpoint start finish 0 = start :=
  ((Course.stands_start start finish).eq_midpoint (Nat.zero_le _)).symm

theorem midpoint_span (start finish : Point) : midpoint start finish (span start finish) = finish := by
  rw [midpoint_eq le_rfl, columns_span, rows_span, Int.sign_mul_natAbs, Int.sign_mul_natAbs,
    add_sub_cancel, add_sub_cancel]

theorem midpoint_inj (hk : k ≤ span start finish) (hl : l ≤ span start finish)
    (h : midpoint start finish k = midpoint start finish l) : k = l := by
  -- The coordinate that moves with every pixel tells them apart, unless there is only one.
  have hmoved {d : Int} (hd : d = 0 → k = l) (hkl : d.sign * k = d.sign * l) : k = l := by
    by_cases hzero : d = 0
    · exact hd hzero
    · exact_mod_cast mul_left_cancel₀ (mt Int.sign_eq_zero_iff_zero.1 hzero) hkl
  rw [midpoint_eq hk, midpoint_eq hl, Point.mk.injEq] at h
  rcases columns_or_rows start finish with ⟨hall, hspan⟩ | ⟨hall, hspan⟩
  · rw [hall, hall] at h
    exact hmoved (d := finish.x - start.x) (by omega) (by omega)
  · rw [hall, hall] at h
    exact hmoved (d := finish.y - start.y) (by omega) (by omega)

theorem moved_le (d n : Int) {i j : Nat} (h : j = i ∨ j = i + 1) :
    (n + d.sign * j - (n + d.sign * i)).natAbs ≤ 1 := by
  rcases Int.lt_trichotomy d 0 with hd | rfl | hd
  · rw [Int.sign_eq_neg_one_of_neg hd]
    omega
  · rw [Int.sign_zero]
    omega
  · rw [Int.sign_eq_one_of_pos hd]
    omega

theorem moved_one {d : Int} (hd : d ≠ 0) (n : Int) (i : Nat) :
    (n + d.sign * (i + 1 : Nat) - (n + d.sign * i)).natAbs = 1 := by
  rcases Int.lt_or_gt_of_ne hd with hd | hd
  · rw [Int.sign_eq_neg_one_of_neg hd]
    omega
  · rw [Int.sign_eq_one_of_pos hd]
    omega

theorem midpoint_adjacent (hk : k < span start finish) :
    (midpoint start finish k).Adjacent (midpoint start finish (k + 1)) := by
  have hcolumns : columns start finish (k + 1) = columns start finish k ∨
      columns start finish (k + 1) = columns start finish k + 1 := by
    rw [columns_succ hk]
    split <;> simp
  have hrows : rows start finish (k + 1) = rows start finish k ∨
      rows start finish (k + 1) = rows start finish k + 1 := by
    rw [rows_succ hk]
    split <;> simp
  have hx := moved_le (finish.x - start.x) start.x hcolumns
  have hy := moved_le (finish.y - start.y) start.y hrows
  rw [midpoint_eq hk.le, midpoint_eq (k := k + 1) hk, Point.Adjacent]
  rcases columns_or_rows start finish with ⟨hall, hspan⟩ | ⟨hall, hspan⟩
  · have hone := moved_one (d := finish.x - start.x) (by omega) start.x k
    simp only [hall, hone]
    exact max_eq_left hy
  · have hone := moved_one (d := finish.y - start.y) (by omega) start.y k
    simp only [hall, hone]
    exact max_eq_right hx

theorem midpoint_y_of_tie {m : Nat} (h : (finish.y - start.y).natAbs ≤ (finish.x - start.x).natAbs)
    (htie : 2 * (finish.y - start.y).natAbs * k = (2 * m + 1) * (finish.x - start.x).natAbs) :
    (midpoint start finish k).y = start.y + (finish.y - start.y).sign * m := by
  simp only [midpoint, if_pos h]
  rcases Nat.eq_zero_or_pos (finish.x - start.x).natAbs with hzero | hpos
  · have hflat : finish.y - start.y = 0 := by omega
    rw [hflat, Int.sign_zero, Int.zero_mul, Int.zero_mul]
  · rw [across_of_tie hpos htie]

theorem midpoint_x_of_tie {m : Nat} (h : (finish.x - start.x).natAbs < (finish.y - start.y).natAbs)
    (htie : 2 * (finish.x - start.x).natAbs * k = (2 * m + 1) * (finish.y - start.y).natAbs) :
    (midpoint start finish k).x = start.x + (finish.x - start.x).sign * m := by
  simp only [midpoint, if_neg (Nat.not_le.2 h)]
  rw [across_of_tie (by omega) htie]

end Pixels

/-- The pixels on which the walk of a line ends, each the midpoint of its step. They go from end to end,
none is repeated, and each is next to the one before. -/
structure IsMidpointLine (start finish : Point) (pixels : List Point) : Prop where
  arrives : ∀ walked, (Course.between start finish).Arrives start
    ((Course.between start finish).dx + (Course.between start finish).dy) walked ↔ walked = pixels
  length_eq : pixels.length = span start finish + 1
  midpoints : pixels = (List.range (span start finish + 1)).map (midpoint start finish)
  tie_y : ∀ k m : Nat, (finish.y - start.y).natAbs ≤ (finish.x - start.x).natAbs →
    2 * (finish.y - start.y).natAbs * k = (2 * m + 1) * (finish.x - start.x).natAbs →
      (midpoint start finish k).y = start.y + (finish.y - start.y).sign * m
  tie_x : ∀ k m : Nat, (finish.x - start.x).natAbs < (finish.y - start.y).natAbs →
    2 * (finish.x - start.x).natAbs * k = (2 * m + 1) * (finish.y - start.y).natAbs →
      (midpoint start finish k).x = start.x + (finish.x - start.x).sign * m
  head : pixels.head? = some start
  last : pixels.getLast? = some finish
  nodup : pixels.Nodup
  adjacent : pixels.IsChain Point.Adjacent

theorem isMidpointLine_midpoints (start finish : Point) :
    IsMidpointLine start finish ((List.range (span start finish + 1)).map (midpoint start finish)) where
  arrives walked := by
    have harrives := Course.arrives_midpoints start finish
    constructor
    · intro h
      exact h.unique harrives
    · rintro rfl
      exact harrives
  length_eq := by rw [List.length_map, List.length_range]
  midpoints := rfl
  tie_y _ _ := midpoint_y_of_tie
  tie_x _ _ := midpoint_x_of_tie
  head := by
    rw [List.head?_map, List.head?_range, if_neg (Nat.succ_ne_zero _), Option.map_some, midpoint_zero]
  last := by
    rw [List.getLast?_map, List.getLast?_range, if_neg (Nat.succ_ne_zero _), Option.map_some,
      Nat.add_sub_cancel, midpoint_span]
  nodup := by
    apply List.Nodup.map_on _ List.nodup_range
    intro k hk l hl
    rw [List.mem_range] at hk hl
    exact midpoint_inj (by omega) (by omega)
  adjacent := by
    rw [List.isChain_map, List.isChain_range]
    intro k hk
    exact midpoint_adjacent (by omega)

/-- The walk of a line ends for all ends, and a thin line is the midpoint line. -/
theorem thin_line_is_midpoint_line (start finish : Point) {width : Int} (hwidth : width ≤ 1) :
    IsMidpointLine start finish (line width start finish) := by
  have hthin : line width start finish = thinLine start finish := if_neg (by omega)
  rw [hthin, thinLine_eq]
  exact isMidpointLine_midpoints start finish

theorem thin_line_is_midpoint_line_ties :
    (1 : Int) ≤ 1 ∧ IsMidpointLine ⟨3, -1⟩ ⟨-1, 1⟩ (line 1 ⟨3, -1⟩ ⟨-1, 1⟩) := by
  have hwidth : (1 : Int) ≤ 1 := le_rfl
  exact ⟨hwidth, thin_line_is_midpoint_line ⟨3, -1⟩ ⟨-1, 1⟩ hwidth⟩

example : line 1 ⟨3, -1⟩ ⟨-1, 1⟩ = [⟨3, -1⟩, ⟨2, -1⟩, ⟨1, 0⟩, ⟨0, 0⟩, ⟨-1, 1⟩] := by decide

end Raster

end StrokeFont
