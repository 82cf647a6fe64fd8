import Mathlib.Data.Nat.Prime.Basic
import StrokeFont.Proofs.Raster.Midpoint

namespace StrokeFont.Raster

/-- At the `k`-th of `long` steps the ideal line is half-way between two whole numbers. -/
def IsTie (long short k : Nat) : Prop := ∃ m : Nat, 2 * short * k = (2 * m + 1) * long

section Tie

variable {long short k : Nat}

theorem isTie_iff (h : 0 < long) :
    IsTie long short k ↔ 2 * short * k = (2 * across long short k + 1) * long := by
  constructor
  · rintro ⟨m, hm⟩
    rwa [across_of_tie h hm]
  · intro hm
    exact ⟨_, hm⟩

theorem not_isTie_self (h : 0 < long) : ¬ IsTie long long k := by
  rintro ⟨m, hm⟩
  have hodd : 2 * k = 2 * m + 1 := Nat.eq_of_mul_eq_mul_right h (by linarith)
  omega

theorem not_isTie_zero (h : 0 < long) : ¬ IsTie long 0 k := by
  rintro ⟨m, hm⟩
  have hpos : 0 < (2 * m + 1) * long := Nat.mul_pos (Nat.succ_pos _) h
  omega

/-- The way that is left is rounded like the way behind, but for ties. -/
theorem across_add_iff (h : 0 < long) (hk : k ≤ long) :
    across long short k + across long short (long - k) = short ↔ ¬ IsTie long short k := by
  obtain ⟨hlow, hhigh⟩ := across_bounds h short k
  have hle : across long short k ≤ short := by nlinarith
  have hleft : across long short k + across long short (long - k) = short ↔
      across long short (long - k) = short - across long short k := by omega
  rw [isTie_iff h, hleft, across_eq_iff h]
  zify [hk, hle] at hlow hhigh ⊢
  constructor
  · rintro ⟨hless, -⟩ htie
    linarith
  · intro htie
    have hless := lt_of_le_of_ne hhigh htie
    constructor <;> linarith

theorem exists_isTie_iff (h : 0 < long) (short : Nat) :
    (∃ k ≤ long, IsTie long short k) ↔ Even (long / Nat.gcd long short) := by
  -- In a tie an odd multiple of the longer extent is even, also when both extents are in lowest terms.
  obtain ⟨l, s, hcoprime, hl, hs⟩ := Nat.exists_coprime long short
  have hpos : 0 < Nat.gcd long short := Nat.gcd_pos_of_pos_left short h
  generalize Nat.gcd long short = g at hl hs hpos
  subst hl hs
  rw [Nat.mul_div_cancel l hpos]
  constructor
  · rintro ⟨k, -, m, hm⟩
    have hreduced : 2 * (s * k) = (2 * m + 1) * l := Nat.eq_of_mul_eq_mul_right hpos (by linarith)
    have heven : Even ((2 * m + 1) * l) := ⟨s * k, by omega⟩
    exact (Nat.even_mul.1 heven).resolve_left (Nat.not_even_bit1 m)
  · -- The shorter extent is odd then, so half of the longer one is a tie.
    rintro ⟨half, rfl⟩
    have hodd : Odd s := Nat.Coprime.odd_of_left (hcoprime.coprime_dvd_left ⟨half, by omega⟩)
    obtain ⟨m, rfl⟩ := hodd
    exact ⟨half, by nlinarith, m, by ring⟩

end Tie

theorem progress_add_iff {own other k : Nat} (h : 0 < max own other) (hk : k ≤ max own other) :
    progress own other k + progress own other (max own other - k) = own ↔
      ¬ IsTie (max own other) own k := by
  rcases Nat.lt_or_ge own other with hlt | hle
  · rw [max_eq_right hlt.le] at h hk ⊢
    rw [progress_of_lt hlt, progress_of_lt hlt]
    exact across_add_iff h hk
  · rw [max_eq_left hle] at h hk ⊢
    rw [progress_of_le hle, progress_of_le hle]
    exact iff_of_true (by omega) (not_isTie_self h)

theorem retraced_iff (start finish : Int) (i j : Nat) :
    finish + (start - finish).sign * j = start + (finish - start).sign * i ↔
      finish - start = 0 ∨ i + j = (finish - start).natAbs := by
  rcases Int.lt_trichotomy start finish with h | rfl | h
  · rw [Int.sign_eq_neg_one_of_neg (by omega), Int.sign_eq_one_of_pos (by omega)]
    omega
  · simp
  · rw [Int.sign_eq_one_of_pos (by omega), Int.sign_eq_neg_one_of_neg (by omega)]
    omega

theorem retraced_iff_not_isTie (start finish : Int) {other n k : Nat}
    (hn : max (finish - start).natAbs other = n) (hpos : 0 < n) (hk : k ≤ n) :
    finish + (start - finish).sign * progress (finish - start).natAbs other (n - k) =
        start + (finish - start).sign * progress (finish - start).natAbs other k ↔
      ¬ IsTie n (finish - start).natAbs k := by
  subst hn
  rw [retraced_iff, progress_add_iff hpos hk]
  apply or_iff_right_of_imp
  intro hzero
  rw [hzero] at hpos ⊢
  exact not_isTie_zero hpos

theorem natAbs_sub_swap (m n : Int) : (m - n).natAbs = (n - m).natAbs := by
  rw [← Int.natAbs_neg, neg_sub]

section Line

variable {p q : Point} {k l : Nat}

theorem span_swap (p q : Point) : span q p = span p q := by
  simp only [span, natAbs_sub_swap p.x, natAbs_sub_swap p.y]

theorem columns_swap (p q : Point) (k : Nat) : columns q p k = columns p q k := by
  simp only [columns, natAbs_sub_swap p.x, natAbs_sub_swap p.y]

theorem rows_swap (p q : Point) (k : Nat) : rows q p k = rows p q k := by
  simp only [rows, natAbs_sub_swap p.x, natAbs_sub_swap p.y]

/-- Between two points, the ideal line is half-way between two pixels at the `k`-th step. -/
def TieAt (p q : Point) (k : Nat) : Prop :=
  IsTie (span p q) (q.x - p.x).natAbs k ∨ IsTie (span p q) (q.y - p.y).natAbs k

theorem midpoint_retraced_iff (hpos : 0 < span p q) (hk : k ≤ span p q) :
    midpoint q p (span p q - k) = midpoint p q k ↔ ¬ TieAt p q k := by
  have hback : span p q - k ≤ span q p := by
    rw [span_swap]
    exact Nat.sub_le _ _
  rw [midpoint_eq hk, midpoint_eq hback, columns_swap, rows_swap, Point.mk.injEq, TieAt, not_or]
  exact and_congr (retraced_iff_not_isTie p.x q.x rfl hpos hk)
    (retraced_iff_not_isTie p.y q.y (max_comm _ _) hpos hk)

theorem add_eq_span (hk : k ≤ span p q) (hl : l ≤ span p q) (h : midpoint q p l = midpoint p q k) :
    k + l = span p q := by
  rw [midpoint_eq hk, midpoint_eq (by rwa [span_swap]), columns_swap, rows_swap, Point.mk.injEq,
    retraced_iff, retraced_iff] at h
  rcases columns_or_rows p q with ⟨hall, hspan⟩ | ⟨hall, hspan⟩
  · rw [hall, hall] at h
    omega
  · rw [hall, hall] at h
    omega

theorem exists_tieAt_iff (hpos : 0 < span p q) :
    (∃ k ≤ span p q, TieAt p q k) ↔
      Even (span p q / Nat.gcd (q.x - p.x).natAbs (q.y - p.y).natAbs) := by
  simp only [TieAt]
  rcases columns_or_rows p q with ⟨-, hspan⟩ | ⟨-, hspan⟩
  · rw [hspan] at hpos ⊢
    simp only [not_isTie_self hpos, false_or]
    exact exists_isTie_iff hpos _
  · rw [hspan] at hpos ⊢
    simp only [not_isTie_self hpos, or_false]
    rw [Nat.gcd_comm]
    exact exists_isTie_iff hpos _

theorem span_self (p : Point) : span p p = 0 := by
  simp [span]

theorem span_pos_iff : 0 < span p q ↔ p ≠ q := by
  obtain ⟨x, y⟩ := p
  obtain ⟨x', y'⟩ := q
  simp only [span, ne_eq, Point.mk.injEq]
  omega

theorem reverse_thinLine (p q : Point) : (thinLine p q).reverse =
    (List.range (span p q + 1)).map fun k => midpoint p q (span p q - k) := by
  rw [thinLine_eq, ← List.map_reverse]
  apply List.ext_getElem
  · simp
  · intro k hk _
    simp

theorem thinLine_eq_reverse_iff (p q : Point) :
    thinLine q p = (thinLine p q).reverse ↔
      ∀ k ≤ span p q, midpoint q p (span p q - k) = midpoint p q k := by
  rw [← List.reverse_eq_iff, reverse_thinLine, thinLine_eq, span_swap, List.map_inj_left]
  simp only [List.mem_range, Nat.lt_succ_iff]

theorem midpoint_not_mem (hpos : 0 < span p q) (hk : k ≤ span p q) (htie : TieAt p q k) :
    midpoint p q k ∉ thinLine q p := by
  rw [mem_thinLine]
  rintro ⟨l, hl, hmeet⟩
  rw [span_swap] at hl
  have hsum := add_eq_span hk hl hmeet
  obtain rfl : l = span p q - k := by omega
  exact (midpoint_retraced_iff hpos hk).1 hmeet htie

end Line

/-- A line drawn backward has the pixels of the line in reverse order exactly when it is a single pixel or
its longer extent, divided by the greatest common divisor of both, is odd. When that is even, the two lines
do not even have the same pixels. -/
theorem reversed_iff_odd (p q : Point) {width : Int} (hwidth : width ≤ 1) :
    (line width q p = (line width p q).reverse ↔
      p = q ∨ Odd (span p q / Nat.gcd (q.x - p.x).natAbs (q.y - p.y).natAbs)) ∧
    (p ≠ q → Even (span p q / Nat.gcd (q.x - p.x).natAbs (q.y - p.y).natAbs) →
      ∃ r ∈ line width p q, r ∉ line width q p) := by
  rw [line_of_le_one hwidth, line_of_le_one hwidth]
  by_cases hpq : p = q
  · subst hpq
    refine ⟨iff_of_true ?_ (.inl rfl), fun hne => absurd rfl hne⟩
    rw [thinLine_eq_reverse_iff]
    intro k hk
    rw [span_self] at hk ⊢
    rw [Nat.le_zero.1 hk]
  · have hpos := span_pos_iff.2 hpq
    have hties := exists_tieAt_iff hpos
    constructor
    · rw [thinLine_eq_reverse_iff, or_iff_right hpq, ← Nat.not_even_iff_odd, ← hties, not_exists]
      apply forall_congr'
      intro k
      rw [not_and]
      exact forall_congr' fun hk => midpoint_retraced_iff hpos hk
    · intro _ heven
      obtain ⟨k, hk, htie⟩ := hties.2 heven
      exact ⟨midpoint p q k, mem_thinLine.2 ⟨k, hk, rfl⟩, midpoint_not_mem hpos hk htie⟩

theorem reversed_iff_odd_ties :
    let p : Point := ⟨3, -1⟩
    let q : Point := ⟨-1, 1⟩
    (1 : Int) ≤ 1 ∧ p ≠ q ∧ Even (span p q / Nat.gcd (q.x - p.x).natAbs (q.y - p.y).natAbs) ∧
    (line 1 q p = (line 1 p q).reverse ↔
      p = q ∨ Odd (span p q / Nat.gcd (q.x - p.x).natAbs (q.y - p.y).natAbs)) ∧
    ∃ r ∈ line 1 p q, r ∉ line 1 q p := by
  intro p q
  have hwidth : (1 : Int) ≤ 1 := le_rfl
  have hne : p ≠ q := by decide
  have heven : Even (span p q / Nat.gcd (q.x - p.x).natAbs (q.y - p.y).natAbs) := by decide
  obtain ⟨hreversed, hpixels⟩ := reversed_iff_odd p q hwidth
  exact ⟨hwidth, hne, heven, hreversed, hpixels hne heven⟩

example : line 1 ⟨-1, 1⟩ ⟨3, -1⟩ = [⟨-1, 1⟩, ⟨0, 1⟩, ⟨1, 0⟩, ⟨2, 0⟩, ⟨3, -1⟩] := by decide

end StrokeFont.Raster
