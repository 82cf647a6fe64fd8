import Mathlib.Data.Int.ConditionallyCompleteOrder
import Mathlib.Order.Monotone.Odd
import StrokeFont.Proofs.Binary.Overflow
import StrokeFont.Proofs.Glyph.Exact

namespace StrokeFont.Scale

open Binary.Format (leastOverflow)

variable {fontSize u v : Int}

section Quotient

theorem quotient_zero (fontSize : Int) : quotient fontSize 0 = 0 := by
  rw [quotient, mul_zero, Int.zero_tdiv]

theorem quotient_neg (fontSize v : Int) : quotient fontSize (-v) = -quotient fontSize v := by
  rw [quotient, quotient, mul_neg, Int.neg_tdiv]

theorem quotient_strictMono (h8 : 8 ≤ fontSize) : StrictMono (quotient fontSize) := by
  refine strictMono_of_odd_strictMonoOn_nonneg (quotient_neg fontSize) ?_
  intro u hu v hv h
  have hstep : fontSize * u + 8 ≤ fontSize * v := by
    calc fontSize * u + 8 ≤ fontSize * u + fontSize := by omega
      _ = fontSize * (u + 1) := by ring
      _ ≤ fontSize * v := mul_le_mul_of_nonneg_left h (by omega)
  have hproduct : 0 ≤ fontSize * u := mul_nonneg (by omega) hu
  rw [quotient, quotient, Int.tdiv_eq_ediv_of_nonneg hproduct, Int.tdiv_eq_ediv_of_nonneg (by omega)]
  omega

theorem abs_le_abs_quotient (h8 : 8 ≤ fontSize) (v : Int) : |v| ≤ |quotient fontSize v| := by
  rw [quotient, Int.abs_eq_natAbs, Int.abs_eq_natAbs, Int.natAbs_tdiv, Int.natAbs_mul]
  apply Int.ofNat_le.2
  apply (Nat.le_div_iff_mul_le (by decide : 0 < (8 : Int).natAbs)).2
  rw [Nat.mul_comm]
  exact Nat.mul_le_mul_right _ (by omega)

end Quotient

/-- Units whose product with the font size is exact. -/
def InPrecision (fontSize units : Int) : Prop := fontSize * |units| ≤ 2 ^ 53

instance (fontSize units : Int) : Decidable (InPrecision fontSize units) :=
  inferInstanceAs (Decidable (fontSize * |units| ≤ 2 ^ 53))

structure PointInPrecision (fontSize : Int) (p : Point) : Prop where
  x : InPrecision fontSize p.x
  y : InPrecision fontSize (p.y - baseline)

section Length

theorem InPrecision.exactUpTo (h : InPrecision fontSize v) (h8 : 8 ≤ fontSize) (hv : v ≠ 0) :
    ExactUpTo fontSize v.natAbs where
  pos := by omega
  bound_pos := Int.natAbs_pos.2 hv
  product := by
    rw [InPrecision, ← abs_of_nonneg (show 0 ≤ fontSize by omega), ← abs_mul, Int.abs_eq_natAbs,
      Int.natAbs_mul] at h
    exact_mod_cast h

theorem InPrecision.eq_zero (h : InPrecision fontSize v) (hsize : leastOverflow ≤ fontSize) : v = 0 := by
  -- At such a size only zero has an exact product.
  by_contra hv
  have hlarge : 8 ≤ leastOverflow ∧ 2 ^ 53 < leastOverflow := by decide +kernel
  have hexact := h.exactUpTo (by omega) hv
  have hle : fontSize.natAbs ≤ 2 ^ 53 := (Nat.le_mul_of_pos_right _ hexact.bound_pos).trans hexact.product
  omega

theorem InPrecision.lt_leastOverflow (hu : InPrecision fontSize u) (hv : InPrecision fontSize v)
    (hne : u ≠ v) : fontSize < leastOverflow := by
  by_contra hsize
  exact hne ((hu.eq_zero (not_lt.1 hsize)).trans (hv.eq_zero (not_lt.1 hsize)).symm)

theorem PointInPrecision.lt_leastOverflow {p q : Point} (hp : PointInPrecision fontSize p)
    (hq : PointInPrecision fontSize q) (hne : p ≠ q) : fontSize < leastOverflow := by
  by_cases hx : p.x = q.x
  · have hy : p.y - baseline ≠ q.y - baseline := fun hy => hne (congrArg₂ Point.mk hx (by omega))
    exact hp.y.lt_leastOverflow hq.y hy
  · exact hp.x.lt_leastOverflow hq.x hx

theorem length_zero_of_lt (h8 : 8 ≤ fontSize) (h : fontSize < leastOverflow) :
    length fontSize 0 = .ok 0 := by
  obtain ⟨x, hx⟩ := Binary.Format.exists_ofInt (n := fontSize) (by omega)
  exact length_zero_of_ofInt h8 hx

theorem length_of_overflow (h : leastOverflow ≤ fontSize) (v : Int) :
    length fontSize v = .error .tooLarge := by
  rw [length, Binary.Format.ofInt_eq_error_iff.2 ⟨rfl, by omega⟩]
  rfl

theorem InPrecision.length (h : InPrecision fontSize v) (h8 : 8 ≤ fontSize)
    (hsize : fontSize < leastOverflow) : length fontSize v = .ok (quotient fontSize v) := by
  by_cases hv : v = 0
  · rw [hv, quotient_zero, length_zero_of_lt h8 hsize]
  · exact (h.exactUpTo h8 hv).length le_rfl

theorem InPrecision.neg (h : InPrecision fontSize v) : InPrecision fontSize (-v) := by
  rwa [InPrecision, abs_neg]

theorem PointInPrecision.toDevice {p : Point} (h : PointInPrecision fontSize p) (h8 : 8 ≤ fontSize)
    (hsize : fontSize < leastOverflow) (origin : Point) :
    toDevice fontSize origin p = .ok (exactPlace fontSize origin p) := by
  rw [Scale.toDevice, height, h.x.length h8 hsize, h.y.length h8 hsize]
  rfl

theorem exactPlace_injective (h8 : 8 ≤ fontSize) (origin : Point) :
    Function.Injective (exactPlace fontSize origin) := by
  intro p q h
  have hx : quotient fontSize p.x = quotient fontSize q.x := add_left_cancel (congrArg Point.x h)
  have hy : quotient fontSize (p.y - baseline) = quotient fontSize (q.y - baseline) :=
    sub_right_injective (congrArg Point.y h)
  have hheight := (quotient_strictMono h8).injective hy
  exact congrArg₂ Point.mk ((quotient_strictMono h8).injective hx) (sub_left_injective hheight)

theorem exactPlace_lt (h8 : 8 ≤ fontSize) (origin : Point) {p q : Point} (h : p.y < q.y) :
    (exactPlace fontSize origin q).y < (exactPlace fontSize origin p).y :=
  sub_lt_sub_left (quotient_strictMono h8 (sub_lt_sub_right h baseline)) origin.y

end Length

/-- Whatever the font size, units that differ never become one length, and no length is less than its
units. Points that differ become pixels that differ, and a higher one the higher pixel. A font size that
has no nearest double has no lengths at all, not even for zero. -/
theorem units_never_collapse (h8 : 8 ≤ fontSize) :
    (∀ u v, fontSize * |u| ≤ 2 ^ 53 → fontSize * |v| ≤ 2 ^ 53 → u < v →
      ∃ m n, length fontSize u = .ok m ∧ length fontSize v = .ok n ∧ m < n) ∧
    (∀ v, fontSize * |v| ≤ 2 ^ 53 → v ≠ 0 ∨ fontSize < leastOverflow →
      ∃ n, length fontSize v = .ok n ∧ length fontSize (-v) = .ok (-n) ∧ |v| ≤ |n|) ∧
    (leastOverflow ≤ fontSize → length fontSize 0 = .error .tooLarge) ∧
    ∀ origin p q, PointInPrecision fontSize p → PointInPrecision fontSize q → p ≠ q →
      ∃ p' q', toDevice fontSize origin p = .ok p' ∧ toDevice fontSize origin q = .ok q' ∧ p' ≠ q' ∧
        (p.y < q.y → q'.y < p'.y) := by
  refine ⟨?_, ?_, ?_, ?_⟩
  · intro u v hu hv h
    have hsize := InPrecision.lt_leastOverflow hu hv h.ne
    exact ⟨_, _, InPrecision.length hu h8 hsize, InPrecision.length hv h8 hsize, quotient_strictMono h8 h⟩
  · intro v hv hne
    have hsize : fontSize < leastOverflow := by
      rcases hne with hne | hsize
      · exact not_le.1 fun hsize => hne (InPrecision.eq_zero hv hsize)
      · exact hsize
    have hneg := (InPrecision.neg hv).length h8 hsize
    rw [quotient_neg] at hneg
    exact ⟨_, InPrecision.length hv h8 hsize, hneg, abs_le_abs_quotient h8 v⟩
  · intro hsize
    exact length_of_overflow hsize 0
  · intro origin p q hp hq hne
    have hsize := hp.lt_leastOverflow hq hne
    exact ⟨_, _, hp.toDevice h8 hsize origin, hq.toDevice h8 hsize origin,
      (exactPlace_injective h8 origin).ne hne, exactPlace_lt h8 origin⟩

theorem units_never_collapse_twelve :
    (8 : Int) ≤ 12 ∧
      (∃ m n, length 12 (-1) = .ok m ∧ length 12 0 = .ok n ∧ m < n) ∧
      (∃ n, length 12 (-3) = .ok n ∧ length 12 (- -3) = .ok (-n) ∧ |(-3 : Int)| ≤ |n|) ∧
      ∃ p' q', toDevice 12 ⟨10, 40⟩ ⟨-1, 1⟩ = .ok p' ∧ toDevice 12 ⟨10, 40⟩ ⟨-1, 2⟩ = .ok q' ∧ p' ≠ q' ∧
        ((1 : Int) < 2 → q'.y < p'.y) := by
  have h8 : (8 : Int) ≤ 12 := by decide
  obtain ⟨hmono, hodd, -, hpoints⟩ := units_never_collapse h8
  exact ⟨h8, hmono (-1) 0 (by decide) (by decide) (by decide), hodd (-3) (by decide) (.inl (by decide)),
    hpoints ⟨10, 40⟩ ⟨-1, 1⟩ ⟨-1, 2⟩ ⟨by decide, by decide⟩ ⟨by decide, by decide⟩ (by decide)⟩

/-- Zero units are in precision at every font size, also where the size itself has no nearest double. -/
theorem no_length_of_huge_size :
    (8 : Int) ≤ 2 ^ 1024 ∧ 2 ^ 1024 * |(0 : Int)| ≤ 2 ^ 53 ∧ length (2 ^ 1024) 0 = .error .tooLarge ∧
      ¬ ∃ n, length (2 ^ 1024) 0 = .ok n ∧ length (2 ^ 1024) (-0) = .ok (-n) ∧ |(0 : Int)| ≤ |n| := by
  have hrefused := length_of_overflow Binary.Format.leastOverflow_le 0
  refine ⟨by decide +kernel, by decide +kernel, hrefused, ?_⟩
  rintro ⟨n, hn, -⟩
  rw [hrefused] at hn
  cases hn

end StrokeFont.Scale
