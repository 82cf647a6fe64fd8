import Mathlib.Algebra.Order.Field.Power
import Mathlib.Algebra.Order.Floor.Semifield
import Mathlib.Data.Nat.Cast.Order.Field
import Mathlib.Data.Rat.Floor
import Mathlib.Tactic.FieldSimp
import Mathlib.Tactic.Linarith
import Mathlib.Tactic.Positivity
import Mathlib.Tactic.Ring
import StrokeFont.Binary.Arithmetic

namespace StrokeFont.Binary

open Number (ratio)

theorem zpow_eq_div (e : Int) : (2 : ℚ) ^ e = 2 ^ e.toNat / 2 ^ (-e).toNat := by
  rcases Int.le_total 0 e with he | he
  · have hneg : (-e).toNat = 0 := by omega
    rw [hneg, pow_zero, div_one, ← zpow_natCast, Int.toNat_of_nonneg he]
  · have hpos : e.toNat = 0 := by omega
    rw [hpos, pow_zero, one_div, ← zpow_natCast, Int.toNat_of_nonneg (by omega), zpow_neg, inv_inv]

theorem cast_shiftLeft (n k : Nat) : ((n <<< k : Nat) : ℚ) = n * 2 ^ k := by
  rw [Nat.shiftLeft_eq]
  push_cast
  rfl

theorem ratio_value (m : Nat) (e : Int) : ((ratio m e).1 : ℚ) / (ratio m e).2 = m * 2 ^ e := by
  simp only [ratio, cast_shiftLeft, zpow_eq_div e, Nat.cast_one, one_mul]
  ring

theorem shifted_value (num den : Nat) (e : Int) :
    ((num <<< (-e).toNat : Nat) : ℚ) / (den <<< e.toNat : Nat) = num / den / 2 ^ e := by
  rw [cast_shiftLeft, cast_shiftLeft, zpow_eq_div e]
  field_simp

theorem log2_bounds {n : Nat} (h : 0 < n) :
    (2 : ℚ) ^ (n.log2 : Int) ≤ n ∧ (n : ℚ) < 2 ^ (n.log2 + 1 : Int) := by
  constructor
  · rw [zpow_natCast]
    exact_mod_cast Nat.log2_self_le h.ne'
  · have : (2 : ℚ) ^ (n.log2 + 1 : Int) = ((2 ^ (n.log2 + 1) : Nat) : ℚ) := by
      rw [← Nat.cast_succ, zpow_natCast]
      push_cast
      rfl
    rw [this]
    exact_mod_cast Nat.lt_log2_self

theorem floorLog2_spec {num den : Nat} (hnum : 0 < num) (hden : 0 < den) :
    (2 : ℚ) ^ floorLog2 num den ≤ num / den ∧ (num : ℚ) / den < 2 ^ (floorLog2 num den + 1) := by
  have hd : (0 : ℚ) < den := by exact_mod_cast hden
  obtain ⟨hn1, hn2⟩ := log2_bounds hnum
  obtain ⟨hd1, hd2⟩ := log2_bounds hden
  have above : (num : ℚ) / den < 2 ^ ((num.log2 : Int) - den.log2 + 1) := by
    rw [div_lt_iff₀ hd]
    calc (num : ℚ) < 2 ^ (num.log2 + 1 : Int) := hn2
      _ = 2 ^ ((num.log2 : Int) - den.log2 + 1) * 2 ^ (den.log2 : Int) := by
          rw [← zpow_add₀ two_ne_zero]
          congr 1
          ring
      _ ≤ 2 ^ ((num.log2 : Int) - den.log2 + 1) * den := by gcongr
  have below : (2 : ℚ) ^ ((num.log2 : Int) - den.log2 - 1) ≤ num / den := by
    rw [le_div_iff₀ hd]
    calc (2 : ℚ) ^ ((num.log2 : Int) - den.log2 - 1) * den
        ≤ 2 ^ ((num.log2 : Int) - den.log2 - 1) * 2 ^ (den.log2 + 1 : Int) := by gcongr
      _ = 2 ^ (num.log2 : Int) := by
          rw [← zpow_add₀ two_ne_zero]
          congr 1
          ring
      _ ≤ num := hn1
  have guess_iff (e : Int) :
      den <<< e.toNat ≤ num <<< (-e).toNat ↔ (2 : ℚ) ^ e ≤ num / den := by
    rw [le_div_iff₀ hd, zpow_eq_div, div_mul_eq_mul_div, div_le_iff₀ (by positivity),
      ← Nat.cast_le (α := ℚ), cast_shiftLeft, cast_shiftLeft, mul_comm (2 ^ e.toNat : ℚ)]
  unfold floorLog2
  simp only [guess_iff]
  split
  · exact ⟨by assumption, above⟩
  · rename_i hguess
    exact ⟨below, by rw [sub_add_cancel]; exact not_le.1 hguess⟩

namespace Format

variable {f : Format}

/-- The sizes of the finite numbers of a format. -/
def Holds (f : Format) (q : ℚ) : Prop :=
  ∃ (m : Nat) (e : Int), (m : ℚ) * 2 ^ e = q ∧ m < 2 ^ f.precision ∧
    f.minExponent ≤ e ∧ e ≤ f.maxExponent

/-- A finite number of the format with the given sign and size. -/
def Denotes (f : Format) (x : Number) (negative : Bool) (q : ℚ) : Prop :=
  ∃ (m : Nat) (e : Int), x = .finite negative m e ∧ (m : ℚ) * 2 ^ e = q ∧ m < 2 ^ f.precision ∧
    f.minExponent ≤ e ∧ e ≤ f.maxExponent

theorem Denotes.holds {x : Number} {negative : Bool} {q : ℚ} (h : f.Denotes x negative q) :
    f.Holds q := by
  obtain ⟨m, e, -, hvalue, hm, he⟩ := h
  exact ⟨m, e, hvalue, hm, he⟩

theorem Denotes.nonneg {x : Number} {negative : Bool} {q : ℚ} (h : f.Denotes x negative q) : 0 ≤ q := by
  obtain ⟨m, e, -, rfl, -⟩ := h
  positivity

theorem denotes_of_pack (hp : 0 < f.precision) {negative s : Bool} {r m : Nat} {e e' : Int}
    (hr : r ≤ 2 ^ f.precision) (hmin : f.minExponent ≤ e) (h : f.pack negative r e = .finite s m e') :
    f.Denotes (.finite s m e') negative (r * 2 ^ e) := by
  simp only [pack, Nat.one_shiftLeft] at h
  by_cases hcarry : r = 2 ^ f.precision
  · rw [if_pos hcarry] at h
    split at h
    · cases h
    · cases h
      refine ⟨_, _, rfl, ?_, Nat.pow_lt_pow_right one_lt_two (by omega), by simp only; omega, by omega⟩
      simp only
      rw [hcarry, zpow_add_one₀ two_ne_zero, ← Nat.sub_add_cancel hp, pow_succ, Nat.add_sub_cancel]
      push_cast
      ring
  · rw [if_neg hcarry] at h
    split at h
    · cases h
    · cases h
      exact ⟨_, _, rfl, rfl, by simp only; omega, hmin, by omega⟩

section Round

variable {num den : Nat} (hnum : 0 < num) (hden : 0 < den)

include hnum hden

theorem quotient_lt (f : Format) : (num : ℚ) / den / 2 ^ f.exponentFor num den < 2 ^ f.precision := by
  rw [div_lt_iff₀ (by positivity)]
  calc (num : ℚ) / den < 2 ^ (floorLog2 num den + 1) := (floorLog2_spec hnum hden).2
    _ ≤ 2 ^ (f.precision + f.exponentFor num den) := by
        apply zpow_le_zpow_right₀ one_le_two
        simp only [exponentFor]
        omega
    _ = 2 ^ f.precision * 2 ^ f.exponentFor num den := by
        rw [zpow_add₀ two_ne_zero, zpow_natCast]

theorem exponentFor_le {m : Nat} {e : Int} (hq : (m : ℚ) * 2 ^ e = num / den)
    (hm : m < 2 ^ f.precision) (he : f.minExponent ≤ e) : f.exponentFor num den ≤ e := by
  apply max_le he
  have hpow : (2 : ℚ) ^ floorLog2 num den < 2 ^ (f.precision + e) := by
    calc (2 : ℚ) ^ floorLog2 num den ≤ num / den := (floorLog2_spec hnum hden).1
      _ = m * 2 ^ e := hq.symm
      _ < 2 ^ f.precision * 2 ^ e := by
          gcongr
          exact_mod_cast hm
      _ = 2 ^ (f.precision + e) := by rw [zpow_add₀ two_ne_zero, zpow_natCast]
  have := (zpow_lt_zpow_iff_right₀ one_lt_two).1 hpow
  omega

omit hnum in
theorem roundHalfEven_of_shifted {e : Int} {k : Nat} (hk : (num : ℚ) / den / 2 ^ e = k) :
    roundHalfEven (num <<< (-e).toNat) (den <<< e.toNat) = k := by
  have hpos : 0 < den <<< e.toNat := by
    rw [Nat.shiftLeft_eq]
    positivity
  rw [← shifted_value, div_eq_iff (by exact_mod_cast hpos.ne')] at hk
  have hmul : num <<< (-e).toNat = k * den <<< e.toNat := by exact_mod_cast hk
  rw [hmul, roundHalfEven_of_dvd hpos (Nat.dvd_mul_left _ _), Nat.mul_div_cancel _ hpos]

omit hnum in
theorem roundHalfEven_shifted_near (e : Int) :
    |(roundHalfEven (num <<< (-e).toNat) (den <<< e.toNat) : ℚ) - num / den / 2 ^ e| ≤ 1 := by
  have hpos : 0 < den <<< e.toNat := by
    rw [Nat.shiftLeft_eq]
    positivity
  obtain ⟨hlow, hhigh⟩ := roundHalfEven_bounds (num <<< (-e).toNat) (den <<< e.toNat)
  have hfloor : ((num <<< (-e).toNat / den <<< e.toNat : Nat) : ℚ) ≤ num / den / 2 ^ e := by
    rw [← shifted_value]
    exact Nat.cast_div_le
  have hceil : (num : ℚ) / den / 2 ^ e < (num <<< (-e).toNat / den <<< e.toNat : Nat) + 1 := by
    rw [← shifted_value, div_lt_iff₀ (by exact_mod_cast hpos)]
    exact_mod_cast (Nat.lt_mul_div_succ _ hpos).trans_eq (Nat.mul_comm _ _)
  have hlow' : ((num <<< (-e).toNat / den <<< e.toNat : Nat) : ℚ) ≤
      roundHalfEven (num <<< (-e).toNat) (den <<< e.toNat) := by exact_mod_cast hlow
  have hhigh' : (roundHalfEven (num <<< (-e).toNat) (den <<< e.toNat) : ℚ) ≤
      (num <<< (-e).toNat / den <<< e.toNat : Nat) + 1 := by exact_mod_cast hhigh
  rw [abs_le]
  constructor <;> linarith

theorem roundHalfEven_shifted_le (f : Format) :
    roundHalfEven (num <<< (-f.exponentFor num den).toNat) (den <<< (f.exponentFor num den).toNat) ≤
      2 ^ f.precision := by
  have hpos : 0 < den <<< (f.exponentFor num den).toNat := by
    rw [Nat.shiftLeft_eq]
    positivity
  have hlt := quotient_lt hnum hden f
  rw [← shifted_value, div_lt_iff₀ (by exact_mod_cast hpos)] at hlt
  have hnat : num <<< (-f.exponentFor num den).toNat <
      2 ^ f.precision * den <<< (f.exponentFor num den).toNat := by exact_mod_cast hlt
  exact (roundHalfEven_bounds _ _).2.trans (Nat.div_lt_of_lt_mul (by rwa [Nat.mul_comm] at hnat))

/-- Rounding moves a quotient by at most one unit of the last place. -/
theorem round_near (hp : 0 < f.precision) {negative s : Bool} {m : Nat} {e : Int}
    (h : f.round negative num den = .finite s m e) :
    ∃ q, f.Denotes (.finite s m e) negative q ∧ |q - num / den| ≤ 2 ^ f.exponentFor num den := by
  have hle := roundHalfEven_shifted_le hnum hden f
  rw [round, if_neg hnum.ne'] at h
  refine ⟨_, denotes_of_pack hp hle (le_max_left _ _) h, ?_⟩
  have hpos : (0 : ℚ) < 2 ^ f.exponentFor num den := by positivity
  calc |(roundHalfEven _ _ : ℚ) * 2 ^ f.exponentFor num den - num / den|
      = |(roundHalfEven _ _ : ℚ) - num / den / 2 ^ f.exponentFor num den| *
          2 ^ f.exponentFor num den := by
        rw [← abs_of_pos hpos, ← abs_mul, abs_of_pos hpos, sub_mul, div_mul_cancel₀ _ hpos.ne']
    _ ≤ 2 ^ f.exponentFor num den :=
        mul_le_of_le_one_left hpos.le (roundHalfEven_shifted_near hden _)

theorem exponentFor_relative (hnormal : (2 : ℚ) ^ (f.minExponent + f.precision - 1) ≤ num / den) :
    (2 : ℚ) ^ f.exponentFor num den ≤ num / den * 2 ^ (1 - f.precision : Int) := by
  obtain ⟨hlow, hhigh⟩ := floorLog2_spec hnum hden
  have hlog := (zpow_lt_zpow_iff_right₀ one_lt_two).1 (hnormal.trans_lt hhigh)
  have he : f.exponentFor num den = floorLog2 num den + (1 - f.precision) := by
    simp only [exponentFor]
    omega
  rw [he, zpow_add₀ two_ne_zero]
  gcongr

theorem shifted_of_holds (h : f.Holds (num / den)) :
    ∃ k : Nat, (num : ℚ) / den / 2 ^ f.exponentFor num den = k ∧ k < 2 ^ f.precision ∧
      f.exponentFor num den ≤ f.maxExponent := by
  obtain ⟨m, e, hq, hm, hmin, hmax⟩ := h
  have hle := exponentFor_le hnum hden hq hm hmin
  have hk : (num : ℚ) / den / 2 ^ f.exponentFor num den =
      (m * 2 ^ (e - f.exponentFor num den).toNat : Nat) := by
    have hsplit : e = f.exponentFor num den + ((e - f.exponentFor num den).toNat : Nat) := by omega
    rw [div_eq_iff (by positivity), ← hq]
    conv_lhs => rw [hsplit]
    rw [zpow_add₀ two_ne_zero, zpow_natCast]
    push_cast
    ring
  refine ⟨_, hk, ?_, hle.trans hmax⟩
  have hlt := quotient_lt hnum hden f
  rw [hk] at hlt
  exact_mod_cast hlt

omit hnum in
/-- A quotient that the format holds is not changed. -/
theorem round_of_holds (negative : Bool) (h : f.Holds (num / den)) :
    f.Denotes (f.round negative num den) negative (num / den) := by
  rcases num.eq_zero_or_pos with hzero | hnum
  · obtain ⟨m, e, -, hm, hmin, hmax⟩ := h
    refine ⟨0, f.minExponent, ?_, ?_, by omega, le_rfl, by omega⟩
    · rw [round, if_pos hzero]
    · simp [hzero]
  · obtain ⟨k, hk, hlt, hmax⟩ := shifted_of_holds hnum hden h
    refine ⟨k, f.exponentFor num den, ?_, ?_, hlt, le_max_left _ _, hmax⟩
    · rw [round, if_neg hnum.ne']
      simp only [roundHalfEven_of_shifted hden hk, pack, Nat.one_shiftLeft, if_neg hlt.ne,
        if_neg hmax.not_gt]
    · rw [← hk, div_mul_cancel₀ _ (by positivity)]

end Round

theorem holds_natCast_of_lt {n : Nat} (hn : n < 2 ^ f.precision) (hmin : f.minExponent ≤ 0)
    (hmax : 0 ≤ f.maxExponent) : f.Holds n :=
  ⟨n, 0, by simp, hn, hmin, hmax⟩

theorem denotes_nearest {n : Int} (h : f.Holds n.natAbs) :
    f.Denotes (f.nearest n) (decide (n < 0)) n.natAbs := by
  have hone : f.Holds (n.natAbs / (1 : Nat)) := by rwa [Nat.cast_one, div_one]
  have hround := round_of_holds one_pos (decide (n < 0)) hone
  rwa [Nat.cast_one, div_one] at hround

theorem denotes_of_ofInt {n : Int} (h : f.Holds n.natAbs) :
    ∃ x, f.ofInt n = .ok x ∧ f.Denotes x (decide (n < 0)) n.natAbs := by
  obtain ⟨m, e, hx, hrest⟩ := denotes_nearest h
  exact ⟨.finite (decide (n < 0)) m e, by rw [ofInt, hx], m, e, rfl, hrest⟩

theorem mul_eq_round {x y : Number} {s t : Bool} {a b : ℚ} (hx : f.Denotes x s a)
    (hy : f.Denotes y t b) :
    ∃ num den : Nat, f.mul x y = f.round (s != t) num den ∧ 0 < den ∧ (num : ℚ) / den = a * b := by
  obtain ⟨m, d, rfl, rfl, -⟩ := hx
  obtain ⟨n, e, rfl, rfl, -⟩ := hy
  refine ⟨_, _, rfl, Number.ratio_pos (m * n) (d + e), (ratio_value (m * n) (d + e)).trans ?_⟩
  rw [zpow_add₀ two_ne_zero]
  push_cast
  ring

theorem div_eq_round {x y : Number} {s t : Bool} {a b : ℚ} (hx : f.Denotes x s a)
    (hy : f.Denotes y t b) (hb : b ≠ 0) :
    ∃ num den : Nat, f.div x y = f.round (s != t) num den ∧ 0 < den ∧ (num : ℚ) / den = a / b := by
  obtain ⟨m, d, rfl, rfl, -⟩ := hx
  obtain ⟨n, e, rfl, rfl, -⟩ := hy
  have hn : n ≠ 0 := by
    rintro rfl
    simp at hb
  refine ⟨_, _, if_neg hn, Nat.mul_pos (by omega) (Number.ratio_pos m (d - e)), ?_⟩
  have hvalue := ratio_value m (d - e)
  rw [zpow_sub₀ two_ne_zero] at hvalue
  rw [Nat.cast_mul, mul_comm (n : ℚ), ← div_div]
  refine (congrArg (· / (n : ℚ)) hvalue).trans ?_
  field_simp

theorem add_eq_round {x y : Number} {a b : ℚ} (hx : f.Denotes x false a) (hy : f.Denotes y false b) :
    ∃ num den : Nat, f.add x y = f.round false num den ∧ 0 < den ∧ (num : ℚ) / den = a + b := by
  obtain ⟨m, d, rfl, rfl, -⟩ := hx
  obtain ⟨n, e, rfl, rfl, -⟩ := hy
  have hm := Number.ratio_pos m d
  have hn := Number.ratio_pos n e
  refine ⟨(ratio m d).1 * (ratio n e).2 + (ratio n e).1 * (ratio m d).2, (ratio m d).2 * (ratio n e).2, ?_,
    Nat.mul_pos hm hn, ?_⟩
  · have hnegative (total : Nat) :
        (if (total : Int) = 0 then false && false else decide ((total : Int) < 0)) = false := by
      rw [decide_eq_false (by omega), Bool.and_self, ite_self]
    simp only [add, signed, Bool.false_eq_true, if_false, ← Nat.cast_add, hnegative, Int.natAbs_natCast]
  · rw [← ratio_value, ← ratio_value]
    push_cast
    field_simp

section Exact

variable {x y : Number} {s t : Bool} {a b : ℚ}

theorem mul_of_holds (hx : f.Denotes x s a) (hy : f.Denotes y t b) (h : f.Holds (a * b)) :
    f.Denotes (f.mul x y) (s != t) (a * b) := by
  obtain ⟨num, den, hmul, hden, hvalue⟩ := mul_eq_round hx hy
  rw [hmul, ← hvalue]
  exact round_of_holds hden _ (hvalue ▸ h)

theorem div_of_holds (hx : f.Denotes x s a) (hy : f.Denotes y t b) (hb : b ≠ 0) (h : f.Holds (a / b)) :
    f.Denotes (f.div x y) (s != t) (a / b) := by
  obtain ⟨num, den, hdiv, hden, hvalue⟩ := div_eq_round hx hy hb
  rw [hdiv, ← hvalue]
  exact round_of_holds hden _ (hvalue ▸ h)

theorem add_of_holds (hx : f.Denotes x false a) (hy : f.Denotes y false b) (h : f.Holds (a + b)) :
    f.Denotes (f.add x y) false (a + b) := by
  obtain ⟨num, den, hadd, hden, hvalue⟩ := add_eq_round hx hy
  rw [hadd, ← hvalue]
  exact round_of_holds hden _ (hvalue ▸ h)

end Exact

theorem Denotes.truncate {x : Number} {negative : Bool} {q : ℚ} (h : f.Denotes x negative q) :
    x.truncate = .ok (signed negative ⌊q⌋₊) := by
  obtain ⟨m, e, rfl, rfl, -⟩ := h
  rw [← ratio_value, Nat.floor_div_eq_div]
  rfl

end Format

end StrokeFont.Binary
