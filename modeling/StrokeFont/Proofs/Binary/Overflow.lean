import StrokeFont.Proofs.Binary.Rounding

namespace StrokeFont.Binary

theorem roundHalfEven_le_div_iff {num den : Nat} (hodd : num / den % 2 = 1) :
    roundHalfEven num den ≤ num / den ↔ 2 * (num % den) < den := by
  simp only [roundHalfEven]
  split
  · rename_i hlt
    exact iff_of_true le_rfl (Nat.compare_eq_lt.1 hlt)
  · rename_i hgt
    exact iff_of_false (by omega) (Nat.compare_eq_gt.1 hgt).not_gt
  · rename_i heq
    exact iff_of_false (by omega) (Nat.compare_eq_eq.1 heq).not_lt

theorem roundHalfEven_le_iff {num den k : Nat} (hden : 0 < den) (hk : k % 2 = 1) :
    roundHalfEven num den ≤ k ↔ 2 * num < (2 * k + 1) * den := by
  have hmod := Nat.mod_lt num hden
  have hnum := Nat.div_add_mod num den
  obtain ⟨hlow, hhigh⟩ := roundHalfEven_bounds num den
  rcases lt_trichotomy (num / den) k with hlt | rfl | hgt
  · exact iff_of_true (by omega) (by nlinarith)
  · rw [roundHalfEven_le_div_iff hk]
    constructor
    · intro h
      nlinarith
    · intro h
      nlinarith
  · have hmul : den * (k + 1) ≤ num := (Nat.mul_le_mul_left den hgt).trans (Nat.mul_div_le num den)
    exact iff_of_false (by omega) (by nlinarith)

theorem roundHalfEven_lt_two_pow_iff {num den p : Nat} (hden : 0 < den) (hp : 0 < p) :
    roundHalfEven num den < 2 ^ p ↔ (num : ℚ) / den < 2 ^ p - 1 / 2 := by
  obtain ⟨k, hk⟩ : ∃ k, 2 ^ p = k + 1 := Nat.exists_eq_succ_of_ne_zero (Nat.two_pow_pos p).ne'
  have hodd : k % 2 = 1 := by
    have heven : 2 ∣ 2 ^ p := dvd_pow_self 2 hp.ne'
    omega
  have hcast : (2 : ℚ) ^ p - 1 / 2 = ((2 * k + 1 : Nat) : ℚ) / 2 := by
    rw [show (2 : ℚ) ^ p = ((k + 1 : Nat) : ℚ) by rw [← hk]; push_cast; rfl]
    push_cast
    ring
  rw [hk, Nat.lt_succ_iff, roundHalfEven_le_iff hden hodd, hcast,
    div_lt_div_iff₀ (by exact_mod_cast hden) two_pos, mul_comm (num : ℚ)]
  norm_cast

namespace Format

/-- Half a unit above the largest finite number. -/
def overflowBound (f : Format) : ℚ := (2 ^ (f.precision + 1) - 1) * 2 ^ (f.maxExponent - 1)

variable {f : Format}

theorem overflowBound_eq (f : Format) :
    f.overflowBound = (2 ^ f.precision - 1 / 2) * 2 ^ f.maxExponent := by
  rw [overflowBound, zpow_sub_one₀ two_ne_zero, pow_succ]
  ring

theorem isFinite_pack_iff (negative : Bool) {r : Nat} {e : Int} (hr : r ≤ 2 ^ f.precision) :
    (∃ s m e', f.pack negative r e = .finite s m e') ↔
      e < f.maxExponent ∨ e = f.maxExponent ∧ r < 2 ^ f.precision := by
  simp only [pack, Nat.one_shiftLeft]
  by_cases hcarry : r = 2 ^ f.precision
  · simp only [hcarry, if_true]
    split
    · simp; omega
    · simp; omega
  · simp only [hcarry, if_false]
    split
    · simp; omega
    · simp; omega

theorem half_le_two_pow {p : Nat} (hp : 0 < p) : (1 : ℚ) ≤ 2 ^ p / 2 := by
  rw [le_div_iff₀ two_pos, one_mul]
  exact le_self_pow₀ one_le_two hp.ne'

theorem overflowBound_pos (hp : 0 < f.precision) : 0 < f.overflowBound := by
  have hhalf := half_le_two_pow hp
  rw [overflowBound_eq]
  exact mul_pos (by linarith) (by positivity)

section Round

variable {num den : Nat} (hnum : 0 < num) (hden : 0 < den) (hp : 0 < f.precision)

include hnum hden hp

theorem quotient_lt_overflowBound (h : f.exponentFor num den < f.maxExponent) :
    (num : ℚ) / den < f.overflowBound := by
  have hhalf := half_le_two_pow hp
  calc (num : ℚ) / den < 2 ^ f.precision * 2 ^ f.exponentFor num den := by
        rw [← div_lt_iff₀ (by positivity)]
        exact quotient_lt hnum hden f
    _ ≤ 2 ^ f.precision * 2 ^ (f.maxExponent - 1) := by
        gcongr
        · exact one_le_two
        · omega
    _ = 2 ^ f.precision / 2 * 2 ^ f.maxExponent := by
        rw [zpow_sub_one₀ two_ne_zero]
        ring
    _ ≤ f.overflowBound := by
        rw [overflowBound_eq]
        gcongr
        linarith

omit hp in
theorem overflowBound_le_quotient (hexp : f.minExponent ≤ f.maxExponent)
    (h : f.maxExponent < f.exponentFor num den) : f.overflowBound ≤ num / den := by
  have hlog : f.exponentFor num den = floorLog2 num den + 1 - f.precision := by
    simp only [exponentFor] at h ⊢
    omega
  calc f.overflowBound ≤ 2 ^ f.precision * 2 ^ f.maxExponent := by
        rw [overflowBound_eq]
        gcongr
        linarith
    _ = 2 ^ (f.precision + f.maxExponent : Int) := by rw [zpow_add₀ two_ne_zero, zpow_natCast]
    _ ≤ 2 ^ floorLog2 num den := by
        gcongr
        · exact one_le_two
        · omega
    _ ≤ num / den := (floorLog2_spec hnum hden).1

omit hnum in
/-- A quotient has a finite number nearest to it exactly below the bound. At the largest exponent the
rounded mantissa decides. -/
theorem isFinite_round_iff (hexp : f.minExponent ≤ f.maxExponent) (negative : Bool) :
    (∃ s m e, f.round negative num den = .finite s m e) ↔ (num : ℚ) / den < f.overflowBound := by
  rcases num.eq_zero_or_pos with rfl | hnum
  · rw [Nat.cast_zero, zero_div]
    exact iff_of_true ⟨negative, 0, f.minExponent, if_pos rfl⟩ (overflowBound_pos hp)
  rw [round, if_neg hnum.ne', isFinite_pack_iff negative (roundHalfEven_shifted_le hnum hden f)]
  rcases lt_trichotomy (f.exponentFor num den) f.maxExponent with hlt | heq | hgt
  · exact iff_of_true (.inl hlt) (quotient_lt_overflowBound hnum hden hp hlt)
  · have hpos : 0 < den <<< f.maxExponent.toNat := by
      rw [Nat.shiftLeft_eq]
      positivity
    simp only [heq, lt_irrefl, false_or, true_and]
    rw [roundHalfEven_lt_two_pow_iff hpos hp, shifted_value, div_lt_iff₀ (by positivity), overflowBound_eq]
  · exact iff_of_false (by omega) (overflowBound_le_quotient hnum hden hexp hgt).not_gt

omit hnum in
/-- Below a power of two, rounding keeps a quotient finite and moves it by at most one unit of the last
place that the power allows. -/
theorem round_error (negative : Bool) {n : Int} (hmin : f.minExponent ≤ n - f.precision)
    (hmax : n - f.precision < f.maxExponent) (h : (num : ℚ) / den < 2 ^ n) :
    ∃ q, f.Denotes (f.round negative num den) negative q ∧ |q - num / den| ≤ 2 ^ (n - f.precision) := by
  rcases num.eq_zero_or_pos with rfl | hnum
  · have hzero : f.Holds ((0 : Nat) / den) :=
      ⟨0, f.minExponent, by simp, Nat.two_pow_pos _, le_rfl, by omega⟩
    refine ⟨_, round_of_holds hden negative hzero, ?_⟩
    rw [sub_self, abs_zero]
    positivity
  · have hlog := (zpow_lt_zpow_iff_right₀ one_lt_two).1 ((floorLog2_spec hnum hden).1.trans_lt h)
    have hexponent : f.exponentFor num den ≤ n - f.precision := max_le hmin (by omega)
    have hbound := quotient_lt_overflowBound hnum hden hp (hexponent.trans_lt hmax)
    obtain ⟨s, m, e, hround⟩ := (isFinite_round_iff hden hp (by omega) negative).2 hbound
    obtain ⟨q, hq, hnear⟩ := round_near hnum hden hp hround
    rw [hround]
    exact ⟨q, hq, hnear.trans (zpow_le_zpow_right₀ one_le_two hexponent)⟩

end Round

theorem overflowBound_natCast {k : Nat} (hk : f.maxExponent = k + 1) :
    f.overflowBound = (2 ^ (f.precision + 1 + k) - 2 ^ k : Nat) := by
  rw [Nat.cast_sub (Nat.pow_le_pow_right two_pos (Nat.le_add_left _ _)), overflowBound, hk, add_sub_cancel_right,
    zpow_natCast, sub_mul, one_mul, ← pow_add]
  push_cast
  rfl

def leastOverflow : Nat := 2 ^ 1024 - 2 ^ 970

theorem leastOverflow_le : (leastOverflow : Int) ≤ 2 ^ 1024 := by
  exact_mod_cast Nat.sub_le (2 ^ 1024) (2 ^ 970)

theorem isFinite_nearest_iff {n : Int} :
    (∃ s m e, double.nearest n = .finite s m e) ↔ n.natAbs < leastOverflow := by
  have hbound := overflowBound_natCast (f := double) (k := 970) rfl
  rw [show double.precision + 1 + 970 = 1024 from rfl, ← leastOverflow] at hbound
  rw [nearest, isFinite_round_iff one_pos (by decide) (by decide), hbound, Nat.cast_one, div_one,
    Nat.cast_lt]

theorem ofInt_eq_error {n : Int} {cause : ConversionError} :
    double.ofInt n = .error cause ↔ cause = .tooLarge ∧ ¬ ∃ s m e, double.nearest n = .finite s m e := by
  unfold ofInt
  cases double.nearest n with
  | nan => simp [eq_comm]
  | infinity s => simp [eq_comm]
  | finite s m e => simp

theorem ofInt_eq_error_iff {n : Int} {cause : ConversionError} :
    double.ofInt n = .error cause ↔ cause = .tooLarge ∧ leastOverflow ≤ n.natAbs := by
  rw [ofInt_eq_error, isFinite_nearest_iff, not_lt]

theorem exists_ofInt {n : Int} (h : n.natAbs < leastOverflow) : ∃ x, double.ofInt n = .ok x := by
  cases hx : double.ofInt n with
  | error cause => exact absurd h (ofInt_eq_error_iff.1 hx).2.not_gt
  | ok x => exact ⟨x, rfl⟩

end Format

end StrokeFont.Binary
