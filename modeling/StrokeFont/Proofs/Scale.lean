import StrokeFont.Proofs.Binary.Rounding
import StrokeFont.Raster

namespace StrokeFont.Scale

open Binary (Number signed)
open Binary.Format (double)

theorem holds_natCast {n : Nat} (h : n ≤ 2 ^ 53) : double.Holds n := by
  rcases h.lt_or_eq with hlt | rfl
  · exact Binary.Format.holds_natCast_of_lt hlt (by decide) (by decide)
  · refine ⟨2 ^ 52, 1, ?_, by decide, by decide, by decide⟩
    norm_num

theorem holds_div_eight {q : ℚ} (h : double.Holds q) (hq : q = 0 ∨ 1 ≤ q) : double.Holds (q / 8) := by
  obtain ⟨m, e, rfl, hm, hmin, hmax⟩ := h
  rcases hq with hzero | hone
  · refine ⟨0, 0, ?_, by decide, by decide, by decide⟩
    rw [hzero]
    simp
  · have hpow : (2 : ℚ) ^ (0 : Int) < 2 ^ (53 + e) := by
      calc (2 : ℚ) ^ (0 : Int) = 1 := zpow_zero 2
        _ ≤ m * 2 ^ e := hone
        _ < 2 ^ (53 : Nat) * 2 ^ e := by
            gcongr
            exact_mod_cast hm
        _ = 2 ^ (53 + e) := by rw [zpow_add₀ two_ne_zero]; norm_cast
    have he := (zpow_lt_zpow_iff_right₀ one_lt_two).1 hpow
    have hmax' : e ≤ 971 := hmax
    refine ⟨m, e - 3, ?_, hm, show (-1074 : Int) ≤ e - 3 by omega, show e - 3 ≤ (971 : Int) by omega⟩
    rw [zpow_sub₀ two_ne_zero]
    norm_num
    ring

theorem denotes_unitsPerEm : double.Denotes unitsPerEm false 8 := by
  refine ⟨2 ^ 52, -49, by decide +kernel, ?_, by decide, by decide, by decide⟩
  norm_num

theorem length_of_product {fontSize units : Int} {x y : Number} {negative : Bool} {q : ℚ}
    (hx : double.ofInt fontSize = .ok x) (hy : double.ofInt units = .ok y)
    (hproduct : double.Denotes (double.mul x y) negative q) (hq : q = 0 ∨ 1 ≤ q) :
    length fontSize units = .ok (signed negative ⌊q / 8⌋₊) := by
  have hdiv := Binary.Format.div_of_holds hproduct denotes_unitsPerEm (by norm_num)
    (holds_div_eight hproduct.holds hq)
  rw [Bool.bne_false] at hdiv
  rw [length, hx, hy]
  exact hdiv.truncate

theorem signed_natAbs_div (n : Int) (d : Nat) : signed (decide (n < 0)) (n.natAbs / d) = n.tdiv d := by
  rcases Int.le_total 0 n with hn | hn
  · obtain ⟨k, rfl⟩ := Int.eq_ofNat_of_zero_le hn
    simp [signed]
  · obtain ⟨k, hk⟩ := Int.eq_ofNat_of_zero_le (Int.neg_nonneg_of_nonpos hn)
    obtain rfl : n = -k := by omega
    rcases k.eq_zero_or_pos with rfl | hpos
    · simp
    · simp [signed, hpos, Int.neg_tdiv]

theorem length_of_natCast {fontSize units : Int} {x : Number} {size : ℚ} {k : Nat}
    (hx : double.ofInt fontSize = .ok x) (hsize : double.Denotes x false size)
    (hunits : units.natAbs ≤ 2 ^ 53) (hproduct : size * units.natAbs = k) (hk : k ≤ 2 ^ 53) :
    length fontSize units = .ok (signed (decide (units < 0)) ⌊(k : ℚ) / 8⌋₊) := by
  obtain ⟨y, hy, hunits'⟩ := Binary.Format.denotes_of_ofInt (holds_natCast hunits)
  have hmul := Binary.Format.mul_of_holds hsize hunits' (hproduct ▸ holds_natCast hk)
  rw [hproduct, Bool.false_bne] at hmul
  refine length_of_product hx hy hmul ?_
  rcases k.eq_zero_or_pos with rfl | hpos
  · exact .inl Nat.cast_zero
  · exact .inr (by exact_mod_cast hpos)

/-- The length is exact as long as the product of its factors is. -/
theorem length_exact {fontSize units : Int} (hpos : 0 < fontSize) (hsize : fontSize.natAbs ≤ 2 ^ 53)
    (hunits : units.natAbs ≤ 2 ^ 53) (hproduct : (fontSize * units).natAbs ≤ 2 ^ 53) :
    length fontSize units = .ok ((fontSize * units).tdiv 8) := by
  obtain ⟨x, hx, hx'⟩ := Binary.Format.denotes_of_ofInt (holds_natCast hsize)
  rw [decide_eq_false (by omega)] at hx'
  have hcast : (fontSize.natAbs : ℚ) * units.natAbs = ((fontSize * units).natAbs : Nat) := by
    rw [Int.natAbs_mul, Nat.cast_mul]
  have hsign : decide (units < 0) = decide (fontSize * units < 0) :=
    decide_eq_decide.2 ⟨fun h => Int.mul_neg_of_pos_of_neg hpos h, fun h => by nlinarith⟩
  have hfloor := Nat.floor_div_eq_div (K := ℚ) (fontSize * units).natAbs 8
  rw [Nat.cast_ofNat] at hfloor
  rw [length_of_natCast hx hx' hunits hcast hproduct, hfloor, hsign]
  exact congrArg Except.ok (signed_natAbs_div _ 8)

theorem finite_of_length {fontSize units n : Int} {x y : Number} (hx : double.ofInt fontSize = .ok x)
    (hy : double.ofInt units = .ok y) (h : length fontSize units = .ok n) :
    ∃ s m e, double.mul x y = .finite s m e := by
  rw [length, hx, hy] at h
  replace h : (double.div (double.mul x y) unitsPerEm).truncate = .ok n := h
  obtain ⟨m, e, hunits, hvalue, -⟩ := denotes_unitsPerEm
  have hm : m ≠ 0 := by
    rintro rfl
    norm_num at hvalue
  rw [hunits] at h
  cases hr : double.mul x y with
  | nan => rw [hr] at h; cases h
  | infinity s =>
      rw [hr, Binary.Format.div, if_neg hm] at h
      cases h
  | finite s m e => exact ⟨s, m, e, rfl⟩

theorem round_relative {num den m : Nat} {negative s : Bool} {e : Int} (hden : 0 < den)
    (hone : (1 : ℚ) ≤ num / den) (h : double.round negative num den = .finite s m e) :
    ∃ q, double.Denotes (.finite s m e) negative q ∧ |q - num / den| ≤ num / den / 2 ^ 52 := by
  have hnum : 0 < num := by
    rcases num.eq_zero_or_pos with rfl | hnum
    · norm_num at hone
    · exact hnum
  obtain ⟨q, hq, hnear⟩ := Binary.Format.round_near hnum hden (by decide) h
  have hnormal : (2 : ℚ) ^ (double.minExponent + double.precision - 1) ≤ num / den :=
    (zpow_le_one_of_nonpos₀ one_le_two (by decide)).trans hone
  refine ⟨q, hq, hnear.trans ((Binary.Format.exponentFor_relative hnum hden hnormal).trans_eq ?_)⟩
  rw [show (1 - double.precision : Int) = -52 from rfl, zpow_neg, ← div_eq_mul_inv]
  norm_cast

theorem length_of_rounded {fontSize units n : Int} {x : Number} {size : ℚ}
    (hx : double.ofInt fontSize = .ok x) (hsize : double.Denotes x false size) (hone : 8 ≤ size)
    (hunits : units.natAbs ≤ 2 ^ 53) (h : length fontSize units = .ok n) :
    ∃ q : ℚ, 0 ≤ q ∧ n = signed (decide (units < 0)) ⌊q / 8⌋₊ ∧
      |q - size * units.natAbs| ≤ size * units.natAbs / 2 ^ 52 := by
  rcases units.natAbs.eq_zero_or_pos with hzero | hpos
  · have hproduct : size * (units.natAbs : ℚ) = 0 := by
      rw [hzero, Nat.cast_zero, mul_zero]
    have hlength := length_of_natCast hx hsize hunits (hproduct.trans Nat.cast_zero.symm) (Nat.zero_le _)
    rw [hproduct]
    exact ⟨(0 : Nat), by simp, Except.ok.inj (h.symm.trans hlength), by norm_num⟩
  · obtain ⟨y, hy, hy'⟩ := Binary.Format.denotes_of_ofInt (holds_natCast hunits)
    obtain ⟨num, den, hmul, hden, hvalue⟩ := Binary.Format.mul_eq_round hsize hy'
    obtain ⟨s, m, e, hr⟩ := finite_of_length hx hy h
    have hproduct : 8 ≤ size * (units.natAbs : ℚ) := by
      have hunits' : (1 : ℚ) ≤ units.natAbs := by exact_mod_cast hpos
      nlinarith
    rw [hmul] at hr
    obtain ⟨q, hq, herror⟩ := round_relative hden (by rw [hvalue]; linarith) hr
    rw [hvalue] at herror
    have hlarge : 1 ≤ q := by
      have hlow := (abs_le.1 herror).1
      linarith
    have hlength := length_of_product hx hy (by rw [hmul, hr]; exact hq) (.inr hlarge)
    rw [Bool.false_bne] at hlength
    exact ⟨q, by linarith, Except.ok.inj (h.symm.trans hlength), herror⟩

theorem cast_natAbs_of_nonneg {n : Int} (h : 0 ≤ n) : (n.natAbs : ℚ) = n := by
  rw [← Int.cast_natCast, Int.natAbs_of_nonneg h]

theorem denotes_fontSize {fontSize : Int} {x : Number} (h8 : 8 ≤ fontSize)
    (hx : double.ofInt fontSize = .ok x) :
    ∃ size : ℚ, double.Denotes x false size ∧ (fontSize ≤ 2 ^ 53 → size = fontSize) ∧
      (fontSize : ℚ) / 2 ≤ size := by
  have hneg : decide (fontSize < 0) = false := decide_eq_false (by omega)
  have habs : (fontSize.natAbs : ℚ) = fontSize := cast_natAbs_of_nonneg (by omega)
  have h8' : (8 : ℚ) ≤ fontSize := by exact_mod_cast h8
  rcases le_or_gt fontSize (2 ^ 53) with hle | hlarge
  · obtain ⟨y, hy, hsize⟩ := Binary.Format.denotes_of_ofInt
      (holds_natCast (show fontSize.natAbs ≤ 2 ^ 53 by omega))
    obtain rfl := Except.ok.inj (hx.symm.trans hy)
    rw [hneg, habs] at hsize
    exact ⟨fontSize, hsize, fun _ => rfl, by linarith⟩
  · have hnum : 0 < fontSize.natAbs := by omega
    rw [Binary.Format.ofInt, Binary.Format.nearest, hneg] at hx
    split at hx
    · rename_i s m e hr
      obtain rfl := Except.ok.inj hx
      obtain ⟨size, hsize, hnear⟩ := round_relative one_pos
        (show (1 : ℚ) ≤ fontSize.natAbs / (1 : Nat) by rw [habs]; norm_num; linarith) hr
      rw [Nat.cast_one, div_one, habs, abs_le] at hnear
      exact ⟨size, hsize, fun hle => absurd hlarge hle.not_gt, by linarith⟩
    · cases hx

theorem length_zero_of_ofInt {fontSize : Int} {x : Number} (h8 : 8 ≤ fontSize)
    (hx : double.ofInt fontSize = .ok x) : length fontSize 0 = .ok 0 := by
  obtain ⟨size, hsize, -⟩ := denotes_fontSize h8 hx
  have hproduct : size * (0 : Int).natAbs = (0 : Nat) := by simp
  have hlength := length_of_natCast hx hsize (by decide) hproduct (by decide)
  simpa using hlength

theorem length_zero {fontSize u n : Int} (h8 : 8 ≤ fontSize) (h : length fontSize u = .ok n) :
    length fontSize 0 = .ok 0 := by
  cases hx : double.ofInt fontSize with
  | error e =>
      rw [length, hx] at h
      cases h
  | ok x => exact length_zero_of_ofInt h8 hx

theorem length_of_small {fontSize u n : Int} {x : Number} (hx : double.ofInt fontSize = .ok x)
    (hsize : double.Denotes x false fontSize) (hpos : 0 ≤ fontSize) (hle : fontSize ≤ 2 ^ 49)
    (hu : u.natAbs ≤ 15) (h : length fontSize u = .ok n) :
    n = signed (decide (u < 0)) ⌊(fontSize * u.natAbs : ℚ) / 8⌋₊ := by
  have hproduct : (fontSize : ℚ) * u.natAbs = (fontSize.natAbs * u.natAbs : Nat) := by
    rw [Nat.cast_mul, cast_natAbs_of_nonneg hpos]
  have hbound : fontSize.natAbs * u.natAbs ≤ 2 ^ 53 :=
    calc fontSize.natAbs * u.natAbs ≤ 2 ^ 49 * 15 := Nat.mul_le_mul (by omega) hu
      _ ≤ 2 ^ 53 := by decide
  rw [hproduct]
  exact Except.ok.inj (h.symm.trans (length_of_natCast hx hsize (by omega) hproduct hbound))

/-- All lengths of one font size, of at most 15 units, are near the multiples of one size. -/
theorem length_near {fontSize : Int} (h8 : 8 ≤ fontSize) :
    ∃ size slack : ℚ, 0 ≤ slack ∧ 2 * slack + 8 ≤ size ∧
      ∀ u n, u.natAbs ≤ 15 → length fontSize u = .ok n →
        ∃ q : ℚ, 0 ≤ q ∧ n = signed (decide (u < 0)) ⌊q / 8⌋₊ ∧ |q - size * u.natAbs| ≤ slack := by
  cases hx : double.ofInt fontSize with
  | error e =>
      refine ⟨8, 0, le_rfl, by norm_num, ?_⟩
      intro u n _ h
      rw [length, hx] at h
      cases h
  | ok x =>
      obtain ⟨size, hsize, hexact, hlow⟩ := denotes_fontSize h8 hx
      have h8' : (8 : ℚ) ≤ fontSize := by exact_mod_cast h8
      rcases Int.le_total fontSize (2 ^ 49) with hle | hlarge
      · obtain rfl := hexact (by omega)
        refine ⟨fontSize, 0, le_rfl, by linarith, ?_⟩
        intro u n hu h
        have hn := length_of_small hx hsize (by omega) hle hu h
        exact ⟨fontSize * u.natAbs, by positivity, hn, by rw [sub_self, abs_zero]⟩
      · have hlarge' : (2 : ℚ) ^ 49 ≤ fontSize := by exact_mod_cast hlarge
        refine ⟨size, size / 2 ^ 48, by linarith, by linarith, ?_⟩
        intro u n hu h
        obtain ⟨q, hq, hn, hnear⟩ := length_of_rounded hx hsize (by linarith) (by omega) h
        refine ⟨q, hq, hn, hnear.trans ?_⟩
        have hu' : (u.natAbs : ℚ) ≤ 15 := by exact_mod_cast hu
        nlinarith

theorem sign_of_signed {s t : Bool} {k : Nat} (hk : 0 < k) (h : signed s k = signed t k) : s = t := by
  simp only [signed] at h
  cases s with
  | false => cases t with
      | false => rfl
      | true => simp only [Bool.false_eq_true, if_false, if_true] at h; omega
  | true => cases t with
      | false => simp only [Bool.false_eq_true, if_false, if_true] at h; omega
      | true => rfl

theorem floor_lt_floor {size slack q r : ℚ} {a b : Nat} (hab : a < b) (hsize : 2 * slack + 8 ≤ size)
    (hslack : 0 ≤ slack) (hq : 0 ≤ q) (hqa : |q - size * a| ≤ slack) (hrb : |r - size * b| ≤ slack) :
    ⌊q / 8⌋₊ < ⌊r / 8⌋₊ := by
  have hab' : (a : ℚ) + 1 ≤ b := by exact_mod_cast hab
  have hq8 : q / 8 + 1 ≤ r / 8 := by
    have hhigh := (abs_le.1 hqa).2
    have hlow := (abs_le.1 hrb).1
    nlinarith
  calc ⌊q / 8⌋₊ < ⌊q / 8⌋₊ + 1 := Nat.lt_succ_self _
    _ = ⌊q / 8 + 1⌋₊ := (Nat.floor_add_one (by positivity)).symm
    _ ≤ ⌊r / 8⌋₊ := Nat.floor_le_floor hq8

/-- Two lengths of one font size are apart by at least a pixel, whether or not their products are
rounded. -/
theorem length_injective {fontSize u v n : Int} (h8 : 8 ≤ fontSize) (hu : u.natAbs ≤ 15)
    (hv : v.natAbs ≤ 15) (hnu : length fontSize u = .ok n) (hnv : length fontSize v = .ok n) : u = v := by
  obtain ⟨size, slack, hslack, hsize, hnear⟩ := length_near h8
  obtain ⟨q, hq, hqn, hqu⟩ := hnear u n hu hnu
  obtain ⟨r, hr, hrn, hrv⟩ := hnear v n hv hnv
  have hfloor : ⌊q / 8⌋₊ = ⌊r / 8⌋₊ := by
    rw [← Binary.natAbs_signed (decide (u < 0)) ⌊q / 8⌋₊, ← hqn, hrn, Binary.natAbs_signed]
  rcases lt_trichotomy u.natAbs v.natAbs with hlt | heq | hlt
  · exact absurd hfloor (floor_lt_floor hlt hsize hslack hq hqu hrv).ne
  · rcases u.natAbs.eq_zero_or_pos with hzero | hpos
    · omega
    · have hlow : |(0 : ℚ) - size * (0 : Nat)| ≤ slack := by simpa using hslack
      have hone := floor_lt_floor hpos hsize hslack le_rfl hlow hqu
      have hsign : signed (decide (u < 0)) ⌊q / 8⌋₊ = signed (decide (v < 0)) ⌊q / 8⌋₊ := by
        rw [← hqn, hrn, hfloor]
      have hneg := decide_eq_decide.1 (sign_of_signed (Nat.zero_lt_of_lt hone) hsign)
      omega
  · exact absurd hfloor (floor_lt_floor hlt hsize hslack hr hrv hqu).ne'

end StrokeFont.Scale
