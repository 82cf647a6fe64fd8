import StrokeFont.Canvas.Basic
import StrokeFont.Proofs.Binary.Overflow

namespace StrokeFont.Color

open Binary (Number)
open Binary.Format (single double)

/-- What single precision makes of a component laid over another: their shares added, without a fraction.
The exact mixture, as `alpha` is to the rest of 255, lies between that and the next whole number. -/
def Mixture (alpha source : Int) (below blended : UInt8) : Prop :=
  let share := double.div (double.nearest alpha) (double.nearest 255)
  let rest := double.sub (double.nearest 1) share
  let sum := single.add (single.mul (single.nearest source) (single.convert share))
    (single.mul (single.nearest below.toNat) (single.convert rest))
  sum.truncate = .ok blended.toNat ∧
    255 * blended.toNat ≤ alpha * source + (255 - alpha) * below.toNat ∧
    alpha * source + (255 - alpha) * below.toNat ≤ 255 * (blended.toNat + 1)

theorem byte_toNat (n : UInt8) : byte n.toNat = n := by
  have hlt := n.toNat_lt
  rw [byte, Int.emod_eq_of_lt (by omega) (by omega), Int.toNat_natCast, UInt8.ofNat_toNat]

theorem toNat_byte {n : Nat} (h : n ≤ 255) : (byte n).toNat = n := by
  rw [byte, Int.emod_eq_of_lt (by omega) (by omega), Int.toNat_natCast, UInt8.toNat_ofNat',
    Nat.mod_eq_of_lt (by omega)]

theorem exists_byte {n : Int} (h : 0 ≤ n ∧ n ≤ 255) : ∃ b : UInt8, n = b.toNat := by
  obtain ⟨k, rfl⟩ := Int.eq_ofNat_of_zero_le h.1
  exact ⟨byte k, by rw [toNat_byte (by omega)]⟩

theorem holds_byte (n : UInt8) : single.Holds n.toNat :=
  Binary.Format.holds_natCast_of_lt (n.toNat_lt.trans (by decide)) (by decide) (by decide)

theorem denotes_byte (n : UInt8) : single.Denotes (single.nearest n.toNat) false n.toNat := by
  have hnearest := Binary.Format.denotes_nearest (n := (n.toNat : Int)) (holds_byte n)
  rwa [decide_eq_false (by omega)] at hnearest

/-- A number of single precision that is not negative and lies near `q`. -/
def Near (x : Number) (q slack : ℚ) : Prop :=
  ∃ r, single.Denotes x false r ∧ |r - q| ≤ slack

def isShare (k : Nat) : Number → Bool
  | .finite false m e =>
      let (num, den) := Number.ratio m e
      m < 2 ^ 24 && -149 ≤ e && e ≤ 104 && (num * 255 - den * k : Int).natAbs * 2 ^ 20 ≤ den * 255
  | _ => false

theorem near_of_isShare {x : Number} {k : Nat} (h : isShare k x = true) :
    Near x (k / 255) (1 / 2 ^ 20) := by
  unfold isShare at h
  split at h
  · rename_i m e
    simp only [Bool.and_eq_true, decide_eq_true_eq] at h
    obtain ⟨⟨⟨hm, hmin⟩, hmax⟩, hnear⟩ := h
    have hden : (0 : ℚ) < (Number.ratio m e).2 := by exact_mod_cast Number.ratio_pos m e
    have hvalue := Binary.ratio_value m e
    generalize Number.ratio m e = quotient at hnear hden hvalue
    obtain ⟨num, den⟩ := quotient
    simp only at hnear hden hvalue
    have hscaled : |(num : ℚ) * 255 - den * k| * 2 ^ 20 ≤ den * 255 := by
      have hcast := (Nat.cast_le (α := ℚ)).2 hnear
      push_cast [Nat.cast_natAbs] at hcast
      exact hcast
    refine ⟨m * 2 ^ e, ⟨m, e, rfl, rfl, hm, hmin, hmax⟩, ?_⟩
    rwa [← hvalue, div_sub_div _ _ hden.ne' (by norm_num), abs_div, abs_of_pos (mul_pos hden (by norm_num)),
      div_le_div_iff₀ (mul_pos hden (by norm_num)) (by norm_num), one_mul]
  · cases h

theorem shares_near (alpha : UInt8) :
    Near (shares alpha.toNat).1 (alpha.toNat / 255) (1 / 2 ^ 20) ∧
      Near (shares alpha.toNat).2 ((255 - alpha.toNat : Nat) / 255) (1 / 2 ^ 20) := by
  -- The shares are a function of one byte, so each of its values can be looked at.
  have hshares : ∀ k < 256, isShare k (shares k).1 = true ∧ isShare (255 - k) (shares k).2 = true := by
    decide +kernel
  obtain ⟨hpen, hrest⟩ := hshares alpha.toNat alpha.toNat_lt
  exact ⟨near_of_isShare hpen, near_of_isShare hrest⟩

theorem Near.mono {x : Number} {q slack slack' : ℚ} (h : Near x q slack) (hle : slack ≤ slack') :
    Near x q slack' := by
  obtain ⟨r, hr, hnear⟩ := h
  exact ⟨r, hr, hnear.trans hle⟩

theorem near_round {num den : Nat} {q slack : ℚ} (hden : 0 < den) (hq : q ≤ 255) (hslack : slack < 1)
    (h : |(num : ℚ) / den - q| ≤ slack) : Near (single.round false num den) q (slack + 1 / 2 ^ 16) := by
  have hlt : (num : ℚ) / den < 2 ^ (8 : Int) := by
    have hhigh := (abs_le.1 h).2
    calc (num : ℚ) / den ≤ q + slack := by linarith
      _ < 256 := by linarith
      _ = 2 ^ (8 : Int) := by norm_num
  obtain ⟨r, hr, herror⟩ :=
    Binary.Format.round_error (f := single) hden (by decide) false (by decide) (by decide) hlt
  refine ⟨r, hr, ?_⟩
  calc |r - q| ≤ |r - num / den| + |(num : ℚ) / den - q| := abs_sub_le _ _ _
    _ ≤ 2 ^ ((8 : Int) - single.precision) + slack := add_le_add herror h
    _ = slack + 1 / 2 ^ 16 := by
        rw [show (8 : Int) - single.precision = -16 from rfl, zpow_neg, add_comm, one_div]
        norm_cast

theorem near_mul {x : Number} {k : Nat} {slack : ℚ} (source : UInt8) (hk : k ≤ 255)
    (hslack : 255 * slack < 1) (h : Near x (k / 255) slack) :
    Near (single.mul (single.nearest source.toNat) x) (k * source.toNat / 255)
      (255 * slack + 1 / 2 ^ 16) := by
  obtain ⟨r, hr, hnear⟩ := h
  obtain ⟨num, den, hmul, hden, hvalue⟩ := Binary.Format.mul_eq_round (denotes_byte source) hr
  have hsource : (source.toNat : ℚ) ≤ 255 := by exact_mod_cast Nat.le_of_lt_succ source.toNat_lt
  have hk' : (k : ℚ) ≤ 255 := by exact_mod_cast hk
  have hexact : k * (source.toNat : ℚ) / 255 ≤ 255 := by
    rw [div_le_iff₀ (by norm_num)]
    gcongr
  have hdrift : |(num : ℚ) / den - k * source.toNat / 255| ≤ 255 * slack := by
    calc |(num : ℚ) / den - k * source.toNat / 255| = source.toNat * |r - k / 255| := by
          rw [hvalue, mul_comm (k : ℚ), mul_div_assoc, ← mul_sub, abs_mul, Nat.abs_cast]
      _ ≤ 255 * slack := by gcongr
  rw [hmul]
  exact near_round hden hexact hslack hdrift

theorem near_add {x y : Number} {p q slack slack' : ℚ} (hpq : p + q ≤ 255) (hslack : slack + slack' < 1)
    (hx : Near x p slack) (hy : Near y q slack') :
    Near (single.add x y) (p + q) (slack + slack' + 1 / 2 ^ 16) := by
  obtain ⟨a, ha, hnear⟩ := hx
  obtain ⟨b, hb, hnear'⟩ := hy
  obtain ⟨num, den, hadd, hden, hvalue⟩ := Binary.Format.add_eq_round ha hb
  rw [hadd]
  refine near_round hden hpq hslack ?_
  rw [hvalue, add_sub_add_comm]
  exact (abs_add_le _ _).trans (add_le_add hnear hnear')

theorem floor_of_near {k : Nat} {r : ℚ} (hr : 0 ≤ r) (h : |r - k / 255| < 1 / 255) :
    255 * ⌊r⌋₊ ≤ k ∧ k ≤ 255 * (⌊r⌋₊ + 1) := by
  -- The slack is less than a part of 255, so no whole number but the mixture itself can be missed.
  obtain ⟨hlow, hhigh⟩ := abs_lt.1 h
  have hfloor := Nat.floor_le hr
  have hceil := Nat.lt_floor_add_one r
  constructor
  · have hlt : (255 * ⌊r⌋₊ : ℚ) < k + 1 := by linarith
    exact Nat.lt_succ_iff.1 (by exact_mod_cast hlt)
  · have hlt : (k : ℚ) < 255 * (⌊r⌋₊ + 1) + 1 := by linarith
    exact Nat.lt_succ_iff.1 (by exact_mod_cast hlt)

theorem weighted_sum_le (alpha source below : UInt8) :
    alpha.toNat * source.toNat + (255 - alpha.toNat) * below.toNat ≤ 255 * 255 := by
  have halpha : alpha.toNat ≤ 255 := Nat.le_of_lt_succ alpha.toNat_lt
  have hsource : source.toNat ≤ 255 := Nat.le_of_lt_succ source.toNat_lt
  have hbelow : below.toNat ≤ 255 := Nat.le_of_lt_succ below.toNat_lt
  calc alpha.toNat * source.toNat + (255 - alpha.toNat) * below.toNat
      ≤ alpha.toNat * 255 + (255 - alpha.toNat) * 255 := by gcongr
    _ = 255 * 255 := by omega

theorem blend_near (alpha source below : UInt8) :
    Near
      (single.add (single.mul (single.nearest source.toNat) (shares alpha.toNat).1)
        (single.mul (single.nearest below.toNat) (shares alpha.toNat).2))
      ((alpha.toNat * source.toNat + (255 - alpha.toNat) * below.toNat : Nat) / 255) (1 / 2 ^ 9) := by
  obtain ⟨hpen, hrest⟩ := shares_near alpha
  have hover := near_mul source (Nat.le_of_lt_succ alpha.toNat_lt) (by norm_num) hpen
  have hunder := near_mul below (Nat.sub_le 255 alpha.toNat) (by norm_num) hrest
  rw [Nat.cast_add, Nat.cast_mul, Nat.cast_mul, add_div]
  refine (near_add ?_ (by norm_num) hover hunder).mono (by norm_num)
  rw [← add_div, div_le_iff₀ (by norm_num)]
  exact_mod_cast weighted_sum_le alpha source below

theorem mixture_mix {alpha source : Int} (halpha : 0 ≤ alpha ∧ alpha ≤ 255)
    (hsource : 0 ≤ source ∧ source ≤ 255) (below : UInt8) :
    Mixture alpha source below (mix (shares alpha) source below) := by
  obtain ⟨a, rfl⟩ := exists_byte halpha
  obtain ⟨b, rfl⟩ := exists_byte hsource
  obtain ⟨r, hr, hnear⟩ := blend_near a b below
  obtain ⟨hlow, hhigh⟩ := floor_of_near hr.nonneg (hnear.trans_lt (by norm_num))
  have ha : a.toNat ≤ 255 := Nat.le_of_lt_succ a.toNat_lt
  have hrest : ((255 - a.toNat : Nat) : Int) = 255 - a.toNat := Nat.cast_sub ha
  have htruncate : _ = Except.ok (⌊r⌋₊ : Int) := hr.truncate
  have hmix : (mix (shares a.toNat) b.toNat below).toNat = ⌊r⌋₊ := by
    have hle : ⌊r⌋₊ ≤ 255 :=
      Nat.le_of_mul_le_mul_left (hlow.trans (weighted_sum_le a b below)) (by decide)
    simp only [mix, htruncate]
    exact toNat_byte hle
  rw [Mixture, hmix, ← hrest]
  exact ⟨htruncate, by exact_mod_cast hlow, by exact_mod_cast hhigh⟩

theorem cover_mixture {pen : Color} (h : ∀ n ∈ pen.components, 0 ≤ n ∧ n ≤ 255) (below : Pixel) :
    let covered := pen.cover below
    Mixture pen.alpha pen.red below.red covered.red ∧ Mixture pen.alpha pen.green below.green covered.green ∧
      Mixture pen.alpha pen.blue below.blue covered.blue ∧ covered.alpha = 255 := by
  simp only [components, List.forall_mem_cons] at h
  obtain ⟨hred, hgreen, hblue, halpha, -⟩ := h
  exact ⟨mixture_mix halpha hred below.red, mixture_mix halpha hgreen below.green,
    mixture_mix halpha hblue below.blue, rfl⟩

end StrokeFont.Color
