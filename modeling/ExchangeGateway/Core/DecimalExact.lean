import ExchangeGateway.Core.Decimal
import Mathlib.Tactic.IntervalCases
import Mathlib.Tactic.NormNum

/-! Decimal arithmetic against rational values: within 64-bit mantissas and internal scales no
128-bit intermediate overflows, so comparison, addition and the clamped difference are exact
whenever their result fits. -/
namespace ExchangeGateway
open FixedPoint

namespace Decimal

/-- The rational number a decimal stands for. -/
def value (d : Decimal) : ℚ := scaled d.unscaled d.scale

/-- The decimal fits the fields of the source's struct at an internal scale. -/
structure Fits (d : Decimal) : Prop where
  lower : kLlMin ≤ d.unscaled
  upper : d.unscaled ≤ kLlMax
  scale : d.scale ≤ kMaxInternalScale

theorem fits_zero : Fits {} := ⟨by decide, by decide, by decide⟩

@[simp] theorem value_zero : value {} = 0 := scaled_zero 0

theorem compare_self (d : Decimal) : d.compare d = 0 := by
  simp [compare, aligned]

theorem wide_eq {x : ℤ} (hl : -2 ^ 127 ≤ x) (hu : x < 2 ^ 127) : wide x = x := by
  unfold wide
  apply Int.bmod_eq_of_le_mul_two <;> norm_num <;> omega

theorem fitsLl_iff {x : ℤ} : fitsLl x ↔ kLlMin ≤ x ∧ x ≤ kLlMax := by
  simp [fitsLl, and_comm]

theorem longLong_eq {x : ℤ} (h : fitsLl x) : longLong x = x := by
  obtain ⟨hl, hu⟩ := fitsLl_iff.mp h
  unfold kLlMin at hl
  unfold kLlMax at hu
  unfold longLong
  apply Int.bmod_eq_of_le_mul_two <;> norm_num <;> omega

theorem fitsLl_longLong (x : ℤ) : fitsLl (longLong x) := by
  have hlo := @Int.le_bmod x (2 ^ 64) (by norm_num)
  have hhi := @Int.bmod_lt x (2 ^ 64) (by norm_num)
  rw [fitsLl_iff]
  unfold longLong kLlMin kLlMax
  norm_num at hlo hhi ⊢
  omega

theorem wide_eq_iff {x : ℤ} : wide x = x ↔ -2 ^ 127 ≤ x ∧ x < 2 ^ 127 := by
  constructor
  · intro h
    have hlo := @Int.le_bmod x (2 ^ 128) (by norm_num)
    have hhi := @Int.bmod_lt x (2 ^ 128) (by norm_num)
    rw [← wide, h] at hlo hhi
    norm_num at hlo hhi ⊢
    omega
  · rintro ⟨hlo, hhi⟩
    exact wide_eq hlo hhi

/-- 10³⁸ is the largest power of ten that 128 bits hold. -/
theorem pow10_eq {e : ℕ} (h : e ≤ 38) : pow10 e = 10 ^ e := by
  induction e with
  | zero => rfl
  | succ e ih =>
    have hpow : (10 : ℤ) ^ (e + 1) ≤ 10 ^ 38 := pow_le_pow_right₀ (by norm_num) h
    have hpos : (0 : ℤ) < 10 ^ (e + 1) := by positivity
    rw [pow10, ih (by omega), ← pow_succ]
    norm_num at hpow
    exact wide_eq (by omega) (by omega)

def mantissaAt (d : Decimal) (k : ℕ) : ℤ := d.unscaled * 10 ^ (k - d.scale)

theorem scaled_mantissaAt (d : Decimal) {k : ℕ} (h : d.scale ≤ k) :
    scaled (d.mantissaAt k) k = d.value := scaled_rescale d.unscaled h

theorem Fits.mantissaAt_bounds {d : Decimal} (hd : d.Fits) {k : ℕ} (hk : k ≤ kMaxInternalScale) :
    -2 ^ 126 ≤ d.mantissaAt k ∧ d.mantissaAt k < 2 ^ 126 := by
  have hl := hd.lower
  have hu := hd.upper
  have he : k - d.scale ≤ 16 := (Nat.sub_le _ _).trans hk
  have hp : (1 : ℤ) ≤ 10 ^ (k - d.scale) := one_le_pow₀ (by norm_num)
  have hq : (10 : ℤ) ^ (k - d.scale) ≤ 10 ^ 16 := pow_le_pow_right₀ (by norm_num) he
  unfold kLlMin at hl
  unfold kLlMax at hu
  unfold mantissaAt
  generalize (10 : ℤ) ^ (k - d.scale) = p at hp hq
  constructor <;> nlinarith

theorem wide_mantissaAt {d : Decimal} (hd : d.Fits) {k : ℕ} (hk : k ≤ kMaxInternalScale) :
    wide (d.unscaled * pow10 (k - d.scale)) = d.mantissaAt k := by
  obtain ⟨hl, hu⟩ := hd.mantissaAt_bounds hk
  rw [pow10_eq ((Nat.sub_le _ _).trans (hk.trans (by decide)))]
  exact wide_eq (by unfold mantissaAt at hl; omega) (by unfold mantissaAt at hu; omega)

/-- Aligning never overflows 128 bits. -/
theorem aligned_eq {a b : Decimal} (ha : a.Fits) (hb : b.Fits) :
    a.aligned b =
      (a.mantissaAt (max a.scale b.scale), b.mantissaAt (max a.scale b.scale)) := by
  have hm : max a.scale b.scale ≤ kMaxInternalScale := max_le ha.scale hb.scale
  simp only [aligned, wide_mantissaAt ha hm, wide_mantissaAt hb hm]

theorem compare_pos_iff {a b : Decimal} (ha : a.Fits) (hb : b.Fits) :
    0 < a.compare b ↔ b.value < a.value := by
  rw [← scaled_mantissaAt a (le_max_left a.scale b.scale),
    ← scaled_mantissaAt b (le_max_right a.scale b.scale), scaled_lt_scaled]
  simp only [compare, aligned_eq ha hb]
  split_ifs <;> omega

theorem normalized_value (d : Decimal) : (normalized d).value = d.value := by
  have h := stripZeros_value d.unscaled d.scale
  simp only [normalized]
  split_ifs with hz
  · rw [hz, scaled_zero] at h
    simp only [value, hz, scaled_zero]
    exact h
  · exact h

theorem normalized_scale_le (d : Decimal) : (normalized d).scale ≤ d.scale := by
  simp only [normalized]
  split_ifs
  · exact Nat.zero_le _
  · exact stripZeros_scale_le _ _

theorem normalized_unscaled (d : Decimal) :
    (normalized d).unscaled = (stripZeros d.unscaled d.scale).1 := by
  simp only [normalized]
  split_ifs <;> rfl

theorem Fits.normalized {d : Decimal} (hd : d.Fits) : d.normalized.Fits := by
  obtain ⟨hp, hm⟩ := stripZeros_mantissa d.unscaled d.scale
  have hl := hd.lower
  have hu := hd.upper
  have h0 : kLlMin ≤ 0 ∧ 0 ≤ kLlMax := by decide
  rw [← normalized_unscaled] at hp hm
  refine ⟨?_, ?_, (normalized_scale_le d).trans hd.scale⟩ <;> omega

theorem normalized_nonneg {d : Decimal} (h : 0 ≤ d.unscaled) : 0 ≤ (normalized d).unscaled := by
  rw [normalized_unscaled]
  exact ((stripZeros_mantissa d.unscaled d.scale).1 h).1

/-- The representation `normalized` returns: no trailing fractional zero, and zero at scale 0. -/
def Normal (d : Decimal) : Prop := Stripped d.unscaled d.scale ∧ (d.unscaled = 0 → d.scale = 0)

theorem normalized_normal (d : Decimal) : (normalized d).Normal := by
  have h := stripZeros_stripped d.unscaled d.scale
  simp only [normalized]
  split_ifs with hz
  · exact ⟨Or.inl rfl, fun _ => rfl⟩
  · exact ⟨h, fun h0 => absurd h0 hz⟩

theorem normalized_of_normal {d : Decimal} (h : d.Normal) : normalized d = d := by
  have hs := stripZeros_of_stripped h.1
  simp only [normalized, hs]
  split_ifs with hz
  · rw [← h.2 hz]
  · rfl

def sumMantissa (a b : Decimal) : ℤ :=
  a.mantissaAt (max a.scale b.scale) + b.mantissaAt (max a.scale b.scale)

theorem add_eq {a b : Decimal} (ha : a.Fits) (hb : b.Fits) :
    a.add b = if fitsLl (sumMantissa a b)
      then .ok (normalized ⟨sumMantissa a b, max a.scale b.scale⟩)
      else .error (overflowError "add") := by
  have hm : max a.scale b.scale ≤ kMaxInternalScale := max_le ha.scale hb.scale
  obtain ⟨hal, hau⟩ := ha.mantissaAt_bounds hm
  obtain ⟨hbl, hbu⟩ := hb.mantissaAt_bounds hm
  have hw : wide (sumMantissa a b) = sumMantissa a b := by
    unfold sumMantissa
    exact wide_eq (by omega) (by omega)
  simp only [add, aligned_eq ha hb]
  rw [show a.mantissaAt _ + b.mantissaAt _ = sumMantissa a b from rfl, hw]
  by_cases hf : fitsLl (sumMantissa a b)
  · simp [hf, longLong_eq hf]
  · simp [hf]

def diffMantissa (a b : Decimal) : ℤ :=
  a.mantissaAt (max a.scale b.scale) - b.mantissaAt (max a.scale b.scale)

theorem scaled_sumMantissa (a b : Decimal) :
    scaled (sumMantissa a b) (max a.scale b.scale) = a.value + b.value := by
  rw [sumMantissa, scaled_add, scaled_mantissaAt a (le_max_left _ _),
    scaled_mantissaAt b (le_max_right _ _)]

theorem scaled_diffMantissa (a b : Decimal) :
    scaled (diffMantissa a b) (max a.scale b.scale) = a.value - b.value := by
  rw [diffMantissa, scaled_sub, scaled_mantissaAt a (le_max_left _ _),
    scaled_mantissaAt b (le_max_right _ _)]

theorem add_ok {a b c : Decimal} (ha : a.Fits) (hb : b.Fits) (h : a.add b = .ok c) :
    c.value = a.value + b.value ∧ c.Fits ∧ c.Normal ∧ c.scale ≤ max a.scale b.scale := by
  rw [add_eq ha hb] at h
  split_ifs at h with hf
  obtain rfl := Except.ok.inj h
  obtain ⟨hl, hu⟩ := fitsLl_iff.mp hf
  refine ⟨?_, Fits.normalized ⟨hl, hu, max_le ha.scale hb.scale⟩, normalized_normal _,
    normalized_scale_le _⟩
  rw [normalized_value]
  exact scaled_sumMantissa a b

/-- Products of 64-bit mantissas fit 128 bits. -/
theorem Fits.mul_bounds {a b : Decimal} (ha : a.Fits) (hb : b.Fits) :
    -2 ^ 127 ≤ a.unscaled * b.unscaled ∧ a.unscaled * b.unscaled < 2 ^ 127 := by
  have hal := ha.lower
  have hau := ha.upper
  have hbl := hb.lower
  have hbu := hb.upper
  unfold kLlMin at hal hbl
  unfold kLlMax at hau hbu
  constructor
  · nlinarith
  · nlinarith

theorem mul_eq {a b : Decimal} (ha : a.Fits) (hb : b.Fits) :
    a.mul b = if fitsLl (a.unscaled * b.unscaled)
      then .ok (normalized ⟨a.unscaled * b.unscaled, a.scale + b.scale⟩)
      else .error (overflowError "mul") := by
  obtain ⟨hlower, hupper⟩ := ha.mul_bounds hb
  have hw : wide (a.unscaled * b.unscaled) = a.unscaled * b.unscaled := wide_eq hlower hupper
  simp only [mul, hw]
  by_cases hf : fitsLl (a.unscaled * b.unscaled)
  · simp [hf, longLong_eq hf]
  · simp [hf]

theorem mul_ok {a b c : Decimal} (ha : a.Fits) (hb : b.Fits)
    (hscale : a.scale + b.scale ≤ kMaxInternalScale) (h : a.mul b = .ok c) :
    c.value = a.value * b.value ∧ c.Fits := by
  rw [mul_eq ha hb] at h
  split_ifs at h with hf
  obtain rfl := Except.ok.inj h
  obtain ⟨hl, hu⟩ := fitsLl_iff.mp hf
  refine ⟨?_, Fits.normalized ⟨hl, hu, hscale⟩⟩
  rw [normalized_value]
  exact scaled_mul _ _ _ _

theorem negate_value {d : Decimal} (hl : kLlMin < d.unscaled) (hu : d.unscaled ≤ kLlMax) :
    d.negate.value = -d.value ∧ d.negate.unscaled = -d.unscaled := by
  have hf : fitsLl (-d.unscaled) := by
    rw [fitsLl_iff]
    unfold kLlMin kLlMax at *
    omega
  have hn : d.negate = ⟨-d.unscaled, d.scale⟩ := by rw [negate, longLong_eq hf]
  rw [hn]
  exact ⟨scaled_neg _ _, rfl⟩

/-- The clamped difference is exact when the difference fits 64 bits. -/
theorem subClampedZero_spec {a b : Decimal} (ha : a.Fits) (hb : b.Fits)
    (hf : diffMantissa a b ≤ kLlMax) :
    (a.subClampedZero b).value = max 0 (a.value - b.value) ∧ (a.subClampedZero b).Fits ∧
      0 ≤ (a.subClampedZero b).unscaled ∧
      (a.subClampedZero b).scale ≤ max a.scale b.scale := by
  have hm : max a.scale b.scale ≤ kMaxInternalScale := max_le ha.scale hb.scale
  have hd := scaled_diffMantissa a b
  simp only [subClampedZero, aligned_eq ha hb]
  rw [show a.mantissaAt _ - b.mantissaAt _ = diffMantissa a b from rfl]
  split_ifs with hle
  · refine ⟨?_, fits_zero, le_rfl, Nat.zero_le _⟩
    rw [value_zero, max_eq_left]
    rw [← hd, ← scaled_zero (max a.scale b.scale), scaled_le_scaled, diffMantissa]
    omega
  · have hpos : 0 ≤ diffMantissa a b := by unfold diffMantissa; omega
    have hl : kLlMin ≤ diffMantissa a b := le_trans (by decide) hpos
    have hw : wide (diffMantissa a b) = diffMantissa a b := by
      unfold kLlMax at hf
      exact wide_eq (by omega) (by omega)
    rw [hw, longLong_eq (fitsLl_iff.mpr ⟨hl, hf⟩)]
    refine ⟨?_, Fits.normalized ⟨hl, hf, hm⟩, normalized_nonneg hpos, normalized_scale_le _⟩
    rw [normalized_value, ← hd]
    exact (max_eq_right (scaled_nonneg.mpr hpos)).symm

end Decimal

end ExchangeGateway
