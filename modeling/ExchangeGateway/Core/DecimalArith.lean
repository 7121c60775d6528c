import ExchangeGateway.Core.DecimalText
import Mathlib.Data.Sign.Defs

/-! Decimal arithmetic over its whole range (`core/decimal.cpp`): comparison, sum, difference and
product are exact or say that they do not fit, the clamped difference is exact when it fits, and a
quotient is rounded correctly as long as its numerator stays within 128 bits. -/
namespace ExchangeGateway
open FixedPoint

namespace Decimal

/-! ### 128-bit intermediates -/

def pow10Steps (exponent : ℕ) : List ℤ := (List.range exponent).map fun i => pow10 i * 10

def alignedSteps (lhs rhs : Decimal) : List ℤ :=
  let scale := max lhs.scale rhs.scale
  pow10Steps (scale - lhs.scale) ++ pow10Steps (scale - rhs.scale) ++
    [lhs.unscaled * pow10 (scale - lhs.scale), rhs.unscaled * pow10 (scale - rhs.scale)]

def addSteps (lhs rhs : Decimal) : List ℤ :=
  alignedSteps lhs rhs ++ [(lhs.aligned rhs).1 + (lhs.aligned rhs).2]

def subSteps (lhs rhs : Decimal) : List ℤ :=
  alignedSteps lhs rhs ++ [(lhs.aligned rhs).1 - (lhs.aligned rhs).2]

def mulSteps (lhs rhs : Decimal) : List ℤ := [lhs.unscaled * rhs.unscaled]

/-- What `div` computes from its operands, on the branches it takes. -/
def quotientSteps (lhs rhs : ℤ) : List ℤ :=
  let p := wideMagnitude lhs
  let q := wideMagnitude rhs
  (if lhs < 0 then [-lhs] else []) ++ (if rhs < 0 then [-rhs] else []) ++ [p.tmod q * 2] ++
    (if wide (p.tmod q * 2) ≥ q then [p.tdiv q + 1] else []) ++
    (if (lhs < 0) != (rhs < 0) then [-roundedQuotient p q] else [])

def divSteps (lhs rhs : Decimal) (maxScale : ℕ) : List ℤ :=
  let common := max lhs.scale rhs.scale
  let operands := lhs.divOperands rhs maxScale
  pow10Steps (common - lhs.scale + maxScale) ++ pow10Steps (common - rhs.scale) ++
    [lhs.unscaled * pow10 (common - lhs.scale + maxScale),
      rhs.unscaled * pow10 (common - rhs.scale)] ++
    quotientSteps operands.1 operands.2

def InRange (steps : List ℤ) : Prop := ∀ x ∈ steps, wide x = x

theorem inRange_append {xs ys : List ℤ} : InRange (xs ++ ys) ↔ InRange xs ∧ InRange ys := by
  simp only [InRange, List.forall_mem_append]

theorem inRange_singleton {x : ℤ} : InRange [x] ↔ -2 ^ 127 ≤ x ∧ x < 2 ^ 127 := by
  rw [InRange, List.forall_mem_singleton, wide_eq_iff]

theorem inRange_ite {c : Prop} [Decidable c] {steps : List ℤ} (h : c → InRange steps) :
    InRange (if c then steps else []) := by
  split_ifs with hc
  · exact h hc
  · exact fun x hx => absurd hx List.not_mem_nil

theorem inRange_pow10Steps {exponent : ℕ} (h : exponent ≤ 38) : InRange (pow10Steps exponent) := by
  intro x hx
  obtain ⟨i, hi, rfl⟩ := List.mem_map.mp hx
  have hlt : i < exponent := List.mem_range.mp hi
  calc wide (pow10 i * 10) = 10 ^ (i + 1) := pow10_eq (e := i + 1) (by omega)
    _ = pow10 i * 10 := by rw [pow10_eq (by omega), pow_succ]

section

variable {a b : Decimal}

theorem Fits.inRange_aligned (ha : a.Fits) (hb : b.Fits) : InRange (alignedSteps a b) := by
  have hm : max a.scale b.scale ≤ kMaxInternalScale := max_le ha.scale hb.scale
  have hexp (k : ℕ) : max a.scale b.scale - k ≤ 38 := by
    unfold kMaxInternalScale at hm
    omega
  have hlast : InRange [a.unscaled * pow10 (max a.scale b.scale - a.scale),
      b.unscaled * pow10 (max a.scale b.scale - b.scale)] := by
    intro x hx
    simp only [List.mem_cons, List.not_mem_nil, or_false] at hx
    rcases hx with rfl | rfl
    · rw [wide_mantissaAt ha hm, pow10_eq (hexp _), mantissaAt]
    · rw [wide_mantissaAt hb hm, pow10_eq (hexp _), mantissaAt]
  unfold alignedSteps
  rw [inRange_append, inRange_append]
  exact ⟨⟨inRange_pow10Steps (hexp _), inRange_pow10Steps (hexp _)⟩, hlast⟩

theorem Fits.inRange_add (ha : a.Fits) (hb : b.Fits) : InRange (addSteps a b) := by
  have hm : max a.scale b.scale ≤ kMaxInternalScale := max_le ha.scale hb.scale
  obtain ⟨hal, hau⟩ := ha.mantissaAt_bounds hm
  obtain ⟨hbl, hbu⟩ := hb.mantissaAt_bounds hm
  rw [addSteps, inRange_append, inRange_singleton, aligned_eq ha hb]
  exact ⟨ha.inRange_aligned hb, by omega, by omega⟩

theorem Fits.inRange_sub (ha : a.Fits) (hb : b.Fits) : InRange (subSteps a b) := by
  have hm : max a.scale b.scale ≤ kMaxInternalScale := max_le ha.scale hb.scale
  obtain ⟨hal, hau⟩ := ha.mantissaAt_bounds hm
  obtain ⟨hbl, hbu⟩ := hb.mantissaAt_bounds hm
  rw [subSteps, inRange_append, inRange_singleton, aligned_eq ha hb]
  exact ⟨ha.inRange_aligned hb, by omega, by omega⟩

theorem Fits.inRange_mul (ha : a.Fits) (hb : b.Fits) : InRange (mulSteps a b) := by
  rw [mulSteps, inRange_singleton]
  exact ha.mul_bounds hb

/-! ### Exactness -/

def FitsAt (scale : ℕ) (x : ℚ) : Prop := kLlMin ≤ x * 10 ^ scale ∧ x * 10 ^ scale ≤ kLlMax

/-- The result is the normalized decimal of the number, or an error exactly when it does not
fit. -/
def Computes (x : ℚ) (fits : Prop) : Result Decimal → Prop
  | .ok c => c.value = x ∧ c.Normal ∧ fits
  | .error _ => ¬ fits

theorem fitsAt_scaled {n : ℤ} {k : ℕ} : FitsAt k (scaled n k) ↔ fitsLl n := by
  rw [FitsAt, scaled_mul_pow, fitsLl_iff]
  norm_cast

/-- What the operations have in common: a mantissa that is narrowed if it fits. -/
theorem computes_normalized (n : ℤ) (k : ℕ) (error : Error) :
    Computes (scaled n k) (fitsLl n)
      (if fitsLl n then .ok (normalized ⟨n, k⟩) else .error error) := by
  by_cases hfits : fitsLl n
  · rw [if_pos hfits]
    exact ⟨normalized_value _, normalized_normal _, hfits⟩
  · rw [if_neg hfits]
    exact hfits

theorem compare_eq_sign (ha : a.Fits) (hb : b.Fits) :
    a.compare b = SignType.sign (a.value - b.value) := by
  rw [← scaled_mantissaAt a (le_max_left a.scale b.scale),
    ← scaled_mantissaAt b (le_max_right a.scale b.scale)]
  simp only [compare, aligned_eq ha hb]
  rcases lt_trichotomy (a.mantissaAt (max a.scale b.scale)) (b.mantissaAt (max a.scale b.scale))
    with hlt | heq | hgt
  · rw [if_pos hlt, sign_neg (sub_neg.mpr (scaled_lt_scaled.mpr hlt))]
    rfl
  · rw [heq, if_neg (lt_irrefl _), if_neg (lt_irrefl _), sub_self, sign_zero]
    rfl
  · rw [if_neg hgt.not_gt, if_pos hgt, sign_pos (sub_pos.mpr (scaled_lt_scaled.mpr hgt))]
    rfl

theorem wide_diffMantissa (ha : a.Fits) (hb : b.Fits) :
    wide (diffMantissa a b) = diffMantissa a b := by
  have hlast := (inRange_append.mp (ha.inRange_sub hb)).2 _ (List.mem_singleton_self _)
  rw [aligned_eq ha hb] at hlast
  exact hlast

theorem sub_eq (ha : a.Fits) (hb : b.Fits) :
    a.sub b = if fitsLl (diffMantissa a b)
      then .ok (normalized ⟨diffMantissa a b, max a.scale b.scale⟩)
      else .error (overflowError "sub") := by
  simp only [sub, aligned_eq ha hb]
  rw [show a.mantissaAt _ - b.mantissaAt _ = diffMantissa a b from rfl, wide_diffMantissa ha hb]
  by_cases hf : fitsLl (diffMantissa a b)
  · simp [hf, longLong_eq hf]
  · simp [hf]

theorem computes_add (ha : a.Fits) (hb : b.Fits) :
    Computes (a.value + b.value) (FitsAt (max a.scale b.scale) (a.value + b.value)) (a.add b) := by
  rw [add_eq ha hb, ← scaled_sumMantissa, fitsAt_scaled]
  exact computes_normalized _ _ _

theorem computes_sub (ha : a.Fits) (hb : b.Fits) :
    Computes (a.value - b.value) (FitsAt (max a.scale b.scale) (a.value - b.value)) (a.sub b) := by
  rw [sub_eq ha hb, ← scaled_diffMantissa, fitsAt_scaled]
  exact computes_normalized _ _ _

theorem computes_mul (ha : a.Fits) (hb : b.Fits) :
    Computes (a.value * b.value) (fitsLl (a.unscaled * b.unscaled)) (a.mul b) := by
  rw [mul_eq ha hb, value, value, ← scaled_mul]
  exact computes_normalized _ _ _

/-- Normalized decimals of the same value are the same. -/
theorem Normal.eq_of_value_eq (ha : a.Normal) (hb : b.Normal) (h : a.value = b.value) : a = b := by
  obtain ⟨hunscaled, hscale⟩ := ha.1.eq_of_scaled_eq hb.1 h
  cases a
  cases b
  simp_all

/-- Comparison, sum, difference and product are exact, within 128 bits and normalized, for all
mantissas and internal scales. -/
theorem arithmetic_exact (ha : a.Fits) (hb : b.Fits) :
    a.compare b = SignType.sign (a.value - b.value) ∧
      Computes (a.value + b.value) (FitsAt (max a.scale b.scale) (a.value + b.value)) (a.add b) ∧
      Computes (a.value - b.value) (FitsAt (max a.scale b.scale) (a.value - b.value)) (a.sub b) ∧
      Computes (a.value * b.value) (fitsLl (a.unscaled * b.unscaled)) (a.mul b) ∧
      InRange (alignedSteps a b) ∧ InRange (addSteps a b) ∧ InRange (subSteps a b) ∧
      InRange (mulSteps a b) ∧
      (a.Normal → b.Normal → (a.value = b.value ↔ a = b)) := by
  refine ⟨compare_eq_sign ha hb, computes_add ha hb, computes_sub ha hb, computes_mul ha hb,
    ha.inRange_aligned hb, ha.inRange_add hb, ha.inRange_sub hb, ha.inRange_mul hb, ?_⟩
  intro hna hnb
  constructor
  · exact hna.eq_of_value_eq hnb
  · exact congrArg value

/-- The 64-bit edge at different scales: the sum at 16 digits does not fit, the product does. -/
theorem arithmetic_exact_at_edge :
    (⟨kLlMax, 0⟩ : Decimal).compare ⟨1, 16⟩ = 1 ∧
      (⟨kLlMax, 0⟩ : Decimal).add ⟨1, 16⟩ = .error (overflowError "add") ∧
      (⟨kLlMax, 0⟩ : Decimal).mul ⟨1, 16⟩ = .ok ⟨kLlMax, 16⟩ ∧
      InRange (addSteps ⟨kLlMax, 0⟩ ⟨1, 16⟩) := by
  have ha : (⟨kLlMax, 0⟩ : Decimal).Fits := ⟨by decide, by decide, by decide⟩
  have hb : (⟨1, 16⟩ : Decimal).Fits := ⟨by decide, by decide, by decide⟩
  obtain ⟨-, -, -, -, -, hadd, -, -, -⟩ := arithmetic_exact ha hb
  exact ⟨by decide +kernel, by decide +kernel, by decide +kernel, hadd⟩

/-! ### Clamped difference -/

/-- A difference beyond 64 bits is narrowed to a smaller one. -/
theorem subClampedZero_lt (ha : a.Fits) (hb : b.Fits) (h : kLlMax < diffMantissa a b) :
    (a.subClampedZero b).value < a.value - b.value := by
  have hpos : 0 < diffMantissa a b := lt_of_le_of_lt (by decide) h
  have hle : ¬ a.mantissaAt (max a.scale b.scale) ≤ b.mantissaAt (max a.scale b.scale) := by
    unfold diffMantissa at hpos
    omega
  simp only [subClampedZero, aligned_eq ha hb]
  rw [if_neg hle, show a.mantissaAt _ - b.mantissaAt _ = diffMantissa a b from rfl, wide_diffMantissa ha hb,
    normalized_value, ← scaled_diffMantissa]
  apply scaled_lt_scaled.mpr
  exact (fitsLl_iff.mp (fitsLl_longLong _)).2.trans_lt h

/-- The clamped difference of amounts is exact if and only if it fits 64 bits at the larger of
their scales: the narrowing is not checked. -/
theorem subClampedZero_exact_iff (ha : a.Fits) (hb : b.Fits) (ha0 : 0 ≤ a.unscaled)
    (hb0 : 0 ≤ b.unscaled) :
    ((a.subClampedZero b).value = max 0 (a.value - b.value) ∧ 0 ≤ (a.subClampedZero b).value ∧
        (a.subClampedZero b).value ≤ a.value) ↔
      (a.value - b.value) * 10 ^ max a.scale b.scale ≤ kLlMax := by
  have hfit : (a.value - b.value) * 10 ^ max a.scale b.scale ≤ kLlMax ↔
      diffMantissa a b ≤ kLlMax := by
    rw [← scaled_diffMantissa, scaled_mul_pow]
    exact Int.cast_le
  rw [hfit]
  constructor
  · rintro ⟨hvalue, -, -⟩
    by_contra hlt
    have hwrong := subClampedZero_lt ha hb (not_le.mp hlt)
    have hmax := le_max_right 0 (a.value - b.value)
    linarith
  · intro hle
    obtain ⟨hvalue, -, -, -⟩ := subClampedZero_spec ha hb hle
    have hav : 0 ≤ a.value := scaled_nonneg.mpr ha0
    have hbv : 0 ≤ b.value := scaled_nonneg.mpr hb0
    refine ⟨hvalue, ?_, ?_⟩
    · rw [hvalue]
      exact le_max_left _ _
    · rw [hvalue]
      apply max_le hav
      linarith

theorem subClampedZero_exact_for_small :
    ((⟨15, 1⟩ : Decimal).subClampedZero ⟨25, 2⟩).value = max 0 (value ⟨15, 1⟩ - value ⟨25, 2⟩) ∧
      0 ≤ ((⟨15, 1⟩ : Decimal).subClampedZero ⟨25, 2⟩).value ∧
      ((⟨15, 1⟩ : Decimal).subClampedZero ⟨25, 2⟩).value ≤ value ⟨15, 1⟩ := by
  have ha : (⟨15, 1⟩ : Decimal).Fits := ⟨by decide, by decide, by decide⟩
  have hb : (⟨25, 2⟩ : Decimal).Fits := ⟨by decide, by decide, by decide⟩
  apply (subClampedZero_exact_iff ha hb (by decide) (by decide)).mpr
  norm_num [value, scaled, kLlMax]

/-- The largest amount less the smallest one comes out negative. -/
theorem subClampedZero_negative :
    ∃ a b : Decimal, parseDecimal "9223372036854775807" = .ok a ∧
      parseDecimal "0.00000001" = .ok b ∧
      a.subClampedZero b = ⟨-100000001, 8⟩ ∧
      ¬ ((a.subClampedZero b).value = max 0 (a.value - b.value) ∧
        0 ≤ (a.subClampedZero b).value ∧ (a.subClampedZero b).value ≤ a.value) := by
  have hresult : (⟨9223372036854775807, 0⟩ : Decimal).subClampedZero ⟨1, 8⟩ = ⟨-100000001, 8⟩ := by
    decide
  refine ⟨⟨9223372036854775807, 0⟩, ⟨1, 8⟩, by decide, by decide, hresult, ?_⟩
  rintro ⟨-, hnonneg, -⟩
  rw [hresult, value, scaled_nonneg] at hnonneg
  exact absurd hnonneg (by decide)

/-! ### Quotient -/

/-- The exact numerator of the integer quotient that carries `maxScale` fractional digits. -/
def numerator (a b : Decimal) (maxScale : ℕ) : ℤ :=
  a.unscaled * 10 ^ (max a.scale b.scale - a.scale + maxScale)

/-- The quotient in units of its last fractional digit, rounded half away from zero. -/
def rounded (a b : Decimal) (maxScale : ℕ) : ℤ := roundAway (a.value / b.value * 10 ^ maxScale)

theorem numerator_div (a b : Decimal) (maxScale : ℕ) :
    (numerator a b maxScale : ℚ) / b.mantissaAt (max a.scale b.scale) =
      a.value / b.value * 10 ^ maxScale := by
  have ha : (numerator a b maxScale : ℚ) =
      a.value * 10 ^ max a.scale b.scale * 10 ^ maxScale := by
    rw [← scaled_mantissaAt a (le_max_left a.scale b.scale), scaled_mul_pow, numerator, mantissaAt,
      pow_add]
    push_cast
    ring
  have hb : (b.mantissaAt (max a.scale b.scale) : ℚ) = b.value * 10 ^ max a.scale b.scale := by
    rw [← scaled_mantissaAt b (le_max_right a.scale b.scale), scaled_mul_pow]
  have hpow : (10 : ℚ) ^ max a.scale b.scale ≠ 0 := by positivity
  rw [ha, hb, mul_right_comm, mul_div_mul_right _ _ hpow, mul_div_right_comm]

theorem wideMagnitude_eq {x : ℤ} (h : |x| < 2 ^ 127) : wideMagnitude x = |x| := by
  obtain ⟨hlo, hhi⟩ := abs_lt.mp h
  unfold wideMagnitude
  split_ifs with hneg
  · rw [abs_of_neg hneg]
    exact wide_eq (by omega) (by omega)
  · exact (abs_of_nonneg (not_lt.mp hneg)).symm

/-- Rounding magnitudes stays within 128 bits. -/
theorem roundedQuotient_spec {p q : ℤ} (hp : 0 ≤ p) (hp' : p < 2 ^ 127) (hq : 0 < q)
    (hq' : q ≤ 2 ^ 126) :
    roundedQuotient p q = roundAway (p / q) ∧ InRange [p.tmod q * 2] ∧
      (wide (p.tmod q * 2) ≥ q → InRange [p.tdiv q + 1]) ∧
      0 ≤ roundedQuotient p q ∧ roundedQuotient p q < 2 ^ 127 := by
  have hmod : p.tmod q = p % q := Int.tmod_eq_emod_of_nonneg hp
  have hdiv : p.tdiv q = p / q := Int.tdiv_eq_ediv_of_nonneg hp
  have hlo : 0 ≤ p % q := Int.emod_nonneg p hq.ne'
  have hhi : p % q < q := Int.emod_lt_of_pos p hq
  have hquot : 0 ≤ p / q := Int.ediv_nonneg hp hq.le
  have hquot' : p / q ≤ p := Int.ediv_le_self q hp
  have hdouble : wide (p % q * 2) = p % q * 2 := wide_eq (by omega) (by omega)
  -- rounding up needs a divisor of at least two, so the successor fits
  have hsucc : q ≤ p % q * 2 → p / q + 1 < 2 ^ 127 := by
    intro hround
    have htwo : 2 ≤ q := by omega
    have hmul : p / q * q ≤ p := Int.ediv_mul_le p hq.ne'
    have hhalf : p / q * 2 ≤ p / q * q := Int.mul_le_mul_of_nonneg_left htwo hquot
    omega
  rw [roundAway_div hp hq, roundedQuotient, hmod, hdiv, hdouble, mul_comm 2, inRange_singleton,
    inRange_singleton]
  split_ifs with hround
  · have hwide : wide (p / q + 1) = p / q + 1 := wide_eq (by omega) (hsucc hround)
    rw [hwide]
    exact ⟨rfl, by omega, fun _ => ⟨by omega, hsucc hround⟩, by omega, hsucc hround⟩
  · exact ⟨rfl, by omega, fun h => absurd h hround, hquot, by omega⟩

theorem roundAway_div_abs {p q : ℤ} :
    roundAway (p / q) = if (p < 0) != (q < 0) then -roundAway ((|p| : ℤ) / (|q| : ℤ))
      else roundAway ((|p| : ℤ) / (|q| : ℤ)) := by
  rcases lt_or_ge p 0 with hp | hp <;> rcases lt_or_ge q 0 with hq | hq
  · simp [hp, hq, abs_of_neg hp, abs_of_neg hq, neg_div_neg_eq]
  · simp [hp, hq.not_gt, abs_of_neg hp, abs_of_nonneg hq, neg_div, roundAway_neg]
  · simp [hp.not_gt, hq, abs_of_nonneg hp, abs_of_neg hq, div_neg, roundAway_neg]
  · simp [hp.not_gt, hq.not_gt, abs_of_nonneg hp, abs_of_nonneg hq]

variable {m : ℕ}

/-- No exponent `div` uses leaves the range of `pow10`. -/
theorem Fits.exponent_le (ha : a.Fits) (hb : b.Fits) (hm : m ≤ kMaxInternalScale) (k : ℕ) :
    max a.scale b.scale - k + m ≤ 38 := by
  have hscale : max a.scale b.scale ≤ kMaxInternalScale := max_le ha.scale hb.scale
  unfold kMaxInternalScale at hscale hm
  omega

theorem Fits.mul_pow10 (ha : a.Fits) (hb : b.Fits) (hm : m ≤ kMaxInternalScale) :
    a.unscaled * pow10 (max a.scale b.scale - a.scale + m) = numerator a b m := by
  rw [pow10_eq (ha.exponent_le hb hm _), numerator]

theorem divOperands_eq (ha : a.Fits) (hb : b.Fits) (hm : m ≤ kMaxInternalScale)
    (h : |numerator a b m| < 2 ^ 127) :
    a.divOperands b m = (numerator a b m, b.mantissaAt (max a.scale b.scale)) := by
  obtain ⟨hlo, hhi⟩ := abs_lt.mp h
  simp only [divOperands, ha.mul_pow10 hb hm, wide_eq hlo.le hhi,
    wide_mantissaAt hb (max_le ha.scale hb.scale)]

theorem Fits.divisor_bounds (ha : a.Fits) (hb : b.Fits) (hzero : b.unscaled ≠ 0) :
    0 < |b.mantissaAt (max a.scale b.scale)| ∧ |b.mantissaAt (max a.scale b.scale)| ≤ 2 ^ 126 := by
  obtain ⟨hlo, hhi⟩ := hb.mantissaAt_bounds (max_le ha.scale hb.scale)
  constructor
  · rw [abs_pos, mantissaAt]
    exact mul_ne_zero hzero (by positivity)
  · exact abs_le.mpr ⟨hlo, hhi.le⟩

/-- Operands that did not overflow have their quotient rounded correctly. -/
theorem quotient_spec {p q : ℤ} (hp : |p| < 2 ^ 127) (hpos : 0 < |q|) (hq : |q| ≤ 2 ^ 126) :
    (if (p < 0) != (q < 0) then wide (-roundedQuotient (wideMagnitude p) (wideMagnitude q))
      else roundedQuotient (wideMagnitude p) (wideMagnitude q)) = roundAway (p / q) ∧
      InRange (quotientSteps p q) := by
  have hq' : |q| < 2 ^ 127 := lt_of_le_of_lt hq (by norm_num)
  obtain ⟨hvalue, hdouble, hsucc, hlo, hhi⟩ := roundedQuotient_spec (abs_nonneg p) hp hpos hq
  obtain ⟨hplo, hphi⟩ := abs_lt.mp hp
  obtain ⟨hqlo, hqhi⟩ := abs_lt.mp hq'
  have hneg : wide (-roundedQuotient |p| |q|) = -roundedQuotient |p| |q| :=
    wide_eq (by omega) (by omega)
  constructor
  · rw [roundAway_div_abs, ← hvalue, wideMagnitude_eq hp, wideMagnitude_eq hq', hneg]
  · simp only [quotientSteps, inRange_append, wideMagnitude_eq hp, wideMagnitude_eq hq']
    refine ⟨⟨⟨⟨?_, ?_⟩, hdouble⟩, ?_⟩, ?_⟩
    · apply inRange_ite
      intro _
      exact inRange_singleton.mpr ⟨by omega, by omega⟩
    · apply inRange_ite
      intro _
      exact inRange_singleton.mpr ⟨by omega, by omega⟩
    · exact inRange_ite hsucc
    · apply inRange_ite
      intro _
      exact inRange_singleton.mpr ⟨by omega, by omega⟩

theorem computes_div (ha : a.Fits) (hb : b.Fits) (hzero : b.unscaled ≠ 0)
    (hm : m ≤ kMaxInternalScale) (h : |numerator a b m| < 2 ^ 127) :
    Computes (scaled (rounded a b m) m) (fitsLl (rounded a b m)) (a.div b m) := by
  have hscale : ¬ ((m : ℤ) < 0 || (m : ℤ) > kMaxInternalScale) := by
    simp only [Bool.or_eq_true, decide_eq_true_eq, not_or, not_lt, gt_iff_lt]
    omega
  obtain ⟨hpos, hq⟩ := ha.divisor_bounds hb hzero
  have hquot := (quotient_spec h hpos hq).1
  rw [numerator_div, ← rounded] at hquot
  have hdiv : a.div b m = if fitsLl (rounded a b m)
      then .ok (normalized ⟨rounded a b m, m⟩) else .error (overflowError "div") := by
    rw [div, if_neg hzero, if_neg hscale]
    simp only [Int.toNat_natCast, divOperands_eq ha hb hm h]
    rw [hquot]
    by_cases hf : fitsLl (rounded a b m)
    · simp [hf, longLong_eq hf]
    · simp [hf]
  rw [hdiv]
  exact computes_normalized _ _ _

theorem inRange_div (ha : a.Fits) (hb : b.Fits) (hzero : b.unscaled ≠ 0)
    (hm : m ≤ kMaxInternalScale) (h : |numerator a b m| < 2 ^ 127) : InRange (divSteps a b m) := by
  obtain ⟨hpos, hq⟩ := ha.divisor_bounds hb hzero
  obtain ⟨hlo, hhi⟩ := abs_lt.mp h
  have hexp : max a.scale b.scale - b.scale ≤ 38 :=
    (Nat.le_add_right _ m).trans (ha.exponent_le hb hm _)
  have hb_eq := wide_mantissaAt hb (max_le ha.scale hb.scale)
  simp only [divSteps, inRange_append, divOperands_eq ha hb hm h, ha.mul_pow10 hb hm]
  refine ⟨⟨⟨inRange_pow10Steps (ha.exponent_le hb hm _), inRange_pow10Steps hexp⟩, ?_⟩,
    (quotient_spec h hpos hq).2⟩
  intro x hx
  simp only [List.mem_cons, List.not_mem_nil, or_false] at hx
  rcases hx with rfl | rfl
  · exact wide_eq hlo.le hhi
  · rw [hb_eq, pow10_eq hexp, mantissaAt]

theorem abs_numerator_lt (ha : a.Fits) (hb : b.Fits) (hm : m ≤ kMaxInternalScale)
    (h : InRange (divSteps a b m)) : |numerator a b m| < 2 ^ 127 := by
  simp only [divSteps, quotientSteps, inRange_append, ha.mul_pow10 hb hm] at h
  obtain ⟨⟨-, hoperands⟩, ⟨⟨⟨hneg, -⟩, -⟩, -⟩, -⟩ := h
  have hwide : wide (numerator a b m) = numerator a b m := hoperands _ List.mem_cons_self
  obtain ⟨hlo, hhi⟩ := wide_eq_iff.mp hwide
  have hfirst : (a.divOperands b m).1 = numerator a b m := by
    simp only [divOperands, ha.mul_pow10 hb hm, hwide]
  rw [hfirst] at hneg
  rcases lt_or_ge (numerator a b m) 0 with hsign | hsign
  · rw [if_pos hsign, inRange_singleton] at hneg
    rw [abs_of_neg hsign]
    exact hneg.2
  · rw [abs_of_nonneg hsign]
    exact hhi

/-- Division rounds correctly within 128 bits if and only if the scaled numerator fits them: the
exponent is the sum of the scale difference and `maxScale`, up to twice the internal scale. -/
theorem div_rounds_iff (ha : a.Fits) (hb : b.Fits) (hzero : b.unscaled ≠ 0)
    (hm : m ≤ kMaxInternalScale) :
    (InRange (divSteps a b m) ∧
        Computes (scaled (rounded a b m) m) (fitsLl (rounded a b m)) (a.div b m)) ↔
      |a.unscaled| * 10 ^ (max a.scale b.scale - a.scale + m) < 2 ^ 127 := by
  have habs : |numerator a b m| =
      |a.unscaled| * 10 ^ (max a.scale b.scale - a.scale + m) := by
    rw [numerator, abs_mul, abs_of_pos (by positivity : (0 : ℤ) < 10 ^ _)]
  rw [← habs]
  constructor
  · rintro ⟨hrange, -⟩
    exact abs_numerator_lt ha hb hm hrange
  · intro h
    exact ⟨inRange_div ha hb hzero hm h, computes_div ha hb hzero hm h⟩

/-- Two thirds to eight digits, as an average price is computed. -/
theorem div_rounds_two_thirds :
    InRange (divSteps ⟨2, 0⟩ ⟨3, 0⟩ 8) ∧
      Computes (scaled (rounded ⟨2, 0⟩ ⟨3, 0⟩ 8) 8) (fitsLl (rounded ⟨2, 0⟩ ⟨3, 0⟩ 8))
        (div ⟨2, 0⟩ ⟨3, 0⟩ 8) := by
  have ha : (⟨2, 0⟩ : Decimal).Fits := ⟨by decide, by decide, by decide⟩
  have hb : (⟨3, 0⟩ : Decimal).Fits := ⟨by decide, by decide, by decide⟩
  exact (div_rounds_iff (m := 8) ha hb (by decide) (by decide)).mpr (by norm_num)

/-- The scale difference and the requested digits add up to a factor of 10³²: the numerator wraps,
and a quotient that does not fit is returned as a small one. -/
theorem div_wraps :
    Fits ⟨3402824, 0⟩ ∧ Fits ⟨1000000000000000001, 16⟩ ∧
      ¬ InRange (divSteps ⟨3402824, 0⟩ ⟨1000000000000000001, 16⟩ 16) ∧
      div ⟨3402824, 0⟩ ⟨1000000000000000001, 16⟩ 16 = .ok ⟨33079061536537, 16⟩ ∧
      ¬ Computes (scaled (rounded ⟨3402824, 0⟩ ⟨1000000000000000001, 16⟩ 16) 16)
        (fitsLl (rounded ⟨3402824, 0⟩ ⟨1000000000000000001, 16⟩ 16))
        (div ⟨3402824, 0⟩ ⟨1000000000000000001, 16⟩ 16) := by
  have hresult : div ⟨3402824, 0⟩ ⟨1000000000000000001, 16⟩ 16 = .ok ⟨33079061536537, 16⟩ := by
    decide +kernel
  have ha : Fits ⟨3402824, 0⟩ := ⟨by decide, by decide, by decide⟩
  have hb : Fits ⟨1000000000000000001, 16⟩ := ⟨by decide, by decide, by decide⟩
  refine ⟨ha, hb, ?_, hresult, ?_⟩
  · intro hrange
    have hlt := abs_numerator_lt (m := 16) ha hb (by decide) hrange
    norm_num [numerator] at hlt
  · rw [hresult]
    rintro ⟨-, -, hfits⟩
    have hround : 340282399999999999000 ≤ rounded ⟨3402824, 0⟩ ⟨1000000000000000001, 16⟩ 16 := by
      rw [rounded, roundAway, if_neg (by norm_num [value, scaled]), Int.le_floor]
      norm_num [value, scaled]
    have hmax := (fitsLl_iff.mp hfits).2
    unfold kLlMax at hmax
    omega

end

end Decimal

end ExchangeGateway
