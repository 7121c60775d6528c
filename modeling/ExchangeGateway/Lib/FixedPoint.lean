import Mathlib.Algebra.Order.Field.Basic
import Mathlib.Algebra.Order.Ring.Rat
import Mathlib.Data.Rat.Floor
import Mathlib.Tactic.FieldSimp
import Mathlib.Tactic.Linarith
import Mathlib.Tactic.Positivity

/-! Decimal fixed-point numbers `n · 10⁻ᵏ` with integer mantissa: rescaling to a common
scale is exact, and comparison and addition are those of the mantissas there. -/
namespace FixedPoint

def scaled (n : ℤ) (k : ℕ) : ℚ := n / 10 ^ k

@[simp] theorem scaled_zero (k : ℕ) : scaled 0 k = 0 := by simp [scaled]

theorem scaled_rescale (n : ℤ) {k m : ℕ} (h : k ≤ m) :
    scaled (n * 10 ^ (m - k)) m = scaled n k := by
  have hm : (10 : ℚ) ^ m = 10 ^ (m - k) * 10 ^ k := by rw [← pow_add, Nat.sub_add_cancel h]
  unfold scaled
  push_cast
  rw [hm]
  field_simp

theorem scaled_mul_pow (n : ℤ) (k : ℕ) : scaled n k * 10 ^ k = n := by
  unfold scaled
  field_simp

theorem scaled_lt_scaled {a b : ℤ} {k : ℕ} : scaled a k < scaled b k ↔ a < b := by
  unfold scaled
  rw [div_lt_div_iff_of_pos_right (by positivity)]
  exact Int.cast_lt

theorem scaled_le_scaled {a b : ℤ} {k : ℕ} : scaled a k ≤ scaled b k ↔ a ≤ b := by
  rw [← not_lt, ← not_lt, scaled_lt_scaled]

theorem scaled_add (a b : ℤ) (k : ℕ) : scaled (a + b) k = scaled a k + scaled b k := by
  unfold scaled
  push_cast
  rw [add_div]

theorem scaled_neg (a : ℤ) (k : ℕ) : scaled (-a) k = -scaled a k := by
  unfold scaled
  push_cast
  rw [neg_div]

theorem scaled_sub (a b : ℤ) (k : ℕ) : scaled (a - b) k = scaled a k - scaled b k := by
  rw [sub_eq_add_neg, scaled_add, scaled_neg, ← sub_eq_add_neg]

theorem scaled_mul (a b : ℤ) (k l : ℕ) : scaled (a * b) (k + l) = scaled a k * scaled b l := by
  unfold scaled
  push_cast
  rw [pow_add, mul_div_mul_comm]

theorem scaled_nonneg {a : ℤ} {k : ℕ} : 0 ≤ scaled a k ↔ 0 ≤ a := by
  rw [← scaled_zero k, scaled_le_scaled]

/-- Drop trailing fractional zeros, at most `k` of them. -/
def stripZeros : ℤ → ℕ → ℤ × ℕ
  | n, 0 => (n, 0)
  | n, k + 1 => if n.tmod 10 = 0 then stripZeros (n.tdiv 10) k else (n, k + 1)

theorem stripZeros_value (n : ℤ) (k : ℕ) :
    scaled (stripZeros n k).1 (stripZeros n k).2 = scaled n k := by
  induction k generalizing n with
  | zero => rfl
  | succ k ih =>
    simp only [stripZeros]
    split_ifs with h
    · have hn : scaled (n.tdiv 10 * 10 ^ (k + 1 - k)) (k + 1) = scaled (n.tdiv 10) k :=
        scaled_rescale _ (Nat.le_succ k)
      have he : n.tdiv 10 * 10 ^ (k + 1 - k) = n := by
        rw [Nat.add_sub_cancel_left, pow_one]
        exact Int.tdiv_mul_cancel_of_tmod_eq_zero h
      rw [ih, ← hn, he]
    · rfl

theorem stripZeros_scale_le (n : ℤ) (k : ℕ) : (stripZeros n k).2 ≤ k := by
  induction k generalizing n with
  | zero => exact le_rfl
  | succ k ih =>
    simp only [stripZeros]
    split_ifs
    · exact (ih _).trans (Nat.le_succ k)
    · exact le_rfl

/-- Stripping moves the mantissa towards zero, without changing its sign. -/
theorem stripZeros_mantissa (n : ℤ) (k : ℕ) :
    (0 ≤ n → 0 ≤ (stripZeros n k).1 ∧ (stripZeros n k).1 ≤ n) ∧
      (n ≤ 0 → n ≤ (stripZeros n k).1 ∧ (stripZeros n k).1 ≤ 0) := by
  induction k generalizing n with
  | zero => exact ⟨fun h => ⟨h, le_rfl⟩, fun h => ⟨le_rfl, h⟩⟩
  | succ k ih =>
    simp only [stripZeros]
    split_ifs with h
    · have hn := Int.tdiv_mul_cancel_of_tmod_eq_zero h
      obtain ⟨hp, hm⟩ := ih (n.tdiv 10)
      constructor
      · intro h0
        have := hp (by omega)
        omega
      · intro h0
        have := hm (by omega)
        omega
    · exact ⟨fun h => ⟨h, le_rfl⟩, fun h => ⟨le_rfl, h⟩⟩

def Stripped (n : ℤ) (k : ℕ) : Prop := k = 0 ∨ n.tmod 10 ≠ 0

theorem stripZeros_stripped (n : ℤ) (k : ℕ) : Stripped (stripZeros n k).1 (stripZeros n k).2 := by
  induction k generalizing n with
  | zero => exact Or.inl rfl
  | succ k ih =>
    simp only [stripZeros]
    split_ifs with h
    · exact ih _
    · exact Or.inr h

theorem stripZeros_of_stripped {n : ℤ} {k : ℕ} (h : Stripped n k) : stripZeros n k = (n, k) := by
  cases k with
  | zero => rfl
  | succ k =>
    rcases h with h | h
    · cases h
    · simp [stripZeros, h]

/-- A number has one representation without trailing fractional zeros. -/
theorem Stripped.eq_of_scaled_eq {n m : ℤ} {k l : ℕ} (hn : Stripped n k) (hm : Stripped m l)
    (h : scaled n k = scaled m l) : n = m ∧ k = l := by
  wlog hle : k ≤ l generalizing n m k l
  · obtain ⟨hmantissa, hscale⟩ := this hm hn h.symm (by omega)
    exact ⟨hmantissa.symm, hscale.symm⟩
  have hvalue : scaled (n * 10 ^ (l - k)) l = scaled m l := by rw [scaled_rescale n hle, h]
  have hmantissa : n * 10 ^ (l - k) = m := by
    apply le_antisymm
    · exact scaled_le_scaled.mp hvalue.le
    · exact scaled_le_scaled.mp hvalue.ge
  have hscale : k = l := by
    by_contra hne
    obtain ⟨j, hj⟩ : ∃ j, l - k = j + 1 := ⟨l - k - 1, by omega⟩
    have hdvd : (10 : ℤ) ∣ m := by
      rw [← hmantissa, hj, pow_succ, ← mul_assoc]
      exact Dvd.intro_left _ rfl
    rcases hm with hzero | hdigit
    · omega
    · exact hdigit (Int.tmod_eq_zero_of_dvd hdvd)
  subst hscale
  rw [Nat.sub_self, pow_zero, mul_one] at hmantissa
  exact ⟨hmantissa, rfl⟩

/-- The nearest integer, the one further from zero at a midpoint. -/
def roundAway (x : ℚ) : ℤ := if x < 0 then -⌊-x + 1 / 2⌋ else ⌊x + 1 / 2⌋

theorem roundAway_neg (x : ℚ) : roundAway (-x) = -roundAway x := by
  unfold roundAway
  rcases lt_trichotomy x 0 with h | rfl | h
  · rw [if_neg (by linarith), if_pos h, neg_neg]
  · have hhalf : ⌊(0 : ℚ) + 1 / 2⌋ = 0 := by norm_num
    rw [neg_zero, if_neg (lt_irrefl 0), hhalf]
    rfl
  · rw [if_pos (by linarith), if_neg (by linarith), neg_neg]

/-- The remainder decides between the quotient of two magnitudes and its successor. -/
theorem roundAway_div {p q : ℤ} (hp : 0 ≤ p) (hq : 0 < q) :
    roundAway (p / q) = if q ≤ 2 * (p % q) then p / q + 1 else p / q := by
  have hq' : (0 : ℚ) < q := by exact_mod_cast hq
  have hvalue : (0 : ℚ) ≤ p / q := div_nonneg (by exact_mod_cast hp) hq'.le
  have hp' : (p : ℚ) = q * (p / q : ℤ) + (p % q : ℤ) := by
    exact_mod_cast (Int.mul_ediv_add_emod p q).symm
  have hlo : (0 : ℚ) ≤ (p % q : ℤ) := by exact_mod_cast Int.emod_nonneg p hq.ne'
  have hhi : ((p % q : ℤ) : ℚ) < q := by exact_mod_cast Int.emod_lt_of_pos p hq
  have hsplit : (p / q : ℚ) = (p / q : ℤ) + (p % q : ℤ) / q := by
    rw [hp']
    field_simp
  unfold roundAway
  rw [if_neg (not_lt.mpr hvalue), hsplit]
  split_ifs with hround
  · have htie : (q : ℚ) ≤ 2 * (p % q : ℤ) := by exact_mod_cast hround
    apply Int.floor_eq_iff.mpr
    have hhalf : (1 / 2 : ℚ) ≤ (p % q : ℤ) / q := by
      rw [le_div_iff₀ hq']
      linarith
    have hone : ((p % q : ℤ) : ℚ) / q < 1 := (div_lt_one hq').mpr hhi
    push_cast
    constructor <;> linarith
  · have htie : 2 * ((p % q : ℤ) : ℚ) < q := by exact_mod_cast not_le.mp hround
    apply Int.floor_eq_iff.mpr
    have hhalf : ((p % q : ℤ) : ℚ) / q < 1 / 2 := by
      rw [div_lt_iff₀ hq']
      linarith
    have hpos : (0 : ℚ) ≤ (p % q : ℤ) / q := div_nonneg hlo hq'.le
    constructor <;> linarith

end FixedPoint
