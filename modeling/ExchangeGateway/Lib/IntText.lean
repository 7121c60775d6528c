import Mathlib.Algebra.Order.Field.Basic
import Mathlib.Tactic.Common

/-! The decimal text of an integer determines it, also when it is padded with zeros to a width that
the number fits in. -/
namespace IntText

theorem repr_inj {m n : ℕ} (h : m.repr = n.repr) : m = n := by
  have hdigits : Nat.toDigits 10 m = Nat.toDigits 10 n := by
    have hlist := congrArg String.toList h
    rwa [Nat.toList_repr, Nat.toList_repr] at hlist
  calc m = Nat.ofDigitChars 10 (Nat.toDigits 10 m) 0 := Nat.ofDigitChars_ten_toDigits.symm
    _ = Nat.ofDigitChars 10 (Nat.toDigits 10 n) 0 := by rw [hdigits]
    _ = n := Nat.ofDigitChars_ten_toDigits

/-- A natural number does not start with a sign. -/
theorem repr_ne_minus (m : ℕ) (text : String) : m.repr ≠ "-" ++ text := by
  intro h
  have hlist := congrArg String.toList h
  rw [Nat.toList_repr, String.toList_append] at hlist
  have hmem : '-' ∈ Nat.toDigits 10 m := by
    rw [hlist]
    simp
  have hdigit := Nat.isDigit_of_mem_toDigits (by decide) (by decide) hmem
  cases hdigit

theorem toString_inj {m n : ℤ} (h : toString m = toString n) : m = n := by
  rw [Int.toString_eq_repr, Int.toString_eq_repr, Int.repr_eq_if, Int.repr_eq_if] at h
  split_ifs at h with hm hn hn
  · have hnat := repr_inj h
    omega
  · exact absurd h (repr_ne_minus _ _)
  · exact absurd h.symm (repr_ne_minus _ _)
  · have hnat := repr_inj ((String.append_right_inj _).mp h)
    omega

theorem toString_ne_empty (n : ℤ) : toString n ≠ "" := by
  rw [Int.toString_eq_repr, Int.repr_eq_if]
  split
  · exact Nat.repr_ne_empty
  · simp

/-! ### A fixed width -/

/-- The decimal digits, with zeros before them up to the width. -/
def zeroPadded (width n : ℕ) : List Char := (Nat.toDigits 10 n).leftpad width '0'

theorem ofDigitChars_zeroPadded (width n : ℕ) : Nat.ofDigitChars 10 (zeroPadded width n) 0 = n := by
  unfold zeroPadded List.leftpad
  rw [Nat.ofDigitChars_append, Nat.ofDigitChars_replicate_zero, Nat.mul_zero,
    Nat.ofDigitChars_ten_toDigits]

theorem isDigit_of_mem_zeroPadded {width n : ℕ} {c : Char} (h : c ∈ zeroPadded width n) :
    c.isDigit = true := by
  unfold zeroPadded List.leftpad at h
  rw [List.mem_append] at h
  cases h with
  | inl hzero =>
    rw [List.eq_of_mem_replicate hzero]
    rfl
  | inr hdigit => exact Nat.isDigit_of_mem_toDigits (by decide) (by decide) hdigit

theorem length_zeroPadded {width n : ℕ} (hwidth : 0 < width) (hn : n < 10 ^ width) :
    (zeroPadded width n).length = width := by
  have hle : (Nat.toDigits 10 n).length ≤ width :=
    (Nat.length_toDigits_le_iff (by decide) hwidth).mpr hn
  unfold zeroPadded
  rw [List.length_leftpad]
  omega

/-- A number of a fixed width needs no separator after it. -/
theorem zeroPadded_append_inj {width m n : ℕ} {text other : List Char} (hwidth : 0 < width)
    (hm : m < 10 ^ width) (hn : n < 10 ^ width)
    (h : zeroPadded width m ++ text = zeroPadded width n ++ other) : m = n ∧ text = other := by
  have hlength : (zeroPadded width m).length = (zeroPadded width n).length := by
    rw [length_zeroPadded hwidth hm, length_zeroPadded hwidth hn]
  obtain ⟨hpadded, htext⟩ := List.append_inj h hlength
  constructor
  · calc m = Nat.ofDigitChars 10 (zeroPadded width m) 0 := (ofDigitChars_zeroPadded width m).symm
      _ = Nat.ofDigitChars 10 (zeroPadded width n) 0 := by rw [hpadded]
      _ = n := ofDigitChars_zeroPadded width n
  · exact htext

end IntText
