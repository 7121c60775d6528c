import ExchangeGateway.Core.DecimalExact

/-! Decimal text: what the parser returns, and that it reads back the canonical text form. -/
namespace ExchangeGateway
open Decimal

/-- What the scan loop maintains: a non-negative 64-bit mantissa at an input scale. -/
structure DecimalScan.Bounded (scan : DecimalScan) : Prop where
  nonneg : 0 ≤ scan.unscaled
  upper : scan.unscaled ≤ kLlMax
  scale : scan.scale ≤ kMaxDecimalScale

/-- The loop's character test accepts exactly the ASCII digits. -/
private theorem not_digit_iff {c : Char} : (c < '0' || c > '9') = !c.isDigit := by
  rw [Bool.eq_iff_iff]
  simp only [Bool.or_eq_true, decide_eq_true_eq, gt_iff_lt, Char.lt_def, UInt32.lt_iff_toNat_lt,
    Bool.not_eq_true', Char.isDigit, Bool.and_eq_false_iff, decide_eq_false_iff_not, ge_iff_le,
    UInt32.le_iff_toNat_le, not_le]

private theorem digit_bounds {c : Char} (h : c.isDigit) :
    0 ≤ (c.toNat : ℤ) - '0'.toNat ∧ (c.toNat : ℤ) - '0'.toNat ≤ 9 := by
  simp only [Char.isDigit, Bool.and_eq_true, decide_eq_true_eq, ge_iff_le,
    UInt32.le_iff_toNat_le] at h
  have h0 : ('0' : Char).val.toNat = 48 := rfl
  have h9 : ('9' : Char).val.toNat = 57 := rfl
  have hc : c.toNat = c.val.toNat := rfl
  have hz : ('0' : Char).toNat = 48 := rfl
  omega

/-- What an iteration that does not fail does: it passes the point, or reads a digit that fits. -/
theorem scanDecimal_cons_ok {text rest : List Char} {c : Char} {scan scan' : DecimalScan}
    (h : scanDecimal text (c :: rest) scan = .ok scan') :
    (c = '.' ∧ scan.inFraction = false ∧
        scanDecimal text rest { scan with inFraction := true } = .ok scan') ∨
      (c ≠ '.' ∧ c.isDigit ∧ (scan.inFraction → scan.scale < kMaxDecimalScale) ∧
        fitsLl (scan.unscaled * 10 + ((c.toNat : ℤ) - '0'.toNat)) ∧
        scanDecimal text rest
          { scan with
            unscaled := scan.unscaled * 10 + ((c.toNat : ℤ) - '0'.toNat)
            anyDigit := true
            scale := if scan.inFraction then scan.scale + 1 else scan.scale } = .ok scan') := by
  rw [scanDecimal] at h
  by_cases hdot : c = '.'
  · rw [if_pos hdot] at h
    split_ifs at h with hfrac
    exact Or.inl ⟨hdot, by simpa using hfrac, h⟩
  · rw [if_neg hdot, not_digit_iff] at h
    by_cases hdig : c.isDigit
    · simp only [hdig, Bool.not_true, Bool.false_eq_true, if_false] at h
      split at h
      · cases h
      rename_i hfrac
      split at h
      · cases h
      rename_i hover
      simp only [Bool.and_eq_true, decide_eq_true_eq, not_and, not_le, ge_iff_le] at hfrac
      simp only [Bool.or_eq_true, Bool.not_eq_true', not_or, Bool.not_eq_false] at hover
      exact Or.inr ⟨hdot, hdig, hfrac, hover.2, h⟩
    · simp [hdig] at h

theorem scanDecimal_bounded {text rest : List Char} {scan scan' : DecimalScan}
    (hb : scan.Bounded) (h : scanDecimal text rest scan = .ok scan') : scan'.Bounded := by
  induction rest generalizing scan with
  | nil =>
    obtain rfl := Except.ok.inj h
    exact hb
  | cons c rest ih =>
    rcases scanDecimal_cons_ok h with ⟨-, -, hrest⟩ | ⟨-, hdig, hfrac, hfits, hrest⟩
    · have hb' : DecimalScan.Bounded { scan with inFraction := true } :=
        ⟨hb.nonneg, hb.upper, hb.scale⟩
      exact ih hb' hrest
    · have hn := hb.nonneg
      have hs := hb.scale
      obtain ⟨hd0, -⟩ := digit_bounds hdig
      refine ih ⟨?_, (fitsLl_iff.mp hfits).2, ?_⟩ hrest
      · show 0 ≤ scan.unscaled * 10 + ((c.toNat : ℤ) - '0'.toNat)
        omega
      · cases hf : scan.inFraction with
        | true => exact hfrac hf
        | false => exact hs

/-! ### The number a text denotes -/

def fractionLength (text : List Char) : ℕ := (text.dropWhile (· ≠ '.')).length - 1

/-- Digits around a point, in base ten. -/
def numeral (text : List Char) : ℚ :=
  FixedPoint.scaled (Nat.ofDigitChars 10 (text.filter (· ≠ '.')) 0) (fractionLength text)

def textValue (text : String) : ℚ :=
  match text.toList with
  | '-' :: rest => -numeral rest
  | digits => numeral digits

/-- The scan reads the digits into the mantissa and counts those after the point. -/
theorem scanDecimal_value {text rest : List Char} {scan scan' : DecimalScan} {n : ℕ}
    (hn : scan.unscaled = n) (h : scanDecimal text rest scan = .ok scan') :
    scan'.unscaled = Nat.ofDigitChars 10 (rest.filter (· ≠ '.')) n ∧
      scan'.scale = scan.scale + if scan.inFraction then rest.length else fractionLength rest := by
  induction rest generalizing scan n with
  | nil =>
    obtain rfl := Except.ok.inj h
    simp [hn, fractionLength]
  | cons c rest ih =>
    rcases scanDecimal_cons_ok h with ⟨rfl, hfrac, hrest⟩ | ⟨hdot, hdig, -, -, hrest⟩
    · obtain ⟨hunscaled, hscale⟩ := ih (by exact hn) hrest
      refine ⟨by simpa using hunscaled, ?_⟩
      rw [hscale]
      simp [fractionLength, hfrac]
    · obtain ⟨hd0, -⟩ := digit_bounds hdig
      have hnext : scan.unscaled * 10 + ((c.toNat : ℤ) - '0'.toNat) =
          ((10 * n + (c.toNat - '0'.toNat) : ℕ) : ℤ) := by
        rw [hn]
        omega
      obtain ⟨hunscaled, hscale⟩ := ih hnext hrest
      refine ⟨?_, ?_⟩
      · rw [hunscaled, List.filter_cons_of_pos (by simpa using hdot), Nat.ofDigitChars_cons]
      · rw [hscale]
        cases hf : scan.inFraction with
        | true =>
          simp only [if_true, List.length_cons]
          omega
        | false => simp [fractionLength, hdot]

structure Decimal.Parsed (d : Decimal) : Prop where
  lower : -kLlMax ≤ d.unscaled
  upper : d.unscaled ≤ kLlMax
  scale : d.scale ≤ kMaxDecimalScale
  normal : d.Normal

theorem Decimal.Parsed.fits {d : Decimal} (h : d.Parsed) : d.Fits := by
  refine ⟨?_, h.upper, h.scale.trans (by decide)⟩
  have := h.lower
  unfold kLlMin
  unfold kLlMax at this
  omega

private theorem parsed_normalized {unscaled : ℤ} {scale : ℕ} (hl : -kLlMax ≤ unscaled)
    (hu : unscaled ≤ kLlMax) (hs : scale ≤ kMaxDecimalScale) :
    (normalized ⟨unscaled, scale⟩).Parsed := by
  obtain ⟨hp, hm⟩ := FixedPoint.stripZeros_mantissa unscaled scale
  have h0 : 0 ≤ kLlMax := by decide
  refine ⟨?_, ?_, (normalized_scale_le _).trans hs, normalized_normal _⟩ <;>
    rw [normalized_unscaled] <;> simp only <;> omega

theorem parseMagnitude_scan {negative : Bool} {text : List Char} {d : Decimal}
    (h : parseMagnitude negative text = .ok d) :
    ∃ scan : DecimalScan, scanDecimal text text {} = .ok scan ∧ scan.Bounded ∧
      d = normalized ⟨if negative then -scan.unscaled else scan.unscaled, scan.scale⟩ := by
  unfold parseMagnitude at h
  split at h
  · cases h
  · split at h
    · cases h
    · rename_i scan hscan
      split at h
      · cases h
      · exact ⟨scan, hscan, scanDecimal_bounded ⟨le_rfl, by decide, by decide⟩ hscan,
          (Except.ok.inj h).symm⟩

theorem parseSignedDecimal_magnitude {text : String} {d : Decimal}
    (h : parseSignedDecimal text = .ok d) :
    (text.toList.head? = some '-' ∧ parseMagnitude true text.toList.tail = .ok d) ∨
      (text.toList.head? ≠ some '-' ∧ parseMagnitude false text.toList = .ok d) := by
  unfold parseSignedDecimal at h
  split at h
  · cases h
  · rename_i c rest hc
    rw [hc]
    split_ifs at h with hm
    · exact Or.inl ⟨by simp [hm], h⟩
    · exact Or.inr ⟨by simp [hm], h⟩

private theorem parseMagnitude_parsed {negative : Bool} {text : List Char} {d : Decimal}
    (h : parseMagnitude negative text = .ok d) : d.Parsed := by
  obtain ⟨scan, -, hb, rfl⟩ := parseMagnitude_scan h
  have hn := hb.nonneg
  have hu := hb.upper
  refine parsed_normalized ?_ ?_ hb.scale <;> split_ifs <;> omega

theorem parseSignedDecimal_parsed {text : String} {d : Decimal}
    (h : parseSignedDecimal text = .ok d) : d.Parsed := by
  rcases parseSignedDecimal_magnitude h with ⟨-, hm⟩ | ⟨-, hm⟩ <;> exact parseMagnitude_parsed hm

private theorem parseMagnitude_value {negative : Bool} {text : List Char} {d : Decimal}
    (h : parseMagnitude negative text = .ok d) :
    d.value = if negative then -numeral text else numeral text := by
  obtain ⟨scan, hscan, -, rfl⟩ := parseMagnitude_scan h
  obtain ⟨hunscaled, hscale⟩ := scanDecimal_value (n := 0) rfl hscan
  simp only [Bool.false_eq_true, if_false, zero_add] at hscale
  rw [normalized_value, hunscaled, hscale]
  cases negative with
  | true => exact FixedPoint.scaled_neg _ _
  | false => rfl

/-- The parser returns the number its text denotes. -/
theorem parseSignedDecimal_value {text : String} {d : Decimal}
    (h : parseSignedDecimal text = .ok d) : d.value = textValue text := by
  unfold textValue
  rcases parseSignedDecimal_magnitude h with ⟨hhead, hm⟩ | ⟨hhead, hm⟩
  · obtain ⟨rest, hrest⟩ := List.head?_eq_some_iff.mp hhead
    rw [hrest] at hm ⊢
    exact parseMagnitude_value hm
  · split
    · rename_i rest hrest
      rw [hrest] at hhead
      exact absurd rfl hhead
    · exact parseMagnitude_value hm

theorem parseDecimal_value {text : String} {d : Decimal} (h : parseDecimal text = .ok d) :
    d.value = textValue text := by
  unfold parseDecimal at h
  split_ifs at h
  exact parseSignedDecimal_value h

theorem parseDecimal_parsed {text : String} {d : Decimal} (h : parseDecimal text = .ok d) :
    d.Parsed ∧ 0 ≤ d.unscaled := by
  unfold parseDecimal at h
  split_ifs at h with hm
  refine ⟨parseSignedDecimal_parsed h, ?_⟩
  rcases parseSignedDecimal_magnitude h with ⟨hneg, -⟩ | ⟨-, hpos⟩
  · exact absurd hneg hm
  · obtain ⟨scan, -, hb, rfl⟩ := parseMagnitude_scan hpos
    exact normalized_nonneg hb.nonneg

theorem parseDecimal_fits {text : String} {d : Decimal} (h : parseDecimal text = .ok d) :
    d.Fits := (parseDecimal_parsed h).1.fits

theorem parseDecimal_value_nonneg {text : String} {d : Decimal} (h : parseDecimal text = .ok d) :
    0 ≤ d.value := FixedPoint.scaled_nonneg.mpr (parseDecimal_parsed h).2

/-- Reading further digits only grows the mantissa, so a bound on the final one covers every
intermediate one. -/
private theorem le_ofDigitChars (digits : List Char) (n : ℕ) :
    n ≤ Nat.ofDigitChars 10 digits n := by
  rw [Nat.ofDigitChars_eq_ofDigitChars_zero]
  calc n ≤ 10 ^ digits.length * n := Nat.le_mul_of_pos_left _ (by positivity)
    _ ≤ _ := Nat.le_add_right _ _

private theorem scanDecimal_digits (text : List Char) {digits : List Char} (scan : DecimalScan)
    {n : ℕ} (hd : ∀ c ∈ digits, c.isDigit) (hn : scan.unscaled = n)
    (hfit : (Nat.ofDigitChars 10 digits n : ℤ) ≤ kLlMax)
    (hs : scan.inFraction → scan.scale + digits.length ≤ kMaxDecimalScale) (rest : List Char) :
    scanDecimal text (digits ++ rest) scan =
      scanDecimal text rest
        { scan with
          unscaled := Nat.ofDigitChars 10 digits n
          anyDigit := scan.anyDigit || !digits.isEmpty
          scale := if scan.inFraction then scan.scale + digits.length else scan.scale } := by
  induction digits generalizing scan n with
  | nil => cases scan; simp_all
  | cons c digits ih =>
    have hc : c.isDigit := hd c List.mem_cons_self
    obtain ⟨hd0, hd9⟩ := digit_bounds hc
    have hz : ('0' : Char).toNat = 48 := rfl
    rw [Nat.ofDigitChars_cons] at hfit
    have hgrow := le_ofDigitChars digits (10 * n + (c.toNat - '0'.toNat))
    have hmin : kLlMin ≤ 0 := by decide
    have hunscaled : scan.unscaled * 10 + ((c.toNat : ℤ) - '0'.toNat) =
        ((10 * n + (c.toNat - '0'.toNat) : ℕ) : ℤ) := by
      rw [hn]
      omega
    have hfits : fitsLl (scan.unscaled * 10) ∧
        fitsLl (scan.unscaled * 10 + ((c.toNat : ℤ) - '0'.toNat)) := by
      rw [fitsLl_iff, fitsLl_iff]
      omega
    have hscale : ¬ (scan.inFraction && scan.scale ≥ kMaxDecimalScale) := by
      simp only [Bool.and_eq_true, decide_eq_true_eq, not_and, not_le, ge_iff_le]
      intro hf
      have := hs hf
      simp only [List.length_cons] at this
      omega
    have hdot : c ≠ '.' := fun e => by subst e; exact absurd hc (by decide)
    rw [List.cons_append, scanDecimal, if_neg hdot, not_digit_iff, hc]
    simp only [Bool.not_true, Bool.false_eq_true, if_false, hscale, hfits.1, hfits.2, Bool.or_self]
    rw [ih _ (fun c' hc' => hd c' (List.mem_cons_of_mem c hc')) hunscaled hfit]
    · cases hf : scan.inFraction <;> simp [Nat.ofDigitChars_cons, Nat.add_comm 1, Nat.add_assoc]
    · intro hf
      have := hs hf
      simp only [List.length_cons] at this
      simp only [show scan.inFraction = true from hf, if_true]
      omega

private theorem dot_not_digit : ¬ ('.' : Char).isDigit := by decide

theorem parseMagnitude_integer {negative : Bool} {digits : List Char} (hne : digits ≠ [])
    (hd : ∀ c ∈ digits, c.isDigit) (hfit : (Nat.ofDigitChars 10 digits 0 : ℤ) ≤ kLlMax) :
    parseMagnitude negative digits = .ok (normalized
      ⟨if negative then -(Nat.ofDigitChars 10 digits 0 : ℤ) else Nat.ofDigitChars 10 digits 0,
        0⟩) := by
  have hhead : digits.head? ≠ some '.' := fun e =>
    dot_not_digit (hd _ (List.mem_of_mem_head? e))
  have hlast : digits.getLast? ≠ some '.' := fun e =>
    dot_not_digit (hd _ (List.mem_of_mem_getLast? e))
  have hscan := scanDecimal_digits digits {} (n := 0) hd rfl hfit (by simp) []
  rw [List.append_nil] at hscan
  simp [parseMagnitude, hne, hhead, hlast, hscan, scanDecimal]

theorem parseMagnitude_fraction {negative : Bool} {whole frac : List Char} (hw : whole ≠ [])
    (hf : frac ≠ []) (hd : ∀ c ∈ whole ++ frac, c.isDigit)
    (hlen : frac.length ≤ kMaxDecimalScale)
    (hfit : (Nat.ofDigitChars 10 (whole ++ frac) 0 : ℤ) ≤ kLlMax) :
    parseMagnitude negative (whole ++ '.' :: frac) = .ok (normalized
      ⟨if negative then -(Nat.ofDigitChars 10 (whole ++ frac) 0 : ℤ)
        else Nat.ofDigitChars 10 (whole ++ frac) 0, frac.length⟩) := by
  have hdw : ∀ c ∈ whole, c.isDigit := fun c hc => hd c (List.mem_append_left _ hc)
  have hdf : ∀ c ∈ frac, c.isDigit := fun c hc => hd c (List.mem_append_right _ hc)
  have hsplit : Nat.ofDigitChars 10 (whole ++ frac) 0 =
      Nat.ofDigitChars 10 frac (Nat.ofDigitChars 10 whole 0) := Nat.ofDigitChars_append 0
  have hgrow : Nat.ofDigitChars 10 whole 0 ≤ Nat.ofDigitChars 10 (whole ++ frac) 0 := by
    rw [hsplit]
    exact le_ofDigitChars frac _
  have hhead : (whole ++ '.' :: frac).head? ≠ some '.' := by
    rw [List.head?_append_of_ne_nil _ hw]
    exact fun e => dot_not_digit (hdw _ (List.mem_of_mem_head? e))
  have hlast : (whole ++ '.' :: frac).getLast? ≠ some '.' := by
    rw [List.getLast?_append_of_ne_nil _ (List.cons_ne_nil _ _), List.getLast?_cons,
      List.getLast?_eq_some_getLast hf]
    exact fun e => dot_not_digit (hdf _ (by simpa using (Option.some.inj e) ▸ List.getLast_mem hf))
  have hscan : scanDecimal (whole ++ '.' :: frac) (whole ++ '.' :: frac) {} =
      .ok ⟨Nat.ofDigitChars 10 (whole ++ frac) 0, frac.length, true, true⟩ := by
    rw [scanDecimal_digits _ {} (n := 0) hdw rfl (by omega) (by simp)]
    simp only [scanDecimal, if_true, Bool.false_eq_true, if_false]
    have hrest := scanDecimal_digits (whole ++ '.' :: frac)
      ⟨Nat.ofDigitChars 10 whole 0, 0, true, false || !whole.isEmpty⟩
      (n := Nat.ofDigitChars 10 whole 0) hdf rfl (by rw [← hsplit]; exact hfit)
      (by simpa using hlen) []
    rw [List.append_nil] at hrest
    rw [hrest]
    simp [scanDecimal, hsplit, hw]
  have hne : whole ++ '.' :: frac ≠ [] := by simp
  simp only [parseMagnitude, hne, hhead, hlast, hscan, decide_false, Bool.or_self,
    Bool.false_eq_true, if_false, Bool.not_true]

private theorem leftpad_digits (m k : ℕ) :
    let digits := (Nat.toDigits 10 m).leftpad k '0'
    (∀ c ∈ digits, c.isDigit) ∧ Nat.ofDigitChars 10 digits 0 = m ∧ k ≤ digits.length := by
  intro digits
  have hd : digits = List.replicate (k - (Nat.toDigits 10 m).length) '0' ++ Nat.toDigits 10 m := rfl
  refine ⟨fun c hc => ?_, ?_, ?_⟩
  · rw [hd] at hc
    rcases List.mem_append.mp hc with hc | hc
    · rw [List.eq_of_mem_replicate hc]
      rfl
    · exact Nat.isDigit_of_mem_toDigits (by decide) (by decide) hc
  · rw [hd, Nat.ofDigitChars_append, Nat.ofDigitChars_replicate_zero, Nat.mul_zero,
      Nat.ofDigitChars_ten_toDigits]
  · rw [hd, List.length_append, List.length_replicate]
    omega

/-- The text after the sign: a whole part, and a fraction of `d.scale` digits unless it is 0. -/
def magnitudeText (d : Decimal) : List Char :=
  let digits := (Nat.toDigits 10 d.unscaled.natAbs).leftpad (d.scale + 1) '0'
  if d.scale = 0 then Nat.toDigits 10 d.unscaled.natAbs
  else digits.take (digits.length - d.scale) ++ '.' :: digits.drop (digits.length - d.scale)

private theorem decimalToString_toList (d : Decimal) :
    (decimalToString d).toList =
      if d.unscaled < 0 then '-' :: magnitudeText d else magnitudeText d := by
  unfold decimalToString magnitudeText
  by_cases hs : d.scale = 0
  · simp only [hs, if_true, Int.toString_eq_repr, Int.repr_eq_if]
    split_ifs with hn hn' hn'
    · omega
    · simp [Nat.toList_repr, show d.unscaled.toNat = d.unscaled.natAbs by omega]
    · simp [Nat.toList_repr, show (-d.unscaled).toNat = d.unscaled.natAbs by omega]
    · omega
  · simp [hs, Nat.toList_repr]

private theorem parseMagnitude_magnitudeText {d : Decimal} (h : d.Parsed) (negative : Bool) :
    parseMagnitude negative (magnitudeText d) = .ok (normalized
      ⟨if negative then -(d.unscaled.natAbs : ℤ) else d.unscaled.natAbs, d.scale⟩) := by
  have hfit : (d.unscaled.natAbs : ℤ) ≤ kLlMax := by
    have := h.lower
    have := h.upper
    omega
  simp only [magnitudeText]
  by_cases hs : d.scale = 0
  · rw [if_pos hs]
    have hv := @Nat.ofDigitChars_ten_toDigits d.unscaled.natAbs
    rw [parseMagnitude_integer Nat.toDigits_ne_nil
      (fun c hc => Nat.isDigit_of_mem_toDigits (by decide) (by decide) hc) (by rwa [hv]), hv, hs]
  · rw [if_neg hs]
    obtain ⟨hd, hv, hlen⟩ := leftpad_digits d.unscaled.natAbs (d.scale + 1)
    generalize (Nat.toDigits 10 d.unscaled.natAbs).leftpad (d.scale + 1) '0' = digits at hd hv hlen
    have hsplit : digits.take (digits.length - d.scale) ++ digits.drop (digits.length - d.scale) =
        digits := List.take_append_drop _ _
    have hl : (digits.drop (digits.length - d.scale)).length = d.scale := by
      rw [List.length_drop]
      omega
    rw [parseMagnitude_fraction]
    · rw [hsplit, hv, hl]
    · rw [← List.length_pos_iff, List.length_take]
      omega
    · rw [← List.length_pos_iff, hl]
      omega
    · rwa [hsplit]
    · rw [hl]
      exact h.scale
    · rwa [hsplit, hv]

/-- The parser reads back the text of every decimal it can return. -/
theorem parseSignedDecimal_decimalToString {d : Decimal} (h : d.Parsed) :
    parseSignedDecimal (decimalToString d) = .ok d := by
  have hm := parseMagnitude_magnitudeText h
  have hn := normalized_of_normal h.normal
  by_cases hneg : d.unscaled < 0
  · rw [parseSignedDecimal, decimalToString_toList, if_pos hneg]
    simp only [if_true, hm]
    rw [show (-(d.unscaled.natAbs : ℤ)) = d.unscaled by omega, hn]
  · rw [parseSignedDecimal, decimalToString_toList, if_neg hneg]
    have hpos := hm false
    simp only [Bool.false_eq_true, if_false] at hpos
    rw [show ((d.unscaled.natAbs : ℕ) : ℤ) = d.unscaled by omega, hn] at hpos
    cases htext : magnitudeText d with
    | nil =>
      rw [htext] at hpos
      cases hpos
    | cons c rest =>
      rw [htext] at hpos
      have hc : c ≠ '-' := fun e => by
        subst e
        simp [parseMagnitude, scanDecimal] at hpos
      simp only [hc, if_false]
      exact hpos

end ExchangeGateway
