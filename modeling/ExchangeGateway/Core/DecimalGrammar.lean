import ExchangeGateway.Core.DecimalArith

/-! The texts the decimal parser accepts, as a grammar of its own, and the canonical text form. -/
namespace ExchangeGateway
open Decimal

def DigitRun (text : List Char) : Prop := text ≠ [] ∧ ∀ c ∈ text, c.isDigit

/-- Digits, or digits around a point with one to eight of them after it. -/
inductive UnsignedText : List Char → Prop
  | integer {whole : List Char} (hw : DigitRun whole) : UnsignedText whole
  | fraction {whole frac : List Char} (hw : DigitRun whole) (hf : DigitRun frac)
      (hlen : frac.length ≤ kMaxDecimalScale) : UnsignedText (whole ++ '.' :: frac)

inductive SignedText : List Char → Prop
  | unsigned {text : List Char} (h : UnsignedText text) : SignedText text
  | negative {text : List Char} (h : UnsignedText text) : SignedText ('-' :: text)

/-- The integer formed by all digits of a text. -/
def digitsInteger (text : List Char) : ℕ := Nat.ofDigitChars 10 (text.filter Char.isDigit) 0

theorem DigitRun.filter {text : List Char} (h : DigitRun text) :
    text.filter Char.isDigit = text := List.filter_eq_self.mpr h.2

theorem digitsInteger_integer {whole : List Char} (hw : DigitRun whole) :
    digitsInteger whole = Nat.ofDigitChars 10 whole 0 := by
  rw [digitsInteger, hw.filter]

theorem digitsInteger_fraction {whole frac : List Char} (hw : DigitRun whole) (hf : DigitRun frac) :
    digitsInteger (whole ++ '.' :: frac) = Nat.ofDigitChars 10 (whole ++ frac) 0 := by
  rw [digitsInteger, List.filter_append, List.filter_cons_of_neg (by decide), hw.filter, hf.filter]

/-- An unsigned text holds digits and points only. -/
theorem UnsignedText.filter_point {text : List Char} (h : UnsignedText text) :
    text.filter (· ≠ '.') = text.filter Char.isDigit := by
  apply List.filter_congr
  intro c hc
  have hchar : c = '.' ∨ c.isDigit := by
    cases h with
    | integer hw => exact Or.inr (hw.2 c hc)
    | fraction hw hf hlen =>
      rcases List.mem_append.mp hc with hc | hc
      · exact Or.inr (hw.2 c hc)
      · rcases List.mem_cons.mp hc with hpoint | hc
        · exact Or.inl hpoint
        · exact Or.inr (hf.2 c hc)
  rcases hchar with rfl | hdigit
  · rfl
  · have hne : c ≠ '.' := fun he => absurd (he ▸ hdigit) (by decide)
    simp [hne, hdigit]

theorem digitsInteger_negative (text : List Char) :
    digitsInteger ('-' :: text) = digitsInteger text := by
  rw [digitsInteger, List.filter_cons_of_neg (by decide), digitsInteger]

/-! ### The loop accepts the grammar only -/

/-- After the point the loop accepts up to eight digits. -/
theorem scanDecimal_fraction_ok {text rest : List Char} {scan scan' : DecimalScan}
    (hfrac : scan.inFraction = true) (h : scanDecimal text rest scan = .ok scan') :
    (∀ c ∈ rest, c.isDigit) ∧ (scan.scale ≤ kMaxDecimalScale →
      scan.scale + rest.length ≤ kMaxDecimalScale) := by
  induction rest generalizing scan with
  | nil => exact ⟨fun c hc => absurd hc List.not_mem_nil, fun hs => hs⟩
  | cons c rest ih =>
    rcases scanDecimal_cons_ok h with ⟨-, hpoint, -⟩ | ⟨-, hdig, hlt, -, hrest⟩
    · rw [hfrac] at hpoint
      cases hpoint
    · have hscale := hlt hfrac
      obtain ⟨hdigits, hlen⟩ := ih (by exact hfrac) hrest
      refine ⟨List.forall_mem_cons.mpr ⟨hdig, hdigits⟩, fun _ => ?_⟩
      simp only [hfrac, if_true] at hlen
      have := hlen hscale
      rw [List.length_cons]
      omega

/-- Before the point the loop accepts digits, and at most one point. -/
theorem scanDecimal_whole_ok {text rest : List Char} {scan scan' : DecimalScan}
    (hfrac : scan.inFraction = false) (hscale : scan.scale = 0)
    (h : scanDecimal text rest scan = .ok scan') :
    (∀ c ∈ rest, c.isDigit) ∨
      ∃ whole frac, rest = whole ++ '.' :: frac ∧ (∀ c ∈ whole, c.isDigit) ∧
        (∀ c ∈ frac, c.isDigit) ∧ frac.length ≤ kMaxDecimalScale := by
  induction rest generalizing scan with
  | nil => exact Or.inl fun c hc => absurd hc List.not_mem_nil
  | cons c rest ih =>
    rcases scanDecimal_cons_ok h with ⟨rfl, -, hrest⟩ | ⟨-, hdig, -, -, hrest⟩
    · obtain ⟨hdigits, hlen⟩ := scanDecimal_fraction_ok (by rfl) hrest
      have hlen' := hlen (by rw [hscale]; exact Nat.zero_le _)
      refine Or.inr ⟨[], rest, rfl, fun c hc => absurd hc List.not_mem_nil, hdigits, ?_⟩
      simp only [hscale, zero_add] at hlen'
      exact hlen'
    · have hnext := ih (by exact hfrac) (by simp [hfrac, hscale]) hrest
      rcases hnext with hdigits | ⟨whole, frac, rfl, hw, hf, hlen⟩
      · exact Or.inl (List.forall_mem_cons.mpr ⟨hdig, hdigits⟩)
      · exact Or.inr ⟨c :: whole, frac, rfl, List.forall_mem_cons.mpr ⟨hdig, hw⟩, hf, hlen⟩

theorem parseMagnitude_edges {negative : Bool} {text : List Char} {d : Decimal}
    (h : parseMagnitude negative text = .ok d) :
    text ≠ [] ∧ text.head? ≠ some '.' ∧ text.getLast? ≠ some '.' := by
  unfold parseMagnitude at h
  split at h
  · cases h
  · rename_i hedges
    simp only [Bool.or_eq_true, decide_eq_true_eq, not_or] at hedges
    exact ⟨hedges.1.1, hedges.1.2, hedges.2⟩

/-- The magnitude parser accepts exactly the unsigned texts whose digits fit. -/
theorem parseMagnitude_ok_iff {negative : Bool} {text : List Char} :
    (∃ d, parseMagnitude negative text = .ok d) ↔
      UnsignedText text ∧ (digitsInteger text : ℤ) ≤ kLlMax := by
  constructor
  · rintro ⟨d, h⟩
    obtain ⟨hne, hhead, hlast⟩ := parseMagnitude_edges h
    obtain ⟨scan, hscan, hbounded, -⟩ := parseMagnitude_scan h
    have hvalue := (scanDecimal_value (n := 0) rfl hscan).1
    have hunsigned : UnsignedText text := by
      rcases scanDecimal_whole_ok rfl rfl hscan with hdigits | ⟨whole, frac, rfl, hw, hf, hlen⟩
      · exact .integer ⟨hne, hdigits⟩
      · have hwhole : whole ≠ [] := by
          rintro rfl
          exact hhead rfl
        have hfrac : frac ≠ [] := by
          rintro rfl
          exact hlast (by simp)
        exact .fraction ⟨hwhole, hw⟩ ⟨hfrac, hf⟩ hlen
    refine ⟨hunsigned, ?_⟩
    rw [digitsInteger, ← hunsigned.filter_point, ← hvalue]
    exact hbounded.upper
  · rintro ⟨hunsigned, hfit⟩
    cases hunsigned with
    | integer hw =>
      rw [digitsInteger_integer hw] at hfit
      exact ⟨_, parseMagnitude_integer hw.1 hw.2 hfit⟩
    | fraction hw hf hlen =>
      rw [digitsInteger_fraction hw hf] at hfit
      refine ⟨_, parseMagnitude_fraction hw.1 hf.1 ?_ hlen hfit⟩
      exact List.forall_mem_append.mpr ⟨hw.2, hf.2⟩

theorem UnsignedText.head_ne {text : List Char} (h : UnsignedText text) :
    text.head? ≠ some '-' := by
  have hrun {whole : List Char} (hw : DigitRun whole) (rest : List Char) :
      (whole ++ rest).head? ≠ some '-' := by
    rw [List.head?_append_of_ne_nil _ hw.1]
    intro he
    exact absurd (hw.2 _ (List.mem_of_mem_head? he)) (by decide)
  cases h with
  | integer hw => simpa using hrun hw []
  | fraction hw hf hlen => exact hrun hw _

theorem UnsignedText.ne_nil {text : List Char} (h : UnsignedText text) : text ≠ [] := by
  cases h with
  | integer hw => exact hw.1
  | fraction hw hf hlen => simp

theorem parseSignedDecimal_of_negative {text : String} {rest : List Char}
    (h : text.toList = '-' :: rest) : parseSignedDecimal text = parseMagnitude true rest := by
  simp only [parseSignedDecimal, h, if_true]

theorem parseSignedDecimal_of_unsigned {text : String} (h : UnsignedText text.toList) :
    parseSignedDecimal text = parseMagnitude false text.toList := by
  have hne := h.ne_nil
  have hhead := h.head_ne
  unfold parseSignedDecimal
  cases htext : text.toList with
  | nil => exact absurd htext hne
  | cons c rest =>
    rw [htext] at hhead
    have hc : c ≠ '-' := fun he => hhead (by rw [he]; rfl)
    simp only [hc, if_false]

theorem parseSignedDecimal_ok_iff {text : String} :
    (∃ d, parseSignedDecimal text = .ok d) ↔
      SignedText text.toList ∧ (digitsInteger text.toList : ℤ) ≤ kLlMax := by
  constructor
  · rintro ⟨d, h⟩
    rcases parseSignedDecimal_magnitude h with ⟨hhead, hm⟩ | ⟨-, hm⟩
    · obtain ⟨rest, hrest⟩ := List.head?_eq_some_iff.mp hhead
      obtain ⟨hunsigned, hfit⟩ := parseMagnitude_ok_iff.mp ⟨d, hm⟩
      rw [hrest] at hunsigned hfit ⊢
      rw [digitsInteger_negative]
      exact ⟨.negative hunsigned, hfit⟩
    · obtain ⟨hunsigned, hfit⟩ := parseMagnitude_ok_iff.mp ⟨d, hm⟩
      exact ⟨.unsigned hunsigned, hfit⟩
  · rintro ⟨hsigned, hfit⟩
    generalize htext : text.toList = chars at hsigned hfit
    cases hsigned with
    | unsigned h =>
      subst htext
      rw [parseSignedDecimal_of_unsigned h]
      exact parseMagnitude_ok_iff.mpr ⟨h, hfit⟩
    | negative h =>
      rw [digitsInteger_negative] at hfit
      rw [parseSignedDecimal_of_negative htext]
      exact parseMagnitude_ok_iff.mpr ⟨h, hfit⟩

theorem SignedText.unsigned_iff {text : List Char} :
    UnsignedText text ↔ SignedText text ∧ text.head? ≠ some '-' := by
  constructor
  · intro h
    exact ⟨.unsigned h, h.head_ne⟩
  · rintro ⟨hsigned, hhead⟩
    cases hsigned with
    | unsigned h => exact h
    | negative h => exact absurd rfl hhead

theorem parseDecimal_ok_iff {text : String} :
    (∃ d, parseDecimal text = .ok d) ↔
      UnsignedText text.toList ∧ (digitsInteger text.toList : ℤ) ≤ kLlMax := by
  rw [SignedText.unsigned_iff, and_right_comm, ← parseSignedDecimal_ok_iff]
  unfold parseDecimal
  split_ifs with hsign
  · constructor
    · rintro ⟨d, h⟩
      cases h
    · rintro ⟨-, hunsigned⟩
      exact absurd hsign hunsigned
  · exact ⟨fun h => ⟨h, hsign⟩, fun h => h.1⟩

/-- The parsers accept exactly the texts of the grammar whose digits fit 64 bits, the unsigned one
only those without a sign, and return the normalized decimal of the number denoted. -/
theorem parse_decimal_grammar (text : String) :
    ((∃ d, parseSignedDecimal text = .ok d) ↔
        SignedText text.toList ∧ (digitsInteger text.toList : ℤ) ≤ 2 ^ 63 - 1) ∧
      ((∃ d, parseDecimal text = .ok d) ↔
        (SignedText text.toList ∧ (digitsInteger text.toList : ℤ) ≤ 2 ^ 63 - 1) ∧
          text.toList.head? ≠ some '-') ∧
      (∀ d, parseSignedDecimal text = .ok d ∨ parseDecimal text = .ok d →
        d.Normal ∧ d.value = textValue text) := by
  refine ⟨parseSignedDecimal_ok_iff, ?_, ?_⟩
  · rw [parseDecimal_ok_iff, SignedText.unsigned_iff, and_right_comm]
    rfl
  · rintro d (h | h)
    · exact ⟨(parseSignedDecimal_parsed h).normal, parseSignedDecimal_value h⟩
    · exact ⟨(parseDecimal_parsed h).1.normal, parseDecimal_value h⟩

/-! ### Canonical text -/

theorem textValue_eq_iff {s t : String} {d e : Decimal} (hs : parseSignedDecimal s = .ok d)
    (ht : parseSignedDecimal t = .ok e) : textValue s = textValue t ↔ d = e := by
  rw [← parseSignedDecimal_value hs, ← parseSignedDecimal_value ht]
  constructor
  · exact (parseSignedDecimal_parsed hs).normal.eq_of_value_eq (parseSignedDecimal_parsed ht).normal
  · exact congrArg value

/-- The parser inverts the printer, and printing what was parsed is a canonical form. -/
theorem decimal_text_round_trip :
    (∀ d : Decimal, d.Normal → d.scale ≤ kMaxDecimalScale → -2 ^ 63 < d.unscaled →
        d.unscaled < 2 ^ 63 → parseSignedDecimal (decimalToString d) = .ok d) ∧
      (∀ s d, parseSignedDecimal s = .ok d → parseSignedDecimal (decimalToString d) = .ok d) ∧
      (∀ s t d e, parseSignedDecimal s = .ok d → parseSignedDecimal t = .ok e →
        (decimalToString d = decimalToString e ↔ textValue s = textValue t)) := by
  refine ⟨?_, ?_, ?_⟩
  · intro d hnormal hscale hlower hupper
    have hparsed : d.Parsed := by
      refine ⟨?_, ?_, hscale, hnormal⟩
      all_goals
        unfold kLlMax
        omega
    exact parseSignedDecimal_decimalToString hparsed
  · intro s d h
    exact parseSignedDecimal_decimalToString (parseSignedDecimal_parsed h)
  · intro s t d e hs ht
    rw [textValue_eq_iff hs ht]
    constructor
    · intro heq
      have hd := parseSignedDecimal_decimalToString (parseSignedDecimal_parsed hs)
      have he := parseSignedDecimal_decimalToString (parseSignedDecimal_parsed ht)
      rw [heq, he] at hd
      exact (Except.ok.inj hd).symm
    · exact congrArg decimalToString

/-- The round trip at the lower edge, with all digits after the point. -/
theorem decimal_text_round_trip_at_edge :
    parseSignedDecimal (decimalToString ⟨-9223372036854775807, 8⟩) =
      .ok ⟨-9223372036854775807, 8⟩ :=
  decimal_text_round_trip.1 _ ⟨Or.inr (by decide), fun h => absurd h (by decide)⟩ (by decide)
    (by decide) (by decide)

end ExchangeGateway
