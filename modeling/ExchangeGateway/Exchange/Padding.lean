import ExchangeGateway.Core.Audit
import ExchangeGateway.Core.DecimalGrammar
import ExchangeGateway.Core.Observation
import ExchangeGateway.Exchange.Resilient
import Mathlib.Data.List.TakeWhile

/-! Zero padding: a venue prints every number with eight fractional digits, so the gateway's
spelling of a number and the venue's differ. Where the padded digits still fit the parser, no
comparison tells the two apart. -/
namespace ExchangeGateway
open Decimal

/-- Fractional zeros at the end of a text, behind a point if it has none. -/
def padZeros (text : List Char) (zeros : ℕ) : List Char :=
  if zeros = 0 then text
  else (if '.' ∈ text then text else text ++ ['.']) ++ List.replicate zeros '0'

def padded (text : String) (zeros : ℕ) : String := String.ofList (padZeros text.toList zeros)

theorem DigitRun.point_not_mem {text : List Char} (h : DigitRun text) : '.' ∉ text :=
  fun hmem => absurd (h.2 _ hmem) (by decide)

theorem DigitRun.append_zeros {text : List Char} (h : DigitRun text) (zeros : ℕ) :
    DigitRun (text ++ List.replicate zeros '0') := by
  refine ⟨List.append_ne_nil_of_left_ne_nil h.1 _, ?_⟩
  intro c hc
  rcases List.mem_append.mp hc with hc | hc
  · exact h.2 c hc
  · rw [List.eq_of_mem_replicate hc]
    rfl

theorem digitRun_zeros {zeros : ℕ} (h : zeros ≠ 0) : DigitRun (List.replicate zeros '0') := by
  refine ⟨by simpa using h, ?_⟩
  intro c hc
  rw [List.eq_of_mem_replicate hc]
  rfl

theorem ofDigitChars_append_zeros (digits : List Char) (zeros : ℕ) :
    Nat.ofDigitChars 10 (digits ++ List.replicate zeros '0') 0 =
      Nat.ofDigitChars 10 digits 0 * 10 ^ zeros := by
  rw [Nat.ofDigitChars_append, Nat.ofDigitChars_replicate_zero, Nat.mul_comm]

theorem fractionLength_integer {whole : List Char} (hw : DigitRun whole) :
    fractionLength whole = 0 := by
  have hdrop : whole.dropWhile (· ≠ '.') = [] := by
    rw [List.dropWhile_eq_nil_iff]
    intro c hc
    have hne : c ≠ '.' := fun he => hw.point_not_mem (he ▸ hc)
    simpa using hne
  rw [fractionLength, hdrop]
  rfl

theorem fractionLength_fraction {whole frac : List Char} (hw : DigitRun whole) :
    fractionLength (whole ++ '.' :: frac) = frac.length := by
  have hdrop : (whole ++ '.' :: frac).dropWhile (· ≠ '.') = '.' :: frac := by
    rw [List.dropWhile_append_of_pos]
    · simp
    · intro c hc
      have hne : c ≠ '.' := fun he => hw.point_not_mem (he ▸ hc)
      simpa using hne
  rw [fractionLength, hdrop]
  rfl

/-- Padding keeps the grammar, and multiplies the digits by a power of ten that the longer fraction
takes back. -/
theorem UnsignedText.padZeros {text : List Char} (h : UnsignedText text) {zeros : ℕ}
    (hlen : fractionLength text + zeros ≤ kMaxDecimalScale) :
    UnsignedText (padZeros text zeros) ∧
      digitsInteger (padZeros text zeros) = digitsInteger text * 10 ^ zeros ∧
      fractionLength (padZeros text zeros) = fractionLength text + zeros := by
  by_cases hzero : zeros = 0
  · subst hzero
    simp [ExchangeGateway.padZeros, h]
  cases h with
  | integer hw =>
    rw [fractionLength_integer hw, zero_add] at hlen
    have hz := digitRun_zeros hzero
    have hpad : ExchangeGateway.padZeros text zeros = text ++ '.' :: List.replicate zeros '0' := by
      simp [ExchangeGateway.padZeros, hzero, hw.point_not_mem]
    rw [hpad]
    refine ⟨.fraction hw hz (by simpa using hlen), ?_, ?_⟩
    · rw [digitsInteger_fraction hw hz, digitsInteger_integer hw, ofDigitChars_append_zeros]
    · rw [fractionLength_fraction hw, fractionLength_integer hw, List.length_replicate, zero_add]
  | @fraction whole frac hw hf hfrac =>
    rw [fractionLength_fraction hw] at hlen
    have hz := hf.append_zeros zeros
    have hpad : ExchangeGateway.padZeros (whole ++ '.' :: frac) zeros =
        whole ++ '.' :: (frac ++ List.replicate zeros '0') := by
      simp [ExchangeGateway.padZeros, hzero]
    rw [hpad]
    refine ⟨.fraction hw hz (by simpa using hlen), ?_, ?_⟩
    · rw [digitsInteger_fraction hw hz, digitsInteger_fraction hw hf, ← List.append_assoc,
        ofDigitChars_append_zeros]
    · rw [fractionLength_fraction hw, fractionLength_fraction hw, List.length_append,
        List.length_replicate]

theorem UnsignedText.numeral_eq {text : List Char} (h : UnsignedText text) :
    numeral text = FixedPoint.scaled (digitsInteger text) (fractionLength text) := by
  rw [numeral, h.filter_point, digitsInteger]

theorem textValue_of_unsigned {text : String} (h : UnsignedText text.toList) :
    textValue text = numeral text.toList := by
  have hhead := h.head_ne
  unfold textValue
  split
  · rename_i rest hrest
    rw [hrest] at hhead
    exact absurd rfl hhead
  · rfl

/-- A padded text parses, to the same decimal, if and only if its digits fit. -/
theorem parseDecimal_padded_iff {text : String} {d : Decimal} (h : parseDecimal text = .ok d)
    {zeros : ℕ} (hlen : fractionLength text.toList + zeros ≤ kMaxDecimalScale) :
    parseDecimal (padded text zeros) = .ok d ↔
      (digitsInteger text.toList : ℤ) * 10 ^ zeros ≤ kLlMax := by
  obtain ⟨hunsigned, -⟩ := parseDecimal_ok_iff.mp ⟨d, h⟩
  obtain ⟨hpadded, hdigits, hfrac⟩ := hunsigned.padZeros hlen
  have hchars : (padded text zeros).toList = padZeros text.toList zeros := String.toList_ofList
  have haccept : (∃ e, parseDecimal (padded text zeros) = .ok e) ↔
      (digitsInteger text.toList : ℤ) * 10 ^ zeros ≤ kLlMax := by
    rw [parseDecimal_ok_iff, hchars, hdigits]
    push_cast
    exact and_iff_right hpadded
  have hnumber : textValue (padded text zeros) = textValue text := by
    have hrescale := FixedPoint.scaled_rescale (digitsInteger text.toList)
      (Nat.le_add_right (fractionLength text.toList) zeros)
    rw [Nat.add_sub_cancel_left] at hrescale
    rw [textValue_of_unsigned hunsigned, textValue_of_unsigned (by rwa [hchars]), hchars,
      hunsigned.numeral_eq, hpadded.numeral_eq, hdigits, hfrac]
    push_cast
    exact hrescale
  rw [← haccept]
  constructor
  · intro hok
    exact ⟨d, hok⟩
  · rintro ⟨e, he⟩
    have hvalue : e.value = d.value := by
      rw [parseDecimal_value he, parseDecimal_value h, hnumber]
    rw [he, (parseDecimal_parsed he).1.normal.eq_of_value_eq (parseDecimal_parsed h).1.normal
      hvalue]

/-! ### Spellings of one number -/

inductive Spelled (s p : String) : String → String → Prop
  | same (x : String) : Spelled s p x x
  | left : Spelled s p s p
  | right : Spelled s p p s

/-- Two records that differ in the spelling of their fill only. -/
def Respelled (s p : String) (record record' : OrderRecord) : Prop :=
  ∃ filled, Spelled s p record.filledQuantity filled ∧
    record' = { record with filledQuantity := filled }

/-- `apply_observation` treats the spellings as one fill. -/
structure SameFill (s p : String) : Prop where
  /-- Every observation changes records alike, whichever spellings are recorded and reported. -/
  observe {record record' : OrderRecord} (hrecord : Respelled s p record record')
    {filled filled' : String} (hfilled : Spelled s p filled filled') (state : OrderState)
    (avgPrice price quantity : String) (lifecycle : Bool) :
    (record.applyObservation state filled avgPrice price quantity lifecycle).2 =
        (record'.applyObservation state filled' avgPrice price quantity lifecycle).2 ∧
      Respelled s p (record.applyObservation state filled avgPrice price quantity lifecycle).1
        (record'.applyObservation state filled' avgPrice price quantity lifecycle).1
  /-- A report of the recorded fill is an observation without a fill. -/
  again {record : OrderRecord} {filled : String} (hfilled : Spelled s p record.filledQuantity filled)
    (state : OrderState) (avgPrice price quantity : String) (lifecycle : Bool) :
    record.applyObservation state filled avgPrice price quantity lifecycle =
      record.applyObservation state "" avgPrice price quantity lifecycle

/-- An audit reports no drift between records and snapshots that differ in spellings only. -/
def NoDrift (s p : String) : Prop :=
  ∀ (oms : Oms) (visit : AuditItem → Oms × Result (Option OrderSnapshot)),
    (∀ item ∈ oms.auditWork, ∀ record snapshot, Oms.Compares visit item record snapshot →
      Spelled s p record.filledQuantity snapshot.filledQuantity ∧
        Spelled s p record.price snapshot.price ∧
        Spelled s p record.quantity snapshot.quantity) →
    ∀ alert ∈ (oms.audit visit).alerts, ¬ alert.IsDrift

/-- A part of an observation that neither reads nor writes the fill. -/
def FillBlind (f : OrderRecord → OrderRecord × Bool) : Prop :=
  ∀ (record : OrderRecord) (filled : String),
    f { record with filledQuantity := filled } =
        ({ (f record).1 with filledQuantity := filled }, (f record).2) ∧
      (f record).1.filledQuantity = record.filledQuantity

theorem fillBlind_observeState (state : OrderState) : FillBlind (·.observeState state) := by
  intro record filled
  by_cases hsame : state = record.state
  · simp only [OrderRecord.observeState, if_pos hsame, and_self]
  · simp only [OrderRecord.observeState, if_neg hsame]
    split
    · exact ⟨rfl, rfl⟩
    · exact ⟨rfl, rfl⟩

theorem fillBlind_observePrice (price : String) : FillBlind (·.observePrice price) := by
  intro record filled
  by_cases h : price ≠ "" ∧ price ≠ record.price
  · simp only [OrderRecord.observePrice, if_pos h, and_self]
  · simp only [OrderRecord.observePrice, if_neg h, and_self]

theorem fillBlind_observeQuantity (quantity : String) :
    FillBlind (·.observeQuantity quantity) := by
  intro record filled
  by_cases h : quantity ≠ "" ∧ quantity ≠ record.quantity
  · simp only [OrderRecord.observeQuantity, if_pos h, and_self]
  · simp only [OrderRecord.observeQuantity, if_neg h, and_self]

theorem FillBlind.respelled {f : OrderRecord → OrderRecord × Bool} (hf : FillBlind f)
    {s p : String} {record record' : OrderRecord} (h : Respelled s p record record') :
    (f record).2 = (f record').2 ∧ Respelled s p (f record).1 (f record').1 := by
  obtain ⟨filled, hspelled, rfl⟩ := h
  obtain ⟨heq, hkeep⟩ := hf record filled
  rw [heq]
  refine ⟨rfl, filled, ?_, rfl⟩
  rw [hkeep]
  exact hspelled

section

variable {s p : String} {d : Decimal} (hs : parseDecimal s = .ok d) (hp : parseDecimal p = .ok d)

include hs hp

theorem Spelled.parseDecimal_eq {x y : String} (h : Spelled s p x y) :
    parseDecimal x = parseDecimal y := by
  cases h with
  | same => rfl
  | left => rw [hs, hp]
  | right => rw [hs, hp]

theorem Spelled.empty_iff {x y : String} (h : Spelled s p x y) : x = "" ↔ y = "" := by
  have hne {t : String} (ht : parseDecimal t = .ok d) : t ≠ "" := by
    rintro rfl
    cases ht
  cases h with
  | same => exact Iff.rfl
  | left => exact iff_of_false (hne hs) (hne hp)
  | right => exact iff_of_false (hne hp) (hne hs)

theorem Spelled.orZero_eq {x y : String} (h : Spelled s p x y) :
    parseDecimal (orZero x) = parseDecimal (orZero y) := by
  have hempty := h.empty_iff hs hp
  unfold orZero
  by_cases hx : x = ""
  · rw [if_pos hx, if_pos (hempty.mp hx)]
  · rw [if_neg hx, if_neg (fun hy => hx (hempty.mpr hy))]
    exact h.parseDecimal_eq hs hp

theorem Spelled.not_differs {x y : String} (h : Spelled s p x y) : ¬ Differs x y := by
  rintro ⟨a, b, ha, hb, hne⟩
  rw [h.orZero_eq hs hp, hb] at ha
  exact hne (congrArg value (Except.ok.inj ha).symm)

theorem observeFill_respelled {record record' : OrderRecord}
    (hrecord : Respelled s p record record') {filled filled' : String}
    (hfilled : Spelled s p filled filled') (avgPrice : String) :
    (record.observeFill filled avgPrice).2 = (record'.observeFill filled' avgPrice).2 ∧
      Respelled s p (record.observeFill filled avgPrice).1
        (record'.observeFill filled' avgPrice).1 := by
  obtain ⟨current, hcurrent, rfl⟩ := hrecord
  have hparse : parseDecimal filled = parseDecimal filled' := hfilled.parseDecimal_eq hs hp
  have hempty : filled = "" ↔ filled' = "" := hfilled.empty_iff hs hp
  have htext : parseDecimal record.filledText =
      parseDecimal ({ record with filledQuantity := current } : OrderRecord).filledText :=
    hcurrent.orZero_eq hs hp
  unfold OrderRecord.observeFill
  rw [← hparse, ← htext]
  by_cases hf : filled = ""
  · rw [if_pos hf, if_pos (hempty.mp hf)]
    exact ⟨rfl, current, hcurrent, rfl⟩
  rw [if_neg hf, if_neg (fun h => hf (hempty.mpr h))]
  split
  · split
    · exact ⟨rfl, filled', hfilled, rfl⟩
    · exact ⟨rfl, current, hcurrent, rfl⟩
  · exact ⟨rfl, current, hcurrent, rfl⟩

/-- The recorded fill reported again, in either spelling, changes nothing. -/
theorem observeFill_again {record : OrderRecord} {filled : String}
    (hfilled : Spelled s p record.filledQuantity filled) (avgPrice : String) :
    record.observeFill filled avgPrice = (record, false) := by
  rcases record.observeFill_cases filled avgPrice with h | ⟨reported, current, hne, hr, hc, hgt, -⟩
  · exact h
  · have htext : record.filledText = record.filledQuantity := by
      rw [OrderRecord.filledText, if_neg (fun he => hne ((hfilled.empty_iff hs hp).mp he))]
    rw [htext, hfilled.parseDecimal_eq hs hp, hr] at hc
    rw [Except.ok.inj hc, compare_self] at hgt
    exact absurd hgt (lt_irrefl 0)

theorem sameFill_of_parse : SameFill s p := by
  constructor
  · intro record record' hrecord filled filled' hfilled state avgPrice price quantity lifecycle
    obtain ⟨hfill, h₁⟩ := observeFill_respelled hs hp hrecord hfilled avgPrice
    obtain ⟨hstate, h₂⟩ := (fillBlind_observeState state).respelled h₁
    obtain ⟨hprice, h₃⟩ := (fillBlind_observePrice price).respelled h₂
    obtain ⟨hquantity, h₄⟩ := (fillBlind_observeQuantity quantity).respelled h₃
    cases lifecycle with
    | false => exact ⟨hfill, h₁⟩
    | true =>
      refine ⟨?_, h₄⟩
      simp only [OrderRecord.applyObservation, if_true, hfill, hstate, hprice, hquantity]
  · intro record filled hfilled state avgPrice price quantity lifecycle
    have hempty : record.observeFill "" avgPrice = (record, false) := rfl
    unfold OrderRecord.applyObservation
    rw [observeFill_again hs hp hfilled, hempty]

theorem noDrift_of_parse : NoDrift s p := by
  intro oms visit hspelled alert hmem hdrift
  obtain ⟨item, hitem, record, snapshot, hcompares, halert⟩ := Oms.audit_drift hdrift hmem
  obtain ⟨hfill, hprice, hquantity⟩ := hspelled item hitem record snapshot hcompares
  rcases OrderRecord.auditRecordVsSnapshot_drift hdrift halert with hd | hd | hd
  · exact hfill.not_differs hs hp hd
  · exact hprice.not_differs hs hp hd
  · exact hquantity.not_differs hs hp hd

theorem valueMatches_of_parse : Binance.valueMatches s p := by
  simp [Binance.valueMatches, hs, hp, compare_self]

end

/-- Padding a text with fractional zeros is invisible to the parser, to amend matching, to fill
tracking and to the audit if and only if the padded digits still fit 64 bits. -/
theorem padding_invisible_iff {text : String} {d : Decimal} (h : parseDecimal text = .ok d)
    {zeros : ℕ} (hlen : fractionLength text.toList + zeros ≤ kMaxDecimalScale) :
    (parseDecimal (padded text zeros) = .ok d ∧ Binance.valueMatches text (padded text zeros) ∧
        SameFill text (padded text zeros) ∧ NoDrift text (padded text zeros)) ↔
      (digitsInteger text.toList : ℤ) * 10 ^ zeros ≤ 2 ^ 63 - 1 := by
  have hparse := parseDecimal_padded_iff h hlen
  constructor
  · rintro ⟨hok, -, -, -⟩
    exact hparse.mp hok
  · intro hfit
    have hok := hparse.mpr hfit
    exact ⟨hok, valueMatches_of_parse h hok, sameFill_of_parse h hok, noDrift_of_parse h hok⟩

/-- The venue's spelling of a price. -/
theorem padding_invisible_for_price :
    parseDecimal (padded "23416.1" 7) = .ok ⟨234161, 1⟩ ∧
      Binance.valueMatches "23416.1" (padded "23416.1" 7) ∧
      SameFill "23416.1" (padded "23416.1" 7) ∧ NoDrift "23416.1" (padded "23416.1" 7) :=
  (@padding_invisible_iff "23416.1" _ (by decide) _ (by decide)).mpr (by decide)

/-- A quantity of a hundred billion tokens, as the venue prints it, is refused by the parser: it
matches nothing and its fill is never recorded. -/
theorem padded_quantity_refused :
    padded "100000000000" 8 = "100000000000.00000000" ∧
      parseDecimal "100000000000" = .ok ⟨100000000000, 0⟩ ∧
      parseDecimal "100000000000.00000000" = .error (overflowError "parse") ∧
      Binance.valueMatches "100000000000" "100000000000.00000000" = false ∧
      ¬ SameFill "100000000000" "100000000000.00000000" := by
  refine ⟨by decide, by decide, by decide, by decide, ?_⟩
  intro hsame
  have hrecord : Respelled "100000000000" "100000000000.00000000" (OrderRecord.blank "gw1")
      (OrderRecord.blank "gw1") := ⟨"0", .same _, rfl⟩
  have hflag := (hsame.observe hrecord .left .live "" "" "" false).1
  exact absurd hflag (by decide)

end ExchangeGateway
