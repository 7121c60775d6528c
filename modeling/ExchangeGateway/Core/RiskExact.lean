import ExchangeGateway.Core.DecimalText
import ExchangeGateway.Core.Risk
import Mathlib.Algebra.Order.Ring.Abs

/-! The pre-trade checks over rational numbers: each limit is an inequality between the numbers
its texts denote, whatever their scales. -/
namespace ExchangeGateway
open Decimal

structure InstrumentRiskLimits.Readable (limits : InstrumentRiskLimits) : Prop where
  maxQty : limits.maxQty ≠ "" → ∃ d, parseDecimal limits.maxQty = .ok d
  maxNotional : limits.maxNotional ≠ "" → ∃ d, parseDecimal limits.maxNotional = .ok d
  maxPosition : limits.maxPosition ≠ "" → ∃ d, parseDecimal limits.maxPosition = .ok d

theorem Decimal.magnitude_value {position : Decimal} (h : position.Parsed) :
    (if position.unscaled < 0 then position.negate else position).value = |position.value| ∧
      (if position.unscaled < 0 then position.negate else position).Fits := by
  have hlow : kLlMin < position.unscaled := lt_of_lt_of_le (by decide) h.lower
  split
  · rename_i hneg
    obtain ⟨hvalue, hunscaled⟩ := negate_value hlow h.upper
    have hnonpos : position.value ≤ 0 := by
      rw [← neg_nonneg, ← hvalue, value, FixedPoint.scaled_nonneg, hunscaled]
      omega
    refine ⟨hvalue.trans (abs_of_nonpos hnonpos).symm, ?_, ?_, h.fits.scale⟩
    · rw [hunscaled]
      exact le_trans (by decide : kLlMin ≤ 0) (by omega)
    · have hl := h.lower
      rw [hunscaled]
      omega
  · rename_i hneg
    refine ⟨(abs_of_nonneg ?_).symm, h.fits⟩
    exact FixedPoint.scaled_nonneg.mpr (not_lt.mp hneg)

variable {limits : InstrumentRiskLimits} {symbol : String} {order : RiskOrder}

theorem checkMaxQty_eq_none_iff (hlimits : limits.Readable) {quantity : Decimal}
    (hq : parseDecimal order.quantity = .ok quantity) :
    checkMaxQty limits symbol order quantity = none ↔
      (limits.maxQty ≠ "" → textValue order.quantity ≤ textValue limits.maxQty) := by
  unfold checkMaxQty
  by_cases hset : limits.maxQty = ""
  · simp [hset]
  · obtain ⟨maxQty, hm⟩ := hlimits.maxQty hset
    have hgt := compare_pos_iff (parseDecimal_fits hq) (parseDecimal_fits hm)
    rw [parseDecimal_value hq, parseDecimal_value hm] at hgt
    simp only [hset, hm, gt_iff_lt, hgt, if_false, ne_eq, not_false_eq_true, true_imp_iff]
    by_cases hlt : textValue limits.maxQty < textValue order.quantity
    · simp [hlt]
    · simpa [hlt] using not_lt.mp hlt

/-- The product of the mantissas must fit 64 bits, or the order is refused. -/
theorem checkMaxNotional_eq_none_iff (hlimits : limits.Readable) {quantity : Decimal}
    (hq : parseDecimal order.quantity = .ok quantity) :
    checkMaxNotional limits symbol order quantity = none ↔
      (limits.maxNotional ≠ "" → order.price ≠ "" → ∃ price,
        parseDecimal order.price = .ok price ∧ fitsLl (price.unscaled * quantity.unscaled) ∧
          textValue order.price * textValue order.quantity ≤ textValue limits.maxNotional) := by
  unfold checkMaxNotional
  by_cases hset : limits.maxNotional = ""
  · simp [hset]
  by_cases hpriced : order.price = ""
  · simp [hpriced]
  obtain ⟨maxNotional, hm⟩ := hlimits.maxNotional hset
  rw [if_neg (by simp [hset, hpriced])]
  simp only [ne_eq, hset, hpriced, not_false_eq_true, true_imp_iff]
  cases hp : parseDecimal order.price with
  | error error => simp
  | ok price =>
    have hpfits := parseDecimal_fits hp
    have hqfits := parseDecimal_fits hq
    have hscale : price.scale + quantity.scale ≤ kMaxInternalScale := by
      have hps := (parseDecimal_parsed hp).1.scale
      have hqs := (parseDecimal_parsed hq).1.scale
      unfold kMaxDecimalScale at hps hqs
      unfold kMaxInternalScale
      omega
    simp only [hm, Except.ok.injEq, exists_eq_left']
    by_cases hfits : fitsLl (price.unscaled * quantity.unscaled)
    · have hmul := mul_eq hpfits hqfits
      rw [if_pos hfits] at hmul
      obtain ⟨hvalue, hnfits⟩ := mul_ok hpfits hqfits hscale hmul
      have hgt := compare_pos_iff hnfits (parseDecimal_fits hm)
      rw [hvalue, parseDecimal_value hp, parseDecimal_value hq, parseDecimal_value hm] at hgt
      simp only [hmul, gt_iff_lt, hgt, hfits, true_and]
      by_cases hlt : textValue limits.maxNotional < textValue order.price * textValue order.quantity
      · simp [hlt]
      · simpa [hlt] using not_lt.mp hlt
    · have hmul := mul_eq hpfits hqfits
      rw [if_neg hfits] at hmul
      simp [hmul, hfits]

theorem checkMaxPosition_eq_none_iff (hlimits : limits.Readable) :
    checkMaxPosition limits symbol order = none ↔
      (limits.maxPosition ≠ "" →
        (∃ position, parseSignedDecimal order.projectedPosition = .ok position) ∧
          |textValue order.projectedPosition| ≤ textValue limits.maxPosition) := by
  unfold checkMaxPosition
  by_cases hset : limits.maxPosition = ""
  · simp [hset]
  obtain ⟨maxPosition, hm⟩ := hlimits.maxPosition hset
  simp only [hset, if_false, ne_eq, not_false_eq_true, true_imp_iff]
  cases hp : parseSignedDecimal order.projectedPosition with
  | error error => simp
  | ok position =>
    obtain ⟨hvalue, hfits⟩ := magnitude_value (parseSignedDecimal_parsed hp)
    have hgt := compare_pos_iff hfits (parseDecimal_fits hm)
    rw [hvalue, parseSignedDecimal_value hp, parseDecimal_value hm] at hgt
    simp only [hm, gt_iff_lt, hgt]
    by_cases hlt : textValue limits.maxPosition < |textValue order.projectedPosition|
    · simp [hlt]
    · simpa [hlt] using not_lt.mp hlt

/-- The checks accept exactly the orders within the limits, as numbers. -/
theorem checkRisk_eq_none_iff (hlimits : limits.Readable) :
    checkRisk (some limits) symbol order = none ↔
      ∃ quantity, parseDecimal order.quantity = .ok quantity ∧
        (limits.maxQty ≠ "" → textValue order.quantity ≤ textValue limits.maxQty) ∧
        (limits.maxNotional ≠ "" → order.price ≠ "" → ∃ price,
          parseDecimal order.price = .ok price ∧
            kLlMin ≤ price.unscaled * quantity.unscaled ∧
            price.unscaled * quantity.unscaled ≤ kLlMax ∧
            textValue order.price * textValue order.quantity ≤ textValue limits.maxNotional) ∧
        (limits.maxPosition ≠ "" →
          (∃ position, parseSignedDecimal order.projectedPosition = .ok position) ∧
            |textValue order.projectedPosition| ≤ textValue limits.maxPosition) := by
  unfold checkRisk
  cases hq : parseDecimal order.quantity with
  | error error => simp
  | ok quantity =>
    simp only [Option.orElse_eq_orElse, Option.orElse_eq_or, Option.or_eq_none_iff,
      checkMaxQty_eq_none_iff hlimits hq, checkMaxNotional_eq_none_iff hlimits hq,
      checkMaxPosition_eq_none_iff hlimits, Except.ok.injEq, exists_eq_left', fitsLl_iff, and_assoc]

def InstrumentRiskLimits.sample : InstrumentRiskLimits := ⟨"2", "199.0", "5"⟩

def RiskOrder.sample : RiskOrder := ⟨.sell, "99.50", "2.00", "-4.5"⟩

theorem checkRisk_eq_none_iff_boundary : InstrumentRiskLimits.sample.Readable ∧
    checkRisk (some .sample) "BTCUSDT" .sample = none ∧
    textValue "99.50" * textValue "2.00" = textValue "199.0" := by
  have hreadable : InstrumentRiskLimits.sample.Readable :=
    ⟨fun _ => ⟨⟨2, 0⟩, by decide⟩, fun _ => ⟨⟨199, 0⟩, by decide⟩, fun _ => ⟨⟨5, 0⟩, by decide⟩⟩
  have hnotional : textValue "99.50" * textValue "2.00" = textValue "199.0" := by decide +kernel
  refine ⟨hreadable, (checkRisk_eq_none_iff hreadable).mpr ?_, hnotional⟩
  refine ⟨⟨2, 0⟩, by decide, fun _ => by decide +kernel, fun _ _ => ?_, fun _ => ?_⟩
  · exact ⟨⟨995, 1⟩, by decide, by decide, by decide, hnotional.le⟩
  · exact ⟨⟨⟨-45, 1⟩, by decide⟩, by decide +kernel⟩

end ExchangeGateway
