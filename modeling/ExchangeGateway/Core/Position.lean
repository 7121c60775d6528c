import ExchangeGateway.Core.Ownership
import ExchangeGateway.Core.RiskExact
import Mathlib.Algebra.BigOperators.Group.List.Basic

/-! The projected position against the exact rational one, and what the pre-trade check of
`maxPosition` guarantees. The projection folds 64-bit decimals: an overflowing sum is dropped and
the clamped difference is cut to 64 bits. -/
namespace ExchangeGateway

/-- The rational value of a decimal text, 0 when it does not parse. -/
def decimalValue (text : String) : ℚ :=
  match parseDecimal text with
  | .ok value => value.value
  | .error _ => 0

def Side.sign : Side → ℚ
  | .buy => 1
  | .sell => -1

namespace OrderRecord

def filledValue (record : OrderRecord) : ℚ := decimalValue record.filledText

def quantityValue (record : OrderRecord) : ℚ := decimalValue record.quantity

def working (replace : Option OrderRecord) (record : OrderRecord) : Bool :=
  !isTerminal record.state && !replace.any (·.clientOrderId = record.clientOrderId)

end OrderRecord

/-- The exact worst-case signed position: fills, outstanding sizes of the other working orders,
and the outstanding size of the candidate. -/
def Oms.exactPosition (oms : Oms) (symbol : String) (replace : Option OrderRecord) (side : Side)
    (quantity : String) : ℚ :=
  oms.orders.sum (fun record =>
    if record.symbol = symbol then record.side.sign * record.filledValue else 0) +
  oms.orders.sum (fun record =>
    if record.symbol = symbol ∧ record.working replace then
      record.side.sign * max 0 (record.quantityValue - record.filledValue) else 0) +
  side.sign * max 0 (decimalValue quantity - (replace.map OrderRecord.filledValue).getD 0)

namespace Decimal

/-- Adding the amounts one after the other stays within 64 bits. -/
def sumFits : Decimal → List Decimal → Bool
  | _, [] => true
  | total, amount :: amounts =>
    fitsLl (sumMantissa total amount) &&
      sumFits (normalized ⟨sumMantissa total amount, max total.scale amount.scale⟩) amounts

/-- A difference of two decimals that 64 bits can hold, if it is positive at all. -/
def diffFits (lhs rhs : Decimal) : Bool := diffMantissa lhs rhs ≤ kLlMax

end Decimal

namespace OrderRecord

def amounts (symbol : String) (replace : Option OrderRecord) (record : OrderRecord) :
    List Decimal :=
  if record.symbol ≠ symbol then []
  else
    match parseDecimal record.filledText with
    | .error _ => []
    | .ok filled =>
      (if filled.isZero then [] else [Oms.signedAmount record.side filled]) ++
        match record.working replace, parseDecimal record.quantity with
        | true, .ok quantity =>
          [Oms.signedAmount record.side (quantity.subClampedZero filled)]
        | _, _ => []

/-- The outstanding size of the record fits, if the projection asks for it. -/
def outstandingFits (symbol : String) (replace : Option OrderRecord) (record : OrderRecord) :
    Bool :=
  record.symbol ≠ symbol || !record.working replace ||
    match parseDecimal record.filledText, parseDecimal record.quantity with
    | .ok filled, .ok quantity => quantity.diffFits filled
    | _, _ => true

end OrderRecord

namespace Oms

def candidateAmounts (replace : Option OrderRecord) (side : Side) (quantity : String) :
    List Decimal :=
  match parseDecimal quantity, parseDecimal ((replace.map OrderRecord.filledText).getD "0") with
  | .ok quantity, .ok filled => [signedAmount side (quantity.subClampedZero filled)]
  | _, _ => []

def candidateFits (replace : Option OrderRecord) (quantity : String) : Bool :=
  match parseDecimal quantity, parseDecimal ((replace.map OrderRecord.filledText).getD "0") with
  | .ok quantity, .ok filled => quantity.diffFits filled
  | _, _ => true

/-- No addition of the projection overflows and no outstanding size is cut: every partial sum, in
the iteration order of the registry, fits 64 bits at the common scale of its operands, and so
does every outstanding size. -/
def projectionFits (oms : Oms) (symbol : String) (replace : Option OrderRecord) (side : Side)
    (quantity : String) : Bool :=
  oms.orders.toList.all (OrderRecord.outstandingFits symbol replace) &&
    candidateFits replace quantity &&
    Decimal.sumFits {} (oms.orders.toList.flatMap (OrderRecord.amounts symbol replace) ++
      candidateAmounts replace side quantity)

end Oms

/-! ### The fold of the projection -/

theorem Oms.addIn_of_ok {projected amount sum : Decimal} (h : projected.add amount = .ok sum) :
    addIn projected amount = sum := by
  unfold addIn
  rw [h]

namespace Decimal

/-- What every summand and every partial sum of the projection satisfies. -/
structure Small (d : Decimal) : Prop where
  fits : d.Fits
  scale : d.scale ≤ kMaxDecimalScale

theorem sum_addIn {total : Decimal} {amounts : List Decimal} (htotal : total.Small)
    (hnormal : total.Normal) (hamounts : ∀ amount ∈ amounts, amount.Small)
    (h : sumFits total amounts) :
    (amounts.foldl Oms.addIn total).value = total.value + (amounts.map value).sum ∧
      (amounts.foldl Oms.addIn total).Small ∧ (amounts.foldl Oms.addIn total).Normal := by
  induction amounts generalizing total with
  | nil => exact ⟨by simp, htotal, hnormal⟩
  | cons amount amounts ih =>
    simp only [sumFits, Bool.and_eq_true] at h
    obtain ⟨hfit, hrest⟩ := h
    have hamount := hamounts amount List.mem_cons_self
    have hadd : total.add amount =
        .ok (normalized ⟨sumMantissa total amount, max total.scale amount.scale⟩) := by
      rw [add_eq htotal.fits hamount.fits, if_pos hfit]
    obtain ⟨hvalue, hfits, hnormal', hscale⟩ := add_ok htotal.fits hamount.fits hadd
    have haddIn := Oms.addIn_of_ok hadd
    have hsmall : (Oms.addIn total amount).Small := by
      rw [haddIn]
      exact ⟨hfits, hscale.trans (max_le htotal.scale hamount.scale)⟩
    rw [← haddIn] at hvalue hnormal' hrest
    obtain ⟨hsum, hresult⟩ := ih hsmall hnormal'
      (fun a hm => hamounts a (List.mem_cons_of_mem amount hm)) hrest
    refine ⟨?_, hresult⟩
    rw [List.foldl_cons, hsum, hvalue, List.map_cons, List.sum_cons, add_assoc]

end Decimal

def OrderRecord.Projects (record : OrderRecord) (replace : Option OrderRecord) : Prop :=
  (∃ d, parseDecimal record.filledText = .ok d) ∧
    (record.working replace → ∃ d, parseDecimal record.quantity = .ok d)

namespace Oms

theorem projectRecord_eq {symbol : String} {record : OrderRecord} {replace : Option OrderRecord}
    (hparse : record.symbol = symbol → record.Projects replace) (total : Decimal) :
    projectRecord symbol replace total record =
      some ((record.amounts symbol replace).foldl addIn total) := by
  unfold projectRecord OrderRecord.amounts
  by_cases hs : record.symbol = symbol
  · obtain ⟨⟨filled, hf⟩, hquantity⟩ := hparse hs
    simp only [hs, ne_eq, not_true_eq_false, if_false, hf]
    by_cases hw : isTerminal record.state ∨ replace.any (·.clientOrderId = record.clientOrderId)
    · have hworking : record.working replace = false := by
        simpa [OrderRecord.working, ← Bool.not_or] using hw
      rw [if_pos hw, hworking]
      cases filled.isZero <;> rfl
    · have hworking : record.working replace = true := by
        simpa [OrderRecord.working, ← Bool.not_or] using hw
      obtain ⟨quantity, hq⟩ := hquantity hworking
      rw [if_neg hw, hworking, hq]
      cases filled.isZero <;> rfl
  · simp [hs]

theorem foldlM_projectRecord {symbol : String} {replace : Option OrderRecord}
    {records : List OrderRecord}
    (hparse : ∀ record ∈ records, record.symbol = symbol → record.Projects replace)
    (total : Decimal) :
    records.foldlM (projectRecord symbol replace) total =
      some ((records.flatMap (OrderRecord.amounts symbol replace)).foldl addIn total) := by
  induction records generalizing total with
  | nil => rfl
  | cons record records ih =>
    have hhead := projectRecord_eq (hparse record List.mem_cons_self) total
    have htail := ih fun r hm => hparse r (List.mem_cons_of_mem record hm)
    rw [List.foldlM_cons, hhead, Option.bind_eq_bind, Option.bind_some, htail,
      List.flatMap_cons, List.foldl_append]

theorem projectCandidate_eq (replace : Option OrderRecord) (side : Side) (quantity : String)
    (total : Decimal) :
    projectCandidate replace side quantity total =
      (candidateAmounts replace side quantity).foldl addIn total := by
  unfold projectCandidate candidateAmounts
  cases parseDecimal quantity with
  | error _ => rfl
  | ok quantity =>
    cases parseDecimal ((replace.map OrderRecord.filledText).getD "0") with
    | error _ => rfl
    | ok filled => rfl

end Oms

/-! ### The values of the amounts -/

theorem decimalValue_of_parse {text : String} {d : Decimal} (h : parseDecimal text = .ok d) :
    decimalValue text = d.value := by
  unfold decimalValue
  rw [h]

theorem Oms.signedAmount_value {d : Decimal} (hl : 0 ≤ d.unscaled) (h : d.Small) (side : Side) :
    (Oms.signedAmount side d).value = side.sign * d.value ∧ (Oms.signedAmount side d).Small := by
  have hlow : kLlMin < d.unscaled := lt_of_lt_of_le (by decide) hl
  cases side with
  | buy =>
    have hsigned : signedAmount .buy d = d := by simp [signedAmount]
    rw [hsigned, Side.sign, one_mul]
    exact ⟨rfl, h⟩
  | sell =>
    have hsigned : signedAmount .sell d = d.negate := by simp [signedAmount]
    obtain ⟨hvalue, hunscaled⟩ := Decimal.negate_value hlow h.fits.upper
    rw [hsigned, Side.sign, neg_one_mul]
    refine ⟨hvalue, ⟨?_, ?_, h.fits.scale⟩, h.scale⟩
    · have hu := h.fits.upper
      rw [hunscaled]
      unfold kLlMin
      unfold kLlMax at hu
      omega
    · rw [hunscaled]
      exact le_trans (by omega) (by decide : (0 : ℤ) ≤ kLlMax)

theorem small_of_parse {text : String} {d : Decimal} (h : parseDecimal text = .ok d) :
    0 ≤ d.unscaled ∧ d.Small := by
  obtain ⟨hparsed, hnonneg⟩ := parseDecimal_parsed h
  exact ⟨hnonneg, hparsed.fits, hparsed.scale⟩

theorem outstanding_value {quantity filled : String} {q f : Decimal}
    (hq : parseDecimal quantity = .ok q) (hf : parseDecimal filled = .ok f)
    (hfits : q.diffFits f) (side : Side) :
    (Oms.signedAmount side (q.subClampedZero f)).value =
        side.sign * max 0 (decimalValue quantity - decimalValue filled) ∧
      (Oms.signedAmount side (q.subClampedZero f)).Small := by
  obtain ⟨-, hqs⟩ := small_of_parse hq
  obtain ⟨-, hfs⟩ := small_of_parse hf
  obtain ⟨hvalue, hfit, hnonneg, hscale⟩ :=
    Decimal.subClampedZero_spec hqs.fits hfs.fits (of_decide_eq_true hfits)
  have hsmall : (q.subClampedZero f).Small := ⟨hfit, hscale.trans (max_le hqs.scale hfs.scale)⟩
  obtain ⟨hsigned, hsmall'⟩ := Oms.signedAmount_value hnonneg hsmall side
  refine ⟨?_, hsmall'⟩
  rw [hsigned, hvalue, decimalValue_of_parse hq, decimalValue_of_parse hf]

namespace OrderRecord

theorem amounts_value {symbol : String} {record : OrderRecord} {replace : Option OrderRecord}
    (hparse : record.symbol = symbol → record.Projects replace)
    (hfits : record.outstandingFits symbol replace) :
    (∀ amount ∈ record.amounts symbol replace, amount.Small) ∧
      ((record.amounts symbol replace).map Decimal.value).sum =
        (if record.symbol = symbol then record.side.sign * record.filledValue else 0) +
        if record.symbol = symbol ∧ record.working replace then
          record.side.sign * max 0 (record.quantityValue - record.filledValue) else 0 := by
  unfold amounts
  by_cases hs : record.symbol = symbol
  swap
  · simp [hs]
  obtain ⟨⟨filled, hf⟩, hquantity⟩ := hparse hs
  obtain ⟨hnonneg, hsmall⟩ := small_of_parse hf
  obtain ⟨hvalue, hsmall'⟩ := Oms.signedAmount_value hnonneg hsmall record.side
  -- a zero fill is not added at all
  have hfill : ((if filled.isZero then [] else [Oms.signedAmount record.side filled]).map
        Decimal.value).sum = record.side.sign * record.filledValue ∧
      ∀ amount ∈ (if filled.isZero then [] else [Oms.signedAmount record.side filled]),
        amount.Small := by
    rw [filledValue, decimalValue_of_parse hf]
    by_cases hz : filled.isZero
    · have hzero : filled.value = 0 := by
        have hunscaled : filled.unscaled = 0 := by simpa [Decimal.isZero] using hz
        rw [Decimal.value, hunscaled, FixedPoint.scaled_zero]
      simp [hz, hzero]
    · simp [hz, hvalue, hsmall']
  have hout : ((match record.working replace, parseDecimal record.quantity with
          | true, .ok quantity => [Oms.signedAmount record.side (quantity.subClampedZero filled)]
          | _, _ => []).map Decimal.value).sum =
        (if record.working replace then
          record.side.sign * max 0 (record.quantityValue - record.filledValue) else 0) ∧
      ∀ amount ∈ (match record.working replace, parseDecimal record.quantity with
          | true, .ok quantity => [Oms.signedAmount record.side (quantity.subClampedZero filled)]
          | _, _ => []), amount.Small := by
    by_cases hw : record.working replace
    · obtain ⟨quantity, hq⟩ := hquantity hw
      have hdiff : quantity.diffFits filled := by
        simpa [outstandingFits, hs, hw, hf, hq] using hfits
      obtain ⟨hvalue, hsmall⟩ := outstanding_value hq hf hdiff record.side
      simp [hw, hq, hvalue, hsmall, quantityValue, filledValue]
    · simp [hw]
  simp only [hs, ne_eq, not_true_eq_false, if_false, hf, if_true, true_and,
    List.map_append, List.sum_append, hfill.1, hout.1]
  refine ⟨fun amount hm => ?_, trivial⟩
  rcases List.mem_append.mp hm with hm | hm
  · exact hfill.2 amount hm
  · exact hout.2 amount hm

end OrderRecord

namespace Oms

def Parses (oms : Oms) (symbol : String) : Prop :=
  ∀ record ∈ oms.orders.toList, record.symbol = symbol →
    (∃ d, parseDecimal record.filledQuantity = .ok d) ∧ ∃ d, parseDecimal record.quantity = .ok d

theorem Parses.projects {oms : Oms} {symbol : String} (h : oms.Parses symbol)
    (replace : Option OrderRecord) :
    ∀ record ∈ oms.orders.toList, record.symbol = symbol → record.Projects replace := by
  intro record hm hs
  obtain ⟨⟨d, hd⟩, hquantity⟩ := h record hm hs
  refine ⟨⟨d, ?_⟩, fun _ => hquantity⟩
  rw [OrderRecord.filledText_of_parse hd]
  exact hd

private theorem sum_amounts {symbol : String} {replace : Option OrderRecord}
    {records : List OrderRecord}
    (hparse : ∀ record ∈ records, record.symbol = symbol → record.Projects replace)
    (hfits : records.all (OrderRecord.outstandingFits symbol replace)) :
    (∀ amount ∈ records.flatMap (OrderRecord.amounts symbol replace), amount.Small) ∧
      ((records.flatMap (OrderRecord.amounts symbol replace)).map Decimal.value).sum =
        (records.map fun record =>
          if record.symbol = symbol then record.side.sign * record.filledValue else 0).sum +
        (records.map fun record =>
          if record.symbol = symbol ∧ record.working replace then
            record.side.sign * max 0 (record.quantityValue - record.filledValue) else 0).sum := by
  induction records with
  | nil => simp
  | cons record records ih =>
    simp only [List.all_cons, Bool.and_eq_true] at hfits
    have hhead := OrderRecord.amounts_value (hparse record List.mem_cons_self) hfits.1
    have htail := ih (fun r hm => hparse r (List.mem_cons_of_mem record hm)) hfits.2
    simp only [List.flatMap_cons, List.map_append, List.sum_append, List.map_cons, List.sum_cons,
      hhead.2, htail.2]
    refine ⟨fun amount hm => ?_, add_add_add_comm _ _ _ _⟩
    rcases List.mem_append.mp hm with hm | hm
    · exact hhead.1 amount hm
    · exact htail.1 amount hm

/-- Without overflow the projection is the exact position. -/
theorem projectedPosition_value {oms : Oms} {symbol : String} {replace : Option OrderRecord}
    {side : Side} {quantity : String}
    (hparse : ∀ record ∈ oms.orders.toList, record.symbol = symbol → record.Projects replace)
    (hreplace : ∀ record, replace = some record → ∃ d, parseDecimal record.filledText = .ok d)
    (hquantity : ∃ d, parseDecimal quantity = .ok d)
    (hfits : oms.projectionFits symbol replace side quantity) :
    ∃ total : Decimal,
      oms.projectedPosition symbol replace side quantity = some (decimalToString total) ∧
      total.value = oms.exactPosition symbol replace side quantity ∧ total.Small ∧
      total.Normal := by
  obtain ⟨q, hq⟩ := hquantity
  obtain ⟨f, hf⟩ : ∃ d, parseDecimal ((replace.map OrderRecord.filledText).getD "0") = .ok d := by
    cases replace with
    | none => exact ⟨{}, by decide⟩
    | some record => exact hreplace record rfl
  have hfvalue : (replace.map OrderRecord.filledValue).getD 0 =
      decimalValue ((replace.map OrderRecord.filledText).getD "0") := by
    cases replace with
    | none =>
      have hzero : parseDecimal "0" = .ok {} := by decide
      rw [Option.map_none, Option.getD_none, Option.map_none, Option.getD_none,
        decimalValue_of_parse hzero, Decimal.value_zero]
    | some record => rfl
  simp only [projectionFits, Bool.and_eq_true] at hfits
  obtain ⟨⟨hrecords, hcandidate⟩, hsum⟩ := hfits
  have hdiff : q.diffFits f := by simpa [candidateFits, hq, hf] using hcandidate
  obtain ⟨hcvalue, hcsmall⟩ := outstanding_value hq hf hdiff side
  obtain ⟨hsmall, hvalue⟩ := sum_amounts hparse hrecords
  have hcand : candidateAmounts replace side quantity =
      [signedAmount side (q.subClampedZero f)] := by
    simp only [candidateAmounts, hq, hf]
  rw [hcand] at hsum
  have hamounts : ∀ amount ∈ oms.orders.toList.flatMap (OrderRecord.amounts symbol replace) ++
      [signedAmount side (q.subClampedZero f)], amount.Small := by
    intro amount hm
    rcases List.mem_append.mp hm with hm | hm
    · exact hsmall amount hm
    · rw [List.mem_singleton.mp hm]
      exact hcsmall
  have hstart : Decimal.Small {} := ⟨Decimal.fits_zero, by decide⟩
  obtain ⟨htv, hts, htn⟩ :=
    Decimal.sum_addIn hstart ⟨.inl rfl, fun _ => rfl⟩ hamounts hsum
  refine ⟨_, ?_, ?_, hts, htn⟩
  · unfold projectedPosition
    rw [foldlM_projectRecord hparse, Option.map_some, projectCandidate_eq, hcand,
      List.foldl_append]
  · rw [htv, Decimal.value_zero, zero_add, List.map_append, List.sum_append, hvalue,
      List.map_singleton, List.sum_singleton, hcvalue, exactPosition, hfvalue]
    rfl

end Oms

/-! ### The check of the limit -/

/-- The smallest 64-bit mantissa is printed but not read back. -/
private theorem parse_kLlMin (scale : Fin 9) :
    (parseSignedDecimal (decimalToString ⟨kLlMin, scale⟩)).toOption = none := by
  revert scale
  decide +kernel

/-- What the risk check reads back is the projected position. -/
theorem parse_projected {total position : Decimal} (hsmall : total.Small)
    (hnormal : total.Normal)
    (h : parseSignedDecimal (decimalToString total) = .ok position) : position = total := by
  by_cases hl : -kLlMax ≤ total.unscaled
  · rw [parseSignedDecimal_decimalToString ⟨hl, hsmall.fits.upper, hsmall.scale, hnormal⟩] at h
    exact (Except.ok.inj h).symm
  · have hmin : total.unscaled = kLlMin := by
      have hlower := hsmall.fits.lower
      unfold kLlMin kLlMax at *
      omega
    have hscale : total.scale < 9 := Nat.lt_succ_of_le hsmall.scale
    have hnone := parse_kLlMin ⟨total.scale, hscale⟩
    rw [show (⟨kLlMin, total.scale⟩ : Decimal) = total by rw [← hmin], h] at hnone
    cases hnone

/-- A passed check has read a position within the limit. -/
theorem checkRisk_position {limits : InstrumentRiskLimits} {symbol : String} {order : RiskOrder}
    (h : checkRisk (some limits) symbol order = none) (hmax : limits.maxPosition ≠ "") :
    (∃ quantity, parseDecimal order.quantity = .ok quantity) ∧
      ∃ position, parseSignedDecimal order.projectedPosition = .ok position ∧
        |position.value| ≤ decimalValue limits.maxPosition := by
  simp only [checkRisk] at h
  split at h
  · cases h
  · rename_i quantity hq
    have hposition : checkMaxPosition limits symbol order = none := by
      simp only [Option.orElse_eq_orElse, Option.orElse_eq_or, Option.or_eq_none_iff] at h
      exact h.2.2
    refine ⟨⟨quantity, hq⟩, ?_⟩
    unfold checkMaxPosition at hposition
    rw [if_neg hmax] at hposition
    split at hposition
    · cases hposition
    · rename_i position hp
      split at hposition
      · cases hposition
      · rename_i maxPosition hm
        obtain ⟨hvalue, hfits⟩ := Decimal.magnitude_value (parseSignedDecimal_parsed hp)
        refine ⟨position, hp, ?_⟩
        rw [decimalValue_of_parse hm, ← hvalue, ← not_lt,
          ← Decimal.compare_pos_iff hfits (parseDecimal_fits hm)]
        intro hgt
        dsimp only at hposition
        rw [if_pos hgt] at hposition
        cases hposition

namespace Oms

/-- A passed risk step whose projection does not overflow keeps the exact position within the
limit. -/
theorem riskCheck_position {oms : Oms} {symbol : String} {replace : Option OrderRecord}
    {side : Side} {price quantity : String} {limits : InstrumentRiskLimits}
    (hlimits : oms.risk.limitsFor symbol = some limits) (hmax : limits.maxPosition ≠ "")
    (hparse : ∀ record ∈ oms.orders.toList, record.symbol = symbol → record.Projects replace)
    (hreplace : ∀ record, replace = some record → ∃ d, parseDecimal record.filledText = .ok d)
    (hfits : oms.projectionFits symbol replace side quantity)
    (h : oms.riskCheck symbol replace side price quantity = .passed) :
    |oms.exactPosition symbol replace side quantity| ≤ decimalValue limits.maxPosition := by
  unfold riskCheck at h
  simp only [hlimits] at h
  split at h
  · cases h
  · rename_i text htext
    split at h
    · cases h
    · rename_i hpassed
      obtain ⟨hquantity, position, hposition, hle⟩ := checkRisk_position hpassed hmax
      obtain ⟨total, hprojected, hvalue, hsmall, hnormal⟩ :=
        projectedPosition_value hparse hreplace hquantity hfits
      obtain rfl := Option.some.inj (htext.symm.trans hprojected)
      obtain rfl := parse_projected hsmall hnormal hposition
      rw [← hvalue]
      exact hle

/-- In any registry whose fills and quantities parse, in any iteration order: when a place or an
amend of a symbol with a position limit reaches the connector and its projection does not
overflow, the exact worst-case position is within the limit. -/
theorem position_limit_sound (oms : Oms) {symbol : String} {limits : InstrumentRiskLimits}
    (hlimits : oms.risk.limitsFor symbol = some limits) (hmax : limits.maxPosition ≠ "")
    (hparse : oms.Parses symbol) :
    (∀ request venue connector record, request.instrumentId = symbol →
      (oms.placeStage request venue).2 = .opened connector record →
      oms.projectionFits symbol none request.side request.quantity →
        |oms.exactPosition symbol none request.side request.quantity| ≤
          decimalValue limits.maxPosition) ∧
    ∀ command connector wire record, record.symbol = symbol →
      (oms.amendStage command).2 = .opened connector wire record →
      oms.projectionFits symbol (some record) record.side
        (command.newQuantity.getD record.quantity) →
        |oms.exactPosition symbol (some record) record.side
            (command.newQuantity.getD record.quantity)| ≤ decimalValue limits.maxPosition := by
  constructor
  · intro request venue connector record hs hopen hfits
    subst hs
    cases oms.placeStage_cases request venue with
    | opened _ _ _ _ hrisk _ _ _ _ =>
      exact riskCheck_position hlimits hmax (hparse.projects none) (fun _ h => by cases h) hfits hrisk
    | unchanged _ _ hstage =>
      rw [hopen] at hstage
      rcases hstage with ⟨result, hstage⟩ | hstage <;> cases hstage
    | riskRejected _ _ _ _ _ hstage _ =>
      rw [hopen] at hstage
      cases hstage
    | unpersisted _ _ _ _ _ hstage _ =>
      rw [hopen] at hstage
      cases hstage
  · intro command connector wire record hs hopen hfits
    cases oms.amendStage_cases command with
    | unchanged _ hstage =>
      rw [hopen] at hstage
      rcases hstage with ⟨result, hstage⟩ | hstage <;> cases hstage
    | opened _ record' hrecord _ hrisk _ hstage _ =>
      rw [hopen] at hstage
      obtain ⟨-, -, rfl⟩ := AmendStage.opened.inj hstage
      subst hs
      refine riskCheck_position hlimits hmax (hparse.projects _) ?_ hfits hrisk
      intro record' hr
      obtain rfl := Option.some.inj hr
      exact (hparse.projects none _ (KeyedList.mem_toList_of_find? hrecord) rfl).1

def tiny : Oms := ((System.boot .limited (some .fresh)).place
  ⟨"c0", "BTCUSDT", .buy, .limit, "100", "0.00000001", ""⟩ "").oms

private theorem tiny_parses : tiny.Parses "BTCUSDT" := by
  intro record hm hs
  have hlist : tiny.orders.toList =
    [candidate ⟨"c0", "BTCUSDT", .buy, .limit, "100", "0.00000001", ""⟩ "binance"] := by
    decide +kernel
  rw [hlist, List.mem_singleton] at hm
  subst hm
  exact ⟨⟨{}, by decide⟩, ⟨1, 8⟩, by decide⟩

/-- An order of 5 next to it. -/
theorem position_limit_sound_small :
    (∃ connector record, (tiny.placeStage .sample "").2 = .opened connector record) ∧
      |tiny.exactPosition "BTCUSDT" none .buy "5"| ≤ decimalValue "10" := by
  have hopen : (tiny.placeStage .sample "").2 =
      .opened "binance" (candidate .sample "binance") := by decide +kernel
  have hlimits : tiny.risk.limitsFor "BTCUSDT" = some ⟨"", "", "10"⟩ := by decide +kernel
  have hsound := position_limit_sound tiny hlimits (by decide) tiny_parses
  exact ⟨⟨_, _, hopen⟩, hsound.1 .sample "" _ _ rfl hopen (by decide +kernel)⟩

/-- At the scale of the working order the candidate of 100000000000 does not fit 64 bits: its
amount is dropped from the projection and the order goes through. -/
theorem position_limit_bypassed :
    tiny.risk.limitsFor "BTCUSDT" = some ⟨"", "", "10"⟩ ∧ tiny.Parses "BTCUSDT" ∧
      (∃ connector record,
        (tiny.placeStage ⟨"c1", "BTCUSDT", .buy, .limit, "100", "100000000000", ""⟩ "").2 =
          .opened connector record) ∧
      decimalValue "10" < |tiny.exactPosition "BTCUSDT" none .buy "100000000000"| := by
  have hopen : (tiny.placeStage ⟨"c1", "BTCUSDT", .buy, .limit, "100", "100000000000", ""⟩ "").2 =
      .opened "binance" (candidate
        ⟨"c1", "BTCUSDT", .buy, .limit, "100", "100000000000", ""⟩ "binance") := by decide +kernel
  refine ⟨by decide +kernel, tiny_parses, ⟨_, _, hopen⟩, ?_⟩
  decide +kernel

end Oms

end ExchangeGateway
