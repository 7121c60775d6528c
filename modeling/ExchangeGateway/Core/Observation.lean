import ExchangeGateway.Core.DecimalText
import ExchangeGateway.Core.Record

/-! What one observation, one leg and one backfill can change in a record. -/
namespace ExchangeGateway

namespace OrderRecord

/-! ### The parts of an observation -/

theorem observeFill_cases (record : OrderRecord) (filled avgPrice : String) :
    record.observeFill filled avgPrice = (record, false) ∨
      ∃ reported current, filled ≠ "" ∧ parseDecimal filled = .ok reported ∧
        parseDecimal record.filledText = .ok current ∧ 0 < reported.compare current ∧
        record.observeFill filled avgPrice =
          ({ record with
              filledQuantity := filled
              averageFillPrice := if avgPrice = "" then record.averageFillPrice else avgPrice },
            true) := by
  by_cases hf : filled = ""
  · exact .inl (by simp [observeFill, hf])
  · cases hr : parseDecimal filled with
    | error _ => exact .inl (by simp [observeFill, hf, hr])
    | ok reported =>
      cases hc : parseDecimal record.filledText with
      | error _ => exact .inl (by simp [observeFill, hf, hr, hc])
      | ok current =>
        by_cases hgt : reported.compare current > 0
        · exact .inr ⟨reported, current, hf, rfl, rfl, hgt, by simp [observeFill, hf, hr, hc, hgt]⟩
        · exact .inl (by simp [observeFill, hf, hr, hc, hgt])

theorem observeState_cases (record : OrderRecord) (state : OrderState) :
    record.observeState state = (record, false) ∨
      state ≠ record.state ∧ canTransition record.state state ∧
        record.observeState state = ({ record with state := state }, true) := by
  by_cases hs : state = record.state
  · exact .inl (by simp [observeState, hs])
  · by_cases hc : canTransition record.state state
    · exact .inr ⟨hs, hc, by simp [observeState, hs, applyTransition_eq, hc]⟩
    · exact .inl (by simp [observeState, hs, applyTransition_eq, hc])

theorem observePrice_cases (record : OrderRecord) (price : String) :
    record.observePrice price = (record, false) ∨
      price ≠ "" ∧ price ≠ record.price ∧
        record.observePrice price = ({ record with price := price }, true) := by
  by_cases h : price ≠ "" ∧ price ≠ record.price
  · exact .inr ⟨h.1, h.2, if_pos h⟩
  · exact .inl (if_neg h)

theorem observeQuantity_cases (record : OrderRecord) (quantity : String) :
    record.observeQuantity quantity = (record, false) ∨
      quantity ≠ "" ∧ quantity ≠ record.quantity ∧
        record.observeQuantity quantity = ({ record with quantity := quantity }, true) := by
  by_cases h : quantity ≠ "" ∧ quantity ≠ record.quantity
  · exact .inr ⟨h.1, h.2, if_pos h⟩
  · exact .inl (if_neg h)

@[simp] theorem observePrice_empty (record : OrderRecord) :
    record.observePrice "" = (record, false) := by
  simp [observePrice]

@[simp] theorem observeQuantity_empty (record : OrderRecord) :
    record.observeQuantity "" = (record, false) := by
  simp [observeQuantity]

theorem observeState_fst (record : OrderRecord) (state : OrderState) :
    (record.observeState state).1 =
      { record with state := if canTransition record.state state then state else record.state } := by
  by_cases hs : state = record.state
  · rw [observeState, if_pos hs, hs, ite_self]
  · by_cases hc : canTransition record.state state
    · simp [observeState, hs, applyTransition_eq, hc]
    · simp [observeState, hs, applyTransition_eq, hc]

theorem observePrice_fst (record : OrderRecord) (price : String) :
    (record.observePrice price).1 =
      { record with price := if price = "" then record.price else price } := by
  by_cases he : price = ""
  · simp [observePrice, he]
  · by_cases hp : price = record.price
    · simp [observePrice, hp]
    · simp [observePrice, he, hp]

theorem observeQuantity_fst (record : OrderRecord) (quantity : String) :
    (record.observeQuantity quantity).1 =
      { record with quantity := if quantity = "" then record.quantity else quantity } := by
  by_cases he : quantity = ""
  · simp [observeQuantity, he]
  · by_cases hq : quantity = record.quantity
    · simp [observeQuantity, hq]
    · simp [observeQuantity, he, hq]

/-! ### A whole observation -/

theorem applyObservation_fst (record : OrderRecord) (state : OrderState)
    (filled avgPrice price quantity : String) :
    (record.applyObservation state filled avgPrice price quantity true).1 =
      { record with
        filledQuantity := (record.observeFill filled avgPrice).1.filledQuantity
        averageFillPrice := (record.observeFill filled avgPrice).1.averageFillPrice
        state := if canTransition record.state state then state else record.state
        price := if price = "" then record.price else price
        quantity := if quantity = "" then record.quantity else quantity } := by
  have hfirst : (record.applyObservation state filled avgPrice price quantity true).1 =
      ((((record.observeFill filled avgPrice).1.observeState state).1.observePrice
        price).1.observeQuantity quantity).1 := rfl
  have hfill : (record.observeFill filled avgPrice).1 =
      { record with
        filledQuantity := (record.observeFill filled avgPrice).1.filledQuantity
        averageFillPrice := (record.observeFill filled avgPrice).1.averageFillPrice } := by
    rcases record.observeFill_cases filled avgPrice with h | ⟨_, _, -, -, -, -, h⟩
    · rw [h]
    · rw [h]
  rw [hfirst, observeQuantity_fst, observePrice_fst, observeState_fst, hfill]

/-- The fill part of an observation: kept, or raised to a reported value. -/
def FillObserved (old : OrderRecord) (filled avgPrice filled' avgPrice' : String) : Prop :=
  filled' = old.filledQuantity ∧ avgPrice' = old.averageFillPrice ∨
    ∃ reported current, filled ≠ "" ∧ parseDecimal filled = .ok reported ∧
      parseDecimal old.filledText = .ok current ∧ 0 < reported.compare current ∧
      filled' = filled ∧ avgPrice' = if avgPrice = "" then old.averageFillPrice else avgPrice

private theorem observeFill_spec (record : OrderRecord) (filled avgPrice : String) :
    ∃ filled' avgPrice' changed, record.observeFill filled avgPrice =
        ({ record with filledQuantity := filled', averageFillPrice := avgPrice' }, changed) ∧
      record.FillObserved filled avgPrice filled' avgPrice' ∧
      (changed = false → filled' = record.filledQuantity ∧ avgPrice' = record.averageFillPrice) := by
  rcases record.observeFill_cases filled avgPrice with h | ⟨reported, current, hf, hr, hc, hgt, h⟩
  · exact ⟨_, _, false, h, .inl ⟨rfl, rfl⟩, fun _ => ⟨rfl, rfl⟩⟩
  · exact ⟨_, _, true, h, .inr ⟨reported, current, hf, hr, hc, hgt, rfl, rfl⟩, nofun⟩

private theorem observeState_spec (record : OrderRecord) (state : OrderState) :
    ∃ state' changed, record.observeState state = ({ record with state := state' }, changed) ∧
      (state' = record.state ∨ state' = state ∧ canTransition record.state state) ∧
      (changed = false → state' = record.state) := by
  rcases record.observeState_cases state with h | ⟨-, hc, h⟩
  · exact ⟨_, false, h, .inl rfl, fun _ => rfl⟩
  · exact ⟨_, true, h, .inr ⟨rfl, hc⟩, nofun⟩

private theorem observePrice_spec (record : OrderRecord) (price : String) :
    ∃ price' changed, record.observePrice price = ({ record with price := price' }, changed) ∧
      (price' = record.price ∨ price' = price ∧ price ≠ "") ∧
      (changed = false → price' = record.price) := by
  rcases record.observePrice_cases price with h | ⟨hne, -, h⟩
  · exact ⟨_, false, h, .inl rfl, fun _ => rfl⟩
  · exact ⟨_, true, h, .inr ⟨rfl, hne⟩, nofun⟩

private theorem observeQuantity_spec (record : OrderRecord) (quantity : String) :
    ∃ quantity' changed,
      record.observeQuantity quantity = ({ record with quantity := quantity' }, changed) ∧
      (quantity' = record.quantity ∨ quantity' = quantity ∧ quantity ≠ "") ∧
      (changed = false → quantity' = record.quantity) := by
  rcases record.observeQuantity_cases quantity with h | ⟨hne, -, h⟩
  · exact ⟨_, false, h, .inl rfl, fun _ => rfl⟩
  · exact ⟨_, true, h, .inr ⟨rfl, hne⟩, nofun⟩

/-- An observation changes state, fill, price and quantity only, each within its rule; it says
so when one of them changed. -/
theorem applyObservation_spec (record : OrderRecord) (state : OrderState)
    (filled avgPrice price quantity : String) (lifecycle : Bool) :
    ∃ state' filled' avgPrice' price' quantity' changed,
      record.applyObservation state filled avgPrice price quantity lifecycle =
        ({ record with
            state := state'
            filledQuantity := filled'
            averageFillPrice := avgPrice'
            price := price'
            quantity := quantity' }, changed) ∧
      record.FillObserved filled avgPrice filled' avgPrice' ∧
      (state' = record.state ∨ lifecycle ∧ state' = state ∧ canTransition record.state state) ∧
      (price' = record.price ∨ lifecycle ∧ price' = price ∧ price ≠ "") ∧
      (quantity' = record.quantity ∨ lifecycle ∧ quantity' = quantity ∧ quantity ≠ "") ∧
      (changed = false → state' = record.state ∧ filled' = record.filledQuantity ∧
        avgPrice' = record.averageFillPrice ∧ price' = record.price ∧
        quantity' = record.quantity) := by
  obtain ⟨filled', avgPrice', b, hf, hfill, hfb⟩ := record.observeFill_spec filled avgPrice
  cases lifecycle with
  | false =>
    refine ⟨record.state, filled', avgPrice', record.price, record.quantity, b, ?_, hfill,
      .inl rfl, .inl rfl, .inl rfl, fun hb => ⟨rfl, (hfb hb).1, (hfb hb).2, rfl, rfl⟩⟩
    simp [applyObservation, hf]
  | true =>
    obtain ⟨state', bs, hs, hstate, hsb⟩ := observeState_spec
      { record with filledQuantity := filled', averageFillPrice := avgPrice' } state
    obtain ⟨price', bp, hp, hprice, hpb⟩ := observePrice_spec
      { record with
        filledQuantity := filled', averageFillPrice := avgPrice', state := state' } price
    obtain ⟨quantity', bq, hq, hquantity, hqb⟩ := observeQuantity_spec
      { record with
        filledQuantity := filled', averageFillPrice := avgPrice', state := state'
        price := price' } quantity
    refine ⟨state', filled', avgPrice', price', quantity', b || bs || bp || bq, ?_, hfill,
      by simpa using hstate, by simpa using hprice, by simpa using hquantity, fun hb => ?_⟩
    · simp only [applyObservation, hf, hs, hp, hq, if_true]
    · simp only [Bool.or_eq_false_iff] at hb
      obtain ⟨⟨⟨hb, hbs⟩, hbp⟩, hbq⟩ := hb
      exact ⟨hsb hbs, (hfb hb).1, (hfb hb).2, hpb hbp, hqb hbq⟩

/-! ### Legs -/

/-- Learning an exchange id touches the leg table only. -/
theorem noteExchangeId_spec (record : OrderRecord) (id : String) :
    ∃ exchangeOrderId legs,
      record.noteExchangeId id = { record with exchangeOrderId := exchangeOrderId, legs := legs } := by
  unfold noteExchangeId pushLeg
  split
  · exact ⟨_, _, rfl⟩
  · exact ⟨_, _, rfl⟩

theorem learned_spec (record : OrderRecord) (learned : Prop) [Decidable learned] (id : String) :
    ∃ exchangeOrderId legs, (if learned then record.noteExchangeId id else record) =
      { record with exchangeOrderId := exchangeOrderId, legs := legs } := by
  split
  · exact record.noteExchangeId_spec id
  · exact ⟨_, _, rfl⟩

theorem appendAmendLeg_spec (record : OrderRecord) (id : String) :
    ∃ exchangeOrderId legs,
      record.appendAmendLeg id = { record with exchangeOrderId := exchangeOrderId, legs := legs } := by
  unfold appendAmendLeg pushLeg
  split
  · exact ⟨_, _, rfl⟩
  · exact ⟨_, _, rfl⟩

/-! ### Fills only rise -/

theorem filledText_of_parse {record : OrderRecord} {d : Decimal}
    (h : parseDecimal record.filledQuantity = .ok d) :
    record.filledText = record.filledQuantity := by
  unfold filledText
  split
  · rename_i he
    rw [he] at h
    cases h
  · rfl

/-- A fill that parses keeps parsing and never falls. -/
theorem FillObserved.value_le {old : OrderRecord} {filled avgPrice filled' avgPrice' : String}
    (h : old.FillObserved filled avgPrice filled' avgPrice') {d : Decimal}
    (hd : parseDecimal old.filledQuantity = .ok d) :
    ∃ d', parseDecimal filled' = .ok d' ∧ d.value ≤ d'.value := by
  rcases h with ⟨rfl, -⟩ | ⟨reported, current, -, hr, hc, hgt, rfl, -⟩
  · exact ⟨d, hd, le_refl _⟩
  · rw [filledText_of_parse hd, hd] at hc
    obtain rfl := Except.ok.inj hc
    have hlt := (Decimal.compare_pos_iff (parseDecimal_fits hr) (parseDecimal_fits hd)).mp hgt
    exact ⟨reported, hr, hlt.le⟩

end OrderRecord

end ExchangeGateway
