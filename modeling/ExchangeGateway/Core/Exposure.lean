import ExchangeGateway.Core.Exclusive
import ExchangeGateway.Core.Position
import Mathlib.Tactic.Linarith

/-! The position limit under concurrency. A place reserves its size in the section that checks it.
An amend checks in one section and applies the new quantity in a later one; until then nothing in
the registry stands for it. -/
namespace ExchangeGateway

namespace OrderRecord

def exposure (record : OrderRecord) : ℚ :=
  if isTerminal record.state then record.filledValue
  else max record.filledValue record.quantityValue

def reserving (reserve : String → ℚ) (record : OrderRecord) : ℚ :=
  if isTerminal record.state then record.filledValue
  else max (max record.filledValue record.quantityValue) (reserve record.clientOrderId)

/-- A reported fill that counts stays within the quantity. -/
def fillsWithin (record : OrderRecord) (filled : String) : Bool :=
  !record.raisesFill filled || decimalValue filled ≤ record.quantityValue

/-- A fill that counts although the order is terminal. -/
def fillsLate (record : OrderRecord) (filled : String) : Bool :=
  record.raisesFill filled && isTerminal record.state

end OrderRecord

def AmendRequest.raises (wire : AmendRequest) (record : OrderRecord) : Bool :=
  record.quantityValue < decimalValue (wire.newQuantity.getD "")

namespace Entry

/-- Reported fills stay within the order, no order of the symbol is adopted and no snapshot brings
another quantity. -/
def conforming (symbol : String) : Entry → Option OrderRecord → Bool
  | .reported _ report, some record =>
    record.symbol ≠ symbol || record.fillsWithin report.filledQuantity
  | .listed _ snapshot, none => snapshot.instrumentId ≠ symbol
  | .listed _ snapshot, some record | .resolved _ snapshot, some record =>
    record.symbol ≠ symbol || (record.fillsWithin snapshot.filledQuantity &&
      (snapshot.quantity = "" || snapshot.quantity = record.quantity))
  | _, _ => true

/-- No fill of the symbol counts for a terminal order. -/
def timely (symbol : String) : Entry → Option OrderRecord → Bool
  | .reported _ report, some record =>
    record.symbol ≠ symbol || !record.fillsLate report.filledQuantity
  | .listed _ snapshot, some record | .resolved _ snapshot, some record =>
    record.symbol ≠ symbol || !record.fillsLate snapshot.filledQuantity
  | _, _ => true

def orderly (symbol : String) (entry : Entry) (record : Option OrderRecord) : Bool :=
  entry.conforming symbol record && entry.timely symbol record

end Entry

namespace System

/-- An amend that raises a quantity of the symbol is in flight. -/
def raising (s : System) (symbol : String) : Bool :=
  s.calls.any fun call =>
    match call with
    | .amend _ wire _ validated => validated.symbol = symbol && wire.raises validated
    | _ => false

/-- The orders of the symbol have one side, fills and snapshots conform, and no projection that
lets a request through overflows. -/
def conforming (symbol : String) (side : Side) (s : System) (a : Action) : Bool :=
  s.oms.ledger.allEntries (Entry.conforming symbol) (s.entries a) &&
    match a with
    | .place request venue =>
      request.instrumentId ≠ symbol || (request.side = side &&
        match (s.oms.placeStage request venue).2 with
        | .opened _ _ => s.oms.projectionFits symbol none request.side request.quantity
        | _ => true)
    | .amend command =>
      match (s.oms.amendStage command).2 with
      | .opened _ _ record =>
        record.symbol ≠ symbol || s.oms.projectionFits symbol (some record) record.side
          (command.newQuantity.getD record.quantity)
      | _ => true
    | _ => true

/-- While an amend that raises a quantity of the symbol is in flight, no place of the symbol and no
other such amend is let through; and no fill of the symbol is late. -/
def serial (symbol : String) (s : System) (a : Action) : Bool :=
  s.oms.ledger.allEntries (Entry.timely symbol) (s.entries a) &&
    match a with
    | .place request venue =>
      match (s.oms.placeStage request venue).2 with
      | .opened _ _ => request.instrumentId ≠ symbol || !s.raising symbol
      | _ => true
    | .amend command =>
      match (s.oms.amendStage command).2 with
      | .opened _ wire record =>
        record.symbol ≠ symbol || !(wire.raises record && s.raising symbol)
      | _ => true
    | _ => true

end System

/-! ### What an orderly write does to one record -/

namespace OrderRecord

/-- An update that does not touch the quantity and fills the order within it, if at all. -/
structure Keeps (old new : OrderRecord) : Prop where
  clientOrderId : new.clientOrderId = old.clientOrderId
  symbol : new.symbol = old.symbol
  side : new.side = old.side
  quantity : new.quantity = old.quantity
  terminal : isTerminal old.state → isTerminal new.state
  fill : new.filledQuantity = old.filledQuantity ∨
    (∃ d, parseDecimal new.filledQuantity = .ok d) ∧ ¬ isTerminal old.state ∧
      decimalValue new.filledQuantity ≤ old.quantityValue

variable {old new : OrderRecord}

theorem Keeps.filledText (h : Keeps old new) : new.filledText = old.filledText ∨
    (∃ d, parseDecimal new.filledText = .ok d) ∧ ¬ isTerminal old.state ∧
      new.filledValue ≤ old.quantityValue := by
  rcases h.fill with hfill | ⟨⟨d, hd⟩, hlive, hle⟩
  · left
    simp only [OrderRecord.filledText, hfill]
  · right
    have htext := filledText_of_parse hd
    rw [filledValue, htext]
    exact ⟨⟨d, hd⟩, hlive, hle⟩

theorem Keeps.quantityValue (h : Keeps old new) : new.quantityValue = old.quantityValue := by
  simp only [OrderRecord.quantityValue, h.quantity]

theorem Keeps.parses (h : Keeps old new) (hold : ∃ d, parseDecimal old.filledText = .ok d) :
    ∃ d, parseDecimal new.filledText = .ok d := by
  rcases h.filledText with htext | ⟨hd, -⟩
  · rw [htext]
    exact hold
  · exact hd

/-- A kept order does not gain exposure, with or without a reservation. -/
theorem Keeps.reserving_le (h : Keeps old new) (reserve : String → ℚ) :
    new.reserving reserve ≤ old.reserving reserve := by
  have hfill : new.filledValue = old.filledValue ∨
      ¬ isTerminal old.state ∧ new.filledValue ≤ old.quantityValue := by
    rcases h.filledText with htext | ⟨-, hlive, hle⟩
    · exact .inl (by simp only [filledValue, htext])
    · exact .inr ⟨hlive, hle⟩
  unfold reserving
  rw [h.clientOrderId, h.quantityValue]
  by_cases hold : isTerminal old.state
  · rw [if_pos hold, if_pos (h.terminal hold)]
    rcases hfill with hfill | ⟨hlive, -⟩
    · exact hfill.le
    · exact absurd hold hlive
  · have hle : new.filledValue ≤ max old.filledValue old.quantityValue := by
      rcases hfill with hfill | ⟨-, hfill⟩
      · exact hfill.le.trans (le_max_left _ _)
      · exact hfill.trans (le_max_right _ _)
    rw [if_neg hold]
    split
    · exact hle.trans (le_max_left _ _)
    · exact max_le_max_right _ (max_le hle (le_max_right _ _))

/-- Legs and rejection are free, the state may become terminal. -/
theorem keeps_with (record : OrderRecord) (exchangeOrderId : String) (legs : List OrderLeg)
    {state : OrderState} (hstate : isTerminal record.state → isTerminal state)
    (rejection : Option Error) :
    Keeps record
      { record with
        exchangeOrderId := exchangeOrderId
        legs := legs
        state := state
        rejection := rejection } :=
  ⟨rfl, rfl, rfl, rfl, hstate, .inl rfl⟩

theorem keeps_noteExchangeId (record : OrderRecord) (id : String) :
    Keeps record (record.noteExchangeId id) := by
  obtain ⟨_, _, h⟩ := record.noteExchangeId_spec id
  rw [h]
  exact keeps_with record _ _ (fun h => h) record.rejection

theorem keeps_applyObservation {mid : OrderRecord}
    (hmid : ∃ exchangeOrderId legs,
      mid = { old with exchangeOrderId := exchangeOrderId, legs := legs })
    (state : OrderState) {filled : String} (avgPrice price : String) {quantity : String}
    (lifecycle : Bool) (hfill : old.fillsWithin filled) (htimely : old.fillsLate filled = false)
    (hquantity : quantity = "" ∨ quantity = old.quantity) :
    Keeps old (mid.applyObservation state filled avgPrice price quantity lifecycle).1 := by
  obtain ⟨exchangeOrderId, legs, rfl⟩ := hmid
  obtain ⟨state', filled', _, _, quantity', _, heq, hfilled, hstate, -, hq, -⟩ :=
    applyObservation_spec { old with exchangeOrderId := exchangeOrderId, legs := legs } state
      filled avgPrice price quantity lifecycle
  rw [heq]
  refine ⟨rfl, rfl, rfl, ?_, ?_, ?_⟩
  · rcases hq with hq | ⟨-, hq, hne⟩
    · exact hq
    · exact hq.trans (hquantity.resolve_left hne)
  · intro hterminal
    rcases hstate with hs | ⟨-, -, hc⟩
    · exact hs ▸ hterminal
    · rw [not_canTransition_of_terminal hterminal] at hc
      cases hc
  · rcases hfilled with ⟨hf, -⟩ | ⟨reported, current, hne, hr, hc, hgt, hf, -⟩
    · exact .inl hf
    · right
      have hc' : parseDecimal old.filledText = .ok current := hc
      have hraises : old.raisesFill filled := by simp [raisesFill, hne, hr, hc', hgt]
      have hlive : isTerminal old.state = false := by simpa [fillsLate, hraises] using htimely
      have hwithin : decimalValue filled ≤ old.quantityValue := by
        simpa [fillsWithin, hraises] using hfill
      have hf' : filled' = filled := hf
      rw [hf']
      exact ⟨⟨reported, hr⟩, by simp [hlive], hwithin⟩

theorem keeps_arbitrate {report : ExecutionReport} (h : old.fillsWithin report.filledQuantity)
    (htimely : old.fillsLate report.filledQuantity = false) :
    Keeps old (old.arbitrate report).1 :=
  keeps_applyObservation (old.learned_spec _ _) _ _ _ _ h htimely (.inl rfl)

theorem keeps_refreshed {snapshot : OrderSnapshot}
    (h : old.fillsWithin snapshot.filledQuantity)
    (htimely : old.fillsLate snapshot.filledQuantity = false)
    (hquantity : snapshot.quantity = "" ∨ snapshot.quantity = old.quantity) :
    Keeps old (Oms.refreshed old snapshot).1 := by
  unfold Oms.refreshed
  exact keeps_applyObservation (old.learned_spec _ _) _ _ _ _ h htimely hquantity

theorem keeps_resolve {snapshot : OrderSnapshot}
    (h : old.fillsWithin snapshot.filledQuantity)
    (htimely : old.fillsLate snapshot.filledQuantity = false)
    (hquantity : snapshot.quantity = "" ∨ snapshot.quantity = old.quantity) :
    Keeps old (old.resolve snapshot).1 := by
  unfold resolve
  exact keeps_applyObservation (old.learned_spec _ _) _ _ _ _ h htimely hquantity

end OrderRecord

namespace Entry

def newQuantity : Entry → Option String
  | .amended _ _ quantity _ => some quantity
  | _ => none

/-- Every orderly write on a registered order of the symbol keeps it, an acked amend apart. -/
theorem keeps_write {entry : Entry} {symbol : String} {old new : OrderRecord}
    (hinserted : entry.inserted = none) (hquantity : entry.newQuantity = none)
    (horderly : entry.orderly symbol (some old)) (hs : old.symbol = symbol)
    (hw : (entry.write (some old)).1 = some new) : old.Keeps new := by
  cases rewrites_of_write hinserted hw with
  | amended _ _ _ _ => cases hquantity
  | accepted _ exchangeOrderId =>
    obtain ⟨_, _, hnote⟩ := old.noteExchangeId_spec exchangeOrderId
    simp only [OrderRecord.accept, hnote]
    apply OrderRecord.keeps_with
    intro hterminal
    rw [applyTransition_eq, not_canTransition_of_terminal hterminal]
    exact hterminal
  | rejected _ error ht => exact old.keeps_with _ _ (fun h => absurd h ht) _
  | canceled _ exchangeOrderId _ =>
    obtain ⟨_, _, hnote⟩ := old.noteExchangeId_spec exchangeOrderId
    rw [hnote]
    exact old.keeps_with _ _ (fun _ => rfl) _
  | noted _ exchangeOrderId => exact old.keeps_noteExchangeId exchangeOrderId
  | discovered _ exchangeOrderId => exact old.keeps_noteExchangeId exchangeOrderId
  | reported _ report =>
    have hwithin : old.fillsWithin report.filledQuantity ∧
        old.fillsLate report.filledQuantity = false := by
      simpa [orderly, conforming, timely, hs] using horderly
    exact OrderRecord.keeps_arbitrate hwithin.1 hwithin.2
  | listed _ snapshot =>
    have hwithin : (old.fillsWithin snapshot.filledQuantity ∧
        (snapshot.quantity = "" ∨ snapshot.quantity = old.quantity)) ∧
        old.fillsLate snapshot.filledQuantity = false := by
      simpa [orderly, conforming, timely, hs] using horderly
    exact OrderRecord.keeps_refreshed hwithin.1.1 hwithin.2 hwithin.1.2
  | resolved _ snapshot =>
    have hwithin : (old.fillsWithin snapshot.filledQuantity ∧
        (snapshot.quantity = "" ∨ snapshot.quantity = old.quantity)) ∧
        old.fillsLate snapshot.filledQuantity = false := by
      simpa [orderly, conforming, timely, hs] using horderly
    exact OrderRecord.keeps_resolve hwithin.1.1 hwithin.2 hwithin.1.2
  | absent _ ht => exact old.keeps_with _ _ (fun h => absurd h ht) _

/-- The symbol of a registered order never changes. -/
theorem symbol_write {entry : Entry} {old new : OrderRecord} (hinserted : entry.inserted = none)
    (hw : (entry.write (some old)).1 = some new) : new.symbol = old.symbol := by
  have hnote (id : String) : (old.noteExchangeId id).symbol = old.symbol :=
    (old.keeps_noteExchangeId id).symbol
  have hlearned (learned : Prop) [Decidable learned] (id : String) :
      (if learned then old.noteExchangeId id else old).symbol = old.symbol := by
    split
    · exact hnote id
    · rfl
  have hobserve (record : OrderRecord) (state : OrderState)
      (filled avgPrice price quantity : String) (lifecycle : Bool) :
      (record.applyObservation state filled avgPrice price quantity lifecycle).1.symbol =
        record.symbol := by
    obtain ⟨_, _, _, _, _, _, heq, -⟩ :=
      record.applyObservation_spec state filled avgPrice price quantity lifecycle
    rw [heq]
  cases rewrites_of_write hinserted hw with
  | accepted _ exchangeOrderId => exact hnote exchangeOrderId
  | amended _ price quantity exchangeOrderId =>
    obtain ⟨_, _, hamend⟩ := OrderRecord.appendAmendLeg_spec
      { old with price := price, quantity := quantity } exchangeOrderId
    rw [OrderRecord.amend, hamend]
  | rejected _ error _ => rfl
  | canceled _ exchangeOrderId _ => exact hnote exchangeOrderId
  | noted _ exchangeOrderId => exact hnote exchangeOrderId
  | discovered _ exchangeOrderId => exact hnote exchangeOrderId
  | reported _ report => exact (hobserve _ _ _ _ _ _ _).trans (hlearned _ _)
  | listed _ snapshot =>
    unfold Oms.refreshed
    exact (hobserve _ _ _ _ _ _ _).trans (hlearned _ _)
  | resolved _ snapshot =>
    unfold OrderRecord.resolve
    exact (hobserve _ _ _ _ _ _ _).trans (hlearned _ _)
  | absent _ _ => rfl

end Entry

/-- The share of a record in the exposure of a symbol, with room for amends in flight. -/
def OrderRecord.weight (symbol : String) (reserve : String → ℚ) (record : OrderRecord) : ℚ :=
  if record.symbol = symbol then record.reserving reserve else 0

/-- An acked amend that was reserved for, or asks for no more than the order has. -/
theorem OrderRecord.reserving_amend_le {record : OrderRecord} {quantity : String}
    {reserve : String → ℚ}
    (h : decimalValue quantity ≤ record.quantityValue ∨
      decimalValue quantity ≤ reserve record.clientOrderId) (price id : String) :
    (record.amend price quantity id).reserving reserve ≤ record.reserving reserve := by
  obtain ⟨_, _, hamend⟩ := appendAmendLeg_spec
    { record with price := price, quantity := quantity } id
  have hnew : record.amend price quantity id = _ := hamend
  rw [hnew]
  unfold reserving
  dsimp only
  split
  · exact le_refl _
  · refine max_le (max_le ?_ ?_) (le_max_right _ _)
    · exact (le_max_left _ _).trans (le_max_left _ _)
    · rcases h with h | h
      · exact h.trans ((le_max_right _ _).trans (le_max_left _ _))
      · exact h.trans (le_max_right _ _)

namespace Ledger

variable {ledger : Ledger} {symbol : String} {side : Side} {reserve : String → ℚ} {bound : ℚ}

/-- The orders of the symbol are on one side, parse, and stay within the bound together with the
reservations. -/
structure Covered (ledger : Ledger) (symbol : String) (side : Side) (reserve : String → ℚ)
    (bound : ℚ) : Prop where
  sides : ∀ id record, ledger.orders.find? id = some record → record.symbol = symbol →
    record.side = side
  filled : ∀ id record, ledger.orders.find? id = some record → record.symbol = symbol →
    ∃ d, parseDecimal record.filledText = .ok d
  quantity : ∀ id record, ledger.orders.find? id = some record → record.symbol = symbol →
    ¬ isTerminal record.state → ∃ d, parseDecimal record.quantity = .ok d
  bound : ledger.orders.sum (OrderRecord.weight symbol reserve) ≤ bound

/-- What an entry must satisfy to stay covered; a staged order needs a reservation of its own. -/
def Admits (ledger : Ledger) (symbol : String) (side : Side) (reserve : String → ℚ) :
    Entry → Prop
  | .riskRejected record => ledger.orders.find? record.clientOrderId = none ∧
      (record.symbol = symbol → record.side = side) ∧ record.state = .rejected ∧
      record.filledQuantity = "0"
  | .staged _ persisted => persisted = false
  | .amended id _ quantity _ => ∀ record, ledger.orders.find? id = some record →
      record.symbol = symbol → (∃ d, parseDecimal quantity = .ok d) ∧
        (decimalValue quantity ≤ record.quantityValue ∨ decimalValue quantity ≤ reserve id)
  | entry => entry.orderly symbol (ledger.orders.find? entry.key)

theorem parse_zero : parseDecimal "0" = .ok {} := by decide

private theorem Covered.write {bound' : ℚ} (h : ledger.Covered symbol side reserve bound)
    {entry : Entry} {slot : Option OrderRecord} {new : OrderRecord}
    (hold : ledger.orders.find? entry.key = slot) (hw : (entry.write slot).1 = some new)
    (hnew : new.symbol = symbol → new.side = side ∧
      (∃ d, parseDecimal new.filledText = .ok d) ∧
      (¬ isTerminal new.state → ∃ d, parseDecimal new.quantity = .ok d))
    (hbound : (ledger.orders.set new).sum (OrderRecord.weight symbol reserve) ≤ bound') :
    (ledger.enter entry).Covered symbol side reserve bound' := by
  have hfind (id : String) : (ledger.enter entry).orders.find? id =
      if entry.key = id then some new else ledger.orders.find? id := by
    rw [find?_enter, hold, hw, Option.some_or]
  have hset : (ledger.enter entry).orders = ledger.orders.set new := by
    rcases hwrite : entry.write slot with ⟨written, events⟩
    obtain rfl : written = some new := by rw [← hw, hwrite]
    rw [ledger.enter_some entry hold hwrite]
    simp
  constructor
  · intro id record hr hs
    rw [hfind] at hr
    split at hr
    · obtain rfl := Option.some.inj hr
      exact (hnew hs).1
    · exact h.sides id record hr hs
  · intro id record hr hs
    rw [hfind] at hr
    split at hr
    · obtain rfl := Option.some.inj hr
      exact (hnew hs).2.1
    · exact h.filled id record hr hs
  · intro id record hr hs hlive
    rw [hfind] at hr
    split at hr
    · obtain rfl := Option.some.inj hr
      exact (hnew hs).2.2 hlive
    · exact h.quantity id record hr hs hlive
  · rw [hset]
    exact hbound

private theorem Covered.update (h : ledger.Covered symbol side reserve bound) {entry : Entry}
    {old new : OrderRecord} (hold : ledger.orders.find? entry.key = some old)
    (hw : (entry.write (some old)).1 = some new) (hsymbol : new.symbol = old.symbol)
    (hnew : old.symbol = symbol → new.side = old.side ∧
      (∃ d, parseDecimal new.filledText = .ok d) ∧
      (¬ isTerminal new.state → ∃ d, parseDecimal new.quantity = .ok d) ∧
      new.reserving reserve ≤ old.reserving reserve) :
    (ledger.enter entry).Covered symbol side reserve bound := by
  have hkey : old.clientOrderId = entry.key := KeyedList.key_of_find? hold
  have hnewkey : new.clientOrderId = entry.key :=
    Entry.key_write (fun _ he => Option.some.inj he ▸ hkey) hw
  apply h.write hold hw
  · intro hs
    obtain ⟨hside, hfilled, hquantity, -⟩ := hnew (hsymbol ▸ hs)
    rw [hside]
    exact ⟨h.sides _ old hold (hsymbol ▸ hs), hfilled, hquantity⟩
  · have hweight : new.weight symbol reserve ≤ old.weight symbol reserve := by
      unfold OrderRecord.weight
      rw [hsymbol]
      split
      · rename_i hs
        exact (hnew hs).2.2.2
      · exact le_refl _
    have hsum := ledger.orders.sum_set_old (OrderRecord.weight symbol reserve)
      (show ledger.orders.find? new.clientOrderId = some old by rw [hnewkey]; exact hold)
    have hbound := h.bound
    linarith

private theorem Covered.insert {bound' : ℚ} (h : ledger.Covered symbol side reserve bound)
    (entry : Entry) {new : OrderRecord} (hold : ledger.orders.find? entry.key = none)
    (hw : (entry.write none).1 = some new)
    (hnew : new.symbol = symbol → new.side = side ∧
      (∃ d, parseDecimal new.filledText = .ok d) ∧
      (¬ isTerminal new.state → ∃ d, parseDecimal new.quantity = .ok d))
    (hbound : ledger.orders.sum (OrderRecord.weight symbol reserve) +
      new.weight symbol reserve ≤ bound') :
    (ledger.enter entry).Covered symbol side reserve bound' := by
  have hnewkey : new.clientOrderId = entry.key := Entry.key_write (fun _ he => by cases he) hw
  apply h.write hold hw hnew
  rw [KeyedList.sum_set_new _ _ (by rw [hnewkey]; exact hold)]
  exact hbound

private theorem Covered.skip (h : ledger.Covered symbol side reserve bound) {entry : Entry}
    (hw : (entry.write (ledger.orders.find? entry.key)).1 = none) :
    (ledger.enter entry).Covered symbol side reserve bound := by
  have horders : (ledger.enter entry).orders = ledger.orders := by
    simp only [enter, hw]
    rfl
  constructor
  · rw [horders]
    exact h.sides
  · rw [horders]
    exact h.filled
  · rw [horders]
    exact h.quantity
  · rw [horders]
    exact h.bound

theorem Covered.enter_new (h : ledger.Covered symbol side reserve bound) {entry : Entry}
    (hold : ledger.orders.find? entry.key = none)
    (hadmits : ledger.Admits symbol side reserve entry) :
    (ledger.enter entry).Covered symbol side reserve bound := by
  cases entry with
  | riskRejected record =>
    obtain ⟨-, hside, hstate, hfilled⟩ := hadmits
    have hterminal : isTerminal record.state := by
      rw [hstate]
      rfl
    have htext : record.filledText = "0" := by
      rw [OrderRecord.filledText, hfilled]
      rfl
    have hweight : record.weight symbol reserve = 0 := by
      unfold OrderRecord.weight OrderRecord.reserving
      rw [if_pos hterminal, OrderRecord.filledValue, htext, decimalValue_of_parse parse_zero,
        Decimal.value_zero, ite_self]
    refine h.insert _ hold rfl (fun hs => ⟨hside hs, ⟨{}, ?_⟩, fun hlive => ?_⟩) ?_
    · rw [htext]
      exact parse_zero
    · exact absurd hterminal hlive
    · rw [hweight, add_zero]
      exact h.bound
  | staged record persisted =>
    obtain rfl : persisted = false := hadmits
    exact h.skip (by rw [hold]; rfl)
  | listed venue snapshot =>
    have hforeign : snapshot.instrumentId ≠ symbol := by
      have horderly : (Entry.listed venue snapshot).orderly symbol none := hold ▸ hadmits
      simpa [Entry.orderly, Entry.conforming, Entry.timely] using horderly
    refine h.insert _ hold rfl (fun hs => absurd hs hforeign) ?_
    have hweight : (Oms.snapshotRecord snapshot venue true).weight symbol reserve = 0 :=
      if_neg hforeign
    rw [hweight, add_zero]
    exact h.bound
  | _ => exact h.skip (by rw [hold]; rfl)

theorem Covered.enter_old (h : ledger.Covered symbol side reserve bound) {entry : Entry}
    {old : OrderRecord} (hold : ledger.orders.find? entry.key = some old)
    (hadmits : ledger.Admits symbol side reserve entry) :
    (ledger.enter entry).Covered symbol side reserve bound := by
  cases hw : (entry.write (some old)).1 with
  | none => exact h.skip (by rw [hold]; exact hw)
  | some new =>
    have hkept (hinserted : entry.inserted = none) (hquantity : entry.newQuantity = none)
        (horderly : entry.orderly symbol (ledger.orders.find? entry.key)) :
        (ledger.enter entry).Covered symbol side reserve bound := by
      refine h.update hold hw (Entry.symbol_write hinserted hw) fun hs => ?_
      have hkeeps := Entry.keeps_write hinserted hquantity (hold ▸ horderly) hs hw
      refine ⟨hkeeps.side, hkeeps.parses (h.filled _ old hold hs), fun hlive => ?_,
        hkeeps.reserving_le reserve⟩
      rw [hkeeps.quantity]
      exact h.quantity _ old hold hs fun ht => hlive (hkeeps.terminal ht)
    cases entry with
    | riskRejected record => exact absurd (hadmits.1.symm.trans hold) nofun
    | staged record persisted =>
      obtain rfl : persisted = false := hadmits
      cases hw
    | amended id price quantity exchangeOrderId =>
      have hkey : old.clientOrderId = id := KeyedList.key_of_find? hold
      have hsymbol := Entry.symbol_write rfl hw
      obtain rfl := Option.some.inj hw
      refine h.update hold rfl hsymbol fun hs => ?_
      obtain ⟨hparse, hle⟩ := hadmits old hold hs
      obtain ⟨_, _, hamend⟩ := OrderRecord.appendAmendLeg_spec
        { old with price := price, quantity := quantity } exchangeOrderId
      have hnew : old.amend price quantity exchangeOrderId = _ := hamend
      refine ⟨?_, ?_, fun _ => ?_, OrderRecord.reserving_amend_le (hkey ▸ hle) _ _⟩
      · rw [hnew]
      · rw [hnew]
        exact h.filled _ old hold hs
      · rw [hnew]
        exact hparse
    | _ => exact hkept rfl rfl hadmits

def AdmitsAll (symbol : String) (side : Side) (reserve : String → ℚ) :
    Ledger → List Entry → Prop
  | _, [] => True
  | ledger, entry :: entries => ledger.Admits symbol side reserve entry ∧
      AdmitsAll symbol side reserve (ledger.enter entry) entries

theorem Covered.enterAll (h : ledger.Covered symbol side reserve bound) {entries : List Entry}
    (hadmits : ledger.AdmitsAll symbol side reserve entries) :
    (ledger.enterAll entries).Covered symbol side reserve bound := by
  induction entries generalizing ledger with
  | nil => exact h
  | cons entry entries ih =>
    obtain ⟨hhead, htail⟩ := hadmits
    cases hold : ledger.orders.find? entry.key with
    | none => exact ih (h.enter_new hold hhead) htail
    | some old => exact ih (h.enter_old hold hhead) htail

/-- Apart from those of a place or an acked amend, an entry is admitted when it is orderly. -/
theorem admitsAll_of_orderly {entries : List Entry}
    (hplain : ∀ entry ∈ entries, entry.inserted = none ∧ entry.newQuantity = none)
    (h : ledger.allEntries (Entry.orderly symbol) entries) :
    ledger.AdmitsAll symbol side reserve entries := by
  induction entries generalizing ledger with
  | nil => trivial
  | cons entry entries ih =>
    obtain ⟨hhead, htail⟩ := Bool.and_eq_true_iff.mp h
    refine ⟨?_, ih (fun e hm => hplain e (List.mem_cons_of_mem entry hm)) htail⟩
    obtain ⟨hinserted, hquantity⟩ := hplain entry List.mem_cons_self
    cases entry with
    | riskRejected _ | staged _ _ => cases hinserted
    | amended _ _ _ _ => cases hquantity
    | _ => exact hhead

theorem allEntries_and {entries : List Entry}
    (hconforming : ledger.allEntries (Entry.conforming symbol) entries)
    (htimely : ledger.allEntries (Entry.timely symbol) entries) :
    ledger.allEntries (Entry.orderly symbol) entries := by
  induction entries generalizing ledger with
  | nil => rfl
  | cons entry entries ih =>
    obtain ⟨hhead, htail⟩ := Bool.and_eq_true_iff.mp hconforming
    obtain ⟨hhead', htail'⟩ := Bool.and_eq_true_iff.mp htimely
    exact Bool.and_eq_true_iff.mpr
      ⟨Bool.and_eq_true_iff.mpr ⟨hhead, hhead'⟩, ih htail htail'⟩

/-- A registered order no acked amend is about keeps its quantity. -/
theorem quantity_enterAll {entries : List Entry} {id : String} {record : OrderRecord}
    (hrecord : ledger.orders.find? id = some record)
    (hplain : ∀ entry ∈ entries, entry.key = id →
      entry.inserted = none ∧ entry.newQuantity = none)
    (h : ledger.allEntries (Entry.orderly symbol) entries) :
    ∃ record', (ledger.enterAll entries).orders.find? id = some record' ∧
      record'.symbol = record.symbol ∧
      (record.symbol = symbol → record'.quantity = record.quantity) := by
  induction entries generalizing ledger record with
  | nil => exact ⟨record, hrecord, rfl, fun _ => rfl⟩
  | cons entry entries ih =>
    obtain ⟨hhead, htail⟩ := Bool.and_eq_true_iff.mp h
    have hrest := fun e hm => hplain e (List.mem_cons_of_mem entry hm)
    have hkept (hsame : (ledger.enter entry).orders.find? id = some record) :=
      ih hsame hrest htail
    by_cases hk : entry.key = id
    · obtain ⟨hinserted, hquantity⟩ := hplain entry List.mem_cons_self hk
      subst hk
      cases hw : (entry.write (some record)).1 with
      | none =>
        apply hkept
        rw [find?_enter, if_pos rfl, hrecord, hw, Option.none_or]
      | some new =>
        have hfind := ledger.find?_enter_of_write entry hrecord hw
        have hsymbol := Entry.symbol_write hinserted hw
        obtain ⟨record', hr', hs', hq'⟩ := ih hfind hrest htail
        refine ⟨record', hr', hs'.trans hsymbol, fun hs => ?_⟩
        rw [hq' (hsymbol.trans hs)]
        exact (Entry.keeps_write hinserted hquantity (hrecord ▸ hhead) hs hw).quantity
    · exact hkept ((find?_enter_of_ne ledger hk).trans hrecord)

end Ledger

/-! ### The exact position of a one-sided symbol -/

theorem decimalValue_nonneg (text : String) : 0 ≤ decimalValue text := by
  unfold decimalValue
  split
  · rename_i d hd
    exact parseDecimal_value_nonneg hd
  · exact le_refl _

namespace OrderRecord

def projected (replace : Option OrderRecord) (record : OrderRecord) : ℚ :=
  record.filledValue +
    if record.working replace then max 0 (record.quantityValue - record.filledValue) else 0

theorem add_outstanding (filled quantity : ℚ) :
    filled + max 0 (quantity - filled) = max filled quantity := by
  rw [← max_add_add_left, add_zero, add_sub_cancel]

theorem projected_none (record : OrderRecord) : record.projected none = record.exposure := by
  unfold projected exposure working
  by_cases ht : isTerminal record.state
  · simp [ht]
  · simp [ht, add_outstanding]

theorem projected_of_ne {replace record : OrderRecord}
    (h : record.clientOrderId ≠ replace.clientOrderId) :
    record.projected (some replace) = record.exposure := by
  rw [← projected_none]
  have hne : ¬ replace.clientOrderId = record.clientOrderId := Ne.symm h
  simp [projected, working, hne]

theorem projected_self (record : OrderRecord) :
    record.projected (some record) = record.filledValue := by
  simp [projected, working]

theorem reserving_zero (record : OrderRecord) :
    record.reserving (fun _ => 0) = record.exposure := by
  have hquantity : 0 ≤ record.quantityValue := decimalValue_nonneg _
  unfold reserving exposure
  split
  · rfl
  · exact max_eq_left (hquantity.trans (le_max_right _ _))

end OrderRecord

/-- With all orders of the symbol on one side, the sign comes out. -/
theorem Oms.exactPosition_of_side {oms : Oms} {symbol : String} {side : Side}
    (hsides : ∀ record ∈ oms.orders.toList, record.symbol = symbol → record.side = side)
    (replace : Option OrderRecord) (quantity : String) :
    oms.exactPosition symbol replace side quantity =
      side.sign * (oms.orders.sum (fun record =>
          if record.symbol = symbol then record.projected replace else 0) +
        max 0 (decimalValue quantity - (replace.map OrderRecord.filledValue).getD 0)) := by
  have hsum : oms.orders.sum (fun record =>
        if record.symbol = symbol then record.side.sign * record.filledValue else 0) +
      oms.orders.sum (fun record =>
        if record.symbol = symbol ∧ record.working replace then
          record.side.sign * max 0 (record.quantityValue - record.filledValue) else 0) =
      side.sign * oms.orders.sum (fun record =>
        if record.symbol = symbol then record.projected replace else 0) := by
    unfold KeyedList.sum
    generalize oms.orders.toList = records at hsides
    induction records with
    | nil => simp
    | cons record records ih =>
      have hrest := ih fun r hm => hsides r (List.mem_cons_of_mem record hm)
      have hhead : (if record.symbol = symbol then record.side.sign * record.filledValue else 0) +
          (if record.symbol = symbol ∧ record.working replace then
            record.side.sign * max 0 (record.quantityValue - record.filledValue) else 0) =
          side.sign * if record.symbol = symbol then record.projected replace else 0 := by
        by_cases hs : record.symbol = symbol
        · rw [hsides record List.mem_cons_self hs]
          by_cases hw : record.working replace <;>
            simp [hs, hw, OrderRecord.projected, mul_add]
        · simp [hs]
      simp only [List.map_cons, List.sum_cons]
      rw [mul_add, ← hrest, ← hhead]
      exact add_add_add_comm _ _ _ _
  rw [Oms.exactPosition, hsum, mul_add]

theorem Side.le_abs_sign_mul (side : Side) (x : ℚ) : x ≤ |side.sign * x| := by
  cases side with
  | buy =>
    rw [Side.sign, one_mul]
    exact le_abs_self x
  | sell =>
    rw [Side.sign, neg_one_mul, abs_neg]
    exact le_abs_self x

namespace Ledger.Covered

variable {oms : Oms} {symbol : String} {side : Side} {reserve : String → ℚ} {bound : ℚ}

theorem sides_toList (h : oms.ledger.Covered symbol side reserve bound) :
    ∀ record ∈ oms.orders.toList, record.symbol = symbol → record.side = side := by
  intro record hm hs
  exact h.sides _ record (KeyedList.find?_of_mem_toList hm) hs

theorem projects (h : oms.ledger.Covered symbol side reserve bound)
    (replace : Option OrderRecord) :
    ∀ record ∈ oms.orders.toList, record.symbol = symbol → record.Projects replace := by
  intro record hm hs
  have hfind := KeyedList.find?_of_mem_toList hm
  refine ⟨h.filled _ record hfind hs, fun hw => h.quantity _ record hfind hs ?_⟩
  have hlive := (Bool.and_eq_true_iff.mp hw).1
  simpa using hlive

/-- A checked place fits beside the exposures of the symbol. -/
theorem place_le (h : oms.ledger.Covered symbol side reserve bound)
    {limits : InstrumentRiskLimits} (hlimits : oms.risk.limitsFor symbol = some limits)
    (hmax : limits.maxPosition ≠ "") {price quantity : String}
    (hfits : oms.projectionFits symbol none side quantity)
    (hrisk : oms.riskCheck symbol none side price quantity = .passed) :
    oms.orders.sum (OrderRecord.weight symbol fun _ => 0) + decimalValue quantity ≤
      decimalValue limits.maxPosition := by
  have hposition :=
    Oms.riskCheck_position hlimits hmax (h.projects none) (fun _ he => by cases he) hfits hrisk
  rw [Oms.exactPosition_of_side h.sides_toList] at hposition
  have hle := (Side.le_abs_sign_mul side _).trans hposition
  have hsum : oms.orders.sum (fun record =>
      if record.symbol = symbol then record.projected none else 0) =
      oms.orders.sum (OrderRecord.weight symbol fun _ => 0) := by
    apply KeyedList.sum_congr
    intro record _
    rw [OrderRecord.weight, OrderRecord.reserving_zero, OrderRecord.projected_none]
  rw [hsum, Option.map_none, Option.getD_none, sub_zero,
    max_eq_right (decimalValue_nonneg quantity)] at hle
  exact hle

/-- A checked amend that raises its order fits beside the exposures of the others. -/
theorem amend_le (h : oms.ledger.Covered symbol side reserve bound)
    {limits : InstrumentRiskLimits} (hlimits : oms.risk.limitsFor symbol = some limits)
    (hmax : limits.maxPosition ≠ "") {record : OrderRecord}
    (hrecord : oms.lookup record.clientOrderId = some record) (hs : record.symbol = symbol)
    (hlive : ¬ isTerminal record.state) {price quantity : String}
    (hraises : record.quantityValue ≤ decimalValue quantity)
    (hfits : oms.projectionFits symbol (some record) side quantity)
    (hrisk : oms.riskCheck symbol (some record) side price quantity = .passed) :
    oms.orders.sum (OrderRecord.weight symbol fun id =>
      if id = record.clientOrderId then decimalValue quantity else 0) ≤
      decimalValue limits.maxPosition := by
  have hfilled : ∀ record', some record = some record' →
      ∃ d, parseDecimal record'.filledText = .ok d := by
    intro record' he
    obtain rfl := Option.some.inj he
    exact h.filled _ record hrecord hs
  have hposition :=
    Oms.riskCheck_position hlimits hmax (h.projects (some record)) hfilled hfits hrisk
  rw [Oms.exactPosition_of_side h.sides_toList] at hposition
  have hle := (Side.le_abs_sign_mul side _).trans hposition
  -- the two sums differ at the amended order only
  have hupdate := oms.orders.sum_update
    (f := OrderRecord.weight symbol fun id =>
      if id = record.clientOrderId then decimalValue quantity else 0)
    (g := fun record' =>
      if record'.symbol = symbol then record'.projected (some record) else 0) hrecord ?_
  · have hweight : (OrderRecord.weight symbol (fun id =>
        if id = record.clientOrderId then decimalValue quantity else 0) record) =
        max record.filledValue (decimalValue quantity) := by
      rw [OrderRecord.weight, if_pos hs, OrderRecord.reserving, if_neg hlive, if_pos rfl,
        max_assoc, max_eq_right hraises]
    rw [hweight, if_pos hs, OrderRecord.projected_self, ← OrderRecord.add_outstanding] at hupdate
    rw [Option.map_some, Option.getD_some] at hle
    linarith
  · intro record' _ hne
    have hreserve : record'.reserving (fun id =>
        if id = record.clientOrderId then decimalValue quantity else 0) =
        record'.reserving fun _ => 0 := by
      unfold OrderRecord.reserving
      dsimp only
      rw [if_neg hne]
    rw [OrderRecord.weight, hreserve, OrderRecord.reserving_zero,
      OrderRecord.projected_of_ne hne]

end Ledger.Covered

/-! ### The run -/

namespace System

variable {s t : System} {a : Action} {symbol : String} {side : Side} {bound : ℚ}

/-- The exposures of the symbol and the amends in flight that raise one are within the bound. -/
structure Bounded (symbol : String) (side : Side) (bound : ℚ) (s : System) : Prop where
  staged : s.Staged
  amends : ∀ command wire connector validated,
    .amend command wire connector validated ∈ s.calls →
      ∃ record, s.oms.lookup command.clientOrderId = some record ∧
        record.symbol = validated.symbol ∧
        (record.symbol = symbol → record.quantity = validated.quantity ∧
          ∃ d, parseDecimal (wire.newQuantity.getD "") = .ok d)
  covered : ∃ reserve, s.oms.ledger.Covered symbol side reserve bound ∧
    ∀ command wire connector validated,
      .amend command wire connector validated ∈ s.calls → validated.symbol = symbol →
        wire.raises validated →
          decimalValue (wire.newQuantity.getD "") ≤ reserve command.clientOrderId

/-- An order with an open amend keeps its quantity while the amend is open. -/
private theorem Bounded.amends_step (h : s.Bounded symbol side bound) (hs : s.step a = some t)
    (ha : a.live) (horderly : s.oms.ledger.allEntries (Entry.orderly symbol) (s.entries a))
    {command : AmendCommand} {wire : AmendRequest} {connector : String}
    {validated : OrderRecord} (hold : .amend command wire connector validated ∈ s.calls)
    (hnew : .amend command wire connector validated ∈ t.calls) :
    ∃ record, t.oms.lookup command.clientOrderId = some record ∧
      record.symbol = validated.symbol ∧
      (record.symbol = symbol → record.quantity = validated.quantity ∧
        ∃ d, parseDecimal (wire.newQuantity.getD "") = .ok d) := by
  obtain ⟨record, hrecord, hsymbol, hquantity⟩ := h.amends _ _ _ _ hold
  rcases ledger_step_cases hs ha with ⟨orders, rfl, hp, rfl⟩ | hledger
  · exact ⟨record, (KeyedList.find?_of_perm hp _).trans hrecord, hsymbol, hquantity⟩
  · have hplain : ∀ entry ∈ s.entries a, entry.key = command.clientOrderId →
        entry.inserted = none ∧ entry.newQuantity = none := by
      intro entry hm hk
      have henters := s.enters_of_mem hm
      obtain ⟨i, ack, wire', connector', rfl, hi, he⟩ |
        ⟨i, answer, item, items, report, rfl, hi, hid⟩ :=
        henters.of_owned h.staged.owned hs hold hnew (congrArg some hk.symm)
      · rw [he]
        exact ⟨rfl, rfl⟩
      · cases henters with
        | resolved _ _ => exact ⟨rfl, rfl⟩
        | absent _ _ => exact ⟨rfl, rfl⟩
    have hfind : s.oms.ledger.orders.find? command.clientOrderId = some record := hrecord
    obtain ⟨record', hr', hs', hq'⟩ := Ledger.quantity_enterAll hfind hplain horderly
    refine ⟨record', ?_, hs'.trans hsymbol, fun hsym => ?_⟩
    · rw [Oms.lookup_of_ledger hledger]
      exact hr'
    · have hsym' : record.symbol = symbol := hs' ▸ hsym
      rw [hq' hsym']
      exact hquantity hsym'

/-- The amends open after a step were open before it, or the step opened this one. -/
private theorem mem_amends_step (hs : s.step a = some t) (hamend : ∀ command, a ≠ .amend command)
    {command : AmendCommand} {wire : AmendRequest} {connector : String}
    {validated : OrderRecord} (hm : .amend command wire connector validated ∈ t.calls) :
    .amend command wire connector validated ∈ s.calls := by
  rcases mem_calls_step hs hm with hold | hnew
  · exact hold
  · cases hnew with
    | amend _ _ _ _ _ _ => exact absurd rfl (hamend _)

/-- A step that neither stages an order nor opens an amend stays under its reservations. -/
private theorem Bounded.of_admitted (h : s.Bounded symbol side bound) (hs : s.step a = some t)
    (ha : a.live) (hamend : ∀ command, a ≠ .amend command)
    (horderly : s.oms.ledger.allEntries (Entry.orderly symbol) (s.entries a))
    (hadmits : ∀ reserve,
      (∀ command wire connector validated,
        .amend command wire connector validated ∈ s.calls → validated.symbol = symbol →
          wire.raises validated →
            decimalValue (wire.newQuantity.getD "") ≤ reserve command.clientOrderId) →
      s.oms.ledger.AdmitsAll symbol side reserve (s.entries a)) :
    t.Bounded symbol side bound := by
  refine ⟨h.staged.step hs, fun command wire connector validated hm => ?_, ?_⟩
  · exact h.amends_step hs ha horderly (mem_amends_step hs hamend hm) hm
  · obtain ⟨reserve, hcovered, hreserve⟩ := h.covered
    refine ⟨reserve, ?_, fun command wire connector validated hm =>
      hreserve _ _ _ _ (mem_amends_step hs hamend hm)⟩
    rcases ledger_step_cases hs ha with ⟨orders, rfl, hp, rfl⟩ | hledger
    · have hfind (id : String) : orders.find? id = s.oms.orders.find? id :=
        KeyedList.find?_of_perm hp id
      refine ⟨fun id record hr => hcovered.sides id record ((hfind id).symm.trans hr),
        fun id record hr => hcovered.filled id record ((hfind id).symm.trans hr),
        fun id record hr => hcovered.quantity id record ((hfind id).symm.trans hr), ?_⟩
      exact (KeyedList.sum_congr_of_perm hp _).trans_le hcovered.bound
    · rw [hledger]
      exact hcovered.enterAll (hadmits reserve hreserve)

private theorem Bounded.amended (h : s.Bounded symbol side bound) {i : ℕ}
    {placement : Result OrderPlacement} (hs : s.step (.amended i placement) = some t)
    (horderly : s.oms.ledger.allEntries (Entry.orderly symbol)
      (s.entries (.amended i placement))) : t.Bounded symbol side bound := by
  refine h.of_admitted hs rfl nofun horderly fun reserve hreserve => ?_
  obtain ⟨command, wire, connector, validated, hc, -⟩ := amended_cases hs
  have hcall := List.mem_of_getElem? hc
  have hreports (reports : List ExecutionReport) :
      ∀ entry ∈ Oms.reportEntries command.clientOrderId reports,
        entry.inserted = none ∧ entry.newQuantity = none := by
    intro entry hm
    obtain ⟨report, -, rfl⟩ := List.mem_map.mp hm
    exact ⟨rfl, rfl⟩
  simp only [entries, hc] at horderly ⊢
  cases placement with
  | error error =>
    apply Ledger.admitsAll_of_orderly _ horderly
    intro entry hm
    rcases List.mem_append.mp hm with hm | hm
    · unfold Oms.discoveredEntries at hm
      split at hm
      · cases hm
      · split at hm
        · rw [List.mem_singleton.mp hm]
          exact ⟨rfl, rfl⟩
        · cases hm
    · exact hreports _ entry hm
  | ok ack =>
    obtain ⟨-, htail⟩ := Bool.and_eq_true_iff.mp horderly
    refine ⟨fun record hr hsym => ?_, Ledger.admitsAll_of_orderly (fun entry hm => ?_) htail⟩
    · -- the order still has the quantity the amend was validated against
      obtain ⟨record', hr', hsymbol, hquantity⟩ := h.amends _ _ _ _ hcall
      obtain rfl := Option.some.inj (hr'.symm.trans hr)
      obtain ⟨hq, hparse⟩ := hquantity hsym
      refine ⟨hparse, ?_⟩
      by_cases hraises : wire.raises validated
      · exact .inr (hreserve _ _ _ _ hcall (hsymbol ▸ hsym) hraises)
      · left
        have hle : decimalValue (wire.newQuantity.getD "") ≤ validated.quantityValue := by
          simpa [AmendRequest.raises] using hraises
        rw [OrderRecord.quantityValue, hq]
        exact hle
    · split at hm
      · exact hreports _ entry hm
      · cases hm

/-- The risk check has parsed the quantity it let through. -/
private theorem parse_of_passed {oms : Oms} {replace : Option OrderRecord} {price quantity : String}
    {limits : InstrumentRiskLimits} (hlimits : oms.risk.limitsFor symbol = some limits)
    (hmax : limits.maxPosition ≠ "")
    (h : oms.riskCheck symbol replace side price quantity = .passed) :
    ∃ d, parseDecimal quantity = .ok d := by
  unfold Oms.riskCheck at h
  simp only [hlimits] at h
  split at h
  · cases h
  · split at h
    · cases h
    · rename_i hpassed
      exact (checkRisk_position hpassed hmax).1

private theorem conforming_place {request : OrderRequest} {venue : String}
    (h : s.conforming symbol side (.place request venue)) (hs : request.instrumentId = symbol) :
    request.side = side ∧ ∀ connector record,
      (s.oms.placeStage request venue).2 = .opened connector record →
        s.oms.projectionFits symbol none side request.quantity := by
  obtain ⟨-, hguard⟩ := Bool.and_eq_true_iff.mp h
  simp only [hs, ne_eq, not_true_eq_false, decide_false, Bool.false_or, Bool.and_eq_true,
    decide_eq_true_eq] at hguard
  obtain ⟨hside, hopened⟩ := hguard
  refine ⟨hside, fun connector record hstage => ?_⟩
  rw [hstage, hside] at hopened
  exact hopened

private theorem serial_place {request : OrderRequest} {venue connector : String}
    {record : OrderRecord} (h : s.serial symbol (.place request venue))
    (hstage : (s.oms.placeStage request venue).2 = .opened connector record)
    (hs : request.instrumentId = symbol) : s.raising symbol = false := by
  obtain ⟨-, hguard⟩ := Bool.and_eq_true_iff.mp h
  simpa [hstage, hs] using hguard

private theorem conforming_amend {command : AmendCommand} {connector : String}
    {wire : AmendRequest} {record : OrderRecord} (h : s.conforming symbol side (.amend command))
    (hstage : (s.oms.amendStage command).2 = .opened connector wire record)
    (hs : record.symbol = symbol) :
    s.oms.projectionFits symbol (some record) record.side
      (command.newQuantity.getD record.quantity) := by
  obtain ⟨-, hguard⟩ := Bool.and_eq_true_iff.mp h
  simpa [hstage, hs] using hguard

private theorem serial_amend {command : AmendCommand} {connector : String}
    {wire : AmendRequest} {record : OrderRecord} (h : s.serial symbol (.amend command))
    (hstage : (s.oms.amendStage command).2 = .opened connector wire record)
    (hs : record.symbol = symbol) (hraises : wire.raises record) : s.raising symbol = false := by
  obtain ⟨-, hguard⟩ := Bool.and_eq_true_iff.mp h
  simpa [hstage, hs, hraises] using hguard

private theorem orderly_entries (hconforming : s.conforming symbol side a)
    (hserial : s.serial symbol a) :
    s.oms.ledger.allEntries (Entry.orderly symbol) (s.entries a) :=
  Ledger.allEntries_and (Bool.and_eq_true_iff.mp hconforming).1
    (Bool.and_eq_true_iff.mp hserial).1

/-- No raising amend in flight, no reservation to keep. -/
private theorem not_raises_of_not_raising (h : s.raising symbol = false)
    {command : AmendCommand} {wire : AmendRequest} {connector : String}
    {validated : OrderRecord} (hm : .amend command wire connector validated ∈ s.calls)
    (hs : validated.symbol = symbol) : ¬ wire.raises validated := by
  intro hraises
  have hany : s.raising symbol = true :=
    List.any_eq_true.mpr ⟨_, hm, by simp [hs, hraises]⟩
  rw [h] at hany
  cases hany

/-- The order a place stages brings its quantity. -/
private theorem weight_candidate {request : OrderRequest} (hs : request.instrumentId = symbol)
    (venue : String) : (Oms.candidate request venue).weight symbol (fun _ => 0) =
      decimalValue request.quantity := by
  have hfilled : (Oms.candidate request venue).filledValue = 0 := by
    have hvalue := decimalValue_of_parse Ledger.parse_zero
    exact hvalue.trans Decimal.value_zero
  have hsymbol : (Oms.candidate request venue).symbol = symbol := hs
  have hlive : ¬ isTerminal (Oms.candidate request venue).state := nofun
  rw [OrderRecord.weight, if_pos hsymbol, OrderRecord.reserving_zero, OrderRecord.exposure,
    if_neg hlive, hfilled]
  exact max_eq_right (decimalValue_nonneg _)

private theorem Bounded.place {limits : InstrumentRiskLimits}
    (h : s.Bounded symbol side (decimalValue limits.maxPosition))
    (hlimits : s.oms.risk.limitsFor symbol = some limits) (hmax : limits.maxPosition ≠ "")
    {request : OrderRequest} {venue : String}
    (hconforming : s.conforming symbol side (.place request venue))
    (hserial : s.serial symbol (.place request venue)) :
    (s.place request venue).Bounded symbol side (decimalValue limits.maxPosition) := by
  have hs : s.step (.place request venue) = some (s.place request venue) := rfl
  have hentries := orderly_entries hconforming hserial
  cases s.oms.placeStage_cases request venue with
  | unchanged _ he _ =>
    refine h.of_admitted hs rfl (fun _ h => by cases h) hentries fun reserve _ => ?_
    simp only [entries, he]
    trivial
  | riskRejected venue' rejection _ hnew he _ _ =>
    refine h.of_admitted hs rfl (fun _ h => by cases h) hentries fun reserve _ => ?_
    simp only [entries, he]
    exact ⟨⟨hnew, fun hsym => (conforming_place hconforming hsym).1, rfl, rfl⟩, trivial⟩
  | unpersisted _ _ _ _ he _ _ =>
    refine h.of_admitted hs rfl (fun _ h => by cases h) hentries fun reserve _ => ?_
    simp only [entries, he]
    exact ⟨rfl, trivial⟩
  | opened venue' connector hnew _ hrisk he hstage _ _ =>
    have hold {command : AmendCommand} {wire : AmendRequest} {connector : String}
        {validated : OrderRecord}
        (hm : .amend command wire connector validated ∈ (s.place request venue).calls) :=
      mem_amends_step hs (fun _ h => by cases h) hm
    have hl := step_ledger hs rfl fun _ h => by cases h
    simp only [entries, he] at hl
    obtain ⟨reserve, hcovered, hreserve⟩ := h.covered
    refine ⟨h.staged.step hs, fun command wire connector validated hm =>
      h.amends_step hs rfl hentries (hold hm) hm, ?_⟩
    by_cases hsym : request.instrumentId = symbol
    · -- nothing raising is in flight: the check has seen every exposure
      obtain ⟨hside, hopened⟩ := conforming_place hconforming hsym
      have hfits := hopened _ _ hstage
      have hraising := serial_place hserial hstage hsym
      rw [hsym, hside] at hrisk
      have hle := hcovered.place_le hlimits hmax hfits hrisk
      have hquantity := decimalValue_nonneg request.quantity
      have hzero : s.oms.ledger.Covered symbol side (fun _ => 0)
          (decimalValue limits.maxPosition) :=
        ⟨hcovered.sides, hcovered.filled, hcovered.quantity,
          show s.oms.orders.sum _ ≤ _ by linarith⟩
      refine ⟨fun _ => 0, ?_, fun command wire connector validated hm hsym' hraises =>
        absurd hraises (not_raises_of_not_raising hraising (hold hm) hsym')⟩
      rw [hl]
      refine hzero.insert (.staged (Oms.candidate request venue') true) hnew rfl
        (fun _ => ⟨hside, ⟨{}, Ledger.parse_zero⟩, fun _ =>
          parse_of_passed hlimits hmax hrisk⟩) ?_
      rw [weight_candidate hsym]
      exact hle
    · refine ⟨reserve, ?_, fun command wire connector validated hm =>
        hreserve _ _ _ _ (hold hm)⟩
      rw [hl]
      refine hcovered.insert (.staged (Oms.candidate request venue') true) hnew rfl
        (fun hsym' => absurd hsym' hsym) ?_
      have hweight : (Oms.candidate request venue').weight symbol reserve = 0 := if_neg hsym
      rw [hweight, add_zero]
      exact hcovered.bound

private theorem Bounded.amend {limits : InstrumentRiskLimits}
    (h : s.Bounded symbol side (decimalValue limits.maxPosition))
    (hlimits : s.oms.risk.limitsFor symbol = some limits) (hmax : limits.maxPosition ≠ "")
    {command : AmendCommand} (hconforming : s.conforming symbol side (.amend command))
    (hserial : s.serial symbol (.amend command)) :
    (s.amend command).Bounded symbol side (decimalValue limits.maxPosition) := by
  have hs : s.step (.amend command) = some (s.amend command) := rfl
  cases s.oms.amendStage_cases command with
  | unchanged hafter hstage =>
    rw [amend_refused hstage, hafter]
    exact h
  | opened connector record hrecord hstate hrisk _ hstage hafter =>
    have hkey : record.clientOrderId = command.clientOrderId := KeyedList.key_of_find? hrecord
    have hstaged := h.staged.step hs
    rw [amend_opened hstage, hafter] at hstaged ⊢
    have hcalls {command' : AmendCommand} {wire : AmendRequest} {connector' : String}
        {validated : OrderRecord}
        (hm : .amend command' wire connector' validated ∈
          s.calls ++ [.amend command (Oms.amendWire record command) connector record]) :
        .amend command' wire connector' validated ∈ s.calls ∨ command' = command ∧
          wire = Oms.amendWire record command ∧ validated = record := by
      rcases List.mem_append.mp hm with hm | hm
      · exact .inl hm
      · obtain ⟨rfl, rfl, -, rfl⟩ := Call.amend.inj (List.mem_singleton.mp hm)
        exact .inr ⟨rfl, rfl, rfl⟩
    obtain ⟨reserve, hcovered, hreserve⟩ := h.covered
    refine ⟨hstaged, fun command' wire connector' validated hm => ?_, ?_⟩
    · rcases hcalls hm with hm | ⟨rfl, rfl, rfl⟩
      · exact h.amends _ _ _ _ hm
      · refine ⟨validated, hrecord, rfl, fun hsym => ⟨rfl, ?_⟩⟩
        rw [hsym] at hrisk
        exact parse_of_passed hlimits hmax hrisk
    by_cases hraises : record.symbol = symbol ∧ (Oms.amendWire record command).raises record
    · -- the only raising amend in flight: its order is the one with room reserved
      obtain ⟨hsym, hraises⟩ := hraises
      have hfits := conforming_amend hconforming hstage hsym
      have hraising := serial_amend hserial hstage hsym hraises
      have hside := hcovered.sides _ record hrecord hsym
      have hlive : ¬ isTerminal record.state := by
        rcases hstate with hstate | hstate <;> simp [hstate, isTerminal]
      have hle : record.quantityValue ≤
          decimalValue (command.newQuantity.getD record.quantity) := by
        have hlt : record.quantityValue <
            decimalValue (command.newQuantity.getD record.quantity) :=
          of_decide_eq_true hraises
        exact hlt.le
      rw [hside] at hfits hrisk
      rw [hsym] at hrisk
      have hbound := hcovered.amend_le hlimits hmax (hkey ▸ hrecord) hsym hlive hle hfits hrisk
      refine ⟨_, ⟨hcovered.sides, hcovered.filled, hcovered.quantity, hbound⟩,
        fun command' wire connector' validated hm hsym' hraises' => ?_⟩
      rcases hcalls hm with hm | ⟨rfl, rfl, rfl⟩
      · exact absurd hraises' (not_raises_of_not_raising hraising hm hsym')
      · rw [if_pos hkey.symm]
        exact le_refl _
    · refine ⟨reserve, hcovered, fun command' wire connector' validated hm hsym' hraises' => ?_⟩
      rcases hcalls hm with hm | ⟨rfl, rfl, rfl⟩
      · exact hreserve _ _ _ _ hm hsym' hraises'
      · exact absurd ⟨hsym', hraises'⟩ hraises

private theorem Bounded.step {limits : InstrumentRiskLimits}
    (h : s.Bounded symbol side (decimalValue limits.maxPosition))
    (hlimits : s.oms.risk.limitsFor symbol = some limits) (hmax : limits.maxPosition ≠ "")
    (ha : a.live) (hconforming : s.conforming symbol side a) (hserial : s.serial symbol a)
    (hs : s.step a = some t) : t.Bounded symbol side (decimalValue limits.maxPosition) := by
  have hentries := orderly_entries hconforming hserial
  have hother (hplace : ∀ request venue, a ≠ .place request venue)
      (hamend : ∀ command, a ≠ .amend command)
      (hamended : ∀ i placement, a ≠ .amended i placement) :
      t.Bounded symbol side (decimalValue limits.maxPosition) := by
    refine h.of_admitted hs ha hamend hentries fun reserve _ =>
      Ledger.admitsAll_of_orderly (fun entry hm => ?_) hentries
    cases s.enters_of_mem hm with
    | riskRejected | staged => exact absurd rfl (hplace _ _)
    | amended => exact absurd rfl (hamended _ _)
    | _ => exact ⟨rfl, rfl⟩
  cases a with
  | place request venue =>
    obtain rfl := Option.some.inj hs
    exact h.place hlimits hmax hconforming hserial
  | amend command =>
    obtain rfl := Option.some.inj hs
    exact h.amend hlimits hmax hconforming hserial
  | amended i placement => exact h.amended hs hentries
  | _ => exact hother (fun _ _ => nofun) (fun _ => nofun) (fun _ _ => nofun)

abbrev ConformingRun (symbol : String) (side : Side) : System → System → Prop :=
  Transition.Reaches step fun s a => a.live ∧ s.conforming symbol side a

abbrev SerialRun (symbol : String) (side : Side) : System → System → Prop :=
  Transition.Reaches step fun s a => a.live ∧ s.conforming symbol side a ∧ s.serial symbol a

def exposure (s : System) (symbol : String) : ℚ :=
  s.oms.orders.sum fun record => if record.symbol = symbol then record.exposure else 0

private theorem boot_bounded (config : Config) {log : Option EventLog}
    (hempty : (boot config log).oms.orders.toList = []) (hbound : 0 ≤ bound) :
    (boot config log).Bounded symbol side bound := by
  have hfind (id : String) : (boot config log).oms.ledger.orders.find? id = none := by
    change (boot config log).oms.orders.toList.find? _ = none
    rw [hempty]
    rfl
  have hcalls {call : Call} (hm : call ∈ (boot config log).calls) : False := by
    cases hm
  refine ⟨boot_staged config log, fun _ _ _ _ hm => (hcalls hm).elim, fun _ => 0,
    ⟨?_, ?_, ?_, ?_⟩, fun _ _ _ _ hm => (hcalls hm).elim⟩
  · intro id record hr
    rw [hfind] at hr
    cases hr
  · intro id record hr
    rw [hfind] at hr
    cases hr
  · intro id record hr
    rw [hfind] at hr
    cases hr
  · change ((boot config log).oms.orders.toList.map _).sum ≤ bound
    rw [hempty]
    exact hbound

private theorem Bounded.exposure_le (h : s.Bounded symbol side bound) :
    s.exposure symbol ≤ bound := by
  obtain ⟨reserve, hcovered, -⟩ := h.covered
  refine le_trans ?_ hcovered.bound
  refine List.sum_le_sum fun record _ => ?_
  unfold OrderRecord.weight OrderRecord.exposure OrderRecord.reserving
  split
  · split
    · exact le_refl _
    · exact le_max_left _ _
  · exact le_refl _

/-- No serial run exceeds the limit. -/
theorem position_limit_concurrent (config : Config) (log : Option EventLog)
    (hempty : (boot config log).oms.orders.toList = []) {limits : InstrumentRiskLimits}
    (hlimits : config.risk.limitsFor symbol = some limits) (hmax : limits.maxPosition ≠ "")
    (h : SerialRun symbol side (boot config log) s) :
    s.exposure symbol ≤ decimalValue limits.maxPosition := by
  have hboot : (boot config log).Bounded symbol side (decimalValue limits.maxPosition) :=
    boot_bounded config hempty (decimalValue_nonneg _)
  have hrisk : (boot config log).oms.risk = config.risk := by
    unfold boot Oms.start Oms.loadFromLog
    split <;> rfl
  have hinv := Transition.Reaches.invariant
    (I := fun s => s.Bounded symbol side (decimalValue limits.maxPosition) ∧
      s.oms.risk.limitsFor symbol = some limits) ?_ h ⟨hboot, hrisk ▸ hlimits⟩
  · exact hinv.1.exposure_le
  · rintro s a t ⟨hbounded, hlimits⟩ ⟨ha, hconforming, hserial⟩ hs
    refine ⟨hbounded.step hlimits hmax ha hconforming hserial hs, ?_⟩
    have hrisk : t.oms.risk = s.oms.risk := congrArg Config.risk (config_step hs ha)
    rw [hrisk]
    exact hlimits

def twoOrders : List Action :=
  [.place ⟨"c1", "BTCUSDT", .buy, .limit, "100", "1", ""⟩ "", .send 0, .placed 0 (.ok ⟨"c1", "1"⟩),
    .place ⟨"c2", "BTCUSDT", .buy, .limit, "100", "1", ""⟩ "", .send 0, .placed 0 (.ok ⟨"c2", "2"⟩)]

/-- One is amended to 9 and filled. -/
theorem position_limit_concurrent_amended : ∃ s,
    SerialRun "BTCUSDT" .buy (boot .limited (some .fresh)) s ∧
      s.exposure "BTCUSDT" = 10 ∧ s.exposure "BTCUSDT" ≤ decimalValue "10" := by
  have hrun : (Transition.exec step
      (fun s a => a.live ∧ s.conforming "BTCUSDT" .buy a ∧ s.serial "BTCUSDT" a)
      (boot .limited (some .fresh)) (twoOrders ++ [.amend ⟨"c1", none, some "9"⟩,
        .amended 0 (.ok ⟨"c1", "3"⟩),
        .report ⟨"c1", "3", .filled, .buy, "9", "100"⟩])).map (exposure · "BTCUSDT") =
      some 10 := by decide +kernel
  obtain ⟨s, hs, hexposure⟩ := Option.map_eq_some_iff.mp hrun
  have hreach := Transition.reaches_of_exec hs
  have hlimits : Config.limited.risk.limitsFor "BTCUSDT" = some ⟨"", "", "10"⟩ := by
    decide +kernel
  have hle := position_limit_concurrent .limited (some .fresh) rfl hlimits (by decide) hreach
  exact ⟨s, hreach, hexposure, hle⟩

/-- Both are amended to 9; each amend was checked before the other was applied. -/
theorem position_limit_exceeded : ∃ s,
    ConformingRun "BTCUSDT" .buy (boot .limited (some .fresh)) s ∧
      Config.limited.risk.limitsFor "BTCUSDT" = some ⟨"", "", "10"⟩ ∧
      decimalValue "10" < s.exposure "BTCUSDT" := by
  have hrun : (Transition.exec step (fun s a => a.live ∧ s.conforming "BTCUSDT" .buy a)
      (boot .limited (some .fresh)) (twoOrders ++ [.amend ⟨"c1", none, some "9"⟩,
        .amend ⟨"c2", none, some "9"⟩, .amended 0 (.ok ⟨"c1", "3"⟩),
        .amended 0 (.ok ⟨"c2", "4"⟩)])).map (exposure · "BTCUSDT") = some 18 := by
    decide +kernel
  obtain ⟨s, hs, hexposure⟩ := Option.map_eq_some_iff.mp hrun
  refine ⟨s, Transition.reaches_of_exec hs, by decide +kernel, ?_⟩
  rw [hexposure]
  decide +kernel

end System

end ExchangeGateway
