import ExchangeGateway.Core.Decimal
import ExchangeGateway.Core.OrderState

/-! The registry entry of one client order and the operations on it that need no other state:
the leg table and the application of one observation. -/
namespace ExchangeGateway

structure OrderLeg where
  version : ℕ
  exchangeOrderId : String
  deriving DecidableEq, Repr

structure OrderRecord where
  clientOrderId : String
  symbol : String
  venue : String
  exchangeOrderId : String
  side : Side
  type : OrderType
  timeInForce : String
  price : String
  quantity : String
  state : OrderState
  /-- Monotonic high-water mark of reported fills. -/
  filledQuantity : String
  averageFillPrice : String
  /-- Every venue leg of this order, oldest first; the last one is current. -/
  legs : List OrderLeg
  adopted : Bool
  /-- The recorded rejection replayed to idempotent place retries. -/
  rejection : Option Error
  deriving DecidableEq, Repr

namespace OrderRecord

def blank (clientOrderId : String) : OrderRecord where
  clientOrderId := clientOrderId
  symbol := ""
  venue := ""
  exchangeOrderId := ""
  side := .buy
  type := .limit
  timeInForce := "GTC"
  price := ""
  quantity := ""
  state := .pending
  filledQuantity := "0"
  averageFillPrice := ""
  legs := []
  adopted := false
  rejection := none

/-- Append one leg whose version is the table's new length. -/
def pushLeg (record : OrderRecord) (id : String) : OrderRecord :=
  { record with legs := record.legs ++ [⟨record.legs.length + 1, id⟩] }

/-- Make `id` current and append its leg, unless it is empty or already current. -/
def noteExchangeId (record : OrderRecord) (id : String) : OrderRecord :=
  if id = "" || id = record.exchangeOrderId then record
  else pushLeg { record with exchangeOrderId := id } id

/-- The leg of an amend ack: the version advances even when the venue echoes the id. -/
def appendAmendLeg (record : OrderRecord) (id : String) : OrderRecord :=
  if id = "" then record else { pushLeg record id with exchangeOrderId := id }

/-- Index of the newest leg with this id. -/
def legIndexOf (record : OrderRecord) (id : String) : Option ℕ :=
  record.legs.zipIdx.foldl
    (fun found entry => if entry.1.exchangeOrderId = id then some entry.2 else found) none

/-- The version written into events: that of the current leg, 1 without legs. -/
def currentVersion (record : OrderRecord) : ℕ :=
  match record.legs.getLast? with
  | none => 1
  | some leg => leg.version

/-- An empty filled quantity counts as "0". -/
def filledText (record : OrderRecord) : String :=
  if record.filledQuantity = "" then "0" else record.filledQuantity

/-- The fill part of `apply_observation`: the high-water mark moves only upwards. -/
def observeFill (record : OrderRecord) (filled avgPrice : String) : OrderRecord × Bool :=
  if filled = "" then (record, false)
  else
    match parseDecimal filled, parseDecimal record.filledText with
    | .ok reported, .ok current =>
      if reported.compare current > 0 then
        ({ record with
            filledQuantity := filled
            averageFillPrice := if avgPrice = "" then record.averageFillPrice else avgPrice },
          true)
      else (record, false)
    | _, _ => (record, false)

/-- The lifecycle part: the transition table decides whether the state moves. -/
def observeState (record : OrderRecord) (state : OrderState) : OrderRecord × Bool :=
  if state = record.state then (record, false)
  else
    match applyTransition record.state state with
    | (next, .applied) => ({ record with state := next }, true)
    | (_, .rejected) => (record, false)

def observePrice (record : OrderRecord) (price : String) : OrderRecord × Bool :=
  if price ≠ "" ∧ price ≠ record.price then ({ record with price := price }, true)
  else (record, false)

def observeQuantity (record : OrderRecord) (quantity : String) : OrderRecord × Bool :=
  if quantity ≠ "" ∧ quantity ≠ record.quantity then
    ({ record with quantity := quantity }, true)
  else (record, false)

/-- Apply one observation; the second component says whether anything changed. Without
`applyLifecycle` only the fill counts. -/
def applyObservation (record : OrderRecord) (state : OrderState)
    (filled avgPrice price quantity : String) (applyLifecycle : Bool) : OrderRecord × Bool :=
  let (record, filledChanged) := record.observeFill filled avgPrice
  if applyLifecycle then
    let (record, stateChanged) := record.observeState state
    let (record, priceChanged) := record.observePrice price
    let (record, quantityChanged) := record.observeQuantity quantity
    (record, filledChanged || stateChanged || priceChanged || quantityChanged)
  else (record, filledChanged)

end OrderRecord

end ExchangeGateway
