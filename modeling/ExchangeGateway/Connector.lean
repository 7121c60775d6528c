import Mathlib.Tactic.Common

/-! The venue-agnostic vocabulary of `include/gateway`: errors, results, requests, snapshots
and execution reports, with the text forms of the enumerations. -/
namespace ExchangeGateway

/-- Machine-readable error identity plus human-readable detail. -/
structure Error where
  code : String
  message : String
  deriving DecidableEq, Repr

abbrev Result (α : Type) := Except Error α

theorem bind_eq_ok {ε α β : Type} {first : Except ε α} {next : α → Except ε β} {b : β} :
    (first >>= next) = .ok b ↔ ∃ a, first = .ok a ∧ next a = .ok b := by
  cases first <;> simp [bind, Except.bind]

inductive Side
  | buy | sell
  deriving DecidableEq, Repr

inductive OrderType
  | limit | market
  deriving DecidableEq, Repr

/-- Normalized lifecycle state. `pending` is gateway-local: the place was staged and the
venue has not acknowledged it. -/
inductive OrderState
  | pending | live | partiallyFilled | filled | canceled | rejected
  deriving DecidableEq, Repr

structure OrderRequest where
  clientOrderId : String
  instrumentId : String
  side : Side
  type : OrderType
  price : String
  quantity : String
  timeInForce : String
  deriving DecidableEq, Repr

structure CancelRequest where
  clientOrderId : String
  instrumentId : String
  deriving DecidableEq, Repr

structure OrderQuery where
  clientOrderId : String
  instrumentId : String
  deriving DecidableEq, Repr

structure AmendRequest where
  clientOrderId : String
  instrumentId : String
  newPrice : Option String
  newQuantity : Option String
  side : Option Side
  type : Option OrderType
  timeInForce : String
  deriving DecidableEq, Repr

/-- Acknowledgement of a place, cancel or amend. -/
structure OrderPlacement where
  clientOrderId : String
  exchangeOrderId : String
  deriving DecidableEq, Repr

structure OrderSnapshot where
  clientOrderId : String
  exchangeOrderId : String
  instrumentId : String
  state : OrderState
  side : Side
  type : OrderType
  price : String
  quantity : String
  filledQuantity : String
  averageFillPrice : String
  deriving DecidableEq, Repr

structure ExecutionReport where
  clientOrderId : String
  exchangeOrderId : String
  state : OrderState
  side : Side
  filledQuantity : String
  averageFillPrice : String
  deriving DecidableEq, Repr

namespace OrderState

protected def toString : OrderState → String
  | .pending => "pending"
  | .live => "live"
  | .partiallyFilled => "partially_filled"
  | .filled => "filled"
  | .canceled => "canceled"
  | .rejected => "rejected"

end OrderState

protected def Side.toString : Side → String
  | .buy => "buy"
  | .sell => "sell"

protected def OrderType.toString : OrderType → String
  | .limit => "limit"
  | .market => "market"

/-- ASCII case-insensitive equality of two strings. -/
def equalsIgnoreCase (lhs rhs : String) : Bool :=
  lhs.toList.map Char.toLower = rhs.toList.map Char.toLower

def parseSide (text : String) : Option Side :=
  if equalsIgnoreCase text "buy" then some .buy
  else if equalsIgnoreCase text "sell" then some .sell
  else none

def parseOrderType (text : String) : Option OrderType :=
  if equalsIgnoreCase text "limit" then some .limit
  else if equalsIgnoreCase text "market" then some .market
  else none

def parseOrderState (text : String) : Option OrderState :=
  if equalsIgnoreCase text "pending" then some .pending
  else if equalsIgnoreCase text "live" then some .live
  else if equalsIgnoreCase text "partially_filled" then some .partiallyFilled
  else if equalsIgnoreCase text "filled" then some .filled
  else if equalsIgnoreCase text "canceled" then some .canceled
  else if equalsIgnoreCase text "rejected" then some .rejected
  else none

@[simp] theorem parseSide_toString (side : Side) : parseSide side.toString = some side := by
  cases side <;> decide

@[simp] theorem parseOrderType_toString (type : OrderType) :
    parseOrderType type.toString = some type := by
  cases type <;> decide

@[simp] theorem parseOrderState_toString (state : OrderState) :
    parseOrderState state.toString = some state := by
  cases state <;> decide

end ExchangeGateway
