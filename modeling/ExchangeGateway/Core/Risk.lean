import ExchangeGateway.Core.Decimal

/-! Pre-trade risk limits (`core/risk.cpp`). -/
namespace ExchangeGateway

/-- Per-instrument limits as decimal strings; an empty field disables its check. -/
structure InstrumentRiskLimits where
  maxQty : String
  maxNotional : String
  maxPosition : String
  deriving DecidableEq, Repr

structure RiskConfig where
  defaults : Option InstrumentRiskLimits
  instruments : List (String × InstrumentRiskLimits)
  deriving DecidableEq, Repr

/-- The explicit entry when present, otherwise the defaults. -/
def RiskConfig.limitsFor (config : RiskConfig) (symbol : String) : Option InstrumentRiskLimits :=
  match config.instruments.lookup symbol with
  | some limits => some limits
  | none => config.defaults

structure RiskOrder where
  side : Side
  price : String
  quantity : String
  projectedPosition : String
  deriving DecidableEq, Repr

def riskInvalid (what value : String) : Error :=
  ⟨"risk_invalid_value", what ++ " is not a valid decimal: " ++ value⟩

def checkMaxQty (limits : InstrumentRiskLimits) (symbol : String) (order : RiskOrder)
    (quantity : Decimal) : Option Error :=
  if limits.maxQty = "" then none
  else
    match parseDecimal limits.maxQty with
    | .error _ => some (riskInvalid "maxQty" limits.maxQty)
    | .ok maxQty =>
      if quantity.compare maxQty > 0 then
        some ⟨"risk_max_qty", "quantity " ++ order.quantity ++ " exceeds maxQty " ++
          limits.maxQty ++ " for " ++ symbol⟩
      else none

def checkMaxNotional (limits : InstrumentRiskLimits) (symbol : String) (order : RiskOrder)
    (quantity : Decimal) : Option Error :=
  if limits.maxNotional = "" || order.price = "" then none
  else
    match parseDecimal order.price with
    | .error _ => some (riskInvalid "price" order.price)
    | .ok price =>
      match parseDecimal limits.maxNotional with
      | .error _ => some (riskInvalid "maxNotional" limits.maxNotional)
      | .ok maxNotional =>
        match price.mul quantity with
        | .error _ => some ⟨"risk_invalid_value", "notional computation overflowed"⟩
        | .ok notional =>
          if notional.compare maxNotional > 0 then
            some ⟨"risk_max_notional", "notional " ++ decimalToString notional ++ " (price " ++
              order.price ++ " x quantity " ++ order.quantity ++ ") exceeds maxNotional " ++
              limits.maxNotional ++ " for " ++ symbol⟩
          else none

def checkMaxPosition (limits : InstrumentRiskLimits) (symbol : String) (order : RiskOrder) :
    Option Error :=
  if limits.maxPosition = "" then none
  else
    match parseSignedDecimal order.projectedPosition with
    | .error _ => some (riskInvalid "projectedPosition" order.projectedPosition)
    | .ok position =>
      match parseDecimal limits.maxPosition with
      | .error _ => some (riskInvalid "maxPosition" limits.maxPosition)
      | .ok maxPosition =>
        let magnitude := if position.unscaled < 0 then position.negate else position
        if magnitude.compare maxPosition > 0 then
          some ⟨"risk_max_position", "projected position " ++ decimalToString position ++
            " exceeds maxPosition ±" ++ limits.maxPosition ++ " for " ++ symbol⟩
        else none

/-- The pre-trade checks in the source's order; `none` means the order is acceptable. -/
def checkRisk (limits : Option InstrumentRiskLimits) (symbol : String) (order : RiskOrder) :
    Option Error :=
  match limits with
  | none => none
  | some limits =>
    match parseDecimal order.quantity with
    | .error _ => some (riskInvalid "quantity" order.quantity)
    | .ok quantity =>
      checkMaxQty limits symbol order quantity <|>
        checkMaxNotional limits symbol order quantity <|>
        checkMaxPosition limits symbol order

end ExchangeGateway
