import ExchangeGateway.Json
import ExchangeGateway.Core.Decimal
import ExchangeGateway.Exchange.Resilient

/-! Placing on Binance, from the text frames of the session up to the connector
(`exchange/binance/binance_ws_client.cpp`, `binance_wire.cpp`, `binance_api.cpp`,
`binance_connector.cpp`). `none` stands for an exception: the JSON library throws when a field of
an error object has an unexpected type. -/
namespace ExchangeGateway.Binance

variable (library : Json.Library)

/-! ### The session -/

inductive Reply
  | unsent
  | silent
  | connectionLost
  | frame (message : String)

structure Request where
  id : ℤ
  reply : Reply

/-- A frame goes to the call that waits for its id; everything else is no response. -/
def dispatchMessage (id : ℤ) (message : String) : Option Json :=
  match library.parse message with
  | none => none
  | some parsed =>
    if !parsed.isObject ∨ (parsed.find? "event").any Json.isObject then none
    else if ((parsed.find? "id").bind Json.integer?).map longLong = some id then some parsed
    else none

def statusOf (response : Json) : Option ℤ :=
  ((response.find? "status").bind Json.integer?).map Json.int32

/-- `code` and `msg` of the error object, with their defaults. -/
def errorOf (response : Json) : Option (ℤ × String) :=
  match response.find? "error" with
  | none => some (0, "venue rejected the request")
  | some error =>
    if !error.isObject then some (0, "venue rejected the request")
    else do
      let code ← ((error.find? "code").map (Json.toInt? library)).getD (some 0)
      let message ←
        ((error.find? "msg").map Json.string?).getD (some "venue rejected the request")
      return (code, message)

/-- -1006 and -1007 leave the outcome open, whatever the status. -/
def venueError (code : ℤ) (message : String) : Error :=
  if code = -1006 ∨ code = -1007 then
    ⟨"transport", "venue error " ++ toString code ++ " (" ++ message ++
      ", outcome unknown, resolve before retry)"⟩
  else ⟨"venue:" ++ toString code, message⟩

/-- The classification of a response in `BinanceWsClient::call`. -/
def classify (response : Json) : Option (Result Json) :=
  match statusOf response with
  | none =>
    some (.error ⟨"protocol", "response without integer status: " ++ library.dump response⟩)
  | some status =>
    if status = 200 then
      match response.find? "result" with
      | none =>
        some (.error ⟨"protocol", "successful response without result: " ++ library.dump response⟩)
      | some result => some (.ok result)
    else if status ≥ 500 then
      some (.error ⟨"transport",
        "venue " ++ toString status ++ " (outcome unknown, resolve before retry)"⟩)
    else (errorOf library response).map fun error => .error (venueError error.1 error.2)

def timedOut (method : String) : Error :=
  ⟨"transport", method ++ " response timed out (outcome unknown, resolve before retry)"⟩

def call (method : String) (request : Request) : Option (Result Json) :=
  match request.reply with
  | .unsent => some (.error ⟨"transport", "cannot send " ++ method ++ ": no connection"⟩)
  | .silent => some (.error (timedOut method))
  | .connectionLost =>
    some (.error ⟨"transport",
      method ++ " failed: connection lost (outcome unknown, resolve before retry)"⟩)
  | .frame message =>
    match dispatchMessage library request.id message with
    | none => some (.error (timedOut method))
    | some response => classify library response

def isClockSkewReject : Result Json → Bool
  | .ok _ => false
  | .error error => error.code = "venue:-1021"

/-- Whether the venue's clock could be read. -/
def syncServerTime (request : Request) : Option Bool :=
  match call library "time" request with
  | none => none
  | some (.error _) => some false
  | some (.ok result) => some ((result.find? "serverTime").bind Json.integer?).isSome

/-- The requests of one signed call: the call, the time request and the call signed again. -/
structure SignedRequest where
  first : Request
  time : Request
  again : Request

/-- The second of two calls: a clock skew that persists is unrecoverable. -/
def callAgain (method : String) (request : Request) : Option (Result Json) :=
  match call library method request with
  | none => none
  | some result =>
    if isClockSkewReject result then
      some (.error ⟨"protocol",
        "clock skew unrecoverable: -1021 persists after time sync and one re-sign"⟩)
    else some result

def callSigned (method : String) (requests : SignedRequest) : Option (Result Json) :=
  match call library method requests.first with
  | none => none
  | some result =>
    if !isClockSkewReject result then some result
    else
      match syncServerTime library requests.time with
      | none => none
      | some false => some result
      | some true => callAgain library method requests.again

/-! ### The wire format -/

def sideText : Side → String
  | .buy => "BUY"
  | .sell => "SELL"

def typeText : OrderType → String
  | .limit => "LIMIT"
  | .market => "MARKET"

def stringField (node : Json) (name : String) : String :=
  ((node.find? name).bind Json.string?).getD ""

def numberField (node : Json) (name : String) : String :=
  match node.find? name with
  | none => ""
  | some value =>
    match value.integer? with
    | some number => toString (longLong number)
    | none => value.string?.getD ""

def requireDecimal (what value : String) : Option Error :=
  if value = "" then some ⟨"protocol", what ++ " is required"⟩ else none

def limitFields (request : PlaceRequest) : List (String × Json) :=
  if request.type = .limit then
    [("price", .str request.price), ("timeInForce", .str request.timeInForce)]
  else []

/-- The checks that a place and an amend share; `operation` names it in the first of them. -/
def checkParams (operation : String) (request : PlaceRequest) : Option Error :=
  if request.clientOrderId = "" ∨ request.symbol = "" then
    some ⟨"protocol", operation ++ " requires clientOrderId and symbol"⟩
  else
    match requireDecimal "quantity" request.quantity with
    | some error => some error
    | none =>
      match if request.type = .limit then requireDecimal "price" request.price else none with
      | some error => some error
      | none =>
        if request.type = .limit ∧ request.timeInForce = "" then
          some ⟨"protocol", "LIMIT orders require timeInForce"⟩
        else none

def buildPlaceParams (request : PlaceRequest) : Result Json :=
  match checkParams "place" request with
  | some error => .error error
  | none =>
    .ok (.obj ([("symbol", .str request.symbol), ("side", .str (sideText request.side)),
      ("type", .str (typeText request.type)), ("quantity", .str request.quantity),
      ("newClientOrderId", .str request.clientOrderId),
      ("newOrderRespType", .str "RESULT")] ++ limitFields request))

/-- The fields of `BinanceAmendRequest` are those of a place. -/
def buildCancelReplaceParams (request : PlaceRequest) : Result Json :=
  match checkParams "amend" request with
  | some error => .error error
  | none =>
    .ok (.obj ([("symbol", .str request.symbol), ("cancelReplaceMode", .str "STOP_ON_FAILURE"),
      ("cancelOrigClientOrderId", .str request.clientOrderId),
      ("side", .str (sideText request.side)), ("type", .str (typeText request.type)),
      ("quantity", .str request.quantity), ("newClientOrderId", .str request.clientOrderId),
      ("newOrderRespType", .str "RESULT")] ++ limitFields request))

def parseOrderAck (result : Json) : OrderAck where
  orderId := numberField result "orderId"
  clientOrderId := stringField result "clientOrderId"
  status := stringField result "status"
  executedQty := stringField result "executedQty"

/-! ### The connector -/

section

variable {ρ W : Type}

/-- `BinanceApi::place`, over the signed call of the session. -/
def Api.placeWith (invoke : String → Json → W → Option (Result Json) × W)
    (request : PlaceRequest) (w : W) : Option (Result OrderAck) × W :=
  match buildPlaceParams request with
  | .error error => (some (.error error), w)
  | .ok params =>
    match invoke "order.place" params w with
    | (none, w) => (none, w)
    | (some (.error error), w) => (some (.error error), w)
    | (some (.ok result), w) => (some (.ok (parseOrderAck result)), w)

/-- An exception passes the engine as an ack does: at once, and without a look at it. -/
def unwound {α : Type} : Option (Result α) → Result (Option α)
  | none => .ok none
  | some (.ok value) => .ok (some value)
  | some (.error error) => .error error

/-- `binance_resilient_place` over calls that may throw. -/
def resilientPlaceOrThrow (place : PlaceRequest → W → Option (Result OrderAck) × W)
    (getOrder : OrderQuery → W → Result (Option OrderInfo) × W) (policy : RetryPolicy ρ)
    (clock : RetryClock ρ W) (request : PlaceRequest) : W → Result (Option OrderAck) × W :=
  ExchangeGateway.placeWith policy clock isDuplicateReject
    ("clientOrderId " ++ request.clientOrderId)
    (fun w => (unwound (place request w).1, (place request w).2))
    (lookupWith policy clock (fun _ => false) (getOrder ⟨request.clientOrderId, request.symbol⟩))
    fun info => some (ackOf info)

def placementFrom (ack : OrderAck) : Result OrderPlacement :=
  if ack.orderId = "" then .error ⟨"protocol", "venue ack without orderId"⟩
  else .ok ⟨ack.clientOrderId, ack.orderId⟩

def toWire (symbol : String) : String := String.ofList (symbol.toList.filter (· ≠ '-'))

def placeRequestOf (request : OrderRequest) : PlaceRequest where
  clientOrderId := request.clientOrderId
  symbol := toWire request.instrumentId
  side := request.side
  type := request.type
  price := request.price
  quantity := request.quantity
  timeInForce := if request.timeInForce = "" then "GTC" else request.timeInForce

/-- The wire request of `BinanceConnector::amend_order`: a full replacement. -/
def amendRequestOf (request : AmendRequest) : Result PlaceRequest :=
  match request.newPrice, request.newQuantity, request.side, request.type with
  | some price, some quantity, some side, some type =>
    .ok {
      clientOrderId := request.clientOrderId
      symbol := toWire request.instrumentId
      side := side
      type := type
      price := price
      quantity := quantity
      timeInForce := if request.timeInForce = "" then "GTC" else request.timeInForce }
  | _, _, _, _ =>
    .error ⟨"protocol", "Binance amend (cancelReplace) needs the full replacement: price, " ++
      "quantity, side and type of the resulting order"⟩

def placementOf : Result (Option OrderAck) → Option (Result OrderPlacement)
  | .ok none => none
  | .ok (some ack) => some (placementFrom ack)
  | .error error => some (.error error)

/-- `BinanceConnector::place_order`. -/
def placeOrder (place : PlaceRequest → W → Option (Result OrderAck) × W)
    (getOrder : OrderQuery → W → Result (Option OrderInfo) × W) (policy : RetryPolicy ρ)
    (clock : RetryClock ρ W) (request : OrderRequest) (w : W) :
    Option (Result OrderPlacement) × W :=
  let ack := resilientPlaceOrThrow place getOrder policy clock (placeRequestOf request) w
  (placementOf ack.1, ack.2)

end

end ExchangeGateway.Binance
