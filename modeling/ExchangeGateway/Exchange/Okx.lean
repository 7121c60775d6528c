import ExchangeGateway.Json
import ExchangeGateway.Exchange.Resilient

/-! Placing on OKX, from the HTTP response up to the connector
(`exchange/okx/okx_rest_client.cpp`, `okx_wire.cpp`, `okx_connector.cpp`). -/
namespace ExchangeGateway.Okx

variable (library : Json.Library)

/-! ### The REST client -/

structure Response where
  status : ℤ
  body : String

def stringField (node : Json) (name : String) : Option String :=
  (node.find? name).bind Json.string?

/-- The first element of the `data` array, when it is an object. -/
def detailOf (envelope : Json) : Option Json :=
  match envelope.find? "data" with
  | some (.arr (.obj fields :: _)) => some (.obj fields)
  | _ => none

/-- The error of an envelope with a code other than "0". -/
def envelopeError (envelope : Json) (code path : String) : Error :=
  let detail := (stringField envelope "msg").getD "" ++
    ((detailOf envelope).map fun front =>
      " [" ++ (stringField front "sCode").getD "" ++ ": " ++
        (stringField front "sMsg").getD "" ++ "]").getD ""
  let detail := if detail = "" then code else detail
  ⟨"venue:" ++ code, "OKX rejected " ++ path ++ ": " ++ detail⟩

/-- The `data` array of a valid envelope. -/
def parseEnvelope (body path : String) : Result (List Json) :=
  match library.parse body with
  | some (.obj fields) =>
    match stringField (.obj fields) "code" with
    | none => .error ⟨"protocol", "envelope missing string field \"code\""⟩
    | some code =>
      if code ≠ "0" then .error (envelopeError (.obj fields) code path)
      else
        match (Json.obj fields).find? "data" with
        | some (.arr data) => .ok data
        | _ => .error ⟨"protocol", "envelope missing \"data\" array"⟩
  | _ => .error ⟨"protocol", "response is not a JSON object: " ++ body⟩

/-- 5xx and 429 leave the outcome open; any other status is definitive. -/
def classifyHttpError (response : Response) (path : String) : Error :=
  let describe := "unexpected HTTP status " ++ toString response.status ++ " from " ++ path
  if response.status ≥ 500 ∨ response.status = 429 then ⟨"transport", describe⟩
  else
    match parseEnvelope library response.body path with
    | .error error =>
      if "venue:".toList <+: error.code.toList then error
      else ⟨"protocol", describe ++ " without an OKX error envelope: " ++ response.body⟩
    | .ok _ => ⟨"protocol", describe ++ " without an OKX error envelope: " ++ response.body⟩

/-- `none` is a network failure. -/
def signedRequest (host path : String) : Option Response → Result (List Json)
  | none => .error ⟨"transport", "network failure talking to " ++ host⟩
  | some response =>
    if response.status ≠ 200 then .error (classifyHttpError library response path)
    else parseEnvelope library response.body path

def kPathPlace : String := "/api/v5/trade/order"

def fieldString (item : Json) (name : String) : String :=
  match item.find? name with
  | none => ""
  | some .null => ""
  | some (.str text) => text
  | some value => library.dump value

def parseOrderAck (item : Json) : OrderAck where
  ordId := fieldString library item "ordId"
  clOrdId := fieldString library item "clOrdId"
  sCode := fieldString library item "sCode"
  sMsg := fieldString library item "sMsg"

def toJson (request : PlaceRequest) : Json :=
  .obj ([("clOrdId", .str request.clOrdId), ("instId", .str request.instId),
    ("ordType", .str request.ordType)] ++
    (if request.px = "" then [] else [("px", .str request.px)]) ++
    [("side", .str request.side), ("sz", .str request.sz)] ++
    (if request.tdIf = "" then [] else [("tdIf", .str request.tdIf)]) ++
    [("tdMode", .str request.tdMode)])

def placeAck (host : String) (response : Option Response) : Result OrderAck :=
  match signedRequest library host kPathPlace response with
  | .error error => .error error
  | .ok (.obj fields :: _) => .ok (parseOrderAck library (.obj fields))
  | .ok _ => .error ⟨"protocol", "place-order data array is empty"⟩

/-- `OkxRestClient::place_order`, over the HTTP client. -/
def restPlaceOrder {W : Type} (host : String) (post : String → String → W → Option Response × W)
    (request : PlaceRequest) (w : W) : Result OrderAck × W :=
  (placeAck library host (post kPathPlace (library.dump (toJson request)) w).1,
    (post kPathPlace (library.dump (toJson request)) w).2)

/-! ### The connector -/

def ackToPlacement (ack : OrderAck) : Result OrderPlacement :=
  if ack.sCode ≠ "" ∧ ack.sCode ≠ "0" then
    .error ⟨"venue:" ++ ack.sCode, "OKX rejected request: " ++ ack.sMsg⟩
  else .ok ⟨ack.clOrdId, ack.ordId⟩

def toWire (request : OrderRequest) : PlaceRequest where
  clOrdId := request.clientOrderId
  instId := request.instrumentId
  side := if request.side = .buy then "buy" else "sell"
  ordType := if request.type = .limit then "limit" else "market"
  px := request.price
  sz := request.quantity
  tdIf := request.timeInForce
  tdMode := "cash"

/-- `OkxConnector::place_order`. -/
def placeOrder {ρ W : Type} (client : Client W) (policy : RetryPolicy ρ) (clock : RetryClock ρ W)
    (request : OrderRequest) (w : W) : Result OrderPlacement × W :=
  let ack := resilientPlace client policy clock (toWire request) w
  (ack.1.bind ackToPlacement, ack.2)

end ExchangeGateway.Okx
