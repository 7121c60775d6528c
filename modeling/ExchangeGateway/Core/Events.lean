import ExchangeGateway.Core.Record
import ExchangeGateway.Json
import ExchangeGateway.Lib.KeyedList

/-! The events the order management system writes, and their replay into a registry. -/
namespace ExchangeGateway

abbrev Registry := KeyedList OrderRecord.clientOrderId

/-- A string field of an event; fields of another type count as missing. -/
def eventString (event : Json) (name : String) : Option String :=
  match event.find? name with
  | some (.str value) => some value
  | _ => none

/-- The pre-send intent, persisted before the venue call. -/
def placeSubmittedEvent (record : OrderRecord) : Json :=
  .obj [("type", .str "place_submitted"),
    ("clientOrderId", .str record.clientOrderId),
    ("symbol", .str record.symbol),
    ("venue", .str record.venue),
    ("side", .str record.side.toString),
    ("orderType", .str record.type.toString),
    ("price", .str record.price),
    ("quantity", .str record.quantity),
    ("timeInForce", .str record.timeInForce)]

/-- The fields `place_accepted` and `adopted` share. -/
def acceptedFields (type : String) (record : OrderRecord) : List (String × Json) :=
  [("type", .str type),
    ("clientOrderId", .str record.clientOrderId),
    ("symbol", .str record.symbol),
    ("venue", .str record.venue),
    ("side", .str record.side.toString),
    ("orderType", .str record.type.toString),
    ("price", .str record.price),
    ("quantity", .str record.quantity),
    ("timeInForce", .str record.timeInForce),
    ("exchangeOrderId", .str record.exchangeOrderId),
    ("version", .unsigned record.currentVersion)]

def placeAcceptedEvent (record : OrderRecord) : Json :=
  .obj (acceptedFields "place_accepted" record)

def adoptedEvent (record : OrderRecord) : Json :=
  .obj (acceptedFields "adopted" record ++
    [("state", .str record.state.toString),
      ("filledQuantity", .str record.filledQuantity),
      ("averageFillPrice", .str record.averageFillPrice)])

def rejectedEvent (record : OrderRecord) : Json :=
  let rejection := record.rejection.getD ⟨"", ""⟩
  .obj [("type", .str "rejected"),
    ("clientOrderId", .str record.clientOrderId),
    ("symbol", .str record.symbol),
    ("venue", .str record.venue),
    ("code", .str rejection.code),
    ("reason", .str rejection.message)]

def amendedEvent (record : OrderRecord) : Json :=
  .obj [("type", .str "amended"),
    ("clientOrderId", .str record.clientOrderId),
    ("price", .str record.price),
    ("quantity", .str record.quantity),
    ("state", .str record.state.toString),
    ("exchangeOrderId", .str record.exchangeOrderId),
    ("version", .unsigned record.currentVersion)]

def stateEvent (record : OrderRecord) : Json :=
  .obj [("type", .str "state"),
    ("clientOrderId", .str record.clientOrderId),
    ("state", .str record.state.toString),
    ("filledQuantity", .str record.filledQuantity),
    ("averageFillPrice", .str record.averageFillPrice),
    ("exchangeOrderId", .str record.exchangeOrderId),
    ("version", .unsigned record.currentVersion)]

def eventVersion (event : Json) : ℕ :=
  match event.find? "version" with
  | some (.unsigned version) => version
  | _ => 0

/-- The record a `place_submitted`, `place_accepted` or `adopted` event stands for. -/
def recordFromEvent (defaultVenue type clientOrderId : String) (event : Json) : OrderRecord :=
  let exchangeOrderId := if type = "place_submitted" then ""
    else (eventString event "exchangeOrderId").getD ""
  let version := eventVersion event
  { clientOrderId := clientOrderId
    symbol := (eventString event "symbol").getD ""
    venue := (eventString event "venue").getD defaultVenue
    exchangeOrderId := exchangeOrderId
    side := (parseSide ((eventString event "side").getD "buy")).getD .buy
    type := (parseOrderType ((eventString event "orderType").getD "limit")).getD .limit
    timeInForce := (eventString event "timeInForce").getD "GTC"
    price := (eventString event "price").getD ""
    quantity := (eventString event "quantity").getD ""
    state := if type = "place_submitted" then .pending
      else if type = "adopted" then
        (parseOrderState ((eventString event "state").getD "live")).getD .live
      else .live
    filledQuantity := if type = "adopted" then (eventString event "filledQuantity").getD "0"
      else "0"
    averageFillPrice := if type = "adopted" then (eventString event "averageFillPrice").getD ""
      else ""
    legs := if exchangeOrderId = "" then []
      else [⟨if version = 0 then 1 else version, exchangeOrderId⟩]
    adopted := type = "adopted"
    rejection := none }

namespace OrderRecord

/-- Replay of a `rejected` event over the record found (or blank). -/
def replayRejected (record : OrderRecord) (defaultVenue : String) (event : Json) : OrderRecord :=
  { record with
    state := .rejected
    symbol := (eventString event "symbol").getD record.symbol
    venue := (eventString event "venue").getD
      (if record.venue = "" then defaultVenue else record.venue)
    rejection := some ⟨(eventString event "code").getD "rejected",
      (eventString event "reason").getD ""⟩ }

/-- The price and quantity of an `amended` event; empty values leave the record alone. -/
def replayTerms (record : OrderRecord) (event : Json) : OrderRecord :=
  let price := (eventString event "price").getD ""
  let quantity := (eventString event "quantity").getD ""
  { record with
    price := if price = "" then record.price else price
    quantity := if quantity = "" then record.quantity else quantity }

/-- A legacy `amended` event: infer the leg and keep the historic resurrection. -/
def replayLegacyAmend (record : OrderRecord) (event : Json) : OrderRecord :=
  let record := record.noteExchangeId ((eventString event "exchangeOrderId").getD "")
  if parseOrderState ((eventString event "state").getD "") = some .live ∧
      record.state = .canceled then { record with state := .live }
  else record

/-- A versioned `amended` event: append the leg, or update the one of that version. -/
def replayLeg (record : OrderRecord) (version : ℕ) (id : String) : OrderRecord :=
  let legs := if version ≤ record.legs.length then
      if id = "" then record.legs
      else record.legs.modify (version - 1) fun leg => { leg with exchangeOrderId := id }
    else record.legs ++ [⟨version, id⟩]
  { record with
    legs := legs
    exchangeOrderId := if id = "" then record.exchangeOrderId else id }

def replayAmended (record : OrderRecord) (event : Json) : OrderRecord :=
  let record := record.replayTerms event
  if eventVersion event = 0 then record.replayLegacyAmend event
  else record.replayLeg (eventVersion event) ((eventString event "exchangeOrderId").getD "")

/-- Replay of a `state` event: an observation, then the one-time id backfill. -/
def replayState (record : OrderRecord) (event : Json) : OrderRecord :=
  match parseOrderState ((eventString event "state").getD "") with
  | none => record
  | some state =>
    let record := (record.applyObservation state ((eventString event "filledQuantity").getD "")
      ((eventString event "averageFillPrice").getD "") "" "" true).1
    if record.exchangeOrderId = "" then
      record.noteExchangeId ((eventString event "exchangeOrderId").getD "")
    else record

end OrderRecord

/-- Replay one event into the registry; events without a type or an id are skipped. -/
def applyLogEvent (defaultVenue : String) (orders : Registry) (event : Json) : Registry :=
  match eventString event "type", eventString event "clientOrderId" with
  | some type, some id =>
    if type = "place_submitted" || type = "place_accepted" || type = "adopted" then
      orders.set (recordFromEvent defaultVenue type id event)
    else if type = "rejected" then
      orders.set (((orders.find? id).getD (.blank id)).replayRejected defaultVenue event)
    else if type = "amended" then
      match orders.find? id with
      | none => orders
      | some record => orders.set (record.replayAmended event)
    else if type = "state" then
      match orders.find? id with
      | none => orders
      | some record => orders.set (record.replayState event)
    else orders
  | _, _ => orders

def replay (defaultVenue : String) (orders : Registry) (events : List Json) : Registry :=
  events.foldl (applyLogEvent defaultVenue) orders

/-- What holds of every record after one event: it held before, and the event's own record has it. -/
theorem every_applyLogEvent {P : OrderRecord → Prop} {defaultVenue : String} {orders : Registry}
    {event : Json} (h : ∀ id record, orders.find? id = some record → P record)
    (hcreated : ∀ type id, eventString event "type" = some type →
      (type = "place_submitted" ∨ type = "place_accepted" ∨ type = "adopted") →
        P (recordFromEvent defaultVenue type id event))
    (hrejected : ∀ id, P (((orders.find? id).getD (.blank id)).replayRejected defaultVenue event))
    (hamended : ∀ id record, eventString event "type" = some "amended" →
      orders.find? id = some record → P (record.replayAmended event))
    (hstate : ∀ id record, eventString event "type" = some "state" →
      eventString event "clientOrderId" = some id → orders.find? id = some record →
        P (record.replayState event))
    (id : String) (record : OrderRecord)
    (hr : (applyLogEvent defaultVenue orders event).find? id = some record) : P record := by
  have hset {new : OrderRecord} (hnew : P new) (hf : (orders.set new).find? id = some record) :
      P record := by
    rw [KeyedList.find?_set] at hf
    split at hf
    · exact Option.some.inj hf ▸ hnew
    · exact h id record hf
  unfold applyLogEvent at hr
  split at hr
  · rename_i type id' htype hid
    split at hr
    · rename_i hcreate
      exact hset (hcreated _ _ htype (by simpa [or_assoc] using hcreate)) hr
    · split at hr
      · exact hset (hrejected id') hr
      · split at hr
        · rename_i heq
          split at hr
          · exact h id record hr
          · rename_i old hold
            exact hset (hamended id' old (heq ▸ htype) hold) hr
        · split at hr
          · rename_i heq
            split at hr
            · exact h id record hr
            · rename_i old hold
              exact hset (hstate id' old (heq ▸ htype) hid hold) hr
          · exact h id record hr
  · exact h id record hr

structure ReplayInvariant (P : OrderRecord → Prop) (defaultVenue : String) : Prop where
  created : ∀ type id event, P (recordFromEvent defaultVenue type id event)
  rejected : ∀ record event, (P record ∨ ∃ id, record = .blank id) →
    P (record.replayRejected defaultVenue event)
  amended : ∀ record event, P record → P (record.replayAmended event)
  state : ∀ record event, P record → P (record.replayState event)

theorem ReplayInvariant.every_replay {P : OrderRecord → Prop} {defaultVenue : String}
    (hP : ReplayInvariant P defaultVenue) {orders : Registry}
    (h : ∀ id record, orders.find? id = some record → P record) (events : List Json) :
    ∀ id record, (replay defaultVenue orders events).find? id = some record → P record := by
  induction events generalizing orders with
  | nil => exact h
  | cons event events ih =>
    apply ih
    apply every_applyLogEvent h (fun type id _ _ => hP.created type id event)
    · intro id
      apply hP.rejected
      cases hf : orders.find? id with
      | none => exact .inr ⟨id, rfl⟩
      | some record => exact .inl (h id record hf)
    · exact fun id record _ hr => hP.amended record event (h id record hr)
    · exact fun id record _ _ hr => hP.state record event (h id record hr)

end ExchangeGateway
