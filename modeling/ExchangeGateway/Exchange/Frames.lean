import ExchangeGateway.Core.DecimalExact
import ExchangeGateway.Exchange.Binance
import ExchangeGateway.Exchange.Okx
import ExchangeGateway.Exchange.Session
import ExchangeGateway.Lib.IntText

/-! What the feeds do with a text frame (`exchange/binance/binance_ws_client.cpp`,
`exchange/okx/okx_ws_client.cpp`), for every frame. `none` stands for an exception: the accessor
`json::value` throws when the field is there with another type. A report handler is set. -/
namespace ExchangeGateway

namespace Json

/-- `value(name, default)` of an object, with the conversion of the default's type. -/
def value? {α : Type} (convert : Json → Option α) (node : Json) (name : String) (default : α) :
    Option α :=
  match node.find? name with
  | none => some default
  | some value => convert value

/-- `get<long long>`. -/
def toLongLong? (library : Library) : Json → Option ℤ
  | .bool value => some (if value then 1 else 0)
  | .unsigned value => some (longLong value)
  | .integer value => some (longLong value)
  | .float text => some (longLong (library.truncate text))
  | _ => none

end Json

/-- What a feed emits for a frame. -/
inductive FeedEffect
  | protocolWarning (detail : String)
  | report (report : ExecutionReport)
  deriving DecidableEq, Repr

namespace Binance

def mapBinanceState (status : String) : Option OrderState :=
  if status = "NEW" || status = "PENDING_NEW" then some .live
  else if status = "PARTIALLY_FILLED" then some .partiallyFilled
  else if status = "FILLED" then some .filled
  else if status = "CANCELED" || status = "PENDING_CANCEL" || status = "EXPIRED" ||
      status = "EXPIRED_IN_MATCH" then some .canceled
  else if status = "REJECTED" then some .rejected
  else none

def mapBinanceSide (side : String) : Option Side :=
  if side = "BUY" then some .buy else if side = "SELL" then some .sell else none

/-- Empty when nothing was filled, or when the quotient does not fit. -/
def averagePrice (quoteQty filled : String) : String :=
  if quoteQty = "" || filled = "" then ""
  else
    match parseDecimal quoteQty, parseDecimal filled with
    | .ok quote, .ok filled =>
      if filled.isZero then ""
      else
        match quote.div filled kMaxDecimalScale with
        | .ok price => decimalToString price
        | .error _ => ""
    | _, _ => ""

namespace Feed

variable (library : Json.Library)

/-- A text field with the empty default. -/
def text? (event : Json) (name : String) : Option String := event.value? Json.string? name ""

/-- A cancel carries its own id in "c" and the original one in "C". -/
def clientOrderId? (event : Json) : Option String := do
  let original ← text? event "C"
  if original = "" then text? event "c" else return original

def forward? (event : Json) (clientOrderId : String) (state : OrderState) (side : Side) :
    Option (List FeedEffect) := do
  let orderId ← event.value? (Json.toLongLong? library) "i" 0
  let filled ← text? event "z"
  let quote ← text? event "Z"
  return [.report ⟨clientOrderId, toString orderId, state, side, filled, averagePrice quote filled⟩]

def executionReport? (event : Json) : Option (List FeedEffect) := do
  let clientOrderId ← clientOrderId? event
  if clientOrderId = "" then return [.protocolWarning "executionReport without clientOrderId"]
  let status ← text? event "X"
  match mapBinanceState status with
  | none =>
    return [.protocolWarning ("unknown Binance order status \"" ++ status ++ "\"; report skipped")]
  | some state =>
    let sideText ← text? event "S"
    match mapBinanceSide sideText with
    | none =>
      return [.protocolWarning ("unknown Binance order side \"" ++ sideText ++ "\"; report skipped")]
    | some side => forward? library event clientOrderId state side

/-- Other events are legitimate and not consumed. -/
def handleUserEvent (event : Json) : Option (List FeedEffect) :=
  if !event.isObject then some [.protocolWarning "user event is not an object"]
  else do
    let type ← text? event "e"
    if type ≠ "executionReport" then return [] else executionReport? library event

structure Outcome where
  /-- The requests that still wait. -/
  pending : List ℤ
  /-- The request that got its response. -/
  completed : Option (ℤ × Json) := none
  effects : List FeedEffect := []
  terminateReason : Option String := none

def requestId? (parsed : Json) : Option ℤ :=
  ((parsed.find? "id").bind Json.integer?).map longLong

def dispatchEvent (pending : List ℤ) (event : Json) : Option Outcome := do
  let type ← text? event "e"
  if type = "serverShutdown" then
    return { pending, terminateReason := some "venue announced serverShutdown" }
  else if type = "eventStreamTerminated" then
    return { pending, terminateReason := some "venue terminated the user data stream" }
  else
    let effects ← handleUserEvent library event
    return { pending, effects }

/-- Responses to requests that gave up are dropped. -/
def dispatchResponse (pending : List ℤ) (message : String) (parsed : Json) : Outcome :=
  match requestId? parsed with
  | some id =>
    if id ∈ pending then { pending := pending.filter (· ≠ id), completed := some (id, parsed) }
    else { pending }
  | none =>
    { pending, effects := [.protocolWarning ("unrecognized venue frame skipped: " ++ message)] }

def dispatchMessage (pending : List ℤ) (message : String) : Option Outcome :=
  match library.parse message with
  | some parsed =>
    if !parsed.isObject then
      some { pending, effects := [.protocolWarning "non-JSON text frame skipped"] }
    else
      match parsed.find? "event" with
      | some event =>
        if event.isObject then dispatchEvent library pending event
        else some (dispatchResponse pending message parsed)
      | none => some (dispatchResponse pending message parsed)
  | none => some { pending, effects := [.protocolWarning "non-JSON text frame skipped"] }

end Feed

end Binance

namespace Okx

variable (library : Json.Library)

def mapOkxState (state : String) : Option OrderState :=
  if state = "live" then some .live
  else if state = "partially_filled" then some .partiallyFilled
  else if state = "filled" then some .filled
  else if state = "canceled" then some .canceled
  else none

def mapOkxSide (side : String) : Option Side :=
  if side = "buy" then some .buy else if side = "sell" then some .sell else none

def parseOrderInfo (item : Json) : OrderInfo where
  ordId := fieldString library item "ordId"
  clOrdId := fieldString library item "clOrdId"
  instId := fieldString library item "instId"
  state := fieldString library item "state"
  side := fieldString library item "side"
  ordType := fieldString library item "ordType"
  px := fieldString library item "px"
  sz := fieldString library item "sz"
  avgPx := fieldString library item "avgPx"
  accFillSz := fieldString library item "accFillSz"

/-- One item of an orders message. -/
def dispatchItem (item : Json) : FeedEffect :=
  if !item.isObject then .protocolWarning "orders data item is not an object"
  else
    let info := parseOrderInfo library item
    match mapOkxState info.state with
    | none => .protocolWarning ("unknown OKX order state \"" ++ info.state ++ "\"; item skipped")
    | some state =>
      if info.clOrdId = "" then .protocolWarning "orders item without clOrdId; skipped"
      else
        match mapOkxSide info.side with
        | none => .protocolWarning ("unknown OKX order side \"" ++ info.side ++ "\"; item skipped")
        | some side =>
          .report ⟨info.clOrdId, info.ordId, state, side, info.accFillSz, info.avgPx⟩

/-- The items of an orders message, if it is one. -/
def ordersItems? (message : Json) : Option (List Json) :=
  match message.find? "arg", message.find? "data" with
  | some (.obj _), some (.arr items) => some items
  | _, _ => none

/-- No accessor throws here. -/
def dispatchOrdersMessage (message : Json) : List FeedEffect :=
  match ordersItems? message with
  | none => [.protocolWarning ("malformed orders message: " ++ library.dump message)]
  | some items => items.map (dispatchItem library)

end Okx

/-! ### Computations that may throw -/

/-- It does not throw, and the result has the property. -/
def Returns {α : Type} (computation : Option α) (property : α → Prop) : Prop :=
  ∃ value, computation = some value ∧ property value

@[simp] theorem returns_some {α : Type} {value : α} {property : α → Prop} :
    Returns (some value) property ↔ property value := by
  constructor
  · intro ⟨_, hvalue, hproperty⟩
    cases hvalue
    exact hproperty
  · intro hproperty
    exact ⟨value, rfl, hproperty⟩

@[simp] theorem not_returns_none {α : Type} {property : α → Prop} :
    ¬ Returns (none : Option α) property := by
  intro ⟨_, hvalue, _⟩
  cases hvalue

theorem returns_bind {α β : Type} {computation : Option α} {next : α → Option β}
    {property : β → Prop} :
    Returns (computation.bind next) property ↔
      Returns computation fun value => Returns (next value) property := by
  cases computation <;> simp

/-! ### Binance frames -/

namespace Binance.Feed

variable {library : Json.Library}

/-- The field is absent or a text, so that `value` does not throw. -/
def Textual (node : Json) (name : String) : Prop :=
  ∀ value, node.find? name = some value → ∃ text, value = .str text

theorem textual_of_find? {node value : Json} {name : String} (h : node.find? name = some value) :
    Textual node name ↔ ∃ text, value = .str text := by
  unfold Textual
  rw [h]
  simp

theorem textual_of_absent {node : Json} {name : String} (h : node.find? name = none) :
    Textual node name := by
  intro value hvalue
  rw [h] at hvalue
  cases hvalue

/-- A text field is read without an exception exactly when it is absent or a text. -/
theorem returns_text {node : Json} {name : String} {property : String → Prop} :
    Returns (text? node name) property ↔
      Textual node name ∧ property (stringField node name) := by
  unfold text? Json.value? stringField
  cases hfind : node.find? name with
  | none => simp [textual_of_absent hfind]
  | some value =>
    rw [textual_of_find? hfind]
    cases value <;> simp [Json.string?]

theorem find?_of_stringField {node : Json} {name : String} (h : stringField node name ≠ "") :
    node.find? name = some (.str (stringField node name)) := by
  unfold stringField at h ⊢
  cases hfind : node.find? name with
  | none =>
    rw [hfind] at h
    exact absurd rfl h
  | some value =>
    cases value with
    | str text => rfl
    | _ =>
      rw [hfind] at h
      exact absurd rfl h

/-- The client order id of a report: the original one, if there is one. -/
def reportedId (event : Json) : String :=
  if stringField event "C" = "" then stringField event "c" else stringField event "C"

/-- The id and the fills of a report that is forwarded: an integer of 64 bits, and texts. -/
def ForwardTyped (event : Json) : Prop :=
  (∃ id, (event.find? "i").bind Json.integer? = some id ∧ fitsLl id) ∧ Textual event "z" ∧
    Textual event "Z"

/-- The fields of a report are read in order, up to the first that gets it skipped; those read are
texts. -/
def ReportTyped (event : Json) : Prop :=
  Textual event "C" ∧ (stringField event "C" = "" → Textual event "c") ∧
    (reportedId event ≠ "" → Textual event "X" ∧
      ((mapBinanceState (stringField event "X")).isSome → Textual event "S" ∧
        ((mapBinanceSide (stringField event "S")).isSome → ForwardTyped event)))

structure Reflects (event : Json) (report : ExecutionReport) : Prop where
  clientOrderId : report.clientOrderId ≠ "" ∧
    (event.find? "C" = some (.str report.clientOrderId) ∨
      stringField event "C" = "" ∧ event.find? "c" = some (.str report.clientOrderId))
  exchangeOrderId : ∃ id, (event.find? "i").bind Json.integer? = some id ∧
    report.exchangeOrderId = toString id
  state : ∃ text, event.find? "X" = some (.str text) ∧ mapBinanceState text = some report.state
  side : ∃ text, event.find? "S" = some (.str text) ∧ mapBinanceSide text = some report.side
  filledQuantity : event.find? "z" = some (.str report.filledQuantity) ∨
    event.find? "z" = none ∧ report.filledQuantity = ""

def Handled (event : Json) (effects : List FeedEffect) : Prop :=
  (∃ detail, effects = [.protocolWarning detail]) ∨
    ∃ report, effects = [.report report] ∧ Reflects event report

theorem handled_warning (event : Json) (detail : String) :
    Handled event [.protocolWarning detail] := Or.inl ⟨detail, rfl⟩

theorem reportedId_spec {event : Json} (h : reportedId event ≠ "") :
    event.find? "C" = some (.str (reportedId event)) ∨
      stringField event "C" = "" ∧ event.find? "c" = some (.str (reportedId event)) := by
  unfold reportedId at h ⊢
  split_ifs at h ⊢ with hempty
  · exact Or.inr ⟨hempty, find?_of_stringField h⟩
  · exact Or.inl (find?_of_stringField h)

theorem find?_of_textual {node : Json} {name : String} (h : Textual node name) :
    node.find? name = some (.str (stringField node name)) ∨
      node.find? name = none ∧ stringField node name = "" := by
  unfold stringField
  cases hfind : node.find? name with
  | none => exact Or.inr ⟨rfl, rfl⟩
  | some value =>
    obtain ⟨text, rfl⟩ := h value hfind
    exact Or.inl rfl

theorem toLongLong?_of_integer {value : Json} {id : ℤ} (h : value.integer? = some id) :
    value.toLongLong? library = some (longLong id) := by
  cases value with
  | unsigned n =>
    cases h
    rfl
  | integer n =>
    cases h
    rfl
  | _ => cases h

theorem returns_clientOrderId {event : Json} {property : String → Prop} :
    Returns (clientOrderId? event) property ↔
      Textual event "C" ∧ (stringField event "C" = "" → Textual event "c") ∧
        property (reportedId event) := by
  unfold clientOrderId? reportedId
  simp only [Option.bind_eq_bind, returns_bind, returns_text]
  split_ifs with hempty
  · simp [returns_text, hempty]
  · simp [hempty]

/-- The id that is forwarded is the one of the event only if that is an integer of 64 bits. -/
theorem returns_orderId {event : Json} {property : ℤ → Prop} :
    Returns (event.value? (Json.toLongLong? library) "i" 0) (fun orderId => property orderId ∧
        ∃ id, (event.find? "i").bind Json.integer? = some id ∧ toString orderId = toString id) ↔
      ∃ id, (event.find? "i").bind Json.integer? = some id ∧ fitsLl id ∧ property id := by
  unfold Json.value?
  cases hfind : event.find? "i" with
  | none => simp
  | some value =>
    simp only [Option.bind_some]
    constructor
    · intro ⟨orderId, hread, hproperty, id, hid, htext⟩
      have horder : orderId = id := IntText.toString_inj htext
      rw [toLongLong?_of_integer hid] at hread
      have hlong : longLong id = id := (Option.some.inj hread).trans horder
      refine ⟨id, hid, ?_, horder ▸ hproperty⟩
      rw [← hlong]
      exact Decimal.fitsLl_longLong id
    · intro ⟨id, hid, hfits, hproperty⟩
      refine ⟨id, ?_, hproperty, id, hid, rfl⟩
      rw [toLongLong?_of_integer hid, Decimal.longLong_eq hfits]

theorem handled_report {event : Json} {report : ExecutionReport} :
    Handled event [.report report] ↔ Reflects event report := by
  constructor
  · rintro (⟨_, hwarning⟩ | ⟨_, hreport, hreflects⟩)
    · cases hwarning
    · cases hreport
      exact hreflects
  · intro hreflects
    exact Or.inr ⟨report, rfl, hreflects⟩

/-- An empty text has no meaning, so a field that has one is there. -/
theorem find?_of_meaning {α : Type} {meaning : String → Option α} {node : Json} {name : String}
    {value : α} (hempty : meaning "" = none) (h : meaning (stringField node name) = some value) :
    node.find? name = some (.str (stringField node name)) := by
  apply find?_of_stringField
  intro htext
  rw [htext, hempty] at h
  cases h

/-- All that can be wrong with the report of a typed event is its order id. -/
theorem reflects_iff {event : Json} {state : OrderState} {side : Side} {orderId : ℤ}
    {price : String} (hid : reportedId event ≠ "")
    (hstate : mapBinanceState (stringField event "X") = some state)
    (hside : mapBinanceSide (stringField event "S") = some side) (hfilled : Textual event "z") :
    Reflects event ⟨reportedId event, toString orderId, state, side, stringField event "z", price⟩ ↔
      ∃ id, (event.find? "i").bind Json.integer? = some id ∧ toString orderId = toString id := by
  constructor
  · intro h
    exact h.exchangeOrderId
  · intro h
    constructor
    · exact ⟨hid, reportedId_spec hid⟩
    · exact h
    · exact ⟨_, find?_of_meaning rfl hstate, hstate⟩
    · exact ⟨_, find?_of_meaning rfl hside, hside⟩
    · exact find?_of_textual hfilled

theorem returns_forward {event : Json} {state : OrderState} {side : Side}
    (hid : reportedId event ≠ "") (hstate : mapBinanceState (stringField event "X") = some state)
    (hside : mapBinanceSide (stringField event "S") = some side) :
    Returns (forward? library event (reportedId event) state side) (Handled event) ↔
      ForwardTyped event := by
  have hstep (orderId : ℤ) :
      (Textual event "z" ∧ Textual event "Z" ∧ Handled event [.report ⟨reportedId event,
          toString orderId, state, side, stringField event "z",
          averagePrice (stringField event "Z") (stringField event "z")⟩]) ↔
        (Textual event "z" ∧ Textual event "Z") ∧
          ∃ id, (event.find? "i").bind Json.integer? = some id ∧ toString orderId = toString id := by
    rw [and_assoc, handled_report]
    apply and_congr_right
    intro hfilled
    rw [reflects_iff hid hstate hside hfilled]
  unfold forward? ForwardTyped
  simp only [Option.bind_eq_bind, returns_bind, returns_text, Option.pure_def, returns_some, hstep]
  rw [returns_orderId]
  constructor
  · intro ⟨id, hfind, hfits, hfills⟩
    exact ⟨⟨id, hfind, hfits⟩, hfills⟩
  · intro ⟨⟨id, hfind, hfits⟩, hfills⟩
    exact ⟨id, hfind, hfits, hfills⟩

/-- An event that says it is a report is handled exactly when its fields are typed. -/
theorem returns_executionReport {event : Json} :
    Returns (executionReport? library event) (Handled event) ↔ ReportTyped event := by
  unfold executionReport? ReportTyped
  simp only [Option.bind_eq_bind, returns_bind, returns_clientOrderId]
  apply and_congr_right
  intro _
  apply and_congr_right
  intro _
  split_ifs with hid
  · simp [hid, handled_warning]
  · simp only [returns_bind, returns_text, ne_eq, hid, not_false_eq_true, true_implies]
    apply and_congr_right
    intro _
    cases hstate : mapBinanceState (stringField event "X") with
    | none => simp [handled_warning]
    | some state =>
      simp only [returns_bind, returns_text, Option.isSome_some, true_implies]
      apply and_congr_right
      intro _
      cases hside : mapBinanceSide (stringField event "S") with
      | none => simp [handled_warning]
      | some side => simp [returns_forward hid hstate hside]

def frameObject? (library : Json.Library) (message : String) : Option Json :=
  (library.parse message).filter Json.isObject

def frameEvent? (library : Json.Library) (message : String) : Option Json :=
  ((frameObject? library message).bind (·.find? "event")).filter Json.isObject

/-- The request the frame answers, with the response. -/
def frameResponse? (library : Json.Library) (message : String) : Option (ℤ × Json) :=
  if (frameEvent? library message).isSome then none
  else (frameObject? library message).bind fun parsed => (requestId? parsed).map (·, parsed)

theorem dispatchMessage_of_object {pending : List ℤ} {message : String} {parsed : Json}
    (h : frameObject? library message = some parsed) :
    dispatchMessage library pending message =
      match frameEvent? library message with
      | some event => dispatchEvent library pending event
      | none => some (dispatchResponse pending message parsed) := by
  unfold frameEvent?
  rw [h]
  obtain ⟨hparse, hobject⟩ := Option.filter_eq_some_iff.mp h
  unfold dispatchMessage
  simp only [hparse, hobject, Option.bind_some]
  cases parsed.find? "event" with
  | none => rfl
  | some event => cases hevent : event.isObject <;> simp [Option.filter, hevent]

theorem dispatchMessage_of_not_object {pending : List ℤ} {message : String}
    (h : frameObject? library message = none) :
    dispatchMessage library pending message =
      some { pending, effects := [.protocolWarning "non-JSON text frame skipped"] } := by
  unfold dispatchMessage
  cases hparse : library.parse message with
  | none => rfl
  | some parsed =>
    have hobject := Option.filter_eq_none_iff.mp h parsed hparse
    simp [hobject]

def EventTyped (event : Json) : Prop :=
  Textual event "e" ∧ (stringField event "e" = "executionReport" → ReportTyped event)

/-- What `get<int>` converts. -/
def Numeric : Json → Prop
  | .bool _ | .unsigned _ | .integer _ | .float _ => True
  | _ => False

def ErrorTyped (response : Json) : Prop :=
  ∀ error, response.find? "error" = some error →
    (∀ code, error.find? "code" = some code → Numeric code) ∧ Textual error "msg"

/-- The call reads the error of a response that is neither a success nor a 5xx. -/
def ResponseTyped (response : Json) : Prop :=
  ∀ status, statusOf response = some status → status ≠ 200 → status < 500 → ErrorTyped response

/-- The frame is contained: what it reports is handled, what it does not report is not forwarded,
and only the call it answers, which decodes the response, stops waiting. -/
structure Contained (library : Json.Library) (pending : List ℤ) (message : String)
    (outcome : Outcome) : Prop where
  reported : ∀ event, frameEvent? library message = some event →
    stringField event "e" = "executionReport" → Handled event outcome.effects
  unreported : (∀ event, frameEvent? library message = some event →
    stringField event "e" ≠ "executionReport") → ∀ report, .report report ∉ outcome.effects
  skipped : frameEvent? library message = none → frameResponse? library message = none →
    ∃ detail, outcome.effects = [.protocolWarning detail]
  completed : ∀ id response, outcome.completed = some (id, response) ↔
    frameResponse? library message = some (id, response) ∧ id ∈ pending
  decoded : ∀ id response method, outcome.completed = some (id, response) →
    Returns (call library method ⟨id, .frame message⟩) fun _ => True
  others : ∀ id, id ∈ outcome.pending ↔
    id ∈ pending ∧ ∀ response, outcome.completed ≠ some (id, response)

/-- The fields the gateway reads from the frame have the type it reads them at. -/
structure FrameTyped (library : Json.Library) (pending : List ℤ) (message : String) : Prop where
  event : ∀ event, frameEvent? library message = some event → EventTyped event
  response : ∀ id response, frameResponse? library message = some (id, response) → id ∈ pending →
    ResponseTyped response

theorem returns_code {error : Json} {property : Prop} :
    Returns (((error.find? "code").map (Json.toInt? library)).getD (some 0)) (fun _ => property) ↔
      (∀ code, error.find? "code" = some code → Numeric code) ∧ property := by
  cases error.find? "code" with
  | none => simp
  | some code => cases code <;> simp [Json.toInt?, Numeric]

theorem returns_message {error : Json} {default : String} {property : Prop} :
    Returns (((error.find? "msg").map Json.string?).getD (some default)) (fun _ => property) ↔
      Textual error "msg" ∧ property := by
  unfold Textual
  cases error.find? "msg" with
  | none => simp
  | some message => cases message <;> simp [Json.string?]

theorem returns_errorOf {response : Json} :
    Returns (errorOf library response) (fun _ => True) ↔ ErrorTyped response := by
  unfold errorOf ErrorTyped
  cases response.find? "error" with
  | none => simp
  | some error =>
    cases hobject : error.isObject with
    | false =>
      have hfind (name : String) : error.find? name = none := by
        cases error with
        | obj => cases hobject
        | _ => rfl
      simp [hobject, hfind, Textual]
    | true =>
      simp [hobject, returns_bind, returns_code, returns_message]

/-- A response is decoded without an exception exactly when its error object is typed. -/
theorem returns_classify {response : Json} :
    Returns (classify library response) (fun _ => True) ↔ ResponseTyped response := by
  unfold classify ResponseTyped
  cases statusOf response with
  | none => simp
  | some status =>
    by_cases hok : status = 200
    · cases response.find? "result" <;> simp [hok]
    · by_cases hunknown : status ≥ 500
      · simp [hok, hunknown]
      · have hlt : status < 500 := not_le.mp hunknown
        rw [← @returns_errorOf library]
        simp [hok, hlt, hunknown, Option.map_eq_bind, returns_bind]

theorem frameResponse?_of_event {message : String} {event : Json}
    (h : frameEvent? library message = some event) : frameResponse? library message = none := by
  unfold frameResponse?
  rw [h]
  rfl

theorem contained_of_event {pending : List ℤ} {message : String} {event : Json}
    {effects : List FeedEffect} {reason : Option String}
    (h : frameEvent? library message = some event) :
    Contained library pending message { pending, effects, terminateReason := reason } ↔
      (stringField event "e" = "executionReport" → Handled event effects) ∧
        (stringField event "e" ≠ "executionReport" → ∀ report, .report report ∉ effects) := by
  constructor
  · intro hcontained
    constructor
    · exact hcontained.reported event h
    · intro htype
      apply hcontained.unreported
      intro other hother
      rw [h] at hother
      cases hother
      exact htype
  · intro ⟨hreported, hunreported⟩
    constructor
    · intro other hother
      rw [h] at hother
      cases hother
      exact hreported
    · intro htype
      exact hunreported (htype event h)
    · intro hnone
      rw [h] at hnone
      cases hnone
    · simp [frameResponse?_of_event h]
    · simp
    · simp

theorem returns_dispatchEvent {pending : List ℤ} {message : String} {event : Json}
    (h : frameEvent? library message = some event) :
    Returns (dispatchEvent library pending event) (Contained library pending message) ↔
      EventTyped event := by
  have hobject : event.isObject := (Option.filter_eq_some_iff.mp h).2
  unfold dispatchEvent EventTyped
  simp only [Option.bind_eq_bind, returns_bind, returns_text]
  apply and_congr_right
  intro htext
  split_ifs with hshutdown hterminated
  · simp [contained_of_event h, hshutdown]
  · simp [contained_of_event h, hterminated]
  · unfold handleUserEvent
    by_cases htype : stringField event "e" = "executionReport"
    · have hreport := @returns_executionReport library event
      simp [returns_bind, returns_text, hobject, htext, htype, contained_of_event h, hreport]
    · simp [returns_bind, returns_text, hobject, htext, htype, contained_of_event h]

theorem frameResponse?_of_object {message : String} {parsed : Json}
    (hevent : frameEvent? library message = none)
    (hobject : frameObject? library message = some parsed) :
    frameResponse? library message = (requestId? parsed).map (·, parsed) := by
  unfold frameResponse?
  rw [hevent, hobject]
  rfl

theorem frameResponse?_of_parse {message : String} {parsed : Json}
    (h : library.parse message = some parsed) :
    frameResponse? library message =
      if !parsed.isObject ∨ (parsed.find? "event").any Json.isObject then none
      else (((parsed.find? "id").bind Json.integer?).map longLong).map (·, parsed) := by
  unfold frameResponse? frameEvent? frameObject? requestId?
  rw [h]
  cases hobject : parsed.isObject with
  | false => simp [Option.filter, hobject]
  | true =>
    have hparsed : (some parsed).filter Json.isObject = some parsed := by simp [hobject]
    rw [hparsed, Option.bind_some, Option.isSome_filter]
    simp

theorem frameResponse?_of_discarded {message : String} (h : library.parse message = none) :
    frameResponse? library message = none := by
  unfold frameResponse? frameEvent? frameObject?
  rw [h]
  rfl

/-- What the feed hands over is what the call that waits for `id` takes as its response. -/
theorem frameResponse?_eq_iff {message : String} {id : ℤ} {response : Json} :
    frameResponse? library message = some (id, response) ↔
      Binance.dispatchMessage library id message = some response := by
  unfold Binance.dispatchMessage
  cases hparse : library.parse message with
  | none => simp [frameResponse?_of_discarded hparse]
  | some parsed =>
    rw [frameResponse?_of_parse hparse]
    dsimp only
    split_ifs with hevent hid
    · simp
    · simp [hid]
    · constructor
      · intro hresponse
        obtain ⟨other, hother, hpair⟩ := Option.map_eq_some_iff.mp hresponse
        cases hpair
        exact absurd hother hid
      · intro hnone
        cases hnone

theorem call_of_response {message : String} {id : ℤ} {response : Json}
    (h : frameResponse? library message = some (id, response)) (method : String) :
    call library method ⟨id, .frame message⟩ = classify library response := by
  simp only [call, frameResponse?_eq_iff.mp h]

/-- The response goes to the call that waits for its id, and to no other. -/
theorem contained_of_response {pending : List ℤ} {message : String} {id : ℤ} {parsed : Json}
    (hevent : frameEvent? library message = none)
    (hresponse : frameResponse? library message = some (id, parsed)) (hid : id ∈ pending) :
    Contained library pending message
        { pending := pending.filter (· ≠ id), completed := some (id, parsed) } ↔
      ResponseTyped parsed := by
  have hcall := call_of_response hresponse
  rw [← @returns_classify library]
  constructor
  · intro hcontained
    rw [← hcall ""]
    exact hcontained.decoded id parsed "" rfl
  · intro hdecoded
    constructor
    · simp [hevent]
    · simp
    · simp [hresponse]
    · intro other response
      simp only [hresponse, Option.some.injEq, Prod.mk.injEq]
      constructor
      · intro ⟨hother, hsame⟩
        exact ⟨⟨hother, hsame⟩, hother ▸ hid⟩
      · intro h
        exact h.1
    · intro other response method hsame
      cases hsame
      rw [hcall method]
      exact hdecoded
    · intro other
      have hsame : ¬ other = id ↔ ¬ id = other := not_congr eq_comm
      simp [hsame]

theorem contained_of_late {pending : List ℤ} {message : String} {id : ℤ} {parsed : Json}
    (hevent : frameEvent? library message = none)
    (hresponse : frameResponse? library message = some (id, parsed)) (hid : id ∉ pending) :
    Contained library pending message { pending } := by
  constructor
  · simp [hevent]
  · simp
  · simp [hresponse]
  · intro other response
    simp only [hresponse, Option.some.injEq, Prod.mk.injEq, reduceCtorEq, false_iff]
    intro ⟨⟨hother, _⟩, hmem⟩
    exact hid (hother ▸ hmem)
  · simp
  · simp

theorem contained_of_unrecognized {pending : List ℤ} {message detail : String}
    (hevent : frameEvent? library message = none)
    (h : frameResponse? library message = none) :
    Contained library pending message { pending, effects := [.protocolWarning detail] } := by
  constructor
  · simp [hevent]
  · simp
  · simp
  · simp [h]
  · simp
  · simp

theorem returns_dispatchResponse {pending : List ℤ} {message : String} {parsed : Json}
    (hevent : frameEvent? library message = none)
    (hobject : frameObject? library message = some parsed) :
    Contained library pending message (dispatchResponse pending message parsed) ↔
      ∀ id response, frameResponse? library message = some (id, response) → id ∈ pending →
        ResponseTyped response := by
  have hresponse := frameResponse?_of_object hevent hobject
  unfold dispatchResponse
  cases hrequest : requestId? parsed with
  | none =>
    rw [hrequest] at hresponse
    simp [hresponse, contained_of_unrecognized hevent hresponse]
  | some id =>
    rw [hrequest] at hresponse
    by_cases hid : id ∈ pending
    · simp only [if_pos hid, contained_of_response hevent hresponse hid]
      simp [hid, hresponse]
    · simp [hid, hresponse, contained_of_late hevent hresponse hid]

/-- A text frame is contained exactly when the fields the gateway reads from it are typed. -/
theorem returns_dispatchMessage {pending : List ℤ} {message : String} :
    Returns (dispatchMessage library pending message) (Contained library pending message) ↔
      FrameTyped library pending message := by
  cases hobject : frameObject? library message with
  | none =>
    have hevent : frameEvent? library message = none := by
      unfold frameEvent?
      rw [hobject]
      rfl
    have hresponse : frameResponse? library message = none := by
      unfold frameResponse?
      rw [hevent, hobject]
      rfl
    rw [dispatchMessage_of_not_object hobject, returns_some]
    constructor
    · intro _
      constructor
      · simp [hevent]
      · simp [hresponse]
    · intro _
      exact contained_of_unrecognized hevent hresponse
  | some parsed =>
    rw [dispatchMessage_of_object hobject]
    cases hevent : frameEvent? library message with
    | some event =>
      rw [returns_dispatchEvent hevent]
      constructor
      · intro htyped
        constructor
        · simpa [hevent] using htyped
        · simp [frameResponse?_of_event hevent]
      · intro htyped
        exact htyped.event event hevent
    | none =>
      rw [returns_some, returns_dispatchResponse hevent hobject]
      constructor
      · intro htyped
        constructor
        · simp [hevent]
        · exact htyped
      · intro htyped
        exact htyped.response

end Binance.Feed

/-! ### OKX orders messages -/

namespace Okx

/-- The text of a field: a string as it is, another value as it is written. -/
inductive FieldText (library : Json.Library) (item : Json) (name : String) : String → Prop
  | string {text : String} : item.find? name = some (.str text) → FieldText library item name text
  | written {value : Json} : item.find? name = some value → value ≠ .null →
      value.string? = none → FieldText library item name (library.dump value)
  | null : item.find? name = some .null → FieldText library item name ""
  | absent : item.find? name = none → FieldText library item name ""

structure Reflects (library : Json.Library) (item : Json) (report : ExecutionReport) : Prop where
  clientOrderId : report.clientOrderId ≠ "" ∧
    FieldText library item "clOrdId" report.clientOrderId
  exchangeOrderId : FieldText library item "ordId" report.exchangeOrderId
  state : ∃ text, FieldText library item "state" text ∧ mapOkxState text = some report.state
  side : ∃ text, FieldText library item "side" text ∧ mapOkxSide text = some report.side
  filledQuantity : FieldText library item "accFillSz" report.filledQuantity

def Handled (library : Json.Library) (item : Json) (effect : FeedEffect) : Prop :=
  (∃ detail, effect = .protocolWarning detail) ∨
    ∃ report, effect = .report report ∧ Reflects library item report

/-- Each item has its own effect; a message without items is skipped. -/
structure Contained (library : Json.Library) (message : Json) (effects : List FeedEffect) :
    Prop where
  malformed : ordersItems? message = none → ∃ detail, effects = [.protocolWarning detail]
  items : ∀ items, ordersItems? message = some items →
    List.Forall₂ (Handled library) items effects

variable {library : Json.Library}

theorem fieldString_spec (item : Json) (name : String) :
    FieldText library item name (fieldString library item name) := by
  unfold fieldString
  cases hfind : item.find? name with
  | none => exact .absent hfind
  | some value =>
    cases value with
    | null => exact .null hfind
    | str text => exact .string hfind
    | _ => exact .written hfind nofun rfl

theorem dispatchItem_handled (item : Json) : Handled library item (dispatchItem library item) := by
  simp only [dispatchItem]
  split_ifs with hobject hid
  · exact Or.inl ⟨_, rfl⟩
  · cases mapOkxState (parseOrderInfo library item).state <;> exact Or.inl ⟨_, rfl⟩
  · cases hstate : mapOkxState (parseOrderInfo library item).state with
    | none => exact Or.inl ⟨_, rfl⟩
    | some state =>
      cases hside : mapOkxSide (parseOrderInfo library item).side with
      | none => exact Or.inl ⟨_, rfl⟩
      | some side =>
        refine Or.inr ⟨_, rfl, ?_⟩
        constructor
        · exact ⟨hid, fieldString_spec item _⟩
        · exact fieldString_spec item _
        · exact ⟨_, fieldString_spec item _, hstate⟩
        · exact ⟨_, fieldString_spec item _, hside⟩
        · exact fieldString_spec item _

theorem dispatchOrdersMessage_contained (message : Json) :
    Contained library message (dispatchOrdersMessage library message) := by
  unfold dispatchOrdersMessage
  constructor
  · intro hnone
    rw [hnone]
    exact ⟨_, rfl⟩
  · intro items hitems
    rw [hitems]
    exact List.forall₂_map_right_iff.mpr
      (List.forall₂_same.mpr fun item _ => dispatchItem_handled item)

end Okx

/-- A Binance frame is contained exactly when the fields read from it are typed; an OKX message
always is. -/
theorem frames_contained_iff (library : Json.Library) (pending : List ℤ) (message : String)
    (orders : Json) :
    (Returns (Binance.Feed.dispatchMessage library pending message)
        (Binance.Feed.Contained library pending message) ↔
      Binance.Feed.FrameTyped library pending message) ∧
      Okx.Contained library orders (Okx.dispatchOrdersMessage library orders) := by
  constructor
  · exact Binance.Feed.returns_dispatchMessage
  · exact Okx.dispatchOrdersMessage_contained orders

namespace Binance.Feed

def numericType : Json := .obj [("event", .obj [("e", .unsigned 5)])]

def missingId : Json :=
  .obj [("event", .obj [("S", .str "BUY"), ("X", .str "NEW"), ("c", .str "gw1"),
    ("e", .str "executionReport")])]

def textCode : Json :=
  .obj [("error", .obj [("code", .str "-1021")]), ("id", .unsigned 1), ("status", .unsigned 400)]

def numericTypeText : String := "\x7b\"event\":\x7b\"e\":5\x7d\x7d"

def missingIdText : String :=
  "\x7b\"event\":\x7b\"S\":\"BUY\",\"X\":\"NEW\",\"c\":\"gw1\",\"e\":\"executionReport\"\x7d\x7d"

def textCodeText : String :=
  "\x7b\"error\":\x7b\"code\":\"-1021\"\x7d,\"id\":1,\"status\":400\x7d"

def mistypedLibrary : Json.Library where
  parse text := if text = numericTypeText then some numericType
    else if text = missingIdText then some missingId
    else if text = textCodeText then some textCode else none
  dump _ := ""
  truncate _ := 0

/-- The first frame throws in the feed, the second is forwarded with the order id 0, and the third
throws in the call it completes. -/
theorem mistyped_frames_escape :
    (dispatchMessage mistypedLibrary [1] numericTypeText = none ∧
      ¬ Returns (dispatchMessage mistypedLibrary [1] numericTypeText)
        (Contained mistypedLibrary [1] numericTypeText)) ∧
      (dispatchMessage mistypedLibrary [1] missingIdText =
          some { pending := [1], effects := [.report ⟨"gw1", "0", .live, .buy, "", ""⟩] } ∧
        ¬ Returns (dispatchMessage mistypedLibrary [1] missingIdText)
          (Contained mistypedLibrary [1] missingIdText)) ∧
      (dispatchMessage mistypedLibrary [1] textCodeText =
          some { pending := [], completed := some (1, textCode) } ∧
        call mistypedLibrary "order.place" ⟨1, .frame textCodeText⟩ = none ∧
        ¬ Returns (dispatchMessage mistypedLibrary [1] textCodeText)
          (Contained mistypedLibrary [1] textCodeText)) := by
  refine ⟨⟨rfl, ?_⟩, ⟨rfl, ?_⟩, rfl, rfl, ?_⟩
  · rw [returns_dispatchMessage]
    intro htyped
    obtain ⟨text, htext⟩ := (htyped.event _ rfl).1 _ rfl
    cases htext
  · rw [returns_dispatchMessage]
    intro htyped
    obtain ⟨-, -, hstate⟩ := (htyped.event _ rfl).2 rfl
    obtain ⟨-, hside⟩ := hstate (by decide)
    obtain ⟨-, hid⟩ := hside rfl
    obtain ⟨⟨id, hfind, -⟩, -⟩ := hid rfl
    cases hfind
  · rw [returns_dispatchMessage]
    intro htyped
    have herror := htyped.response 1 textCode rfl (by decide) 400 rfl (by decide) (by decide)
    have hcode := (herror _ rfl).1 _ rfl
    exact hcode

end Binance.Feed

end ExchangeGateway
