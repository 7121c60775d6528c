import ExchangeGateway.Core.Oms
import ExchangeGateway.Rest.Support

/-! The order routes (`rest/order_routes.cpp`): what a body has to satisfy before the handler calls
the OMS, and what it passes on. Latency stamps are left out. -/
namespace ExchangeGateway.Rest

def kMaxClientOrderIdLength : ℕ := 32

def toLower (text : String) : String := String.ofList (text.toList.map Char.toLower)

def toUpper (text : String) : String := String.ofList (text.toList.map Char.toUpper)

def isAsciiAlnum (c : Char) : Bool :=
  ('0' ≤ c && c ≤ '9') || ('a' ≤ c && c ≤ 'z') || ('A' ≤ c && c ≤ 'Z')

def isValidClientOrderId (id : String) : Bool :=
  !(id = "" || id.utf8ByteSize > kMaxClientOrderIdLength) && id.toList.all isAsciiAlnum

def parseTimeInForce (text : String) : Option String :=
  let upper := toUpper (toLower text)
  if upper = "GTC" || upper = "IOC" || upper = "FOK" then some upper else none

/-! ### `POST /orders` -/

def placeFields : List String :=
  ["clientOrderId", "venue", "symbol", "side", "type", "price", "quantity", "timeInForce"]

/-- The venue a body asks for; empty for the default one. -/
def venueOf (venues : List String) (body : Json) (clientOrderId : String) :
    Except Response String :=
  match optionalStringField body "venue" with
  | none => .ok ""
  | some venue =>
    if toLower venue ∈ venues then .ok (toLower venue)
    else .error (invalidRequest ("unsupported venue \"" ++ venue ++ "\" (supported: " ++
      joinNames (venues.map toUpper) ++ ")") clientOrderId)

/-- Only limit orders have a time in force. -/
def timeInForceOf (body : Json) (type : OrderType) (clientOrderId : String) :
    Except Response String :=
  match optionalStringField body "timeInForce" with
  | none => .ok ""
  | some text =>
    match parseTimeInForce text with
    | none => .error (invalidRequest "timeInForce must be GTC, IOC or FOK" clientOrderId)
    | some normalized =>
      if type = .market then
        .error (invalidRequest "timeInForce only applies to limit orders" clientOrderId)
      else .ok normalized

/-- The request and the venue the handler calls `place` with, or its answer. -/
def placeRequest (venues : List String) (body : Json) : Except Response (OrderRequest × String) := do
  let unknown := unknownFields body placeFields
  require (unknown = "") (invalidRequest ("unsupported field(s): " ++ unknown ++
    " (exchange-specific fields are rejected; use the common schema)")
    (stringField body "clientOrderId"))
  let clientOrderId := stringField body "clientOrderId"
  require (clientOrderId ≠ "") (invalidRequest "clientOrderId is required" "")
  require (isValidClientOrderId clientOrderId)
    (invalidRequest "clientOrderId must be 1-32 alphanumeric characters" clientOrderId)
  let venue ← venueOf venues body clientOrderId
  let symbol := stringField body "symbol"
  require (symbol ≠ "") (invalidRequest "symbol is required" clientOrderId)
  let side ← orAnswer (parseSide (stringField body "side"))
    (invalidRequest "side must be buy or sell" clientOrderId)
  let type ← orAnswer (parseOrderType (stringField body "type"))
    (invalidRequest "type must be limit or market" clientOrderId)
  let timeInForce ← timeInForceOf body type clientOrderId
  let price := stringField body "price"
  let quantity := stringField body "quantity"
  require (quantity ≠ "" && isDecimal quantity)
    (invalidRequest "quantity must be a positive decimal" clientOrderId)
  require (price = "" || isDecimal price)
    (invalidRequest "price must be a positive decimal" clientOrderId)
  require (!(type = .limit && price = ""))
    (invalidRequest "price is required for limit orders" clientOrderId)
  require (!(type = .market && price ≠ ""))
    (invalidRequest "price is not allowed for market orders" clientOrderId)
  return (⟨clientOrderId, symbol, side, type, price, quantity, timeInForce⟩, venue)

def placedResponse (outcome : PlaceOutcome) : Response where
  status := if outcome.record.state = .pending then 202 else 201
  body := .obj [("clientOrderId", .str outcome.record.clientOrderId),
    ("exchangeOrderId", .str outcome.record.exchangeOrderId),
    ("symbol", .str outcome.record.symbol), ("venue", .str outcome.record.venue),
    ("state", .str outcome.record.state.toString), ("replayed", .bool outcome.replayed)]

/-- The handler; `place` is the OMS. -/
def postOrders (library : Json.Library) (venues : List String)
    (place : OrderRequest → String → Result PlaceOutcome) (text : String) :
    Response × Option (OrderRequest × String) :=
  answer (parseJsonBody library text >>= placeRequest venues) fun (request, venue) =>
    match place request venue with
    | .error error => mapError error request.clientOrderId
    | .ok outcome => placedResponse outcome

/-! ### `PUT /orders/{id}` -/

def amendFields : List String := ["price", "quantity"]

def amendCommand (clientOrderId : String) (body : Json) : Except Response AmendCommand := do
  let unknown := unknownFields body amendFields
  require (unknown = "") (invalidRequest ("unsupported field(s): " ++ unknown ++
    " (amend accepts price and/or quantity)") clientOrderId)
  let newPrice := optionalStringField body "price"
  let newQuantity := optionalStringField body "quantity"
  require (newPrice.isSome || newQuantity.isSome)
    (invalidRequest "amend requires price and/or quantity" clientOrderId)
  require (newPrice.all fun price => price ≠ "" && isDecimal price)
    (invalidRequest "price must be a positive decimal" clientOrderId)
  require (newQuantity.all fun quantity => quantity ≠ "" && isDecimal quantity)
    (invalidRequest "quantity must be a positive decimal" clientOrderId)
  return ⟨clientOrderId, newPrice, newQuantity⟩

def amendedResponse (record : OrderRecord) : Response where
  status := 200
  body := .obj [("clientOrderId", .str record.clientOrderId),
    ("exchangeOrderId", .str record.exchangeOrderId), ("symbol", .str record.symbol),
    ("state", .str record.state.toString), ("price", .str record.price),
    ("quantity", .str record.quantity)]

/-- The handler; `amend` is the OMS. -/
def putOrder (library : Json.Library) (amend : AmendCommand → Result OrderRecord)
    (clientOrderId text : String) : Response × Option AmendCommand :=
  answer (parseJsonBody library text >>= amendCommand clientOrderId) fun command =>
    match amend command with
    | .error error => mapError error clientOrderId
    | .ok record => amendedResponse record

/-! ### What the handlers accept -/

theorem venueOf_ok {venues : List String} {body : Json} {clientOrderId venue : String} :
    venueOf venues body clientOrderId = .ok venue ↔
      (optionalStringField body "venue" = none ∧ venue = "") ∨
        ∃ text, optionalStringField body "venue" = some text ∧ toLower text ∈ venues ∧
          venue = toLower text := by
  unfold venueOf
  cases optionalStringField body "venue" with
  | none => simp [eq_comm]
  | some text =>
    by_cases hmem : toLower text ∈ venues
    · simp [hmem, eq_comm]
    · simp [hmem]

theorem timeInForceOf_ok {body : Json} {type : OrderType} {clientOrderId timeInForce : String} :
    timeInForceOf body type clientOrderId = .ok timeInForce ↔
      (optionalStringField body "timeInForce" = none ∧ timeInForce = "") ∨
        ∃ text, optionalStringField body "timeInForce" = some text ∧
          parseTimeInForce text = some timeInForce ∧ type ≠ .market := by
  unfold timeInForceOf
  cases optionalStringField body "timeInForce" with
  | none => simp [eq_comm]
  | some text =>
    cases hparse : parseTimeInForce text with
    | none => simp [hparse]
    | some normalized =>
      by_cases htype : type = .market
      · simp [hparse, htype]
      · simp [hparse, htype]

theorem venueOf_accepts {venues : List String} {body : Json} {clientOrderId : String} :
    (∃ venue, venueOf venues body clientOrderId = .ok venue) ↔
      ∀ text, body.find? "venue" = some (.str text) → toLower text ∈ venues := by
  simp only [venueOf_ok, ← optionalStringField_eq_some]
  cases optionalStringField body "venue" <;> simp

theorem timeInForceOf_accepts {body : Json} {type : OrderType} {clientOrderId : String} :
    (∃ timeInForce, timeInForceOf body type clientOrderId = .ok timeInForce) ↔
      ∀ text, body.find? "timeInForce" = some (.str text) →
        (parseTimeInForce text).isSome ∧ type ≠ .market := by
  simp only [timeInForceOf_ok, ← optionalStringField_eq_some]
  cases optionalStringField body "timeInForce" with
  | none => simp
  | some text => simp [Option.isSome_iff_exists]

theorem isDecimal_ne_empty {text : String} (h : isDecimal text) : text ≠ "" := by
  rintro rfl
  cases h

/-- The terms of a body: a price for limit orders only. -/
theorem price_terms {type : OrderType} {price : String} :
    ((price = "" || isDecimal price) = true ∧ (!(type = .limit && price = "")) = true ∧
        (!(type = .market && price ≠ "")) = true) ↔
      (type = .limit → isDecimal price) ∧ (type = .market → price = "") := by
  by_cases hempty : price = ""
  · subst hempty
    cases type <;> simp [show isDecimal "" = false from rfl]
  · cases type <;> simp [hempty]

/-- Everything a request that reaches the OMS satisfies, and nothing else. -/
theorem placeRequest_ok_iff {venues : List String} {body : Json} {request : OrderRequest}
    {venue : String} :
    placeRequest venues body = .ok (request, venue) ↔
      unknownFields body placeFields = "" ∧
      request.clientOrderId = stringField body "clientOrderId" ∧
      isValidClientOrderId request.clientOrderId ∧
      venueOf venues body request.clientOrderId = .ok venue ∧
      request.instrumentId = stringField body "symbol" ∧ request.instrumentId ≠ "" ∧
      parseSide (stringField body "side") = some request.side ∧
      parseOrderType (stringField body "type") = some request.type ∧
      timeInForceOf body request.type request.clientOrderId = .ok request.timeInForce ∧
      request.quantity = stringField body "quantity" ∧ isDecimal request.quantity ∧
      request.price = stringField body "price" ∧
      (request.type = .limit → isDecimal request.price) ∧
      (request.type = .market → request.price = "") := by
  have hid {id : String} (h : isValidClientOrderId id) : id ≠ "" := by
    rintro rfl
    cases h
  simp only [placeRequest, bind_eq_ok, require_ok, orAnswer_ok, exists_const, pure, Except.pure,
    Except.ok.injEq, Prod.mk.injEq, decide_eq_true_eq, Bool.and_eq_true]
  constructor
  · rintro ⟨hknown, -, hvalid, venue', hvenue, hsymbol, side, hside, type, htype, timeInForce, htif,
      hquantity, hprice, hlimit, hmarket, rfl, rfl⟩
    obtain ⟨hlimit', hmarket'⟩ := price_terms.mp ⟨hprice, hlimit, hmarket⟩
    exact ⟨hknown, rfl, hvalid, hvenue, rfl, hsymbol, hside, htype, htif, rfl, hquantity.2, rfl,
      hlimit', hmarket'⟩
  · obtain ⟨id, symbol, side, type, price, quantity, timeInForce⟩ := request
    rintro ⟨hknown, rfl, hvalid, hvenue, rfl, hsymbol, hside, htype, htif, rfl, hquantity, rfl,
      hlimit, hmarket⟩
    obtain ⟨hprice, hlimit', hmarket'⟩ := price_terms.mpr ⟨hlimit, hmarket⟩
    exact ⟨hknown, hid hvalid, hvalid, venue, hvenue, hsymbol, side, hside, type, htype,
      timeInForce, htif, ⟨isDecimal_ne_empty hquantity, hquantity⟩, hprice, hlimit', hmarket', rfl,
      rfl⟩

theorem amendCommand_ok_iff {clientOrderId : String} {body : Json} {command : AmendCommand} :
    amendCommand clientOrderId body = .ok command ↔
      unknownFields body amendFields = "" ∧ command.clientOrderId = clientOrderId ∧
      command.newPrice = optionalStringField body "price" ∧
      command.newQuantity = optionalStringField body "quantity" ∧
      (command.newPrice.isSome ∨ command.newQuantity.isSome) ∧
      (∀ price, command.newPrice = some price → isDecimal price) ∧
      (∀ quantity, command.newQuantity = some quantity → isDecimal quantity) := by
  have hall (value : Option String) : (value.all fun text => text ≠ "" && isDecimal text) = true ↔
      ∀ text, value = some text → isDecimal text := by
    cases value with
    | none => simp
    | some text =>
      simp only [Option.all_some, Bool.and_eq_true, decide_eq_true_eq, Option.some.injEq,
        forall_eq']
      exact ⟨fun h => h.2, fun h => ⟨isDecimal_ne_empty h, h⟩⟩
  obtain ⟨id, newPrice, newQuantity⟩ := command
  simp only [amendCommand, bind_eq_ok, require_ok, exists_const, pure, Except.pure, Except.ok.injEq,
    decide_eq_true_eq, Bool.or_eq_true, hall, AmendCommand.mk.injEq]
  constructor
  · rintro ⟨hknown, hsome, hprice, hquantity, rfl, rfl, rfl⟩
    exact ⟨hknown, rfl, rfl, rfl, hsome, hprice, hquantity⟩
  · rintro ⟨hknown, rfl, rfl, rfl, hsome, hprice, hquantity⟩
    exact ⟨hknown, hsome, hprice, hquantity, rfl, rfl, rfl⟩

/-- The handlers answer 400 themselves. -/
theorem refuses_placeRequest (venues : List String) (body : Json) :
    Refuses (placeRequest venues body) := by
  have hvenue (id : String) : Refuses (venueOf venues body id) := by
    unfold venueOf
    split
    · exact refuses_ok _
    · split_ifs
      · exact refuses_ok _
      · exact refuses_invalidRequest _ _
  have htif (type : OrderType) (id : String) : Refuses (timeInForceOf body type id) := by
    unfold timeInForceOf
    split
    · exact refuses_ok _
    · split
      · exact refuses_invalidRequest _ _
      · split_ifs
        · exact refuses_invalidRequest _ _
        · exact refuses_ok _
  refine .bind (refuses_require _ _ _) fun _ => .bind (refuses_require _ _ _) fun _ =>
    .bind (refuses_require _ _ _) fun _ => .bind (hvenue _) fun _ =>
    .bind (refuses_require _ _ _) fun _ => .bind (refuses_orAnswer _ _ _) fun _ =>
    .bind (refuses_orAnswer _ _ _) fun type => .bind (htif type _) fun _ =>
    .bind (refuses_require _ _ _) fun _ => .bind (refuses_require _ _ _) fun _ =>
    .bind (refuses_require _ _ _) fun _ => .bind (refuses_require _ _ _) fun _ => ?_
  exact refuses_ok _

theorem refuses_amendCommand (clientOrderId : String) (body : Json) :
    Refuses (amendCommand clientOrderId body) := by
  refine .bind (refuses_require _ _ _) fun _ => .bind (refuses_require _ _ _) fun _ =>
    .bind (refuses_require _ _ _) fun _ => .bind (refuses_require _ _ _) fun _ => ?_
  exact refuses_ok _

/-! ### No field is ignored -/

def Mistyped (body : Json) (name : String) : Prop :=
  ∃ value, body.find? name = some value ∧ value ≠ .null ∧ ∀ text, value ≠ .str text

/-- If the handler calls the OMS, every field that is present and not null is a string and passed
on; a body with a field of another type is answered 400 without a call. -/
def Honoured {α : Type} (body : Json) (result : Response × Option α)
    (carries : α → String → String → Prop) : Prop :=
  (∀ passed, result.2 = some passed → ∀ name value, body.find? name = some value →
    value ≠ .null → ∃ text, value = .str text ∧ carries passed name text) ∧
  ((∃ name, Mistyped body name) → result.2 = none ∧ result.1.status = 400)

def CarriesPlace (passed : OrderRequest × String) (name text : String) : Prop :=
  name = "clientOrderId" ∧ passed.1.clientOrderId = text ∨
  name = "venue" ∧ passed.2 = toLower text ∨
  name = "symbol" ∧ passed.1.instrumentId = text ∨
  name = "side" ∧ equalsIgnoreCase text passed.1.side.toString ∨
  name = "type" ∧ equalsIgnoreCase text passed.1.type.toString ∨
  name = "price" ∧ passed.1.price = text ∨
  name = "quantity" ∧ passed.1.quantity = text ∨
  name = "timeInForce" ∧ passed.1.timeInForce = toUpper (toLower text)

def CarriesAmend (passed : AmendCommand) (name text : String) : Prop :=
  name = "price" ∧ passed.newPrice = some text ∨ name = "quantity" ∧ passed.newQuantity = some text

/-- The documented rules of the fields that are strings. -/
structure PlaceRules (venues : List String) (body : Json) : Prop where
  known : ∀ name ∈ names body, name ∈ placeFields ∨ name = ""
  clientOrderId : ∃ id, body.find? "clientOrderId" = some (.str id) ∧ isValidClientOrderId id
  venue : ∀ text, body.find? "venue" = some (.str text) → toLower text ∈ venues
  symbol : ∃ text, body.find? "symbol" = some (.str text) ∧ text ≠ ""
  side : ∃ text, body.find? "side" = some (.str text) ∧ (parseSide text).isSome
  quantity : ∃ text, body.find? "quantity" = some (.str text) ∧ isDecimal text
  terms : ∃ text type, body.find? "type" = some (.str text) ∧ parseOrderType text = some type ∧
    (type = .limit → (∃ price, body.find? "price" = some (.str price) ∧ isDecimal price) ∧
      ∀ tif, body.find? "timeInForce" = some (.str tif) → (parseTimeInForce tif).isSome) ∧
    (type = .market → (∀ price, body.find? "price" = some (.str price) → price = "") ∧
      ∀ tif, body.find? "timeInForce" ≠ some (.str tif))

structure AmendRules (body : Json) : Prop where
  known : ∀ name ∈ names body, name ∈ amendFields ∨ name = ""
  asks : ∃ name ∈ amendFields, ∃ text, body.find? name = some (.str text)
  price : ∀ text, body.find? "price" = some (.str text) → isDecimal text
  quantity : ∀ text, body.find? "quantity" = some (.str text) → isDecimal text

/-- A field that is dropped: an optional one of another type, or one without a name. -/
def Dropped (optional : List String) (body : Json) : Prop :=
  (∃ name ∈ optional, Mistyped body name) ∨ ∃ value, body.find? "" = some value ∧ value ≠ .null

theorem mistyped_or_string {body : Json} {name : String} {value : Json}
    (hfind : body.find? name = some value) (hnull : value ≠ .null) :
    Mistyped body name ∨ ∃ text, value = .str text := by
  by_cases hstr : ∃ text, value = .str text
  · exact Or.inr hstr
  · exact Or.inl ⟨value, hfind, hnull, fun text h => hstr ⟨text, h⟩⟩

theorem not_mistyped_of_string {body : Json} {name text : String}
    (hfind : body.find? name = some (.str text)) : ¬ Mistyped body name := by
  rintro ⟨value, hvalue, -, hstr⟩
  rw [hfind] at hvalue
  exact hstr text (Option.some.inj hvalue).symm

/-- The body a handler reads; a text that is no object has no fields. -/
def jsonBody (library : Json.Library) (text : String) : Json :=
  match parseJsonBody library text with
  | .ok body => body
  | .error _ => .null

/-- A handler that passes on every string and refuses every other field but the optional ones
honours a request if and only if it refuses it or drops no field of it. -/
theorem honoured_iff {α : Type} {library : Json.Library} {text : String}
    {check : Json → Except Response α} {call : α → Response} {carries : α → String → String → Prop}
    {rules : Json → Prop} {optional : List String} (hrefuses : ∀ body, Refuses (check body))
    (hrules : ∀ body, (∃ passed, check body = .ok passed) ↔ rules body)
    (hnull : ¬ rules .null)
    (hcarries : ∀ body passed name text, check body = .ok passed → name ≠ "" →
      body.find? name = some (.str text) → carries passed name text)
    (hoptional : ∀ body passed name, check body = .ok passed → name ≠ "" → Mistyped body name →
      name ∈ optional)
    (hnameless : ∀ passed text, ¬ carries passed "" text) :
    Honoured (jsonBody library text) (answer (parseJsonBody library text >>= check) call) carries ↔
      ¬ (rules (jsonBody library text) ∧ Dropped optional (jsonBody library text)) := by
  unfold jsonBody
  cases hparse : parseJsonBody library text with
  | error response =>
    refine iff_of_true ⟨nofun, ?_⟩ fun h => hnull h.1
    rintro ⟨name, value, hfind, -⟩
    cases hfind
  | ok body =>
    have hbind : (Except.ok body >>= check) = check body := rfl
    rw [hbind]
    cases hcheck : check body with
    | error response =>
      have hno : ¬ rules body := fun hr => by
        obtain ⟨passed, hok⟩ := (hrules body).mpr hr
        rw [hcheck] at hok
        cases hok
      refine iff_of_true ⟨nofun, fun _ => ⟨rfl, hrefuses body response hcheck⟩⟩ fun h => hno h.1
    | ok passed =>
      have hyes : rules body := (hrules body).mp ⟨passed, hcheck⟩
      constructor
      · rintro ⟨hpassed, hanswered⟩ ⟨-, ⟨name, -, hmistyped⟩ | ⟨value, hfind, hne⟩⟩
        · exact nomatch (hanswered ⟨name, hmistyped⟩).1
        · obtain ⟨text, -, hcarry⟩ := hpassed passed rfl "" value hfind hne
          exact hnameless passed text hcarry
      · intro hnot
        have hkept : ¬ Dropped optional body := fun hd => hnot ⟨hyes, hd⟩
        have hstring : ∀ name value, body.find? name = some value → value ≠ .null →
            name ≠ "" ∧ ∃ text, value = .str text := by
          intro name value hfind hne
          have hname : name ≠ "" := by
            rintro rfl
            exact hkept (Or.inr ⟨value, hfind, hne⟩)
          refine ⟨hname, (mistyped_or_string hfind hne).resolve_left fun hm => ?_⟩
          exact hkept (Or.inl ⟨name, hoptional body passed name hcheck hname hm, hm⟩)
        refine ⟨?_, ?_⟩
        · intro passed' hsame name value hfind hne
          obtain ⟨hname, text, rfl⟩ := hstring name value hfind hne
          exact ⟨text, rfl, Option.some.inj hsame ▸ hcarries body passed name text hcheck hname hfind⟩
        · rintro ⟨name, value, hfind, hne, hstr⟩
          obtain ⟨-, text, htext⟩ := hstring name value hfind hne
          exact absurd htext (hstr text)

theorem parseSide_eq_some {text : String} {side : Side} (h : parseSide text = some side) :
    equalsIgnoreCase text side.toString := by
  unfold parseSide at h
  split_ifs at h with hbuy hsell
  · obtain rfl := Option.some.inj h
    exact hbuy
  · obtain rfl := Option.some.inj h
    exact hsell

theorem parseOrderType_eq_some {text : String} {type : OrderType}
    (h : parseOrderType text = some type) : equalsIgnoreCase text type.toString := by
  unfold parseOrderType at h
  split_ifs at h with hlimit hmarket
  · obtain rfl := Option.some.inj h
    exact hlimit
  · obtain rfl := Option.some.inj h
    exact hmarket

theorem parseTimeInForce_eq_some {text timeInForce : String}
    (h : parseTimeInForce text = some timeInForce) : timeInForce = toUpper (toLower text) := by
  simp only [parseTimeInForce] at h
  split_ifs at h
  exact (Option.some.inj h).symm

section

variable {venues : List String} {body : Json} {request : OrderRequest} {venue : String}

/-- The required fields of a request that reaches the OMS are strings. -/
theorem placeRequest_required (h : placeRequest venues body = .ok (request, venue)) :
    body.find? "clientOrderId" = some (.str request.clientOrderId) ∧
      body.find? "symbol" = some (.str request.instrumentId) ∧
      (∃ text, body.find? "side" = some (.str text) ∧ parseSide text = some request.side) ∧
      (∃ text, body.find? "type" = some (.str text) ∧
        parseOrderType text = some request.type) ∧
      body.find? "quantity" = some (.str request.quantity) := by
  obtain ⟨-, hid, hvalid, -, hsymbol, hne, hside, htype, -, hquantity, hdecimal, -, -, -⟩ :=
    placeRequest_ok_iff.mp h
  refine ⟨?_, ?_, ⟨_, find?_of_stringField ?_, hside⟩, ⟨_, find?_of_stringField ?_, htype⟩, ?_⟩
  · rw [hid]
    apply find?_of_stringField
    rw [← hid]
    intro hempty
    rw [hempty] at hvalid
    cases hvalid
  · rw [hsymbol]
    apply find?_of_stringField
    rwa [← hsymbol]
  · intro hempty
    rw [hempty] at hside
    cases hside
  · intro hempty
    rw [hempty] at htype
    cases htype
  · rw [hquantity]
    apply find?_of_stringField
    rw [← hquantity]
    exact isDecimal_ne_empty hdecimal

/-- Every string of a request that reaches the OMS is passed on. -/
theorem placeRequest_carries (h : placeRequest venues body = .ok (request, venue))
    {name text : String} (hname : name ≠ "") (hfind : body.find? name = some (.str text)) :
    CarriesPlace (request, venue) name text := by
  obtain ⟨hknown, -, -, hvenue, -, -, -, -, htif, -, -, hprice, -, -⟩ := placeRequest_ok_iff.mp h
  obtain ⟨hid, hsymbol, ⟨side, hside, hparse⟩, ⟨type, htype, hparse'⟩, hquantity⟩ :=
    placeRequest_required h
  have hmem : name ∈ placeFields :=
    (unknownFields_eq_empty.mp hknown name (mem_names_of_find? hfind)).resolve_right hname
  have hsame {value : String} (hvalue : body.find? name = some (.str value)) : value = text := by
    rw [hfind] at hvalue
    cases hvalue
    rfl
  simp only [placeFields, List.mem_cons, List.not_mem_nil, or_false] at hmem
  unfold CarriesPlace
  rcases hmem with rfl | rfl | rfl | rfl | rfl | rfl | rfl | rfl
  · exact Or.inl ⟨rfl, hsame hid⟩
  · rcases venueOf_ok.mp hvenue with ⟨hnone, -⟩ | ⟨text', hsome, -, hlower⟩
    · rw [optionalStringField_eq_some.mpr hfind] at hnone
      cases hnone
    · rw [hsame (optionalStringField_eq_some.mp hsome)] at hlower
      exact Or.inr (Or.inl ⟨rfl, hlower⟩)
  · simp [hsame hsymbol]
  · rw [hsame hside] at hparse
    simp [parseSide_eq_some hparse]
  · rw [hsame htype] at hparse'
    simp [parseOrderType_eq_some hparse']
  · rw [stringField_of_find? hfind] at hprice
    simp [hprice]
  · simp [hsame hquantity]
  · rcases timeInForceOf_ok.mp htif with ⟨hnone, -⟩ | ⟨text', hsome, hupper, -⟩
    · rw [optionalStringField_eq_some.mpr hfind] at hnone
      cases hnone
    · rw [hsame (optionalStringField_eq_some.mp hsome)] at hupper
      simp [parseTimeInForce_eq_some hupper]

def placeOptional : List String := ["venue", "timeInForce", "price"]

/-- Only optional fields of another type get through. -/
theorem placeRequest_mistyped (h : placeRequest venues body = .ok (request, venue)) {name : String}
    (hname : name ≠ "") (hmistyped : Mistyped body name) : name ∈ placeOptional := by
  obtain ⟨hknown, -⟩ := placeRequest_ok_iff.mp h
  obtain ⟨hid, hsymbol, ⟨side, hside, -⟩, ⟨type, htype, -⟩, hquantity⟩ := placeRequest_required h
  have hmem : name ∈ placeFields := by
    obtain ⟨value, hfind, -⟩ := hmistyped
    exact (unknownFields_eq_empty.mp hknown name (mem_names_of_find? hfind)).resolve_right hname
  simp only [placeFields, List.mem_cons, List.not_mem_nil, or_false] at hmem
  rcases hmem with rfl | rfl | rfl | rfl | rfl | rfl | rfl | rfl
  · exact absurd hmistyped (not_mistyped_of_string hid)
  · decide
  · exact absurd hmistyped (not_mistyped_of_string hsymbol)
  · exact absurd hmistyped (not_mistyped_of_string hside)
  · exact absurd hmistyped (not_mistyped_of_string htype)
  · decide
  · exact absurd hmistyped (not_mistyped_of_string hquantity)
  · decide

theorem placeRequest_rules :
    (∃ passed, placeRequest venues body = .ok passed) ↔ PlaceRules venues body := by
  constructor
  · rintro ⟨⟨request, venue⟩, h⟩
    obtain ⟨hknown, -, hvalid, hvenue, -, hne, -, -, htif, -, hdecimal, hprice, hlimit, hmarket⟩ :=
      placeRequest_ok_iff.mp h
    obtain ⟨hid, hsymbol, ⟨side, hside, hparse⟩, ⟨type, htype, hparse'⟩, hquantity⟩ :=
      placeRequest_required h
    refine ⟨unknownFields_eq_empty.mp hknown, ⟨_, hid, hvalid⟩, ?_, ⟨_, hsymbol, hne⟩,
      ⟨side, hside, by rw [hparse]; rfl⟩, ⟨_, hquantity, hdecimal⟩,
      ⟨type, request.type, htype, hparse', ?_, ?_⟩⟩
    · exact venueOf_accepts.mp ⟨venue, hvenue⟩
    · intro hl
      have hdec := hlimit hl
      refine ⟨⟨_, ?_, hdec⟩, ?_⟩
      · rw [hprice]
        apply find?_of_stringField
        rw [← hprice]
        exact isDecimal_ne_empty hdec
      · intro tif hfind
        exact (timeInForceOf_accepts.mp ⟨_, htif⟩ tif hfind).1
    · intro hm
      refine ⟨?_, ?_⟩
      · intro price hfind
        rw [← stringField_of_find? hfind, ← hprice]
        exact hmarket hm
      · intro tif hfind
        exact (timeInForceOf_accepts.mp ⟨_, htif⟩ tif hfind).2 hm
  · rintro ⟨hknown, ⟨id, hid, hvalid⟩, hvenue, ⟨symbol, hsymbol, hne⟩, ⟨sideText, hside, hsome⟩,
      ⟨quantity, hquantity, hdecimal⟩, ⟨typeText, type, htype, hparse, hlimit, hmarket⟩⟩
    obtain ⟨side, hside'⟩ := Option.isSome_iff_exists.mp hsome
    obtain ⟨venue, hvenue'⟩ := (@venueOf_accepts venues body id).mpr hvenue
    have hterms : ∀ tif, body.find? "timeInForce" = some (.str tif) →
        (parseTimeInForce tif).isSome ∧ type ≠ .market := by
      intro tif hfind
      cases type with
      | limit => exact ⟨(hlimit rfl).2 tif hfind, nofun⟩
      | market => exact absurd hfind ((hmarket rfl).2 tif)
    obtain ⟨timeInForce, htif⟩ := (@timeInForceOf_accepts body type id).mpr hterms
    refine ⟨(⟨id, symbol, side, type, stringField body "price", quantity, timeInForce⟩, venue),
      placeRequest_ok_iff.mpr ⟨unknownFields_eq_empty.mpr hknown, (stringField_of_find? hid).symm,
        hvalid, hvenue', (stringField_of_find? hsymbol).symm, hne, ?_, ?_, htif,
        (stringField_of_find? hquantity).symm, hdecimal, rfl, ?_, ?_⟩⟩
    · rw [stringField_of_find? hside]
      exact hside'
    · rw [stringField_of_find? htype]
      exact hparse
    · intro hl
      obtain ⟨price, hfind, hdec⟩ := (hlimit hl).1
      rw [stringField_of_find? hfind]
      exact hdec
    · intro hm
      by_contra hprice
      exact hprice ((hmarket hm).1 _ (find?_of_stringField hprice))

end

theorem amendCommand_rules {clientOrderId : String} {body : Json} :
    (∃ passed, amendCommand clientOrderId body = .ok passed) ↔ AmendRules body := by
  constructor
  · rintro ⟨⟨id, newPrice, newQuantity⟩, h⟩
    obtain ⟨hknown, -, rfl, rfl, hsome, hprice, hquantity⟩ := amendCommand_ok_iff.mp h
    refine ⟨unknownFields_eq_empty.mp hknown, ?_, ?_, ?_⟩
    · rcases hsome with hsome | hsome
      · obtain ⟨text, htext⟩ := Option.isSome_iff_exists.mp hsome
        exact ⟨"price", by decide, text, optionalStringField_eq_some.mp htext⟩
      · obtain ⟨text, htext⟩ := Option.isSome_iff_exists.mp hsome
        exact ⟨"quantity", by decide, text, optionalStringField_eq_some.mp htext⟩
    · intro text hfind
      exact hprice text (optionalStringField_eq_some.mpr hfind)
    · intro text hfind
      exact hquantity text (optionalStringField_eq_some.mpr hfind)
  · rintro ⟨hknown, ⟨name, hname, text, hfind⟩, hprice, hquantity⟩
    refine ⟨⟨clientOrderId, optionalStringField body "price", optionalStringField body "quantity"⟩,
      amendCommand_ok_iff.mpr ⟨unknownFields_eq_empty.mpr hknown, rfl, rfl, rfl, ?_, ?_, ?_⟩⟩
    · have htext := optionalStringField_eq_some.mpr hfind
      simp only [amendFields, List.mem_cons, List.not_mem_nil, or_false] at hname
      rcases hname with rfl | rfl
      · exact Or.inl (by rw [htext]; rfl)
      · exact Or.inr (by rw [htext]; rfl)
    · intro price h
      exact hprice price (optionalStringField_eq_some.mp h)
    · intro quantity h
      exact hquantity quantity (optionalStringField_eq_some.mp h)

theorem mem_amendFields {clientOrderId : String} {body : Json} {command : AmendCommand}
    (h : amendCommand clientOrderId body = .ok command) {name : String} {value : Json}
    (hname : name ≠ "") (hfind : body.find? name = some value) : name ∈ amendFields := by
  obtain ⟨hknown, -⟩ := amendCommand_ok_iff.mp h
  exact (unknownFields_eq_empty.mp hknown name (mem_names_of_find? hfind)).resolve_right hname

theorem amendCommand_carries {clientOrderId : String} {body : Json} {command : AmendCommand}
    (h : amendCommand clientOrderId body = .ok command) {name text : String} (hname : name ≠ "")
    (hfind : body.find? name = some (.str text)) : CarriesAmend command name text := by
  have hmem := mem_amendFields h hname hfind
  obtain ⟨-, -, hprice, hquantity, -, -, -⟩ := amendCommand_ok_iff.mp h
  simp only [amendFields, List.mem_cons, List.not_mem_nil, or_false] at hmem
  rcases hmem with rfl | rfl
  · exact Or.inl ⟨rfl, hprice.trans (optionalStringField_eq_some.mpr hfind)⟩
  · exact Or.inr ⟨rfl, hquantity.trans (optionalStringField_eq_some.mpr hfind)⟩

/-- The handlers honour a request if and only if they refuse it or it has no field that is dropped:
an optional field of another type, or a field without a name, which the allowlist does not see. -/
theorem fields_honoured_iff (library : Json.Library) (venues : List String)
    (place : OrderRequest → String → Result PlaceOutcome)
    (amend : AmendCommand → Result OrderRecord) (clientOrderId text : String) :
    (Honoured (jsonBody library text) (postOrders library venues place text) CarriesPlace ↔
        ¬ (PlaceRules venues (jsonBody library text) ∧
          Dropped ["venue", "timeInForce", "price"] (jsonBody library text))) ∧
      (Honoured (jsonBody library text) (putOrder library amend clientOrderId text) CarriesAmend ↔
        ¬ (AmendRules (jsonBody library text) ∧
          Dropped ["price", "quantity"] (jsonBody library text))) := by
  constructor
  · apply honoured_iff (refuses_placeRequest venues) (fun _ => placeRequest_rules)
    · rintro ⟨-, ⟨id, hid, -⟩, -⟩
      cases hid
    · rintro body ⟨request, venue⟩ name text hok hname hfind
      exact placeRequest_carries hok hname hfind
    · rintro body ⟨request, venue⟩ name hok hname hmistyped
      exact placeRequest_mistyped hok hname hmistyped
    · rintro passed text h
      simp [CarriesPlace] at h
  · apply honoured_iff (refuses_amendCommand clientOrderId) (fun _ => amendCommand_rules)
    · rintro ⟨-, ⟨name, -, text, hfind⟩, -, -⟩
      cases hfind
    · intro body passed name text hok hname hfind
      exact amendCommand_carries hok hname hfind
    · rintro body passed name hok hname ⟨value, hfind, -⟩
      exact mem_amendFields hok hname hfind
    · rintro passed text h
      simp [CarriesAmend] at h

/-- A numeric venue: the order goes to the default venue. -/
def numericVenue : Json :=
  .obj [("clientOrderId", .str "gw1"), ("price", .str "50000"), ("quantity", .str "1"),
    ("side", .str "buy"), ("symbol", .str "BTC-USDT"), ("type", .str "limit"),
    ("venue", .unsigned 1)]

/-- A numeric price next to a quantity: the order is amended without it. -/
def numericPrice : Json := .obj [("price", .unsigned 48000), ("quantity", .str "2")]

def numericVenueText : String :=
  "\x7b\"clientOrderId\":\"gw1\",\"price\":\"50000\",\"quantity\":\"1\",\"side\":\"buy\"," ++
    "\"symbol\":\"BTC-USDT\",\"type\":\"limit\",\"venue\":1\x7d"

def numericPriceText : String := "\x7b\"price\":48000,\"quantity\":\"2\"\x7d"

def numericLibrary : Json.Library where
  parse text := if text = numericVenueText then some numericVenue
    else if text = numericPriceText then some numericPrice else none
  dump _ := ""
  truncate _ := 0

theorem numeric_fields_dropped :
    (∀ place, (postOrders numericLibrary ["binance", "okx"] place numericVenueText).2 =
        some (⟨"gw1", "BTC-USDT", .buy, .limit, "50000", "1", ""⟩, "") ∧
      ¬ Honoured (jsonBody numericLibrary numericVenueText)
        (postOrders numericLibrary ["binance", "okx"] place numericVenueText) CarriesPlace) ∧
      ∀ amend, (putOrder numericLibrary amend "gw1" numericPriceText).2 = some ⟨"gw1", none, some "2"⟩ ∧
        ¬ Honoured (jsonBody numericLibrary numericPriceText)
          (putOrder numericLibrary amend "gw1" numericPriceText) CarriesAmend := by
  constructor
  · intro place
    have hcall : (postOrders numericLibrary ["binance", "okx"] place numericVenueText).2 =
        some (⟨"gw1", "BTC-USDT", .buy, .limit, "50000", "1", ""⟩, "") := rfl
    refine ⟨hcall, ?_⟩
    rintro ⟨hpassed, -⟩
    obtain ⟨text, htext, -⟩ := hpassed _ hcall "venue" (.unsigned 1) rfl nofun
    cases htext
  · intro amend
    have hcall : (putOrder numericLibrary amend "gw1" numericPriceText).2 =
        some ⟨"gw1", none, some "2"⟩ := rfl
    refine ⟨hcall, ?_⟩
    rintro ⟨hpassed, -⟩
    obtain ⟨text, htext, -⟩ := hpassed _ hcall "price" (.unsigned 48000) rfl nofun
    cases htext

end ExchangeGateway.Rest
