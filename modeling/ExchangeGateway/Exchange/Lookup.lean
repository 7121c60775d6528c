import ExchangeGateway.Exchange.Adoption
import ExchangeGateway.Exchange.Paths
import ExchangeGateway.Exchange.Refusal
import ExchangeGateway.Exchange.Signing

/-! The queries of both connectors, from the wire up (`exchange/okx/okx_rest_client.cpp`,
`okx_connector.cpp`, `exchange/binance/binance_api.cpp`, `binance_connector.cpp`). They change
nothing on the venue: a transport failure is retried as it is. -/
namespace ExchangeGateway

section

variable {ρ W α : Type} (policy : RetryPolicy ρ) (clock : RetryClock ρ W)

/-- The policy of every query. -/
def queryWith (attempt : W → Result α × W) (w : W) : Result α × W :=
  withRetries policy clock attempt (fun error _ => error.code = "transport") w

/-- The worlds in which a query makes its attempts. -/
def Queried (attempt : W → Result α × W) (w : W) : W → Prop :=
  Begins clock attempt (fun error _ => error.code = "transport") (clock.now w).2

variable {clock} in
/-- The answer of a query is that of one of its attempts, unless none was made. -/
theorem queryWith_attempted (attempt : W → Result α × W) (w : W) :
    (queryWith policy clock attempt w).1 =
        .error ⟨"protocol", "retry driver exhausted attempts"⟩ ∨
      ∃ v, Queried clock attempt w v ∧ (queryWith policy clock attempt w).1 = (attempt v).1 := by
  rcases lt_or_ge policy.maxAttempts 1 with hnone | hmax
  · left
    have hzero : policy.maxAttempts.toNat = 0 := by omega
    simp only [queryWith, withRetries, hzero, retryLoop]
  · right
    obtain ⟨n, -, htries⟩ := withRetries_tries policy clock attempt
      (fun error _ => error.code = "transport") hmax w
    exact htries.begins

end

/-! ### OKX -/

namespace Okx

def mapOrdType (type : String) : Option OrderType :=
  if type = "limit" then some .limit else if type = "market" then some .market else none

/-- Snapshot normalization; what is unknown is an error. -/
def toSnapshot (info : OrderInfo) : Result OrderSnapshot :=
  match mapOkxState info.state, mapOkxSide info.side, mapOrdType info.ordType with
  | none, _, _ => .error ⟨"protocol", "unknown OKX order state: " ++ info.state⟩
  | _, none, _ => .error ⟨"protocol", "unknown OKX order side: " ++ info.side⟩
  | _, _, none => .error ⟨"protocol", "unknown OKX order type: " ++ info.ordType⟩
  | some state, some side, some type =>
    .ok {
      clientOrderId := info.clOrdId
      exchangeOrderId := info.ordId
      instrumentId := info.instId
      state := state
      side := side
      type := type
      price := info.px
      quantity := info.sz
      filledQuantity := info.accFillSz
      averageFillPrice := info.avgPx }

/-- The HTTP client: what comes back for a signed GET of a path. -/
structure Http (W : Type) where
  host : String
  get : List UInt8 → W → Option Response × W

def bytes (text : String) : List UInt8 := text.toUTF8.data.toList

def Query.bytes (query : Query) : QueryBytes := ⟨Okx.bytes query.instId, Okx.bytes query.clOrdId⟩

/-- A path as the texts of errors show it; every byte of it is ASCII. -/
def pathText (path : List UInt8) : String :=
  String.ofList (path.map fun c => Char.ofNat c.toNat)

def kPathOrdersPending : String := "/api/v5/trade/orders-pending"

section

variable (library : Json.Library) {ρ W : Type} (http : Http W)

def orderInfo (path : String) (response : Option Response) : Result (Option OrderInfo) :=
  match signedRequest library http.host path response with
  | .error error => .error error
  | .ok [] => .ok none
  | .ok (.obj fields :: _) => .ok (some (parseOrderInfo library (.obj fields)))
  | .ok _ => .error ⟨"protocol", "order-info data[0] is not an object"⟩

/-- `OkxRestClient::get_order`. -/
def restGetOrder (query : Query) (w : W) : Result (Option OrderInfo) × W :=
  let path := orderInfoPath query.bytes
  (orderInfo library http (pathText path) (http.get path w).1, (http.get path w).2)

/-- The loop of `get_orders_pending`. -/
def pendingInfos : List Json → Result (List OrderInfo)
  | [] => .ok []
  | .obj fields :: items => (pendingInfos items).map (parseOrderInfo library (.obj fields) :: ·)
  | _ :: _ => .error ⟨"protocol", "orders-pending data item is not an object"⟩

/-- `OkxRestClient::get_orders_pending`. -/
def getOrdersPending (w : W) : Result (List OrderInfo) × W :=
  let response := http.get (ascii kPathOrdersPending) w
  ((signedRequest library http.host kPathOrdersPending response.1).bind (pendingInfos library),
    response.2)

/-- One attempt of `OkxConnector::get_order`. An order that does not exist is no failure. -/
def getOrderAttempt (query : Query) (w : W) : Result (Option OrderSnapshot) × W :=
  match restGetOrder library http query w with
  | (.error error, w) => (if error.code = "venue:51603" then .ok none else .error error, w)
  | (.ok none, w) => (.ok none, w)
  | (.ok (some info), w) => ((toSnapshot info).map some, w)

variable (policy : RetryPolicy ρ) (clock : RetryClock ρ W)

/-- `OkxConnector::get_order`. -/
def getOrder (query : OrderQuery) : W → Result (Option OrderSnapshot) × W :=
  queryWith policy clock (getOrderAttempt library http ⟨query.instrumentId, query.clientOrderId⟩)

/-- Orders that the gateway cannot represent are left out. -/
def snapshots (infos : List OrderInfo) : List OrderSnapshot :=
  infos.filterMap fun info => (toSnapshot info).toOption

/-- `OkxConnector::get_open_orders`. -/
def getOpenOrders (w : W) : Result (List OrderSnapshot) × W :=
  let pending := queryWith policy clock (getOrdersPending library http) w
  (pending.1.map snapshots, pending.2)

end

end Okx

/-! ### Binance -/

namespace Binance

def parseOrderInfo : Json → Result OrderInfo
  | .obj fields =>
    .ok {
      orderId := numberField (.obj fields) "orderId"
      clientOrderId := stringField (.obj fields) "clientOrderId"
      symbol := stringField (.obj fields) "symbol"
      status := stringField (.obj fields) "status"
      side := stringField (.obj fields) "side"
      type := stringField (.obj fields) "type"
      price := stringField (.obj fields) "price"
      origQty := stringField (.obj fields) "origQty"
      executedQty := stringField (.obj fields) "executedQty"
      cummulativeQuoteQty := stringField (.obj fields) "cummulativeQuoteQty" }
  | _ => .error ⟨"protocol", "order result is not a JSON object"⟩

def buildOrderStatusParams (query : OrderQuery) : Params :=
  ⟨[("symbol", .str query.symbol), ("origClientOrderId", .str query.clientOrderId)], by simp⟩

def buildOpenOrdersParams : Params := .empty _

/-- Items that cannot be parsed are left out. -/
def orderInfos (items : List Json) : List OrderInfo :=
  items.filterMap fun item => (parseOrderInfo item).toOption

section

variable {ρ W : Type} (invoke : String → Params → W → Option (Result Json) × W)

/-- `BinanceApi::get_order`, over the signed call of the session. -/
def Api.getOrderWith (query : OrderQuery) (w : W) : Option (Result (Option OrderInfo)) × W :=
  match invoke "order.status" (buildOrderStatusParams query) w with
  | (none, w) => (none, w)
  | (some (.error error), w) =>
    (some (if error.code = "venue:-2013" then .ok none else .error error), w)
  | (some (.ok result), w) => (some ((parseOrderInfo result).map some), w)

/-- `BinanceApi::get_open_orders`. -/
def Api.getOpenOrdersWith (w : W) : Option (Result (List OrderInfo)) × W :=
  match invoke "openOrders.status" buildOpenOrdersParams w with
  | (none, w) => (none, w)
  | (some (.error error), w) => (some (.error error), w)
  | (some (.ok (.arr items)), w) => (some (.ok (orderInfos items)), w)
  | (some (.ok _), w) =>
    (some (.error ⟨"protocol", "openOrders.status result is not an array"⟩), w)

/-- One attempt of `BinanceConnector::get_order`. -/
def getOrderAttempt (query : OrderQuery) (w : W × SymbolTranslator) :
    Option (Result (Option OrderSnapshot)) × W × SymbolTranslator :=
  match Api.getOrderWith invoke query w.1 with
  | (none, v) => (none, v, w.2)
  | (some (.error error), v) => (some (.error error), v, w.2)
  | (some (.ok none), v) => (some (.ok none), v, w.2)
  | (some (.ok (some info)), v) =>
    (some ((toSnapshot info w.2).1.map some), v, (toSnapshot info w.2).2)

/-- What the caller sees of a query that may throw. -/
def rewound {α : Type} : Result (Option α) → Option (Result α)
  | .ok none => none
  | .ok (some value) => some (.ok value)
  | .error error => some (.error error)

variable (policy : RetryPolicy ρ) (clock : RetryClock ρ W)

/-- The query policy over attempts that may throw. -/
def queryOrThrow {V α : Type} (clock : RetryClock ρ V) (attempt : V → Option (Result α) × V)
    (v : V) : Option (Result α) × V :=
  let result := queryWith policy clock (fun v => (unwound (attempt v).1, (attempt v).2)) v
  (rewound result.1, result.2)

/-- `BinanceConnector::get_order`. The symbol translator is that of the connector. -/
def getOrder (query : ExchangeGateway.OrderQuery) (w : W × SymbolTranslator) :
    Option (Result (Option OrderSnapshot)) × W × SymbolTranslator :=
  let (wire, symbols) := orderQueryOf query w.2
  queryOrThrow policy (clock.beside SymbolTranslator) (getOrderAttempt invoke wire) (w.1, symbols)

/-- `BinanceConnector::get_open_orders`. -/
def getOpenOrders (w : W × SymbolTranslator) :
    Option (Result (List OrderSnapshot)) × W × SymbolTranslator :=
  match queryOrThrow policy clock (Api.getOpenOrdersWith invoke) w.1 with
  | (none, v) => (none, v, w.2)
  | (some (.error error), v) => (some (.error error), v, w.2)
  | (some (.ok infos), v) =>
    (some (.ok (openOrders infos w.2).1), v, (openOrders infos w.2).2)

end

end Binance

/-! ### What the venues say -/

/-- An error that says nothing about the order. -/
def Error.Inconclusive (error : Error) : Prop := error.code = "transport" ∨ error.code = "protocol"

theorem Error.Inconclusive.not_absent {error : Error} (h : error.Inconclusive) :
    Oms.conclusivelyAbsent (.error error) = false := by
  rcases h with hcode | hcode
  · simp [Oms.conclusivelyAbsent, hcode]
  · simp [Oms.conclusivelyAbsent, hcode]

/-- Nor does it when the connector looks for the code of its venue. -/
theorem Error.Inconclusive.not_absent_unless {error : Error} (h : error.Inconclusive)
    (code : String) (htransport : code ≠ "transport") (hprotocol : code ≠ "protocol") :
    Oms.conclusivelyAbsent (if error.code = code then .ok none else .error error) = false := by
  have hcode : error.code ≠ code := by
    intro heq
    rcases h with hopen | hopen
    · exact htransport (heq.symm.trans hopen)
    · exact hprotocol (heq.symm.trans hopen)
  rw [if_neg hcode]
  exact h.not_absent

namespace Okx

/-- The venue says that it has no such order: no order in a success, or one of the two codes. -/
inductive Denies (library : Json.Library) (response : Response) : Prop
  | empty {fields : List (String × Json)} (hs : response.status = 200)
      (h : Carries library response.body fields "0")
      (hd : (Json.obj fields).find? "data" = some (.arr [])) : Denies library response
  | unknown {fields : List (String × Json)} {code : String} (hs : response.status < 500)
      (hs' : response.status ≠ 429) (h : Carries library response.body fields code)
      (hc : code = "51603" ∨ code = "51016") : Denies library response

variable {library : Json.Library}

inductive Reads (library : Json.Library) (response : Response) (path : String) :
    Result (List Json) → Prop
  | inconclusive {error : Error} (h : error.Inconclusive) : Reads library response path (.error error)
  | refused {fields : List (String × Json)} {code : String} (hs : response.status < 500)
      (hs' : response.status ≠ 429) (h : Carries library response.body fields code) :
      Reads library response path (.error (envelopeError (.obj fields) code path))
  | data {fields : List (String × Json)} {items : List Json} (hs : response.status = 200)
      (h : Carries library response.body fields "0")
      (hd : (Json.obj fields).find? "data" = some (.arr items)) :
      Reads library response path (.ok items)

theorem venue_isPrefix (code : String) : "venue:".toList <+: ("venue:" ++ code).toList := by
  rw [String.toList_append]
  exact List.prefix_append _ _

theorem reads_classifyHttpError {response : Response} (path : String) :
    Reads library response path (.error (classifyHttpError library response path)) := by
  unfold classifyHttpError
  dsimp only
  split_ifs with hopen
  · exact .inconclusive (.inl rfl)
  · have hs : response.status < 500 := by omega
    have hs' : response.status ≠ 429 := by omega
    rcases parseEnvelope_cases library response.body path with
      ⟨fields, code, hcarries, -, heq⟩ | ⟨fields, items, -, -, heq⟩ | ⟨text, heq, -⟩
    · rw [heq]
      have hvenue : "venue:".toList <+: (envelopeError (.obj fields) code path).code.toList :=
        venue_isPrefix code
      simp only [hvenue, if_true]
      exact .refused hs hs' hcarries
    · rw [heq]
      exact .inconclusive (.inr rfl)
    · have hother : ¬ "venue:".toList <+: "protocol".toList := by decide
      rw [heq]
      simp only [hother, if_false]
      exact .inconclusive (.inr rfl)

theorem reads_signedRequest (library : Json.Library) (host path : String) (response : Response) :
    Reads library response path (signedRequest library host path (some response)) := by
  unfold signedRequest
  dsimp only
  split_ifs with hstatus
  · exact reads_classifyHttpError path
  · have hs : response.status = 200 := not_not.mp hstatus
    rcases parseEnvelope_cases library response.body path with
      ⟨fields, code, hcarries, -, heq⟩ | ⟨fields, items, hcarries, hdata, heq⟩ | ⟨text, heq, -⟩
    · rw [heq]
      exact .refused (by omega) (by omega) hcarries
    · rw [heq]
      exact .data hs hcarries hdata
    · rw [heq]
      exact .inconclusive (.inr rfl)

theorem toSnapshot_error {info : OrderInfo} {error : Error} (h : toSnapshot info = .error error) :
    error.code = "protocol" := by
  unfold toSnapshot at h
  split at h
  · cases h
    rfl
  · cases h
    rfl
  · cases h
    rfl
  · cases h

/-- The snapshot of an order that was found is never an absence. -/
theorem not_absent_toSnapshot (info : OrderInfo) :
    Oms.conclusivelyAbsent ((toSnapshot info).map some) = false := by
  cases h : toSnapshot info with
  | ok snapshot => rfl
  | error error => exact Error.Inconclusive.not_absent (.inr (toSnapshot_error h))

/-- The codes that the connector and the order management system take for an absence. -/
theorem code_of_absent {code message : String}
    (h : Oms.conclusivelyAbsent (if "venue:" ++ code = "venue:51603" then .ok none
      else .error ⟨"venue:" ++ code, message⟩)) : code = "51603" ∨ code = "51016" := by
  split_ifs at h with hcode
  · left
    exact (String.append_right_inj "venue:").mp hcode
  · right
    have hlegacy : "venue:" ++ code = "venue:51016" := by
      simpa [Oms.conclusivelyAbsent, hcode] using h
    exact (String.append_right_inj "venue:").mp hlegacy

section

variable {ρ W : Type} {http : Http W}

/-- An attempt finds the order absent only on the word of the venue. -/
theorem denies_of_attempt {query : Query} {w : W}
    (h : Oms.conclusivelyAbsent (getOrderAttempt library http query w).1) :
    ∃ response, (http.get (orderInfoPath query.bytes) w).1 = some response ∧
      Denies library response := by
  unfold getOrderAttempt restGetOrder orderInfo at h
  cases hget : (http.get (orderInfoPath query.bytes) w).1 with
  | none =>
    simp only [hget, signedRequest] at h
    exact absurd h (by simp [Oms.conclusivelyAbsent])
  | some response =>
    refine ⟨response, rfl, ?_⟩
    have hreads := reads_signedRequest library http.host
      (pathText (orderInfoPath query.bytes)) response
    simp only [hget] at h
    generalize signedRequest library http.host (pathText (orderInfoPath query.bytes))
      (some response) = result at hreads h
    cases hreads with
    | inconclusive hinconclusive =>
      dsimp only at h
      rw [hinconclusive.not_absent_unless "venue:51603" (by decide) (by decide)] at h
      cases h
    | refused hs hs' hcarries => exact .unknown hs hs' hcarries (code_of_absent h)
    | @data fields items hs hcarries hdata =>
      cases items with
      | nil => exact .empty hs hcarries hdata
      | cons item items =>
        cases item with
        | obj first =>
          rw [not_absent_toSnapshot] at h
          cases h
        | _ =>
          exact absurd h (by simp [Oms.conclusivelyAbsent])

/-- A lookup finds the order absent only on the word of the venue. -/
theorem denies_of_getOrder {policy : RetryPolicy ρ} {clock : RetryClock ρ W} {query : OrderQuery}
    {w : W} (h : Oms.conclusivelyAbsent (getOrder library http policy clock query w).1) :
    ∃ v response, (http.get (orderInfoPath
        (Query.mk query.instrumentId query.clientOrderId).bytes) v).1 = some response ∧
      Denies library response := by
  unfold getOrder at h
  rcases queryWith_attempted policy
    (getOrderAttempt library http ⟨query.instrumentId, query.clientOrderId⟩) w with
    hnone | ⟨v, -, hattempt⟩
  · rw [hnone] at h
    cases h
  · rw [hattempt] at h
    exact ⟨v, denies_of_attempt h⟩

end

end Okx

namespace Binance

variable {library : Json.Library}

/-- The code of an order that does not exist. The order management system takes the two codes of
OKX for the same, from any venue. -/
def absentCodes : List ℤ := [-2013, 51603, 51016]

/-- The venue refuses the request: it has no such order. -/
def Denies (library : Json.Library) (request : Request) : Prop :=
  ∃ response code message, request.response library = some response ∧
    Refuses library response code message ∧ code ∈ absentCodes

theorem error_of_call {method : String} {request : Request} {error : Error}
    (h : call library method request = some (.error error)) :
    error.Inconclusive ∨ ∃ response code message, request.response library = some response ∧
      Refuses library response code message ∧ error = venueError code message := by
  rcases call_cases library method request with ⟨-, message, hcall⟩ | ⟨response, hresponse, hcall⟩
  · rw [hcall] at h
    cases h
    exact .inl (.inl rfl)
  · rw [hcall] at h
    have hclassified := classified_classify library response
    rw [h] at hclassified
    cases hclassified with
    | garbled _ => exact .inl (.inr rfl)
    | unavailable _ _ => exact .inl (.inl rfl)
    | refused hrefuses => exact .inr ⟨response, _, _, hresponse, hrefuses, rfl⟩

theorem mem_absentCodes {code : ℤ} {message : String}
    (h : Oms.conclusivelyAbsent (if (venueError code message).code = "venue:-2013" then .ok none
      else .error (venueError code message))) : code ∈ absentCodes := by
  have hcode (n : ℤ) (hn : (venueError code message).code = "venue:" ++ toString n) : code = n := by
    unfold venueError at hn
    split_ifs at hn
    · exact absurd hn.symm (Okx.venue_ne_transport _)
    · exact IntText.toString_inj ((String.append_right_inj _).mp hn)
  split_ifs at h with habsent
  · rw [hcode (-2013) (habsent.trans rfl)]
    decide
  · have hlegacy : (venueError code message).code = "venue:51603" ∨
        (venueError code message).code = "venue:51016" := by
      simpa [Oms.conclusivelyAbsent] using h
    rcases hlegacy with hlegacy | hlegacy
    · rw [hcode 51603 hlegacy]
      decide
    · rw [hcode 51016 hlegacy]
      decide

theorem toSnapshot_error {info : OrderInfo} {symbols : SymbolTranslator} {error : Error}
    (h : (toSnapshot info symbols).1 = .error error) : error.code = "protocol" := by
  unfold toSnapshot at h
  split at h
  · cases h
    rfl
  · cases h
    rfl
  · cases h
    rfl
  · cases h

theorem not_absent_toSnapshot (info : OrderInfo) (symbols : SymbolTranslator) :
    Oms.conclusivelyAbsent ((toSnapshot info symbols).1.map some) = false := by
  cases h : (toSnapshot info symbols).1 with
  | ok snapshot => rfl
  | error error => exact Error.Inconclusive.not_absent (.inr (toSnapshot_error h))

/-! ### The request of a lookup -/

def Asks (params : Params) (query : OrderQuery) : Prop :=
  params.find? "symbol" = some ("symbol", .str query.symbol) ∧
    params.find? "origClientOrderId" = some ("origClientOrderId", .str query.clientOrderId)

section

variable {W : Type} {session : Session W} {hmac : Hmac} {config : Credentials}

theorem asks_buildOrderStatusParams (query : OrderQuery) :
    Asks (buildOrderStatusParams query) query := ⟨rfl, rfl⟩

/-- Signing leaves what is asked for. -/
theorem Asks.signed {params : Params} {query : OrderQuery} (h : Asks params query) (time : ℤ) :
    Asks (applySignature hmac config time params) query := by
  have hkept (name : String) (hsignature : name ≠ "signature") (htimestamp : name ≠ "timestamp")
      (hwindow : name ≠ "recvWindow") (hkey : name ≠ "apiKey") :
      (applySignature hmac config time params).find? name = params.find? name := by
    rw [find?_applySignature_of_ne _ _ hsignature, find?_stamped, if_neg hsignature,
      if_neg htimestamp, if_neg hwindow, if_neg hkey]
  unfold Asks
  rw [hkept "symbol" (by decide) (by decide) (by decide) (by decide),
    hkept "origClientOrderId" (by decide) (by decide) (by decide) (by decide)]
  exact h

theorem call_of_callAgain {method : String} {request : Request} {result : Result Json}
    (h : callAgain library method request = some result) :
    call library method request = some result ∨ result = .error clockSkewUnrecoverable := by
  unfold callAgain at h
  cases hcall : call library method request with
  | none =>
    rw [hcall] at h
    cases h
  | some answer =>
    rw [hcall] at h
    dsimp only at h
    split_ifs at h with hskew
    · cases h
      exact .inr rfl
    · exact .inl h

/-- Every attempt sends what the call was given, signed. -/
theorem of_mem_attempts {P : Params → Prop} {method : String} {params : Params} {w : W}
    {attempt : Attempt W} (hP : P params)
    (hsigned : ∀ params time, P params → P (applySignature hmac config time params))
    (h : attempt ∈ session.attempts library hmac config method params w) : P attempt.params := by
  have hfirst : P (session.attempt hmac config params w).params := hsigned _ _ hP
  unfold Session.attempts at h
  generalize session.attempt hmac config params w = first at h hfirst
  dsimp only at h
  split at h
  · rw [List.mem_singleton.mp h]
    exact hfirst
  · split_ifs at h
    · rw [List.mem_singleton.mp h]
      exact hfirst
    · split at h
      · rcases List.mem_pair.mp h with rfl | rfl
        · exact hfirst
        · exact hsigned _ _ hfirst
      · rw [List.mem_singleton.mp h]
        exact hfirst

/-- The answer of a signed call is that to one of its attempts. -/
theorem call_of_callSigned {method : String} {params : Params} {w : W} {result : Result Json}
    (h : (session.callSigned library hmac config method params w).1 = some result) :
    result = .error clockSkewUnrecoverable ∨
      ∃ attempt ∈ session.attempts library hmac config method params w,
        call library method (session.send method attempt.params attempt.world).1 = some result := by
  unfold Session.callSigned at h
  unfold Session.attempts
  dsimp only [Session.attempt] at h ⊢
  generalize hfirst : applySignature hmac config (session.timestamp w).1 params = signed at h ⊢
  cases hcall : call library method (session.send method signed (session.timestamp w).2).1 with
  | none =>
    rw [hcall] at h
    cases h
  | some answer =>
    rw [hcall] at h
    dsimp only at h ⊢
    split_ifs at h ⊢ with hskew
    · cases h
      exact .inr ⟨_, List.mem_singleton_self _, hcall⟩
    · rcases hsync : session.syncServerTime library
        (session.send method signed (session.timestamp w).2).2 with ⟨synced, v⟩
      rw [hsync] at h
      cases synced with
      | none => cases h
      | some learned =>
        cases learned with
        | false =>
          cases h
          exact .inr ⟨_, List.mem_singleton_self _, hcall⟩
        | true =>
          rcases call_of_callAgain h with hagain | hagain
          · exact .inr ⟨_, List.mem_cons_of_mem _ List.mem_cons_self, hagain⟩
          · exact .inl hagain

/-- An attempt finds the order absent only on the word of the venue. -/
theorem denies_of_attempt {query : OrderQuery} {w : W × SymbolTranslator}
    {answer : Result (Option OrderSnapshot)}
    (h : (getOrderAttempt (session.callSigned library hmac config) query w).1 = some answer)
    (habsent : Oms.conclusivelyAbsent answer) :
    ∃ params v, Asks params query ∧ Denies library (session.send "order.status" params v).1 := by
  unfold getOrderAttempt Api.getOrderWith at h
  rcases hsigned : session.callSigned library hmac config "order.status"
    (buildOrderStatusParams query) w.1 with ⟨outcome, v⟩
  rw [hsigned] at h
  cases outcome with
  | none => cases h
  | some result =>
    have hresult : (session.callSigned library hmac config "order.status"
        (buildOrderStatusParams query) w.1).1 = some result := by rw [hsigned]
    cases result with
    | ok found =>
      cases found with
      | obj fields =>
        cases h
        rw [not_absent_toSnapshot] at habsent
        cases habsent
      | _ =>
        cases h
        cases habsent
    | error error =>
      have hanswer : answer =
          if error.code = "venue:-2013" then .ok none else .error error := by
        dsimp only at h
        split_ifs at h ⊢ with hcode
        · cases h
          rfl
        · cases h
          rfl
      rw [hanswer] at habsent
      rcases call_of_callSigned hresult with hskew | ⟨attempt, hattempt, hcall⟩
      · cases hskew
        cases habsent
      · have hasks : Asks attempt.params query :=
          of_mem_attempts (P := (Asks · query)) (asks_buildOrderStatusParams query)
            (fun _ time hasks => hasks.signed time) hattempt
        refine ⟨attempt.params, attempt.world, hasks, ?_⟩
        rcases error_of_call hcall with
          hopen | ⟨response, code, message, hresponse, hrefuses, herror⟩
        · rw [hopen.not_absent_unless "venue:-2013" (by decide) (by decide)] at habsent
          cases habsent
        · rw [herror] at habsent
          exact ⟨response, code, message, hresponse, hrefuses, mem_absentCodes habsent⟩

/-- The worlds in which a query makes its attempts, which may throw. -/
def QueriedOrThrow {ρ V α : Type} (clock : RetryClock ρ V) (attempt : V → Option (Result α) × V) :
    V → V → Prop :=
  Queried clock fun v => (unwound (attempt v).1, (attempt v).2)

theorem queryOrThrow_attempted {ρ V α : Type} {policy : RetryPolicy ρ} {clock : RetryClock ρ V}
    {attempt : V → Option (Result α) × V} {v : V} {result : Result α}
    (h : (queryOrThrow policy clock attempt v).1 = some result) :
    result = .error ⟨"protocol", "retry driver exhausted attempts"⟩ ∨
      ∃ u, QueriedOrThrow clock attempt v u ∧ (attempt u).1 = some result := by
  unfold queryOrThrow at h
  dsimp only at h
  rcases queryWith_attempted policy
    (fun v => (unwound (attempt v).1, (attempt v).2)) v with hnone | ⟨u, hqueried, hattempt⟩
  · rw [hnone] at h
    cases h
    exact .inl rfl
  · rw [hattempt] at h
    refine .inr ⟨u, hqueried, ?_⟩
    cases hu : (attempt u).1 with
    | none =>
      rw [hu] at h
      cases h
    | some answer =>
      rw [hu] at h
      cases answer with
      | ok value => exact h
      | error error => exact h

theorem denies_of_getOrder {ρ : Type} {policy : RetryPolicy ρ} {clock : RetryClock ρ W}
    {query : ExchangeGateway.OrderQuery} {w : W × SymbolTranslator}
    {answer : Result (Option OrderSnapshot)}
    (h : (getOrder (session.callSigned library hmac config) policy clock query w).1 = some answer)
    (habsent : Oms.conclusivelyAbsent answer) :
    ∃ params v, Asks params ⟨query.clientOrderId, toWire query.instrumentId⟩ ∧
      Denies library (session.send "order.status" params v).1 := by
  unfold getOrder at h
  rcases queryOrThrow_attempted h with hnone | ⟨u, -, hattempt⟩
  · rw [hnone] at habsent
    cases habsent
  · exact denies_of_attempt hattempt habsent

end

end Binance

/-! ### Either connector -/

inductive Connector (W : Type)
  | okx (http : Okx.Http W)
  | binance (session : Binance.Session W) (hmac : Binance.Hmac) (config : Binance.Credentials)

namespace Connector

variable {ρ W : Type} (library : Json.Library) (policy : RetryPolicy ρ) (clock : RetryClock ρ W)

/-- The answer of `get_order`; `none` when it throws. -/
def getOrder (query : OrderQuery) (w : W × Binance.SymbolTranslator) :
    Connector W → Option (Result (Option OrderSnapshot))
  | .okx http => some (Okx.getOrder library http policy clock query w.1).1
  | .binance session hmac config =>
    (Binance.getOrder (session.callSigned library hmac config) policy clock query w).1

/-- The answer of `get_open_orders`; `none` when it throws. -/
def getOpenOrders (w : W × Binance.SymbolTranslator) :
    Connector W → Option (Result (List OrderSnapshot))
  | .okx http => some (Okx.getOpenOrders library http policy clock w.1).1
  | .binance session hmac config =>
    (Binance.getOpenOrders (session.callSigned library hmac config) policy clock w).1

end Connector

/-! ### A small instance, for the concrete queries -/

def patientPolicy : RetryPolicy Unit := ⟨3, 1000, fun _ _ => 100⟩

def stoppedClock : RetryClock Unit Unit := ⟨fun w => (0, w), fun _ w => w, fun w => ((), w)⟩

end ExchangeGateway
