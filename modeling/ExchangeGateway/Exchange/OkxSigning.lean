import ExchangeGateway.Exchange.Lookup
import ExchangeGateway.Exchange.OkxAmend
import ExchangeGateway.Lib.IntText

/-! The signed requests of the OKX REST client and the login of its feed
(`exchange/okx/okx_signer.cpp`, `okx_rest_client.cpp`, `okx_ws_client.cpp`, `core/clock.cpp`). The
signed text is a plain concatenation without separators. It has the path as the client builds it,
and the HTTP library sends its own writing of that. -/
namespace ExchangeGateway.Okx

open IntText Httplib

/-! ### Timestamps -/

/-- What `gmtime_r` makes of a clock that counts nanoseconds since 1970 in 64 bits. -/
structure UtcTime where
  year : ℕ
  month : ℕ
  day : ℕ
  hour : ℕ
  minute : ℕ
  second : ℕ
  ms : ℕ
  year_le : year ≤ 2262
  month_le : month ≤ 12
  day_le : day ≤ 31
  hour_lt : hour < 24
  minute_lt : minute < 60
  second_le : second ≤ 60
  ms_lt : ms < 1000
  deriving DecidableEq

/-- The format `%04d-%02d-%02dT%02d:%02d:%02d.%03dZ`. -/
def utcNowIsoMs (time : UtcTime) : String :=
  String.ofList (zeroPadded 4 time.year ++ '-' :: (zeroPadded 2 time.month ++
    '-' :: (zeroPadded 2 time.day ++ 'T' :: (zeroPadded 2 time.hour ++
      ':' :: (zeroPadded 2 time.minute ++ ':' :: (zeroPadded 2 time.second ++
        '.' :: (zeroPadded 3 time.ms ++ ['Z'])))))))

/-- Seconds since 1970, and the milliseconds. -/
def utcNowEpochMs (secs ms : ℕ) : String :=
  String.ofList (Nat.toDigits 10 secs ++ '.' :: zeroPadded 3 ms)

/-! ### Signatures -/

def kSha256Len : ℕ := 32

/-- The functions of the crypto library: `HMAC`, which may fail, and `EVP_EncodeBlock`. -/
structure Crypto where
  hmac : String → List UInt8 → Option (List UInt8)
  encodeBlock : List UInt8 → String

/-- What the signature of a request covers. -/
def prehash (timestamp method : String) (path : List UInt8) (body : String) : List UInt8 :=
  ascii timestamp ++ ascii method ++ path ++ bytes body

variable (crypto : Crypto)

def signRequest (timestamp method : String) (path : List UInt8) (body secret : String) : String :=
  match crypto.hmac secret (prehash timestamp method path body) with
  | none => ""
  | some mac => if mac.length ≠ kSha256Len then "" else crypto.encodeBlock mac

def kPathVerify : String := "/users/self/verify"

def signWsLogin (timestamp secret : String) : String :=
  signRequest crypto timestamp "GET" (ascii kPathVerify) "" secret

/-! ### Requests -/

def CxlRequest.toJson (request : CxlRequest) : Json :=
  .obj [("clOrdId", .str request.clOrdId), ("instId", .str request.instId)]

def AmendRequest.toJson (request : AmendRequest) : Result Json :=
  if request.newPx = none ∧ request.newSz = none then
    .error ⟨"protocol", "amend requires newPx and/or newSz"⟩
  else
    .ok (.obj ([("clOrdId", .str request.clOrdId), ("instId", .str request.instId)] ++
      (request.newPx.map fun px => ("newPx", Json.str px)).toList ++
      (request.newSz.map fun sz => ("newSz", Json.str sz)).toList))

structure DemoBalanceAdjustment where
  ccy : String
  amt : String
  deriving DecidableEq, Repr

structure DemoBalanceRequest where
  type : String
  adjustments : List DemoBalanceAdjustment
  deriving DecidableEq, Repr

def DemoBalanceAdjustment.toJson (adjustment : DemoBalanceAdjustment) : Json :=
  .obj [("amt", .str adjustment.amt), ("ccy", .str adjustment.ccy)]

def DemoBalanceRequest.toJson (request : DemoBalanceRequest) : Json :=
  .obj [("adjustments", .arr (request.adjustments.map DemoBalanceAdjustment.toJson)),
    ("type", .str request.type)]

def kPathCancel : String := "/api/v5/trade/cancel-order"
def kPathAmend : String := "/api/v5/trade/amend-order"
def kPathDemoAdjustBalance : String := "/api/v5/account/demo-adjust-balance"

inductive Call
  | placeOrder (request : PlaceRequest)
  | cancelOrder (request : CxlRequest)
  | amendOrder (request : AmendRequest)
  | getOrder (query : QueryBytes)
  | getOrdersPending
  | adjustDemoBalance (request : DemoBalanceRequest)

structure Wire where
  method : String
  /-- As given to the HTTP library. -/
  path : List UInt8
  body : String

def Call.json : Call → Option Json
  | .placeOrder request => some (Okx.toJson request)
  | .cancelOrder request => some request.toJson
  | .amendOrder request => request.toJson.toOption
  | .getOrder _ => none
  | .getOrdersPending => none
  | .adjustDemoBalance request => some request.toJson

section

variable (library : Json.Library)

/-- What the client passes on to `signed_request_raw`. -/
def Call.wire : Call → Result Wire
  | .placeOrder request => .ok ⟨"POST", ascii kPathPlace, library.dump (Okx.toJson request)⟩
  | .cancelOrder request => .ok ⟨"POST", ascii kPathCancel, library.dump request.toJson⟩
  | .amendOrder request =>
    request.toJson.map fun body => ⟨"POST", ascii kPathAmend, library.dump body⟩
  | .getOrder query => .ok ⟨"GET", orderInfoPath query, ""⟩
  | .getOrdersPending => .ok ⟨"GET", ascii kPathOrdersPending, ""⟩
  | .adjustDemoBalance request =>
    .ok ⟨"POST", ascii kPathDemoAdjustBalance, library.dump request.toJson⟩

end

structure Credentials where
  apiKey : String
  secretKey : String
  passphrase : String
  demoTrading : Bool

structure HttpRequest extends Wire where
  headers : List (String × String)

variable (config : Credentials)

/-- The request that `signed_request_raw` makes at a time. -/
def signedHttpRequest (time : UtcTime) (wire : Wire) : HttpRequest where
  toWire := wire
  headers :=
    let timestamp := utcNowIsoMs time
    [("OK-ACCESS-KEY", config.apiKey),
      ("OK-ACCESS-SIGN",
        signRequest crypto timestamp wire.method wire.path wire.body config.secretKey),
      ("OK-ACCESS-TIMESTAMP", timestamp),
      ("OK-ACCESS-PASSPHRASE", config.passphrase)] ++
      if config.demoTrading then [("x-simulated-trading", "1")] else []

def Call.request (library : Json.Library) (time : UtcTime) (call : Call) : Result HttpRequest :=
  (call.wire library).map (signedHttpRequest crypto config time)

def HttpRequest.header (request : HttpRequest) (name : String) : String :=
  (request.headers.lookup name).getD ""

def HttpRequest.signedText (request : HttpRequest) : List UInt8 :=
  prehash (request.header "OK-ACCESS-TIMESTAMP") request.method request.path request.body

def HttpRequest.target (request : HttpRequest) : List UInt8 := encodeRequestTarget request.path

/-- The same text of what the venue receives. -/
def HttpRequest.receivedText (request : HttpRequest) : List UInt8 :=
  prehash (request.header "OK-ACCESS-TIMESTAMP") request.method request.target request.body

/-- The signature is the one of what was received. -/
def HttpRequest.Verifies (secret : String) (request : HttpRequest) : Prop :=
  request.header "OK-ACCESS-SIGN" =
    signRequest crypto (request.header "OK-ACCESS-TIMESTAMP") request.method request.target
      request.body secret

/-- The ids in the path of a call are sent as they are signed. -/
def Call.Plain : Call → Prop
  | .getOrder query => Okx.Plain query.instId ∧ Okx.Plain query.clOrdId
  | _ => True

def loginText (secs ms : ℕ) : List UInt8 :=
  prehash (utcNowEpochMs secs ms) "GET" (ascii kPathVerify) ""

/-! ### Reading the signed text back -/

section

theorem ascii_ofList (text : List Char) :
    ascii (String.ofList text) = text.map Char.toUInt8 := by
  unfold ascii
  rw [String.toList_ofList]

theorem bytes_injective : Function.Injective bytes := by
  intro text other h
  have hdata : text.toByteArray.data = other.toByteArray.data := Array.ext' h
  exact String.toByteArray_inj.mp (ByteArray.ext hdata)

/-- Read as text again, ASCII bytes give what was written. -/
theorem map_ofNat_map_toUInt8 {text : List Char} (h : ∀ c ∈ text, c.toNat < 256) :
    (text.map Char.toUInt8).map (fun byte => Char.ofNat byte.toNat) = text := by
  induction text with
  | nil => rfl
  | cons c rest ih =>
    have hbyte : c.toUInt8.toNat = c.toNat := by
      calc c.toUInt8.toNat = c.toNat % 256 := UInt32.toNat_toUInt8 c.val
        _ = c.toNat := Nat.mod_eq_of_lt (h c List.mem_cons_self)
    have hrest := ih fun d hd => h d (List.mem_cons_of_mem c hd)
    rw [List.map_cons, List.map_cons, hrest, hbyte, Char.ofNat_toNat]

theorem toNat_lt_of_isDigit {c : Char} (h : c.isDigit = true) : c.toNat < 256 := by
  have hle : c.toNat ≤ '9'.toNat := (Char.isDigit_iff_toNat.mp h).2
  calc c.toNat ≤ '9'.toNat := hle
    _ < 256 := by decide

theorem toUInt8_ne_of_isDigit {c mark : Char} (h : c.isDigit = true) (hmark : mark.toNat < 48) :
    c.toUInt8 ≠ mark.toUInt8 := by
  intro heq
  have hbytes : c.toNat % 256 = mark.toNat % 256 := by
    calc c.toNat % 256 = c.toUInt8.toNat := (UInt32.toNat_toUInt8 c.val).symm
      _ = mark.toUInt8.toNat := by rw [heq]
      _ = mark.toNat % 256 := UInt32.toNat_toUInt8 mark.val
  have hdigit : 48 ≤ c.toNat := (Char.isDigit_iff_toNat.mp h).1
  have hlt := toNat_lt_of_isDigit h
  omega

theorem toNat_lt_of_mem_utcNowIsoMs {time : UtcTime} {c : Char}
    (h : c ∈ (utcNowIsoMs time).toList) : c.toNat < 256 := by
  unfold utcNowIsoMs at h
  rw [String.toList_ofList] at h
  have hdigit {width n : ℕ} (hc : c ∈ zeroPadded width n) : c.toNat < 256 :=
    toNat_lt_of_isDigit (isDigit_of_mem_zeroPadded hc)
  have hmark {mark : Char} (hc : c = mark) (hlt : mark.toNat < 256) : c.toNat < 256 := hc ▸ hlt
  simp only [List.mem_append, List.mem_cons, List.not_mem_nil, or_false] at h
  rcases h with h | h | h | h | h | h | h | h | h | h | h | h | h | h
  all_goals first
    | exact hdigit h
    | exact hmark h (by decide)

theorem length_utcNowIsoMs (time : UtcTime) : (utcNowIsoMs time).toList.length = 24 := by
  have hyear : (zeroPadded 4 time.year).length = 4 :=
    length_zeroPadded (by decide) (by have := time.year_le; omega)
  have htwo {n : ℕ} (hn : n < 100) : (zeroPadded 2 n).length = 2 := length_zeroPadded (by decide) hn
  have hms : (zeroPadded 3 time.ms).length = 3 := length_zeroPadded (by decide) time.ms_lt
  have hmonth := htwo (n := time.month) (by have := time.month_le; omega)
  have hday := htwo (n := time.day) (by have := time.day_le; omega)
  have hhour := htwo (n := time.hour) (by have := time.hour_lt; omega)
  have hminute := htwo (n := time.minute) (by have := time.minute_lt; omega)
  have hsecond := htwo (n := time.second) (by have := time.second_le; omega)
  unfold utcNowIsoMs
  rw [String.toList_ofList]
  simp only [List.length_append, List.length_cons, List.length_nil, hyear, hmonth, hday, hhour,
    hminute, hsecond, hms]

/-- Every field has its own columns. -/
theorem utcNowIsoMs_injective : Function.Injective utcNowIsoMs := by
  intro time other h
  have hlist := congrArg String.toList h
  unfold utcNowIsoMs at hlist
  rw [String.toList_ofList, String.toList_ofList] at hlist
  have hfield {n m : ℕ} {mark : Char} {text text' : List Char} (hn : n < 100) (hm : m < 100)
      (he : zeroPadded 2 n ++ mark :: text = zeroPadded 2 m ++ mark :: text') :
      n = m ∧ text = text' := by
    obtain ⟨hnm, htext⟩ := zeroPadded_append_inj (by decide) hn hm he
    exact ⟨hnm, (List.cons.inj htext).2⟩
  obtain ⟨year, month, day, hour, minute, second, ms, hy, hmo, hd, hh, hmi, hs, hms⟩ := time
  obtain ⟨year', month', day', hour', minute', second', ms', hy', hmo', hd', hh', hmi', hs',
    hms'⟩ := other
  dsimp only at hlist
  obtain ⟨hyear, hlist⟩ := zeroPadded_append_inj (by decide) (by omega) (by omega) hlist
  obtain ⟨hmonth, hlist⟩ := hfield (by omega) (by omega) (List.cons.inj hlist).2
  obtain ⟨hday, hlist⟩ := hfield (by omega) (by omega) hlist
  obtain ⟨hhour, hlist⟩ := hfield (by omega) (by omega) hlist
  obtain ⟨hminute, hlist⟩ := hfield (by omega) (by omega) hlist
  obtain ⟨hsecond, hlist⟩ := hfield (by omega) (by omega) hlist
  obtain ⟨hmillis, -⟩ := zeroPadded_append_inj (by decide) hms hms' hlist
  subst hyear hmonth hday hhour hminute hsecond hmillis
  rfl

theorem ascii_utcNowIsoMs_inj {time other : UtcTime}
    (h : ascii (utcNowIsoMs time) = ascii (utcNowIsoMs other)) : time = other := by
  have hread := congrArg (List.map fun byte : UInt8 => Char.ofNat byte.toNat) h
  unfold ascii at hread
  rw [map_ofNat_map_toUInt8 fun c hc => toNat_lt_of_mem_utcNowIsoMs hc,
    map_ofNat_map_toUInt8 fun c hc => toNat_lt_of_mem_utcNowIsoMs hc] at hread
  exact utcNowIsoMs_injective (String.toList_inj.mp hread)

/-! ### Bodies -/

/-- The texts of a body under some names, "" where there is none. -/
def texts (body : Json) (names : List String) : List String :=
  names.map fun name => (stringField body name).getD ""

theorem texts_toJson (request : PlaceRequest) :
    texts (Okx.toJson request)
        ["clOrdId", "instId", "side", "ordType", "px", "sz", "tdIf", "tdMode"] =
      [request.clOrdId, request.instId, request.side, request.ordType, request.px, request.sz,
        request.tdIf, request.tdMode] := by
  obtain ⟨clOrdId, instId, side, ordType, px, sz, tdIf, tdMode⟩ := request
  unfold Okx.toJson
  by_cases hpx : px = ""
  all_goals by_cases htdIf : tdIf = ""
  · rw [if_pos hpx, if_pos htdIf, hpx, htdIf]
    rfl
  · rw [if_pos hpx, if_neg htdIf, hpx]
    rfl
  · rw [if_neg hpx, if_pos htdIf, htdIf]
    rfl
  · rw [if_neg hpx, if_neg htdIf]
    rfl

theorem toJson_injective : Function.Injective Okx.toJson := by
  intro request other h
  have htexts := texts_toJson request
  rw [h, texts_toJson] at htexts
  cases request
  cases other
  simp_all

theorem CxlRequest.toJson_injective : Function.Injective CxlRequest.toJson := by
  intro request other h
  obtain ⟨instId, clOrdId⟩ := request
  obtain ⟨instId', clOrdId'⟩ := other
  simp only [CxlRequest.toJson, Json.obj.injEq, List.cons.injEq, Prod.mk.injEq, Json.str.injEq,
    true_and, and_true] at h
  rw [h.1, h.2]

theorem AmendRequest.stringField_toJson {request : AmendRequest} {body : Json}
    (h : request.toJson = .ok body) :
    ["instId", "clOrdId", "newPx", "newSz"].map (stringField body) =
      [some request.instId, some request.clOrdId, request.newPx, request.newSz] := by
  obtain ⟨instId, clOrdId, newPx, newSz⟩ := request
  unfold AmendRequest.toJson at h
  split_ifs at h with hnone
  rw [← Except.ok.inj h]
  cases newPx <;> cases newSz <;> simp [stringField, Json.find?, Json.string?, List.lookup_cons]

theorem AmendRequest.toJson_inj {request other : AmendRequest} {body : Json}
    (h : request.toJson = .ok body) (h' : other.toJson = .ok body) : request = other := by
  have hpair := (stringField_toJson h).symm.trans (stringField_toJson h')
  cases request
  cases other
  simp_all

theorem DemoBalanceAdjustment.toJson_injective :
    Function.Injective DemoBalanceAdjustment.toJson := by
  intro adjustment other h
  obtain ⟨ccy, amt⟩ := adjustment
  obtain ⟨ccy', amt'⟩ := other
  simp only [DemoBalanceAdjustment.toJson, Json.obj.injEq, List.cons.injEq, Prod.mk.injEq,
    Json.str.injEq, true_and, and_true] at h
  rw [h.1, h.2]

theorem DemoBalanceRequest.toJson_injective : Function.Injective DemoBalanceRequest.toJson := by
  intro request other h
  obtain ⟨type, adjustments⟩ := request
  obtain ⟨type', adjustments'⟩ := other
  simp only [DemoBalanceRequest.toJson, Json.obj.injEq, List.cons.injEq, Prod.mk.injEq,
    Json.str.injEq, Json.arr.injEq, true_and, and_true] at h
  rw [List.map_injective_iff.mpr DemoBalanceAdjustment.toJson_injective h.1, h.2]

/-! ### Calls -/

def Wire.text (wire : Wire) : List UInt8 := ascii wire.method ++ wire.path ++ bytes wire.body

theorem prehash_wire (timestamp : String) (wire : Wire) :
    prehash timestamp wire.method wire.path wire.body = ascii timestamp ++ wire.text := by
  unfold prehash Wire.text
  simp only [List.append_assoc]

inductive Endpoint
  | place
  | cancel
  | amend
  | orderInfo
  | ordersPending
  | demoAdjustBalance

/-- The first bytes after the timestamp, as many as tell the endpoints apart. -/
def Endpoint.opening : Endpoint → List UInt8
  | .place => ascii "POST/api/v5/trade/order"
  | .cancel => ascii "POST/api/v5/trade/cance"
  | .amend => ascii "POST/api/v5/trade/amend"
  | .orderInfo => ascii "GET/api/v5/trade/order?"
  | .ordersPending => ascii "GET/api/v5/trade/orders"
  | .demoAdjustBalance => ascii "POST/api/v5/account/dem"

def Call.endpoint : Call → Endpoint
  | .placeOrder _ => .place
  | .cancelOrder _ => .cancel
  | .amendOrder _ => .amend
  | .getOrder _ => .orderInfo
  | .getOrdersPending => .ordersPending
  | .adjustDemoBalance _ => .demoAdjustBalance

theorem Endpoint.length_opening (endpoint : Endpoint) : endpoint.opening.length = 23 := by
  cases endpoint <;> decide

theorem Endpoint.opening_injective : Function.Injective Endpoint.opening := by
  intro endpoint other h
  cases endpoint <;> cases other <;> first | rfl | exact absurd h (by decide)

variable {library : Json.Library}

/-- A text opens with the bytes of an endpoint when the method and the path do. -/
theorem isPrefix_wireText (endpoint : Endpoint) {method : String} {path : List UInt8}
    (h : endpoint.opening <+: ascii method ++ path) (body : String) :
    endpoint.opening <+: Wire.text ⟨method, path, body⟩ :=
  h.trans (List.prefix_append _ _)

theorem isPrefix_orderInfoPath (query : QueryBytes) :
    Endpoint.orderInfo.opening <+: ascii "GET" ++ orderInfoPath query := by
  have hfixed : Endpoint.orderInfo.opening =
      ascii "GET" ++ (ascii kPathOrderInfo ++ ascii "?") := by
    decide
  unfold orderInfoPath
  rw [hfixed, ← List.append_assoc]
  exact List.prefix_append _ _

theorem wire_amendOrder {request : AmendRequest} {wire : Wire}
    (h : (Call.amendOrder request).wire library = .ok wire) :
    ∃ body, request.toJson = .ok body ∧ wire = ⟨"POST", ascii kPathAmend, library.dump body⟩ := by
  simp only [Call.wire] at h
  cases hbody : request.toJson with
  | error error =>
    rw [hbody] at h
    cases h
  | ok body =>
    rw [hbody] at h
    exact ⟨body, rfl, (Except.ok.inj h).symm⟩

theorem Call.isPrefix_text {call : Call} {wire : Wire} (h : call.wire library = .ok wire) :
    call.endpoint.opening <+: wire.text := by
  cases call with
  | placeOrder request =>
    rw [← Except.ok.inj h]
    exact isPrefix_wireText .place (by decide) _
  | cancelOrder request =>
    rw [← Except.ok.inj h]
    exact isPrefix_wireText .cancel (by decide) _
  | amendOrder request =>
    obtain ⟨body, -, hwire⟩ := wire_amendOrder h
    rw [hwire]
    exact isPrefix_wireText .amend (by decide) _
  | getOrder query =>
    rw [← Except.ok.inj h]
    exact isPrefix_wireText .orderInfo (isPrefix_orderInfoPath query) _
  | getOrdersPending =>
    rw [← Except.ok.inj h]
    exact isPrefix_wireText .ordersPending (by decide) _
  | adjustDemoBalance request =>
    rw [← Except.ok.inj h]
    exact isPrefix_wireText .demoAdjustBalance (by decide) _

/-- The JSON library reads the body of a call back. -/
def Call.ReadsBack (library : Json.Library) (call : Call) : Prop :=
  ∀ body, call.json = some body → library.parse (library.dump body) = some body

theorem dump_inj {call other : Call} {body body' : Json} (hcall : call.ReadsBack library)
    (hother : other.ReadsBack library) (h : call.json = some body) (h' : other.json = some body')
    (heq : library.dump body = library.dump body') : body = body' := by
  have hread := hcall body h
  rw [heq, hother body' h'] at hread
  exact (Option.some.inj hread).symm

theorem body_eq_of_text_eq {method : String} {path : List UInt8} {body body' : String}
    (h : Wire.text ⟨method, path, body⟩ = Wire.text ⟨method, path, body'⟩) : body = body' :=
  bytes_injective (List.append_cancel_left h)

theorem Call.wire_inj {call other : Call} {wire wire' : Wire} (hcall : call.ReadsBack library)
    (hother : other.ReadsBack library) (h : call.wire library = .ok wire)
    (h' : other.wire library = .ok wire') (htext : wire.text = wire'.text) : call = other := by
  have hendpoint : call.endpoint = other.endpoint := by
    have hopening := Call.isPrefix_text h
    rw [htext] at hopening
    have hlength : call.endpoint.opening.length = other.endpoint.opening.length := by
      rw [Endpoint.length_opening, Endpoint.length_opening]
    have hle := List.prefix_of_prefix_length_le hopening (Call.isPrefix_text h') hlength.le
    exact Endpoint.opening_injective (hle.eq_of_length hlength)
  cases call with
  | placeOrder request =>
    cases other with
    | placeOrder request' =>
      rw [← Except.ok.inj h, ← Except.ok.inj h'] at htext
      have hbody := dump_inj hcall hother rfl rfl (body_eq_of_text_eq htext)
      rw [toJson_injective hbody]
    | cancelOrder | amendOrder | getOrder | getOrdersPending | adjustDemoBalance =>
      cases hendpoint
  | cancelOrder request =>
    cases other with
    | cancelOrder request' =>
      rw [← Except.ok.inj h, ← Except.ok.inj h'] at htext
      have hbody := dump_inj hcall hother rfl rfl (body_eq_of_text_eq htext)
      rw [CxlRequest.toJson_injective hbody]
    | placeOrder | amendOrder | getOrder | getOrdersPending | adjustDemoBalance =>
      cases hendpoint
  | amendOrder request =>
    cases other with
    | amendOrder request' =>
      obtain ⟨body, hbody, hwire⟩ := wire_amendOrder h
      obtain ⟨body', hbody', hwire'⟩ := wire_amendOrder h'
      rw [hwire, hwire'] at htext
      have heq := dump_inj hcall hother (congrArg Except.toOption hbody)
        (congrArg Except.toOption hbody') (body_eq_of_text_eq htext)
      rw [← heq] at hbody'
      rw [AmendRequest.toJson_inj hbody hbody']
    | placeOrder | cancelOrder | getOrder | getOrdersPending | adjustDemoBalance =>
      cases hendpoint
  | getOrder query =>
    cases other with
    | getOrder query' =>
      rw [← Except.ok.inj h, ← Except.ok.inj h'] at htext
      have hpath := List.append_cancel_left (List.append_cancel_right htext)
      rw [toQuery_injective (List.append_cancel_left hpath)]
    | placeOrder | cancelOrder | amendOrder | getOrdersPending | adjustDemoBalance =>
      cases hendpoint
  | getOrdersPending =>
    cases other with
    | getOrdersPending => rfl
    | placeOrder | cancelOrder | amendOrder | getOrder | adjustDemoBalance =>
      cases hendpoint
  | adjustDemoBalance request =>
    cases other with
    | adjustDemoBalance request' =>
      rw [← Except.ok.inj h, ← Except.ok.inj h'] at htext
      have hbody := dump_inj hcall hother rfl rfl (body_eq_of_text_eq htext)
      rw [DemoBalanceRequest.toJson_injective hbody]
    | placeOrder | cancelOrder | amendOrder | getOrder | getOrdersPending =>
      cases hendpoint

/-! ### Signed texts -/

variable {crypto : Crypto} {config : Credentials}

theorem request_eq {time : UtcTime} {call : Call} {request : HttpRequest}
    (h : call.request crypto config library time = .ok request) :
    ∃ wire, call.wire library = .ok wire ∧
      request = signedHttpRequest crypto config time wire := by
  unfold Call.request at h
  cases hwire : call.wire library with
  | error error =>
    rw [hwire] at h
    cases h
  | ok wire =>
    rw [hwire] at h
    exact ⟨wire, rfl, (Except.ok.inj h).symm⟩

theorem header_timestamp (time : UtcTime) (wire : Wire) :
    (signedHttpRequest crypto config time wire).header "OK-ACCESS-TIMESTAMP" =
      utcNowIsoMs time := rfl

/-- The target of a call is its path unless an id is written anew. -/
theorem target_eq_path_iff {call : Call} {wire : Wire} (h : call.wire library = .ok wire) :
    encodeRequestTarget wire.path = wire.path ↔ call.Plain := by
  have hfixed : ∀ path ∈ [kPathPlace, kPathCancel, kPathAmend, kPathOrdersPending,
      kPathDemoAdjustBalance], encodeRequestTarget (ascii path) = ascii path := by
    decide
  cases call with
  | getOrder query =>
    rw [← Except.ok.inj h]
    exact encodeRequestTarget_orderInfoPath_iff query
  | placeOrder request =>
    rw [← Except.ok.inj h]
    exact iff_of_true (hfixed kPathPlace (by simp)) trivial
  | cancelOrder request =>
    rw [← Except.ok.inj h]
    exact iff_of_true (hfixed kPathCancel (by simp)) trivial
  | amendOrder request =>
    obtain ⟨body, -, hwire⟩ := wire_amendOrder h
    rw [hwire]
    exact iff_of_true (hfixed kPathAmend (by simp)) trivial
  | getOrdersPending =>
    rw [← Except.ok.inj h]
    exact iff_of_true (hfixed kPathOrdersPending (by simp)) trivial
  | adjustDemoBalance request =>
    rw [← Except.ok.inj h]
    exact iff_of_true (hfixed kPathDemoAdjustBalance (by simp)) trivial

theorem receivedText_eq_iff (request : HttpRequest) :
    request.receivedText = request.signedText ↔
      encodeRequestTarget request.path = request.path := by
  unfold HttpRequest.receivedText HttpRequest.signedText HttpRequest.target prehash
  rw [List.append_left_inj, List.append_right_inj]

/-- A request verifies if what is received is what was signed. -/
theorem verifies_signedHttpRequest (time : UtcTime) {wire : Wire}
    (h : encodeRequestTarget wire.path = wire.path) :
    (signedHttpRequest crypto config time wire).Verifies crypto config.secretKey := by
  have htarget : (signedHttpRequest crypto config time wire).target = wire.path := h
  unfold HttpRequest.Verifies
  rw [htarget]
  rfl

theorem signedText_signedHttpRequest (time : UtcTime) (wire : Wire) :
    (signedHttpRequest crypto config time wire).signedText =
      ascii (utcNowIsoMs time) ++ wire.text := by
  unfold HttpRequest.signedText
  rw [header_timestamp]
  exact prehash_wire _ wire

theorem length_ascii (text : String) : (ascii text).length = text.toList.length :=
  List.length_map _

/-- A year of four digits is followed by a dash. -/
theorem dash_signedText (time : UtcTime) (rest : List UInt8) :
    (ascii (utcNowIsoMs time) ++ rest)[4]? = some '-'.toUInt8 := by
  have hyear : (zeroPadded 4 time.year).length = 4 :=
    length_zeroPadded (by decide) (by have := time.year_le; omega)
  unfold utcNowIsoMs
  rw [ascii_ofList, List.map_append, List.append_assoc,
    List.getElem?_append_right (by simp [hyear])]
  simp [hyear]

/-- At that place a login has a digit or a point. -/
theorem dash_not_loginText (secs ms : ℕ) : (loginText secs ms)[4]? ≠ some '-'.toUInt8 := by
  intro h
  have hlength : 4 < (ascii (utcNowEpochMs secs ms)).length := by
    have hsecs : 0 < (Nat.toDigits 10 secs).length := Nat.length_toDigits_pos
    have hms : 3 ≤ (zeroPadded 3 ms).length := by
      unfold zeroPadded
      rw [List.length_leftpad]
      omega
    unfold utcNowEpochMs
    rw [ascii_ofList, List.length_map, List.length_append, List.length_cons]
    omega
  unfold loginText prehash at h
  rw [List.append_assoc, List.append_assoc, List.getElem?_append_left hlength] at h
  have hmem := List.mem_of_getElem? h
  unfold utcNowEpochMs at hmem
  rw [ascii_ofList, List.mem_map] at hmem
  obtain ⟨c, hc, hdash⟩ := hmem
  rw [List.mem_append, List.mem_cons] at hc
  rcases hc with hsecs | hpoint | hms
  · have hdigit := Nat.isDigit_of_mem_toDigits (by decide) (by decide) hsecs
    exact toUInt8_ne_of_isDigit hdigit (by decide) hdash
  · rw [hpoint] at hdash
    exact absurd hdash (by decide)
  · exact toUInt8_ne_of_isDigit (isDigit_of_mem_zeroPadded hms) (by decide) hdash

/-- What the venue receives is what was signed exactly if no id of an order lookup is written anew,
and then the signature verifies. No two requests sign the same text unless they are the same call at
the same time, and none signs the text of a login. -/
theorem signedText_eq_iff {time time' : UtcTime} {call call' : Call}
    {request request' : HttpRequest} (hcall : call.ReadsBack library)
    (hcall' : call'.ReadsBack library) (h : call.request crypto config library time = .ok request)
    (h' : call'.request crypto config library time' = .ok request') :
    (request.receivedText = request.signedText ↔ call.Plain) ∧
      (call.Plain → request.Verifies crypto config.secretKey) ∧
      (request.signedText = request'.signedText ↔ time = time' ∧ call = call') ∧
      ∀ secs ms, request.signedText ≠ loginText secs ms := by
  obtain ⟨wire, hwire, hrequest⟩ := request_eq h
  obtain ⟨wire', hwire', hrequest'⟩ := request_eq h'
  rw [hrequest, hrequest']
  have htarget := target_eq_path_iff hwire
  refine ⟨(receivedText_eq_iff _).trans htarget, fun hplain => ?_, ?_, ?_⟩
  · exact verifies_signedHttpRequest time (htarget.mpr hplain)
  · rw [signedText_signedHttpRequest, signedText_signedHttpRequest]
    constructor
    · intro htext
      have hlength : (ascii (utcNowIsoMs time)).length = (ascii (utcNowIsoMs time')).length := by
        rw [length_ascii, length_ascii, length_utcNowIsoMs, length_utcNowIsoMs]
      obtain ⟨htime, hrest⟩ := List.append_inj htext hlength
      exact ⟨ascii_utcNowIsoMs_inj htime, Call.wire_inj hcall hcall' hwire hwire' hrest⟩
    · rintro ⟨rfl, rfl⟩
      rw [hwire] at hwire'
      rw [Except.ok.inj hwire']
  · intro secs ms hlogin
    apply dash_not_loginText secs ms
    rw [← hlogin, signedText_signedHttpRequest]
    exact dash_signedText time wire.text

end

def cancelRequest : CxlRequest := ⟨"BTC-USDT", "a1"⟩

def cancelText : String := "\x7b\"clOrdId\":\"a1\",\"instId\":\"BTC-USDT\"\x7d"

def cancelLibrary : Json.Library where
  parse text := if text = cancelText then some cancelRequest.toJson else none
  dump _ := cancelText
  truncate _ := 0

def cancelTime : UtcTime :=
  ⟨2026, 1, 31, 9, 5, 7, 42, by decide, by decide, by decide, by decide, by decide, by decide,
    by decide⟩

/-- A crypto library whose every code is 32 zero bytes. -/
def cancelCrypto : Crypto where
  hmac _ _ := some (List.replicate 32 0)
  encodeBlock _ := "AAAAAAAAAAAAAAAAAAAAAAAAAAAAAAAAAAAAAAAAAAA="

def cancelConfig : Credentials := ⟨"key", "secret", "phrase", false⟩

/-- A cancel and a listing of the same millisecond sign different texts. -/
theorem signedText_cancel_ne :
    (signedHttpRequest cancelCrypto cancelConfig cancelTime
        ⟨"POST", ascii kPathCancel, cancelText⟩).signedText ≠
      (signedHttpRequest cancelCrypto cancelConfig cancelTime
        ⟨"GET", ascii kPathOrdersPending, ""⟩).signedText := by
  intro heq
  have hread : (Call.cancelOrder cancelRequest).ReadsBack cancelLibrary := by
    intro body hbody
    rw [← Option.some.inj hbody]
    rfl
  have hread' : Call.getOrdersPending.ReadsBack cancelLibrary := by
    intro body hbody
    cases hbody
  have hcancel : (Call.cancelOrder cancelRequest).request cancelCrypto cancelConfig cancelLibrary
      cancelTime = .ok (signedHttpRequest cancelCrypto cancelConfig cancelTime
        ⟨"POST", ascii kPathCancel, cancelText⟩) := rfl
  have hpending : Call.getOrdersPending.request cancelCrypto cancelConfig cancelLibrary
      cancelTime = .ok (signedHttpRequest cancelCrypto cancelConfig cancelTime
        ⟨"GET", ascii kPathOrdersPending, ""⟩) := rfl
  have hsame := (signedText_eq_iff hread hread' hcancel hpending).2.2.1.mp heq
  cases hsame.2

end ExchangeGateway.Okx
