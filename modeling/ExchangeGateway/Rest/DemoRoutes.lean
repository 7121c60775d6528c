import ExchangeGateway.Exchange.OkxSigning
import ExchangeGateway.Rest.Support

/-! The demo balance route (`rest/okx_demo_routes.cpp`), down to the request that is sent
(`exchange/okx/okx_connector.cpp`, `okx_rest_client.cpp`). An adjustment that is sent twice applies
twice. -/
namespace ExchangeGateway

/-! ### The connector -/

namespace Okx

/-- What the REST client stands on: the clock, and the HTTP client with its host. -/
structure Transport (W : Type) where
  host : String
  now : W → UtcTime × W
  perform : HttpRequest → W → Option Response × W

section

variable (library : Json.Library) (crypto : Crypto) (config : Credentials) {W : Type}
  (transport : Transport W)

/-- `OkxRestClient::signed_request_raw`; `none` is a network failure. -/
def signedRequestRaw (wire : Wire) (w : W) : Option Response × W :=
  let time := transport.now w
  transport.perform (signedHttpRequest crypto config time.1 wire) time.2

/-- `OkxRestClient::adjust_demo_balance`: the `data` of the envelope. -/
def restAdjustDemoBalance (request : DemoBalanceRequest) (w : W) : Result Json × W :=
  let raw := signedRequestRaw crypto config transport
    ⟨"POST", ascii kPathDemoAdjustBalance, library.dump request.toJson⟩ w
  ((signedRequest library transport.host kPathDemoAdjustBalance raw.1).map Json.arr, raw.2)

/-- `OkxConnector::adjust_demo_balance`. There are no retries. -/
def adjustDemoBalance (request : DemoBalanceRequest) (w : W) : Result Json × W :=
  if !config.demoTrading then
    (.error ⟨"invalid_request", "demo balance adjustment requires okx demoTrading"⟩, w)
  else restAdjustDemoBalance library crypto config transport request w

/-- The world keeps the requests that were sent. -/
structure Transport.Records (sent : W → List HttpRequest) : Prop where
  now : ∀ w, sent (transport.now w).2 = sent w
  perform : ∀ request w, sent (transport.perform request w).2 = sent w ++ [request]

end

end Okx

/-! ### The route -/

namespace Rest

open Okx (DemoBalanceAdjustment DemoBalanceRequest)

def adjustmentFields : List String := ["ccy", "amt"]

/-- One round of the loop; `index` says which entry it is. -/
def parseAdjustment (index : String) (item : Json) : Except Response DemoBalanceAdjustment := do
  require item.isObject (invalidRequest (index ++ " must be an object") "")
  let unknown := unknownFields item adjustmentFields
  require (unknown = "") (invalidRequest (index ++ ": unsupported field(s): " ++ unknown) "")
  let ccy := stringField item "ccy"
  require (ccy ≠ "") (invalidRequest (index ++ ".ccy is required") "")
  let amt := stringField item "amt"
  require (amt ≠ "" && isDecimal amt)
    (invalidRequest (index ++ ".amt must be a positive decimal") "")
  return ⟨ccy, amt⟩

def entryName (i : ℕ) : String := "adjustments[" ++ toString i ++ "]"

/-- The loop, from entry `i` on. -/
def parseAdjustments : ℕ → List Json → Except Response (List DemoBalanceAdjustment)
  | _, [] => .ok []
  | i, item :: items => do
    let adjustment ← parseAdjustment (entryName i) item
    let adjustments ← parseAdjustments (i + 1) items
    return adjustment :: adjustments

/-- The array of adjustments, unless it is empty. -/
def adjustmentItems (body : Json) : Option (List Json) :=
  match body.find? "adjustments" with
  | some (.arr (item :: items)) => some (item :: items)
  | _ => none

def demoFields : List String := ["type", "adjustments"]

def parseAdjustmentBody (body : Json) : Except Response DemoBalanceRequest := do
  let unknown := unknownFields body demoFields
  require (unknown = "") (invalidRequest ("unsupported field(s): " ++ unknown) "")
  let type := stringField body "type"
  require (type = "increase" || type = "reduce")
    (invalidRequest "type must be \"increase\" or \"reduce\"" "")
  let items ← orAnswer (adjustmentItems body)
    (invalidRequest "adjustments must be a non-empty array of \x7bccy, amt\x7d" "")
  let adjustments ← parseAdjustments 0 items
  return ⟨type, adjustments⟩

/-- The response to an adjustment that was sent. -/
def adjustedResponse (request : DemoBalanceRequest) : Result Json → Response
  | .error error => mapError error ""
  | .ok data =>
    { status := 200
      body := .obj [("adjustments", .arr (request.adjustments.map DemoBalanceAdjustment.toJson)),
        ("data", data), ("type", .str request.type), ("venue", .str "okx")] }

/-- POST /venue/okx/demo-adjust-balance. -/
def postDemoAdjustBalance (library : Json.Library) (crypto : Okx.Crypto)
    (config : Okx.Credentials) {W : Type} (transport : Okx.Transport W) (text : String) (w : W) :
    Response × W :=
  match parseJsonBody library text >>= parseAdjustmentBody with
  | .error response => (response, w)
  | .ok request =>
    let result := Okx.adjustDemoBalance library crypto config transport request w
    (adjustedResponse request result.1, result.2)

/-! ### What a body asks for -/

structure Entry (item : Json) (adjustment : DemoBalanceAdjustment) : Prop where
  object : item.isObject
  known : ∀ name ∈ names item, name ∈ adjustmentFields ∨ name = ""
  ccy : item.find? "ccy" = some (.str adjustment.ccy)
  ccy_ne : adjustment.ccy ≠ ""
  amt : item.find? "amt" = some (.str adjustment.amt)
  decimal : isDecimal adjustment.amt

structure Framed (body : Json) (type : String) (items : List Json) : Prop where
  known : ∀ name ∈ names body, name ∈ demoFields ∨ name = ""
  typed : body.find? "type" = some (.str type)
  kind : type = "increase" ∨ type = "reduce"
  listed : body.find? "adjustments" = some (.arr items)
  nonempty : items ≠ []

/-- The body asks for the request: its adjustments are the entries, in their order. -/
def Asks (body : Json) (request : DemoBalanceRequest) : Prop :=
  ∃ items, Framed body request.type items ∧ List.Forall₂ Entry items request.adjustments

section

variable {index : String} {item : Json} {items : List Json} {response : Response}

theorem entry_of_parse {adjustment : DemoBalanceAdjustment}
    (h : parseAdjustment index item = .ok adjustment) : Entry item adjustment := by
  unfold parseAdjustment at h
  simp only [bind_eq_ok, require_ok, decide_eq_true_eq, Bool.and_eq_true] at h
  obtain ⟨-, hobject, -, hknown, -, hccy, -, ⟨hamt, hdecimal⟩, hresult⟩ := h
  rw [← Except.ok.inj hresult]
  exact ⟨hobject, unknownFields_eq_empty.mp hknown, find?_of_stringField hccy, hccy,
    find?_of_stringField hamt, hdecimal⟩

theorem parse_of_entry {adjustment : DemoBalanceAdjustment} (h : Entry item adjustment) :
    parseAdjustment index item = .ok adjustment := by
  have hccy := stringField_of_find? h.ccy
  have hamt := stringField_of_find? h.amt
  have hamt_ne : adjustment.amt ≠ "" := by
    intro he
    have hdecimal := h.decimal
    rw [he] at hdecimal
    exact absurd hdecimal (by decide)
  unfold parseAdjustment
  simp only [bind_eq_ok, require_ok, decide_eq_true_eq, Bool.and_eq_true]
  refine ⟨(), h.object, (), unknownFields_eq_empty.mpr h.known, (), ?_, (), ?_, ?_⟩
  · rw [hccy]
    exact h.ccy_ne
  · rw [hamt]
    exact ⟨hamt_ne, h.decimal⟩
  · rw [hccy, hamt]
    rfl

theorem parseAdjustment_ok_iff {adjustment : DemoBalanceAdjustment} :
    parseAdjustment index item = .ok adjustment ↔ Entry item adjustment :=
  ⟨entry_of_parse, parse_of_entry⟩

theorem parseAdjustments_ok_iff {i : ℕ} {adjustments : List DemoBalanceAdjustment} :
    parseAdjustments i items = .ok adjustments ↔ List.Forall₂ Entry items adjustments := by
  induction items generalizing i adjustments with
  | nil =>
    rw [List.forall₂_nil_left_iff]
    constructor
    · intro h
      exact (Except.ok.inj h).symm
    · intro h
      rw [h]
      rfl
  | cons item items ih =>
    unfold parseAdjustments
    simp only [bind_eq_ok, parseAdjustment_ok_iff, ih]
    constructor
    · rintro ⟨adjustment, hentry, rest, hrest, hresult⟩
      rw [← Except.ok.inj hresult]
      exact .cons hentry hrest
    · intro h
      cases h with
      | cons hentry hrest => exact ⟨_, hentry, _, hrest, rfl⟩

def Blames {α : Type} (index : String) (result : Except Response α) : Prop :=
  ∀ response, result = .error response → ∃ reason, response = invalidRequest (index ++ reason) ""

theorem blames_require (ok : Bool) (index reason : String) :
    Blames index (require ok (invalidRequest (index ++ reason) "")) := by
  intro response h
  cases ok with
  | true => cases h
  | false => exact ⟨reason, (Except.error.inj h).symm⟩

theorem Blames.bind {α β : Type} {first : Except Response α} {next : α → Except Response β}
    (hfirst : Blames index first) (hnext : ∀ a, Blames index (next a)) :
    Blames index (first >>= next) := by
  cases first with
  | error refused =>
    intro response h
    exact hfirst response (by rw [← Except.error.inj h])
  | ok a => exact hnext a

theorem blames_parseAdjustment (index : String) (item : Json) :
    Blames index (parseAdjustment index item) := by
  unfold parseAdjustment
  simp only [String.append_assoc]
  apply (blames_require _ _ _).bind
  intro _
  apply (blames_require _ _ _).bind
  intro _
  apply (blames_require _ _ _).bind
  intro _
  apply (blames_require _ _ _).bind
  intro _ response h
  cases h

/-- The response names the first entry that asks for nothing; they are counted from `i` on. -/
def BlamesFirst (i : ℕ) (items : List Json) (response : Response) : Prop :=
  ∃ before item after, items = before ++ item :: after ∧
    (∀ entry ∈ before, ∃ adjustment, Entry entry adjustment) ∧
    (¬ ∃ adjustment, Entry item adjustment) ∧
    ∃ reason, response = invalidRequest (entryName (i + before.length) ++ reason) ""

theorem parseAdjustments_error {i : ℕ} (h : parseAdjustments i items = .error response) :
    BlamesFirst i items response := by
  induction items generalizing i with
  | nil => cases h
  | cons item items ih =>
    unfold parseAdjustments at h
    cases hitem : parseAdjustment (entryName i) item with
    | error refused =>
      rw [hitem] at h
      have hresponse : refused = response := Except.error.inj h
      have hnone : ¬ ∃ adjustment, Entry item adjustment := by
        rintro ⟨adjustment, hentry⟩
        rw [parse_of_entry hentry] at hitem
        cases hitem
      rw [hresponse] at hitem
      exact ⟨[], item, items, rfl, nofun, hnone, blames_parseAdjustment _ _ _ hitem⟩
    | ok adjustment =>
      rw [hitem] at h
      cases hrest : parseAdjustments (i + 1) items with
      | ok adjustments =>
        rw [hrest] at h
        cases h
      | error refused =>
        rw [hrest] at h
        have hresponse : refused = response := Except.error.inj h
        rw [hresponse] at hrest
        obtain ⟨before, wrong, after, hitems, hbefore, hwrong, reason, hreason⟩ := ih hrest
        refine ⟨item :: before, wrong, after, by rw [hitems]; rfl, ?_, hwrong, reason, ?_⟩
        · intro entry hentry
          cases hentry with
          | head => exact ⟨adjustment, entry_of_parse hitem⟩
          | tail _ hmem => exact hbefore entry hmem
        · rw [hreason, List.length_cons, Nat.add_right_comm, Nat.add_assoc]

theorem adjustmentItems_eq_some {body : Json} :
    adjustmentItems body = some items ↔
      body.find? "adjustments" = some (.arr items) ∧ items ≠ [] := by
  unfold adjustmentItems
  split
  · rename_i first rest hfind
    rw [hfind, Option.some.injEq, Option.some.injEq, Json.arr.injEq]
    constructor
    · intro h
      rw [← h]
      exact ⟨rfl, by simp⟩
    · exact And.left
  · rename_i hnone
    constructor
    · intro h
      cases h
    · rintro ⟨hfind, hne⟩
      cases items with
      | nil => exact absurd rfl hne
      | cons first rest => exact absurd hfind (hnone first rest)

/-- Past the checks of the body only the loop can refuse. -/
theorem parseAdjustmentBody_framed {body : Json} {type : String} (h : Framed body type items) :
    parseAdjustmentBody body =
      (parseAdjustments 0 items >>= fun adjustments => .ok ⟨type, adjustments⟩) := by
  have hunknown := unknownFields_eq_empty.mpr h.known
  have htype := stringField_of_find? h.typed
  have hitems := adjustmentItems_eq_some.mpr ⟨h.listed, h.nonempty⟩
  have hkind : (decide (type = "increase") || decide (type = "reduce")) = true := by
    simpa using h.kind
  unfold parseAdjustmentBody
  simp only [hunknown, htype, hitems, hkind]
  rfl

theorem parseAdjustmentBody_ok_iff {body : Json} {request : DemoBalanceRequest} :
    parseAdjustmentBody body = .ok request ↔ Asks body request := by
  constructor
  · intro h
    unfold parseAdjustmentBody at h
    simp only [bind_eq_ok, require_ok, orAnswer_ok, decide_eq_true_eq, Bool.or_eq_true,
      adjustmentItems_eq_some, parseAdjustments_ok_iff] at h
    obtain ⟨-, hknown, -, hkind, items, ⟨hlisted, hne⟩, adjustments, hentries, hresult⟩ := h
    rw [← Except.ok.inj hresult]
    have hne_empty : stringField body "type" ≠ "" := by
      cases hkind with
      | inl hkind => rw [hkind]; decide
      | inr hkind => rw [hkind]; decide
    exact ⟨items, ⟨unknownFields_eq_empty.mp hknown, find?_of_stringField hne_empty, hkind,
      hlisted, hne⟩, hentries⟩
  · rintro ⟨items, hframed, hentries⟩
    rw [parseAdjustmentBody_framed hframed, parseAdjustments_ok_iff.mpr hentries]
    rfl

theorem refuses_parseAdjustments (i : ℕ) (items : List Json) :
    Refuses (parseAdjustments i items) := by
  intro response h
  obtain ⟨before, item, after, -, -, -, reason, hreason⟩ := parseAdjustments_error h
  rw [hreason]
  rfl

theorem refuses_parseAdjustmentBody (body : Json) : Refuses (parseAdjustmentBody body) := by
  unfold parseAdjustmentBody
  apply (refuses_require _ _ _).bind
  intro _
  apply (refuses_require _ _ _).bind
  intro _
  apply (refuses_orAnswer _ _ _).bind
  intro items
  apply (refuses_parseAdjustments 0 items).bind
  intro adjustments
  exact refuses_ok _

theorem entry_toJson {adjustment : DemoBalanceAdjustment} (h : Entry item adjustment) :
    Entry adjustment.toJson adjustment := by
  refine ⟨rfl, ?_, rfl, h.ccy_ne, rfl, h.decimal⟩
  intro name hname
  simp only [names, DemoBalanceAdjustment.toJson, List.map_cons, List.map_nil, List.mem_cons,
    List.not_mem_nil, or_false] at hname
  simp only [adjustmentFields, List.mem_cons, List.not_mem_nil, or_false]
  tauto

theorem entries_toJson {adjustments : List DemoBalanceAdjustment}
    (h : List.Forall₂ Entry items adjustments) :
    List.Forall₂ Entry (adjustments.map DemoBalanceAdjustment.toJson) adjustments := by
  induction h with
  | nil => exact .nil
  | cons hentry _ ih => exact .cons (entry_toJson hentry) ih

/-- What goes to the venue asks for the same again. -/
theorem asks_toJson {body : Json} {request : DemoBalanceRequest} (h : Asks body request) :
    Asks request.toJson request := by
  obtain ⟨items, hframed, hentries⟩ := h
  refine ⟨request.adjustments.map DemoBalanceAdjustment.toJson, ?_, entries_toJson hentries⟩
  refine ⟨?_, rfl, hframed.kind, rfl, ?_⟩
  · intro name hname
    simp only [names, DemoBalanceRequest.toJson, List.map_cons, List.map_nil, List.mem_cons,
      List.not_mem_nil, or_false] at hname
    simp only [demoFields, List.mem_cons, List.not_mem_nil, or_false]
    tauto
  · intro hnil
    have hlength := hentries.length_eq
    rw [List.map_eq_nil_iff.mp hnil, List.length_nil, List.length_eq_zero_iff] at hlength
    exact hframed.nonempty hlength

theorem mapError_status_ne (error : Error) (clientOrderId : String) :
    (mapError error clientOrderId).status ≠ 200 := by
  unfold mapError
  split_ifs
  all_goals
    intro h
    cases h

end

/-! ### The handler -/

section

variable {library : Json.Library} {crypto : Okx.Crypto} {config : Okx.Credentials} {W : Type}
  {transport : Okx.Transport W}

def TextAsks (library : Json.Library) (text : String) (request : DemoBalanceRequest) : Prop :=
  ∃ body, library.parse text = some body ∧ Asks body request

theorem isObject_of_asks {body : Json} {request : DemoBalanceRequest} (h : Asks body request) :
    ∃ fields, body = .obj fields := by
  obtain ⟨items, hframed, -⟩ := h
  cases body with
  | obj fields => exact ⟨fields, rfl⟩
  | _ => cases hframed.typed

theorem parse_ok_iff {text : String} {request : DemoBalanceRequest} :
    (parseJsonBody library text >>= parseAdjustmentBody) = .ok request ↔
      TextAsks library text request := by
  rw [bind_eq_ok]
  constructor
  · rintro ⟨body, hbody, hrequest⟩
    unfold parseJsonBody at hbody
    split at hbody
    · rename_i fields hparse
      rw [← Except.ok.inj hbody] at hrequest
      exact ⟨.obj fields, hparse, parseAdjustmentBody_ok_iff.mp hrequest⟩
    · cases hbody
  · rintro ⟨body, hparse, hasks⟩
    obtain ⟨fields, rfl⟩ := isObject_of_asks hasks
    refine ⟨.obj fields, ?_, parseAdjustmentBody_ok_iff.mpr hasks⟩
    unfold parseJsonBody
    rw [hparse]

theorem blamesFirst_of_framed {text : String} {body : Json} {type : String} {items : List Json}
    {response : Response} (hparse : library.parse text = some body)
    (hframed : Framed body type items)
    (h : (parseJsonBody library text >>= parseAdjustmentBody) = .error response) :
    BlamesFirst 0 items response := by
  have hobject : ∃ fields, body = .obj fields := by
    cases body with
    | obj fields => exact ⟨fields, rfl⟩
    | _ => cases hframed.typed
  obtain ⟨fields, rfl⟩ := hobject
  have hjson : parseJsonBody library text = .ok (.obj fields) := by
    unfold parseJsonBody
    rw [hparse]
  have hbody : parseAdjustmentBody (.obj fields) = .error response := by
    rw [hjson] at h
    exact h
  rw [parseAdjustmentBody_framed hframed] at hbody
  cases hloop : parseAdjustments 0 items with
  | ok adjustments =>
    rw [hloop] at hbody
    cases hbody
  | error refused =>
    rw [hloop] at hbody
    have hresponse : refused = response := Except.error.inj hbody
    rw [hresponse] at hloop
    exact parseAdjustments_error hloop

def demoRequest (library : Json.Library) (crypto : Okx.Crypto) (config : Okx.Credentials)
    (time : Okx.UtcTime) (request : DemoBalanceRequest) : Okx.HttpRequest :=
  Okx.signedHttpRequest crypto config time
    ⟨"POST", ascii Okx.kPathDemoAdjustBalance, library.dump request.toJson⟩

variable {sent : W → List Okx.HttpRequest}

theorem sent_restAdjustDemoBalance (hrecords : transport.Records sent)
    (request : DemoBalanceRequest) (w : W) :
    sent (Okx.restAdjustDemoBalance library crypto config transport request w).2 =
      sent w ++ [demoRequest library crypto config (transport.now w).1 request] := by
  unfold Okx.restAdjustDemoBalance Okx.signedRequestRaw
  rw [hrecords.perform, hrecords.now]
  rfl

theorem adjustedResponse_ok_iff (request : DemoBalanceRequest) (result : Result Json) :
    (adjustedResponse request result).status = 200 ↔ ∃ data, result = .ok data := by
  cases result with
  | error error => simp [adjustedResponse, mapError_status_ne]
  | ok data => simp [adjustedResponse]

theorem map_arr_ok_iff {data : Result (List Json)} :
    (∃ json, data.map Json.arr = .ok json) ↔ ∃ items, data = .ok items := by
  cases data with
  | error error => exact ⟨nofun, nofun⟩
  | ok items => exact ⟨fun _ => ⟨items, rfl⟩, fun _ => ⟨.arr items, rfl⟩⟩

variable (library crypto config)

/-- On a demo account a text that asks for an adjustment sends one request, which asks for the
same; the answer is 200 if and only if the venue's reply was. Anything else sends nothing and is
answered with 400, and where the entries are to blame the first such entry is named. -/
theorem demo_adjusts_once (hrecords : transport.Records sent) (text : String) (w : W) :
    let answered := postDemoAdjustBalance library crypto config transport text w
    (∃ request, config.demoTrading = true ∧ TextAsks library text request ∧
      Asks request.toJson request ∧
      sent answered.2 =
        sent w ++ [demoRequest library crypto config (transport.now w).1 request] ∧
      (answered.1.status = 200 ↔
        ∃ data, Okx.signedRequest library transport.host Okx.kPathDemoAdjustBalance
          (transport.perform (demoRequest library crypto config (transport.now w).1 request)
            (transport.now w).2).1 = .ok data)) ∨
    ((config.demoTrading = false ∨ ¬ ∃ request, TextAsks library text request) ∧
      answered.1.status = 400 ∧ answered.2 = w ∧
      ∀ body type items, library.parse text = some body → Framed body type items →
        (¬ ∃ request, TextAsks library text request) → BlamesFirst 0 items answered.1) := by
  intro answered
  cases hparse : parseJsonBody library text >>= parseAdjustmentBody with
  | error response =>
    have hanswered : answered = (response, w) := by
      simp only [answered, postDemoAdjustBalance, hparse]
    have hnone : ¬ ∃ request, TextAsks library text request := by
      rintro ⟨request, hasks⟩
      rw [parse_ok_iff.mpr hasks] at hparse
      cases hparse
    have hstatus := (refuses_parseJsonBody library text).bind refuses_parseAdjustmentBody _ hparse
    rw [hanswered]
    refine .inr ⟨.inr hnone, hstatus, rfl, ?_⟩
    intro body type items hbody hframed _
    exact blamesFirst_of_framed hbody hframed hparse
  | ok request =>
    have hasks := parse_ok_iff.mp hparse
    have hanswered : answered =
        (adjustedResponse request
          (Okx.adjustDemoBalance library crypto config transport request w).1,
          (Okx.adjustDemoBalance library crypto config transport request w).2) := by
      simp only [answered, postDemoAdjustBalance, hparse]
    rw [hanswered]
    unfold Okx.adjustDemoBalance
    cases hdemo : config.demoTrading with
    | false =>
      refine .inr ⟨.inl rfl, rfl, rfl, ?_⟩
      intro body type items _ _ hnone
      exact absurd ⟨request, hasks⟩ hnone
    | true =>
      obtain ⟨body, -, hbody⟩ := hasks
      refine .inl ⟨request, rfl, parse_ok_iff.mp hparse, asks_toJson hbody,
        sent_restAdjustDemoBalance hrecords request w, ?_⟩
      exact (adjustedResponse_ok_iff request _).trans map_arr_ok_iff

end

def increaseText : String :=
  "\x7b\"adjustments\":[\x7b\"amt\":\"100\",\"ccy\":\"USDT\"\x7d],\"type\":\"increase\"\x7d"

def increaseRequest : DemoBalanceRequest := ⟨"increase", [⟨"USDT", "100"⟩]⟩

def acceptedText : String := "\x7b\"code\":\"0\",\"data\":[],\"msg\":\"\"\x7d"

def increaseLibrary : Json.Library where
  parse text :=
    if text = increaseText then some increaseRequest.toJson
    else if text = acceptedText then
      some (.obj [("code", .str "0"), ("data", .arr []), ("msg", .str "")])
    else none
  dump _ := increaseText
  truncate _ := 0

/-- A venue that accepts every request; the world is what it received. -/
def acceptingTransport : Okx.Transport (List Okx.HttpRequest) where
  host := "www.okx.com"
  now w := (Okx.cancelTime, w)
  perform request w := (some ⟨200, acceptedText⟩, w ++ [request])

def demoConfig : Okx.Credentials := { Okx.cancelConfig with demoTrading := true }

theorem demo_adjusts_once_increase :
    let answered := postDemoAdjustBalance increaseLibrary Okx.cancelCrypto demoConfig
      acceptingTransport increaseText []
    answered.1.status = 200 ∧ answered.2.length = 1 := by
  intro answered
  have hrecords : acceptingTransport.Records (fun w => w) := ⟨fun _ => rfl, fun _ _ => rfl⟩
  have hparse : (parseJsonBody increaseLibrary increaseText >>= parseAdjustmentBody) =
      .ok increaseRequest := by rfl
  have hasks : ∃ request, TextAsks increaseLibrary increaseText request :=
    ⟨increaseRequest, parse_ok_iff.mp hparse⟩
  cases demo_adjusts_once increaseLibrary Okx.cancelCrypto demoConfig hrecords increaseText [] with
  | inl hsent =>
    obtain ⟨request, -, -, -, hsent, hstatus⟩ := hsent
    exact ⟨hstatus.mpr ⟨[], rfl⟩, congrArg List.length hsent⟩
  | inr hnothing =>
    cases hnothing.1 with
    | inl hlive => cases hlive
    | inr hnone => exact absurd hasks hnone

end Rest

end ExchangeGateway
