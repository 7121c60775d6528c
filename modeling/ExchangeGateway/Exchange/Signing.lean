import ExchangeGateway.Exchange.Binance
import ExchangeGateway.Lib.CanonicalText

/-! Signed requests to Binance (`exchange/binance/binance_signer.cpp` and the signing part of
`binance_ws_client.cpp`). -/
namespace ExchangeGateway.Binance

/-- The members of a JSON object. Their names are distinct. -/
abbrev Params := KeyedList (Prod.fst : String × Json → String)

abbrev Texts := KeyedList (Prod.fst : String × String → String)

def valueText (value : Json) : String :=
  match value with
  | .str text => text
  | .bool flag => if flag then "true" else "false"
  | value =>
    match value.integer? with
    | some number => toString (longLong number)
    | none => ""

/-- The signature is never signed itself. -/
def signedTexts (params : Params) : Texts where
  toList := (params.erase "signature").toList.map fun field => (field.1, valueText field.2)
  nodup := by
    rw [List.map_map]
    exact (params.erase "signature").nodup

def signaturePayload (params : Params) : String :=
  String.ofList ((signedTexts params).canonicalText '&' '=')

def kDigits : List Char := "0123456789abcdef".toList

def hexEncode (data : List UInt8) : String :=
  String.ofList (data.flatMap fun (byte : UInt8) =>
    [kDigits.getD (byte >>> 4).toNat '0', kDigits.getD (byte &&& 0x0F).toNat '0'])

def kSha256Len : ℕ := 32

/-- HMAC-SHA256 of the crypto library; it may fail. -/
abbrev Hmac := String → String → Option (List UInt8)

def signParams (hmac : Hmac) (params : Params) (secret : String) : String :=
  match hmac secret (signaturePayload params) with
  | some mac => if mac.length = kSha256Len then hexEncode mac else ""
  | none => ""

/-- What the configuration holds for signing. -/
structure Credentials where
  apiKey : String
  secretKey : String
  recvWindowMs : ℤ := 5000

section

variable (hmac : Hmac) (config : Credentials)

def stamped (timestamp : ℤ) (params : Params) : Params :=
  (((params.set ("apiKey", .str config.apiKey)).set
    ("recvWindow", .integer config.recvWindowMs)).set
    ("timestamp", .integer timestamp)).erase "signature"

def applySignature (timestamp : ℤ) (params : Params) : Params :=
  (stamped config timestamp params).set
    ("signature", .str (signParams hmac (stamped config timestamp params) config.secretKey))

/-- What the venue checks: the signature of everything else that it received. -/
def Verifies (params : Params) : Prop :=
  params.find? "signature" = some ("signature", .str (signParams hmac params config.secretKey))

end

/-! ### The payload -/

theorem find?_signedTexts (params : Params) (name : String) :
    (signedTexts params).find? name =
      if name = "signature" then none
      else (params.find? name).map fun field => (field.1, valueText field.2) := by
  have hmap : (signedTexts params).find? name =
      ((params.erase "signature").find? name).map fun field => (field.1, valueText field.2) := by
    unfold KeyedList.find? signedTexts
    rw [List.find?_map]
    rfl
  rw [hmap]
  split_ifs with hname
  · rw [hname, KeyedList.find?_erase_self]
    rfl
  · rw [KeyedList.find?_erase_of_ne params hname]

theorem signaturePayload_congr {p q : Params}
    (h : ∀ name, name ≠ "signature" → (p.find? name).map (fun field => valueText field.2) =
      (q.find? name).map fun field => valueText field.2) :
    signaturePayload p = signaturePayload q := by
  have hfind : ∀ name, (signedTexts p).find? name = (signedTexts q).find? name := by
    intro name
    rw [find?_signedTexts, find?_signedTexts]
    split_ifs with hname
    · rfl
    · have hsame := h name hname
      cases hp : p.find? name with
      | none =>
        rw [hp] at hsame
        cases hq : q.find? name with
        | none => rfl
        | some field => rw [hq] at hsame; cases hsame
      | some field =>
        rw [hp] at hsame
        cases hq : q.find? name with
        | none => rw [hq] at hsame; cases hsame
        | some field' =>
          rw [hq] at hsame
          have hkey := KeyedList.key_of_find? hp
          have hkey' := KeyedList.key_of_find? hq
          have htext := Option.some.inj hsame
          simp only [Option.map_some, Option.some.injEq, Prod.mk.injEq]
          exact ⟨hkey.trans hkey'.symm, htext⟩
  unfold signaturePayload KeyedList.canonicalText
  rw [KeyedList.sorted_eq_iff.mpr hfind]

/-- Names and texts without the delimiters of the payload. -/
def Signable (params : Params) : Prop :=
  KeyedList.Delimited '&' '=' (signedTexts params).toList

/-- The payload says of every parameter but the signature whether it is there and with which text,
and nothing else: neither the order of the members nor their JSON types matter. -/
theorem signaturePayload_eq_iff {p q : Params} (hp : Signable p) (hq : Signable q) :
    signaturePayload p = signaturePayload q ↔
      ∀ name, name ≠ "signature" → (p.find? name).map (fun field => valueText field.2) =
        (q.find? name).map fun field => valueText field.2 := by
  constructor
  · intro hpayload name hname
    have htext := String.ofList_inj.mp hpayload
    have hfind := (KeyedList.canonicalText_eq_iff hp hq).mp htext name
    rw [find?_signedTexts, find?_signedTexts, if_neg hname, if_neg hname] at hfind
    have hsecond := congrArg (Option.map Prod.snd) hfind
    simpa [Option.map_map, Function.comp_def] using hsecond
  · exact signaturePayload_congr

def orderParams : Params := ⟨[("symbol", .str "BTCUSDT"), ("quantity", .str "1")], by decide⟩

def reorderedParams : Params :=
  ⟨[("signature", .str "0f"), ("quantity", .unsigned 1), ("symbol", .str "BTCUSDT")], by decide⟩

theorem signaturePayload_orderParams :
    signaturePayload orderParams = signaturePayload reorderedParams ↔
      ∀ name, name ≠ "signature" →
        (orderParams.find? name).map (fun field => valueText field.2) =
          (reorderedParams.find? name).map fun field => valueText field.2 := by
  apply signaturePayload_eq_iff
  · show ∀ pair ∈ (signedTexts orderParams).toList, _
    decide
  · show ∀ pair ∈ (signedTexts reorderedParams).toList, _
    decide

/-! ### Signing and signing again -/

section

variable {hmac : Hmac} {config : Credentials}

theorem find?_stamped (timestamp : ℤ) (params : Params) (name : String) :
    (stamped config timestamp params).find? name =
      if name = "signature" then none
      else if name = "timestamp" then some ("timestamp", .integer timestamp)
      else if name = "recvWindow" then some ("recvWindow", .integer config.recvWindowMs)
      else if name = "apiKey" then some ("apiKey", .str config.apiKey)
      else params.find? name := by
  unfold stamped
  by_cases hsignature : name = "signature"
  · rw [if_pos hsignature, hsignature, KeyedList.find?_erase_self]
  · rw [if_neg hsignature, KeyedList.find?_erase_of_ne _ hsignature]
    simp only [KeyedList.find?_set, eq_comm (a := name)]

theorem find?_applySignature_of_ne (timestamp : ℤ) (params : Params) {name : String}
    (h : name ≠ "signature") :
    (applySignature hmac config timestamp params).find? name =
      (stamped config timestamp params).find? name :=
  KeyedList.find?_set_of_ne _ (Ne.symm h)

theorem signParams_congr {p q : Params} (secret : String)
    (h : ∀ name, name ≠ "signature" → p.find? name = q.find? name) :
    signParams hmac p secret = signParams hmac q secret := by
  have hpayload : signaturePayload p = signaturePayload q :=
    signaturePayload_congr fun name hname => by rw [h name hname]
  unfold signParams
  rw [hpayload]

/-- The venue accepts every signature that the gateway makes. -/
theorem verifies_applySignature (timestamp : ℤ) (params : Params) :
    Verifies hmac config (applySignature hmac config timestamp params) := by
  unfold Verifies
  rw [signParams_congr (p := applySignature hmac config timestamp params) config.secretKey
    fun name hname => find?_applySignature_of_ne timestamp params hname]
  exact KeyedList.find?_set_self _ _

/-- Signing a signed request again is signing the request. -/
theorem applySignature_again (earlier timestamp : ℤ) (params : Params) (name : String) :
    (applySignature hmac config timestamp
        (applySignature hmac config earlier params)).find? name =
      (applySignature hmac config timestamp params).find? name := by
  have hstamped : ∀ name, (stamped config timestamp
      (applySignature hmac config earlier params)).find? name =
        (stamped config timestamp params).find? name := by
    intro name
    rw [find?_stamped, find?_stamped]
    split_ifs with hsignature htimestamp hwindow hkey
    · rfl
    · rfl
    · rfl
    · rfl
    · rw [find?_applySignature_of_ne _ _ hsignature, find?_stamped, if_neg hsignature,
        if_neg htimestamp, if_neg hwindow, if_neg hkey]
  by_cases hname : name = "signature"
  · have hsign : signParams hmac
        (stamped config timestamp (applySignature hmac config earlier params)) config.secretKey =
          signParams hmac (stamped config timestamp params) config.secretKey :=
      signParams_congr config.secretKey fun name _ => hstamped name
    unfold applySignature at hsign ⊢
    rw [hname, hsign, KeyedList.find?_set_self _ ("signature", Json.str _),
      KeyedList.find?_set_self _ ("signature", Json.str _)]
  · rw [find?_applySignature_of_ne _ _ hname, find?_applySignature_of_ne _ _ hname, hstamped]

end

/-! ### A signed call -/

/-- What a signed call uses: the clock, the offset that all threads share, and the socket. -/
structure Session (W : Type) where
  now : W → ℤ × W
  loadOffset : W → ℤ × W
  storeOffset : ℤ → W → W
  send : String → Params → W → Request × W

def serverTimeOf (result : Json) : Option ℤ :=
  ((result.find? "serverTime").bind Json.integer?).map longLong

section

variable {W : Type} (session : Session W) (library : Json.Library) (hmac : Hmac)
  (config : Credentials)

def Session.timestamp (w : W) : ℤ × W :=
  let now := session.now w
  let offset := session.loadOffset now.2
  (longLong (now.1 + offset.1), offset.2)

/-- `sync_server_time`: whether the offset was learned. -/
def Session.syncServerTime (w : W) : Option Bool × W :=
  let sent := session.send "time" (KeyedList.empty _) w
  match call library "time" sent.1 with
  | none => (none, sent.2)
  | some (.error _) => (some false, sent.2)
  | some (.ok result) =>
    match serverTimeOf result with
    | none => (some false, sent.2)
    | some serverTime =>
      let now := session.now sent.2
      (some true, session.storeOffset (longLong (serverTime - now.1)) now.2)

/-- The second of two calls, with the parameters of the first. -/
def Session.callAgain (method : String) (signed : Params) (w : W) : Option (Result Json) × W :=
  let time := session.timestamp w
  let sent := session.send method (applySignature hmac config time.1 signed) time.2
  (Binance.callAgain library method sent.1, sent.2)

def Session.callSigned (method : String) (params : Params) (w : W) : Option (Result Json) × W :=
  let time := session.timestamp w
  let signed := applySignature hmac config time.1 params
  let sent := session.send method signed time.2
  match call library method sent.1 with
  | none => (none, sent.2)
  | some result =>
    if !isClockSkewReject result then (some result, sent.2)
    else
      match session.syncServerTime library sent.2 with
      | (none, w) => (none, w)
      | (some false, w) => (some result, w)
      | (some true, w) => session.callAgain library hmac config method signed w

/-- One of the requests of a signed call, and the world it is sent in. -/
structure Attempt (W : Type) where
  time : ℤ
  params : Params
  world : W

def Session.attempt (params : Params) (w : W) : Attempt W :=
  let time := session.timestamp w
  ⟨time.1, applySignature hmac config time.1 params, time.2⟩

def Session.attempts (method : String) (params : Params) (w : W) : List (Attempt W) :=
  let first := session.attempt hmac config params w
  let sent := session.send method first.params first.world
  match call library method sent.1 with
  | none => [first]
  | some result =>
    if !isClockSkewReject result then [first]
    else
      match session.syncServerTime library sent.2 with
      | (some true, w) => [first, session.attempt hmac config first.params w]
      | _ => [first]

/-- The timestamps that a signed call signs with. -/
def Session.timestamps (method : String) (params : Params) (w : W) : List ℤ :=
  (session.attempts library hmac config method params w).map Attempt.time

/-- What the venue promises: it executes a request at most once, only with a good signature, and
not when it answers that the timestamp is off. Asking for the time executes nothing. -/
structure Session.Venue (executed : W → List (String × Params)) : Prop where
  now : ∀ w, executed (session.now w).2 = executed w
  loadOffset : ∀ w, executed (session.loadOffset w).2 = executed w
  storeOffset : ∀ offset w, executed (session.storeOffset offset w) = executed w
  time : ∀ params w, executed (session.send "time" params w).2 = executed w
  send : ∀ method params w, executed (session.send method params w).2 = executed w ∨
    Verifies hmac config params ∧
      executed (session.send method params w).2 = executed w ++ [(method, params)] ∧
      ∀ result, call library method (session.send method params w).1 = some result →
        ¬ isClockSkewReject result

end

def clockSkewUnrecoverable : Error :=
  ⟨"protocol", "clock skew unrecoverable: -1021 persists after time sync and one re-sign"⟩

def ClockSkew (result : Option (Result Json)) : Prop :=
  ∃ error, result = some (.error error) ∧
    (error.code = "venue:-1021" ∨ error = clockSkewUnrecoverable)

section

variable {W : Type} {session : Session W} {library : Json.Library} {hmac : Hmac}
  {config : Credentials} {executed : W → List (String × Params)}

theorem append_ne_of_head {text rest other : String} (hne : text.toList ≠ [])
    (h : text.toList.head? ≠ other.toList.head?) : text ++ rest ≠ other := by
  intro heq
  have hhead := congrArg (fun text : String => text.toList.head?) heq
  simp only [String.toList_append, List.head?_append_of_ne_nil _ hne] at hhead
  exact h hhead

/-- The gateway's own clock skew error is none that a response can have. -/
theorem call_ne_unrecoverable (method : String) (request : Request) :
    call library method request ≠ some (.error clockSkewUnrecoverable) := by
  intro hcall
  unfold call at hcall
  split at hcall
  · simp [clockSkewUnrecoverable] at hcall
  · simp [clockSkewUnrecoverable, timedOut] at hcall
  · simp [clockSkewUnrecoverable] at hcall
  · split at hcall
    · simp [clockSkewUnrecoverable, timedOut] at hcall
    · unfold classify at hcall
      split at hcall
      · have hmessage := congrArg Error.message (Except.error.inj (Option.some.inj hcall))
        exact append_ne_of_head (by decide) (by decide) hmessage
      · split_ifs at hcall
        · split at hcall
          · have hmessage := congrArg Error.message (Except.error.inj (Option.some.inj hcall))
            exact append_ne_of_head (by decide) (by decide) hmessage
          · cases hcall
        · simp [clockSkewUnrecoverable] at hcall
        · obtain ⟨error, _, hvenue⟩ := Option.map_eq_some_iff.mp hcall
          have hcode := congrArg Error.code (Except.error.inj hvenue)
          unfold venueError at hcode
          split_ifs at hcode
          · simp [clockSkewUnrecoverable] at hcode
          · exact append_ne_of_head (by decide) (by decide) hcode

theorem isClockSkewReject_iff {result : Result Json} :
    isClockSkewReject result ↔ ∃ error, result = .error error ∧ error.code = "venue:-1021" := by
  cases result with
  | ok value => simp [isClockSkewReject]
  | error error => simp [isClockSkewReject]

/-- A call that is not refused for its timestamp is not a clock skew. -/
theorem clockSkew_call_iff {method : String} {request : Request} :
    ClockSkew (call library method request) ↔
      ∃ result, call library method request = some result ∧ isClockSkewReject result := by
  constructor
  · intro ⟨error, hcall, hskew⟩
    refine ⟨.error error, hcall, isClockSkewReject_iff.mpr ⟨error, rfl, hskew.resolve_right ?_⟩⟩
    intro hunrecoverable
    exact call_ne_unrecoverable method request (hunrecoverable ▸ hcall)
  · intro ⟨result, hcall, hskew⟩
    obtain ⟨error, hresult, hcode⟩ := isClockSkewReject_iff.mp hskew
    exact ⟨error, hresult ▸ hcall, .inl hcode⟩

theorem clockSkew_callAgain {method : String} {request : Request}
    (h : ClockSkew (callAgain library method request)) :
    ∃ result, call library method request = some result ∧ isClockSkewReject result := by
  unfold callAgain at h
  cases hcall : call library method request with
  | none =>
    rw [hcall] at h
    obtain ⟨error, hnone, _⟩ := h
    cases hnone
  | some result =>
    refine ⟨result, rfl, ?_⟩
    by_contra hskew
    rw [hcall] at h
    simp only [hskew] at h
    have hskew' := clockSkew_call_iff.mp (hcall ▸ h)
    obtain ⟨result', hresult, hreject⟩ := hskew'
    rw [hcall] at hresult
    cases hresult
    exact hskew hreject

theorem Session.Venue.sent (venue : session.Venue library hmac config executed)
    (method : String) (params : Params) (w : W) :
    ∃ done, executed (session.send method params w).2 = executed w ++ done ∧
      (done = [] ∨ done = [(method, params)]) ∧
      ((∃ result, call library method (session.send method params w).1 = some result ∧
        isClockSkewReject result) → done = []) := by
  rcases venue.send method params w with hsame | ⟨_, hdone, hclean⟩
  · exact ⟨[], by simp [hsame], .inl rfl, fun _ => rfl⟩
  · refine ⟨[(method, params)], hdone, .inr rfl, ?_⟩
    intro ⟨result, hcall, hskew⟩
    exact absurd hskew (hclean result hcall)

theorem Session.Venue.timestamp (venue : session.Venue library hmac config executed) (w : W) :
    executed (session.timestamp w).2 = executed w := by
  unfold Session.timestamp
  rw [venue.loadOffset, venue.now]

/-- Learning the offset executes nothing, and says no more than `syncServerTime`. -/
theorem Session.Venue.sync (venue : session.Venue library hmac config executed) (w : W) :
    executed (session.syncServerTime library w).2 = executed w ∧
      (session.syncServerTime library w).1 =
        Binance.syncServerTime library (session.send "time" (KeyedList.empty _) w).1 := by
  unfold Session.syncServerTime Binance.syncServerTime
  cases hcall : call library "time" (session.send "time" (KeyedList.empty _) w).1 with
  | none => simp only [hcall, venue.time, and_self]
  | some result =>
    cases result with
    | error error => simp only [hcall, venue.time, and_self]
    | ok result =>
      cases htime : (result.find? "serverTime").bind Json.integer? with
      | none =>
        simp only [hcall, serverTimeOf, htime, Option.map_none, Option.isSome_none, venue.time,
          and_self]
      | some time =>
        simp only [hcall, serverTimeOf, htime, Option.map_some, Option.isSome_some, venue.time,
          venue.now, venue.storeOffset, and_self]

/-- What was executed of a call: the request that was asked for, signed at one of these times, or
nothing. -/
structure Executed (hmac : Hmac) (config : Credentials) (method : String) (params : Params)
    (times : List ℤ) (result : Option (Result Json)) (done : List (String × Params)) : Prop where
  once : done.length ≤ 1
  asked : ∀ entry ∈ done, entry.1 = method ∧ Verifies hmac config entry.2 ∧ ∃ time ∈ times,
    ∀ name, entry.2.find? name = (applySignature hmac config time params).find? name
  skewed : ClockSkew result → done = []

theorem Executed.nothing (method : String) (params : Params) (times : List ℤ)
    (result : Option (Result Json)) : Executed hmac config method params times result [] :=
  ⟨by simp, by simp, fun _ => rfl⟩

theorem executed_of_sent {method : String} {params given : Params} {time : ℤ} {times : List ℤ}
    {result : Option (Result Json)} {done : List (String × Params)} (htime : time ∈ times)
    (hgiven : ∀ name, (applySignature hmac config time given).find? name =
      (applySignature hmac config time params).find? name)
    (hdone : done = [] ∨ done = [(method, applySignature hmac config time given)])
    (hskew : ClockSkew result → done = []) :
    Executed hmac config method params times result done := by
  rcases hdone with rfl | rfl
  · exact .nothing method params times result
  · refine ⟨by simp, ?_, hskew⟩
    intro entry hentry
    rw [List.mem_singleton.mp hentry]
    exact ⟨rfl, verifies_applySignature time given, time, htime, hgiven⟩

theorem Session.Venue.again (venue : session.Venue library hmac config executed)
    (method : String) (earlier : ℤ) (params : Params) (w : W) {times : List ℤ}
    (htimes : (session.timestamp w).1 ∈ times) :
    let out := session.callAgain library hmac config method
      (applySignature hmac config earlier params) w
    ∃ done request, executed out.2 = executed w ++ done ∧
      out.1 = Binance.callAgain library method request ∧
      Executed hmac config method params times out.1 done := by
  intro out
  obtain ⟨done, hdone, hone, hskew⟩ := venue.sent method
    (applySignature hmac config (session.timestamp w).1 (applySignature hmac config earlier params))
    (session.timestamp w).2
  refine ⟨done, _, hdone.trans (by rw [venue.timestamp]), rfl, ?_⟩
  apply executed_of_sent htimes (applySignature_again earlier _ params) hone
  exact fun hskew' => hskew (clockSkew_callAgain hskew')

/-- Whatever is lost or refused on the way, a signed call is executed at most once, with the
parameters that were asked for and the timestamp of one of its attempts. It is not executed when the
call fails for the clock. -/
theorem callSigned_executes_once (venue : session.Venue library hmac config executed)
    (method : String) (params : Params) (w : W) :
    ∃ done requests,
      executed (session.callSigned library hmac config method params w).2 = executed w ++ done ∧
      (session.callSigned library hmac config method params w).1 =
        Binance.callSigned library method requests ∧
      Executed hmac config method params (session.timestamps library hmac config method params w)
        (session.callSigned library hmac config method params w).1 done := by
  obtain ⟨done, hdone, hone, hskew⟩ := venue.sent method
    (applySignature hmac config (session.timestamp w).1 params) (session.timestamp w).2
  rw [venue.timestamp] at hdone
  unfold Session.callSigned Session.timestamps Session.attempts
  dsimp only [Session.attempt]
  generalize (session.timestamp w).1 = time at hdone hone hskew ⊢
  generalize session.send method (applySignature hmac config time params)
    (session.timestamp w).2 = sent at hdone hskew ⊢
  have hfirst (result : Option (Result Json)) (hresult : ClockSkew result → done = []) :
      Executed hmac config method params [time] result done :=
    executed_of_sent List.mem_cons_self (fun _ => rfl) hone hresult
  cases hcall : call library method sent.1 with
  | none =>
    refine ⟨done, ⟨sent.1, sent.1, sent.1⟩, hdone, ?_, hfirst none ?_⟩
    · simp only [Binance.callSigned, hcall]
    · intro ⟨error, hnone, _⟩
      cases hnone
  | some result =>
    by_cases hreject : isClockSkewReject result
    · have hnothing := hskew ⟨result, hcall, hreject⟩
      rw [hnothing, List.append_nil] at hdone
      obtain ⟨hsync, hanswer⟩ := venue.sync sent.2
      generalize (session.send "time" (KeyedList.empty _) sent.2).1 = request at hanswer
      simp only [hreject, Bool.not_true, Bool.false_eq_true, if_false]
      cases hsynced : session.syncServerTime library sent.2 with
      | mk synced later =>
        rw [hsynced] at hsync hanswer
        simp only at hsync hanswer
        cases synced with
        | none =>
          refine ⟨[], ⟨sent.1, request, sent.1⟩, by simp [hsync, hdone], ?_, .nothing _ _ _ _⟩
          simp [Binance.callSigned, hcall, hreject, ← hanswer]
        | some learned =>
          cases learned with
          | false =>
            refine ⟨[], ⟨sent.1, request, sent.1⟩, by simp [hsync, hdone], ?_, .nothing _ _ _ _⟩
            simp [Binance.callSigned, hcall, hreject, ← hanswer]
          | true =>
            obtain ⟨done', second, hdone', hagain, hexecuted⟩ :=
              venue.again method time params later (List.mem_cons_of_mem time List.mem_cons_self)
            refine ⟨done', ⟨sent.1, request, second⟩, ?_, ?_, hexecuted⟩
            · rw [hdone', hsync, hdone]
            · simp [Binance.callSigned, hcall, hreject, ← hanswer, hagain]
    · simp only [hreject, Bool.not_false, if_true]
      refine ⟨done, ⟨sent.1, sent.1, sent.1⟩, hdone, ?_, hfirst _ ?_⟩
      · simp [Binance.callSigned, hcall, hreject]
      · intro hskew'
        rw [← hcall] at hskew'
        exact hskew (clockSkew_call_iff.mp hskew')

end

/-! ### A venue whose clock is ahead -/

def skewText : String :=
  "\x7b\"error\":\x7b\"code\":-1021\x7d,\"id\":1,\"status\":400\x7d"

def timeText : String :=
  "\x7b\"id\":2,\"result\":\x7b\"serverTime\":2000\x7d,\"status\":200\x7d"

def placedText : String := "\x7b\"id\":3,\"result\":\x7b\x7d,\"status\":200\x7d"

/-- The library, on the three responses. -/
def skewLibrary : Json.Library where
  parse text :=
    if text = skewText then
      some (.obj [("error", .obj [("code", .integer (-1021))]), ("id", .unsigned 1),
        ("status", .unsigned 400)])
    else if text = timeText then
      some (.obj [("id", .unsigned 2), ("result", .obj [("serverTime", .unsigned 2000)]),
        ("status", .unsigned 200)])
    else if text = placedText then
      some (.obj [("id", .unsigned 3), ("result", .obj []), ("status", .unsigned 200)])
    else none
  dump _ := ""
  truncate _ := 0

/-- HMAC-SHA256, on the two payloads of the call. -/
def skewHmac (secret payload : String) : Option (List UInt8) :=
  if secret = "secret" ∧
      payload = "apiKey=key&quantity=1&recvWindow=5000&symbol=BTCUSDT&timestamp=2000" then
    some [69, 236, 189, 166, 79, 246, 159, 56, 69, 27, 127, 149, 99, 1, 76, 90, 94, 154, 73, 191,
      213, 234, 171, 41, 76, 91, 250, 235, 38, 230, 72, 52]
  else
    some [85, 21, 98, 141, 200, 207, 24, 213, 71, 208, 3, 72, 137, 44, 217, 153, 1, 66, 255, 143,
      153, 120, 70, 194, 156, 94, 132, 99, 236, 173, 113, 92]

def skewConfig : Credentials := ⟨"key", "secret", 5000⟩

structure SkewWorld where
  nextId : ℤ := 1
  offset : ℤ := 0
  executed : List (String × Params) := []

def signatureText (params : Params) : Option String :=
  (params.find? "signature").bind fun field => field.2.string?

def timestampText (params : Params) : Option String :=
  (params.find? "timestamp").map fun field => valueText field.2

/-- The local clock stands at 1000 and that of the venue at 2000. -/
def skewSession : Session SkewWorld where
  now w := (1000, w)
  loadOffset w := (w.offset, w)
  storeOffset offset w := { w with offset := offset }
  send method params w :=
    let next := { w with nextId := w.nextId + 1 }
    if method = "time" then (⟨w.nextId, .frame timeText⟩, next)
    else if timestampText params = some "2000" ∧
        signatureText params = some (signParams skewHmac params skewConfig.secretKey) then
      (⟨w.nextId, .frame placedText⟩, { next with executed := w.executed ++ [(method, params)] })
    else (⟨w.nextId, .frame skewText⟩, next)

theorem verifies_of_signatureText {params : Params}
    (h : signatureText params = some (signParams skewHmac params skewConfig.secretKey)) :
    Verifies skewHmac skewConfig params := by
  obtain ⟨field, hfind, htext⟩ := Option.bind_eq_some_iff.mp h
  have hname := KeyedList.key_of_find? hfind
  unfold Verifies
  rw [hfind]
  obtain ⟨name, value⟩ := field
  cases value with
  | str text =>
    cases htext
    cases hname
    rfl
  | _ => cases htext

theorem call_placedText (method : String) (id : ℤ) :
    call skewLibrary method ⟨id, .frame placedText⟩ = some (.ok (.obj [])) ∨
      call skewLibrary method ⟨id, .frame placedText⟩ = some (.error (timedOut method)) := by
  have hparse : skewLibrary.parse placedText =
      some (.obj [("id", .unsigned 3), ("result", .obj []), ("status", .unsigned 200)]) := rfl
  by_cases hid : longLong 3 = id
  · left
    have hdispatch : dispatchMessage skewLibrary id placedText =
        some (.obj [("id", .unsigned 3), ("result", .obj []), ("status", .unsigned 200)]) := by
      simp [dispatchMessage, hparse, Json.isObject, Json.find?, List.lookup_cons, Json.integer?, hid]
    simp only [call, hdispatch]
    rfl
  · right
    have hdispatch : dispatchMessage skewLibrary id placedText = none := by
      simp [dispatchMessage, hparse, Json.isObject, Json.find?, List.lookup_cons, Json.integer?, hid]
    simp only [call, hdispatch]

theorem skewSession_venue :
    skewSession.Venue skewLibrary skewHmac skewConfig SkewWorld.executed where
  now _ := rfl
  loadOffset _ := rfl
  storeOffset _ _ := rfl
  time _ _ := rfl
  send method params w := by
    by_cases htime : method = "time"
    · left
      simp [skewSession, htime]
    · by_cases haccept : timestampText params = some "2000" ∧
          signatureText params = some (signParams skewHmac params skewConfig.secretKey)
      · right
        refine ⟨verifies_of_signatureText haccept.2, by simp [skewSession, htime, haccept], ?_⟩
        intro result hcall
        simp only [skewSession, htime, haccept, and_self, if_true, if_false] at hcall
        rcases call_placedText method w.nextId with hplaced | hsilent
        · cases hplaced.symm.trans hcall
          simp [isClockSkewReject]
        · cases hsilent.symm.trans hcall
          simp [isClockSkewReject, timedOut]
      · left
        simp only [skewSession, htime, haccept, if_false]

theorem callSigned_executes_once_skewSession :
    let out := skewSession.callSigned skewLibrary skewHmac skewConfig "order.place" orderParams {}
    ∃ done requests, out.2.executed = [] ++ done ∧
      out.1 = Binance.callSigned skewLibrary "order.place" requests ∧
      Executed skewHmac skewConfig "order.place" orderParams
        (skewSession.timestamps skewLibrary skewHmac skewConfig "order.place" orderParams {})
        out.1 done :=
  callSigned_executes_once skewSession_venue "order.place" orderParams {}

end ExchangeGateway.Binance
