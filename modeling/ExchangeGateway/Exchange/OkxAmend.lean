import ExchangeGateway.Exchange.Amend

/-! The OKX amend (`exchange/okx/okx_resilient.hpp`) against a venue that changes an order in place.
Its answers may get lost, and it may spell the requested values in its own way. -/
namespace ExchangeGateway

namespace Okx

structure AmendRequest where
  instId : String
  clOrdId : String
  newPx : Option String
  newSz : Option String
  deriving DecidableEq, Repr

structure AmendClient (W : Type) extends Client W where
  amendOrder : AmendRequest → W → Result OrderAck × W

/-- Texts are compared, not numbers. -/
def matchesRequest (request : AmendRequest) (info : OrderInfo) : Bool :=
  !(request.newPx.any (· ≠ info.px)) && !(request.newSz.any (· ≠ info.sz))

/-- An order that does not carry the requested values yet is amended again. -/
def amendVerdict (request : AmendRequest) (info : OrderInfo) : Verdict OrderAck :=
  if matchesRequest request info then .landed (synthesizedAck info) else .untouched

def resilientAmend {ρ W : Type} (policy : RetryPolicy ρ) (clock : RetryClock ρ W)
    (client : AmendClient W) (request : AmendRequest) : W → Result OrderAck × W :=
  resolveWith policy clock "amend" ("clOrdId " ++ request.clOrdId) (fun _ => false)
    ⟨"venue:51603", "amend target not found on the venue"⟩ (client.amendOrder request)
    (lookupOrder client.toClient policy clock ⟨request.instId, request.clOrdId⟩)
    (amendVerdict request)

/-! ### The venue -/

/-- The venue processes an amend, or fails without an effect. -/
inductive AmendFate
  | processed (ack : OrderAck) (text : String)
  | failed (error : Error)

structure AmendEnvironment (ρ : Type) extends
    OrderEnvironment (fun error => error.code = "venue:51603") OrderStatus OrderInfo ρ where
  amend : ℕ → AmendFate
  /-- Text of the transport error when the answer does not arrive. -/
  lost : ℕ → Option String
  /-- How the venue writes a requested value. -/
  spell : String → String

def amended (spell : String → String) (request : AmendRequest) (order : StoredOrder) :
    StoredOrder :=
  { order with
    price := (request.newPx.map spell).getD order.price
    quantity := (request.newSz.map spell).getD order.quantity }

/-- The order carries the requested values, as they were requested or as the venue spells them. -/
def Meets (spell : String → String) (request : AmendRequest) (order : StoredOrder) : Prop :=
  (∀ px, request.newPx = some px → order.price = px ∨ order.price = spell px) ∧
    ∀ sz, request.newSz = some sz → order.quantity = sz ∨ order.quantity = spell sz

/-- The venue writes the requested values as they were requested. -/
def Echoes (spell : String → String) (request : AmendRequest) : Prop :=
  ∀ value, request.newPx = some value ∨ request.newSz = some value → spell value = value

theorem amended_amended (spell : String → String) (request : AmendRequest) (order : StoredOrder) :
    amended spell request (amended spell request order) = amended spell request order := by
  unfold amended
  cases request.newPx <;> cases request.newSz <;> rfl

theorem meets_amended (spell : String → String) (request : AmendRequest) (order : StoredOrder) :
    Meets spell request (amended spell request order) := by
  constructor
  · intro px hpx
    simp [amended, hpx]
  · intro sz hsz
    simp [amended, hsz]

theorem matchesRequest_report (request : AmendRequest) (info : OrderInfo) (order : StoredOrder)
    (status : OrderStatus) :
    matchesRequest request (statusTerms.report info order status) ↔
      (∀ px, request.newPx = some px → order.price = px) ∧
        ∀ sz, request.newSz = some sz → order.quantity = sz := by
  have hnone (requested : Option String) (value : String) :
      (!(requested.any (· ≠ value))) = true ↔ ∀ text, requested = some text → value = text := by
    cases requested with
    | none => simp
    | some text => simpa using eq_comm
  unfold matchesRequest
  rw [Bool.and_eq_true, hnone, hnone]
  rfl

theorem meets_of_matches {spell : String → String} {request : AmendRequest} {info : OrderInfo}
    {order : StoredOrder} {status : OrderStatus}
    (h : matchesRequest request (statusTerms.report info order status)) :
    Meets spell request order := by
  obtain ⟨hprice, hquantity⟩ := (matchesRequest_report request info order status).mp h
  exact ⟨fun px hpx => .inl (hprice px hpx), fun sz hsz => .inl (hquantity sz hsz)⟩

/-- An amend that landed is recognised when the values are echoed. -/
theorem matches_of_amended {spell : String → String} {request : AmendRequest}
    (hecho : Echoes spell request) (info : OrderInfo) (order : StoredOrder) (status : OrderStatus) :
    matchesRequest request (statusTerms.report info (amended spell request order) status) := by
  apply (matchesRequest_report request info _ status).mpr
  constructor
  · intro px hpx
    simp [amended, hpx, hecho px (.inl hpx)]
  · intro sz hsz
    simp [amended, hsz, hecho sz (.inr hsz)]

end Okx

namespace OrderWorld

variable {ρ : Type} (env : Okx.AmendEnvironment ρ) (request : Okx.AmendRequest)

/-- A working order is changed in place; any other is refused. -/
def processAmend (w : OrderWorld Okx.OrderStatus) :
    Result Okx.OrderAck × OrderWorld Okx.OrderStatus :=
  match env.amend w.requests, w.order with
  | .failed error, _ => (.error error, w)
  | .processed _ text, none => (.error ⟨"venue:51603", text⟩, w)
  | .processed ack text, some (order, status) =>
    if Okx.statusTerms.working status then
      (.ok ack, { w with order := some (Okx.amended env.spell request order, status) })
    else (.error ⟨"venue:51503", text⟩, w)

/-- The raw amend: the answer may get lost. -/
def amendInPlace (w : OrderWorld Okx.OrderStatus) :
    Result Okx.OrderAck × OrderWorld Okx.OrderStatus :=
  let (answer, after) :=
    (w.pass Okx.statusTerms env.toOrderEnvironment).processAmend env request
  ((env.lost w.requests).elim answer fun message => .error ⟨"transport", message⟩,
    { after with requests := w.requests + 1 })

/-- A venue for one order. The engine does not place. -/
def okxAmendVenue (placeOrder : Okx.PlaceRequest → OrderWorld Okx.OrderStatus →
      Result Okx.OrderAck × OrderWorld Okx.OrderStatus) :
    Okx.AmendClient (OrderWorld Okx.OrderStatus) where
  placeOrder := placeOrder
  getOrder _ := getOrder Okx.statusTerms env.toOrderEnvironment
  amendOrder request := amendInPlace env request

/-- An amend is acked and the order changed, or it fails and the order is as before, or the answer
is lost. -/
theorem amendInPlace_cases (w : OrderWorld Okx.OrderStatus) :
    (∃ ack order, (amendInPlace env request w).1 = .ok ack ∧ w.body = some order ∧
        (amendInPlace env request w).2.body = some (Okx.amended env.spell request order)) ∨
      (∃ error, (amendInPlace env request w).1 = .error error ∧
        (amendInPlace env request w).2.body = w.body) ∨
      ∃ error, (amendInPlace env request w).1 = .error error ∧ error.code = "transport" ∧
        (amendInPlace env request w).2.body = w.body.map (Okx.amended env.spell request) := by
  have hbody := body_pass Okx.statusTerms env.toOrderEnvironment w
  have hprocess (v : OrderWorld Okx.OrderStatus) :
      (∃ error, processAmend env request v = (.error error, v)) ∨
        ∃ ack order status, v.order = some (order, status) ∧ processAmend env request v =
          (.ok ack, { v with order := some (Okx.amended env.spell request order, status) }) := by
    unfold processAmend
    cases env.amend v.requests with
    | failed error => exact .inl ⟨error, rfl⟩
    | processed ack text =>
      cases ho : v.order with
      | none => exact .inl ⟨_, rfl⟩
      | some order =>
        obtain ⟨order, status⟩ := order
        by_cases hworking : Okx.statusTerms.working status
        · exact .inr ⟨ack, order, status, rfl, by simp [hworking]⟩
        · exact .inl ⟨⟨"venue:51503", text⟩, by simp [hworking]⟩
  unfold amendInPlace
  rcases hprocess (w.pass Okx.statusTerms env.toOrderEnvironment) with
    ⟨error, heq⟩ | ⟨ack, order, status, ho, heq⟩
  · rw [heq]
    right
    left
    cases hlost : env.lost w.requests with
    | none => exact ⟨error, rfl, hbody⟩
    | some message => exact ⟨_, rfl, hbody⟩
  · have horder : w.body = some order := by
      rw [← hbody]
      simp [body, ho]
    rw [heq]
    cases hlost : env.lost w.requests with
    | none => exact .inl ⟨ack, order, rfl, horder, rfl⟩
    | some message => exact .inr (.inr ⟨_, rfl, rfl, by rw [horder]; rfl⟩)

def okxLookup (policy : RetryPolicy ρ) :
    OrderWorld Okx.OrderStatus → Lookup Okx.OrderInfo × OrderWorld Okx.OrderStatus :=
  lookupWith policy (clock Okx.statusTerms env.toOrderEnvironment)
    (fun error => error.code = "venue:51603") (getOrder Okx.statusTerms env.toOrderEnvironment)

def Tells (order : Option StoredOrder) : Lookup Okx.OrderInfo → Prop
  | .found found => ∃ info stored s, order = some stored ∧
      found = Okx.statusTerms.report info stored s
  | .absent => order = none
  | .inconclusive _ => True

/-- A lookup leaves the order as it is and tells the truth about it. -/
theorem okxLookup_tells (policy : RetryPolicy ρ) (w : OrderWorld Okx.OrderStatus) :
    ((okxLookup env policy w).2.body = w.body ∧
        (okxLookup env policy w).2.requests = w.requests) ∧
      Tells w.body (okxLookup env policy w).1 := by
  have hpass (v : OrderWorld Okx.OrderStatus) :=
    body_pass Okx.statusTerms env.toOrderEnvironment v
  refine lookupWith_rule policy (clock Okx.statusTerms env.toOrderEnvironment)
    (fun error => error.code = "venue:51603") (getOrder Okx.statusTerms env.toOrderEnvironment)
    (I := fun v => v.body = w.body ∧ v.requests = w.requests)
    (P := fun lookup _ => Tells w.body lookup)
    ?_ (fun _ _ h => h) ?_ (fun _ _ => trivial) ⟨rfl, rfl⟩
  · intro v hv
    have hkept := (hpass v).trans hv.1
    exact ⟨⟨hkept, hv.2⟩, ⟨hkept, hv.2⟩, fun _ => ⟨hkept, hv.2⟩⟩
  · intro v hv
    have hbody := (hpass v).trans hv.1
    obtain ⟨hworld, hfound⟩ := lookupAttempt_found Okx.statusTerms env.toOrderEnvironment v
    refine ⟨by rw [hworld]; exact ⟨hbody, hv.2⟩, fun lookup hlookup => ?_⟩
    cases lookup with
    | inconclusive error => trivial
    | found found =>
      obtain ⟨info, order, s, ho, heq⟩ := hfound found hlookup
      exact ⟨info, order, s, by rw [← hbody]; simp [body, ho], heq⟩
    | absent =>
      have hgone : (v.pass Okx.statusTerms env.toOrderEnvironment).order = none := by
        by_contra hthere
        obtain ⟨order, ho⟩ := Option.ne_none_iff_exists'.mp hthere
        unfold lookupAttempt getOrder at hlookup
        cases ha : env.lookup v.lookups with
        | failed error h =>
          by_cases htransport : error.code = "transport"
          · simp [ha, htransport] at hlookup
          · simp [ha, h, htransport] at hlookup
        | answered info absence => simp [ha, ho] at hlookup
      show w.body = none
      rw [← hbody]
      simp [body, hgone]

/-! ### The engine -/

/-- The run so far: `n` amends were sent, and the order is as before or amended. When the values are
echoed, the engine goes on only with the order as before. -/
structure Amending (before : OrderWorld Okx.OrderStatus) (n : ℕ) (w : OrderWorld Okx.OrderStatus) :
    Prop where
  requests : w.requests = before.requests + n
  body : w.body = before.body ∨ w.body = before.body.map (Okx.amended env.spell request)
  echoed : Okx.Echoes env.spell request → w.body = before.body

/-- The outcome of an amend: success means that the order carries the requested values, and when the
venue echoes them a definitive failure means that the order is as before. -/
structure AmendedInPlace (before : OrderWorld Okx.OrderStatus) (n : ℕ)
    (result : Result Okx.OrderAck) (w : OrderWorld Okx.OrderStatus) : Prop where
  requests : w.requests = before.requests + n
  body : w.body = before.body ∨ w.body = before.body.map (Okx.amended env.spell request)
  met : ∀ ack, result = .ok ack → ∃ order, w.body = some order ∧ Okx.Meets env.spell request order
  refused : Okx.Echoes env.spell request → ∀ error, result = .error error →
    error.code ≠ "transport" → w.body = before.body

section

variable {env request} {before w v : OrderWorld Okx.OrderStatus} {n : ℕ}

theorem Amending.of_eq (h : Amending env request before n w) (hbody : v.body = w.body)
    (hrequests : v.requests = w.requests) : Amending env request before n v where
  requests := hrequests.trans h.requests
  body := by rw [hbody]; exact h.body
  echoed hecho := hbody.trans (h.echoed hecho)

theorem AmendedInPlace.of_eq {result : Result Okx.OrderAck}
    (h : AmendedInPlace env request before n result w) (hbody : v.body = w.body)
    (hrequests : v.requests = w.requests) : AmendedInPlace env request before n result v where
  requests := hrequests.trans h.requests
  body := by rw [hbody]; exact h.body
  met ack hack := by rw [hbody]; exact h.met ack hack
  refused hecho error herror hcode := hbody.trans (h.refused hecho error herror hcode)

theorem Amending.keeps (n : ℕ) :
    (clock Okx.statusTerms env.toOrderEnvironment).Keeps (Amending env request before n) := by
  intro w h
  have hbody := body_pass Okx.statusTerms env.toOrderEnvironment w
  exact ⟨h.of_eq hbody rfl, h.of_eq hbody rfl, fun _ => h.of_eq hbody rfl⟩

/-- Amending an amended order changes nothing. -/
theorem map_amended_of_body {order : Option StoredOrder}
    (h : w.body = order ∨ w.body = order.map (Okx.amended env.spell request)) :
    w.body.map (Okx.amended env.spell request) = order.map (Okx.amended env.spell request) := by
  rcases h with h | h
  · rw [h]
  · rw [h, Option.map_map]
    congr 1
    funext stored
    exact Okx.amended_amended env.spell request stored

theorem amendInPlace_requests : (amendInPlace env request w).2.requests = w.requests + 1 := rfl

def Uncertain (env : Okx.AmendEnvironment ρ) (request : Okx.AmendRequest)
    (w sent : OrderWorld Okx.OrderStatus) : Prop :=
  sent.body = w.body ∨ sent.body = w.body.map (Okx.amended env.spell request)

theorem Amending.body_of_uncertain (h : Amending env request before n w)
    {sent : OrderWorld Okx.OrderStatus} (huncertain : Uncertain env request w sent) :
    sent.body = before.body ∨ sent.body = before.body.map (Okx.amended env.spell request) := by
  rcases huncertain with hsame | hamended
  · rw [hsame]
    exact h.body
  · right
    rw [hamended]
    exact map_amended_of_body h.body

/-- An order that is not recognised as amended was not amended. -/
theorem Amending.untouched (h : Amending env request before n w)
    (hecho : Okx.Echoes env.spell request) {sent : OrderWorld Okx.OrderStatus}
    (huncertain : Uncertain env request w sent) {info : Okx.OrderInfo} {stored : StoredOrder}
    {s : Okx.OrderStatus} (hstored : sent.body = some stored)
    (hmatches : ¬ Okx.matchesRequest request (Okx.statusTerms.report info stored s)) :
    sent.body = before.body := by
  rcases huncertain with hsame | hamended
  · rw [hsame]
    exact h.echoed hecho
  · rw [hstored] at hamended
    obtain ⟨earlier, _, hearlier⟩ := Option.map_eq_some_iff.mp hamended.symm
    rw [← hearlier] at hmatches
    exact absurd (Okx.matches_of_amended hecho info earlier s) hmatches

theorem Amending.gone (h : Amending env request before n w)
    (hecho : Okx.Echoes env.spell request) {sent : OrderWorld Okx.OrderStatus}
    (huncertain : Uncertain env request w sent) (hnone : sent.body = none) :
    sent.body = before.body := by
  rcases huncertain with hsame | hamended
  · rw [hsame]
    exact h.echoed hecho
  · rw [hnone] at hamended
    have hw : w.body = none := by simpa using hamended.symm
    rw [hnone, ← h.echoed hecho, hw]

def okxAmendAttempt (env : Okx.AmendEnvironment ρ) (request : Okx.AmendRequest)
    (policy : RetryPolicy ρ) :
    OrderWorld Okx.OrderStatus × Bool → Result Okx.OrderAck × OrderWorld Okx.OrderStatus × Bool :=
  resolveAttempt "amend" ("clOrdId " ++ request.clOrdId) (fun _ => false)
    ⟨"venue:51603", "amend target not found on the venue"⟩ (amendInPlace env request)
    (okxLookup env policy) (Okx.amendVerdict request)

/-- The outcome of one attempt; the engine goes on with a flag that is set. -/
def Attempted (env : Okx.AmendEnvironment ρ) (request : Okx.AmendRequest)
    (before : OrderWorld Okx.OrderStatus) (n : ℕ)
    (out : Result Okx.OrderAck × OrderWorld Okx.OrderStatus × Bool) : Prop :=
  AmendedInPlace env request before n out.1 out.2.1 ∧
    (out.2.2 = true → Amending env request before n out.2.1)

theorem Amending.resolve (policy : RetryPolicy ρ) {flagged : OrderWorld Okx.OrderStatus × Bool}
    (h : Amending env request before n flagged.1) {error : Error}
    {sent : OrderWorld Okx.OrderStatus}
    (hs : amendInPlace env request flagged.1 = (.error error, sent))
    (ht : error.code = "transport") (huncertain : Uncertain env request flagged.1 sent) :
    Attempted env request before (n + 1) (okxAmendAttempt env request policy flagged) := by
  have hrequests : sent.requests = before.requests + (n + 1) := by
    have hsent : (amendInPlace env request flagged.1).2.requests = flagged.1.requests + 1 :=
      amendInPlace_requests
    rw [hs, h.requests] at hsent
    exact hsent
  have hbody := h.body_of_uncertain huncertain
  obtain ⟨⟨hkept, hsame⟩, htells⟩ := okxLookup_tells env policy sent
  rcases hl : okxLookup env policy sent with ⟨found, looked⟩
  rw [hl] at hkept hsame htells
  simp only at hkept hsame
  have hlooked := hsame.trans hrequests
  rw [← hkept] at hbody
  unfold okxAmendAttempt
  cases found with
  | found info =>
    obtain ⟨report, stored, s, hstored, hinfo⟩ := htells
    by_cases hmatches : Okx.matchesRequest request info
    · have hverdict : Okx.amendVerdict request info = .landed (Okx.synthesizedAck info) := by
        simp [Okx.amendVerdict, hmatches]
      rw [resolveAttempt_of_landed hs ht hl hverdict]
      refine ⟨⟨hlooked, hbody, fun ack _ => ?_, fun _ error herror => by cases herror⟩,
        fun hflag => by cases hflag⟩
      exact ⟨stored, hkept.trans hstored, Okx.meets_of_matches (hinfo ▸ hmatches)⟩
    · have hverdict : Okx.amendVerdict request info = .untouched := by
        simp [Okx.amendVerdict, hmatches]
      have hout : resolveAttempt "amend" ("clOrdId " ++ request.clOrdId) (fun _ => false)
          ⟨"venue:51603", "amend target not found on the venue"⟩ (amendInPlace env request)
          (okxLookup env policy) (Okx.amendVerdict request) flagged =
          (.error error, looked, true) := by
        simp [resolveAttempt, hs, ht, hl, hverdict]
      rw [hout]
      refine ⟨⟨hlooked, hbody, (fun _ hack => by cases hack), ?_⟩,
        fun _ => ⟨hlooked, hbody, fun hecho => ?_⟩⟩
      · intro _ other hother hcode
        cases hother
        exact absurd ht hcode
      · rw [hkept]
        exact h.untouched hecho huncertain hstored (hinfo ▸ hmatches)
  | absent =>
    have hout : resolveAttempt "amend" ("clOrdId " ++ request.clOrdId) (fun _ => false)
        ⟨"venue:51603", "amend target not found on the venue"⟩ (amendInPlace env request)
        (okxLookup env policy) (Okx.amendVerdict request) flagged =
        (.error ⟨"venue:51603", "amend target not found on the venue"⟩, looked, false) := by
      simp [resolveAttempt, hs, ht, hl]
    rw [hout]
    refine ⟨⟨hlooked, hbody, (fun _ hack => by cases hack), fun hecho _ _ _ => ?_⟩,
      fun hflag => by cases hflag⟩
    rw [hkept]
    exact h.gone hecho huncertain htells
  | inconclusive reason =>
    have hout : ∃ message, resolveAttempt "amend" ("clOrdId " ++ request.clOrdId) (fun _ => false)
        ⟨"venue:51603", "amend target not found on the venue"⟩ (amendInPlace env request)
        (okxLookup env policy) (Okx.amendVerdict request) flagged =
        (.error ⟨"transport", message⟩, looked, false) := by
      exact ⟨_, by simp only [resolveAttempt, hs, ht, hl, if_true]; rfl⟩
    obtain ⟨message, hout⟩ := hout
    rw [hout]
    refine ⟨⟨hlooked, hbody, (fun _ hack => by cases hack), ?_⟩, fun hflag => by cases hflag⟩
    intro _ other hother hcode
    cases hother
    exact absurd rfl hcode

theorem Amending.attempt (policy : RetryPolicy ρ) {flagged : OrderWorld Okx.OrderStatus × Bool}
    (h : Amending env request before n flagged.1) :
    Attempted env request before (n + 1) (okxAmendAttempt env request policy flagged) := by
  have hsent : (amendInPlace env request flagged.1).2.requests = flagged.1.requests + 1 :=
    amendInPlace_requests
  rw [h.requests] at hsent
  have hcases := amendInPlace_cases env request flagged.1
  rcases hs : amendInPlace env request flagged.1 with ⟨answer, sent⟩
  rw [hs] at hsent hcases
  rcases hcases with ⟨ack, order, hack, horder, hamended⟩ | ⟨error, herror, hsame⟩ |
    ⟨error, herror, ht, hamended⟩
  · cases hack
    have hout : okxAmendAttempt env request policy flagged = (.ok ack, sent, false) := by
      simp [okxAmendAttempt, resolveAttempt, hs]
    have hbody : sent.body = before.body.map (Okx.amended env.spell request) := by
      rw [hamended, ← map_amended_of_body h.body, horder]
      rfl
    rw [hout]
    refine ⟨⟨hsent, .inr hbody, fun _ _ => ?_, fun _ error herror => by cases herror⟩,
      fun hflag => by cases hflag⟩
    exact ⟨_, hamended, Okx.meets_amended env.spell request order⟩
  · cases herror
    by_cases ht : error.code = "transport"
    · exact h.resolve policy hs ht (.inl hsame)
    · have hout : okxAmendAttempt env request policy flagged = (.error error, sent, false) :=
        resolveAttempt_of_definitive hs ht rfl
      rw [hout]
      refine ⟨⟨hsent, ?_, (fun _ hack => by cases hack), fun hecho _ _ _ => ?_⟩,
        fun hflag => by cases hflag⟩
      · rw [hsame]
        exact h.body
      · exact hsame.trans (h.echoed hecho)
  · cases herror
    exact h.resolve policy hs ht (.inr hamended)

end

/-- The worlds in which the engine sends its amends. -/
def AmendSent (policy : RetryPolicy ρ) (w v : OrderWorld Okx.OrderStatus) : Prop :=
  ∃ flag, Begins ((clock Okx.statusTerms env.toOrderEnvironment).beside Bool)
    (okxAmendAttempt env request policy) (fun _ v => v.2)
    (((clock Okx.statusTerms env.toOrderEnvironment).beside Bool).now (w, false)).2 (v, flag)

/-- Whatever gets lost and however the market moves: a reported amend is on the venue, a definitive
refusal leaves the order as it was where the venue echoes the values, and at every amend and at the
end the order is the old one or the requested one. -/
theorem okx_resilientAmend_truthful (policy : RetryPolicy ρ)
    (placeOrder : Okx.PlaceRequest → OrderWorld Okx.OrderStatus →
      Result Okx.OrderAck × OrderWorld Okx.OrderStatus) (w : OrderWorld Okx.OrderStatus) :
    (∃ n ≤ policy.maxAttempts.toNat,
      AmendedInPlace env request w n
        (Okx.resilientAmend policy (clock Okx.statusTerms env.toOrderEnvironment)
          (okxAmendVenue env placeOrder) request w).1
        (Okx.resilientAmend policy (clock Okx.statusTerms env.toOrderEnvironment)
          (okxAmendVenue env placeOrder) request w).2) ∧
      ∀ v, AmendSent env request policy w v →
        v.body = w.body ∨ v.body = w.body.map (Okx.amended env.spell request) := by
  have hstart : Amending env request w 0 w := ⟨rfl, .inl rfl, fun _ => rfl⟩
  have hkeeps (n : ℕ) : ((clock Okx.statusTerms env.toOrderEnvironment).beside Bool).Keeps
      fun v => Amending env request w n v.1 :=
    fun v h => Amending.keeps n v.1 h
  constructor
  · have hrule := withRetries_rule policy
      ((clock Okx.statusTerms env.toOrderEnvironment).beside Bool)
      (okxAmendAttempt env request policy) (fun _ v => v.2)
      (I := fun n v => Amending env request w n v.1)
      (Q := fun n result v => AmendedInPlace env request w n result v.1) hkeeps ?_
      (fun n v hv => ⟨(hv.attempt policy).1, fun _ _ hflag => (hv.attempt policy).2 hflag⟩)
      (w := (w, false)) hstart
    · show ∃ n ≤ _, AmendedInPlace env request w n (resolveWith _ _ _ _ _ _ _ _ _ w).1
        (resolveWith _ _ _ _ _ _ _ _ _ w).2
      unfold resolveWith
      rcases hrule with ⟨-, heq⟩ | ⟨n, -, hn, hq⟩
      · have hbody := body_pass Okx.statusTerms env.toOrderEnvironment w
        unfold okxAmendAttempt at heq
        refine ⟨0, Nat.zero_le _, ?_⟩
        simp only [okxAmendVenue, Okx.lookupOrder]
        unfold okxLookup at heq
        rw [heq]
        exact ⟨rfl, .inl hbody, nofun, fun _ _ _ _ => hbody⟩
      · exact ⟨n, by omega, hq⟩
    · intro n result v h
      exact h.of_eq (body_pass Okx.statusTerms env.toOrderEnvironment v.1) rfl
  · intro v ⟨flag, hbegins⟩
    obtain ⟨n, hamending⟩ := hbegins.keeps (I := fun n v => Amending env request w n v.1) hkeeps
      (fun n v hv _ _ hflag => (hv.attempt policy).2 hflag) (hkeeps 0 (w, false) hstart).1
    exact hamending.body

end OrderWorld

end ExchangeGateway
