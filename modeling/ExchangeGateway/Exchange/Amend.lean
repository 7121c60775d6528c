import ExchangeGateway.Exchange.Cancel
import ExchangeGateway.Exchange.Placement

/-! The Binance amend against a venue whose replacements share the client order id of the order
they replace. -/
namespace ExchangeGateway

/-- What the venue does with a cancelReplace: nothing, the cancel leg only, or both legs. -/
inductive ReplaceFate
  | failed (error : Error)
  | canceledOnly (error : Error)
  | replaced (orderId : String) (result : Binance.ReplaceResult)

structure ReplaceEnvironment (ρ : Type) extends
    OrderEnvironment (fun _ => false) Binance.OrderStatus Binance.OrderInfo ρ where
  replace : ℕ → ReplaceFate
  /-- Text of the transport error when the answer does not arrive. -/
  lost : ℕ → Option String
  /-- How the venue writes a requested value, 49000.00000000 for 49000. -/
  spell : String → String

/-- Both legs of a cancelReplace land. -/
def ReplaceEnvironment.creates {ρ : Type} (env : ReplaceEnvironment ρ) (n : ℕ) : Prop :=
  ∃ orderId result, env.replace n = .replaced orderId result

/-- A cancelReplace creates no order, and its answer is a transport error. -/
def ReplaceEnvironment.silent {ρ : Type} (env : ReplaceEnvironment ρ) (n : ℕ) : Prop :=
  ∃ error, (env.replace n = .failed error ∨ env.replace n = .canceledOnly error) ∧
    (env.lost n ≠ none ∨ error.code = "transport")

def StoredOrder.meets (order : StoredOrder) (request : Binance.PlaceRequest) : Bool :=
  Binance.valueMatches request.price order.price &&
    Binance.valueMatches request.quantity order.quantity

namespace OrderWorld

variable {ρ : Type} (env : ReplaceEnvironment ρ) (request : Binance.PlaceRequest)

def cancelLeg (w : OrderWorld Binance.OrderStatus) : OrderWorld Binance.OrderStatus :=
  { w with order := w.order.map fun order =>
      (order.1, if Binance.statusTerms.working order.2 then .canceled else order.2) }

def processReplace (w : OrderWorld Binance.OrderStatus) :
    Result Binance.ReplaceResult × OrderWorld Binance.OrderStatus :=
  match env.replace w.requests with
  | .failed error => (.error error, w)
  | .canceledOnly error => (.error error, w.cancelLeg)
  | .replaced orderId result =>
    let replacement : StoredOrder :=
      ⟨orderId, env.spell request.price, env.spell request.quantity⟩
    (.ok { result with replacement := { result.replacement with orderId := orderId } },
      { w with order := some (replacement, .new), created := w.created ++ [replacement] })

/-- The raw cancelReplace: the answer may get lost. -/
def cancelReplace (w : OrderWorld Binance.OrderStatus) :
    Result Binance.ReplaceResult × OrderWorld Binance.OrderStatus :=
  let (answer, after) :=
    (w.pass Binance.statusTerms env.toOrderEnvironment).processReplace env request
  ((env.lost w.requests).elim answer fun message => .error ⟨"transport", message⟩,
    { after with requests := w.requests + 1 })

/-- A venue for one order. The engine does not place. -/
def amendVenue (place : Binance.PlaceRequest → OrderWorld Binance.OrderStatus →
      Result Binance.OrderAck × OrderWorld Binance.OrderStatus) :
    Binance.AmendApi (OrderWorld Binance.OrderStatus) where
  place := place
  getOrder _ := getOrder Binance.statusTerms env.toOrderEnvironment
  cancelReplace request := cancelReplace env request

def body {τ : Type} (w : OrderWorld τ) : Option StoredOrder := w.order.map Prod.fst

theorem body_pass {absent : Error → Bool} {τ ι ρ : Type} (terms : StatusTerms τ ι)
    (env : OrderEnvironment absent τ ι ρ) (w : OrderWorld τ) :
    (w.pass terms env).body = w.body := by
  simp [body, pass, Function.comp_def]

theorem processReplace_cases (w : OrderWorld Binance.OrderStatus) :
    (∃ error v, processReplace env request w = (.error error, v) ∧ v.body = w.body ∧
        v.created = w.created ∧ v.lookups = w.lookups ∧ v.reads = w.reads ∧
        (env.replace w.requests = .failed error ∨ env.replace w.requests = .canceledOnly error)) ∨
      ∃ result replacement v, processReplace env request w = (.ok result, v) ∧
        env.creates w.requests ∧ v.body = some replacement ∧
        v.created = w.created ++ [replacement] ∧
        result.replacement.orderId = replacement.orderId := by
  unfold processReplace
  cases hfate : env.replace w.requests with
  | failed error => exact .inl ⟨error, w, rfl, rfl, rfl, rfl, rfl, .inl rfl⟩
  | canceledOnly error =>
    refine .inl ⟨error, w.cancelLeg, rfl, ?_, rfl, rfl, rfl, .inr rfl⟩
    simp [body, cancelLeg, Function.comp_def]
  | replaced orderId result =>
    exact .inr ⟨_, _, _, rfl, ⟨orderId, result, hfate⟩, rfl, rfl, rfl⟩

def Renewed {τ : Type} (w : OrderWorld τ) : Prop := ∃ order ∈ w.created, w.body = some order

structure Original {τ : Type} (initial : Option StoredOrder) (w : OrderWorld τ) : Prop where
  body : w.body = initial
  created : w.created = []

section

variable {env request} {initial : Option StoredOrder} {w : OrderWorld Binance.OrderStatus}

theorem Renewed.of_eq {τ : Type} {w v : OrderWorld τ} (h : w.Renewed) (hbody : v.body = w.body)
    (hcreated : v.created = w.created) : v.Renewed := by
  obtain ⟨order, hmem, ho⟩ := h
  exact ⟨order, hcreated ▸ hmem, hbody.trans ho⟩

theorem Original.of_eq {τ : Type} {w v : OrderWorld τ} (h : w.Original initial)
    (hbody : v.body = w.body) (hcreated : v.created = w.created) : v.Original initial :=
  ⟨hbody.trans h.body, hcreated.trans h.created⟩

theorem cancelReplace_cases (env : ReplaceEnvironment ρ) (request : Binance.PlaceRequest)
    (w : OrderWorld Binance.OrderStatus) :
    (∃ error, (cancelReplace env request w).1 = .error error ∧
        (cancelReplace env request w).2.body = w.body ∧
        (cancelReplace env request w).2.created = w.created ∧
        (cancelReplace env request w).2.lookups = w.lookups ∧
        (cancelReplace env request w).2.reads = w.reads ∧
        ¬ env.creates w.requests ∧ (error.code = "transport" ↔ env.silent w.requests)) ∨
      env.creates w.requests ∧
        (cancelReplace env request w).2.Renewed ∧
        ∀ result, (cancelReplace env request w).1 = .ok result →
          ∃ order ∈ (cancelReplace env request w).2.created,
            order.orderId = result.replacement.orderId := by
  have hpass := body_pass Binance.statusTerms env.toOrderEnvironment w
  unfold cancelReplace
  rcases processReplace_cases env request (w.pass Binance.statusTerms env.toOrderEnvironment) with
    ⟨error, v, heq, hbody, hcreated, hlookups, hreads, hfate⟩ |
      ⟨result, replacement, v, heq, hfate, hbody, hcreated, hid⟩
  · left
    have hsilent : env.silent w.requests ↔ env.lost w.requests ≠ none ∨ error.code = "transport" := by
      constructor
      · rintro ⟨other, hother, h⟩
        have hsame : other = error := by
          rcases hother with ho | ho <;> rcases hfate with he | he <;> cases ho.symm.trans he <;> rfl
        rwa [hsame] at h
      · exact fun h => ⟨error, hfate, h⟩
    have hnone : ¬ env.creates w.requests := by
      rintro ⟨orderId, result, h⟩
      rcases hfate with he | he <;> cases h.symm.trans he
    rw [heq, hsilent]
    cases hl : env.lost w.requests with
    | none =>
      refine ⟨error, rfl, hbody.trans hpass, hcreated, hlookups, hreads, hnone, ?_⟩
      simp
    | some message =>
      refine ⟨⟨"transport", message⟩, rfl, hbody.trans hpass, hcreated, hlookups, hreads, hnone, ?_⟩
      simp
  · right
    rw [heq]
    have hmem : replacement ∈ v.created := by simp [hcreated]
    refine ⟨hfate, ⟨replacement, hmem, hbody⟩, fun other hother => ⟨replacement, hmem, ?_⟩⟩
    cases hl : env.lost w.requests with
    | none =>
      rw [hl] at hother
      cases hother
      exact hid.symm
    | some message =>
      rw [hl] at hother
      cases hother

/-- A lookup leaves the order as it is and reports it. -/
theorem lookupWith_reports (env : ReplaceEnvironment ρ) (policy : RetryPolicy ρ)
    (w : OrderWorld Binance.OrderStatus) :
    ((lookupWith policy (clock Binance.statusTerms env.toOrderEnvironment) (fun _ => false)
          (getOrder Binance.statusTerms env.toOrderEnvironment) w).2.body = w.body ∧
        (lookupWith policy (clock Binance.statusTerms env.toOrderEnvironment) (fun _ => false)
          (getOrder Binance.statusTerms env.toOrderEnvironment) w).2.created = w.created) ∧
      ∀ found, (lookupWith policy (clock Binance.statusTerms env.toOrderEnvironment)
          (fun _ => false) (getOrder Binance.statusTerms env.toOrderEnvironment) w).1 =
          .found found →
        ∃ info order s, w.body = some order ∧
          found = Binance.statusTerms.report info order s := by
  have hpass (v : OrderWorld Binance.OrderStatus) :=
    body_pass Binance.statusTerms env.toOrderEnvironment v
  refine lookupWith_rule policy (clock Binance.statusTerms env.toOrderEnvironment) (fun _ => false)
    (getOrder Binance.statusTerms env.toOrderEnvironment)
    (I := fun v => v.body = w.body ∧ v.created = w.created)
    (P := fun lookup _ => ∀ found, lookup = .found found →
      ∃ info order s, w.body = some order ∧ found = Binance.statusTerms.report info order s)
    ?_ (fun _ _ h => h) ?_ ?_ ⟨rfl, rfl⟩
  · intro v hv
    have hkept := (hpass v).trans hv.1
    exact ⟨⟨hkept, hv.2⟩, ⟨hkept, hv.2⟩, fun _ => ⟨hkept, hv.2⟩⟩
  · intro v hv
    obtain ⟨hworld, hfound⟩ :=
      lookupAttempt_found Binance.statusTerms env.toOrderEnvironment v
    rw [hworld]
    refine ⟨⟨(hpass v).trans hv.1, hv.2⟩, fun lookup hlookup found hl => ?_⟩
    rw [hl] at hlookup
    obtain ⟨info, order, s, ho, heq⟩ := hfound found hlookup
    have hbody : (v.pass Binance.statusTerms env.toOrderEnvironment).body = some order := by
      simp [body, ho]
    exact ⟨info, order, s, by rw [← hv.1, ← hpass v, hbody], heq⟩
  · intro error v found h
    cases h

def AmendedTruly (outcome : Result Binance.OrderAck × OrderWorld Binance.OrderStatus) : Prop :=
  ∀ ack, outcome.1 = .ok ack → ∃ order ∈ outcome.2.created, order.orderId = ack.orderId

/-- The order before the call may be taken for its replacement: it carries the requested values,
the first cancelReplace is lost and creates nothing, and a lookup after it is answered. -/
structure Mistakable (policy : RetryPolicy ρ) (env : ReplaceEnvironment ρ)
    (request : Binance.PlaceRequest) (initial : Option (StoredOrder × Binance.OrderStatus)) :
    Prop where
  attempts : 1 ≤ policy.maxAttempts
  meets : ∃ order status, initial = some (order, status) ∧ order.meets request
  silent : env.silent 0
  resolved : ResolvedWithin env.lookup env.now (env.now 1 + policy.budget * kNanosPerMilli)
    policy.maxAttempts.toNat 0 2

theorem amendVerdict_landed {info : Binance.OrderInfo} {order : StoredOrder}
    {s : Binance.OrderStatus} {ack : Binance.OrderAck}
    (h : Binance.amendVerdict request (Binance.statusTerms.report info order s) = .landed ack) :
    order.meets request ∧ ack.orderId = order.orderId := by
  unfold Binance.amendVerdict at h
  split_ifs at h with hmatches hworking
  cases h
  exact ⟨hmatches, rfl⟩

/-- What a lookup finds is a replacement, or an order that cannot be taken for one. -/
def Told (request : Binance.PlaceRequest) (initial : Option StoredOrder)
    (w : OrderWorld Binance.OrderStatus) : Prop :=
  w.Renewed ∨ w.Original initial ∧ ∀ order, initial = some order → ¬ order.meets request

theorem Told.of_eq {v : OrderWorld Binance.OrderStatus} (h : w.Told request initial)
    (hbody : v.body = w.body) (hcreated : v.created = w.created) : v.Told request initial :=
  h.imp (fun h => h.of_eq hbody hcreated) fun h => ⟨h.1.of_eq hbody hcreated, h.2⟩

theorem Told.replaceAck {place : Binance.PlaceRequest → OrderWorld Binance.OrderStatus →
      Result Binance.OrderAck × OrderWorld Binance.OrderStatus}
    (h : w.Told request initial ∨ w.Original initial ∧ env.creates w.requests) :
    (Binance.replaceAck (amendVenue env place) request w).2.Told request initial ∧
      ∀ ack, (Binance.replaceAck (amendVenue env place) request w).1 = .ok ack →
        ∃ order ∈ (Binance.replaceAck (amendVenue env place) request w).2.created,
          order.orderId = ack.orderId := by
  have hsent : (Binance.replaceAck (amendVenue env place) request w).2 =
      (cancelReplace env request w).2 := rfl
  have hacked : (Binance.replaceAck (amendVenue env place) request w).1 =
      (cancelReplace env request w).1.map Binance.ReplaceResult.replacement := rfl
  rw [hsent, hacked]
  rcases cancelReplace_cases env request w with
    ⟨error, herror, hbody, hcreated, -, -, hnone, -⟩ | ⟨-, hrenewed, hids⟩
  · refine ⟨?_, fun ack hack => ?_⟩
    · rcases h with h | ⟨-, hcreates⟩
      · exact h.of_eq hbody hcreated
      · exact absurd hcreates hnone
    · rw [herror] at hack
      cases hack
  · refine ⟨.inl hrenewed, fun ack hack => ?_⟩
    cases hresult : (cancelReplace env request w).1 with
    | error error =>
      rw [hresult] at hack
      cases hack
    | ok result =>
      rw [hresult] at hack
      cases hack
      exact hids result hresult

theorem Told.lookup (policy : RetryPolicy ρ) (h : w.Told request initial) :
    (lookupWith policy (clock Binance.statusTerms env.toOrderEnvironment) (fun _ => false)
        (getOrder Binance.statusTerms env.toOrderEnvironment) w).2.Told request initial ∧
      ∀ info ack, (lookupWith policy (clock Binance.statusTerms env.toOrderEnvironment)
          (fun _ => false) (getOrder Binance.statusTerms env.toOrderEnvironment) w).1 =
          .found info →
        Binance.amendVerdict request info = .landed ack →
        ∃ order ∈ (lookupWith policy (clock Binance.statusTerms env.toOrderEnvironment)
            (fun _ => false) (getOrder Binance.statusTerms env.toOrderEnvironment) w).2.created,
          order.orderId = ack.orderId := by
  obtain ⟨⟨hbody, hcreated⟩, hreports⟩ := lookupWith_reports env policy w
  refine ⟨h.of_eq hbody hcreated, fun found ack hfound hverdict => ?_⟩
  obtain ⟨info, order, s, ho, rfl⟩ := hreports found hfound
  obtain ⟨hmeets, hid⟩ := amendVerdict_landed hverdict
  rw [hcreated]
  rcases h with ⟨replacement, hmem, hnewest⟩ | ⟨horiginal, hdiffers⟩
  · have hsame : replacement = order := Option.some.inj (hnewest.symm.trans ho)
    exact ⟨replacement, hmem, by rw [hsame, hid]⟩
  · exact absurd hmeets (hdiffers order (horiginal.body.symm.trans ho))

/-- An order without the requested values is not taken for a replacement, and a replacement stays
the newest order. -/
theorem amendedTruly_of_told (policy : RetryPolicy ρ)
    (place : Binance.PlaceRequest → OrderWorld Binance.OrderStatus →
      Result Binance.OrderAck × OrderWorld Binance.OrderStatus)
    (hw : w.Told request initial ∨ w.Original initial ∧ env.creates w.requests) :
    AmendedTruly (Binance.resilientAmend policy
      (clock Binance.statusTerms env.toOrderEnvironment) (amendVenue env place) request w) := by
  have hkeeps : (clock Binance.statusTerms env.toOrderEnvironment).Keeps fun v =>
      v.Told request initial ∨ v.Original initial ∧ env.creates v.requests := by
    intro v hv
    have hpass := body_pass Binance.statusTerms env.toOrderEnvironment v
    have hkept (u : OrderWorld Binance.OrderStatus) (hbody : u.body = v.body)
        (hcreated : u.created = v.created) (hrequests : u.requests = v.requests) :
        u.Told request initial ∨ u.Original initial ∧ env.creates u.requests := by
      rw [hrequests]
      exact hv.imp (fun h => h.of_eq hbody hcreated) fun h => ⟨h.1.of_eq hbody hcreated, h.2⟩
    exact ⟨hkept _ hpass rfl rfl, hkept _ hpass rfl rfl, fun _ => hkept _ hpass rfl rfl⟩
  obtain ⟨-, -, -, htrue⟩ := resolveWith_rule policy
    (clock Binance.statusTerms env.toOrderEnvironment) "amend"
    ("clientOrderId " ++ request.clientOrderId) (fun _ => false)
    ⟨"venue:-2013", "amend target not found on the venue"⟩
    (Binance.replaceAck (amendVenue env place) request)
    (lookupWith policy (clock Binance.statusTerms env.toOrderEnvironment) (fun _ => false)
      (getOrder Binance.statusTerms env.toOrderEnvironment)) (Binance.amendVerdict request)
    (K := fun _ v => v.Told request initial)
    (G := fun ack v => ∃ order ∈ v.created, order.orderId = ack.orderId)
    (fun _ => hkeeps) (fun _ _ h => h) (fun _ _ h => .inl h) (fun _ _ h => Told.replaceAck h)
    (fun _ _ h => ⟨.inl (h.lookup policy).1, (h.lookup policy).2⟩) hw
  exact htrue

/-- A venue that has an order answers as the environment says. -/
theorem scripted_body {absent : Error → Bool} {τ ι : Type} (terms : StatusTerms τ ι)
    (env : OrderEnvironment absent τ ι ρ) (order : StoredOrder) :
    Scripted (clock terms env) (getOrder terms env) env.lookup env.now
      fun n m w => w.body = some order ∧ w.lookups = n ∧ w.reads = m where
  read := by
    rintro n m w ⟨ho, hn, rfl⟩
    exact ⟨rfl, (body_pass terms env w).trans ho, hn, rfl⟩
  draw n m w h := ⟨(body_pass terms env w).trans h.1, h.2⟩
  sleep n m w _ h := ⟨(body_pass terms env w).trans h.1, h.2⟩
  looked := by
    rintro n m w ⟨ho, rfl, hm⟩
    exact ⟨(body_pass terms env w).trans ho, rfl, hm⟩
  failed := by
    rintro n m w error h ⟨-, rfl, -⟩ ha
    simp [getOrder, ha]
  answered := by
    rintro n m w info absence ⟨ho, rfl, -⟩ ha
    obtain ⟨⟨order', s⟩, hpass, -⟩ :=
      Option.map_eq_some_iff.mp ((body_pass terms env w).trans ho)
    exact ⟨terms.report info order' s, by simp [getOrder, ha, hpass]⟩

def amendAttempt (env : ReplaceEnvironment ρ) (request : Binance.PlaceRequest)
    (policy : RetryPolicy ρ)
    (place : Binance.PlaceRequest → OrderWorld Binance.OrderStatus →
      Result Binance.OrderAck × OrderWorld Binance.OrderStatus) :
    OrderWorld Binance.OrderStatus × Bool →
      Result Binance.OrderAck × OrderWorld Binance.OrderStatus × Bool :=
  resolveAttempt "amend" ("clientOrderId " ++ request.clientOrderId) (fun _ => false)
    ⟨"venue:-2013", "amend target not found on the venue"⟩
    (Binance.replaceAck (amendVenue env place) request)
    (lookupWith policy (clock Binance.statusTerms env.toOrderEnvironment) (fun _ => false)
      (getOrder Binance.statusTerms env.toOrderEnvironment)) (Binance.amendVerdict request)

section

variable (policy : RetryPolicy ρ)
  (place : Binance.PlaceRequest → OrderWorld Binance.OrderStatus →
    Result Binance.OrderAck × OrderWorld Binance.OrderStatus)

theorem resilientAmend_of_first {outcome : Result Binance.OrderAck}
    {v : OrderWorld Binance.OrderStatus} (hmax : 1 ≤ policy.maxAttempts)
    (h : amendAttempt env request policy place
      (((clock Binance.statusTerms env.toOrderEnvironment).now w).2, false) =
        (outcome, v, false)) :
    Binance.resilientAmend policy (clock Binance.statusTerms env.toOrderEnvironment)
      (amendVenue env place) request w = (outcome, v) := by
  have hdecides := resolveWith_of_first policy _ _ _ _ _ _ _ _ (w := w) hmax
    (congrArg (fun r => r.2.2) h)
  exact hdecides.trans (congrArg (fun r => (r.1, r.2.1)) h)

/-- The first attempt at an order with the requested values ends the call, and it reports a success
exactly when a lookup tells it of that order. -/
theorem amendAttempt_of_meets {begun : OrderWorld Binance.OrderStatus} {order : StoredOrder}
    (hmeets : order.meets request) (hbody : begun.body = some order) (hempty : begun.created = [])
    (hcreates : ¬ env.creates begun.requests) :
    ∃ outcome v, amendAttempt env request policy place (begun, false) = (outcome, v, false) ∧
      v.created = [] ∧
      ((∃ ack, outcome = .ok ack) ↔ env.silent begun.requests ∧
        ResolvedWithin env.lookup env.now (env.now begun.reads + policy.budget * kNanosPerMilli)
          policy.maxAttempts.toNat begun.lookups (begun.reads + 1)) := by
  rcases cancelReplace_cases env request begun with
    ⟨error, herror, hsame, hcreated, hlookups, hreads, -, hsilent⟩ | ⟨h, -⟩
  swap
  · exact absurd h hcreates
  rcases hsent : cancelReplace env request begun with ⟨result, sent⟩
  rw [hsent] at herror hsame hcreated hlookups hreads
  have hsend : Binance.replaceAck (amendVenue env place) request begun = (.error error, sent) := by
    simp only [Binance.replaceAck, amendVenue, hsent]
    rw [show result = .error error from herror]
    rfl
  have horder : sent.body = some order := hsame.trans hbody
  have hfound := (scripted_body Binance.statusTerms env.toOrderEnvironment
    order).lookupWith_found_iff policy ⟨horder, hlookups, hreads⟩
  obtain ⟨⟨-, hkept⟩, hreports⟩ := lookupWith_reports env policy sent
  rcases hl : lookupWith policy (clock Binance.statusTerms env.toOrderEnvironment)
    (fun _ => false) (getOrder Binance.statusTerms env.toOrderEnvironment) sent with ⟨found, v⟩
  rw [hl] at hfound hreports hkept
  have hnone : v.created = [] := hkept.trans (hcreated.trans hempty)
  by_cases ht : error.code = "transport"
  · by_cases hinfo : ∃ info, found = .found info
    · obtain ⟨info, rfl⟩ := hinfo
      obtain ⟨fields, order', s, ho, rfl⟩ := hreports info rfl
      have hverdict : Binance.amendVerdict request (Binance.statusTerms.report fields order' s) =
          .landed (Binance.ackOf (Binance.statusTerms.report fields order' s)) := by
        rw [Option.some.inj (ho.symm.trans horder)]
        exact if_pos hmeets
      refine ⟨_, v, resolveAttempt_of_landed hsend ht hl hverdict, hnone, fun _ => ?_, fun _ => ?_⟩
      · exact ⟨hsilent.mp ht, hfound.mp ⟨_, rfl⟩⟩
      · exact ⟨_, rfl⟩
    · obtain ⟨reason, hattempt⟩ := resolveAttempt_of_not_found (w := (begun, false)) hsend ht hl
        fun info h => hinfo ⟨info, h⟩
      refine ⟨_, v, hattempt, hnone, ?_, ?_⟩
      · rintro ⟨ack, h⟩
        cases h
      · rintro ⟨-, hresolved⟩
        exact absurd (hfound.mpr hresolved) hinfo
  · refine ⟨_, sent, resolveAttempt_of_definitive hsend ht rfl, hcreated.trans hempty, ?_, ?_⟩
    · rintro ⟨ack, h⟩
      cases h
    · rintro ⟨h, -⟩
      exact absurd (hsilent.mpr h) ht

end

/-- For every policy, request, order before the call and sequence of answers: an amend is reported
truthfully exactly when that order cannot be taken for the replacement. -/
theorem resilientAmend_truthful_iff (policy : RetryPolicy ρ) (env : ReplaceEnvironment ρ)
    (place : Binance.PlaceRequest → OrderWorld Binance.OrderStatus →
      Result Binance.OrderAck × OrderWorld Binance.OrderStatus)
    (request : Binance.PlaceRequest) (initial : Option (StoredOrder × Binance.OrderStatus)) :
    AmendedTruly (Binance.resilientAmend policy
        (clock Binance.statusTerms env.toOrderEnvironment) (amendVenue env place) request
        { order := initial }) ↔ ¬ Mistakable policy env request initial := by
  have horiginal : Original (initial.map Prod.fst)
      ({ order := initial } : OrderWorld Binance.OrderStatus) := ⟨rfl, rfl⟩
  by_cases hcreates : env.creates 0
  · refine ⟨fun _ h => ?_, fun _ => amendedTruly_of_told policy place (.inr ⟨horiginal, hcreates⟩)⟩
    obtain ⟨orderId, result, hreplaced⟩ := hcreates
    obtain ⟨error, hfate | hfate, -⟩ := h.silent
    · cases hreplaced.symm.trans hfate
    · cases hreplaced.symm.trans hfate
  by_cases hmeets : ∃ order status, initial = some (order, status) ∧ order.meets request
  · by_cases hmax : 1 ≤ policy.maxAttempts
    · obtain ⟨order, status, rfl, hvalues⟩ := hmeets
      have hbegun : ((clock Binance.statusTerms env.toOrderEnvironment).now
          { order := some (order, status) }).2.body = some order :=
        body_pass Binance.statusTerms env.toOrderEnvironment { order := some (order, status) }
      obtain ⟨outcome, v, hattempt, hempty, hiff⟩ :=
        amendAttempt_of_meets policy place hvalues hbegun rfl hcreates
      rw [resilientAmend_of_first policy place hmax hattempt]
      constructor
      · intro h hmistakable
        obtain ⟨ack, rfl⟩ := hiff.mpr ⟨hmistakable.silent, hmistakable.resolved⟩
        obtain ⟨replacement, hmem, -⟩ := h ack rfl
        rw [hempty] at hmem
        cases hmem
      · intro h ack hack
        obtain ⟨hsilent, hresolved⟩ := hiff.mp ⟨ack, hack⟩
        exact absurd ⟨hmax, ⟨order, status, rfl, hvalues⟩, hsilent, hresolved⟩ h
    · refine ⟨fun _ h => hmax h.attempts, fun _ ack hack => ?_⟩
      unfold Binance.resilientAmend at hack
      rw [resolveWith_of_no_attempt _ _ _ _ _ _ _ _ _ _ hmax] at hack
      cases hack
  · refine ⟨fun _ h => hmeets h.meets, fun _ => ?_⟩
    refine amendedTruly_of_told policy place (.inl (.inr ⟨horiginal, fun order ho h => ?_⟩))
    obtain ⟨⟨order', status⟩, hinitial, rfl⟩ := Option.map_eq_some_iff.mp ho
    exact hmeets ⟨order', status, hinitial, h⟩

end

def dropped : ReplaceEnvironment Unit where
  market _ status := status
  lookup _ := .answered VenueWorld.binanceInfo none
  now _ := 0
  random01 _ := ()
  replace _ := .failed ⟨"transport", "connection reset"⟩
  lost _ := none
  spell value := value

/-- The order has the requested price and quantity before the call. It is reported as its own
replacement, which was never created. -/
theorem amend_reports_the_original :
    ¬ AmendedTruly (Binance.resilientAmend VenueWorld.samplePolicy
      (clock Binance.statusTerms dropped.toOrderEnvironment)
      (amendVenue dropped fun _ w => (.error ⟨"transport", "connection reset"⟩, w))
      VenueWorld.binanceRequest { order := some (⟨"7", "100", "5"⟩, .new) }) := by
  intro h
  obtain ⟨order, hmem, -⟩ := h ⟨"7", "c1", "NEW", "0"⟩ rfl
  cases hmem

end OrderWorld

end ExchangeGateway
