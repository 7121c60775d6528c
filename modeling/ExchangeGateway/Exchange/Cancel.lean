import ExchangeGateway.Exchange.Resilient

/-! The cancel engines against a venue on which the order trades while they run. -/
namespace ExchangeGateway

structure StoredOrder where
  orderId : String
  price : String
  quantity : String
  deriving DecidableEq, Repr

/-- The statuses `τ` of a venue, and how its order infos report them. -/
structure StatusTerms (τ ι : Type) where
  working : τ → Bool
  filled : τ
  canceled : τ
  report : ι → StoredOrder → τ → ι
  filled_done : working filled = false
  canceled_done : working canceled = false
  filled_ne_canceled : filled ≠ canceled

/-- The decisions of the environment, by the number of the request, reading or moment. -/
structure OrderEnvironment (absent : Error → Bool) (τ ι ρ : Type) where
  /-- What a working order becomes: it trades, or the venue ends it. -/
  market : ℕ → τ → τ
  lookup : ℕ → LookupAnswer absent ι
  now : ℕ → ℤ
  random01 : ℕ → ρ

/-- The newest order under one client order id, the replacements of this call, and what was asked
so far. -/
structure OrderWorld (τ : Type) where
  order : Option (StoredOrder × τ)
  created : List StoredOrder := []
  requests : ℕ := 0
  lookups : ℕ := 0
  reads : ℕ := 0
  draws : ℕ := 0
  moments : ℕ := 0

namespace OrderWorld

variable {absent : Error → Bool} {τ ι ρ : Type} (terms : StatusTerms τ ι)
  (env : OrderEnvironment absent τ ι ρ)

def status (w : OrderWorld τ) : Option τ := w.order.map Prod.snd

/-- The market moves before every request and whenever the clock is used. An order that is over
stays as it is. -/
def pass (w : OrderWorld τ) : OrderWorld τ :=
  { w with
    order := w.order.map fun order =>
      (order.1, if terms.working order.2 then env.market w.moments order.2 else order.2)
    moments := w.moments + 1 }

/-- The raw lookup: truthful about the newest order, or failed. -/
def getOrder (w : OrderWorld τ) : Result (Option ι) × OrderWorld τ :=
  (match env.lookup w.lookups with
    | .failed error _ => .error error
    | .answered info absence =>
      match (w.pass terms env).order, absence with
      | some (order, status), _ => .ok (some (terms.report info order status))
      | none, none => .ok none
      | none, some error => .error error,
    { w.pass terms env with lookups := w.lookups + 1 })

def clock : RetryClock ρ (OrderWorld τ) where
  now w := (env.now w.reads, { w.pass terms env with reads := w.reads + 1 })
  sleep _ w := w.pass terms env
  random01 w := (env.random01 w.draws, { w.pass terms env with draws := w.draws + 1 })

/-! ### What the market leaves alone -/

theorem status_pass_of_done {w : OrderWorld τ} {s : τ} (hdone : terms.working s = false)
    (hs : w.status = some s) : (w.pass terms env).status = some s := by
  obtain ⟨⟨order, s'⟩, ho, rfl⟩ := Option.map_eq_some_iff.mp hs
  have hkept : (w.pass terms env).order = some (order, s') := by simp [pass, ho, hdone]
  simp [status, hkept]

theorem clock_keeps_done {s : τ} (hdone : terms.working s = false) :
    (clock terms env).Keeps fun w => w.status = some s := by
  intro w h
  have hpass := status_pass_of_done terms env hdone h
  exact ⟨hpass, hpass, fun _ => hpass⟩

/-- A lookup that finds an order reports the newest one as it stands. -/
theorem lookupAttempt_found (w : OrderWorld τ) :
    (lookupAttempt absent (getOrder terms env) w).2 =
        { w.pass terms env with lookups := w.lookups + 1 } ∧
      ∀ found, (lookupAttempt absent (getOrder terms env) w).1 = .ok (.found found) →
        ∃ info order s, (w.pass terms env).order = some (order, s) ∧
          found = terms.report info order s := by
  unfold lookupAttempt getOrder
  cases ha : env.lookup w.lookups with
  | failed error h =>
    by_cases ht : error.code = "transport"
    · simp [h, ht]
    · simp [h, ht]
  | answered info absence =>
    cases ho : (w.pass terms env).order with
    | some order =>
      obtain ⟨order, s⟩ := order
      refine ⟨rfl, fun found hfound => ⟨info, order, s, rfl, ?_⟩⟩
      cases hfound
      rfl
    | none =>
      cases absence with
      | none => simp
      | some error => simp [error.2]

end OrderWorld

/-! ### The raw cancel -/

/-- A cancel is processed, or fails without an effect: it is dropped, or refused for a reason that
has nothing to do with the order. -/
inductive CancelFate (α : Type)
  | processed (ack : α) (text : String)
  | failed (error : Error)

structure CancelEnvironment (absent : Error → Bool) (τ α ι ρ : Type) extends
    OrderEnvironment absent τ ι ρ where
  cancel : ℕ → CancelFate α
  /-- Text of the transport error when the answer does not arrive. -/
  lost : ℕ → Option String

namespace OrderWorld

variable {absent : Error → Bool} {τ α ι ρ : Type} (terms : StatusTerms τ ι)
  (env : CancelEnvironment absent τ α ι ρ) (doneCode : String)

/-- A working order is canceled; any other is refused as done. -/
def processCancel (w : OrderWorld τ) : Result α × OrderWorld τ :=
  match env.cancel w.requests, w.order with
  | .failed error, _ => (.error error, w)
  | .processed _ text, none => (.error ⟨doneCode, text⟩, w)
  | .processed ack text, some (order, status) =>
    if terms.working status then (.ok ack, { w with order := some (order, terms.canceled) })
    else (.error ⟨doneCode, text⟩, w)

/-- The raw cancel: the answer may get lost. -/
def cancel (w : OrderWorld τ) : Result α × OrderWorld τ :=
  let (answer, after) := (w.pass terms env.toOrderEnvironment).processCancel terms env doneCode
  ((env.lost w.requests).elim answer fun message => .error ⟨"transport", message⟩,
    { after with requests := w.requests + 1 })

theorem processCancel_cases (w : OrderWorld τ) :
    (∃ error, processCancel terms env doneCode w = (.error error, w)) ∨
      ∃ ack order status, w.order = some (order, status) ∧ terms.working status ∧
        processCancel terms env doneCode w =
          (.ok ack, { w with order := some (order, terms.canceled) }) := by
  unfold processCancel
  cases hfate : env.cancel w.requests with
  | failed error => exact .inl ⟨error, rfl⟩
  | processed ack text =>
    cases ho : w.order with
    | none => exact .inl ⟨_, rfl⟩
    | some order =>
      obtain ⟨order, status⟩ := order
      by_cases hworking : terms.working status
      · exact .inr ⟨ack, order, status, rfl, hworking, by simp [hworking]⟩
      · exact .inl ⟨⟨doneCode, text⟩, by simp [hworking]⟩

/-- A cancel that is acked has canceled the order. -/
theorem status_cancel_of_ok {w : OrderWorld τ} {ack : α}
    (h : (cancel terms env doneCode w).1 = .ok ack) :
    (cancel terms env doneCode w).2.status = some terms.canceled := by
  unfold cancel at h ⊢
  rcases processCancel_cases terms env doneCode (w.pass terms env.toOrderEnvironment) with
    ⟨error, heq⟩ | ⟨ack', order, status, -, -, heq⟩
  · rw [heq] at h
    cases hl : env.lost w.requests <;> simp [hl] at h
  · rw [heq]
    rfl

/-- A cancel does nothing to an order that is over. -/
theorem status_cancel_of_done {w : OrderWorld τ} {s : τ} (hdone : terms.working s = false)
    (hs : w.status = some s) : (cancel terms env doneCode w).2.status = some s := by
  have hpass := status_pass_of_done terms env.toOrderEnvironment hdone hs
  unfold cancel
  rcases processCancel_cases terms env doneCode (w.pass terms env.toOrderEnvironment) with
    ⟨error, heq⟩ | ⟨ack, order, status, ho, hworking, heq⟩
  · rw [heq]
    exact hpass
  · have hstatus : status = s := by simpa [OrderWorld.status, ho] using hpass
    rw [hstatus, hdone] at hworking
    cases hworking

/-! ### The engine -/

/-- The run so far: `n` requests were sent, and an order that was over stays so. -/
structure Canceling (before : OrderWorld τ) (n : ℕ) (w : OrderWorld τ) : Prop where
  requests : w.requests = n
  settled : ∀ s, terms.working s = false → before.status = some s → w.status = some s

variable {terms env doneCode} {before : OrderWorld τ}

theorem Canceling.pass (env : OrderEnvironment absent τ ι ρ) {n : ℕ} {w : OrderWorld τ}
    (h : Canceling terms before n w) : Canceling terms before n (w.pass terms env) where
  requests := h.requests
  settled s hdone hs := status_pass_of_done terms env hdone (h.settled s hdone hs)

theorem Canceling.keeps (n : ℕ) :
    (clock terms env.toOrderEnvironment).Keeps (Canceling terms before n) := by
  intro w h
  obtain ⟨hrequests, hsettled⟩ := h.pass env.toOrderEnvironment
  exact ⟨⟨hrequests, hsettled⟩, ⟨hrequests, hsettled⟩, fun _ => ⟨hrequests, hsettled⟩⟩

theorem Canceling.send {n : ℕ} {w : OrderWorld τ} (h : Canceling terms before n w) :
    Canceling terms before (n + 1) (cancel terms env doneCode w).2 where
  requests := congrArg (· + 1) h.requests
  settled s hdone hs := status_cancel_of_done terms env doneCode hdone (h.settled s hdone hs)

/-- A lookup is truthful when it is answered, and the canceled order it found stays canceled. -/
theorem Canceling.lookup {verdict : ι → Verdict α}
    (hlanded : ∀ info order s value, verdict (terms.report info order s) = .landed value →
      s = terms.canceled) (policy : RetryPolicy ρ) {n : ℕ} {w : OrderWorld τ}
    (h : Canceling terms before n w) :
    Canceling terms before n (lookupWith policy (clock terms env.toOrderEnvironment) absent
        (getOrder terms env.toOrderEnvironment) w).2 ∧
      ∀ info value, (lookupWith policy (clock terms env.toOrderEnvironment) absent
          (getOrder terms env.toOrderEnvironment) w).1 = .found info →
        verdict info = .landed value →
        (lookupWith policy (clock terms env.toOrderEnvironment) absent
          (getOrder terms env.toOrderEnvironment) w).2.status = some terms.canceled := by
  refine lookupWith_rule policy (clock terms env.toOrderEnvironment) absent
    (getOrder terms env.toOrderEnvironment) (I := Canceling terms before n)
    (P := fun lookup v => ∀ info value, lookup = .found info → verdict info = .landed value →
      v.status = some terms.canceled)
    (Canceling.keeps n) ?_ ?_ ?_ h
  · intro lookup v hP info value hfound hverdict
    have hstatus := hP info value hfound hverdict
    exact (clock_keeps_done terms env.toOrderEnvironment terms.canceled_done v hstatus).1
  · intro v hv
    obtain ⟨hworld, hfound⟩ := lookupAttempt_found terms env.toOrderEnvironment v
    rw [hworld]
    refine ⟨?_, fun lookup hlookup found value hl hverdict => ?_⟩
    · have hpass := hv.pass env.toOrderEnvironment
      exact ⟨hpass.requests, hpass.settled⟩
    · rw [hl] at hlookup
      obtain ⟨info, order, s, ho, rfl⟩ := hfound found hlookup
      have hcanceled := hlanded info order s value hverdict
      simp [status, ho, hcanceled]
  · intro error v info value hfound
    cases hfound

/-- The outcome of a cancel: success means that the order is canceled, a filled order is never
reported as canceled, and no more cancels are sent than the policy allows. -/
structure CanceledTruly (terms : StatusTerms τ ι) (policy : RetryPolicy ρ) (before : OrderWorld τ)
    (outcome : Result α × OrderWorld τ) : Prop where
  canceled : ∀ value, outcome.1 = .ok value → outcome.2.status = some terms.canceled
  filled : outcome.2.status = some terms.filled → ∃ error, outcome.1 = .error error
  settled : ∀ s, terms.working s = false → before.status = some s → outcome.2.status = some s
  bounded : outcome.2.requests ≤ before.requests + policy.maxAttempts.toNat

theorem canceledTruly_resolveWith {verdict : ι → Verdict α}
    (hlanded : ∀ info order s value, verdict (terms.report info order s) = .landed value →
      s = terms.canceled) (policy : RetryPolicy ρ) (label : String) (absence : Error)
    (w : OrderWorld τ) :
    CanceledTruly terms policy w
      (resolveWith policy (clock terms env.toOrderEnvironment) "cancel" label
        (fun error => error.code = doneCode) absence (cancel terms env doneCode)
        (lookupWith policy (clock terms env.toOrderEnvironment) absent
          (getOrder terms env.toOrderEnvironment)) verdict w) := by
  obtain ⟨n, hn, hrun, hcanceled⟩ := resolveWith_rule policy
    (clock terms env.toOrderEnvironment) "cancel" label (fun error => error.code = doneCode) absence
    (cancel terms env doneCode) (lookupWith policy (clock terms env.toOrderEnvironment) absent
      (getOrder terms env.toOrderEnvironment)) verdict
    (I := fun n => Canceling terms w (w.requests + n))
    (K := fun n => Canceling terms w (w.requests + n))
    (G := fun _ v => v.status = some terms.canceled)
    (fun n => Canceling.keeps (w.requests + n))
    (fun _ v h => (clock_keeps_done terms env.toOrderEnvironment terms.canceled_done v h).1)
    (fun _ _ h => h) (fun _ _ h => ⟨h.send, fun _ => status_cancel_of_ok terms env doneCode⟩)
    (fun _ _ h => h.lookup hlanded policy) (w := w) ⟨rfl, fun _ _ h => h⟩
  refine ⟨hcanceled, fun hfilled => ?_, hrun.settled, ?_⟩
  · rcases hresult : (resolveWith policy (clock terms env.toOrderEnvironment) "cancel" label
      (fun error => error.code = doneCode) absence (cancel terms env doneCode)
      (lookupWith policy (clock terms env.toOrderEnvironment) absent
        (getOrder terms env.toOrderEnvironment)) verdict w).1 with error | value
    · exact ⟨error, rfl⟩
    · have hstatus := hcanceled value hresult
      rw [hfilled] at hstatus
      exact absurd (Option.some.inj hstatus) terms.filled_ne_canceled
  · rw [hrun.requests]
    omega

end OrderWorld

/-! ### The two venues -/

namespace Okx

inductive OrderStatus
  | live | partiallyFilled | filled | canceled | mmpCanceled
  deriving DecidableEq, Repr

def OrderStatus.text : OrderStatus → String
  | .live => "live"
  | .partiallyFilled => "partially_filled"
  | .filled => "filled"
  | .canceled => "canceled"
  | .mmpCanceled => "mmp_canceled"

def statusTerms : StatusTerms OrderStatus OrderInfo where
  working status := status = .live || status = .partiallyFilled
  filled := .filled
  canceled := .canceled
  report info order status :=
    { info with ordId := order.orderId, px := order.price, sz := order.quantity, state := status.text }
  filled_done := rfl
  canceled_done := rfl
  filled_ne_canceled := nofun

abbrev CancelEnvironment (ρ : Type) :=
  ExchangeGateway.CancelEnvironment (fun error => error.code = "venue:51603") OrderStatus OrderAck
    OrderInfo ρ

def cancelVenue {ρ : Type} (env : CancelEnvironment ρ)
    (placeOrder : PlaceRequest → OrderWorld OrderStatus →
      Result OrderAck × OrderWorld OrderStatus) : CancelClient (OrderWorld OrderStatus) where
  placeOrder := placeOrder
  getOrder _ := OrderWorld.getOrder statusTerms env.toOrderEnvironment
  cancelOrder _ := OrderWorld.cancel statusTerms env "venue:51017"

theorem cancelVerdict_landed {info : OrderInfo} {order : StoredOrder} {s : OrderStatus}
    {value : OrderAck} (h : cancelVerdict (statusTerms.report info order s) = .landed value) :
    s = statusTerms.canceled := by
  unfold cancelVerdict at h
  cases s with
  | canceled => rfl
  | live => cases h
  | partiallyFilled => cases h
  | filled => cases h
  | mmpCanceled => cases h

end Okx

namespace Binance

inductive OrderStatus
  | new | partiallyFilled | pendingCancel | filled | canceled | rejected | expired
  deriving DecidableEq, Repr

def OrderStatus.text : OrderStatus → String
  | .new => "NEW"
  | .partiallyFilled => "PARTIALLY_FILLED"
  | .pendingCancel => "PENDING_CANCEL"
  | .filled => "FILLED"
  | .canceled => "CANCELED"
  | .rejected => "REJECTED"
  | .expired => "EXPIRED"

def statusTerms : StatusTerms OrderStatus OrderInfo where
  working status := working status.text
  filled := .filled
  canceled := .canceled
  report info order status :=
    { info with
      orderId := order.orderId
      price := order.price
      origQty := order.quantity
      status := status.text }
  filled_done := rfl
  canceled_done := rfl
  filled_ne_canceled := nofun

abbrev CancelEnvironment (ρ : Type) :=
  ExchangeGateway.CancelEnvironment (fun _ => false) OrderStatus OrderInfo OrderInfo ρ

def cancelVenue {ρ : Type} (env : CancelEnvironment ρ)
    (place : PlaceRequest → OrderWorld OrderStatus → Result OrderAck × OrderWorld OrderStatus) :
    CancelApi (OrderWorld OrderStatus) where
  place := place
  getOrder _ := OrderWorld.getOrder statusTerms env.toOrderEnvironment
  cancel _ := OrderWorld.cancel statusTerms env "venue:-2011"

theorem cancelVerdict_landed {request : CancelRequest} {info : OrderInfo} {order : StoredOrder}
    {s : OrderStatus} {value : OrderInfo}
    (h : cancelVerdict request (statusTerms.report info order s) = .landed value) :
    s = statusTerms.canceled := by
  unfold cancelVerdict at h
  cases s with
  | canceled => rfl
  | new => cases h
  | partiallyFilled => cases h
  | pendingCancel => cases h
  | filled => cases h
  | rejected => cases h
  | expired => cases h

end Binance

namespace OrderWorld

variable {ρ : Type}

/-- For every policy, clock and sequence of answers, and whatever the market does in between: both
engines report a cancel truthfully. -/
theorem resilientCancel_truthful (policy : RetryPolicy ρ) (okx : Okx.CancelEnvironment ρ)
    (placeOrder : Okx.PlaceRequest → OrderWorld Okx.OrderStatus →
      Result Okx.OrderAck × OrderWorld Okx.OrderStatus)
    (request : Okx.CxlRequest) (w : OrderWorld Okx.OrderStatus)
    (binance : Binance.CancelEnvironment ρ)
    (place : Binance.PlaceRequest → OrderWorld Binance.OrderStatus →
      Result Binance.OrderAck × OrderWorld Binance.OrderStatus)
    (request' : Binance.CancelRequest) (w' : OrderWorld Binance.OrderStatus) :
    CanceledTruly Okx.statusTerms policy w
        (Okx.resilientCancel policy (clock Okx.statusTerms okx.toOrderEnvironment)
          (Okx.cancelVenue okx placeOrder) request w) ∧
      CanceledTruly Binance.statusTerms policy w'
        (Binance.resilientCancel policy (clock Binance.statusTerms binance.toOrderEnvironment)
          (Binance.cancelVenue binance place) request' w') :=
  ⟨canceledTruly_resolveWith (fun _ _ _ _ => Okx.cancelVerdict_landed) policy _ _ w,
    canceledTruly_resolveWith (fun _ _ _ _ => Binance.cancelVerdict_landed) policy _ _ w'⟩

end OrderWorld

end ExchangeGateway
