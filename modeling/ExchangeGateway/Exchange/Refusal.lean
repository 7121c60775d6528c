import ExchangeGateway.Core.Absence
import ExchangeGateway.Exchange.Binance
import ExchangeGateway.Exchange.Okx
import ExchangeGateway.Exchange.Placement
import ExchangeGateway.Lib.IntText

/-! What becomes of the record of an order that the venue accepted, for every answer to the place:
from the payload through the clients, the engines and the connectors into the registry. -/
namespace ExchangeGateway

/-! ### The registry -/

/-- The connector's answer to a place gets the order rejected. -/
def Rejecting (outcome : Option (Result OrderPlacement)) : Prop :=
  ∃ error, outcome = some (.error error) ∧ error.code ≠ "transport"

private theorem rejecting_error_iff (error : Error) :
    Rejecting (some (.error error)) ↔ error.code ≠ "transport" := by
  constructor
  · rintro ⟨other, h, hcode⟩
    cases h
    exact hcode
  · exact fun h => ⟨error, rfl, h⟩

namespace System

variable {s : System}

/-- The venue call of a place comes back; an exception leaves the call as it is. -/
def returned (s : System) (i : ℕ) : Option (Result OrderPlacement) → Option System
  | none => some s
  | some placement => s.placed i placement

/-- The order is not rejected with a recorded rejection; where no report raced the call, it is
pending or live. -/
def NotRefused (s : System) (id : String) (t : System) : Prop :=
  ∃ record, t.oms.lookup id = some record ∧
    ¬ (record.state = .rejected ∧ record.rejection.isSome) ∧
    (s.oms.buffered id = [] → record.state = .pending ∨ record.state = .live)

/-- Reports do not record a rejection. -/
private theorem find?_reportEntries {ledger : Ledger} {id : String} {record : OrderRecord}
    (hr : ledger.orders.find? id = some record) (reports : List ExecutionReport) :
    ∃ after, (ledger.enterAll (Oms.reportEntries id reports)).orders.find? id = some after ∧
      after.rejection = record.rejection ∧ (reports = [] → after = record) := by
  induction reports generalizing ledger record with
  | nil => exact ⟨record, hr, rfl, fun _ => rfl⟩
  | cons report reports ih =>
    have hfind := ledger.find?_enter_of_write (.reported id report) hr rfl
    obtain ⟨after, hafter, hrejection, -⟩ := ih hfind
    refine ⟨after, hafter, ?_, fun h => by cases h⟩
    obtain ⟨_, _, _, _, _, hreport, -⟩ := record.arbitrate_spec report
    rw [hrejection, hreport]

private theorem find?_placedEntries {id : String} {record : OrderRecord}
    (hr : s.oms.ledger.orders.find? id = some record) (hpending : record.state = .pending)
    (hnone : record.rejection = none) {placement : Result OrderPlacement}
    (hp : ¬ Rejecting (some placement)) :
    ∃ after, (s.oms.ledger.enterAll (s.oms.placedEntries id placement)).orders.find? id =
        some after ∧ after.rejection = none ∧
      (s.oms.buffered id = [] → after.state = .pending ∨ after.state = .live) := by
  cases placement with
  | error error =>
    have hcode : error.code = "transport" := by
      by_contra hcode
      exact hp ⟨error, rfl, hcode⟩
    simp only [Oms.placedEntries, hcode, ne_eq, not_true_eq_false, if_false]
    obtain ⟨after, hafter, hrejection, hquiet⟩ := find?_reportEntries hr (s.oms.buffered id)
    refine ⟨after, hafter, hrejection.trans hnone, fun h => .inl ?_⟩
    rw [hquiet h]
    exact hpending
  | ok ack =>
    have haccept := s.oms.ledger.find?_enter_of_write (.accepted id ack.exchangeOrderId) hr rfl
    obtain ⟨_, _, hnote⟩ := record.noteExchangeId_spec ack.exchangeOrderId
    have hrejection : (record.accept ack.exchangeOrderId).rejection = none := by
      unfold OrderRecord.accept
      rw [hnote]
      exact hnone
    have hlive : (record.accept ack.exchangeOrderId).state = .live := by
      unfold OrderRecord.accept
      rw [hpending]
      rfl
    simp only [Oms.placedEntries, Ledger.enterAll_cons]
    by_cases hpersists : s.oms.persists
    · rw [if_pos hpersists]
      obtain ⟨after, hafter, hkept, hquiet⟩ := find?_reportEntries haccept (s.oms.buffered id)
      refine ⟨after, hafter, hkept.trans hrejection, fun h => .inr ?_⟩
      rw [hquiet h]
      exact hlive
    · rw [if_neg hpersists]
      exact ⟨_, haccept, hrejection, fun _ => .inr hlive⟩

/-- The open place keeps its order unless the connector's answer rejects it. -/
theorem returned_notRefused_iff {config : Config} {log : Option EventLog}
    (hrun : Run (boot config log) s) {i : ℕ} {request : OrderRequest} {connector : String}
    {staged : OrderRecord} (hcall : s.calls[i]? = some (.place request connector staged true))
    (outcome : Option (Result OrderPlacement)) :
    (∃ t, s.returned i outcome = some t ∧ s.NotRefused request.clientOrderId t) ↔
      ¬ Rejecting outcome := by
  obtain ⟨hlookup, venue, hstaged⟩ :=
    (staged_run hrun).places request connector staged true (List.mem_of_getElem? hcall)
  have hpending : staged.state = .pending := by rw [hstaged]; rfl
  have hnone : staged.rejection = none := by rw [hstaged]; rfl
  cases outcome with
  | none =>
    refine ⟨fun _ => ?_, fun _ => ⟨s, rfl, staged, hlookup, ?_, fun _ => .inl hpending⟩⟩
    · rintro ⟨error, h, -⟩
      cases h
    · simp [hnone]
  | some placement =>
    have hplaced : s.placed i placement = some { s with
        oms := (s.oms.placeOutcome request placement).1
        calls := s.calls.eraseIdx i } := by
      simp [placed, hcall]
    have hfind := Oms.lookup_of_ledger (s.oms.placeOutcome_ledger request placement)
      request.clientOrderId
    constructor
    · rintro ⟨t, ht, record, hrecord, hstate, -⟩ ⟨error, he, hcode⟩
      obtain rfl := Option.some.inj he
      obtain rfl := Option.some.inj (hplaced.symm.trans ht)
      have hwrite := s.oms.ledger.find?_enter_of_write (.rejected request.clientOrderId error)
        hlookup (show _ = some (staged.reject error) by simp [Entry.write, hpending, isTerminal])
      simp only [Oms.placedEntries, hcode, ne_eq, not_false_eq_true, if_true] at hfind
      have hrejected : record = staged.reject error :=
        Option.some.inj (hrecord.symm.trans (hfind.trans hwrite))
      apply hstate
      rw [hrejected]
      exact ⟨rfl, rfl⟩
    · intro hp
      obtain ⟨after, hafter, hrejection, hquiet⟩ :=
        find?_placedEntries hlookup hpending hnone hp
      refine ⟨_, hplaced, after, hfind.trans hafter, ?_, hquiet⟩
      simp [hrejection]

end System

/-! ### Binance -/

/-- The venue accepts the order at every place; `answer` is what comes back, by the number of the
place. -/
def VenueWorld.accept {β : Type} (id orderId : String) (answer : ℕ → β) (w : VenueWorld) :
    β × VenueWorld :=
  (answer w.places, { w.create id orderId with places := w.places + 1 })

namespace Binance

variable (library : Json.Library)

def Request.response (request : Request) : Option Json :=
  match request.reply with
  | .frame message => dispatchMessage library request.id message
  | _ => none

def NamesOrder (result : Json) : Prop :=
  ∃ orderId, result.find? "orderId" = some orderId ∧
    (orderId.integer?.isSome ∨ ∃ text, orderId = .str text ∧ text ≠ "")

def RefusalStatus (response : Json) : Prop :=
  ∃ status, statusOf response = some status ∧ status ≠ 200 ∧ status < 500

def Refuses (response : Json) (code : ℤ) (message : String) : Prop :=
  RefusalStatus response ∧ errorOf library response = some (code, message)

def Unreadable (response : Json) : Prop :=
  RefusalStatus response ∧ errorOf library response = none

/-- A response without a status, or a success without a result; with the text of its error. -/
def Garbled (response : Json) (text : String) : Prop :=
  statusOf response = none ∧ text = "response without integer status: " ++ library.dump response ∨
    statusOf response = some 200 ∧ response.find? "result" = none ∧
      text = "successful response without result: " ++ library.dump response

/-- The answers that do not get an order rejected; `found` says that a lookup would find it. -/
inductive Spares (found : Prop) : Option Json → Prop
  | silent : Spares found none
  | placed {response result : Json} (hs : statusOf response = some 200)
      (hr : response.find? "result" = some result) (hn : NamesOrder result) :
      Spares found (some response)
  | unavailable {response : Json} {status : ℤ} (hs : statusOf response = some status)
      (h : status ≥ 500) : Spares found (some response)
  | unreadable {response : Json} (h : Unreadable library response) : Spares found (some response)
  | unknown {response : Json} {code : ℤ} {message : String}
      (h : Refuses library response code message) (hc : code = -1006 ∨ code = -1007) :
      Spares found (some response)
  | duplicate {response : Json} {code : ℤ} {message : String}
      (h : Refuses library response code message)
      (hd : isDuplicateReject ⟨"venue:" ++ toString code, message⟩) (hf : found) :
      Spares found (some response)
  | garbled {response : Json} {text : String} (h : Garbled library response text)
      (hd : isDuplicateReject ⟨"protocol", text⟩) (hf : found) : Spares found (some response)

def Skewed (request : Request) : Prop :=
  ∃ response message, request.response library = some response ∧
    Refuses library response (-1021) message

def Synced (request : Request) : Prop :=
  ∃ response result, request.response library = some response ∧ statusOf response = some 200 ∧
    response.find? "result" = some result ∧
    ((result.find? "serverTime").bind Json.integer?).isSome

/-- The answers to one signed call that do not get an order rejected. -/
def SparesSigned (found : Prop) (requests : SignedRequest) : Prop :=
  (¬ Skewed library requests.first ∧ Spares library found (requests.first.response library)) ∨
    Skewed library requests.first ∧
      ((∃ response, requests.time.response library = some response ∧ Unreadable library response) ∨
        (Synced library requests.time ∧ ¬ Skewed library requests.again ∧
          Spares library found (requests.again.response library)) ∨
        ¬ Synced library requests.time ∧ Spares library found (requests.first.response library))

variable {library}

private theorem numberField_ne_empty_iff (result : Json) :
    numberField result "orderId" ≠ "" ↔ NamesOrder result := by
  unfold numberField NamesOrder
  cases hf : result.find? "orderId" with
  | none => simp
  | some orderId =>
    cases hi : orderId.integer? with
    | some number => simpa [hi] using IntText.toString_ne_empty _
    | none =>
      cases orderId with
      | str text => simp [Json.integer?, Json.string?]
      | _ => simp_all [Json.integer?, Json.string?]

/-- What the engine and the connector make of the result of a call, when the venue has the order. -/
def Settles (found : Prop) (result : Option (Result Json)) : Prop :=
  ∀ answer, result = some answer →
    match answer with
    | .ok value => numberField value "orderId" ≠ ""
    | .error error => error.code = "transport" ∨ isDuplicateReject error ∧ found

private theorem settles_none (found : Prop) : Settles found none :=
  fun _ h => by cases h

private theorem settles_ok_iff {found : Prop} {result : Json} :
    Settles found (some (.ok result)) ↔ NamesOrder result := by
  rw [← numberField_ne_empty_iff]
  constructor
  · exact fun h => h _ rfl
  · intro h answer ha
    rw [← Option.some.inj ha]
    exact h

private theorem settles_error_iff {found : Prop} {error : Error} :
    Settles found (some (.error error)) ↔
      error.code = "transport" ∨ isDuplicateReject error ∧ found := by
  constructor
  · exact fun h => h _ rfl
  · intro h answer ha
    rw [← Option.some.inj ha]
    exact h

inductive Classified (library : Json.Library) (response : Json) :
    Option (Result Json) → Prop
  | garbled {text : String} (h : Garbled library response text) :
      Classified library response (some (.error ⟨"protocol", text⟩))
  | placed {result : Json} (hs : statusOf response = some 200)
      (hr : response.find? "result" = some result) : Classified library response (some (.ok result))
  | unavailable {status : ℤ} (hs : statusOf response = some status) (h : status ≥ 500) :
      Classified library response (some (.error ⟨"transport",
        "venue " ++ toString status ++ " (outcome unknown, resolve before retry)"⟩))
  | unreadable (h : Unreadable library response) : Classified library response none
  | refused {code : ℤ} {message : String} (h : Refuses library response code message) :
      Classified library response (some (.error (venueError code message)))

theorem classified_classify (library : Json.Library) (response : Json) :
    Classified library response (classify library response) := by
  unfold classify
  cases hs : statusOf response with
  | none => exact .garbled (.inl ⟨hs, rfl⟩)
  | some status =>
    by_cases h200 : status = 200
    · subst h200
      cases hr : response.find? "result" with
      | none => exact .garbled (.inr ⟨hs, hr, rfl⟩)
      | some result => exact .placed hs hr
    · simp only [if_neg h200]
      by_cases hlarge : status ≥ 500
      · simp only [if_pos hlarge]
        exact .unavailable hs hlarge
      · simp only [if_neg hlarge]
        have hrefusal : RefusalStatus response := ⟨status, hs, h200, by omega⟩
        cases he : errorOf library response with
        | none => exact .unreadable ⟨hrefusal, he⟩
        | some error => exact .refused ⟨hrefusal, he⟩

private theorem Classified.eq_classify {response : Json} {result : Option (Result Json)}
    (h : Classified library response result) : classify library response = result := by
  unfold classify
  cases h with
  | garbled h =>
    rcases h with ⟨hs, rfl⟩ | ⟨hs, hr, rfl⟩
    · simp [hs]
    · simp [hs, hr]
  | placed hs hr => simp [hs, hr]
  | @unavailable status hs h =>
    have h200 : status ≠ 200 := by omega
    simp [hs, h, h200]
  | unreadable h =>
    obtain ⟨⟨status, hs, h200, hlt⟩, he⟩ := h
    have hlarge : ¬ status ≥ 500 := by omega
    simp [hs, h200, hlarge, he]
  | refused h =>
    obtain ⟨⟨status, hs, h200, hlt⟩, he⟩ := h
    have hlarge : ¬ status ≥ 500 := by omega
    simp [hs, h200, hlarge, he]

private theorem settles_venueError_iff {found : Prop} (code : ℤ) (message : String) :
    Settles found (some (.error (venueError code message))) ↔
      (code = -1006 ∨ code = -1007) ∨
        isDuplicateReject ⟨"venue:" ++ toString code, message⟩ ∧ found := by
  rw [settles_error_iff]
  unfold venueError
  split_ifs with hc
  · simp [hc]
  · have hcode : "venue:" ++ toString code ≠ "transport" := by
      intro h
      have hlist := congrArg String.toList h
      rw [String.toList_append] at hlist
      cases hlist
    exact (or_iff_right hcode).trans (or_iff_right hc).symm

private theorem settles_classify_iff (found : Prop) (response : Json) :
    Settles found (classify library response) ↔ Spares library found (some response) := by
  constructor
  · have hclassified := classified_classify library response
    generalize classify library response = result at hclassified
    intro hsettles
    cases hclassified with
    | garbled h =>
      rcases settles_error_iff.mp hsettles with hcode | ⟨hd, hf⟩
      · exact absurd hcode (show "protocol" ≠ "transport" by decide)
      · exact .garbled h hd hf
    | placed hs hr => exact .placed hs hr (settles_ok_iff.mp hsettles)
    | unavailable hs h => exact .unavailable hs h
    | unreadable h => exact .unreadable h
    | refused h =>
      rcases (settles_venueError_iff _ _).mp hsettles with hc | ⟨hd, hf⟩
      · exact .unknown h hc
      · exact .duplicate h hd hf
  · intro h
    cases h with
    | placed hs hr hn =>
      rw [(Classified.placed hs hr).eq_classify]
      exact settles_ok_iff.mpr hn
    | unavailable hs h =>
      rw [(Classified.unavailable hs h).eq_classify]
      exact settles_error_iff.mpr (.inl rfl)
    | unreadable h =>
      rw [(Classified.unreadable h).eq_classify]
      exact settles_none found
    | unknown h hc =>
      rw [(Classified.refused h).eq_classify]
      exact (settles_venueError_iff _ _).mpr (.inl hc)
    | duplicate h hd hf =>
      rw [(Classified.refused h).eq_classify]
      exact (settles_venueError_iff _ _).mpr (.inr ⟨hd, hf⟩)
    | garbled h hd hf =>
      rw [(Classified.garbled h).eq_classify]
      exact settles_error_iff.mpr (.inr ⟨hd, hf⟩)

theorem call_cases (library : Json.Library) (method : String)
    (request : Request) :
    (request.response library = none ∧
        ∃ message, call library method request = some (.error ⟨"transport", message⟩)) ∨
      ∃ response, request.response library = some response ∧
        call library method request = classify library response := by
  unfold Request.response call
  cases request.reply with
  | frame message =>
    cases hd : dispatchMessage library request.id message with
    | none => exact .inl ⟨hd, _, by simp only [hd]; rfl⟩
    | some response => exact .inr ⟨response, hd, by simp only [hd]⟩
  | _ => exact .inl ⟨rfl, _, rfl⟩

private theorem settles_call_iff (found : Prop) (method : String) (request : Request) :
    Settles found (call library method request) ↔
      Spares library found (request.response library) := by
  rcases call_cases library method request with ⟨hr, message, hc⟩ | ⟨response, hr, hc⟩
  · rw [hr, hc, settles_error_iff]
    exact ⟨fun _ => .silent, fun _ => .inl rfl⟩
  · rw [hr, hc]
    exact settles_classify_iff found response

private theorem venueError_skew_iff (code : ℤ) (message : String) :
    (venueError code message).code = "venue:-1021" ↔ code = -1021 := by
  unfold venueError
  split_ifs with hc
  · constructor
    · intro h
      have hcode : "transport" = "venue:-1021" := h
      exact absurd hcode (by decide)
    · rintro rfl
      omega
  · constructor
    · intro h
      have hsame : "venue:" ++ toString code = "venue:" ++ toString (-1021 : ℤ) := h
      exact IntText.toString_inj ((String.append_right_inj _).mp hsame)
    · rintro rfl
      rfl

private theorem classify_skew_iff (response : Json) :
    (∃ result, classify library response = some result ∧ isClockSkewReject result) ↔
      ∃ message, Refuses library response (-1021) message := by
  constructor
  · rintro ⟨result, hresult, hskew⟩
    have hclassified := classified_classify library response
    rw [hresult] at hclassified
    cases hclassified with
    | garbled _ => cases hskew
    | placed _ _ => cases hskew
    | unavailable _ _ => cases hskew
    | @refused code message h =>
      obtain rfl := (venueError_skew_iff code message).mp (of_decide_eq_true hskew)
      exact ⟨message, h⟩
  · rintro ⟨message, h⟩
    exact ⟨_, (Classified.refused h).eq_classify, rfl⟩

private theorem call_skew_iff (library : Json.Library) (method : String) (request : Request) :
    (∃ result, call library method request = some result ∧ isClockSkewReject result) ↔
      Skewed library request := by
  unfold Skewed
  rcases call_cases library method request with ⟨hr, message, hc⟩ | ⟨response, hr, hc⟩
  · rw [hr, hc]
    constructor
    · rintro ⟨result, h, hskew⟩
      rw [← Option.some.inj h] at hskew
      cases hskew
    · rintro ⟨response, message, h, -⟩
      cases h
  · rw [hr, hc, classify_skew_iff]
    constructor
    · rintro ⟨message, h⟩
      exact ⟨response, message, rfl, h⟩
    · rintro ⟨other, message, h, hrefuses⟩
      cases h
      exact ⟨message, hrefuses⟩

private theorem classify_ok_iff {response result : Json} :
    classify library response = some (.ok result) ↔
      statusOf response = some 200 ∧ response.find? "result" = some result := by
  constructor
  · intro h
    have hclassified := classified_classify library response
    rw [h] at hclassified
    cases hclassified with
    | placed hs hr => exact ⟨hs, hr⟩
  · rintro ⟨hs, hr⟩
    exact (Classified.placed hs hr).eq_classify

private theorem classify_none_iff (response : Json) :
    classify library response = none ↔ Unreadable library response := by
  constructor
  · intro h
    have hclassified := classified_classify library response
    rw [h] at hclassified
    cases hclassified with
    | unreadable h => exact h
  · exact fun h => (Classified.unreadable h).eq_classify

private theorem syncServerTime_true_iff (request : Request) :
    syncServerTime library request = some true ↔ Synced library request := by
  unfold syncServerTime Synced
  rcases call_cases library "time" request with ⟨hr, message, hc⟩ | ⟨response, hr, hc⟩
  · simp [hr, hc]
  · rw [hr, hc]
    constructor
    · intro h
      rcases hresult : classify library response with _ | error | result
      · simp [hresult] at h
      · simp [hresult] at h
      · obtain ⟨hs, hfind⟩ := classify_ok_iff.mp hresult
        simp only [hresult, Option.some.injEq] at h
        exact ⟨response, result, rfl, hs, hfind, h⟩
    · rintro ⟨other, result, h, hs, hfind, htime⟩
      cases h
      simp [classify_ok_iff.mpr ⟨hs, hfind⟩, htime]

private theorem syncServerTime_none_iff (request : Request) :
    syncServerTime library request = none ↔
      ∃ response, request.response library = some response ∧ Unreadable library response := by
  unfold syncServerTime
  rcases call_cases library "time" request with ⟨hr, message, hc⟩ | ⟨response, hr, hc⟩
  · simp [hr, hc]
  · rw [hr, hc]
    have hnone : (∃ other, some response = some other ∧ Unreadable library other) ↔
        Unreadable library response := by simp
    rw [hnone, ← classify_none_iff]
    rcases classify library response with _ | error | result
    · simp
    · simp
    · simp

private theorem settles_callAgain_iff (found : Prop) (method : String) (request : Request) :
    Settles found (callAgain library method request) ↔
      ¬ Skewed library request ∧ Spares library found (request.response library) := by
  rw [← settles_call_iff found method, ← call_skew_iff library method]
  unfold callAgain
  cases hc : call library method request with
  | none => simp [settles_none]
  | some result =>
    by_cases hskew : isClockSkewReject result
    · simp only [hskew, if_true, settles_error_iff]
      constructor
      · rintro (h | ⟨h, -⟩)
        · exact absurd h (by decide)
        · exact absurd h (by decide +kernel)
      · rintro ⟨h, -⟩
        exact absurd ⟨result, rfl, hskew⟩ h
    · simp [hskew]

private theorem settles_callSigned_iff (found : Prop) (method : String)
    (requests : SignedRequest) :
    Settles found (callSigned library method requests) ↔ SparesSigned library found requests := by
  have hskewed := call_skew_iff library method requests.first
  unfold callSigned SparesSigned
  rw [← settles_call_iff found method requests.first, ← syncServerTime_true_iff,
    ← syncServerTime_none_iff]
  cases hc : call library method requests.first with
  | none =>
    have hnot : ¬ Skewed library requests.first := by
      rw [← hskewed, hc]
      rintro ⟨result, h, -⟩
      cases h
    exact ⟨fun h => .inl ⟨hnot, h⟩, fun _ => settles_none found⟩
  | some result =>
    by_cases hskew : isClockSkewReject result
    · have hyes : Skewed library requests.first := hskewed.mp ⟨result, hc, hskew⟩
      simp only [hskew, hyes, not_true_eq_false, false_and, false_or, true_and, Bool.not_true,
        Bool.false_eq_true, if_false]
      cases hsync : syncServerTime library requests.time with
      | none => simp [settles_none]
      | some synced =>
        cases synced with
        | false => simp
        | true => simpa using settles_callAgain_iff found method requests.again
    · have hnot : ¬ Skewed library requests.first := by
        rw [← hskewed, hc]
        rintro ⟨other, h, hother⟩
        cases h
        exact hskew hother
      simp [hskew, hnot]

def acceptedPlace (library : Json.Library) (id orderId : String) (requests : ℕ → SignedRequest) :
    PlaceRequest → VenueWorld → Option (Result OrderAck) × VenueWorld :=
  Api.placeWith fun method _ w =>
    w.accept id orderId fun n => callSigned library method (requests n)

private theorem rejecting_placementFrom_iff (ack : OrderAck) :
    Rejecting (some (placementFrom ack)) ↔ ack.orderId = "" := by
  unfold placementFrom
  split_ifs with h
  · exact ⟨fun _ => h, fun _ => ⟨_, rfl, by decide⟩⟩
  · constructor
    · rintro ⟨error, he, -⟩
      cases he
    · exact fun h' => absurd h' h

private theorem rejecting_placementOf_iff {found : Prop} {orderId : String} (horder : orderId ≠ "")
    {orders : List String} (hlast : orders.getLast? = some orderId)
    {called : Option (Result Json)} {outcome : Result (Option OrderAck)}
    (h : VenueWorld.FirstDecides wording isDuplicateReject (fun info => some (ackOf info)) orders
      found (unwound (called.map fun result => result.map parseOrderAck)) outcome) :
    Rejecting (placementOf outcome) ↔ ¬ Settles found called := by
  rcases called with _ | error | result
  · cases h with
    | passed value =>
      constructor
      · rintro ⟨error, he, -⟩
        cases he
      · exact fun h => absurd (settles_none found) h
  · have hsettles : Settles found (some (.error error)) ↔
        error.code = "transport" ∨ isDuplicateReject error ∧ found := settles_error_iff
    cases h with
    | definitive _ h =>
      have hnot : ¬ Settles found (some (.error error)) := by
        rw [hsettles]
        rintro (hcode | ⟨hd, -⟩)
        · exact h (.inl hcode)
        · exact h (.inr hd)
      exact ⟨fun _ => hnot, fun _ => (rejecting_error_iff error).mpr fun hc => h (.inl hc)⟩
    | found _ h ha info hinfo =>
      have hyes : Settles found (some (.error error)) :=
        hsettles.mpr (h.imp id fun hd => ⟨hd, ha⟩)
      have hid : (ackOf info).orderId = orderId := Option.some.inj (hinfo.symm.trans hlast)
      constructor
      · intro hr
        exact absurd (hid ▸ (rejecting_placementFrom_iff _).mp hr) horder
      · exact fun hn => absurd hyes hn
    | unresolved _ h ha unresolved hcode =>
      have hiff : Rejecting (placementOf (.error unresolved)) ↔ error.code ≠ "transport" := by
        rw [← hcode]
        exact rejecting_error_iff unresolved
      rw [hiff, hsettles]
      simp [ha]
  · cases h with
    | passed value =>
      have hiff := rejecting_placementFrom_iff (parseOrderAck result)
      rw [settles_ok_iff, ← numberField_ne_empty_iff, not_not]
      exact hiff

/-- The connector's answer rejects an accepted order exactly when the payload does not spare it. -/
private theorem rejecting_placeOrder_iff {ρ : Type} (env : Environment ρ)
    {policy : RetryPolicy ρ} (hmax : 1 ≤ policy.maxAttempts) {request : OrderRequest} {params : Json}
    (hparams : buildPlaceParams (placeRequestOf request) = .ok params) {orderId : String}
    (horder : orderId ≠ "") (requests : ℕ → SignedRequest) (w : VenueWorld) :
    Rejecting (placeOrder (acceptedPlace library request.clientOrderId orderId requests)
        (fun query => VenueWorld.getOrder env wording query.clientOrderId) policy
        (VenueWorld.clock env) request w).1 ↔
      ¬ SparesSigned library (VenueWorld.Answered env policy w.lookups (w.reads + 1))
        (requests w.places) := by
  let raw (v : VenueWorld) : Result (Option OrderAck) × VenueWorld :=
    (unwound (acceptedPlace library request.clientOrderId orderId requests
      (placeRequestOf request) v).1, (acceptedPlace library request.clientOrderId orderId requests
      (placeRequestOf request) v).2)
  have hraw : raw { w with reads := w.reads + 1 } =
      (unwound ((callSigned library "order.place" (requests w.places)).map
        fun result => result.map parseOrderAck),
        { w.create request.clientOrderId orderId with
          reads := w.reads + 1
          places := w.places + 1 }) := by
    simp only [raw, acceptedPlace, Api.placeWith, hparams, VenueWorld.accept]
    rcases callSigned library "order.place" (requests w.places) with _ | error | result
    · rfl
    · rfl
    · rfl
  obtain ⟨-, hdecides⟩ := VenueWorld.placeWith_of_existing env wording request.clientOrderId policy
    isDuplicateReject ("clientOrderId " ++ request.clientOrderId) raw
    (fun info => some (ackOf info)) hmax hraw (by simp [VenueWorld.create])
  rw [← settles_callSigned_iff _ "order.place"]
  refine rejecting_placementOf_iff horder ?_ hdecides
  simp [VenueWorld.create]

end Binance

/-! ### OKX -/

namespace Okx

variable (library : Json.Library)

def Carries (body : String) (fields : List (String × Json)) (code : String) : Prop :=
  library.parse body = some (.obj fields) ∧ stringField (.obj fields) "code" = some code

/-- The answers that do not get an order rejected; `found` says that a lookup would find it. -/
inductive Spares (found : Prop) : Option Response → Prop
  | silent : Spares found none
  | unavailable {response : Response} (h : response.status ≥ 500 ∨ response.status = 429) :
      Spares found (some response)
  | placed {response : Response} {fields item : List (String × Json)} {rest : List Json}
      (hs : response.status = 200) (h : Carries library response.body fields "0")
      (hd : (Json.obj fields).find? "data" = some (.arr (.obj item :: rest)))
      (hc : fieldString library (.obj item) "sCode" = "" ∨
        fieldString library (.obj item) "sCode" = "0") : Spares found (some response)
  | duplicate {response : Response} {fields : List (String × Json)} (hs : response.status < 500)
      (hs' : response.status ≠ 429) (h : Carries library response.body fields "51000")
      (hf : found) : Spares found (some response)

/-- What the engine and the connector make of the raw place, when the venue has the order. -/
def Settles (found : Prop) : Result OrderAck → Prop
  | .ok ack => ack.sCode = "" ∨ ack.sCode = "0"
  | .error error => error.code = "transport" ∨ error.code = "venue:51000" ∧ found

variable {library}

private theorem venue_code_iff (code : String) : "venue:" ++ code = "venue:51000" ↔ code = "51000" :=
  ⟨fun h => (String.append_right_inj "venue:").mp h, fun h => by rw [h]; rfl⟩

theorem venue_ne_transport (code : String) : "venue:" ++ code ≠ "transport" := by
  intro h
  have hlist := congrArg String.toList h
  rw [String.toList_append] at hlist
  cases hlist

theorem parseEnvelope_cases (library : Json.Library) (body path : String) :
    (∃ fields code, Carries library body fields code ∧ code ≠ "0" ∧
        parseEnvelope library body path = .error (envelopeError (.obj fields) code path)) ∨
      (∃ fields data, Carries library body fields "0" ∧
        (Json.obj fields).find? "data" = some (.arr data) ∧
        parseEnvelope library body path = .ok data) ∨
      ∃ text, parseEnvelope library body path = .error ⟨"protocol", text⟩ ∧
        (∀ fields code, Carries library body fields code → code = "0" ∧
          ∀ data, (Json.obj fields).find? "data" ≠ some (.arr data)) := by
  unfold parseEnvelope
  rcases hp : library.parse body with _ | parsed
  · refine .inr (.inr ⟨_, rfl, fun fields code h => ?_⟩)
    cases hp.symm.trans h.1
  · cases parsed with
    | obj fields =>
      cases hc : stringField (.obj fields) "code" with
      | none =>
        refine .inr (.inr ⟨_, by simp only [hc]; rfl, fun other code h => ?_⟩)
        cases hp.symm.trans h.1
        cases hc.symm.trans h.2
      | some code =>
        by_cases h0 : code = "0"
        · subst h0
          have hcarries : Carries library body fields "0" := ⟨hp, hc⟩
          have hfail (hd : ∀ data, (Json.obj fields).find? "data" ≠ some (.arr data)) :
              ∀ other code, Carries library body other code → code = "0" ∧
                ∀ data, (Json.obj other).find? "data" ≠ some (.arr data) := by
            intro other code h
            cases hp.symm.trans h.1
            cases hc.symm.trans h.2
            exact ⟨rfl, hd⟩
          simp only [hc, ne_eq, not_true_eq_false, if_false]
          rcases hd : (Json.obj fields).find? "data" with _ | data
          · exact .inr (.inr ⟨_, rfl, hfail fun data h => by cases hd.symm.trans h⟩)
          · cases data with
            | arr items => exact .inr (.inl ⟨fields, items, hcarries, hd, rfl⟩)
            | _ => exact .inr (.inr ⟨_, rfl, hfail fun data h => by cases hd.symm.trans h⟩)
        · refine .inl ⟨fields, code, ⟨hp, hc⟩, h0, ?_⟩
          simp only [hc, ne_eq, h0, not_false_eq_true, if_true]
    | _ =>
      refine .inr (.inr ⟨_, rfl, fun fields code h => ?_⟩)
      cases hp.symm.trans h.1

private theorem carries_unique {body : String} {fields other : List (String × Json)}
    {code code' : String} (h : Carries library body fields code)
    (h' : Carries library body other code') : fields = other ∧ code = code' := by
  cases h.1.symm.trans h'.1
  cases h.2.symm.trans h'.2
  exact ⟨rfl, rfl⟩

private theorem settles_protocol_iff {found : Prop} (text : String) :
    Settles found (.error ⟨"protocol", text⟩) ↔ False := by
  simp [Settles]

private theorem settles_envelopeError_iff {found : Prop} (envelope : Json) (code path : String) :
    Settles found (.error (envelopeError envelope code path)) ↔ code = "51000" ∧ found := by
  unfold Settles envelopeError
  simp [venue_ne_transport, venue_code_iff]

private theorem Spares.envelope {found : Prop} {response : Response}
    (h : Spares library found (some response)) (hs : response.status < 500)
    (hs' : response.status ≠ 429) :
    (response.status = 200 ∧ ∃ fields item rest, Carries library response.body fields "0" ∧
        (Json.obj fields).find? "data" = some (.arr (.obj item :: rest)) ∧
        (fieldString library (.obj item) "sCode" = "" ∨
          fieldString library (.obj item) "sCode" = "0")) ∨
      (∃ fields, Carries library response.body fields "51000") ∧ found := by
  cases h with
  | unavailable h => omega
  | placed hs h hd hc => exact .inl ⟨hs, _, _, _, h, hd, hc⟩
  | duplicate _ _ h hf => exact .inr ⟨⟨_, h⟩, hf⟩

private theorem spares_error_iff {found : Prop} {response : Response} (hs : response.status < 500)
    (hs' : response.status ≠ 429) {fields : List (String × Json)} {code : String}
    (hcarries : Carries library response.body fields code) (hcode : code ≠ "0") :
    Spares library found (some response) ↔ code = "51000" ∧ found := by
  constructor
  · intro h
    rcases h.envelope hs hs' with ⟨-, _, _, _, h, -⟩ | ⟨⟨_, h⟩, hf⟩
    · exact absurd (carries_unique hcarries h).2 hcode
    · exact ⟨(carries_unique hcarries h).2, hf⟩
  · rintro ⟨rfl, hf⟩
    exact .duplicate hs hs' hcarries hf

private theorem not_spares_of_protocol {found : Prop} {response : Response}
    (hs : response.status < 500) (hs' : response.status ≠ 429)
    (hbody : ∀ fields code, Carries library response.body fields code → code = "0" ∧
      (response.status = 200 → ∀ item rest,
        (Json.obj fields).find? "data" ≠ some (.arr (.obj item :: rest)))) :
    ¬ Spares library found (some response) := by
  intro h
  rcases h.envelope hs hs' with ⟨h200, fields, item, rest, h, hd, -⟩ | ⟨⟨fields, h⟩, -⟩
  · exact (hbody fields "0" h).2 h200 item rest hd
  · exact absurd (hbody fields _ h).1 (by decide)

private theorem settles_placeAck_of_success {found : Prop} {host : String} {response : Response}
    (hs : response.status = 200) :
    Settles found (placeAck library host (some response)) ↔
      Spares library found (some response) := by
  have hlt : response.status < 500 := by omega
  have hne : response.status ≠ 429 := by omega
  have hsigned : signedRequest library host kPathPlace (some response) =
      parseEnvelope library response.body kPathPlace := by
    simp [signedRequest, hs]
  unfold placeAck
  rw [hsigned]
  rcases parseEnvelope_cases library response.body kPathPlace with
    ⟨fields, code, hcarries, hcode, hp⟩ | ⟨fields, data, hcarries, hd, hp⟩ | ⟨text, hp, hbody⟩
  · rw [hp, spares_error_iff hlt hne hcarries hcode]
    exact settles_envelopeError_iff _ code kPathPlace
  · rw [hp]
    have hother (hfirst : ∀ item rest, data ≠ .obj item :: rest) :
        ¬ Spares library found (some response) := by
      refine not_spares_of_protocol hlt hne fun other code h => ?_
      obtain ⟨rfl, rfl⟩ := carries_unique hcarries h
      refine ⟨rfl, fun _ item rest h' => hfirst item rest ?_⟩
      exact Json.arr.inj (Option.some.inj (hd.symm.trans h'))
    rcases data with _ | ⟨item, rest⟩
    · exact ⟨fun h => ((settles_protocol_iff _).mp h).elim,
        fun h => absurd h (hother fun _ _ h => by cases h)⟩
    · cases item with
      | obj item =>
        constructor
        · exact fun h => .placed hs hcarries hd h
        · intro h
          rcases h.envelope hlt hne with ⟨-, _, other, _, h, hd', hc⟩ | ⟨⟨_, h⟩, -⟩
          · obtain ⟨rfl, -⟩ := carries_unique hcarries h
            cases hd.symm.trans hd'
            exact hc
          · exact absurd (carries_unique hcarries h).2 (by decide)
      | _ =>
        exact ⟨fun h => ((settles_protocol_iff _).mp h).elim,
          fun h => absurd h (hother fun _ _ h => by cases h)⟩
  · rw [hp]
    have hnot : ¬ Spares library found (some response) :=
      not_spares_of_protocol hlt hne fun fields code h =>
        ⟨(hbody fields code h).1, fun _ item rest => (hbody fields code h).2 _⟩
    exact ⟨fun h => ((settles_protocol_iff _).mp h).elim, fun h => absurd h hnot⟩

private theorem settles_placeAck_iff (found : Prop) (host : String) (response : Option Response) :
    Settles found (placeAck library host response) ↔ Spares library found response := by
  rcases response with _ | response
  · exact ⟨fun _ => .silent, fun _ => .inl rfl⟩
  by_cases hs : response.status = 200
  · exact settles_placeAck_of_success hs
  have hsigned : placeAck library host (some response) =
      .error (classifyHttpError library response kPathPlace) := by
    simp [placeAck, signedRequest, hs]
  rw [hsigned]
  unfold classifyHttpError
  by_cases hunavailable : response.status ≥ 500 ∨ response.status = 429
  · simp only [if_pos hunavailable]
    exact ⟨fun _ => .unavailable hunavailable, fun _ => .inl rfl⟩
  have hlt : response.status < 500 := by omega
  have hne : response.status ≠ 429 := by omega
  simp only [if_neg hunavailable]
  rcases parseEnvelope_cases library response.body kPathPlace with
    ⟨fields, code, hcarries, hcode, hp⟩ | ⟨fields, data, hcarries, hd, hp⟩ | ⟨text, hp, hbody⟩
  · have hvenue : "venue:".toList <+: (envelopeError (.obj fields) code kPathPlace).code.toList := by
      unfold envelopeError
      rw [String.toList_append]
      exact List.prefix_append _ _
    rw [hp, spares_error_iff hlt hne hcarries hcode]
    simp only [if_pos hvenue]
    exact settles_envelopeError_iff _ code kPathPlace
  · rw [hp]
    have hnot : ¬ Spares library found (some response) := by
      refine not_spares_of_protocol hlt hne fun other code h => ?_
      exact ⟨(carries_unique hcarries h).2.symm, fun h200 => absurd h200 hs⟩
    exact ⟨fun h => ((settles_protocol_iff _).mp h).elim, fun h => absurd h hnot⟩
  · rw [hp]
    have hnot : ¬ Spares library found (some response) :=
      not_spares_of_protocol hlt hne fun fields code h =>
        ⟨(hbody fields code h).1, fun h200 => absurd h200 hs⟩
    have hprotocol : ¬ "venue:".toList <+: "protocol".toList := by decide
    simp only [if_neg hprotocol]
    exact ⟨fun h => ((settles_protocol_iff _).mp h).elim, fun h => absurd h hnot⟩

def acceptingClient {ρ : Type} (library : Json.Library) (host orderId : String)
    (env : Environment ρ) (responses : ℕ → Option Response) : Client VenueWorld where
  placeOrder request := restPlaceOrder library host
    (fun _ _ w => w.accept request.clOrdId orderId responses) request
  getOrder query := VenueWorld.getOrder env wording query.clOrdId

private theorem rejecting_ackToPlacement_iff (ack : OrderAck) :
    Rejecting (some (ackToPlacement ack)) ↔ ¬ (ack.sCode = "" ∨ ack.sCode = "0") := by
  unfold ackToPlacement
  rw [not_or]
  split_ifs with h
  · exact ⟨fun _ => h, fun _ => ⟨_, rfl, venue_ne_transport _⟩⟩
  · constructor
    · rintro ⟨error, he, -⟩
      cases he
    · exact fun h' => absurd h' h

private theorem rejecting_bind_iff {found : Prop} {orders : List String}
    {placed outcome : Result OrderAck}
    (h : VenueWorld.FirstDecides wording (fun error => error.code = "venue:51000") synthesizedAck
      orders found placed outcome) :
    Rejecting (some (outcome.bind ackToPlacement)) ↔ ¬ Settles found placed := by
  cases h with
  | passed ack => exact rejecting_ackToPlacement_iff ack
  | definitive error h =>
    have hnot : ¬ Settles found (.error error) := by
      rintro (hcode | ⟨hd, -⟩)
      · exact h (.inl hcode)
      · exact h (.inr (decide_eq_true hd))
    exact ⟨fun _ => hnot, fun _ => (rejecting_error_iff error).mpr fun hc => h (.inl hc)⟩
  | found error h ha info hinfo =>
    have hyes : Settles found (.error error) := h.imp id fun hd => ⟨of_decide_eq_true hd, ha⟩
    have hzero : ¬ Rejecting (some (ackToPlacement (synthesizedAck info))) := by
      rw [rejecting_ackToPlacement_iff, not_not]
      exact .inr rfl
    exact ⟨fun hr => absurd hr hzero, fun hn => absurd hyes hn⟩
  | unresolved error h ha unresolved hcode =>
    have hiff : Rejecting (some (.error unresolved)) ↔ error.code ≠ "transport" := by
      rw [← hcode]
      exact rejecting_error_iff unresolved
    have hsettles : Settles found (.error error) ↔ error.code = "transport" := by
      unfold Settles
      simp [ha]
    rw [hsettles]
    exact hiff

private theorem rejecting_placeOrder_iff {ρ : Type} (host : String) (env : Environment ρ)
    {policy : RetryPolicy ρ} (hmax : 1 ≤ policy.maxAttempts) (request : OrderRequest)
    (orderId : String) (responses : ℕ → Option Response) (w : VenueWorld) :
    Rejecting (some (placeOrder (acceptingClient library host orderId env responses) policy
        (VenueWorld.clock env) request w).1) ↔
      ¬ Spares library (VenueWorld.Answered env policy w.lookups (w.reads + 1))
        (responses w.places) := by
  have hraw : (acceptingClient library host orderId env responses).placeOrder (toWire request)
      { w with reads := w.reads + 1 } =
        (placeAck library host (responses w.places),
          { w.create request.clientOrderId orderId with
            reads := w.reads + 1
            places := w.places + 1 }) := rfl
  obtain ⟨-, hdecides⟩ := VenueWorld.placeWith_of_existing env wording request.clientOrderId policy
    (fun error => error.code = "venue:51000") ("clOrdId " ++ request.clientOrderId)
    ((acceptingClient library host orderId env responses).placeOrder (toWire request))
    synthesizedAck hmax hraw (by simp [VenueWorld.create])
  rw [← settles_placeAck_iff _ host]
  exact rejecting_bind_iff hdecides

end Okx

/-! ### The composed path -/

namespace System

variable {s : System}

/-- For every answer to a place that the venue accepted: the record is spared exactly when the
payload is an acknowledgement that can be read, leaves the outcome open in the way the clients
know, or is a duplicate rejection that a lookup resolves. -/
theorem accepted_notRefused_iff {ρ : Type} (library : Json.Library) {config : Config}
    {log : Option EventLog} (hrun : Run (boot config log) s) {i : ℕ} {request : OrderRequest}
    {connector : String} {staged : OrderRecord}
    (hcall : s.calls[i]? = some (.place request connector staged true)) {policy : RetryPolicy ρ}
    (hmax : 1 ≤ policy.maxAttempts) {orderId : String} (horder : orderId ≠ "") (w : VenueWorld)
    (binance : Binance.Environment ρ) (requests : ℕ → Binance.SignedRequest) {params : Json}
    (hparams : Binance.buildPlaceParams (Binance.placeRequestOf request) = .ok params)
    (host : String) (okx : Okx.Environment ρ) (responses : ℕ → Option Okx.Response) :
    ((∃ t, s.returned i (Binance.placeOrder
          (Binance.acceptedPlace library request.clientOrderId orderId requests)
          (fun query => VenueWorld.getOrder binance Binance.wording query.clientOrderId) policy
          (VenueWorld.clock binance) request w).1 = some t ∧
        s.NotRefused request.clientOrderId t) ↔
      Binance.SparesSigned library (VenueWorld.Answered binance policy w.lookups (w.reads + 1))
        (requests w.places)) ∧
      ((∃ t, s.returned i (some (Okx.placeOrder
            (Okx.acceptingClient library host orderId okx responses) policy
            (VenueWorld.clock okx) request w).1) = some t ∧
          s.NotRefused request.clientOrderId t) ↔
        Okx.Spares library (VenueWorld.Answered okx policy w.lookups (w.reads + 1))
          (responses w.places)) := by
  constructor
  · rw [returned_notRefused_iff hrun hcall,
      Binance.rejecting_placeOrder_iff binance hmax hparams horder requests w, not_not]
  · rw [returned_notRefused_iff hrun hcall,
      Okx.rejecting_placeOrder_iff host okx hmax request orderId responses w, not_not]

/-! ### Answers to the place of `c1` -/

def placing : System :=
  (Transition.exec step (fun _ _ => True) (boot .sample (some .fresh))
    [.place .sample "", .send 0]).get (by decide)

theorem run_placing : Run (boot .sample (some .fresh)) placing := Transition.reaches_get_exec _

theorem calls_placing : placing.calls[0]? =
    some (.place .sample "binance" (Oms.candidate .sample "binance") true) := rfl

end System

def Json.dumpFlat : Json → String
  | .obj fields => "\x7b" ++ String.intercalate "," (fields.map fun (name, value) =>
      "\"" ++ name ++ "\":" ++
        match value with
        | .str text => "\"" ++ text ++ "\""
        | .unsigned number => toString number
        | _ => "null") ++ "\x7d"
  | _ => "null"

namespace Binance

def ackedText : String := "\x7b\"id\":1,\"result\":\x7b\"orderId\":42\x7d,\"status\":200\x7d"

def ackedJson : Json :=
  .obj [("id", .unsigned 1), ("result", .obj [("orderId", .unsigned 42)]),
    ("status", .unsigned 200)]

def unnamedText : String := "\x7b\"id\":1,\"result\":\x7b\x7d,\"status\":200\x7d"

def unnamedJson : Json :=
  .obj [("id", .unsigned 1), ("result", .obj []), ("status", .unsigned 200)]

def answeredBy (message : String) : SignedRequest :=
  ⟨⟨1, .frame message⟩, ⟨2, .silent⟩, ⟨3, .silent⟩⟩

end Binance

namespace Okx

def ackedText : String :=
  "\x7b\"code\":\"0\",\"data\":[\x7b\"ordId\":\"42\",\"sCode\":\"0\"\x7d],\"msg\":\"\"\x7d"

def ackedFields : List (String × Json) :=
  [("code", .str "0"), ("data", .arr [.obj [("ordId", .str "42"), ("sCode", .str "0")]]),
    ("msg", .str "")]

end Okx

/-- The parser on the texts of the samples; no other text is JSON. -/
def Json.sampleLibrary : Json.Library where
  parse text := [(Binance.ackedText, Binance.ackedJson), (Binance.unnamedText, Binance.unnamedJson),
    (Okx.ackedText, .obj Okx.ackedFields)].lookup text
  dump := dumpFlat
  truncate _ := 0

namespace System

open VenueWorld

/-- What becomes of `c1` when Binance accepts its place and answers with this frame. -/
def binanceAnswers (message : String) : Option System :=
  placing.returned 0 (Binance.placeOrder
    (Binance.acceptedPlace Json.sampleLibrary "c1" "42" fun _ => Binance.answeredBy message)
    (fun query => getOrder binanceUnreachable Binance.wording query.clientOrderId) samplePolicy
    (clock binanceUnreachable) .sample noOrders).1

/-- What becomes of `c1` when OKX accepts its place and answers with status 200 and this body. -/
def okxAnswers (body : String) : Option System :=
  placing.returned 0 (some (Okx.placeOrder
    (Okx.acceptingClient Json.sampleLibrary "okx" "42" okxUnreachable fun _ => some ⟨200, body⟩)
    samplePolicy (clock okxUnreachable) .sample noOrders).1)

theorem accepted_notRefused_acked :
    (∃ t, binanceAnswers Binance.ackedText = some t ∧ placing.NotRefused "c1" t) ∧
      ∃ t, okxAnswers Okx.ackedText = some t ∧ placing.NotRefused "c1" t := by
  obtain ⟨hbinance, hokx⟩ := accepted_notRefused_iff Json.sampleLibrary run_placing calls_placing
    (show 1 ≤ samplePolicy.maxAttempts by decide) (show "42" ≠ "" by decide) noOrders
    binanceUnreachable (fun _ => Binance.answeredBy Binance.ackedText) rfl "okx" okxUnreachable
    fun _ => some ⟨200, Okx.ackedText⟩
  have hresponse : (Binance.answeredBy Binance.ackedText).first.response Json.sampleLibrary =
      some Binance.ackedJson := rfl
  constructor
  · apply hbinance.mpr
    refine .inl ⟨?_, ?_⟩
    · rintro ⟨response, message, h, ⟨status, hs, hne, -⟩, -⟩
      cases hresponse.symm.trans h
      cases hs
      exact hne rfl
    · rw [hresponse]
      exact .placed rfl rfl ⟨.unsigned 42, rfl, .inl rfl⟩
  · apply hokx.mpr
    exact .placed rfl ⟨rfl, rfl⟩ rfl (.inr rfl)

private theorem not_notRefused {s : System} {after : Option System} {id : String} (error : Error)
    (h : after.map (fun t => (t.oms.lookup id).map fun record => (record.state, record.rejection)) =
      some (some (.rejected, some error))) : ¬ ∃ t, after = some t ∧ s.NotRefused id t := by
  rintro ⟨t, rfl, record, hrecord, hstate, -⟩
  have hpair : record.state = .rejected ∧ record.rejection = some error := by
    simpa [hrecord] using h
  apply hstate
  simp [hpair]

/-- A success without an order id, and a success that is no JSON, get the accepted order rejected. -/
theorem accepted_order_refused :
    (¬ ∃ t, binanceAnswers Binance.unnamedText = some t ∧ placing.NotRefused "c1" t) ∧
      ¬ ∃ t, okxAnswers "<html>" = some t ∧ placing.NotRefused "c1" t := by
  constructor
  · exact not_notRefused ⟨"protocol", "venue ack without orderId"⟩ (by rfl)
  · exact not_notRefused ⟨"protocol", "response is not a JSON object: <html>"⟩ (by rfl)

end System

end ExchangeGateway
