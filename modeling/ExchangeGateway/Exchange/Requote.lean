import ExchangeGateway.Exchange.Binance
import ExchangeGateway.Exchange.Market
import Mathlib.Algebra.BigOperators.Group.List.Basic
import Mathlib.Algebra.Order.Field.Rat
import Mathlib.Tactic.Linarith

/-! How much is executed for one client order over all its venue orders. The quantity of an amend
goes to the venue as it is, whatever has been executed: the replacement is a fresh order of that
quantity. -/
namespace ExchangeGateway

/-! ### The quantity on the wire -/

namespace Binance

def sentQuantity : Result Json → Option String
  | .ok params => (params.find? "quantity").bind Json.string?
  | .error _ => none

def adapter : Adapter where
  place request := sentQuantity (buildPlaceParams (placeRequestOf request))
  amend wire := sentQuantity ((amendRequestOf wire).bind buildCancelReplaceParams)

theorem adapter_place {request : OrderRequest} {quantity : String}
    (h : adapter.place request = some quantity) : quantity = request.quantity := by
  simp only [adapter, buildPlaceParams] at h
  split at h
  · cases h
  · exact (Option.some.inj h).symm

theorem adapter_amend {record : OrderRecord} {command : AmendCommand} {quantity : String}
    (h : adapter.amend (Oms.amendWire record command) = some quantity) :
    quantity = command.newQuantity.getD record.quantity := by
  simp only [adapter, Oms.amendWire, amendRequestOf, Except.bind, buildCancelReplaceParams] at h
  split at h
  · cases h
  · exact (Option.some.inj h).symm

end Binance

/-! ### The open calls -/

namespace System

variable {s t : System} {a : Action} {id : String}

/-- The wire request of an open amend is the command merged with the record. -/
def Wired (s : System) : Prop :=
  ∀ command wire connector validated, .amend command wire connector validated ∈ s.calls →
    wire = Oms.amendWire validated command

theorem Wired.step (h : s.Wired) (hs : s.step a = some t) : t.Wired := by
  intro command wire connector validated hm
  rcases mem_calls_step hs hm with hold | hnew
  · exact h command wire connector validated hold
  · cases hnew
    rfl

end System

namespace Market

variable {id : String} {size : String → ℚ} {m n : Market}

def largest (size : String → ℚ) (requested : List String) : ℚ :=
  (requested.map size).foldr max 0

theorem largest_nonneg (requested : List String) : 0 ≤ largest size requested := by
  induction requested with
  | nil => exact le_rfl
  | cons first rest ih => exact ih.trans (le_max_right _ _)

theorem size_le_largest {requested : List String} {quantity : String} (h : quantity ∈ requested) :
    size quantity ≤ largest size requested := by
  induction requested with
  | nil => cases h
  | cons first rest ih =>
    rcases List.mem_cons.mp h with rfl | h
    · exact le_max_left _ _
    · exact (ih h).trans (le_max_right _ _)

theorem largest_le_append (requested more : List String) :
    largest size requested ≤ largest size (requested ++ more) := by
  induction requested with
  | nil => exact largest_nonneg more
  | cons first rest ih => exact max_le_max_left _ ih

/-- A processed amend asks for no more than the executions so far leave of the largest quantity. -/
def requotes (size : String → ℚ) (m : Market) : Market.Action → Bool
  | .replace i _ _ _ =>
    match m.system.calls[i]? with
    | some (.amend command _ _ validated) =>
      m.book.executed + size (command.newQuantity.getD validated.quantity) ≤
        largest size m.requested
    | _ => true
  | _ => true

structure Funded (id : String) (size : String → ℚ) (m : Market) : Prop where
  wired : m.system.Wired
  asked : ∀ request connector staged sent, .place request connector staged sent ∈ m.system.calls →
    request.clientOrderId = id → request.quantity ∈ m.requested
  sized : ∀ order ∈ m.book.orders, order.executed ≤ size order.quantity
  covered : ∀ older newest, m.book.orders = older ++ [newest] →
    (older.map VenueOrder.executed).sum + size newest.quantity ≤ largest size m.requested

theorem Funded.executed_le (h : m.Funded id size) :
    m.book.executed ≤ largest size m.requested := by
  rcases List.eq_nil_or_concat' m.book.orders with hnil | ⟨older, newest, horders⟩
  · have hzero : m.book.executed = 0 := by
      rw [Book.executed, hnil]
      rfl
    rw [hzero]
    exact largest_nonneg m.requested
  · have hsum : m.book.executed = (older.map VenueOrder.executed).sum + newest.executed := by
      rw [Book.executed, horders]
      simp
    have hsized := h.sized newest (by simp [horders])
    have hcovered := h.covered older newest horders
    linarith

theorem start_funded (config : Config) (log : Option EventLog) :
    (start config log).Funded id size where
  wired _ _ _ _ hm := by cases hm
  asked _ _ _ _ hm := by cases hm
  sized _ hm := by cases hm
  covered older newest h := by
    have hlength := congrArg List.length h
    simp [start] at hlength

/-- The gateway leaves the venue's orders alone; the client may have asked for more. -/
private theorem Funded.of_step (h : m.Funded id size) {a : ExchangeGateway.Action} {t : System}
    (hs : m.system.step a = some t) {book : Book} (horders : book.orders = m.book.orders)
    {requested : List String} (hrequested : requested = m.requested ++ Market.asked id a) :
    Funded id size ⟨t, book, requested⟩ where
  wired := h.wired.step hs
  asked request connector staged sent hm hid := by
    rw [hrequested]
    rcases System.mem_calls_step hs hm with hold | hnew
    · exact List.mem_append_left _ (h.asked request connector staged sent hold hid)
    · cases hnew with
      | place _ _ _ _ _ _ =>
        apply List.mem_append_right
        simp [Market.asked, hid]
      | sent hc =>
        exact List.mem_append_left _
          (h.asked request connector staged false (List.mem_of_getElem? hc) hid)
  sized := by
    intro order hm
    rw [horders] at hm
    exact h.sized order hm
  covered older newest ho := by
    rw [horders] at ho
    rw [hrequested]
    exact (h.covered older newest ho).trans (largest_le_append _ _)

private theorem Funded.accept (h : m.Funded id size) {i : ℕ} {orderId : String}
    (hs : m.accept id Binance.adapter size i orderId = some n) : n.Funded id size := by
  obtain ⟨request, connector, staged, quantity, hc, hquantity, ⟨hid, -, -, hpositive⟩, rfl⟩ :=
    accept_cases hs
  have hrequested : request.quantity ∈ m.requested :=
    h.asked request connector staged true (List.mem_of_getElem? hc) hid
  rw [← Binance.adapter_place hquantity] at hrequested
  refine ⟨h.wired, h.asked, fun order hm => ?_, fun older newest ho => ?_⟩
  · rw [List.mem_singleton.mp hm]
    exact hpositive.le
  · have hsingle : [] ++ [⟨orderId, quantity, 0⟩] = older ++ [newest] := ho
    obtain ⟨rfl, hnewest⟩ := List.append_inj' hsingle rfl
    obtain rfl := List.singleton_inj.mp hnewest
    simpa using size_le_largest hrequested

private theorem Funded.replace (h : m.Funded id size) {i : ℕ} {orderId : String}
    {canceled live : ExecutionReport}
    (hs : m.replace id Binance.adapter size i orderId canceled live = some n)
    (hrequotes : m.requotes size (.replace i orderId canceled live)) : n.Funded id size := by
  obtain ⟨command, wire, connector, validated, quantity, hc, hquantity,
    ⟨-, -, -, -, -, hpositive, -⟩, rfl⟩ := replace_cases hs
  have hwire := h.wired command wire connector validated (List.mem_of_getElem? hc)
  rw [hwire] at hquantity
  have hbound : m.book.executed + size quantity ≤ largest size m.requested := by
    rw [Binance.adapter_amend hquantity]
    simpa [requotes, hc] using hrequotes
  refine ⟨h.wired, h.asked, fun order hm => ?_, fun older newest ho => ?_⟩
  · rcases List.mem_append.mp hm with hm | hm
    · exact h.sized order hm
    · rw [List.mem_singleton.mp hm]
      exact hpositive.le
  · obtain ⟨rfl, hnewest⟩ := List.append_inj' ho.symm rfl
    obtain rfl := List.singleton_inj.mp hnewest
    exact hbound

private theorem Funded.trade (h : m.Funded id size) {amount : ℚ} {report : ExecutionReport}
    (hs : m.trade id size amount report = some n) : n.Funded id size := by
  obtain ⟨older, newest, horders, ⟨-, -, -, -, hsize⟩, rfl⟩ := trade_cases hs
  refine ⟨h.wired, h.asked, fun order hm => ?_, fun older' newest' ho => ?_⟩
  · rcases List.mem_append.mp hm with hm | hm
    · exact h.sized order (by simp [horders, hm])
    · rw [List.mem_singleton.mp hm]
      exact hsize
  · obtain ⟨rfl, hlast⟩ := List.append_inj' ho.symm rfl
    obtain rfl := List.singleton_inj.mp hlast
    exact h.covered _ newest horders

theorem Funded.step (h : m.Funded id size) {a : Market.Action}
    (hs : m.step id Binance.adapter size a = some n) (hrequotes : m.requotes size a) :
    n.Funded id size := by
  cases a with
  | gateway a =>
    obtain ⟨-, t, hstep, rfl⟩ := gateway_cases hs
    refine h.of_step hstep ?_ rfl
    rfl
  | accept i orderId => exact h.accept hs
  | replace i orderId canceled live => exact h.replace hs hrequotes
  | trade amount report => exact h.trade hs
  | deliver =>
    obtain ⟨report, feed, -, rfl⟩ := deliver_cases hs
    have hstep : m.system.step (.report report) = some (m.system.report report) := rfl
    refine h.of_step hstep ?_ (List.append_nil _).symm
    rfl

/-- In every run whose amends ask for no more than the executions so far leave: the total executed
over all venue orders never exceeds the largest quantity the client asked for. -/
theorem executed_le_largest (id : String) (size : String → ℚ) (config : Config)
    (log : Option EventLog)
    (h : Transition.Reaches (step id Binance.adapter size) (fun m a => m.requotes size a)
      (start config log) m) : m.book.executed ≤ largest size m.requested := by
  have hI : m.Funded id size :=
    Transition.Reaches.invariant (I := Funded id size) (fun _ _ _ hI ha hs => hI.step hs ha) h
      (start_funded config log)
  exact hI.executed_le

/-! ### A partially filled order -/

def sampleSize (text : String) : ℚ := if text = "5" then 5 else if text = "3" then 3 else 0

def filledReport (orderId : String) (state : OrderState) (filled : String) : ExecutionReport :=
  ⟨"c1", orderId, state, .buy, filled, "100"⟩

/-- Two of five are executed, then the client amends. -/
def partialActions (command : AmendCommand) : List Market.Action :=
  [.gateway (.place .sample ""), .gateway (.send 0), .accept 0 "1",
    .gateway (.placed 0 (.ok ⟨"c1", "1"⟩)), .trade 2 (filledReport "1" .partiallyFilled "2"),
    .deliver, .gateway (.amend command),
    .replace 0 "2" (filledReport "1" .canceled "2") (filledReport "2" .live "0"),
    .gateway (.amended 0 (.ok ⟨"c1", "2"⟩)), .deliver, .deliver]

def requoted : Market :=
  (Transition.exec (step "c1" Binance.adapter sampleSize) (fun m a => m.requotes sampleSize a)
    (start .sample (some .fresh)) (partialActions ⟨"c1", none, some "3"⟩ ++
      [.trade 3 (filledReport "2" .filled "3"), .deliver])).get (by decide +kernel)

theorem executed_le_largest_requoted :
    requoted.book.executed = 5 ∧ requoted.book.executed ≤ largest sampleSize requoted.requested :=
  ⟨by decide +kernel, executed_le_largest "c1" sampleSize _ _ (Transition.reaches_get_exec _)⟩

def repriced : Market :=
  (Transition.exec (step "c1" Binance.adapter sampleSize) (fun _ _ => True)
    (start .sample (some .fresh)) (partialActions ⟨"c1", some "101", none⟩ ++
      [.trade 5 (filledReport "2" .filled "5"), .deliver])).get (by decide +kernel)

/-- Seven are executed for an order of five: the replacement is not reduced to what remains. -/
theorem repriced_overexecuted :
    Transition.Reaches (step "c1" Binance.adapter sampleSize) (fun _ _ => True)
        (start .sample (some .fresh)) repriced ∧
      repriced.book.feed = [] ∧ repriced.system.calls = [] ∧ repriced.requested = ["5"] ∧
      repriced.book.executed = 7 ∧
      ¬ repriced.book.executed ≤ largest sampleSize repriced.requested := by
  refine ⟨Transition.reaches_get_exec _, ?_, ?_, ?_, ?_, ?_⟩
  all_goals decide +kernel

end Market

end ExchangeGateway
