import ExchangeGateway.Core.Recall
import ExchangeGateway.Lib.CanonicalText
import ExchangeGateway.Rest.Orders

/-! The gateway and its clients (`rest/order_routes.cpp`). A request is answered by the handler's
checks or by one of the sections of the order management system; whatever an answer says about an
order, no later answer takes back, restarts included. -/
namespace ExchangeGateway

namespace Oms

def query (oms : Oms) (id : String) : Result OrderRecord :=
  match oms.lookup id with
  | none => .error ⟨"not_found", "unknown clientOrderId " ++ id⟩
  | some record => .ok record

/-- In the order of their ids, whatever the order of the hash map. -/
def allOrders (oms : Oms) : List OrderRecord := oms.orders.sorted

def Holds (oms : Oms) (record : OrderRecord) : Prop :=
  oms.lookup record.clientOrderId = some record

end Oms

namespace Rest

/-! ### The remaining handlers -/

def internalErrorResponse (clientOrderId : String) : Response :=
  errorResponse 500 "internal" "unexpected server error" clientOrderId

def rejectionJson (rejection : Error) : Json :=
  .obj [("code", .str rejection.code), ("reason", .str rejection.message)]

def recordJson (record : OrderRecord) : Json :=
  .obj ([("clientOrderId", .str record.clientOrderId),
    ("exchangeOrderId", .str record.exchangeOrderId), ("symbol", .str record.symbol),
    ("venue", .str record.venue), ("side", .str record.side.toString),
    ("type", .str record.type.toString), ("timeInForce", .str record.timeInForce),
    ("state", .str record.state.toString), ("price", .str record.price),
    ("quantity", .str record.quantity), ("filledQuantity", .str record.filledQuantity),
    ("averageFillPrice", .str record.averageFillPrice)] ++
      (record.rejection.map fun rejection => ("rejection", rejectionJson rejection)).toList)

/-- `GET /orders`. -/
def getOrders (oms : Oms) : Response where
  status := 200
  body := .obj [("orders", .arr (oms.allOrders.map recordJson))]

/-- `GET /orders/{id}`. -/
def getOrder (oms : Oms) (clientOrderId : String) : Response :=
  match oms.query clientOrderId with
  | .error error => mapError error clientOrderId
  | .ok record => ⟨200, recordJson record⟩

/-- The answer of `POST /orders` to what `place` returns. -/
def placeResponse (clientOrderId : String) : Result PlaceOutcome → Response
  | .error error => mapError error clientOrderId
  | .ok outcome => placedResponse outcome

def canceledResponse (record : OrderRecord) : Response where
  status := 200
  body := .obj [("clientOrderId", .str record.clientOrderId),
    ("exchangeOrderId", .str record.exchangeOrderId), ("symbol", .str record.symbol),
    ("venue", .str record.venue), ("state", .str record.state.toString)]

/-- The answer of `DELETE /orders/{id}` to what `cancel` returns. -/
def cancelResponse (clientOrderId : String) : Result OrderRecord → Response
  | .error error => mapError error clientOrderId
  | .ok record => canceledResponse record

/-- The answer of `PUT /orders/{id}` to what `amend` returns. -/
def amendResponse (clientOrderId : String) : Result OrderRecord → Response
  | .error error => mapError error clientOrderId
  | .ok record => amendedResponse record

end Rest

open Rest

/-- What a client is answered by a section that ends its request. -/
def System.answers (s : System) : Action → List Response
  | .place request venue =>
    match (s.oms.placeStage request venue).2 with
    | .answered result => [placeResponse request.clientOrderId result]
    | .riskRejected error => [mapError error request.clientOrderId]
    | .threw => [internalErrorResponse ""]
    | .opened _ _ => []
  | .placed i placement =>
    match s.calls[i]? with
    | some (.place request _ _ true) =>
      [placeResponse request.clientOrderId (s.oms.placeOutcome request placement).2]
    | _ => []
  | .cancel id =>
    match s.oms.cancelStage id with
    | .answered result => [cancelResponse id result]
    | .opened _ _ => []
  | .canceled i placement =>
    match s.calls[i]? with
    | some (.cancel id _ _) => [cancelResponse id (s.oms.cancelOutcome id placement).2]
    | _ => []
  | .amend command =>
    match (s.oms.amendStage command).2 with
    | .answered result => [amendResponse command.clientOrderId result]
    | .threw => [internalErrorResponse command.clientOrderId]
    | .opened _ _ _ => []
  | .amended i placement =>
    match s.calls[i]? with
    | some (.amend command wire _ _) =>
      [amendResponse command.clientOrderId (s.oms.amendOutcome command wire placement).2]
    | _ => []
  | _ => []

/-- The gateway with every answer it gave, in the order of the sections. -/
structure Dialogue where
  system : System
  told : List Response

namespace Dialogue

/-- A request of the order routes, or a step of the gateway that no request starts. -/
inductive Turn
  | post (text : String)
  | list
  | get (id : String)
  | delete (id : String)
  | put (id text : String)
  | act (a : Action)

def boot (config : Config) (log : Option EventLog) : Dialogue := ⟨.boot config log, []⟩

def tell (d : Dialogue) (response : Response) : Dialogue :=
  { d with told := d.told ++ [response] }

def act (d : Dialogue) (a : Action) : Option Dialogue :=
  (d.system.step a).map fun system => ⟨system, d.told ++ d.system.answers a⟩

/-- The checks of a handler, then the section it calls. -/
def handle {α : Type} (d : Dialogue) (checked : Except Response α) (call : α → Action) :
    Option Dialogue :=
  match checked with
  | .error response => some (d.tell response)
  | .ok passed => d.act (call passed)

def step (library : Json.Library) (d : Dialogue) : Turn → Option Dialogue
  | .post text =>
    d.handle (parseJsonBody library text >>= placeRequest d.system.oms.connectors)
      fun (request, venue) => .place request venue
  | .list => some (d.tell (getOrders d.system.oms))
  | .get id => some (d.tell (getOrder d.system.oms id))
  | .delete id => d.act (.cancel id)
  | .put id text => d.handle (parseJsonBody library text >>= amendCommand id) .amend
  | .act a => d.act a

end Dialogue

def Action.requested : Action → Bool
  | .place _ _ | .cancel _ | .amend _ => true
  | _ => false

/-- Restarts, if there are any, find the log and keep the default venue. -/
def Action.lasting (restarts : Bool) (defaultVenue : String) : Action → Bool
  | .restart config logOpen => restarts && logOpen && config.defaultVenue = defaultVenue
  | _ => true

def Dialogue.Turn.lasting (restarts : Bool) (defaultVenue : String) : Turn → Bool
  | .act a => !a.requested && a.lasting restarts defaultVenue
  | _ => true

/-! ### What an answer says -/

namespace Rest

/-- What an answer says about orders, one document for each. -/
def Response.views (response : Response) : List Json :=
  if response.status ∈ [200, 201, 202] then
    match response.body.find? "orders" with
    | some (.arr items) => items
    | _ => [response.body]
  else []

/-- A later document about an order takes nothing back of an earlier one, as far as both speak of
it: identity and venue stay, the state moves along the transition table, the fill does not fall, a
recorded rejection stays; the order stays too, unless it is rejected. -/
structure Succeeds (old new : Json) : Prop where
  identity : ∀ name ∈ ["clientOrderId", "symbol", "venue"], ∀ value value',
    old.find? name = some value → new.find? name = some value' → value' = value
  order : new.find? "state" ≠ some (.str "rejected") →
    ∀ name ∈ ["side", "type", "timeInForce"], ∀ value value',
      old.find? name = some value → new.find? name = some value' → value' = value
  state : ∃ src dst path, old.find? "state" = some (.str src.toString) ∧
    new.find? "state" = some (.str dst.toString) ∧ StatePath src path dst
  filled : ∀ text text' d, old.find? "filledQuantity" = some (.str text) →
    new.find? "filledQuantity" = some (.str text') → parseDecimal text = .ok d →
      ∃ d', parseDecimal text' = .ok d' ∧ d.value ≤ d'.value
  rejection : ∀ value, old.find? "rejection" = some value →
    (new.find? "filledQuantity").isSome → new.find? "rejection" = some value

structure Describes (record : OrderRecord) (view : Json) : Prop where
  clientOrderId : view.find? "clientOrderId" = some (.str record.clientOrderId)
  symbol : ∀ value, view.find? "symbol" = some value → value = .str record.symbol
  venue : ∀ value, view.find? "venue" = some value → value = .str record.venue
  side : ∀ value, view.find? "side" = some value → value = .str record.side.toString
  type : ∀ value, view.find? "type" = some value → value = .str record.type.toString
  timeInForce : ∀ value, view.find? "timeInForce" = some value → value = .str record.timeInForce
  state : view.find? "state" = some (.str record.state.toString)
  filled : ∀ value, view.find? "filledQuantity" = some value → value = .str record.filledQuantity
  rejection : ∀ value, view.find? "rejection" = some value →
    record.rejection.map rejectionJson = some value
  complete : (view.find? "filledQuantity").isSome →
    view.find? "rejection" = record.rejection.map rejectionJson

theorem describes_recordJson (record : OrderRecord) : Describes record (recordJson record) := by
  have hrejection : (recordJson record).find? "rejection" =
      record.rejection.map rejectionJson := by
    unfold recordJson
    cases record.rejection <;> rfl
  constructor
  case rejection => exact fun value h => hrejection.symm.trans h
  case complete => exact fun _ => hrejection
  case clientOrderId => rfl
  case state => rfl
  all_goals exact fun value h => (Option.some.inj h).symm

/-- The answers to a place, a cancel and an amend leave most fields out. -/
theorem Describes.of_short {record : OrderRecord} {view : Json}
    (hid : view.find? "clientOrderId" = some (.str record.clientOrderId))
    (hsymbol : view.find? "symbol" = some (.str record.symbol))
    (hvenue : ∀ value, view.find? "venue" = some value → value = .str record.venue)
    (hstate : view.find? "state" = some (.str record.state.toString))
    (hnone : ∀ name ∈ ["side", "type", "timeInForce", "filledQuantity", "rejection"],
      view.find? name = none) : Describes record view := by
  have habsent (name : String) (hname : name ∈ ["side", "type", "timeInForce", "filledQuantity",
      "rejection"]) (value : Json) (P : Prop) (h : view.find? name = some value) : P := by
    rw [hnone name hname] at h
    cases h
  refine ⟨hid, ?_, hvenue, ?_, ?_, ?_, hstate, ?_, ?_, ?_⟩
  · intro value h
    rw [hsymbol] at h
    exact (Option.some.inj h).symm
  · exact fun value => habsent "side" (by simp) value _
  · exact fun value => habsent "type" (by simp) value _
  · exact fun value => habsent "timeInForce" (by simp) value _
  · exact fun value => habsent "filledQuantity" (by simp) value _
  · exact fun value => habsent "rejection" (by simp) value _
  · intro h
    obtain ⟨value, hvalue⟩ := Option.isSome_iff_exists.mp h
    exact habsent "filledQuantity" (by simp) value _ hvalue

theorem describes_placedResponse (outcome : PlaceOutcome) :
    Describes outcome.record (placedResponse outcome).body := by
  apply Describes.of_short rfl rfl _ rfl
  · simp [placedResponse, Json.find?, List.lookup_cons]
  · exact fun value h => (Option.some.inj h).symm

theorem describes_canceledResponse (record : OrderRecord) :
    Describes record (canceledResponse record).body := by
  apply Describes.of_short rfl rfl _ rfl
  · simp [canceledResponse, Json.find?, List.lookup_cons]
  · exact fun value h => (Option.some.inj h).symm

theorem describes_amendedResponse (record : OrderRecord) :
    Describes record (amendedResponse record).body := by
  apply Describes.of_short rfl rfl _ rfl
  · simp [amendedResponse, Json.find?, List.lookup_cons]
  · intro value h
    cases h

end Rest

/-! ### One order, earlier and later -/

/-- What stays of a record, and how the rest moves, restarts included. -/
structure OrderRecord.Continues (old new : OrderRecord) : Prop where
  clientOrderId : new.clientOrderId = old.clientOrderId
  home : new.home = old.home
  order : new.state ≠ .rejected → new.order = old.order
  state : ∃ path, StatePath old.state path new.state
  filled : ∀ d, parseDecimal old.filledQuantity = .ok d →
    ∃ d', parseDecimal new.filledQuantity = .ok d' ∧ d.value ≤ d'.value
  rejection : ∀ error, old.rejection = some error → new.rejection = some error

namespace OrderRecord

theorem Continues.refl (record : OrderRecord) : Continues record record :=
  ⟨rfl, rfl, fun _ => rfl, ⟨[], rfl⟩, fun d hd => ⟨d, hd, le_refl _⟩, fun _ h => h⟩

theorem Continues.trans {a b c : OrderRecord} (h : Continues a b) (h' : Continues b c) :
    Continues a c := by
  obtain ⟨path, hpath⟩ := h.state
  obtain ⟨path', hpath'⟩ := h'.state
  refine ⟨h'.clientOrderId.trans h.clientOrderId, h'.home.trans h.home, ?_,
    ⟨path ++ path', hpath.trans hpath'⟩, ?_, ?_⟩
  · intro hc
    have hb : b.state ≠ .rejected := by
      intro hb
      rw [hb] at hpath'
      exact hc (hpath'.of_terminal rfl).2
    exact (h'.order hc).trans (h.order hb)
  · intro d hd
    obtain ⟨d', hd', hle⟩ := h.filled d hd
    obtain ⟨d'', hd'', hle'⟩ := h'.filled d' hd'
    exact ⟨d'', hd'', hle.trans hle'⟩
  · exact fun error herror => h'.rejection error (h.rejection error herror)

theorem Later.continues {old new : OrderRecord} (h : Later old new)
    {path : List (OrderState × OrderState)} (hpath : StatePath old.state path new.state) :
    Continues old new :=
  ⟨h.clientOrderId, h.home, fun _ => h.order, ⟨path, hpath⟩, h.filled, h.rejection⟩

theorem Recalled.continues {found record : OrderRecord} (h : Recalled found record)
    (hid : found.clientOrderId = record.clientOrderId)
    (hlifecycle : found.lifecycle = record.lifecycle) : Continues record found := by
  have hstate : found.state = record.state := congrArg Lifecycle.state hlifecycle
  have hfilled : found.filledQuantity = record.filledQuantity :=
    congrArg Lifecycle.filledQuantity hlifecycle
  have hrejection : found.rejection = record.rejection :=
    congrArg Lifecycle.rejection hlifecycle
  refine ⟨hid, h.home, ?_, ⟨[], hstate.symm⟩, ?_, ?_⟩
  · intro hne
    rw [hstate] at hne
    exact h.order hne
  · intro d hd
    rw [hfilled]
    exact ⟨d, hd, le_refl _⟩
  · intro error herror
    rw [hrejection]
    exact herror

end OrderRecord

theorem Rest.Describes.succeeds {old new : OrderRecord} {view view' : Json}
    (h : Describes old view) (h' : Describes new view') (hcontinues : old.Continues new) :
    Succeeds view view' := by
  constructor
  case identity =>
    intro name hname value value' hvalue hvalue'
    simp only [List.mem_cons, List.not_mem_nil, or_false] at hname
    rcases hname with rfl | rfl | rfl
    · rw [h.clientOrderId] at hvalue
      rw [h'.clientOrderId] at hvalue'
      rw [← Option.some.inj hvalue, ← Option.some.inj hvalue', hcontinues.clientOrderId]
    · rw [h.symbol value hvalue, h'.symbol value' hvalue',
        show new.symbol = old.symbol from congrArg Prod.fst hcontinues.home]
    · rw [h.venue value hvalue, h'.venue value' hvalue',
        show new.venue = old.venue from congrArg Prod.snd hcontinues.home]
  case order =>
    intro hstate name hname value value' hvalue hvalue'
    have hne : new.state ≠ .rejected := by
      intro hrejected
      rw [h'.state, hrejected] at hstate
      exact hstate rfl
    have horder := hcontinues.order hne
    simp only [List.mem_cons, List.not_mem_nil, or_false] at hname
    rcases hname with rfl | rfl | rfl
    · rw [h.side value hvalue, h'.side value' hvalue',
        show new.side = old.side from congrArg Prod.fst horder]
    · rw [h.type value hvalue, h'.type value' hvalue',
        show new.type = old.type from congrArg (·.2.1) horder]
    · rw [h.timeInForce value hvalue, h'.timeInForce value' hvalue',
        show new.timeInForce = old.timeInForce from congrArg (·.2.2) horder]
  case state =>
    obtain ⟨path, hpath⟩ := hcontinues.state
    exact ⟨old.state, new.state, path, h.state, h'.state, hpath⟩
  case filled =>
    intro text text' d htext htext' hd
    rw [Json.str.inj (h.filled _ htext)] at hd
    rw [Json.str.inj (h'.filled _ htext')]
    exact hcontinues.filled d hd
  case rejection =>
    intro value hvalue hcomplete
    obtain ⟨error, herror, rfl⟩ := Option.map_eq_some_iff.mp (h.rejection value hvalue)
    rw [h'.complete hcomplete, hcontinues.rejection error herror]
    rfl

/-! ### A section answers with the record it leaves -/

namespace Oms

variable {oms : Oms}

theorem holds_of_lookup {id : String} {record : OrderRecord} (h : oms.lookup id = some record) :
    oms.Holds record := by
  have hkey : record.clientOrderId = id := KeyedList.key_of_find? h
  rwa [Holds, hkey]

theorem holds_store (oms : Oms) (record : OrderRecord) : (oms.store record).Holds record :=
  KeyedList.find?_set_self _ _

theorem holds_applyReports {record : OrderRecord} (h : oms.Holds record)
    (reports : List ExecutionReport) :
    (oms.applyReports record reports).1.Holds (oms.applyReports record reports).2 := by
  induction reports generalizing oms record with
  | nil => exact h
  | cons report reports ih =>
    obtain ⟨hrecord, hledger⟩ := applyArbitratedReport_eq h report
    have hheld : (oms.applyArbitratedReport record report).1.Holds
        (oms.applyArbitratedReport record report).2 := by
      unfold Holds
      rw [lookup_of_ledger hledger, hrecord, OrderRecord.clientOrderId_arbitrate]
      exact oms.ledger.find?_enter_of_write (.reported record.clientOrderId report) h rfl
    exact ih hheld

/-- The record is stored and logged before the raced reports are applied. -/
private theorem holds_settled {new record : OrderRecord} {event : Json} {after : Oms}
    {raced : List ExecutionReport} (happend : (oms.store new).appendOrError event = (after, none))
    (h : (after.applyReports new raced).2 = record) :
    (after.applyReports new raced).1.Holds record := by
  have hafter : after.Holds new := by
    obtain ⟨-, heq⟩ | ⟨-, error, heq⟩ := (oms.store new).appendOrError_cases event
    · rw [heq] at happend
      obtain rfl := congrArg Prod.fst happend
      exact oms.holds_store new
    · rw [heq] at happend
      cases congrArg Prod.snd happend
  rw [← h]
  exact holds_applyReports hafter raced

theorem holds_placeOutcome {request : OrderRequest} {placement : Result OrderPlacement}
    {outcome : PlaceOutcome} (h : (oms.placeOutcome request placement).2 = .ok outcome) :
    (oms.placeOutcome request placement).1.Holds outcome.record := by
  unfold placeOutcome at h ⊢
  dsimp only at h ⊢
  split at h
  · cases h
  · cases placement with
    | error error =>
      dsimp only at h
      split_ifs at h
    | ok ack =>
      dsimp only [placeAcked] at h ⊢
      split at h
      · cases h
      · rename_i after happend
        have hrecord := congrArg PlaceOutcome.record (Except.ok.inj h)
        exact holds_settled happend hrecord

theorem holds_cancelOutcome {id : String} {placement : Result OrderPlacement}
    {record : OrderRecord} (h : (oms.cancelOutcome id placement).2 = .ok record) :
    (oms.cancelOutcome id placement).1.Holds record := by
  unfold cancelOutcome at h ⊢
  split at h
  · cases h
  · cases placement with
    | error error => cases h
    | ok ack =>
      dsimp only at h ⊢
      split at h
      · rw [← Except.ok.inj h]
        exact (lookup_of_ledger (ledger_appendEvent _ _) _).trans (oms.holds_store _)
      · rw [← Except.ok.inj h]
        exact oms.holds_store _

theorem holds_amendOutcome {command : AmendCommand} {wire : AmendRequest}
    {placement : Result OrderPlacement} {record : OrderRecord}
    (h : (oms.amendOutcome command wire placement).2 = .ok record) :
    (oms.amendOutcome command wire placement).1.Holds record := by
  unfold amendOutcome at h ⊢
  dsimp only at h ⊢
  split at h
  · cases h
  · cases placement with
    | error error => cases h
    | ok ack =>
      dsimp only [amendAcked] at h ⊢
      split at h
      · cases h
      · rename_i after happend
        exact holds_settled happend (Except.ok.inj h)

/-- A replayed place answers with the registered record. -/
theorem holds_placeStage {request : OrderRequest} {venue : String} {outcome : PlaceOutcome}
    (h : (oms.placeStage request venue).2 = .answered (.ok outcome)) :
    (oms.placeStage request venue).1.Holds outcome.record := by
  unfold placeStage at h ⊢
  dsimp only at h ⊢
  split at h
  · rename_i existing hexisting
    split at h
    · cases h
    · cases h
      exact holds_of_lookup hexisting
  · split at h
    · cases h
    · split at h
      · cases h
      · obtain ⟨error, hstage, -⟩ := oms.recordRiskRejection_cases (candidate request _) _
        rw [hstage] at h
        cases h
      · unfold stagePending at h
        split at h
        all_goals cases h

theorem holds_cancelStage {id : String} {record : OrderRecord}
    (h : oms.cancelStage id = .answered (.ok record)) : oms.Holds record := by
  unfold cancelStage at h
  split at h
  · cases h
  · rename_i old hold
    split_ifs at h
    · cases h
    · cases h
      exact holds_of_lookup hold
    · cases h
    · split at h
      all_goals cases h

/-- An amend that is answered at once is refused. -/
theorem amendStage_ne_ok (oms : Oms) (command : AmendCommand) (record : OrderRecord) :
    (oms.amendStage command).2 ≠ .answered (.ok record) := by
  intro h
  unfold amendStage at h
  split at h
  · cases h
  · split at h
    · cases h
    · split at h
      · cases h
      · split at h
        · cases h
        · split at h
          · cases h
          · split at h
            · cases h
            · cases h
            · split at h
              all_goals cases h

end Oms

namespace Rest

/-- Errors are not about orders. -/
theorem views_mapError (error : Error) (clientOrderId : String) :
    (mapError error clientOrderId).views = [] := by
  unfold mapError
  split_ifs
  all_goals rfl

/-- Every document of an answer describes a registered record. -/
def Response.Speaks (response : Response) (oms : Oms) : Prop :=
  ∀ view ∈ response.views, ∃ record, oms.Holds record ∧ Describes record view

theorem speaks_of_views {response : Response} {oms : Oms} (h : response.views = []) :
    response.Speaks oms := by
  intro view hview
  rw [h] at hview
  cases hview

theorem speaks_one {response : Response} {oms : Oms} {record : OrderRecord}
    (hviews : response.views = [response.body]) (hholds : oms.Holds record)
    (hdescribes : Describes record response.body) : response.Speaks oms := by
  intro view hview
  rw [hviews, List.mem_singleton] at hview
  rw [hview]
  exact ⟨record, hholds, hdescribes⟩

theorem speaks_placeResponse {oms : Oms} {id : String} {result : Result PlaceOutcome}
    (h : ∀ outcome, result = .ok outcome → oms.Holds outcome.record) :
    (placeResponse id result).Speaks oms := by
  cases result with
  | error error => exact speaks_of_views (views_mapError error id)
  | ok outcome =>
    have hviews : (placedResponse outcome).views = [(placedResponse outcome).body] := by
      unfold Response.views placedResponse
      dsimp only
      split_ifs
      all_goals simp_all [Json.find?, List.lookup_cons]
    exact speaks_one hviews (h outcome rfl) (describes_placedResponse outcome)

theorem speaks_cancelResponse {oms : Oms} {id : String} {result : Result OrderRecord}
    (h : ∀ record, result = .ok record → oms.Holds record) :
    (cancelResponse id result).Speaks oms := by
  cases result with
  | error error => exact speaks_of_views (views_mapError error id)
  | ok record => exact speaks_one rfl (h record rfl) (describes_canceledResponse record)

theorem speaks_amendResponse {oms : Oms} {id : String} {result : Result OrderRecord}
    (h : ∀ record, result = .ok record → oms.Holds record) :
    (amendResponse id result).Speaks oms := by
  cases result with
  | error error => exact speaks_of_views (views_mapError error id)
  | ok record => exact speaks_one rfl (h record rfl) (describes_amendedResponse record)

theorem getOrder_of_lookup {oms : Oms} {id : String} {record : OrderRecord}
    (h : oms.lookup id = some record) : getOrder oms id = ⟨200, recordJson record⟩ := by
  unfold getOrder Oms.query
  rw [h]

theorem views_recordJson (record : OrderRecord) :
    (⟨200, recordJson record⟩ : Response).views = [recordJson record] := by
  unfold Response.views recordJson
  cases record.rejection
  all_goals rfl

theorem speaks_getOrder (oms : Oms) (id : String) : (getOrder oms id).Speaks oms := by
  cases hlookup : oms.lookup id with
  | none =>
    apply speaks_of_views
    unfold getOrder Oms.query
    rw [hlookup]
    exact views_mapError _ _
  | some record =>
    rw [getOrder_of_lookup hlookup]
    exact speaks_one (views_recordJson record) (Oms.holds_of_lookup hlookup)
      (describes_recordJson record)

theorem speaks_getOrders (oms : Oms) : (getOrders oms).Speaks oms := by
  intro view hview
  obtain ⟨record, hrecord, rfl⟩ := List.mem_map.mp hview
  have hmem := oms.orders.sorted_perm.mem_iff.mp hrecord
  exact ⟨record, KeyedList.find?_of_mem_toList hmem, describes_recordJson record⟩

end Rest

/-- A section answers about the state that it leaves. -/
theorem System.speaks_answers {s t : System} {a : Action} (h : s.step a = some t)
    {response : Response} (hmem : response ∈ s.answers a) : response.Speaks t.oms := by
  cases a with
  | place request venue =>
    cases h
    rw [place_oms]
    simp only [answers] at hmem
    split at hmem
    · rename_i result hresult
      cases List.mem_singleton.mp hmem
      apply speaks_placeResponse
      intro outcome houtcome
      exact Oms.holds_placeStage (houtcome ▸ hresult)
    · cases List.mem_singleton.mp hmem
      exact speaks_of_views (views_mapError _ _)
    · cases List.mem_singleton.mp hmem
      exact speaks_of_views rfl
    · cases hmem
  | placed i placement =>
    obtain ⟨request, connector, staged, hc, rfl⟩ := placed_cases h
    simp only [answers, hc] at hmem
    cases List.mem_singleton.mp hmem
    apply speaks_placeResponse
    exact fun outcome => Oms.holds_placeOutcome
  | cancel id =>
    cases h
    rw [cancel_oms]
    simp only [answers] at hmem
    split at hmem
    · rename_i result hresult
      cases List.mem_singleton.mp hmem
      apply speaks_cancelResponse
      intro record hrecord
      exact Oms.holds_cancelStage (hrecord ▸ hresult)
    · cases hmem
  | canceled i placement =>
    obtain ⟨id, wire, connector, hc, rfl⟩ := canceled_cases h
    simp only [answers, hc] at hmem
    cases List.mem_singleton.mp hmem
    apply speaks_cancelResponse
    exact fun record => Oms.holds_cancelOutcome
  | amend command =>
    cases h
    rw [amend_oms]
    simp only [answers] at hmem
    split at hmem
    · rename_i result hresult
      cases List.mem_singleton.mp hmem
      apply speaks_amendResponse
      intro record hrecord
      exact absurd (hrecord ▸ hresult) (Oms.amendStage_ne_ok _ _ _)
    · cases List.mem_singleton.mp hmem
      exact speaks_of_views rfl
    · cases hmem
  | amended i placement =>
    obtain ⟨command, wire, connector, validated, hc, rfl⟩ := amended_cases h
    simp only [answers, hc] at hmem
    cases List.mem_singleton.mp hmem
    apply speaks_amendResponse
    exact fun record => Oms.holds_amendOutcome
  | _ => cases hmem

/-! ### Runs -/

namespace System

variable {s t : System} {a : Action} {restarts : Bool} {defaultVenue : String}

theorem lasting_cases (h : a.lasting restarts defaultVenue) :
    a.live ∨ ∃ config, a = .restart config true ∧ restarts ∧
      config.defaultVenue = defaultVenue := by
  cases a with
  | restart config logOpen =>
    simp only [Action.lasting, Bool.and_eq_true, decide_eq_true_eq] at h
    obtain ⟨⟨hrestarts, rfl⟩, hvenue⟩ := h
    exact .inr ⟨config, rfl, hrestarts, hvenue⟩
  | _ => exact .inl rfl

/-- What the registry and the log need for an order to survive. -/
structure Lasting (restarts : Bool) (defaultVenue : String) (s : System) : Prop where
  settled : s.oms.ledger.Settled
  staged : s.Staged
  venue : s.oms.defaultVenue = defaultVenue
  recalling : restarts → s.Recalling
  replays : restarts → s.oms.ledger.ReplaysLifecycle defaultVenue

theorem start_defaultVenue (config : Config) (log : Option EventLog) :
    (Oms.start config log).defaultVenue = config.defaultVenue := by
  cases log <;> rfl

theorem boot_lasting (config : Config) {log : Option EventLog}
    (hlog : restarts → ∃ file, log = some file ∧ file.Reliable) :
    (boot config log).Lasting restarts config.defaultVenue := by
  refine ⟨boot_settled config log, boot_staged config log, start_defaultVenue config log, ?_, ?_⟩
  · intro hrestarts
    obtain ⟨file, rfl, hreliable⟩ := hlog hrestarts
    exact boot_recalling config fun l hl => Option.some.inj hl ▸ hreliable.forgetful
  · intro hrestarts
    obtain ⟨file, rfl, hreliable⟩ := hlog hrestarts
    exact replaysLifecycle_start config hreliable

theorem Lasting.step (h : s.Lasting restarts defaultVenue) (hs : s.step a = some t)
    (ha : a.lasting restarts defaultVenue) : t.Lasting restarts defaultVenue := by
  have hvenue : t.oms.defaultVenue = defaultVenue := by
    rcases lasting_cases ha with hlive | ⟨config, rfl, -, hconfig⟩
    · exact (congrArg Config.defaultVenue (config_step hs hlive)).trans h.venue
    · obtain rfl := restart_cases hs
      exact (start_defaultVenue config _).trans hconfig
  have hsettled : t.oms.ledger.Settled := by
    rcases lasting_cases ha with hlive | ⟨config, rfl, -⟩
    · obtain ⟨hsettled, -⟩ := step_advances h.settled hs hlive
      exact hsettled
    · obtain rfl := restart_cases hs
      exact boot_settled config _
  have hreopens : a.reopens := by
    rcases lasting_cases ha with hlive | ⟨config, rfl, -⟩
    · cases a <;> first | rfl | cases hlive
    · rfl
  refine ⟨hsettled, h.staged.step hs, hvenue, fun hr => (h.recalling hr).step hs, ?_⟩
  intro hrestarts
  have hreplays := h.replays hrestarts
  rw [← h.venue] at hreplays
  have hnext := replaysLifecycle_step h.staged hreplays hs hreopens
  rwa [hvenue] at hnext

/-- No step loses an order or takes back what is known of it. -/
theorem Lasting.continues (h : s.Lasting restarts defaultVenue) (hs : s.step a = some t)
    (ha : a.lasting restarts defaultVenue) {record : OrderRecord} (hr : s.oms.Holds record) :
    ∃ record', t.oms.Holds record' ∧ record.Continues record' := by
  rcases lasting_cases ha with hlive | ⟨config, rfl, hrestarts, hconfig⟩
  · obtain ⟨-, changes, -, hadvances⟩ := step_advances h.settled hs hlive
    obtain ⟨record', hr', hlater, hpath⟩ := hadvances _ record hr
    exact ⟨record', Oms.holds_of_lookup hr', hlater.continues hpath⟩
  · obtain ⟨log, hlog, hsteady, hsame⟩ := h.replays hrestarts
    have hlifecycle := hsame record.clientOrderId
    have hregistered : s.oms.ledger.orders.find? record.clientOrderId = some record := hr
    rw [hregistered] at hlifecycle
    obtain ⟨found, hfound, heq⟩ := Option.map_eq_some_iff.mp hlifecycle
    obtain ⟨record', hr', hrecalled⟩ := (h.recalling hrestarts).recalls.registered log hlog _
      found (h.venue.symm ▸ hfound)
    rw [hregistered] at hr'
    cases hr'
    have hid : found.clientOrderId = record.clientOrderId := KeyedList.key_of_find? hfound
    refine ⟨found, ?_, hrecalled.continues hid heq⟩
    obtain rfl := restart_cases hs
    have hlog' : s.oms.log = some log := hlog
    have hreplayed : (s.restart config true).oms.lookup record.clientOrderId =
        (replay defaultVenue (.empty _) log.events).find? record.clientOrderId := by
      unfold restart
      rw [hlog', ← hconfig, ← hsteady.close]
      rfl
    unfold Oms.Holds
    rw [hid, hreplayed]
    exact hfound

end System

namespace Dialogue

variable {library : Json.Library} {restarts : Bool} {defaultVenue : String}

/-- Two answers, the later one second: documents about the same order agree. -/
def Agree (earlier later : Response) : Prop :=
  ∀ view ∈ earlier.views, ∀ view' ∈ later.views,
    view'.find? "clientOrderId" = view.find? "clientOrderId" → Succeeds view view'

structure Agreeing (restarts : Bool) (defaultVenue : String) (d : Dialogue) : Prop where
  lasting : d.system.Lasting restarts defaultVenue
  /-- What was said is still true of the registered record. -/
  current : ∀ response ∈ d.told, ∀ view ∈ response.views, ∃ old new, Describes old view ∧
    d.system.oms.Holds new ∧ old.Continues new
  ordered : d.told.Pairwise Agree

theorem boot_agreeing (config : Config) {log : Option EventLog}
    (hlog : restarts → ∃ file, log = some file ∧ file.Reliable) :
    (boot config log).Agreeing restarts config.defaultVenue :=
  ⟨System.boot_lasting config hlog, nofun, .nil⟩

theorem Agreeing.advance {d : Dialogue} (h : d.Agreeing restarts defaultVenue) {t : System}
    {a : Action} (hs : d.system.step a = some t) (ha : a.lasting restarts defaultVenue) :
    Agreeing restarts defaultVenue ⟨t, d.told⟩ := by
  refine ⟨h.lasting.step hs ha, ?_, h.ordered⟩
  intro response hresponse view hview
  obtain ⟨old, mid, hdescribes, hholds, hcontinues⟩ := h.current response hresponse view hview
  obtain ⟨new, hnew, hnext⟩ := h.lasting.continues hs ha hholds
  exact ⟨old, new, hdescribes, hnew, hcontinues.trans hnext⟩

theorem holds_unique {oms : Oms} {a b : OrderRecord} (ha : oms.Holds a) (hb : oms.Holds b)
    (h : b.clientOrderId = a.clientOrderId) : b = a := by
  unfold Oms.Holds at ha hb
  rw [h, ha] at hb
  exact (Option.some.inj hb).symm

theorem Agreeing.agree {d : Dialogue} (h : d.Agreeing restarts defaultVenue) {earlier : Response}
    (hearlier : earlier ∈ d.told) {later : Response} (hlater : later.Speaks d.system.oms) :
    Agree earlier later := by
  intro view hview view' hview' hid
  obtain ⟨old, new, hdescribes, hholds, hcontinues⟩ := h.current earlier hearlier view hview
  obtain ⟨record, hrecord, hdescribes'⟩ := hlater view' hview'
  rw [hdescribes.clientOrderId, hdescribes'.clientOrderId] at hid
  have hsame : record.clientOrderId = new.clientOrderId :=
    (Json.str.inj (Option.some.inj hid)).trans hcontinues.clientOrderId.symm
  rw [holds_unique hholds hrecord hsame] at hdescribes'
  exact hdescribes.succeeds hdescribes' hcontinues

theorem Agreeing.tell {d : Dialogue} (h : d.Agreeing restarts defaultVenue) {response : Response}
    (hspeaks : response.Speaks d.system.oms) : (d.tell response).Agreeing restarts defaultVenue := by
  refine ⟨h.lasting, ?_, ?_⟩
  · intro response' hresponse' view hview
    rcases List.mem_append.mp hresponse' with htold | hnew
    · exact h.current response' htold view hview
    · cases List.mem_singleton.mp hnew
      obtain ⟨record, hrecord, hdescribes⟩ := hspeaks view hview
      exact ⟨record, record, hdescribes, hrecord, .refl record⟩
  · apply List.pairwise_append.mpr
    refine ⟨h.ordered, List.pairwise_singleton _ _, ?_⟩
    intro earlier hearlier later hlater
    cases List.mem_singleton.mp hlater
    exact h.agree hearlier hspeaks

theorem Agreeing.tellAll {d : Dialogue} (h : d.Agreeing restarts defaultVenue)
    {responses : List Response} (hspeaks : ∀ response ∈ responses, response.Speaks d.system.oms) :
    Agreeing restarts defaultVenue ⟨d.system, d.told ++ responses⟩ := by
  induction responses generalizing d with
  | nil => rwa [List.append_nil]
  | cons response responses ih =>
    have htold := h.tell (hspeaks response List.mem_cons_self)
    have hrest := ih htold fun r hr => hspeaks r (List.mem_cons_of_mem response hr)
    rwa [Dialogue.tell, List.append_assoc, List.singleton_append] at hrest

theorem Agreeing.act {d d' : Dialogue} (h : d.Agreeing restarts defaultVenue) {a : Action}
    (hs : d.act a = some d') (ha : a.lasting restarts defaultVenue) :
    d'.Agreeing restarts defaultVenue := by
  obtain ⟨t, ht, rfl⟩ := Option.map_eq_some_iff.mp hs
  exact (h.advance ht ha).tellAll fun response => System.speaks_answers ht

theorem Agreeing.handle {α : Type} {d d' : Dialogue} (h : d.Agreeing restarts defaultVenue)
    {checked : Except Response α} (hrefuses : Refuses checked) {call : α → Action}
    (hcall : ∀ passed, (call passed).lasting restarts defaultVenue)
    (hs : d.handle checked call = some d') : d'.Agreeing restarts defaultVenue := by
  cases checked with
  | error response =>
    cases hs
    apply h.tell
    apply speaks_of_views
    unfold Response.views
    rw [hrefuses response rfl]
    rfl
  | ok passed => exact h.act hs (hcall passed)

theorem Agreeing.step {d d' : Dialogue} (h : d.Agreeing restarts defaultVenue) {turn : Turn}
    (hs : d.step library turn = some d') (hturn : turn.lasting restarts defaultVenue) :
    d'.Agreeing restarts defaultVenue := by
  cases turn with
  | post text =>
    have hrefuses := (refuses_parseJsonBody library text).bind
      (refuses_placeRequest d.system.oms.connectors)
    exact h.handle hrefuses (fun _ => rfl) hs
  | list =>
    cases hs
    exact h.tell (speaks_getOrders _)
  | get id =>
    cases hs
    exact h.tell (speaks_getOrder _ id)
  | delete id => exact h.act hs rfl
  | put id text =>
    have hrefuses := (refuses_parseJsonBody library text).bind (refuses_amendCommand id)
    exact h.handle hrefuses (fun _ => rfl) hs
  | act a =>
    have ha : a.lasting restarts defaultVenue := ((Bool.and_eq_true _ _).mp hturn).2
    exact h.act hs ha

end Dialogue

namespace Rest

theorem mem_views_getOrders {oms : Oms} {view : Json} :
    view ∈ (getOrders oms).views ↔ ∃ id, getOrder oms id = ⟨200, view⟩ := by
  have hviews : (getOrders oms).views = oms.allOrders.map recordJson := rfl
  rw [hviews, List.mem_map]
  constructor
  · rintro ⟨record, hrecord, rfl⟩
    have hmem := oms.orders.sorted_perm.mem_iff.mp hrecord
    exact ⟨record.clientOrderId, getOrder_of_lookup (KeyedList.find?_of_mem_toList hmem)⟩
  · rintro ⟨id, h⟩
    cases hlookup : oms.lookup id with
    | none =>
      unfold getOrder Oms.query at h
      rw [hlookup] at h
      cases h
    | some record =>
      rw [getOrder_of_lookup hlookup] at h
      have hmem := KeyedList.mem_toList_of_find? hlookup
      exact ⟨record, oms.orders.sorted_perm.mem_iff.mpr hmem, congrArg Response.body h⟩

end Rest

namespace Dialogue

variable {library : Json.Library} {restarts : Bool}

/-- In every run, restarts with the same default venue included if every append reaches the log:
whatever one answer of the order routes says about an order, no later one takes back, nor does
asking for the order now. The listing is what asking for each order would give, each once and in the
order of their ids. -/
theorem answers_agree (config : Config) {log : Option EventLog}
    (hlog : restarts → ∃ file, log = some file ∧ file.Reliable) {d : Dialogue}
    (h : Transition.Reaches (step library) (fun _ turn => turn.lasting restarts config.defaultVenue)
      (boot config log) d) :
    (d.told.Pairwise fun earlier later => ∀ view ∈ earlier.views, ∀ view' ∈ later.views,
      view'.find? "clientOrderId" = view.find? "clientOrderId" → Succeeds view view') ∧
    (∀ response ∈ d.told, ∀ view ∈ response.views, ∃ id now,
      view.find? "clientOrderId" = some (.str id) ∧
        getOrder d.system.oms id = ⟨200, now⟩ ∧ Succeeds view now) ∧
    (∀ view, view ∈ (getOrders d.system.oms).views ↔ ∃ id, getOrder d.system.oms id = ⟨200, view⟩) ∧
    (d.system.oms.allOrders.map (·.clientOrderId)).Pairwise (· < ·) := by
  have hagreeing : d.Agreeing restarts config.defaultVenue :=
    Transition.Reaches.invariant (I := Agreeing restarts config.defaultVenue)
      (fun _ _ _ hI hturn hs => hI.step hs hturn) h (boot_agreeing config hlog)
  refine ⟨hagreeing.ordered, ?_, fun _ => mem_views_getOrders, KeyedList.sorted_lt _⟩
  intro response hresponse view hview
  obtain ⟨old, new, hdescribes, hholds, hcontinues⟩ := hagreeing.current response hresponse view hview
  exact ⟨old.clientOrderId, recordJson new, hdescribes.clientOrderId,
    getOrder_of_lookup (hcontinues.clientOrderId ▸ hholds),
    hdescribes.succeeds (describes_recordJson new) hcontinues⟩

/-! ### A session across a restart -/

def postText : String :=
  "\x7b\"clientOrderId\":\"c1\",\"symbol\":\"BTCUSDT\",\"side\":\"sell\"," ++
    "\"type\":\"limit\",\"price\":\"100\",\"quantity\":\"5\"\x7d"

def postLibrary : Json.Library where
  parse text :=
    if text = postText then
      some (.obj [("clientOrderId", .str "c1"), ("symbol", .str "BTCUSDT"), ("side", .str "sell"),
        ("type", .str "limit"), ("price", .str "100"), ("quantity", .str "5")])
    else none
  dump _ := ""
  truncate _ := 0

/-- Asked for while it is unacked, filled in part, listed after a restart and then canceled. -/
def session : List Turn :=
  [.post postText, .act (.send 0), .get "c1", .act (.placed 0 (.ok ⟨"c1", "1"⟩)),
    .act (.report ⟨"c1", "1", .partiallyFilled, .sell, "2", "100"⟩), .act (.restart .sample true),
    .list, .delete "c1", .act (.canceled 0 (.ok ⟨"c1", "1"⟩))]

theorem answers_agree_session : ∃ d,
    Transition.Reaches (step postLibrary) (fun _ turn => turn.lasting true "binance")
      (boot .sample (some .fresh)) d ∧ d.told.map (·.status) = [200, 201, 200, 200] ∧
    d.told.Pairwise fun earlier later => ∀ view ∈ earlier.views, ∀ view' ∈ later.views,
      view'.find? "clientOrderId" = view.find? "clientOrderId" → Succeeds view view' := by
  have hexec : (Transition.exec (step postLibrary) (fun _ turn => turn.lasting true "binance")
    (boot .sample (some .fresh)) session).isSome := by decide
  have hreach := Transition.reaches_get_exec hexec
  have hlog : true = true → ∃ file, some EventLog.fresh = some file ∧ file.Reliable :=
    fun _ => ⟨.fresh, rfl, rfl, fun _ => rfl⟩
  exact ⟨_, hreach, rfl, (answers_agree .sample hlog hreach).1⟩

end Dialogue

end ExchangeGateway
