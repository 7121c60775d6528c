import ExchangeGateway.Core.System

/-! What the sections write, told once. The ledger is the registry with its event log; an entry
is one write of a section: a record and the events appended with it. Every section of the order
management system is a list of entries. -/
namespace ExchangeGateway

def EventLog.appendAll (log : EventLog) (events : List Json) : EventLog :=
  events.foldl (fun log event => (log.append event).1) log

structure Ledger where
  orders : Registry
  log : Option EventLog
  transitions : List (String × OrderState × OrderState)

def Oms.ledger (oms : Oms) : Ledger := ⟨oms.orders, oms.log, oms.history.transitions⟩

namespace OrderRecord

def superseded (record : OrderRecord) (id : String) : Bool :=
  id ≠ "" && (record.legIndexOf id).any (· + 1 < record.legs.length)

/-- What a report or a looked-up snapshot teaches about the legs: an unknown id becomes the
newest leg, the first id is backfilled. -/
def learn (record : OrderRecord) (id : String) : OrderRecord :=
  if record.exchangeOrderId = "" ∨ record.legs ≠ [] ∧ record.legIndexOf id = none then
    record.noteExchangeId id
  else record

def arbitrate (record : OrderRecord) (report : ExecutionReport) : OrderRecord × Bool :=
  (record.learn report.exchangeOrderId).applyObservation report.state report.filledQuantity
    report.averageFillPrice "" "" (!record.superseded report.exchangeOrderId)

def accept (record : OrderRecord) (id : String) : OrderRecord :=
  { record.noteExchangeId id with state := (applyTransition record.state .live).1 }

def amend (record : OrderRecord) (price quantity id : String) : OrderRecord :=
  { record with price := price, quantity := quantity }.appendAmendLeg id

def reject (record : OrderRecord) (error : Error) : OrderRecord :=
  { record with state := .rejected, rejection := some error }

/-- A looked-up snapshot of phase B, and whether it brought anything new. -/
def resolve (record : OrderRecord) (snapshot : OrderSnapshot) : OrderRecord × Bool :=
  let id := snapshot.exchangeOrderId
  let learned := id ≠ "" && (record.exchangeOrderId = "" || (record.legIndexOf id).isNone)
  let (record, changed) := Oms.observeSnapshot
    (if learned then record.noteExchangeId id else record) snapshot
  (record, learned || changed)

end OrderRecord

/-- One write of a section. -/
inductive Entry
  | riskRejected (record : OrderRecord)
  | staged (record : OrderRecord) (persisted : Bool)
  | accepted (id exchangeOrderId : String)
  | rejected (id : String) (error : Error)
  | canceled (id exchangeOrderId : String)
  | amended (id price quantity exchangeOrderId : String)
  | discovered (id exchangeOrderId : String)
  | reported (id : String) (report : ExecutionReport)
  | listed (venue : String) (snapshot : OrderSnapshot)
  | resolved (id : String) (snapshot : OrderSnapshot)
  | absent (id : String)
  deriving DecidableEq, Repr

namespace Entry

def key : Entry → String
  | .riskRejected record | .staged record _ => record.clientOrderId
  | .accepted id _ | .rejected id _ | .canceled id _ | .amended id _ _ _ | .discovered id _
  | .reported id _ | .resolved id _ | .absent id => id
  | .listed _ snapshot => snapshot.clientOrderId

def inserted : Entry → Option OrderRecord
  | .riskRejected record | .staged record _ => some record
  | _ => none

/-- The write on the record found: the record stored, if any, and the events appended. -/
def write : Entry → Option OrderRecord → Option OrderRecord × List Json
  | .riskRejected record, _ => (some record, [rejectedEvent record])
  | .staged record persisted, _ =>
    (if persisted then some record else none, [placeSubmittedEvent record])
  | .listed venue snapshot, none =>
    (some (Oms.snapshotRecord snapshot venue true),
      [adoptedEvent (Oms.snapshotRecord snapshot venue true)])
  | _, none => (none, [])
  | .accepted _ id, some record => (some (record.accept id), [placeAcceptedEvent (record.accept id)])
  | .rejected _ error, some record =>
    if isTerminal record.state then (none, [])
    else (some (record.reject error), [rejectedEvent (record.reject error)])
  | .canceled _ id, some record =>
    let record := record.noteExchangeId id
    if canTransition record.state .canceled then
      (some { record with state := .canceled }, [stateEvent { record with state := .canceled }])
    else (some record, [])
  | .amended _ price quantity id, some record =>
    (some (record.amend price quantity id), [amendedEvent (record.amend price quantity id)])
  | .discovered _ id, some record => (some (record.noteExchangeId id), [])
  | .reported _ report, some record =>
    (some (record.arbitrate report).1,
      if (record.arbitrate report).2 then [stateEvent (record.arbitrate report).1] else [])
  | .listed _ snapshot, some record =>
    (some (Oms.refreshed record snapshot).1,
      if (Oms.refreshed record snapshot).2 then [stateEvent (Oms.refreshed record snapshot).1]
      else [])
  | .resolved _ snapshot, some record =>
    (some (record.resolve snapshot).1,
      if (record.resolve snapshot).2 then [stateEvent (record.resolve snapshot).1] else [])
  | .absent _, some record =>
    if isTerminal record.state then (none, [])
    else
      let record := record.reject
        ⟨"venue_absent", "order is unknown to the venue after reconciliation"⟩
      (some record, [stateEvent record, rejectedEvent record])

inductive Rewrites (old : OrderRecord) : Entry → OrderRecord → Prop
  | accepted (id exchangeOrderId : String) :
      Rewrites old (.accepted id exchangeOrderId) (old.accept exchangeOrderId)
  | rejected (id : String) (error : Error) (h : ¬ isTerminal old.state) :
      Rewrites old (.rejected id error) (old.reject error)
  | canceled (id exchangeOrderId : String)
      (h : canTransition (old.noteExchangeId exchangeOrderId).state .canceled) :
      Rewrites old (.canceled id exchangeOrderId)
        { old.noteExchangeId exchangeOrderId with state := .canceled }
  | noted (id exchangeOrderId : String) :
      Rewrites old (.canceled id exchangeOrderId) (old.noteExchangeId exchangeOrderId)
  | amended (id price quantity exchangeOrderId : String) :
      Rewrites old (.amended id price quantity exchangeOrderId)
        (old.amend price quantity exchangeOrderId)
  | discovered (id exchangeOrderId : String) :
      Rewrites old (.discovered id exchangeOrderId) (old.noteExchangeId exchangeOrderId)
  | reported (id : String) (report : ExecutionReport) :
      Rewrites old (.reported id report) (old.arbitrate report).1
  | listed (venue : String) (snapshot : OrderSnapshot) :
      Rewrites old (.listed venue snapshot) (Oms.refreshed old snapshot).1
  | resolved (id : String) (snapshot : OrderSnapshot) :
      Rewrites old (.resolved id snapshot) (old.resolve snapshot).1
  | absent (id : String) (h : ¬ isTerminal old.state) :
      Rewrites old (.absent id)
        (old.reject ⟨"venue_absent", "order is unknown to the venue after reconciliation"⟩)

theorem rewrites_of_write {entry : Entry} {old new : OrderRecord}
    (hinserted : entry.inserted = none) (hw : (entry.write (some old)).1 = some new) :
    Rewrites old entry new := by
  cases entry with
  | riskRejected _ | staged _ _ => cases hinserted
  | accepted id exchangeOrderId => exact Option.some.inj hw ▸ .accepted id exchangeOrderId
  | rejected id error =>
    simp only [write] at hw
    split at hw
    · cases hw
    · rename_i ht
      exact Option.some.inj hw ▸ .rejected id error ht
  | canceled id exchangeOrderId =>
    simp only [write] at hw
    split at hw
    · rename_i hc
      exact Option.some.inj hw ▸ .canceled id exchangeOrderId hc
    · exact Option.some.inj hw ▸ .noted id exchangeOrderId
  | amended id price quantity exchangeOrderId =>
    exact Option.some.inj hw ▸ .amended id price quantity exchangeOrderId
  | discovered id exchangeOrderId => exact Option.some.inj hw ▸ .discovered id exchangeOrderId
  | reported id report => exact Option.some.inj hw ▸ .reported id report
  | listed venue snapshot => exact Option.some.inj hw ▸ .listed venue snapshot
  | resolved id snapshot => exact Option.some.inj hw ▸ .resolved id snapshot
  | absent id =>
    simp only [write] at hw
    split at hw
    · cases hw
    · rename_i ht
      exact Option.some.inj hw ▸ .absent id ht

end Entry

namespace Ledger

def store (ledger : Ledger) (record : OrderRecord) : Ledger :=
  { ledger with
    orders := ledger.orders.set record
    transitions :=
      match ledger.orders.find? record.clientOrderId with
      | none => ledger.transitions
      | some old =>
        if old.state = record.state then ledger.transitions
        else ledger.transitions ++ [(record.clientOrderId, old.state, record.state)] }

def append (ledger : Ledger) (events : List Json) : Ledger :=
  { ledger with log := ledger.log.map (·.appendAll events) }

def enter (ledger : Ledger) (entry : Entry) : Ledger :=
  let written := entry.write (ledger.orders.find? entry.key)
  ((written.1.map ledger.store).getD ledger).append written.2

def enterAll (ledger : Ledger) (entries : List Entry) : Ledger := entries.foldl enter ledger

def allEntries (check : Entry → Option OrderRecord → Bool) : Ledger → List Entry → Bool
  | _, [] => true
  | ledger, entry :: entries =>
    check entry (ledger.orders.find? entry.key) && allEntries check (ledger.enter entry) entries

end Ledger

namespace Oms

def persists (oms : Oms) : Bool := oms.log.all EventLog.ready

def buffered (oms : Oms) (id : String) : List ExecutionReport :=
  ((oms.racedReports.find? id).map RacedReports.reports).getD []

def reportEntries (id : String) (reports : List ExecutionReport) : List Entry :=
  reports.map (Entry.reported id)

def placeEntries (oms : Oms) (request : OrderRequest) (venue : String) : List Entry :=
  let venue := if venue = "" then oms.defaultVenue else venue
  if request.clientOrderId ∈ oms.orders then []
  else
    match oms.connectorFor venue with
    | none => []
    | some _ =>
      match oms.riskCheck request.instrumentId none request.side request.price
          request.quantity with
      | .threw => []
      | .rejected rejection => [.riskRejected ((candidate request venue).reject rejection)]
      | .passed => [.staged (candidate request venue) oms.persists]

def placedEntries (oms : Oms) (id : String) : Result OrderPlacement → List Entry
  | .error error =>
    if error.code ≠ "transport" then [.rejected id error]
    else reportEntries id (oms.buffered id)
  | .ok ack =>
    .accepted id ack.exchangeOrderId ::
      if oms.persists then reportEntries id (oms.buffered id) else []

def canceledEntries (id : String) : Result OrderPlacement → List Entry
  | .error _ => []
  | .ok ack => [.canceled id ack.exchangeOrderId]

/-- The leg a failed amend discovers among the raced reports. -/
def discoveredEntries (oms : Oms) (id : String) : List Entry :=
  match oms.lookup id with
  | none => []
  | some record =>
    if record.legs ≠ [] ∧ newestUnknown record (oms.buffered id) ≠ "" then
      [.discovered id (newestUnknown record (oms.buffered id))]
    else []

def amendedEntries (oms : Oms) (id : String) (wire : AmendRequest) :
    Result OrderPlacement → List Entry
  | .error _ => oms.discoveredEntries id ++ reportEntries id (oms.buffered id)
  | .ok ack =>
    .amended id (wire.newPrice.getD "") (wire.newQuantity.getD "") ack.exchangeOrderId ::
      if oms.persists then reportEntries id (oms.buffered id) else []

def sinkEntries (oms : Oms) (report : ExecutionReport) : List Entry :=
  if report.clientOrderId ∈ oms.racedReports then []
  else [.reported report.clientOrderId report]

def listedEntries (oms : Oms) (venue : String) (pending : List OrderSnapshot) : List Entry :=
  (pending.filter fun snapshot =>
    !(snapshot.clientOrderId = "" ∨ snapshot.clientOrderId ∈ oms.racedReports)).map
      (Entry.listed venue)

def resolvedEntries (item : WorkItem) (answer : Result (Option OrderSnapshot)) : List Entry :=
  match answer with
  | .ok (some snapshot) => [.resolved item.id snapshot]
  | _ => if conclusivelyAbsent answer then [.absent item.id] else []

end Oms

def System.entries (s : System) : Action → List Entry
  | .place request venue => s.oms.placeEntries request venue
  | .placed i placement =>
    match s.calls[i]? with
    | some (.place request _ _ _) => s.oms.placedEntries request.clientOrderId placement
    | _ => []
  | .canceled i placement =>
    match s.calls[i]? with
    | some (.cancel id _ _) => Oms.canceledEntries id placement
    | _ => []
  | .amended i placement =>
    match s.calls[i]? with
    | some (.amend command wire _ _) =>
      s.oms.amendedEntries command.clientOrderId wire placement
    | _ => []
  | .report report => s.oms.sinkEntries report
  | .listed i (.ok pending) =>
    match s.calls[i]? with
    | some (.listing (venue :: _) _) => s.oms.listedEntries venue pending
    | _ => []
  | .resolved i answer =>
    match s.calls[i]? with
    | some (.resolving (item :: _) _) =>
      if (s.oms.connectorFor item.venue).isSome then Oms.resolvedEntries item answer else []
    | _ => []
  | _ => []

end ExchangeGateway
