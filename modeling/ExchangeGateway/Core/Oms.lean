import ExchangeGateway.Core.Events
import ExchangeGateway.Core.EventLog
import ExchangeGateway.Core.Risk

/-! The order management system (`core/oms.cpp`): its guarded state and the mutex-guarded
sections of place, cancel, amend and the execution-report sink. A venue call happens between
two sections; each section is a function on the state. Latency stamps are left out. -/
namespace ExchangeGateway

structure PlaceOutcome where
  record : OrderRecord
  replayed : Bool
  deriving DecidableEq, Repr

structure AmendCommand where
  clientOrderId : String
  newPrice : Option String
  newQuantity : Option String
  deriving DecidableEq, Repr

structure OmsStats where
  reportsApplied : ℕ := 0
  reportsStale : ℕ := 0
  reportsUnknown : ℕ := 0
  reportsBuffered : ℕ := 0
  legsDiscovered : ℕ := 0
  logWriteFailures : ℕ := 0
  deriving DecidableEq, Repr

/-- The reports buffered for a client order whose place or amend call is open. -/
structure RacedReports where
  clientOrderId : String
  reports : List ExecutionReport
  deriving DecidableEq, Repr

/-- What the sections did, for the proofs only: no section reads it. -/
structure OmsHistory where
  /-- Every assignment of another state to a registry record, in order. -/
  transitions : List (String × OrderState × OrderState) := []
  /-- Every report handed to `applyArbitratedReport`, in order. -/
  handed : List ExecutionReport := []
  deriving DecidableEq, Repr

structure Oms where
  /-- Keys of the connector map; a connector is identified by its venue key. -/
  connectors : List String
  defaultVenue : String
  /-- `none`: persistence disabled. -/
  log : Option EventLog
  risk : RiskConfig
  orders : Registry
  racedReports : KeyedList RacedReports.clientOrderId
  discoveredLegNotes : List (String × String)
  stats : OmsStats
  history : OmsHistory

namespace Oms

def lookup (oms : Oms) (id : String) : Option OrderRecord := oms.orders.find? id

def connectorFor (oms : Oms) (venue : String) : Option String :=
  if venue ∈ oms.connectors then some venue else none

/-- The connector that owns a record (records of pre-venue logs use the default venue). -/
def connectorForRecord (oms : Oms) (record : OrderRecord) : Option String :=
  if record.venue ≠ "" then oms.connectorFor record.venue else oms.connectorFor oms.defaultVenue

def unsupportedVenueError (oms : Oms) (venue : String) : Error :=
  ⟨"invalid_request", "unsupported venue \"" ++ venue ++ "\" (configured: " ++
    ", ".intercalate oms.connectors ++ ")"⟩

def countLogFailure (oms : Oms) : Oms :=
  { oms with stats.logWriteFailures := oms.stats.logWriteFailures + 1 }

def appendOrError (oms : Oms) (event : Json) : Oms × Option Error :=
  match oms.log with
  | none => (oms, none)
  | some log => ({ oms with log := some (log.append event).1 }, (log.append event).2)

def appendEvent (oms : Oms) (event : Json) : Oms :=
  match oms.appendOrError event with
  | (oms, none) => oms
  | (oms, some _) => oms.countLogFailure

def store (oms : Oms) (record : OrderRecord) : Oms :=
  { oms with
    orders := oms.orders.set record
    history.transitions :=
      match oms.lookup record.clientOrderId with
      | none => oms.history.transitions
      | some old =>
        if old.state = record.state then oms.history.transitions
        else oms.history.transitions ++ [(record.clientOrderId, old.state, record.state)] }

/-- Newest notes survive a backlog of 256. -/
def noteDiscoveredLeg (oms : Oms) (clientOrderId exchangeOrderId : String) : Oms :=
  let notes := oms.discoveredLegNotes ++ [(clientOrderId, exchangeOrderId)]
  { oms with discoveredLegNotes := notes.drop (notes.length - 256) }

/-- Adopt an exchange order id no leg knew: newest leg, discovery stat and audit note. -/
def adoptUnknownLeg (oms : Oms) (record : OrderRecord) (id : String) : Oms × OrderRecord :=
  let record := record.noteExchangeId id
  let oms := { oms.store record with stats.legsDiscovered := oms.stats.legsDiscovered + 1 }
  (oms.noteDiscoveredLeg record.clientOrderId id, record)

def drainRacedReports (oms : Oms) (id : String) : Oms × List ExecutionReport :=
  match oms.racedReports.find? id with
  | none => (oms, [])
  | some raced => ({ oms with racedReports := oms.racedReports.erase id }, raced.reports)

/-- Apply one execution report to the record it is about. -/
def applyReport (oms : Oms) (record : OrderRecord) (report : ExecutionReport)
    (applyLifecycle : Bool) : Oms × OrderRecord :=
  -- backfill only: a known id follows the amend lifecycle
  let record := if record.exchangeOrderId = "" then record.noteExchangeId report.exchangeOrderId
    else record
  let (record, changed) := record.applyObservation report.state report.filledQuantity
    report.averageFillPrice "" "" applyLifecycle
  let oms := oms.store record
  if changed then
    let oms := { oms with stats.reportsApplied := oms.stats.reportsApplied + 1 }
    (oms.appendEvent (stateEvent record), record)
  else ({ oms with stats.reportsStale := oms.stats.reportsStale + 1 }, record)

/-- Bookkeeping for the proofs. -/
def hand (oms : Oms) (report : ExecutionReport) : Oms :=
  { oms with history.handed := oms.history.handed ++ [report] }

/-- Arbitration by the leg table: reports of superseded legs contribute fills only, an unknown
id is adopted as the newest leg. -/
def applyArbitratedReport (oms : Oms) (record : OrderRecord) (report : ExecutionReport) :
    Oms × OrderRecord :=
  let oms := oms.hand report
  if report.exchangeOrderId ≠ "" ∧ record.legs ≠ [] then
    match record.legIndexOf report.exchangeOrderId with
    | none =>
      let (oms, record) := oms.adoptUnknownLeg record report.exchangeOrderId
      oms.applyReport record report true
    | some index => oms.applyReport record report (!(index + 1 < record.legs.length))
  else oms.applyReport record report true

def applyReports (oms : Oms) (record : OrderRecord) (reports : List ExecutionReport) :
    Oms × OrderRecord :=
  reports.foldl (fun (oms, record) report => oms.applyArbitratedReport record report)
    (oms, record)

/-- The execution-report sink. -/
def onExecutionReport (oms : Oms) (report : ExecutionReport) : Oms :=
  match oms.racedReports.find? report.clientOrderId with
  | some raced =>
    { oms with
      racedReports := oms.racedReports.set { raced with reports := raced.reports ++ [report] }
      stats.reportsBuffered := oms.stats.reportsBuffered + 1 }
  | none =>
    match oms.lookup report.clientOrderId with
    | none => { oms with stats.reportsUnknown := oms.stats.reportsUnknown + 1 }
    | some record => (oms.applyArbitratedReport record report).1

/-! ### Pre-trade risk -/

def signedAmount (side : Side) (magnitude : Decimal) : Decimal :=
  if side = .sell then magnitude.negate else magnitude

/-- Add one amount to the projection; an overflowing sum is dropped. -/
def addIn (projected amount : Decimal) : Decimal :=
  match projected.add amount with
  | .ok sum => sum
  | .error _ => projected

/-- The contribution of one registry record; `none` when `filled.value()` is called on a failed
parse, which throws. -/
def projectRecord (symbol : String) (replace : Option OrderRecord) (projected : Decimal)
    (record : OrderRecord) : Option Decimal :=
  if record.symbol ≠ symbol then some projected
  else
    let filled := parseDecimal record.filledText
    let projected := match filled with
      | .ok amount =>
        if !amount.isZero then addIn projected (signedAmount record.side amount) else projected
      | .error _ => projected
    if isTerminal record.state ∨ replace.any (·.clientOrderId = record.clientOrderId) then
      some projected
    else
      match parseDecimal record.quantity, filled with
      | .ok quantity, .ok filled =>
        some (addIn projected (signedAmount record.side (quantity.subClampedZero filled)))
      | .ok _, .error _ => none
      | .error _, _ => some projected

/-- The candidate order itself, in place of the replaced record's outstanding part. -/
def projectCandidate (replace : Option OrderRecord) (side : Side) (quantity : String)
    (projected : Decimal) : Decimal :=
  match parseDecimal quantity with
  | .error _ => projected
  | .ok quantity =>
    match parseDecimal ((replace.map OrderRecord.filledText).getD "0") with
    | .error _ => projected
    | .ok filled => addIn projected (signedAmount side (quantity.subClampedZero filled))

/-- Worst-case signed position if every working order and the candidate filled completely. -/
def projectedPosition (oms : Oms) (symbol : String) (replace : Option OrderRecord)
    (candidateSide : Side) (candidateQty : String) : Option String :=
  (oms.orders.toList.foldlM (projectRecord symbol replace) {}).map fun projected =>
    decimalToString (projectCandidate replace candidateSide candidateQty projected)

inductive RiskOutcome
  | passed
  | rejected (error : Error)
  | threw
  deriving DecidableEq, Repr

/-- The risk step shared by place and amend: no limits, no check. -/
def riskCheck (oms : Oms) (symbol : String) (replace : Option OrderRecord) (side : Side)
    (price quantity : String) : RiskOutcome :=
  match oms.risk.limitsFor symbol with
  | none => .passed
  | some limits =>
    match oms.projectedPosition symbol replace side quantity with
    | none => .threw
    | some position =>
      match checkRisk (some limits) symbol ⟨side, price, quantity, position⟩ with
      | some error => .rejected error
      | none => .passed

/-! ### Place -/

/-- How the first section of `place` ends: with an answer, or with the venue call to make and
the record it staged. -/
inductive PlaceStage
  | answered (result : Result PlaceOutcome)
  | riskRejected (error : Error)
  | threw
  | opened (connector : String) (record : OrderRecord)
  deriving DecidableEq, Repr

def candidate (request : OrderRequest) (venue : String) : OrderRecord where
  clientOrderId := request.clientOrderId
  symbol := request.instrumentId
  venue := venue
  exchangeOrderId := ""
  side := request.side
  type := request.type
  timeInForce := if request.timeInForce = "" then "GTC" else request.timeInForce
  price := request.price
  quantity := request.quantity
  state := .pending
  filledQuantity := "0"
  averageFillPrice := ""
  legs := []
  adopted := false
  rejection := none

/-- The branch of a failed risk check: recorded Rejected whether or not the event persists. -/
def recordRiskRejection (oms : Oms) (candidate : OrderRecord) (rejection : Error) :
    Oms × PlaceStage :=
  let candidate := { candidate with state := .rejected, rejection := some rejection }
  match oms.appendOrError (rejectedEvent candidate) with
  | (oms, none) => (oms.store candidate, .riskRejected rejection)
  | (oms, some error) => ((oms.store candidate).countLogFailure, .riskRejected error)

/-- The branch of a passed risk check: the intent is persisted before the record exists. -/
def stagePending (oms : Oms) (candidate : OrderRecord) (connector : String) :
    Oms × PlaceStage :=
  match oms.appendOrError (placeSubmittedEvent candidate) with
  | (oms, some error) =>
    (oms.countLogFailure,
      .answered (.error ⟨"persistence", error.message ++ " (order was not sent to the venue)"⟩))
  | (oms, none) =>
    let oms := oms.store candidate
    let raced := if candidate.clientOrderId ∈ oms.racedReports then oms.racedReports
      else oms.racedReports.set ⟨candidate.clientOrderId, []⟩
    ({ oms with racedReports := raced }, .opened connector candidate)

/-- Critical section 1 of `place`: dedup, risk, stage the pending record. -/
def placeStage (oms : Oms) (request : OrderRequest) (venue : String) : Oms × PlaceStage :=
  let venue := if venue = "" then oms.defaultVenue else venue
  match oms.lookup request.clientOrderId with
  | some existing =>
    match existing.rejection with
    | some rejection => (oms, .answered (.error rejection))
    | none => (oms, .answered (.ok ⟨existing, true⟩))
  | none =>
    match oms.connectorFor venue with
    | none => (oms, .answered (.error (oms.unsupportedVenueError venue)))
    | some connector =>
      match oms.riskCheck request.instrumentId none request.side request.price
          request.quantity with
      | .threw => (oms, .threw)
      | .rejected rejection => oms.recordRiskRejection (candidate request venue) rejection
      | .passed => oms.stagePending (candidate request venue) connector

/-- A definitive venue rejection of the open place; the buffered reports are not applied. -/
def placeRejected (oms : Oms) (record : OrderRecord) (error : Error) : Oms :=
  match applyTransition record.state .rejected with
  | (state, .applied) =>
    let record := { record with state := state, rejection := some error }
    match (oms.store record).appendOrError (rejectedEvent record) with
    | (oms, none) => oms
    | (oms, some _) => oms.countLogFailure
  | (_, .rejected) => oms

/-- The venue acked the open place. -/
def placeAcked (oms : Oms) (record : OrderRecord) (ack : OrderPlacement)
    (raced : List ExecutionReport) : Oms × Result PlaceOutcome :=
  let record := record.noteExchangeId ack.exchangeOrderId
  let record := { record with state := (applyTransition record.state .live).1 }
  match (oms.store record).appendOrError (placeAcceptedEvent record) with
  | (oms, some error) =>
    (oms.countLogFailure,
      .error ⟨"persistence",
        error.message ++ " (order was accepted by the venue; retry replays it)"⟩)
  | (oms, none) =>
    let (oms, record) := oms.applyReports record raced
    (oms, .ok ⟨record, false⟩)

/-- Critical section 2 of `place`: apply the outcome, drain raced reports. -/
def placeOutcome (oms : Oms) (request : OrderRequest) (placement : Result OrderPlacement) :
    Oms × Result PlaceOutcome :=
  let (oms, raced) := oms.drainRacedReports request.clientOrderId
  match oms.lookup request.clientOrderId with
  | none =>
    (oms, .error ⟨"internal", "pending place vanished for " ++ request.clientOrderId⟩)
  | some record =>
    match placement with
    | .error error =>
      if error.code ≠ "transport" then (oms.placeRejected record error, .error error)
      else ((oms.applyReports record raced).1, .error error)
    | .ok ack => oms.placeAcked record ack raced

/-! ### Cancel -/

inductive CancelStage
  | answered (result : Result OrderRecord)
  | opened (connector : String) (wire : CancelRequest)
  deriving Repr

/-- The first section of `cancel`; it changes nothing. -/
def cancelStage (oms : Oms) (id : String) : CancelStage :=
  match oms.lookup id with
  | none => .answered (.error ⟨"not_found", "unknown clientOrderId " ++ id⟩)
  | some record =>
    if record.state = .pending then
      .answered (.error ⟨"order_pending", "order " ++ record.clientOrderId ++
        " is pending venue acknowledgement; cancel after the venue acknowledges it"⟩)
    else if record.state = .canceled then .answered (.ok record)
    else if isTerminal record.state then
      .answered (.error ⟨"order_terminal", "order " ++ record.clientOrderId ++ " is " ++
        record.state.toString⟩)
    else
      match oms.connectorForRecord record with
      | none =>
        .answered (.error ⟨"internal", "no connector for venue \"" ++ record.venue ++ "\""⟩)
      | some connector => .opened connector ⟨record.clientOrderId, record.symbol⟩

/-- The second section of `cancel`. -/
def cancelOutcome (oms : Oms) (id : String) (placement : Result OrderPlacement) :
    Oms × Result OrderRecord :=
  match oms.lookup id with
  | none => (oms, .error ⟨"not_found", "unknown clientOrderId " ++ id⟩)
  | some record =>
    match placement with
    | .error error => (oms, .error error)
    | .ok ack =>
      let record := record.noteExchangeId ack.exchangeOrderId
      match applyTransition record.state .canceled with
      | (state, .applied) =>
        let record := { record with state := state }
        ((oms.store record).appendEvent (stateEvent record), .ok record)
      | (_, .rejected) => (oms.store record, .ok record)

/-! ### Amend -/

inductive AmendStage
  | answered (result : Result OrderRecord)
  | threw
  | opened (connector : String) (wire : AmendRequest) (record : OrderRecord)
  deriving Repr

/-- The resulting order an amend asks the venue for. -/
def amendWire (record : OrderRecord) (command : AmendCommand) : AmendRequest where
  clientOrderId := record.clientOrderId
  instrumentId := record.symbol
  newPrice := some (command.newPrice.getD record.price)
  newQuantity := some (command.newQuantity.getD record.quantity)
  side := some record.side
  type := some record.type
  timeInForce := record.timeInForce

/-- The first section of `amend`: validate, risk, register the raced-reports buffer. -/
def amendStage (oms : Oms) (command : AmendCommand) : Oms × AmendStage :=
  if command.newPrice = none ∧ command.newQuantity = none then
    (oms, .answered (.error ⟨"protocol", "amend requires a new price and/or quantity"⟩))
  else
    match oms.lookup command.clientOrderId with
    | none =>
      (oms, .answered (.error ⟨"not_found", "unknown clientOrderId " ++ command.clientOrderId⟩))
    | some record =>
      if record.state = .pending then
        (oms, .answered (.error ⟨"order_pending", "order " ++ record.clientOrderId ++
          " is pending venue acknowledgement; amend after the venue acknowledges it"⟩))
      else if isTerminal record.state then
        (oms, .answered (.error ⟨"order_terminal", "order " ++ record.clientOrderId ++ " is " ++
          record.state.toString⟩))
      else
        match oms.connectorForRecord record with
        | none =>
          (oms, .answered (.error ⟨"internal",
            "no connector for venue \"" ++ record.venue ++ "\""⟩))
        | some connector =>
          match oms.riskCheck record.symbol (some record) record.side
              (command.newPrice.getD record.price)
              (command.newQuantity.getD record.quantity) with
          | .threw => (oms, .threw)
          | .rejected rejection => (oms, .answered (.error rejection))
          | .passed =>
            if command.clientOrderId ∈ oms.racedReports then
              (oms, .answered (.error ⟨"order_busy", "a place/amend for " ++
                command.clientOrderId ++ " is still in flight; retry once it resolves"⟩))
            else
              ({ oms with racedReports := oms.racedReports.set ⟨command.clientOrderId, []⟩ },
                .opened connector (amendWire record command) record)

/-- The newest id among the raced reports that no leg knows; empty when there is none. -/
def newestUnknown (record : OrderRecord) (raced : List ExecutionReport) : String :=
  raced.foldl (fun newest entry =>
    if entry.exchangeOrderId ≠ "" ∧ record.legIndexOf entry.exchangeOrderId = none then
      entry.exchangeOrderId
    else newest) ""

/-- The amend did not verifiably land: a raced report with an unknown id proves that the
replacement went live, so that leg is adopted before the batch is applied. -/
def amendFailed (oms : Oms) (record : OrderRecord) (raced : List ExecutionReport) : Oms :=
  let (oms, record) :=
    if record.legs ≠ [] ∧ newestUnknown record raced ≠ "" then
      oms.adoptUnknownLeg record (newestUnknown record raced)
    else (oms, record)
  (oms.applyReports record raced).1

/-- The venue acked the amend: new terms, new leg, then the raced reports. -/
def amendAcked (oms : Oms) (record : OrderRecord) (wire : AmendRequest) (ack : OrderPlacement)
    (raced : List ExecutionReport) : Oms × Result OrderRecord :=
  let record := { record with
    price := wire.newPrice.getD ""
    quantity := wire.newQuantity.getD "" }
  let record := record.appendAmendLeg ack.exchangeOrderId
  match (oms.store record).appendOrError (amendedEvent record) with
  | (oms, some error) =>
    (oms.countLogFailure,
      .error ⟨"persistence", error.message ++ " (the amend was accepted by the venue; " ++
        "reconcile or an execution report converges it)"⟩)
  | (oms, none) =>
    let (oms, record) := oms.applyReports record raced
    (oms, .ok record)

/-- The outcome section of `amend`. -/
def amendOutcome (oms : Oms) (command : AmendCommand) (wire : AmendRequest)
    (placement : Result OrderPlacement) : Oms × Result OrderRecord :=
  let (oms, raced) := oms.drainRacedReports command.clientOrderId
  match oms.lookup command.clientOrderId with
  | none =>
    (oms, .error ⟨"not_found", "unknown clientOrderId " ++ command.clientOrderId⟩)
  | some record =>
    match placement with
    | .error error => (oms.amendFailed record raced, .error error)
    | .ok ack => oms.amendAcked record wire ack raced

end Oms

end ExchangeGateway
