import ExchangeGateway.Core.Oms

/-! Reconciliation with the venues (`OrderManagementSystem::reconcile`), section by section:
one per venue listing, one that collects the worklist, one per looked-up order; and the replay
of the log at startup. -/
namespace ExchangeGateway

structure ReconcileReport where
  adopted : ℕ := 0
  updated : ℕ := 0
  terminalResolved : ℕ := 0
  absentRejected : ℕ := 0
  unresolved : ℕ := 0
  pendingListingFailed : Bool := false
  deriving DecidableEq, Repr

structure WorkItem where
  id : String
  venue : String
  query : OrderQuery
  deriving DecidableEq, Repr

/-- What the connectors answer while nothing else happens, by venue. -/
structure Venues where
  getOpenOrders : String → Result (List OrderSnapshot)
  getOrder : String → OrderQuery → Result (Option OrderSnapshot)

namespace Oms

/-- The record a venue snapshot stands for. -/
def snapshotRecord (snapshot : OrderSnapshot) (venue : String) (adopted : Bool) :
    OrderRecord where
  clientOrderId := snapshot.clientOrderId
  symbol := snapshot.instrumentId
  venue := venue
  exchangeOrderId := snapshot.exchangeOrderId
  side := snapshot.side
  type := snapshot.type
  timeInForce := "GTC"
  price := snapshot.price
  quantity := snapshot.quantity
  state := snapshot.state
  filledQuantity := if snapshot.filledQuantity = "" then "0" else snapshot.filledQuantity
  averageFillPrice := snapshot.averageFillPrice
  legs := if snapshot.exchangeOrderId = "" then [] else [⟨1, snapshot.exchangeOrderId⟩]
  adopted := adopted
  rejection := none

def recordFromSnapshot (oms : Oms) (snapshot : OrderSnapshot) (venue : String)
    (adopted : Bool) : Oms :=
  let record := snapshotRecord snapshot venue adopted
  let oms := if adopted then oms.appendEvent (adoptedEvent record)
    else oms.appendEvent (placeAcceptedEvent record)
  oms.store record

/-- Observation of a snapshot: it is authoritative for price and quantity too. -/
def observeSnapshot (record : OrderRecord) (snapshot : OrderSnapshot) : OrderRecord × Bool :=
  record.applyObservation snapshot.state snapshot.filledQuantity snapshot.averageFillPrice
    snapshot.price snapshot.quantity true

/-- A listed snapshot of an order that is already registered: backfill an unknown exchange id,
then observe. -/
def refreshed (record : OrderRecord) (snapshot : OrderSnapshot) : OrderRecord × Bool :=
  let backfill := record.exchangeOrderId = "" && snapshot.exchangeOrderId ≠ ""
  let record := if backfill then record.noteExchangeId snapshot.exchangeOrderId else record
  let (record, changed) := observeSnapshot record snapshot
  (record, backfill || changed)

/-- Phase A for one listed snapshot: ids with an open call are skipped. -/
def reconcileSnapshot (venue : String) (state : Oms × ReconcileReport)
    (snapshot : OrderSnapshot) : Oms × ReconcileReport :=
  let (oms, report) := state
  if snapshot.clientOrderId = "" ∨ snapshot.clientOrderId ∈ oms.racedReports then (oms, report)
  else
    match oms.lookup snapshot.clientOrderId with
    | none =>
      (oms.recordFromSnapshot snapshot venue true,
        { report with adopted := report.adopted + 1 })
    | some record =>
      match refreshed record snapshot with
      | (record, true) =>
        ((oms.store record).appendEvent (stateEvent record),
          { report with updated := report.updated + 1 })
      | (record, false) => (oms.store record, report)

/-- The section of phase A that applies one venue's listing. -/
def reconcileListing (oms : Oms) (venue : String) (pending : List OrderSnapshot)
    (report : ReconcileReport) : Oms × ReconcileReport :=
  pending.foldl (reconcileSnapshot venue) (oms, report)

/-- The section that collects the worklist of phase B. -/
def reconcileWorklist (oms : Oms) : List WorkItem :=
  (oms.orders.toList.filter fun record =>
    !isTerminal record.state && !(record.clientOrderId ∈ oms.racedReports)).map fun record =>
      { id := record.clientOrderId
        venue := if record.venue = "" then oms.defaultVenue else record.venue
        query := ⟨record.clientOrderId, record.symbol⟩ }

/-- Phase B, the venue answered with a snapshot: backfill or adopt its id, then observe. -/
def resolveSnapshot (oms : Oms) (record : OrderRecord) (snapshot : OrderSnapshot)
    (report : ReconcileReport) : Oms × ReconcileReport :=
  let (oms, record, learned) :=
    if record.exchangeOrderId = "" ∧ snapshot.exchangeOrderId ≠ "" then
      let record := record.noteExchangeId snapshot.exchangeOrderId
      (oms.store record, record, true)
    else if snapshot.exchangeOrderId ≠ "" ∧
        record.legIndexOf snapshot.exchangeOrderId = none then
      let (oms, record) := oms.adoptUnknownLeg record snapshot.exchangeOrderId
      (oms, record, true)
    else (oms, record, false)
  let (record, changed) := observeSnapshot record snapshot
  let oms := oms.store record
  if learned || changed then
    (oms.appendEvent (stateEvent record),
      if isTerminal record.state then
        { report with terminalResolved := report.terminalResolved + 1 }
      else { report with updated := report.updated + 1 })
  else (oms, report)

/-- Phase B, the venue conclusively does not know the order. -/
def resolveAbsent (oms : Oms) (record : OrderRecord) : Oms :=
  match applyTransition record.state .rejected with
  | (state, .applied) =>
    let record := { record with
      state := state
      rejection := some ⟨"venue_absent", "order is unknown to the venue after reconciliation"⟩ }
    ((oms.store record).appendEvent (stateEvent record)).appendEvent (rejectedEvent record)
  | (_, .rejected) => oms

/-- `nullopt` and the OKX legacy codes are a conclusive absence. -/
def conclusivelyAbsent : Result (Option OrderSnapshot) → Bool
  | .ok none => true
  | .ok (some _) => false
  | .error error => error.code = "venue:51603" || error.code = "venue:51016"

/-- The section of phase B that applies one lookup answer. -/
def reconcileItem (oms : Oms) (item : WorkItem) (answer : Result (Option OrderSnapshot))
    (report : ReconcileReport) : Oms × ReconcileReport :=
  match oms.lookup item.id with
  | none => (oms, report)
  | some record =>
    match answer with
    | .ok (some snapshot) => oms.resolveSnapshot record snapshot report
    | _ =>
      if conclusivelyAbsent answer then
        (oms.resolveAbsent record, { report with absentRejected := report.absentRejected + 1 })
      else (oms, { report with unresolved := report.unresolved + 1 })

def reconcileVenue (venues : Venues) (state : Oms × ReconcileReport) (venue : String) :
    Oms × ReconcileReport :=
  let (oms, report) := state
  match venues.getOpenOrders venue with
  | .error _ => (oms, { report with pendingListingFailed := true })
  | .ok pending => oms.reconcileListing venue pending report

def reconcileLookup (venues : Venues) (state : Oms × ReconcileReport) (item : WorkItem) :
    Oms × ReconcileReport :=
  let (oms, report) := state
  match oms.connectorFor item.venue with
  | none => (oms, { report with unresolved := report.unresolved + 1 })
  | some connector => oms.reconcileItem item (venues.getOrder connector item.query) report

def reconcile (oms : Oms) (venues : Venues) : Oms × ReconcileReport :=
  let (oms, report) := oms.connectors.foldl (reconcileVenue venues) (oms, {})
  oms.reconcileWorklist.foldl (reconcileLookup venues) (oms, report)

/-- Startup: replay the log into the registry. -/
def loadFromLog (oms : Oms) : Oms :=
  match oms.log with
  | none => oms
  | some log => { oms with orders := replay oms.defaultVenue oms.orders log.events }

end Oms

end ExchangeGateway
