import ExchangeGateway.Core.Reconcile
import ExchangeGateway.Lib.Transition
import Mathlib.Data.List.Perm.Basic

/-! The gateway as a transition system. Any number of clients, feeds and reconciliations
interleave: every mutex-guarded section is one step, and a call whose venue request is
unanswered waits in `calls`. A restart drops the calls and replays the log; no process starts over a
log with an unreadable line. -/
namespace ExchangeGateway

/-- What the gateway is started with, the event log apart. -/
structure Config where
  connectors : List String
  defaultVenue : String
  risk : RiskConfig

/-- A call between two of its sections. -/
inductive Call
  /-- `sent`: `place_order` has been invoked; `staged` is the record the first section left. -/
  | place (request : OrderRequest) (connector : String) (staged : OrderRecord) (sent : Bool)
  | cancel (id : String) (wire : CancelRequest) (connector : String)
  /-- `validated` is the record the first section found. -/
  | amend (command : AmendCommand) (wire : AmendRequest) (connector : String)
      (validated : OrderRecord)
  | listing (venues : List String) (report : ReconcileReport)
  | resolving (items : List WorkItem) (report : ReconcileReport)
  deriving DecidableEq, Repr

/-- The client order an open place or amend owns. -/
def Call.owner : Call → Option String
  | .place request _ _ _ => some request.clientOrderId
  | .amend command _ _ _ => some command.clientOrderId
  | _ => none

/-- What happened in a run, for the statements only: no section reads it. -/
structure Trace where
  /-- Number of restarts so far. -/
  incarnation : ℕ := 0
  /-- Every invocation of `place_order`: the incarnation and the client order id. -/
  sent : List (ℕ × String) := []
  /-- Client orders recorded as rejected by the pre-trade risk check. -/
  riskRejected : List String := []
  /-- Every report passed to `onExecutionReport`, in order. -/
  arrived : List ExecutionReport := []
  /-- Those of them whose client order was registered on arrival. -/
  known : List ExecutionReport := []
  deriving DecidableEq, Repr

structure System where
  oms : Oms
  calls : List Call
  trace : Trace

inductive Action
  | place (request : OrderRequest) (venue : String)
  | send (i : ℕ)
  | placed (i : ℕ) (placement : Result OrderPlacement)
  | cancel (id : String)
  | canceled (i : ℕ) (placement : Result OrderPlacement)
  | amend (command : AmendCommand)
  | amended (i : ℕ) (placement : Result OrderPlacement)
  | report (report : ExecutionReport)
  | reconcile
  | listed (i : ℕ) (pending : Result (List OrderSnapshot))
  | collect (i : ℕ)
  | resolved (i : ℕ) (answer : Result (Option OrderSnapshot))
  | finish (i : ℕ)
  /-- The hash map changes its iteration order. -/
  | rehash (orders : Registry)
  /-- Stop or crash, and restart; `logOpen` says whether the log file could be opened again. -/
  | restart (config : Config) (logOpen : Bool)

/-- The order management system of a fresh process, after `loadFromLog`. -/
def Oms.start (config : Config) (log : Option EventLog) : Oms :=
  loadFromLog
    { connectors := config.connectors
      defaultVenue := config.defaultVenue
      log := log.map EventLog.reopen
      risk := config.risk
      orders := .empty _
      racedReports := .empty _
      discoveredLegNotes := []
      stats := {}
      history := {} }

namespace System

def boot (config : Config) (log : Option EventLog) : System := ⟨.start config log, [], {}⟩

def owners (s : System) : List String := s.calls.filterMap Call.owner

/-! ### The sections that open a call -/

def place (s : System) (request : OrderRequest) (venue : String) : System :=
  match s.oms.placeStage request venue with
  | (oms, .opened connector record) =>
    { s with oms := oms, calls := s.calls ++ [.place request connector record false] }
  | (oms, .riskRejected _) =>
    { s with
      oms := oms
      trace.riskRejected := s.trace.riskRejected ++ [request.clientOrderId] }
  | (oms, _) => { s with oms := oms }

def cancel (s : System) (id : String) : System :=
  match s.oms.cancelStage id with
  | .opened connector wire => { s with calls := s.calls ++ [.cancel id wire connector] }
  | .answered _ => s

def amend (s : System) (command : AmendCommand) : System :=
  match s.oms.amendStage command with
  | (oms, .opened connector wire record) =>
    { s with oms := oms, calls := s.calls ++ [.amend command wire connector record] }
  | (oms, _) => { s with oms := oms }

/-! ### The venue request of a place -/

def send (s : System) (i : ℕ) : Option System :=
  match s.calls[i]? with
  | some (.place request connector staged false) =>
    some { s with
      calls := s.calls.set i (.place request connector staged true)
      trace.sent := s.trace.sent ++ [(s.trace.incarnation, request.clientOrderId)] }
  | _ => none

/-! ### The sections that apply an answer -/

def placed (s : System) (i : ℕ) (placement : Result OrderPlacement) : Option System :=
  match s.calls[i]? with
  | some (.place request _ _ true) =>
    some { s with
      oms := (s.oms.placeOutcome request placement).1
      calls := s.calls.eraseIdx i }
  | _ => none

def canceled (s : System) (i : ℕ) (placement : Result OrderPlacement) : Option System :=
  match s.calls[i]? with
  | some (.cancel id _ _) =>
    some { s with
      oms := (s.oms.cancelOutcome id placement).1
      calls := s.calls.eraseIdx i }
  | _ => none

def amended (s : System) (i : ℕ) (placement : Result OrderPlacement) : Option System :=
  match s.calls[i]? with
  | some (.amend command wire _ _) =>
    some { s with
      oms := (s.oms.amendOutcome command wire placement).1
      calls := s.calls.eraseIdx i }
  | _ => none

def report (s : System) (report : ExecutionReport) : System :=
  { s with
    oms := s.oms.onExecutionReport report
    trace.arrived := s.trace.arrived ++ [report]
    trace.known := if report.clientOrderId ∈ s.oms.orders then s.trace.known ++ [report]
      else s.trace.known }

/-! ### Reconciliation -/

def listed (s : System) (i : ℕ) (pending : Result (List OrderSnapshot)) : Option System :=
  match s.calls[i]? with
  | some (.listing (venue :: venues) report) =>
    match pending with
    | .error _ =>
      some { s with
        calls := s.calls.set i (.listing venues { report with pendingListingFailed := true }) }
    | .ok pending =>
      some { s with
        oms := (s.oms.reconcileListing venue pending report).1
        calls := s.calls.set i
          (.listing venues (s.oms.reconcileListing venue pending report).2) }
  | _ => none

def collect (s : System) (i : ℕ) : Option System :=
  match s.calls[i]? with
  | some (.listing [] report) =>
    some { s with calls := s.calls.set i (.resolving s.oms.reconcileWorklist report) }
  | _ => none

/-- An item whose venue has no connector is counted without a lookup. -/
def resolved (s : System) (i : ℕ) (answer : Result (Option OrderSnapshot)) : Option System :=
  match s.calls[i]? with
  | some (.resolving (item :: items) report) =>
    match s.oms.connectorFor item.venue with
    | none =>
      some { s with
        calls := s.calls.set i
          (.resolving items { report with unresolved := report.unresolved + 1 }) }
    | some _ =>
      some { s with
        oms := (s.oms.reconcileItem item answer report).1
        calls := s.calls.set i
          (.resolving items (s.oms.reconcileItem item answer report).2) }
  | _ => none

def finish (s : System) (i : ℕ) : Option System :=
  match s.calls[i]? with
  | some (.resolving [] _) => some { s with calls := s.calls.eraseIdx i }
  | _ => none

/-! ### The environment -/

def rehash (s : System) (orders : Registry) : Option System :=
  if orders.toList.Perm s.oms.orders.toList then some { s with oms.orders := orders } else none

def restart (s : System) (config : Config) (logOpen : Bool) : System where
  oms := .start config (s.oms.log.map fun log => { log.close with isOpen := logOpen })
  calls := []
  trace := { s.trace with incarnation := s.trace.incarnation + 1 }

def step (s : System) : Action → Option System
  | .place request venue => some (s.place request venue)
  | .send i => s.send i
  | .placed i placement => s.placed i placement
  | .cancel id => some (s.cancel id)
  | .canceled i placement => s.canceled i placement
  | .amend command => some (s.amend command)
  | .amended i placement => s.amended i placement
  | .report report => some (s.report report)
  | .reconcile => some { s with calls := s.calls ++ [.listing s.oms.connectors {}] }
  | .listed i pending => s.listed i pending
  | .collect i => s.collect i
  | .resolved i answer => s.resolved i answer
  | .finish i => s.finish i
  | .rehash orders => s.rehash orders
  | .restart config logOpen =>
    if s.oms.log.any (·.close.corrupt) then none else some (s.restart config logOpen)

end System

/-- Every action but a restart: the steps of one incarnation. -/
def Action.live : Action → Bool
  | .restart _ _ => false
  | _ => true

namespace System

/-- Any run, restarts included. -/
abbrev Run : System → System → Prop := Transition.Reaches step fun _ _ => True

abbrev LiveRun : System → System → Prop := Transition.Reaches step fun _ a => a.live

end System

/-! ### A small instance, for the concrete runs -/

def Config.sample : Config := ⟨["binance"], "binance", ⟨none, []⟩⟩

/-- One venue, positions of at most 10 on every instrument. -/
def Config.limited : Config := ⟨["binance"], "binance", ⟨some ⟨"", "", "10"⟩, []⟩⟩

/-- An empty log that every append reaches. -/
def EventLog.fresh : EventLog where
  path := "events.jsonl"
  isOpen := true
  events := []
  fate _ := .written

def OrderRequest.sample : OrderRequest := ⟨"c1", "BTCUSDT", .buy, .limit, "100", "5", ""⟩

end ExchangeGateway
