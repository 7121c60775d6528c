import ExchangeGateway.Core.Ledger
import ExchangeGateway.Core.Observation

/-! Every section refines the ledger: its effect on the registry and the log is that of its
entries. -/
namespace ExchangeGateway

namespace OrderRecord

@[simp] theorem clientOrderId_noteExchangeId (record : OrderRecord) (id : String) :
    (record.noteExchangeId id).clientOrderId = record.clientOrderId := by
  unfold noteExchangeId pushLeg
  split <;> rfl

@[simp] theorem state_noteExchangeId (record : OrderRecord) (id : String) :
    (record.noteExchangeId id).state = record.state := by
  unfold noteExchangeId pushLeg
  split <;> rfl

@[simp] theorem noteExchangeId_empty (record : OrderRecord) :
    record.noteExchangeId "" = record := by
  simp [noteExchangeId]

theorem exchangeOrderId_noteExchangeId {record : OrderRecord} {id : String} (h : id ≠ "") :
    (record.noteExchangeId id).exchangeOrderId = id := by
  unfold noteExchangeId pushLeg
  split_ifs with h'
  · rcases Bool.or_eq_true _ _ ▸ h' with h' | h'
    · exact absurd (of_decide_eq_true h') h
    · exact (of_decide_eq_true h').symm
  · rfl

@[simp] theorem clientOrderId_learn (record : OrderRecord) (id : String) :
    (record.learn id).clientOrderId = record.clientOrderId := by
  unfold learn
  split <;> simp

@[simp] theorem clientOrderId_applyObservation (record : OrderRecord) (state : OrderState)
    (filled avgPrice price quantity : String) (applyLifecycle : Bool) :
    (record.applyObservation state filled avgPrice price quantity
      applyLifecycle).1.clientOrderId = record.clientOrderId := by
  obtain ⟨_, _, _, _, _, _, h, -⟩ := record.applyObservation_spec state filled avgPrice price
    quantity applyLifecycle
  rw [h]

/-- A report changes the legs, the fill and the state; the state only when its leg is the newest
one. -/
theorem arbitrate_spec (record : OrderRecord) (report : ExecutionReport) :
    ∃ exchangeOrderId legs state filled avgPrice,
      (record.arbitrate report).1 =
        { record with
          exchangeOrderId := exchangeOrderId
          legs := legs
          state := state
          filledQuantity := filled
          averageFillPrice := avgPrice } ∧
      record.FillObserved report.filledQuantity report.averageFillPrice filled avgPrice ∧
      (state = record.state ∨ record.superseded report.exchangeOrderId = false ∧
        state = report.state ∧ canTransition record.state report.state) := by
  obtain ⟨exchangeOrderId, legs, hlearn⟩ := record.learned_spec
    (record.exchangeOrderId = "" ∨ record.legs ≠ [] ∧
      record.legIndexOf report.exchangeOrderId = none) report.exchangeOrderId
  obtain ⟨state, filled, avgPrice, price, quantity, _, heq, hfill, hstate, hprice, hquantity, -⟩ :=
    { record with exchangeOrderId := exchangeOrderId, legs := legs }.applyObservation_spec
      report.state report.filledQuantity report.averageFillPrice "" ""
      (!record.superseded report.exchangeOrderId)
  obtain rfl : price = record.price := hprice.resolve_right fun h => h.2.2 rfl
  obtain rfl : quantity = record.quantity := hquantity.resolve_right fun h => h.2.2 rfl
  refine ⟨exchangeOrderId, legs, state, filled, avgPrice, ?_, hfill, by simpa using hstate⟩
  unfold arbitrate learn
  rw [hlearn, heq]

end OrderRecord

namespace Oms

/-- What no section of one incarnation changes. -/
def config (oms : Oms) : Config := ⟨oms.connectors, oms.defaultVenue, oms.risk⟩

/-- What only the sections that open or close a place or amend change. -/
def frame (oms : Oms) : Config × KeyedList RacedReports.clientOrderId :=
  (oms.config, oms.racedReports)

/-! ### The log -/

def logged (oms : Oms) (event : Json) : Oms :=
  { oms with log := oms.log.map fun log => (log.append event).1 }

theorem appendOrError_cases (oms : Oms) (event : Json) :
    oms.persists ∧ oms.appendOrError event = (oms.logged event, none) ∨
      ¬ oms.persists ∧ ∃ error, oms.appendOrError event = (oms.logged event, some error) := by
  cases hlog : oms.log with
  | none =>
    have hsame : { oms with log := none } = oms := by rw [← hlog]
    simp [persists, appendOrError, logged, hlog, hsame]
  | some log =>
    simp only [persists, appendOrError, logged, hlog, Option.all_some, Option.map_some,
      Prod.mk.injEq, true_and]
    cases ho : log.isOpen <;> cases hfate : log.fate log.attempts <;>
      simp [EventLog.ready, EventLog.append, ho, hfate]

@[simp] theorem ledger_logged (oms : Oms) (event : Json) :
    (oms.logged event).ledger = oms.ledger.append [event] := rfl

@[simp] theorem ledger_appendEvent (oms : Oms) (event : Json) :
    (oms.appendEvent event).ledger = oms.ledger.append [event] := by
  unfold appendEvent
  obtain ⟨-, h⟩ | ⟨-, error, h⟩ := oms.appendOrError_cases event <;> rw [h] <;> rfl

end Oms

namespace OrderRecord

@[simp] theorem clientOrderId_arbitrate (record : OrderRecord) (report : ExecutionReport) :
    (record.arbitrate report).1.clientOrderId = record.clientOrderId := by
  simp [arbitrate]

@[simp] theorem clientOrderId_amend (record : OrderRecord) (price quantity id : String) :
    (record.amend price quantity id).clientOrderId = record.clientOrderId := by
  unfold amend appendAmendLeg
  split <;> rfl

@[simp] theorem clientOrderId_refreshed (record : OrderRecord) (snapshot : OrderSnapshot) :
    (Oms.refreshed record snapshot).1.clientOrderId = record.clientOrderId := by
  simp only [Oms.refreshed, Oms.observeSnapshot, clientOrderId_applyObservation]
  split <;> simp

@[simp] theorem clientOrderId_resolve (record : OrderRecord) (snapshot : OrderSnapshot) :
    (record.resolve snapshot).1.clientOrderId = record.clientOrderId := by
  simp only [resolve, Oms.observeSnapshot, clientOrderId_applyObservation]
  split <;> simp

end OrderRecord

/-- An entry stores its record under its own key. -/
theorem Entry.key_write {entry : Entry} {old : Option OrderRecord} {new : OrderRecord}
    (hold : ∀ record, old = some record → record.clientOrderId = entry.key)
    (h : (entry.write old).1 = some new) : new.clientOrderId = entry.key := by
  cases old with
  | none =>
    cases entry with
    | riskRejected _ | listed _ _ =>
      rw [← Option.some.inj h]
      rfl
    | staged _ persisted => cases persisted <;> simp_all [write, key]
    | _ => cases h
  | some record =>
    have hk := hold record rfl
    cases entry with
    | staged _ persisted => cases persisted <;> simp_all [write, key]
    | rejected _ _ | absent _ =>
      simp only [write] at h
      split at h
      · cases h
      · rw [← hk, ← Option.some.inj h]
        rfl
    | canceled _ _ =>
      simp only [write] at h
      split at h <;> rw [← hk, ← Option.some.inj h] <;> simp
    | accepted _ _ =>
      rw [← hk, ← Option.some.inj h]
      simp [OrderRecord.accept]
    | riskRejected _ =>
      rw [← Option.some.inj h]
      rfl
    | _ =>
      rw [← Option.some.inj h]
      simpa using hk

/-- Every event an entry appends is about its own client order and of one of the six kinds; an
intent is written by staging only, an adoption and an amend with the record they store. -/
theorem Entry.event_of_mem_write {entry : Entry} {old : Option OrderRecord} {event : Json}
    (hold : ∀ record, old = some record → record.clientOrderId = entry.key)
    (h : event ∈ (entry.write old).2) :
    ∃ record, record.clientOrderId = entry.key ∧
      ((∃ persisted, entry = .staged record persisted) ∧ event = placeSubmittedEvent record ∨
        event = placeAcceptedEvent record ∨
        (entry.write old).1 = some record ∧ event = adoptedEvent record ∨
        event = rejectedEvent record ∨
        (entry.write old).1 = some record ∧ event = amendedEvent record ∨
        event = stateEvent record) := by
  cases old with
  | none =>
    cases entry with
    | staged record persisted =>
      exact ⟨record, rfl, .inl ⟨⟨persisted, rfl⟩, List.mem_singleton.mp h⟩⟩
    | riskRejected record =>
      exact ⟨record, rfl, .inr (.inr (.inr (.inl (List.mem_singleton.mp h))))⟩
    | listed _ _ => exact ⟨_, rfl, .inr (.inr (.inl ⟨rfl, List.mem_singleton.mp h⟩))⟩
    | _ => cases h
  | some record =>
    have hk := hold record rfl
    cases entry with
    | staged record persisted =>
      exact ⟨record, rfl, .inl ⟨⟨persisted, rfl⟩, List.mem_singleton.mp h⟩⟩
    | riskRejected record =>
      exact ⟨record, rfl, .inr (.inr (.inr (.inl (List.mem_singleton.mp h))))⟩
    | accepted _ id =>
      exact ⟨record.accept id, by simpa [OrderRecord.accept] using hk,
        .inr (.inl (List.mem_singleton.mp h))⟩
    | amended _ price quantity id =>
      exact ⟨record.amend price quantity id, by simpa using hk,
        .inr (.inr (.inr (.inr (.inl ⟨rfl, List.mem_singleton.mp h⟩))))⟩
    | discovered _ _ => cases h
    | rejected _ error =>
      simp only [write] at h
      split at h
      · cases h
      · exact ⟨record.reject error, hk, .inr (.inr (.inr (.inl (List.mem_singleton.mp h))))⟩
    | absent _ =>
      simp only [write] at h
      split at h
      · cases h
      · rcases List.mem_cons.mp h with h | h
        · exact ⟨record.reject _, hk, .inr (.inr (.inr (.inr (.inr h))))⟩
        · exact ⟨record.reject _, hk, .inr (.inr (.inr (.inl (List.mem_singleton.mp h))))⟩
    | canceled _ _ | reported _ _ | listed _ _ | resolved _ _ =>
      simp only [write] at h
      split at h
      · refine ⟨_, ?_, .inr (.inr (.inr (.inr (.inr (List.mem_singleton.mp h)))))⟩
        simpa using hk
      · cases h

namespace Ledger

@[simp] theorem append_nil (ledger : Ledger) : ledger.append [] = ledger := by
  have h : ledger.log.map (·.appendAll []) = ledger.log := by
    cases ledger.log <;> rfl
  simp [append, h]

theorem append_append (ledger : Ledger) (es es' : List Json) :
    (ledger.append es).append es' = ledger.append (es ++ es') := by
  cases h : ledger.log <;> simp [append, h, EventLog.appendAll]

@[simp] theorem orders_append (ledger : Ledger) (es : List Json) :
    (ledger.append es).orders = ledger.orders := rfl

@[simp] theorem transitions_append (ledger : Ledger) (es : List Json) :
    (ledger.append es).transitions = ledger.transitions := rfl

@[simp] theorem orders_store (ledger : Ledger) (record : OrderRecord) :
    (ledger.store record).orders = ledger.orders.set record := rfl

@[simp] theorem log_store (ledger : Ledger) (record : OrderRecord) :
    (ledger.store record).log = ledger.log := rfl

/-- A write that keeps the state is overwritten without a trace. -/
theorem store_store {ledger : Ledger} {old new new' : OrderRecord}
    (h : ledger.orders.find? old.clientOrderId = some old)
    (hid : new.clientOrderId = old.clientOrderId) (hid' : new'.clientOrderId = old.clientOrderId)
    (hstate : new.state = old.state) :
    (ledger.store new).store new' = ledger.store new' := by
  have hset := KeyedList.set_set ledger.orders (hid.trans hid'.symm)
  have hfind : (ledger.orders.set new).find? old.clientOrderId = some new := by
    rw [← hid, KeyedList.find?_set_self]
  simp only [store, hset, hid', hid, hfind, h, hstate, if_true]

theorem enter_none (ledger : Ledger) (entry : Entry) {old : Option OrderRecord}
    (h : ledger.orders.find? entry.key = old) (hw : entry.write old = (none, [])) :
    ledger.enter entry = ledger := by
  simp [enter, h, hw]

theorem enter_some (ledger : Ledger) (entry : Entry) {old : Option OrderRecord}
    {record : OrderRecord} {events : List Json} (h : ledger.orders.find? entry.key = old)
    (hw : entry.write old = (some record, events)) :
    ledger.enter entry = (ledger.store record).append events := by
  simp [enter, h, hw]

private theorem find?_store_eq {ledger : Ledger} {entry : Entry} (id : String) :
    (((entry.write (ledger.orders.find? entry.key)).1.map ledger.store).getD
      ledger).orders.find? id =
      if entry.key = id then
        (entry.write (ledger.orders.find? entry.key)).1.or (ledger.orders.find? entry.key)
      else ledger.orders.find? id := by
  cases hw : (entry.write (ledger.orders.find? entry.key)).1 with
  | none =>
    simp only [Option.map_none, Option.getD_none, Option.none_or]
    split_ifs with h <;> simp [h]
  | some record =>
    have hkey := Entry.key_write (fun old hold => KeyedList.key_of_find? hold) hw
    simp [KeyedList.find?_set, hkey]

theorem find?_enter (ledger : Ledger) (entry : Entry) (id : String) :
    (ledger.enter entry).orders.find? id =
      if entry.key = id then
        (entry.write (ledger.orders.find? entry.key)).1.or (ledger.orders.find? entry.key)
      else ledger.orders.find? id := find?_store_eq id

theorem find?_enter_of_ne (ledger : Ledger) {entry : Entry} {id : String}
    (h : entry.key ≠ id) : (ledger.enter entry).orders.find? id = ledger.orders.find? id := by
  rw [find?_enter, if_neg h]

theorem find?_enter_of_write (ledger : Ledger) (entry : Entry) {old : Option OrderRecord}
    {new : OrderRecord} (h : ledger.orders.find? entry.key = old)
    (hw : (entry.write old).1 = some new) :
    (ledger.enter entry).orders.find? entry.key = some new := by
  rw [find?_enter, if_pos rfl, h, hw, Option.some_or]

theorem log_enter (ledger : Ledger) (entry : Entry) :
    (ledger.enter entry).log =
      ledger.log.map (·.appendAll (entry.write (ledger.orders.find? entry.key)).2) := by
  simp only [enter, append]
  cases (entry.write (ledger.orders.find? entry.key)).1 <;> rfl

theorem enterAll_cons (ledger : Ledger) (entry : Entry) (entries : List Entry) :
    ledger.enterAll (entry :: entries) = (ledger.enter entry).enterAll entries := rfl

theorem enterAll_append (ledger : Ledger) (es es' : List Entry) :
    ledger.enterAll (es ++ es') = (ledger.enterAll es).enterAll es' := List.foldl_append

end Ledger

namespace Oms

@[simp] theorem ledger_store (oms : Oms) (record : OrderRecord) :
    (oms.store record).ledger = oms.ledger.store record := rfl

@[simp] theorem ledger_countLogFailure (oms : Oms) :
    oms.countLogFailure.ledger = oms.ledger := rfl

@[simp] theorem ledger_adoptUnknownLeg (oms : Oms) (record : OrderRecord) (id : String) :
    (oms.adoptUnknownLeg record id).1.ledger = oms.ledger.store (record.noteExchangeId id) := rfl

@[simp] theorem ledger_drainRacedReports (oms : Oms) (id : String) :
    (oms.drainRacedReports id).1.ledger = oms.ledger := by
  unfold drainRacedReports
  split <;> rfl

@[simp] theorem drainRacedReports_snd (oms : Oms) (id : String) :
    (oms.drainRacedReports id).2 = oms.buffered id := by
  unfold drainRacedReports buffered
  split <;> simp [*]

@[simp] theorem orders_ledger (oms : Oms) : oms.ledger.orders = oms.orders := rfl

/-! ### Execution reports -/

/-- `applyReport` when the arbitration has already extended the leg table. -/
theorem applyReport_eq (oms : Oms) (record : OrderRecord) (report : ExecutionReport)
    (lifecycle : Bool) :
    let noted := if record.exchangeOrderId = "" then record.noteExchangeId report.exchangeOrderId
      else record
    let observed := noted.applyObservation report.state report.filledQuantity
      report.averageFillPrice "" "" lifecycle
    (oms.applyReport record report lifecycle).2 = observed.1 ∧
      (oms.applyReport record report lifecycle).1.ledger =
        (oms.ledger.store observed.1).append
          (if observed.2 then [stateEvent observed.1] else []) := by
  intro noted observed
  have hb : (noted.applyObservation report.state report.filledQuantity
      report.averageFillPrice "" "" lifecycle).2 = observed.2 := rfl
  unfold applyReport
  by_cases hc : observed.2
  · simp only [noted] at hb
    simp only [hb, hc, if_true, ledger_appendEvent]
    exact ⟨rfl, rfl⟩
  · simp only [noted] at hb
    simp only [hb, hc, Bool.false_eq_true, if_false, Ledger.append_nil]
    exact ⟨rfl, rfl⟩

/-- Arbitration leaves one application to do, whose backfill completes what is learned. -/
private theorem applyArbitratedReport_applyReport {oms : Oms} {record : OrderRecord}
    (h : oms.lookup record.clientOrderId = some record) (report : ExecutionReport) :
    ∃ (oms' : Oms) (known : OrderRecord),
      oms.applyArbitratedReport record report = oms'.applyReport known report
        (!record.superseded report.exchangeOrderId) ∧
      (if known.exchangeOrderId = "" then known.noteExchangeId report.exchangeOrderId
        else known) = record.learn report.exchangeOrderId ∧
      ∀ new : OrderRecord, new.clientOrderId = record.clientOrderId →
        oms'.ledger.store new = oms.ledger.store new := by
  by_cases hid : report.exchangeOrderId ≠ "" ∧ record.legs ≠ []
  · cases hl : record.legIndexOf report.exchangeOrderId with
    | none =>
      refine ⟨((oms.hand report).adoptUnknownLeg record report.exchangeOrderId).1,
        record.noteExchangeId report.exchangeOrderId, ?_, ?_, fun new hnew => ?_⟩
      · simp [applyArbitratedReport, hid, hl, OrderRecord.superseded, adoptUnknownLeg]
      · simp [OrderRecord.exchangeOrderId_noteExchangeId hid.1, hid.1, OrderRecord.learn, hid.2,
          hl]
      · have h' : oms.ledger.orders.find? record.clientOrderId = some record := h
        exact Ledger.store_store h' (by simp) hnew (by simp)
    | some index =>
      refine ⟨oms.hand report, record, ?_, ?_, fun new _ => rfl⟩
      · simp [applyArbitratedReport, hid, hl, OrderRecord.superseded]
      · simp [OrderRecord.learn, hl]
  · refine ⟨oms.hand report, record, ?_, ?_, fun new _ => rfl⟩
    · have hsup : record.superseded report.exchangeOrderId = false := by
        by_cases he : report.exchangeOrderId = ""
        · simp [OrderRecord.superseded, he]
        · have hlegs : record.legs = [] := by simpa [he] using hid
          simp [OrderRecord.superseded, hlegs]
      simp [applyArbitratedReport, hid, hsup]
    · by_cases he : report.exchangeOrderId = ""
      · simp [OrderRecord.learn, he]
      · have hlegs : record.legs = [] := by simpa [he] using hid
        simp [OrderRecord.learn, hlegs]

theorem applyArbitratedReport_eq {oms : Oms} {record : OrderRecord}
    (h : oms.lookup record.clientOrderId = some record) (report : ExecutionReport) :
    (oms.applyArbitratedReport record report).2 = (record.arbitrate report).1 ∧
      (oms.applyArbitratedReport record report).1.ledger =
        oms.ledger.enter (.reported record.clientOrderId report) := by
  have henter := oms.ledger.enter_some (.reported record.clientOrderId report) h rfl
  obtain ⟨oms', known, heq, hlearn, hstore⟩ := applyArbitratedReport_applyReport h report
  have hap := oms'.applyReport_eq known report (!record.superseded report.exchangeOrderId)
  simp only [hlearn] at hap
  rw [heq, henter]
  refine ⟨hap.1, hap.2.trans ?_⟩
  rw [hstore _ (by simp)]
  rfl

theorem lookup_of_ledger {oms : Oms} {ledger : Ledger} (h : oms.ledger = ledger) (id : String) :
    oms.lookup id = ledger.orders.find? id := by
  rw [← h]
  rfl

theorem applyReports_eq {oms : Oms} {record : OrderRecord}
    (h : oms.lookup record.clientOrderId = some record) (reports : List ExecutionReport) :
    (oms.applyReports record reports).1.ledger =
      oms.ledger.enterAll (reportEntries record.clientOrderId reports) := by
  induction reports generalizing oms record with
  | nil => rfl
  | cons report reports ih =>
    obtain ⟨hrec, hled⟩ := applyArbitratedReport_eq h report
    have hid : (oms.applyArbitratedReport record report).2.clientOrderId =
        record.clientOrderId := by
      rw [hrec, OrderRecord.clientOrderId_arbitrate]
    have hfind : (oms.applyArbitratedReport record report).1.lookup
        (oms.applyArbitratedReport record report).2.clientOrderId =
          some (oms.applyArbitratedReport record report).2 := by
      rw [lookup_of_ledger hled, hid, hrec]
      exact oms.ledger.find?_enter_of_write (.reported record.clientOrderId report) h rfl
    have hrest := ih hfind
    rw [hid, hled] at hrest
    exact hrest

theorem onExecutionReport_ledger (oms : Oms) (report : ExecutionReport) :
    (oms.onExecutionReport report).ledger = oms.ledger.enterAll (oms.sinkEntries report) := by
  unfold onExecutionReport sinkEntries
  cases hr : oms.racedReports.find? report.clientOrderId with
  | some raced =>
    rw [if_pos (KeyedList.mem_of_find? hr)]
    rfl
  | none =>
    rw [if_neg (KeyedList.not_mem_iff.mpr hr)]
    cases hl : oms.lookup report.clientOrderId with
    | none => exact (oms.ledger.enter_none (.reported report.clientOrderId report) hl rfl).symm
    | some record =>
      have hkey : record.clientOrderId = report.clientOrderId := KeyedList.key_of_find? hl
      rw [← hkey] at hl ⊢
      exact (applyArbitratedReport_eq hl report).2

/-! ### Place -/

private theorem recordRiskRejection_ledger (oms : Oms) (record : OrderRecord)
    (rejection : Error) :
    (oms.recordRiskRejection record rejection).1.ledger =
      (oms.ledger.store (record.reject rejection)).append
        [rejectedEvent (record.reject rejection)] := by
  unfold recordRiskRejection
  obtain ⟨-, h⟩ | ⟨-, error, h⟩ :=
    oms.appendOrError_cases (rejectedEvent (record.reject rejection))
  all_goals
    simp only [OrderRecord.reject] at h ⊢
    rw [h]
    rfl

private theorem stagePending_ledger (oms : Oms) (record : OrderRecord) (connector : String) :
    (oms.stagePending record connector).1.ledger =
      ((if oms.persists then oms.ledger.store record else oms.ledger).append
        [placeSubmittedEvent record]) := by
  unfold stagePending
  obtain ⟨hp, h⟩ | ⟨hp, error, h⟩ := oms.appendOrError_cases (placeSubmittedEvent record)
  all_goals
    simp only [h, hp]
    rfl

theorem placeStage_ledger (oms : Oms) (request : OrderRequest) (venue : String) :
    (oms.placeStage request venue).1.ledger =
      oms.ledger.enterAll (oms.placeEntries request venue) := by
  unfold placeStage placeEntries
  generalize (if venue = "" then oms.defaultVenue else venue) = venue
  cases hl : oms.lookup request.clientOrderId with
  | some existing =>
    rw [if_pos (KeyedList.mem_of_find? hl)]
    cases hr : existing.rejection <;> simp only [hr] <;> rfl
  | none =>
    rw [if_neg (KeyedList.not_mem_iff.mpr hl)]
    cases hc : oms.connectorFor venue with
    | none => simp only [hc]; rfl
    | some connector =>
      simp only [hc]
      cases oms.riskCheck request.instrumentId none request.side request.price
          request.quantity with
      | threw => rfl
      | rejected rejection =>
        have henter := oms.ledger.enter_some
          (.riskRejected ((candidate request venue).reject rejection)) hl rfl
        exact (recordRiskRejection_ledger oms _ rejection).trans henter.symm
      | passed =>
        rw [stagePending_ledger]
        cases oms.persists <;> rfl

private theorem placeRejected_ledger {oms : Oms} {record : OrderRecord}
    (h : oms.lookup record.clientOrderId = some record) (error : Error) :
    (oms.placeRejected record error).ledger =
      oms.ledger.enter (.rejected record.clientOrderId error) := by
  by_cases ht : isTerminal record.state
  · rw [oms.ledger.enter_none (.rejected record.clientOrderId error) h (by simp [Entry.write, ht])]
    simp [placeRejected, applyTransition_of_terminal ht]
  · have hc : canTransition record.state .rejected := canTransition_rejected_iff.mpr ht
    rw [oms.ledger.enter_some (.rejected record.clientOrderId error) h
      (by simp only [Entry.write, ht]; rfl)]
    simp only [placeRejected, applyTransition_eq, hc, if_true]
    obtain ⟨-, ha⟩ | ⟨-, error', ha⟩ := (oms.store (record.reject error)).appendOrError_cases
      (rejectedEvent (record.reject error))
    all_goals
      simp only [OrderRecord.reject] at ha ⊢
      rw [ha]
      rfl

private theorem lookup_logged_store (oms : Oms) (record : OrderRecord) (event : Json) :
    ((oms.store record).logged event).lookup record.clientOrderId = some record :=
  KeyedList.find?_set_self _ _

/-- What an ack leaves: the record stored and logged, and the raced reports applied unless the log
failed. -/
def settle (oms : Oms) (record : OrderRecord) (event : Json) (raced : List ExecutionReport) :
    Oms :=
  if oms.persists then (((oms.store record).logged event).applyReports record raced).1
  else ((oms.store record).logged event).countLogFailure

theorem placeAcked_fst (oms : Oms) (record : OrderRecord) (ack : OrderPlacement)
    (raced : List ExecutionReport) :
    (oms.placeAcked record ack raced).1 = oms.settle (record.accept ack.exchangeOrderId)
      (placeAcceptedEvent (record.accept ack.exchangeOrderId)) raced := by
  have haccept : { record.noteExchangeId ack.exchangeOrderId with
      state := (applyTransition (record.noteExchangeId ack.exchangeOrderId).state .live).1 } =
        record.accept ack.exchangeOrderId := by
    simp [OrderRecord.accept]
  simp only [placeAcked, haccept]
  generalize record.accept ack.exchangeOrderId = new
  unfold settle
  obtain ⟨hp, ha⟩ | ⟨hp, error, ha⟩ :=
    (oms.store new).appendOrError_cases (placeAcceptedEvent new)
  · rw [ha, if_pos (show oms.persists from hp)]
  · rw [ha, if_neg (show ¬ oms.persists from hp)]

theorem amendAcked_fst (oms : Oms) (record : OrderRecord) (wire : AmendRequest)
    (ack : OrderPlacement) (raced : List ExecutionReport) :
    (oms.amendAcked record wire ack raced).1 =
      oms.settle (record.amend (wire.newPrice.getD "") (wire.newQuantity.getD "")
        ack.exchangeOrderId) (amendedEvent (record.amend (wire.newPrice.getD "")
          (wire.newQuantity.getD "") ack.exchangeOrderId)) raced := by
  have hamend : ({ record with price := wire.newPrice.getD "", quantity := wire.newQuantity.getD "" } :
    OrderRecord).appendAmendLeg ack.exchangeOrderId = record.amend (wire.newPrice.getD "")
      (wire.newQuantity.getD "") ack.exchangeOrderId := rfl
  simp only [amendAcked, hamend]
  generalize record.amend (wire.newPrice.getD "") (wire.newQuantity.getD "")
    ack.exchangeOrderId = new
  unfold settle
  obtain ⟨hp, ha⟩ | ⟨hp, error, ha⟩ := (oms.store new).appendOrError_cases (amendedEvent new)
  · rw [ha, if_pos (show oms.persists from hp)]
  · rw [ha, if_neg (show ¬ oms.persists from hp)]

private theorem ledger_settle (oms : Oms) (record : OrderRecord) (event : Json)
    (raced : List ExecutionReport) :
    (oms.settle record event raced).ledger = ((oms.ledger.store record).append [event]).enterAll
      (if oms.persists then reportEntries record.clientOrderId raced else []) := by
  unfold settle
  split
  · have hr := applyReports_eq (oms.lookup_logged_store record event) raced
    exact hr
  · rfl

private theorem placeAcked_ledger {oms : Oms} {record : OrderRecord}
    (h : oms.lookup record.clientOrderId = some record) (ack : OrderPlacement)
    (raced : List ExecutionReport) :
    (oms.placeAcked record ack raced).1.ledger =
      oms.ledger.enterAll (.accepted record.clientOrderId ack.exchangeOrderId ::
        if oms.persists then reportEntries record.clientOrderId raced else []) := by
  have hid : (record.accept ack.exchangeOrderId).clientOrderId = record.clientOrderId := by
    simp [OrderRecord.accept]
  rw [Ledger.enterAll_cons,
    oms.ledger.enter_some (.accepted record.clientOrderId ack.exchangeOrderId) h rfl,
    placeAcked_fst, ledger_settle, hid]

/-- The entries of an outcome section about an unregistered order write nothing. -/
private theorem enterAll_of_unknown (ledger : Ledger) {id : String} {entries : List Entry}
    (h : ledger.orders.find? id = none)
    (he : ∀ entry ∈ entries, entry.key = id ∧ entry.write none = (none, [])) :
    ledger.enterAll entries = ledger := by
  induction entries with
  | nil => rfl
  | cons entry entries ih =>
    obtain ⟨hk, hw⟩ := he entry List.mem_cons_self
    rw [Ledger.enterAll_cons, ledger.enter_none entry (hk ▸ h) hw]
    exact ih fun e hm => he e (List.mem_cons_of_mem entry hm)

private theorem mem_reportEntries {id : String} {reports : List ExecutionReport} {entry : Entry}
    (h : entry ∈ reportEntries id reports) : entry.key = id ∧ entry.write none = (none, []) := by
  obtain ⟨report, -, rfl⟩ := List.mem_map.mp h
  exact ⟨rfl, rfl⟩

private theorem mem_ackedEntries {c : Prop} [Decidable c] {id : String}
    {reports : List ExecutionReport} {first entry : Entry}
    (hfirst : first.key = id ∧ first.write none = (none, []))
    (h : entry ∈ first :: if c then reportEntries id reports else []) :
    entry.key = id ∧ entry.write none = (none, []) := by
  rcases List.mem_cons.mp h with rfl | h
  · exact hfirst
  · split at h
    · exact mem_reportEntries h
    · cases h

theorem persists_drainRacedReports (oms : Oms) (id : String) :
    (oms.drainRacedReports id).1.persists = oms.persists := by
  unfold drainRacedReports
  split <;> rfl

theorem lookup_drainRacedReports (oms : Oms) (id id' : String) :
    (oms.drainRacedReports id).1.lookup id' = oms.lookup id' :=
  lookup_of_ledger (oms.ledger_drainRacedReports id) id'

theorem placeOutcome_ledger (oms : Oms) (request : OrderRequest)
    (placement : Result OrderPlacement) :
    (oms.placeOutcome request placement).1.ledger =
      oms.ledger.enterAll (oms.placedEntries request.clientOrderId placement) := by
  have hd := oms.ledger_drainRacedReports request.clientOrderId
  have hp := oms.persists_drainRacedReports request.clientOrderId
  have hb := oms.drainRacedReports_snd request.clientOrderId
  have hl := oms.lookup_drainRacedReports request.clientOrderId request.clientOrderId
  unfold placeOutcome placedEntries
  rw [← hd, ← hp, ← hb]
  rcases oms.drainRacedReports request.clientOrderId with ⟨drained, raced⟩
  simp only
  cases hr : drained.lookup request.clientOrderId with
  | none =>
    refine (enterAll_of_unknown drained.ledger hr fun entry he => ?_).symm
    cases placement with
    | error error =>
      simp only at he
      split at he
      · obtain rfl := List.mem_singleton.mp he
        exact ⟨rfl, rfl⟩
      · exact mem_reportEntries he
    | ok ack => exact mem_ackedEntries ⟨rfl, rfl⟩ he
  | some record =>
    have hkey : record.clientOrderId = request.clientOrderId := KeyedList.key_of_find? hr
    rw [← hkey] at hr ⊢
    cases placement with
    | error error =>
      simp only
      split
      · exact placeRejected_ledger hr error
      · exact applyReports_eq hr raced
    | ok ack => exact placeAcked_ledger hr ack raced

/-! ### Cancel -/

theorem cancelOutcome_ledger (oms : Oms) (id : String) (placement : Result OrderPlacement) :
    (oms.cancelOutcome id placement).1.ledger =
      oms.ledger.enterAll (canceledEntries id placement) := by
  unfold cancelOutcome canceledEntries
  cases hr : oms.lookup id with
  | none =>
    cases placement with
    | error error => rfl
    | ok ack => exact (oms.ledger.enter_none (.canceled id ack.exchangeOrderId) hr rfl).symm
  | some record =>
    cases placement with
    | error error => rfl
    | ok ack =>
      by_cases hc : canTransition (record.noteExchangeId ack.exchangeOrderId).state .canceled
      · have henter := oms.ledger.enter_some (.canceled id ack.exchangeOrderId) hr
          (by simp only [Entry.write, hc]; rfl)
        simp only [applyTransition_eq, hc, if_true]
        exact (ledger_appendEvent _ _).trans henter.symm
      · have henter := oms.ledger.enter_some (.canceled id ack.exchangeOrderId) hr
          (by simp only [Entry.write, hc]; rfl)
        simp only [applyTransition_eq, hc]
        exact ((Ledger.append_nil _).symm.trans henter.symm)

/-! ### Amend -/

theorem amendStage_ledger (oms : Oms) (command : AmendCommand) :
    (oms.amendStage command).1.ledger = oms.ledger := by
  unfold amendStage
  repeat' split
  all_goals rfl

private theorem discovered_applyReports_ledger {oms : Oms} {record : OrderRecord}
    (h : oms.lookup record.clientOrderId = some record) (id : String)
    (raced : List ExecutionReport) :
    ((oms.adoptUnknownLeg record id).1.applyReports (record.noteExchangeId id) raced).1.ledger =
      oms.ledger.enterAll ([.discovered record.clientOrderId id] ++
        reportEntries record.clientOrderId raced) := by
  have hl : (oms.adoptUnknownLeg record id).1.lookup (record.noteExchangeId id).clientOrderId =
      some (record.noteExchangeId id) := KeyedList.find?_set_self _ _
  have henter := oms.ledger.enter_some (.discovered record.clientOrderId id) h rfl
  rw [applyReports_eq hl, Ledger.enterAll_append]
  show _ = (oms.ledger.enter _).enterAll _
  rw [henter, Ledger.append_nil, ledger_adoptUnknownLeg,
    OrderRecord.clientOrderId_noteExchangeId]

private theorem amendAcked_ledger {oms : Oms} {record : OrderRecord}
    (h : oms.lookup record.clientOrderId = some record) (wire : AmendRequest)
    (ack : OrderPlacement) (raced : List ExecutionReport) :
    (oms.amendAcked record wire ack raced).1.ledger =
      oms.ledger.enterAll (.amended record.clientOrderId (wire.newPrice.getD "")
        (wire.newQuantity.getD "") ack.exchangeOrderId ::
        if oms.persists then reportEntries record.clientOrderId raced else []) := by
  have hid : (record.amend (wire.newPrice.getD "") (wire.newQuantity.getD "")
      ack.exchangeOrderId).clientOrderId = record.clientOrderId := by simp
  rw [Ledger.enterAll_cons, oms.ledger.enter_some (.amended record.clientOrderId
      (wire.newPrice.getD "") (wire.newQuantity.getD "") ack.exchangeOrderId) h rfl,
    amendAcked_fst, ledger_settle, hid]

theorem amendOutcome_ledger (oms : Oms) (command : AmendCommand) (wire : AmendRequest)
    (placement : Result OrderPlacement) :
    (oms.amendOutcome command wire placement).1.ledger =
      oms.ledger.enterAll (oms.amendedEntries command.clientOrderId wire placement) := by
  have hd := oms.ledger_drainRacedReports command.clientOrderId
  have hp := oms.persists_drainRacedReports command.clientOrderId
  have hb := oms.drainRacedReports_snd command.clientOrderId
  have hl := oms.lookup_drainRacedReports command.clientOrderId command.clientOrderId
  unfold amendOutcome amendedEntries discoveredEntries
  rw [← hd, ← hp, ← hb, ← hl]
  rcases oms.drainRacedReports command.clientOrderId with ⟨drained, raced⟩
  simp only
  cases hr : drained.lookup command.clientOrderId with
  | none =>
    refine (enterAll_of_unknown drained.ledger hr fun entry he => ?_).symm
    cases placement with
    | error error => exact mem_reportEntries he
    | ok ack => exact mem_ackedEntries ⟨rfl, rfl⟩ he
  | some record =>
    have hkey : record.clientOrderId = command.clientOrderId := KeyedList.key_of_find? hr
    rw [← hkey] at hr ⊢
    cases placement with
    | error error =>
      simp only [amendFailed]
      split
      · exact discovered_applyReports_ledger hr _ raced
      · exact applyReports_eq hr raced
    | ok ack => exact amendAcked_ledger hr wire ack raced

/-! ### Reconciliation -/

theorem reconcileSnapshot_ledger (oms : Oms) (venue : String) (report : ReconcileReport)
    (snapshot : OrderSnapshot) (hid : snapshot.clientOrderId ≠ "")
    (hraced : snapshot.clientOrderId ∉ oms.racedReports) :
    (reconcileSnapshot venue (oms, report) snapshot).1.ledger =
      oms.ledger.enter (.listed venue snapshot) := by
  unfold reconcileSnapshot
  simp only [hid, hraced, or_self, if_false]
  cases hl : oms.lookup snapshot.clientOrderId with
  | none =>
    rw [oms.ledger.enter_some (.listed venue snapshot) hl rfl]
    exact congrArg (Ledger.store · _) (oms.ledger_appendEvent _)
  | some record =>
    rw [oms.ledger.enter_some (.listed venue snapshot) hl rfl]
    dsimp only
    rcases refreshed record snapshot with ⟨new, _ | _⟩
    · exact (Ledger.append_nil _).symm
    · exact ledger_appendEvent _ _

/-! ### Frames -/

/-- A view of the state that no write of a record and no append touches. -/
structure Apart {γ : Type} (view : Oms → γ) : Prop where
  store : ∀ oms record, view (oms.store record) = view oms
  logged : ∀ oms event, view (oms.logged event) = view oms
  countLogFailure : ∀ oms, view (oms.countLogFailure) = view oms
  adopt : ∀ oms record id, view (oms.adoptUnknownLeg record id).1 = view oms
  rehash : ∀ (oms : Oms) orders, view { oms with orders := orders } = view oms

theorem frame_apart : Apart frame := ⟨fun _ _ => rfl, fun _ _ => rfl, fun _ => rfl,
  fun _ _ _ => rfl, fun _ _ => rfl⟩

section Apart

variable {γ : Type} {view : Oms → γ} (h : Apart view)

include h

theorem Apart.of_appendOrError {oms oms' : Oms} {event : Json} {error : Option Error}
    (ha : oms.appendOrError event = (oms', error)) : view oms' = view oms := by
  obtain ⟨-, he⟩ | ⟨-, error', he⟩ := oms.appendOrError_cases event
  all_goals
    obtain rfl : oms.logged event = oms' := congrArg Prod.fst (he.symm.trans ha)
    exact h.logged oms event

theorem Apart.appendEvent (oms : Oms) (event : Json) :
    view (oms.appendEvent event) = view oms := by
  unfold Oms.appendEvent
  split
  · rename_i heq
    exact h.of_appendOrError heq
  · rename_i heq
    exact (h.countLogFailure _).trans (h.of_appendOrError heq)

theorem Apart.recordRiskRejection (oms : Oms) (record : OrderRecord) (rejection : Error) :
    view (oms.recordRiskRejection record rejection).1 = view oms := by
  unfold Oms.recordRiskRejection
  dsimp only
  split
  · rename_i heq
    exact (h.store _ _).trans (h.of_appendOrError heq)
  · rename_i heq
    exact (h.countLogFailure _).trans ((h.store _ _).trans (h.of_appendOrError heq))

theorem Apart.reconcileSnapshot (oms : Oms) (venue : String) (report : ReconcileReport)
    (snapshot : OrderSnapshot) :
    view (Oms.reconcileSnapshot venue (oms, report) snapshot).1 = view oms := by
  unfold Oms.reconcileSnapshot
  dsimp only
  split
  · rfl
  · split
    · exact (h.store _ _).trans (h.appendEvent oms _)
    · split
      · exact (h.appendEvent _ _).trans (h.store oms _)
      · exact h.store oms _

theorem Apart.reconcileListing (oms : Oms) (venue : String) (pending : List OrderSnapshot)
    (report : ReconcileReport) :
    view (oms.reconcileListing venue pending report).1 = view oms := by
  unfold Oms.reconcileListing
  induction pending generalizing oms report with
  | nil => rfl
  | cons snapshot pending ih =>
    exact (ih _ _).trans (h.reconcileSnapshot oms venue report snapshot)

private theorem Apart.resolveSnapshot (oms : Oms) (record : OrderRecord)
    (snapshot : OrderSnapshot) (report : ReconcileReport) :
    view (oms.resolveSnapshot record snapshot report).1 = view oms := by
  unfold Oms.resolveSnapshot
  dsimp only
  split_ifs
  all_goals simp only [h.appendEvent, h.store, h.adopt]

private theorem Apart.resolveAbsent (oms : Oms) (record : OrderRecord) :
    view (oms.resolveAbsent record) = view oms := by
  unfold Oms.resolveAbsent
  split
  · simp only [h.appendEvent, h.store]
  · rfl

theorem Apart.reconcileItem (oms : Oms) (item : WorkItem)
    (answer : Result (Option OrderSnapshot)) (report : ReconcileReport) :
    view (oms.reconcileItem item answer report).1 = view oms := by
  unfold Oms.reconcileItem
  split
  · rfl
  · split
    · exact h.resolveSnapshot _ _ _ _
    · split
      · exact h.resolveAbsent _ _
      · rfl

theorem Apart.cancelOutcome (oms : Oms) (id : String) (placement : Result OrderPlacement) :
    view (oms.cancelOutcome id placement).1 = view oms := by
  unfold Oms.cancelOutcome
  dsimp only
  repeat' split
  all_goals simp only [h.appendEvent, h.store]

theorem Apart.placeRejected (oms : Oms) (record : OrderRecord) (error : Error) :
    view (oms.placeRejected record error) = view oms := by
  unfold Oms.placeRejected
  dsimp only
  split
  · exact (h.appendEvent _ _).trans (h.store oms _)
  · rfl

end Apart

theorem frame_applyReport (oms : Oms) (record : OrderRecord) (report : ExecutionReport)
    (lifecycle : Bool) : (oms.applyReport record report lifecycle).1.frame = oms.frame := by
  unfold applyReport
  dsimp only
  split_ifs
  all_goals first | rfl | exact frame_apart.appendEvent _ _

theorem frame_applyArbitratedReport (oms : Oms) (record : OrderRecord)
    (report : ExecutionReport) :
    (oms.applyArbitratedReport record report).1.frame = oms.frame := by
  unfold applyArbitratedReport
  dsimp only
  split
  · split <;> exact frame_applyReport _ _ _ _
  · exact frame_applyReport _ _ _ _

theorem frame_applyReports (oms : Oms) (record : OrderRecord) (reports : List ExecutionReport) :
    (oms.applyReports record reports).1.frame = oms.frame := by
  induction reports generalizing oms record with
  | nil => rfl
  | cons report reports ih => exact (ih _ _).trans (frame_applyArbitratedReport _ _ _)

private theorem frame_settle (oms : Oms) (record : OrderRecord) (event : Json)
    (raced : List ExecutionReport) : (oms.settle record event raced).frame = oms.frame := by
  unfold settle
  split
  · rw [frame_applyReports]
    rfl
  · rfl

theorem frame_placeOutcome (oms : Oms) (request : OrderRequest)
    (placement : Result OrderPlacement) :
    (oms.placeOutcome request placement).1.frame =
      (oms.drainRacedReports request.clientOrderId).1.frame := by
  unfold placeOutcome
  dsimp only
  split
  · rfl
  · split
    · split
      · exact frame_apart.placeRejected _ _ _
      · exact frame_applyReports _ _ _
    · rw [placeAcked_fst]
      exact frame_settle _ _ _ _

private theorem frame_amendFailed (oms : Oms) (record : OrderRecord)
    (raced : List ExecutionReport) : (oms.amendFailed record raced).frame = oms.frame := by
  unfold amendFailed
  dsimp only
  rw [frame_applyReports]
  split <;> rfl

theorem frame_amendOutcome (oms : Oms) (command : AmendCommand) (wire : AmendRequest)
    (placement : Result OrderPlacement) :
    (oms.amendOutcome command wire placement).1.frame =
      (oms.drainRacedReports command.clientOrderId).1.frame := by
  unfold amendOutcome
  dsimp only
  split
  · rfl
  · split
    · exact frame_amendFailed _ _ _
    · rw [amendAcked_fst]
      exact frame_settle _ _ _ _

/-! ### Reconciliation as entries -/

theorem reconcileListing_ledger (oms : Oms) (venue : String) (pending : List OrderSnapshot)
    (report : ReconcileReport) :
    (oms.reconcileListing venue pending report).1.ledger =
      oms.ledger.enterAll (oms.listedEntries venue pending) := by
  unfold reconcileListing
  induction pending generalizing oms report with
  | nil => rfl
  | cons snapshot pending ih =>
    have hframe := congrArg Prod.snd (frame_apart.reconcileSnapshot oms venue report snapshot)
    have hrest := ih (reconcileSnapshot venue (oms, report) snapshot).1
      (reconcileSnapshot venue (oms, report) snapshot).2
    rw [List.foldl_cons, hrest]
    simp only [listedEntries, show (reconcileSnapshot venue (oms, report) snapshot).1.racedReports =
      oms.racedReports from hframe]
    by_cases hskip : snapshot.clientOrderId = "" ∨ snapshot.clientOrderId ∈ oms.racedReports
    · have hsame : (reconcileSnapshot venue (oms, report) snapshot).1 = oms := by
        simp [reconcileSnapshot, hskip]
      simp only [List.filter_cons, hskip, decide_true, Bool.not_true, Bool.false_eq_true,
        if_false, hsame]
    · obtain ⟨hid, hraced⟩ := not_or.mp hskip
      simp only [List.filter_cons, hskip, decide_false, Bool.not_false, if_true, List.map_cons,
        Ledger.enterAll_cons, reconcileSnapshot_ledger oms venue report snapshot hid hraced]

private theorem resolveSnapshot_ledger {oms : Oms} {record : OrderRecord}
    (h : oms.lookup record.clientOrderId = some record) (snapshot : OrderSnapshot)
    (report : ReconcileReport) :
    (oms.resolveSnapshot record snapshot report).1.ledger =
      oms.ledger.enter (.resolved record.clientOrderId snapshot) := by
  have h' : oms.ledger.orders.find? record.clientOrderId = some record := h
  have henter := oms.ledger.enter_some (.resolved record.clientOrderId snapshot) h rfl
  have hstore (new : OrderRecord) (hnew : new.clientOrderId = record.clientOrderId) :
      (oms.ledger.store (record.noteExchangeId snapshot.exchangeOrderId)).store new =
        oms.ledger.store new := Ledger.store_store h' (by simp) hnew (by simp)
  have hid : (observeSnapshot (record.noteExchangeId snapshot.exchangeOrderId)
      snapshot).1.clientOrderId = record.clientOrderId := by simp [observeSnapshot]
  rw [henter]
  unfold resolveSnapshot
  by_cases hb : record.exchangeOrderId = "" ∧ snapshot.exchangeOrderId ≠ ""
  · have hres : record.resolve snapshot = ((observeSnapshot
        (record.noteExchangeId snapshot.exchangeOrderId) snapshot).1, true) := by
      simp [OrderRecord.resolve, hb]
    rw [if_pos hb, hres]
    simp only [Bool.true_or, if_true, ledger_appendEvent, ledger_store, hstore _ hid]
  · rw [if_neg hb]
    by_cases ha : snapshot.exchangeOrderId ≠ "" ∧
        record.legIndexOf snapshot.exchangeOrderId = none
    · have hres : record.resolve snapshot = ((observeSnapshot
          (record.noteExchangeId snapshot.exchangeOrderId) snapshot).1, true) := by
        simp [OrderRecord.resolve, ha]
      rw [if_pos ha, hres]
      simp only [Bool.true_or, if_true, ledger_appendEvent, ledger_store, ledger_adoptUnknownLeg]
      exact congrArg (Ledger.append · _) (hstore _ hid)
    · have hres : record.resolve snapshot = observeSnapshot record snapshot := by
        have hl : (snapshot.exchangeOrderId ≠ "" && (record.exchangeOrderId = "" ||
            (record.legIndexOf snapshot.exchangeOrderId).isNone)) = false := by
          by_cases he : snapshot.exchangeOrderId = ""
          · simp [he]
          · simp only [ne_eq, he, not_false_eq_true, and_true, true_and] at hb ha
            simp [he, hb, Option.isSome_iff_ne_none, ha]
        simp only [OrderRecord.resolve, hl, Bool.false_eq_true, if_false, Bool.false_or]
      rw [if_neg ha, hres]
      simp only [Bool.false_or]
      split <;> simp

private theorem resolveAbsent_ledger {oms : Oms} {record : OrderRecord}
    (h : oms.lookup record.clientOrderId = some record) :
    (oms.resolveAbsent record).ledger = oms.ledger.enter (.absent record.clientOrderId) := by
  by_cases ht : isTerminal record.state
  · rw [oms.ledger.enter_none (.absent record.clientOrderId) h (by simp [Entry.write, ht])]
    simp [resolveAbsent, applyTransition_of_terminal ht]
  · have hc : canTransition record.state .rejected := canTransition_rejected_iff.mpr ht
    rw [oms.ledger.enter_some (.absent record.clientOrderId) h
      (by simp only [Entry.write, ht]; rfl)]
    simp only [resolveAbsent, applyTransition_eq, hc, if_true, ledger_appendEvent,
      Ledger.append_append]
    rfl

theorem reconcileItem_ledger (oms : Oms) (item : WorkItem)
    (answer : Result (Option OrderSnapshot)) (report : ReconcileReport) :
    (oms.reconcileItem item answer report).1.ledger =
      oms.ledger.enterAll (resolvedEntries item answer) := by
  unfold reconcileItem resolvedEntries
  cases hr : oms.lookup item.id with
  | none =>
    refine (enterAll_of_unknown oms.ledger hr fun entry he => ?_).symm
    split at he
    · obtain rfl := List.mem_singleton.mp he
      exact ⟨rfl, rfl⟩
    · split at he
      · obtain rfl := List.mem_singleton.mp he
        exact ⟨rfl, rfl⟩
      · cases he
  | some record =>
    have hkey : record.clientOrderId = item.id := KeyedList.key_of_find? hr
    rw [← hkey] at hr ⊢
    rcases answer with error | _ | snapshot
    · dsimp only
      split
      · exact resolveAbsent_ledger hr
      · rfl
    · exact resolveAbsent_ledger hr
    · exact resolveSnapshot_ledger hr snapshot report

end Oms

namespace System

theorem place_oms (s : System) (request : OrderRequest) (venue : String) :
    (s.place request venue).oms = (s.oms.placeStage request venue).1 := by
  unfold place
  split <;> simp [*]

theorem amend_oms (s : System) (command : AmendCommand) :
    (s.amend command).oms = (s.oms.amendStage command).1 := by
  unfold amend
  split <;> simp [*]

theorem cancel_oms (s : System) (id : String) : (s.cancel id).oms = s.oms := by
  unfold cancel
  split <;> rfl

/-- One step of an incarnation writes its entries and nothing else. -/
theorem step_ledger {s t : System} {a : Action} (h : s.step a = some t) (ha : a.live)
    (hr : ∀ orders, a ≠ .rehash orders) :
    t.oms.ledger = s.oms.ledger.enterAll (s.entries a) := by
  cases a with
  | place request venue =>
    obtain rfl := Option.some.inj h
    rw [place_oms]
    exact s.oms.placeStage_ledger request venue
  | send i =>
    simp only [step, send] at h
    split at h
    · obtain rfl := Option.some.inj h
      rfl
    · cases h
  | placed i placement =>
    simp only [step, placed] at h
    split at h
    · rename_i hc
      obtain rfl := Option.some.inj h
      simp only [entries, hc]
      exact s.oms.placeOutcome_ledger _ placement
    · cases h
  | cancel id =>
    obtain rfl := Option.some.inj h
    rw [cancel_oms]
    rfl
  | canceled i placement =>
    simp only [step, canceled] at h
    split at h
    · rename_i hc
      obtain rfl := Option.some.inj h
      simp only [entries, hc]
      exact s.oms.cancelOutcome_ledger _ placement
    · cases h
  | amend command =>
    obtain rfl := Option.some.inj h
    rw [amend_oms]
    exact s.oms.amendStage_ledger command
  | amended i placement =>
    simp only [step, amended] at h
    split at h
    · rename_i hc
      obtain rfl := Option.some.inj h
      simp only [entries, hc]
      exact s.oms.amendOutcome_ledger _ _ placement
    · cases h
  | report report =>
    obtain rfl := Option.some.inj h
    exact s.oms.onExecutionReport_ledger report
  | reconcile =>
    obtain rfl := Option.some.inj h
    rfl
  | listed i pending =>
    simp only [step, listed] at h
    split at h
    · rename_i hc
      cases pending with
      | error error =>
        obtain rfl := Option.some.inj h
        rfl
      | ok pending =>
        obtain rfl := Option.some.inj h
        simp only [entries, hc]
        exact s.oms.reconcileListing_ledger _ pending _
    · cases h
  | collect i =>
    simp only [step, collect] at h
    split at h
    · obtain rfl := Option.some.inj h
      rfl
    · cases h
  | resolved i answer =>
    simp only [step, resolved] at h
    split at h
    · rename_i hc
      split at h
      · rename_i hn
        obtain rfl := Option.some.inj h
        simp only [entries, hc, hn]
        rfl
      · rename_i hn
        obtain rfl := Option.some.inj h
        simp only [entries, hc, hn, Option.isSome_some, if_true]
        exact s.oms.reconcileItem_ledger _ answer _
    · cases h
  | finish i =>
    simp only [step, finish] at h
    split at h
    · obtain rfl := Option.some.inj h
      rfl
    · cases h
  | rehash orders => exact absurd rfl (hr orders)
  | restart config logOpen => cases ha

end System

end ExchangeGateway
