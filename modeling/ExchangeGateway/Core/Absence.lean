import ExchangeGateway.Core.Exclusive

/-! An absence verdict of a reconciliation. The lookup is made without the lock; the section that
applies its answer looks at the transition table only, not at what happened since the order was
collected. -/
namespace ExchangeGateway

/-- The venue confirms the order: a report moves its state or its fill, or an amend ack installs a
leg. -/
def Entry.confirms (record : OrderRecord) : Entry → Bool
  | .reported _ report =>
    (record.arbitrate report).1.state ≠ record.state ||
      (record.arbitrate report).1.filledQuantity ≠ record.filledQuantity
  | .amended _ _ _ id => id ≠ ""
  | _ => false

namespace System

variable {s t : System} {a : Action}

def Confirms (s : System) (a : Action) (id : String) : Prop :=
  ∃ before entry after record, s.entries a = before ++ entry :: after ∧ entry.key = id ∧
    (s.oms.ledger.enterAll before).orders.find? id = some record ∧ entry.confirms record

def ConfirmedRun (id : String) (s t : System) : Prop :=
  ∃ u a v, LiveRun s u ∧ a.live ∧ u.Confirms a id ∧ u.step a = some v ∧ LiveRun v t

theorem staged_run {config : Config} {log : Option EventLog} (h : Run (boot config log) s) :
    s.Staged :=
  Transition.Reaches.invariant (I := Staged) (fun _ _ _ hI _ hs => hI.step hs) h
    (boot_staged config log)

/-- The verdict spares a record only when that is terminal. -/
private theorem lookup_absent_iff {record : OrderRecord} {ledger : Ledger} {id : String}
    (hr : ledger.orders.find? id = some record) :
    (ledger.enter (.absent id)).orders.find? id = some record ↔ isTerminal record.state := by
  have hfind := ledger.find?_enter (.absent id) id
  have hkey : (Entry.absent id).key = id := rfl
  rw [if_pos hkey, hkey, hr] at hfind
  by_cases ht : isTerminal record.state
  · simp only [Entry.write, ht, if_true, Option.none_or] at hfind
    simp [hfind, ht]
  · simp only [Entry.write, ht, Bool.false_eq_true, if_false, Option.some_or] at hfind
    rw [hfind]
    constructor
    · intro he
      have hstate := congrArg OrderRecord.state (Option.some.inj he)
      have hrejected : OrderState.rejected = record.state := hstate
      rw [← hrejected]
      rfl
    · exact fun h => absurd h ht

/-- The order was collected, then confirmed, then its absence is applied: the record stays as it is
exactly when it is terminal by then. -/
theorem absence_spares_iff (config : Config) (log : Option EventLog) {s₀ s₁ s₂ t : System}
    (h₀ : Run (boot config log) s₀) {i j : ℕ} (hcollect : s₀.step (.collect i) = some s₁)
    {item : WorkItem} (_ : item ∈ s₀.oms.reconcileWorklist)
    (hconfirmed : ConfirmedRun item.id s₁ s₂) {items : List WorkItem} {report : ReconcileReport}
    (hcall : s₂.calls[j]? = some (.resolving (item :: items) report))
    (hvenue : (s₂.oms.connectorFor item.venue).isSome) (answer : Result (Option OrderSnapshot))
    (habsent : Oms.conclusivelyAbsent answer) (hs : s₂.step (.resolved j answer) = some t) :
    t.oms.lookup item.id = s₂.oms.lookup item.id ↔
      ∃ record, s₂.oms.lookup item.id = some record ∧ isTerminal record.state := by
  have hrun : Run (boot config log) s₂ := by
    obtain ⟨u, a, v, hu, -, -, hstep, hv⟩ := hconfirmed
    have hfirst := (h₀.snoc trivial hcollect).trans (hu.mono fun _ _ _ => trivial)
    exact (hfirst.snoc trivial hstep).trans (hv.mono fun _ _ _ => trivial)
  have houtside := (staged_run hrun).items _ _ (List.mem_of_getElem? hcall) item
    List.mem_cons_self
  obtain ⟨record, hr⟩ := KeyedList.mem_iff.mp houtside.1
  have hrecord : s₂.oms.lookup item.id = some record := hr
  have hentries : s₂.entries (.resolved j answer) = [.absent item.id] := by
    simp only [entries, hcall, hvenue, if_true]
    cases answer with
    | error error => simp [Oms.resolvedEntries, habsent]
    | ok found =>
      cases found with
      | none => simp [Oms.resolvedEntries, habsent]
      | some snapshot => cases habsent
  have hledger := step_ledger hs rfl fun _ h => by cases h
  rw [hentries] at hledger
  rw [hrecord, Oms.lookup_of_ledger hledger]
  refine (lookup_absent_iff hr).trans ⟨fun ht => ⟨record, rfl, ht⟩, ?_⟩
  rintro ⟨record', he, ht⟩
  rw [Option.some.inj he]
  exact ht

/-! ### Both outcomes, on a place of unknown fate -/

def unknownOutcome : List Action :=
  [.place .sample "", .send 0, .placed 0 (.error ⟨"transport", "timeout"⟩), .reconcile,
    .listed 0 (.ok [])]

/-- Its order is about to be collected for lookup. -/
def uncollected : System :=
  (Transition.exec step (fun _ _ => True) (boot .sample (some .fresh)) unknownOutcome).get
    (by decide)

def collected : System := (uncollected.step (.collect 0)).get (by decide)

def unknownItem : WorkItem := ⟨"c1", "binance", ⟨"c1", "BTCUSDT"⟩⟩

private theorem uncollected_run : Run (boot .sample (some .fresh)) uncollected :=
  Transition.reaches_get_exec _

private theorem confirmedRun_report (s : System) (report : ExecutionReport) {record : OrderRecord}
    (hentries : s.entries (.report report) = [.reported report.clientOrderId report])
    (hr : s.oms.lookup report.clientOrderId = some record)
    (hc : (Entry.reported report.clientOrderId report).confirms record) :
    ConfirmedRun report.clientOrderId s (s.report report) :=
  ⟨s, .report report, s.report report, .refl s, rfl, ⟨[], _, [], record, hentries, rfl, hr, hc⟩,
    rfl, .refl _⟩

/-- The order fills before its absence is applied. -/
theorem absence_spares_filled : ∃ t,
    (collected.report ⟨"c1", "1", .filled, .buy, "5", "100"⟩).step (.resolved 0 (.ok none)) =
      some t ∧
    (t.oms.lookup "c1").map OrderRecord.state = some .filled ∧
    t.oms.lookup "c1" =
      (collected.report ⟨"c1", "1", .filled, .buy, "5", "100"⟩).oms.lookup "c1" := by
  have hcollect : uncollected.step (.collect 0) = some collected := rfl
  have hitem : unknownItem ∈ uncollected.oms.reconcileWorklist := List.mem_singleton.mpr rfl
  have hconfirmed : ConfirmedRun unknownItem.id collected _ :=
    confirmedRun_report collected ⟨"c1", "1", .filled, .buy, "5", "100"⟩ rfl rfl rfl
  have hspares := absence_spares_iff .sample (some .fresh) uncollected_run hcollect hitem
    hconfirmed (j := 0) rfl rfl (.ok none) rfl rfl
  exact ⟨_, rfl, rfl, hspares.mpr ⟨_, rfl, rfl⟩⟩

/-- The order goes live before its absence is applied, and is rejected all the same. -/
theorem absence_kills_live : ∃ s₂ t, Run (boot .sample (some .fresh)) uncollected ∧
    uncollected.step (.collect 0) = some collected ∧
    unknownItem ∈ uncollected.oms.reconcileWorklist ∧
    ConfirmedRun unknownItem.id collected s₂ ∧
    s₂.calls[0]? = some (.resolving [unknownItem] {}) ∧
    s₂.step (.resolved 0 (.ok none)) = some t ∧
    (s₂.oms.lookup "c1").map OrderRecord.state = some .live ∧
    (t.oms.lookup "c1").map OrderRecord.state = some .rejected := by
  have hitem : unknownItem ∈ uncollected.oms.reconcileWorklist := List.mem_singleton.mpr rfl
  have hconfirmed : ConfirmedRun unknownItem.id collected _ :=
    confirmedRun_report collected ⟨"c1", "1", .live, .buy, "0", ""⟩ rfl rfl rfl
  exact ⟨_, _, uncollected_run, rfl, hitem, hconfirmed, rfl, rfl, rfl, rfl⟩

end System

end ExchangeGateway
