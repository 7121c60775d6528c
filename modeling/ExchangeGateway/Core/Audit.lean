import ExchangeGateway.Core.DecimalArith
import ExchangeGateway.Core.Oms

/-! The consistency audit (`core/oms.cpp`): local invariants of every record, then each
non-terminal order against its venue. A venue call happens between two sections of the lock. -/
namespace ExchangeGateway
open Decimal

structure ConsistencyAlert where
  clientOrderId : String
  check : String
  detail : String
  deriving DecidableEq, Repr

structure AuditReport where
  alerts : List ConsistencyAlert := []
  ordersChecked : ℕ := 0
  venueLookups : ℕ := 0
  lookupFailures : ℕ := 0
  deriving DecidableEq, Repr

structure AuditItem where
  id : String
  venue : String
  query : OrderQuery
  deriving DecidableEq, Repr

namespace OrderRecord

/-- The leg chain: versions count from one, and the newest leg is the current order. -/
def auditLegs (record : OrderRecord) : List ConsistencyAlert :=
  (match record.legs.zipIdx.find? fun entry => entry.1.version ≠ entry.2 + 1 with
    | some (leg, index) =>
      [⟨record.clientOrderId, "version_gap",
        "leg " ++ toString (index + 1) ++ " carries version " ++ toString leg.version ++
          "; expected a contiguous 1.." ++ toString record.legs.length ++ " chain"⟩]
    | none => []) ++
  match record.legs.getLast? with
  | some leg =>
    if leg.exchangeOrderId ≠ record.exchangeOrderId then
      [⟨record.clientOrderId, "version_gap",
        "current exchangeOrderId " ++ record.exchangeOrderId ++ " != newest leg id " ++
          leg.exchangeOrderId⟩]
    else []
  | none => []

def auditFill (record : OrderRecord) : List ConsistencyAlert :=
  match parseDecimal record.filledText, parseDecimal record.quantity with
  | .ok filled, .ok quantity =>
    if quantity.isZero then []
    else if record.state ≠ .filled ∧ filled.compare quantity ≥ 0 then
      [⟨record.clientOrderId, "fill_state_mismatch",
        "filledQuantity " ++ record.filledQuantity ++ " reached quantity " ++ record.quantity ++
          " but state is " ++ record.state.toString⟩]
    else if record.state = .filled ∧ filled.compare quantity < 0 then
      [⟨record.clientOrderId, "fill_state_mismatch",
        "state is filled but filledQuantity " ++ record.filledQuantity ++ " is below quantity " ++
          record.quantity⟩]
    else []
  | _, _ => []

def auditRecordLocal (record : OrderRecord) : List ConsistencyAlert :=
  record.auditLegs ++ record.auditFill

end OrderRecord

/-- An empty text counts as "0". -/
def orZero (text : String) : String := if text = "" then "0" else text

/-- Texts that do not parse are not evidence of drift. -/
def compareDecimal (localText venueText : String) : Option ℤ :=
  match parseDecimal (orZero localText), parseDecimal (orZero venueText) with
  | .ok lhs, .ok rhs => some (lhs.compare rhs)
  | _, _ => none

/-- One comparison of a field of the record with that of the snapshot. -/
def auditField (id check field localText venueText : String) : List ConsistencyAlert :=
  match compareDecimal localText venueText with
  | some relation =>
    if relation ≠ 0 then
      [⟨id, check, "local " ++ field ++ " " ++ localText ++ ", venue " ++ venueText⟩]
    else []
  | none => []

namespace OrderRecord

def auditUnknownLeg (record : OrderRecord) (snapshot : OrderSnapshot) : List ConsistencyAlert :=
  if snapshot.exchangeOrderId ≠ "" ∧ (record.legIndexOf snapshot.exchangeOrderId).isNone then
    [⟨record.clientOrderId, "unknown_leg_report",
      "venue snapshot carries exchangeOrderId " ++ snapshot.exchangeOrderId ++
        " absent from the leg table (reconcile adopts it on the next pass)"⟩]
  else []

def auditState (record : OrderRecord) (snapshot : OrderSnapshot) : List ConsistencyAlert :=
  if snapshot.state ≠ record.state then
    [⟨record.clientOrderId, "state_mismatch",
      "local " ++ record.state.toString ++ ", venue " ++ snapshot.state.toString⟩]
  else []

def auditRecordVsSnapshot (record : OrderRecord) (snapshot : OrderSnapshot) :
    List ConsistencyAlert :=
  record.auditUnknownLeg snapshot ++ record.auditState snapshot ++
    auditField record.clientOrderId "fill_mismatch" "filledQuantity" record.filledQuantity
      snapshot.filledQuantity ++
    auditField record.clientOrderId "price_qty_mismatch" "price" record.price snapshot.price ++
    auditField record.clientOrderId "price_qty_mismatch" "quantity" record.quantity
      snapshot.quantity

end OrderRecord

namespace Oms

/-- An open place or amend call owns its order: it is not looked up. -/
def auditWork (oms : Oms) : List AuditItem :=
  oms.orders.toList.filterMap fun record =>
    if !isTerminal record.state && !decide (record.clientOrderId ∈ oms.racedReports) then
      some ⟨record.clientOrderId, if record.venue = "" then oms.defaultVenue else record.venue,
        ⟨record.clientOrderId, record.symbol⟩⟩
    else none

/-- The first section: local invariants, the notes of adopted legs, and the worklist. -/
def auditBegin (oms : Oms) : Oms × AuditReport × List AuditItem :=
  ({ oms with discoveredLegNotes := [] },
    { ordersChecked := oms.orders.toList.length
      alerts := oms.orders.toList.flatMap OrderRecord.auditRecordLocal ++
        oms.discoveredLegNotes.map fun note =>
          ⟨note.1, "unknown_leg_report",
            "execution report carried exchangeOrderId " ++ note.2 ++
              " absent from the leg table; adopted as a new leg (lost amend ack?)"⟩ },
    oms.auditWork)

/-- What a work item adds: `oms` is the state in which the lock is taken again, after the venue
gave the answer. -/
def auditItem (oms : Oms) (report : AuditReport) (item : AuditItem)
    (answer : Result (Option OrderSnapshot)) : AuditReport :=
  if (oms.connectorFor item.venue).isNone then
    { report with
      lookupFailures := report.lookupFailures + 1
      alerts := report.alerts ++
        [⟨item.id, "lookup_failed", "no connector for venue \"" ++ item.venue ++ "\""⟩] }
  else
    let report := { report with venueLookups := report.venueLookups + 1 }
    match oms.lookup item.id with
    | none => report
    | some record =>
      match answer with
      | .error error =>
        { report with
          lookupFailures := report.lookupFailures + 1
          alerts := report.alerts ++
            [⟨item.id, "lookup_failed", error.code ++ ": " ++ error.message⟩] }
      | .ok none =>
        { report with
          alerts := report.alerts ++
            [⟨item.id, "venue_unknown",
              "non-terminal locally (" ++ record.state.toString ++
                ") but the venue does not know the order"⟩] }
      | .ok (some snapshot) =>
        { report with alerts := report.alerts ++ record.auditRecordVsSnapshot snapshot }

/-- A whole pass: `visit` gives, for each work item, the venue's answer and the state found after
it. -/
def audit (oms : Oms) (visit : AuditItem → Oms × Result (Option OrderSnapshot)) : AuditReport :=
  let (_, report, items) := oms.auditBegin
  items.foldl (fun report item => (visit item).1.auditItem report item (visit item).2) report

end Oms

/-! ### Drift -/

/-- The checks that compare a field of the record with that of the snapshot. -/
def ConsistencyAlert.IsDrift (alert : ConsistencyAlert) : Prop :=
  alert.check = "fill_mismatch" ∨ alert.check = "price_qty_mismatch"

theorem compare_eq_zero_iff {a b : Decimal} (ha : a.Fits) (hb : b.Fits) :
    a.compare b = 0 ↔ a.value = b.value := by
  rw [compare_eq_sign ha hb, ← sub_eq_zero (a := a.value),
    ← sign_eq_zero_iff (a := a.value - b.value)]
  generalize SignType.sign (a.value - b.value) = sign
  cases sign <;> decide

def Differs (x y : String) : Prop :=
  ∃ a b, parseDecimal (orZero x) = .ok a ∧ parseDecimal (orZero y) = .ok b ∧ a.value ≠ b.value

theorem auditField_ne_nil_iff {id check field x y : String} :
    auditField id check field x y ≠ [] ↔ Differs x y := by
  unfold auditField compareDecimal Differs
  cases hx : parseDecimal (orZero x) with
  | error error => simp
  | ok a =>
    cases hy : parseDecimal (orZero y) with
    | error error => simp
    | ok b =>
      have hzero := compare_eq_zero_iff (parseDecimal_fits hx) (parseDecimal_fits hy)
      simp [hzero]

theorem OrderRecord.auditLegs_not_drift (record : OrderRecord) :
    ∀ alert ∈ record.auditLegs, ¬ alert.IsDrift := by
  intro alert hmem
  unfold auditLegs at hmem
  rcases List.mem_append.mp hmem with hmem | hmem
  · split at hmem
    · rw [List.mem_singleton.mp hmem]
      simp [ConsistencyAlert.IsDrift]
    · cases hmem
  · split at hmem
    · split_ifs at hmem
      · rw [List.mem_singleton.mp hmem]
        simp [ConsistencyAlert.IsDrift]
      · cases hmem
    · cases hmem

theorem OrderRecord.auditFill_not_drift (record : OrderRecord) :
    ∀ alert ∈ record.auditFill, ¬ alert.IsDrift := by
  intro alert hmem
  unfold auditFill at hmem
  split at hmem
  · split_ifs at hmem
    · cases hmem
    · rw [List.mem_singleton.mp hmem]
      simp [ConsistencyAlert.IsDrift]
    · rw [List.mem_singleton.mp hmem]
      simp [ConsistencyAlert.IsDrift]
    · cases hmem
  · cases hmem

/-- A comparison reports drift only if a field differs. -/
theorem OrderRecord.auditRecordVsSnapshot_drift {record : OrderRecord} {snapshot : OrderSnapshot}
    {alert : ConsistencyAlert} (hdrift : alert.IsDrift)
    (h : alert ∈ record.auditRecordVsSnapshot snapshot) :
    Differs record.filledQuantity snapshot.filledQuantity ∨ Differs record.price snapshot.price ∨
      Differs record.quantity snapshot.quantity := by
  have hfield {id check field x y : String} (hmem : alert ∈ auditField id check field x y) :
      Differs x y := auditField_ne_nil_iff.mp (List.ne_nil_of_mem hmem)
  unfold auditRecordVsSnapshot at h
  simp only [List.mem_append] at h
  rcases h with (((hleg | hstate) | hfill) | hprice) | hquantity
  · unfold auditUnknownLeg at hleg
    split_ifs at hleg
    · rw [List.mem_singleton.mp hleg] at hdrift
      simp [ConsistencyAlert.IsDrift] at hdrift
    · cases hleg
  · unfold auditState at hstate
    split_ifs at hstate
    · rw [List.mem_singleton.mp hstate] at hdrift
      simp [ConsistencyAlert.IsDrift] at hdrift
    · cases hstate
  · exact Or.inl (hfield hfill)
  · exact Or.inr (Or.inl (hfield hprice))
  · exact Or.inr (Or.inr (hfield hquantity))

namespace Oms

def Compares (visit : AuditItem → Oms × Result (Option OrderSnapshot)) (item : AuditItem)
    (record : OrderRecord) (snapshot : OrderSnapshot) : Prop :=
  (visit item).1.lookup item.id = some record ∧ (visit item).2 = .ok (some snapshot)

theorem auditItem_drift {visit : AuditItem → Oms × Result (Option OrderSnapshot)}
    {report : AuditReport} {item : AuditItem} {alert : ConsistencyAlert} (hdrift : alert.IsDrift)
    (h : alert ∈ ((visit item).1.auditItem report item (visit item).2).alerts) :
    alert ∈ report.alerts ∨ ∃ record snapshot, Compares visit item record snapshot ∧
      alert ∈ record.auditRecordVsSnapshot snapshot := by
  have hother {check detail : String} (hcheck : check = "lookup_failed" ∨ check = "venue_unknown")
      (hmem : alert ∈ report.alerts ++ [⟨item.id, check, detail⟩]) : alert ∈ report.alerts := by
    rcases List.mem_append.mp hmem with hmem | hmem
    · exact hmem
    · rw [List.mem_singleton.mp hmem] at hdrift
      rcases hcheck with rfl | rfl <;> simp [ConsistencyAlert.IsDrift] at hdrift
  unfold auditItem at h
  split at h
  · exact Or.inl (hother (Or.inl rfl) h)
  · cases hlookup : (visit item).1.lookup item.id with
    | none =>
      rw [hlookup] at h
      exact Or.inl h
    | some record =>
      rw [hlookup] at h
      match hanswer : (visit item).2 with
      | .error error =>
        rw [hanswer] at h
        exact Or.inl (hother (Or.inl rfl) h)
      | .ok none =>
        rw [hanswer] at h
        exact Or.inl (hother (Or.inr rfl) h)
      | .ok (some snapshot) =>
        rw [hanswer] at h
        rcases List.mem_append.mp h with hmem | hmem
        · exact Or.inl hmem
        · exact Or.inr ⟨record, snapshot, ⟨hlookup, hanswer⟩, hmem⟩

/-- The local checks report no drift. -/
theorem auditBegin_drift {oms : Oms} {alert : ConsistencyAlert} (hdrift : alert.IsDrift) :
    alert ∉ oms.auditBegin.2.1.alerts := by
  intro hmem
  rcases List.mem_append.mp hmem with hmem | hmem
  · obtain ⟨record, -, hlocal⟩ := List.mem_flatMap.mp hmem
    rcases List.mem_append.mp hlocal with hlegs | hfill
    · exact record.auditLegs_not_drift alert hlegs hdrift
    · exact record.auditFill_not_drift alert hfill hdrift
  · obtain ⟨note, -, rfl⟩ := List.mem_map.mp hmem
    simp [ConsistencyAlert.IsDrift] at hdrift

theorem audit_drift {oms : Oms} {visit : AuditItem → Oms × Result (Option OrderSnapshot)}
    {alert : ConsistencyAlert} (hdrift : alert.IsDrift) (h : alert ∈ (oms.audit visit).alerts) :
    ∃ item ∈ oms.auditWork, ∃ record snapshot, Compares visit item record snapshot ∧
      alert ∈ record.auditRecordVsSnapshot snapshot := by
  -- induction over the worklist, for any report it starts from
  have hrun (items : List AuditItem) (report : AuditReport)
      (hmem : alert ∈ (items.foldl (fun report item =>
        (visit item).1.auditItem report item (visit item).2) report).alerts) :
      alert ∈ report.alerts ∨ ∃ item ∈ items, ∃ record snapshot,
        Compares visit item record snapshot ∧ alert ∈ record.auditRecordVsSnapshot snapshot := by
    induction items generalizing report with
    | nil => exact Or.inl hmem
    | cons item items ih =>
      rw [List.foldl_cons] at hmem
      rcases ih _ hmem with hstep | ⟨later, hlater, hfound⟩
      · rcases auditItem_drift hdrift hstep with hbefore | hfound
        · exact Or.inl hbefore
        · exact Or.inr ⟨item, List.mem_cons_self, hfound⟩
      · exact Or.inr ⟨later, List.mem_cons_of_mem _ hlater, hfound⟩
  rcases hrun _ _ h with hlocal | hfound
  · exact absurd hlocal (auditBegin_drift hdrift)
  · exact hfound

end Oms

end ExchangeGateway
