import ExchangeGateway.Core.Position
import ExchangeGateway.Core.Routing

/-! Observations that come too late: of a leg that was replaced, or of an order that is closed.
Reports are arbitrated by the leg table. A snapshot of a reconciliation is read without the lock
and applied with its state, price and quantity whatever its exchange id says. -/
namespace ExchangeGateway

namespace OrderRecord

def Identified (record : OrderRecord) : Prop :=
  (∃ leg ∈ record.legs, leg.exchangeOrderId ≠ "") → record.exchangeOrderId ≠ ""

variable {record new : OrderRecord} {id : String}

theorem Identified.of_eq (h : record.Identified)
    (hid : new.exchangeOrderId = record.exchangeOrderId) (hlegs : new.legs = record.legs) :
    new.Identified := by
  unfold Identified
  rw [hid, hlegs]
  exact h

theorem Identified.of_nil (hlegs : record.legs = []) : record.Identified := by
  rintro ⟨leg, hm, -⟩
  rw [hlegs] at hm
  cases hm

theorem Identified.step (h : record.Identified) (hstep : record.LegStep new) :
    new.Identified := by
  cases hstep with
  | same hid hlegs => exact h.of_eq hid hlegs
  | push id hne hid _ =>
    intro _
    rw [hid]
    exact hne

end OrderRecord

/-! ### Every reachable record is identified, after any replay too -/

theorem Entry.identified_write {entry : Entry} {old : Option OrderRecord} {new : OrderRecord}
    (hinserted : ∀ record, entry.inserted = some record → record.Identified)
    (hold : ∀ record, old = some record → record.Identified)
    (hw : (entry.write old).1 = some new) : new.Identified := by
  obtain hi | ⟨venue, snapshot, -, -, rfl⟩ | ⟨hi, record, rfl⟩ := write_cases hw
  · exact hinserted new hi
  · by_cases hid : snapshot.exchangeOrderId = ""
    · exact .of_nil (by simp [Oms.snapshotRecord, hid])
    · exact fun _ => hid
  · exact (hold record rfl).step (legStep_write hi hw)

namespace OrderRecord

private theorem identified_replayLeg {record : OrderRecord} (h : record.Identified)
    (version : ℕ) (id : String) : (record.replayLeg version id).Identified := by
  by_cases hid : id = ""
  · rintro ⟨leg, hm, hne⟩
    have hcurrent : record.exchangeOrderId ≠ "" := by
      apply h
      unfold replayLeg at hm
      dsimp only at hm
      rw [if_pos hid] at hm
      split at hm
      · exact ⟨leg, hm, hne⟩
      · rcases List.mem_append.mp hm with hm | hm
        · exact ⟨leg, hm, hne⟩
        · rw [List.mem_singleton.mp hm] at hne
          exact absurd hid hne
    simpa [replayLeg, hid] using hcurrent
  · intro _
    simp [replayLeg, hid]

private theorem identified_replayAmended {record : OrderRecord} (h : record.Identified)
    (event : Json) : (record.replayAmended event).Identified := by
  have hterms : (record.replayTerms event).Identified := h
  unfold replayAmended
  dsimp only
  split
  · have hnote := hterms.step ((record.replayTerms event).legStep_noteExchangeId
      ((eventString event "exchangeOrderId").getD ""))
    unfold replayLegacyAmend
    dsimp only
    split
    · exact hnote.of_eq rfl rfl
    · exact hnote
  · exact identified_replayLeg hterms _ _

private theorem identified_replayState {record : OrderRecord} (h : record.Identified)
    (event : Json) : (record.replayState event).Identified := by
  unfold replayState
  split
  · exact h
  · rename_i state _
    have hobserved := h.of_eq
      (exchangeOrderId_applyObservation record state
        ((eventString event "filledQuantity").getD "")
        ((eventString event "averageFillPrice").getD "") "" "" true)
      (legs_applyObservation record state _ _ _ _ _)
    dsimp only
    split
    · exact hobserved.step (legStep_noteExchangeId _ _)
    · exact hobserved

end OrderRecord

theorem identified_replay (defaultVenue : String) :
    ReplayInvariant OrderRecord.Identified defaultVenue where
  created type id event := by
    rintro ⟨leg, hm, -⟩ hid
    have hnil : (recordFromEvent defaultVenue type id event).legs = [] := if_pos hid
    rw [hnil] at hm
    cases hm
  rejected record event h := by
    rcases h with h | ⟨id, rfl⟩
    · exact h.of_eq rfl rfl
    · exact .of_nil rfl
  amended _ event h := OrderRecord.identified_replayAmended h event
  state _ event h := OrderRecord.identified_replayState h event

namespace System

variable {s t : System} {a : Action}

theorem Enters.identified_inserted {entry : Entry} (h : s.Enters a entry) {record : OrderRecord}
    (hb : entry.inserted = some record) : record.Identified := by
  cases h with
  | riskRejected _ _ _ | staged _ _ =>
    obtain rfl := Option.some.inj hb
    exact .of_nil rfl
  | _ => cases hb

theorem identified_run {config : Config} {log : Option EventLog} (h : Run (boot config log) s) :
    s.oms.ledger.Every OrderRecord.Identified := by
  refine every_run identified_replay (fun s a entry he old new hold hw => ?_) h
  exact Entry.identified_write (fun _ hb => he.identified_inserted hb) hold hw

end System

/-! ### What a stale observation does -/

namespace OrderRecord

theorem FillObserved.filledValue_le {old new : OrderRecord} {filled avgPrice : String}
    (h : old.FillObserved filled avgPrice new.filledQuantity new.averageFillPrice) :
    old.filledValue ≤ new.filledValue := by
  rcases h with ⟨hsame, -⟩ | ⟨reported, current, -, hr, hc, hgt, hnew, -⟩
  · simp [filledValue, filledText, hsame]
  · have hlt := (Decimal.compare_pos_iff (parseDecimal_fits hr) (parseDecimal_fits hc)).mp hgt
    have hparse : parseDecimal new.filledQuantity = .ok reported := by
      rw [hnew]
      exact hr
    unfold filledValue
    rw [decimalValue_of_parse hc, filledText_of_parse hparse, decimalValue_of_parse hparse]
    exact hlt.le

/-- What an observation can change, an exchange id learned or not; a fill only rises. -/
theorem learned_observation (record : OrderRecord) (learned : Prop) [Decidable learned]
    (id : String) (state : OrderState) (filled avgPrice price quantity : String)
    (lifecycle : Bool) :
    record.filledValue ≤ ((if learned then record.noteExchangeId id else record).applyObservation
        state filled avgPrice price quantity lifecycle).1.filledValue ∧
      ∃ state' filled' avgPrice' price' quantity' exchangeOrderId legs,
        ((if learned then record.noteExchangeId id else record).applyObservation state filled
          avgPrice price quantity lifecycle).1 =
        { record with
          state := state'
          filledQuantity := filled'
          averageFillPrice := avgPrice'
          price := price'
          quantity := quantity'
          exchangeOrderId := exchangeOrderId
          legs := legs } := by
  obtain ⟨exchangeOrderId, legs, hmid⟩ := record.learned_spec learned id
  rw [hmid]
  obtain ⟨_, _, _, _, _, _, heq, hfill, -⟩ :=
    { record with exchangeOrderId := exchangeOrderId, legs := legs }.applyObservation_spec
      state filled avgPrice price quantity lifecycle
  rw [heq]
  exact ⟨FillObserved.filledValue_le hfill, _, _, _, _, _, _, _, rfl⟩

end OrderRecord

namespace Entry

/-- The exchange id of an observation: a report, or a snapshot of either phase. -/
def observedId : Entry → Option String
  | .reported _ report => some report.exchangeOrderId
  | .listed _ snapshot | .resolved _ snapshot => some snapshot.exchangeOrderId
  | _ => none

/-- A snapshot that brings no state the order could move to, no other price and no other
quantity. Reports carry neither price nor quantity and are arbitrated. -/
def keepsTerms : Entry → OrderRecord → Bool
  | .listed _ snapshot, record | .resolved _ snapshot, record =>
    (snapshot.state = record.state || !canTransition record.state snapshot.state) &&
      record.sameTerms snapshot
  | _, _ => true

/-- The order takes the id over if it has none. A report and a lookup also bring an id that the leg
table does not know. -/
def takesOver : Entry → OrderRecord → Bool
  | .reported _ report, record => record.exchangeOrderId = "" ||
      record.legs ≠ [] && record.legIndexOf report.exchangeOrderId = none
  | .resolved _ snapshot, record => record.exchangeOrderId = "" ||
      record.legIndexOf snapshot.exchangeOrderId = none
  | .listed _ _, record => record.exchangeOrderId = ""
  | _, _ => false

/-- The observation brings another exchange id. -/
def bringsId (entry : Entry) (record : OrderRecord) : Bool :=
  entry.takesOver record &&
    entry.observedId.any fun id => id ≠ "" && id ≠ record.exchangeOrderId

/-- Nothing but a fill is new to the order. -/
def bringsFillsOnly (entry : Entry) (record : OrderRecord) : Bool :=
  entry.keepsTerms record && !entry.bringsId record

end Entry

namespace OrderRecord

/-- A snapshot, observed after a leg was learned or not, keeps state, price and quantity exactly
when it brings fills only. -/
theorem observeSnapshot_terms_iff {record mid : OrderRecord}
    (hmid : ∃ exchangeOrderId legs,
      mid = { record with exchangeOrderId := exchangeOrderId, legs := legs })
    (snapshot : OrderSnapshot) :
    ((Oms.observeSnapshot mid snapshot).1.state = record.state ∧
      (Oms.observeSnapshot mid snapshot).1.price = record.price ∧
      (Oms.observeSnapshot mid snapshot).1.quantity = record.quantity) ↔
      ((snapshot.state = record.state || !canTransition record.state snapshot.state) &&
        record.sameTerms snapshot) := by
  obtain ⟨exchangeOrderId, legs, rfl⟩ := hmid
  have hkept (text old : String) :
      (if text = "" then old else text) = old ↔ text = "" ∨ text = old := by
    by_cases he : text = ""
    · simp [he]
    · simp [he]
  have hstate : (if canTransition record.state snapshot.state then snapshot.state
      else record.state) = record.state ↔
      snapshot.state = record.state ∨ canTransition record.state snapshot.state = false := by
    by_cases hc : canTransition record.state snapshot.state
    · simp [hc]
    · simp [hc]
  unfold Oms.observeSnapshot
  rw [applyObservation_fst]
  dsimp only
  rw [hkept, hkept, hstate, Bool.and_eq_true, sameTerms_iff]
  simp

/-- The id of a superseded leg teaches nothing. -/
theorem Identified.superseded {record : OrderRecord} (h : record.Identified) {id : String}
    (hid : record.superseded id) :
    record.exchangeOrderId ≠ "" ∧ ∃ index, record.legIndexOf id = some index := by
  obtain ⟨hne, hany⟩ := Bool.and_eq_true_iff.mp hid
  rcases record.legIndexOf_spec id with ⟨hnone, -⟩ | ⟨index, hsome, -, leg, hm, hleg⟩
  · rw [hnone] at hany
    cases hany
  · refine ⟨h ⟨leg, hm, ?_⟩, index, hsome⟩
    rw [hleg]
    exact of_decide_eq_true hne

end OrderRecord

namespace Entry

variable {entry : Entry} {record new : OrderRecord} {id : String}

/-- Id and legs stay exactly when the observation brings no other id. -/
theorem ids_write_iff (hid : entry.observedId = some id)
    (hw : (entry.write (some record)).1 = some new) :
    (new.exchangeOrderId = record.exchangeOrderId ∧ new.legs = record.legs) ↔
      entry.bringsId record = false := by
  have hnoted (learned : Prop) [Decidable learned] :
      ((if learned then record.noteExchangeId id else record).exchangeOrderId =
          record.exchangeOrderId ∧
        (if learned then record.noteExchangeId id else record).legs = record.legs) ↔
      ¬ (learned ∧ id ≠ "" ∧ id ≠ record.exchangeOrderId) := by
    by_cases hl : learned
    · rw [if_pos hl]
      unfold OrderRecord.noteExchangeId
      by_cases hknown : id = "" ∨ id = record.exchangeOrderId
      · have hsame : ¬ (learned ∧ id ≠ "" ∧ id ≠ record.exchangeOrderId) :=
          fun ⟨_, hne, hother⟩ => hknown.elim hne hother
        simpa [hknown] using hsame
      · rw [if_neg (by simpa using hknown)]
        obtain ⟨hne, hother⟩ := not_or.mp hknown
        simp [OrderRecord.pushLeg, hl, hne, hother]
    · simp [hl]
  cases entry with
  | reported key report =>
    obtain rfl := Option.some.inj hid
    obtain rfl := Option.some.inj hw
    have hkept := hnoted (record.exchangeOrderId = "" ∨ record.legs ≠ [] ∧
      record.legIndexOf report.exchangeOrderId = none)
    unfold OrderRecord.arbitrate OrderRecord.learn
    rw [OrderRecord.exchangeOrderId_applyObservation, OrderRecord.legs_applyObservation, hkept]
    simp [bringsId, takesOver, observedId]
  | listed venue snapshot =>
    obtain rfl := Option.some.inj hid
    obtain rfl := Option.some.inj hw
    have hkept := hnoted
      ((record.exchangeOrderId = "" && snapshot.exchangeOrderId ≠ "") = true)
    unfold Oms.refreshed Oms.observeSnapshot
    dsimp only
    rw [OrderRecord.exchangeOrderId_applyObservation, OrderRecord.legs_applyObservation, hkept]
    simp [bringsId, takesOver, observedId]
  | resolved key snapshot =>
    obtain rfl := Option.some.inj hid
    obtain rfl := Option.some.inj hw
    have hkept := hnoted ((snapshot.exchangeOrderId ≠ "" && (record.exchangeOrderId = "" ||
      (record.legIndexOf snapshot.exchangeOrderId).isNone)) = true)
    unfold OrderRecord.resolve Oms.observeSnapshot
    dsimp only
    rw [OrderRecord.exchangeOrderId_applyObservation, OrderRecord.legs_applyObservation, hkept]
    by_cases hempty : snapshot.exchangeOrderId = ""
    · simp [bringsId, observedId, hempty]
    · simp [bringsId, takesOver, observedId, hempty]
  | _ => cases hid

/-- A superseded leg: ids and legs stay, and the rest but the fill exactly when the observation
keeps the terms. -/
theorem superseded_write (hid : entry.observedId = some id)
    (hw : (entry.write (some record)).1 = some new) (hidentified : record.Identified)
    (hstale : record.superseded id) :
    new.exchangeOrderId = record.exchangeOrderId ∧ new.legs = record.legs ∧
      ((new.state = record.state ∧ new.price = record.price ∧ new.quantity = record.quantity) ↔
        entry.keepsTerms record) := by
  obtain ⟨hcurrent, index, hindex⟩ := hidentified.superseded hstale
  have hsame : ∃ exchangeOrderId legs,
      record = { record with exchangeOrderId := exchangeOrderId, legs := legs } := ⟨_, _, rfl⟩
  cases entry with
  | reported key report =>
    obtain rfl := Option.some.inj hid
    obtain rfl := Option.some.inj hw
    have hlearn : record.learn report.exchangeOrderId = record := by
      simp [OrderRecord.learn, hcurrent, hindex]
    have hnew : (record.arbitrate report).1 =
        (record.observeFill report.filledQuantity report.averageFillPrice).1 := by
      rw [OrderRecord.arbitrate, hlearn, hstale]
      rfl
    rw [hnew]
    rcases record.observeFill_cases report.filledQuantity report.averageFillPrice with
      h | ⟨_, _, -, -, -, -, h⟩
    · rw [h]
      exact ⟨rfl, rfl, fun _ => rfl, fun _ => ⟨rfl, rfl, rfl⟩⟩
    · rw [h]
      exact ⟨rfl, rfl, fun _ => rfl, fun _ => ⟨rfl, rfl, rfl⟩⟩
  | listed venue snapshot =>
    obtain rfl := Option.some.inj hid
    obtain rfl := Option.some.inj hw
    have hnew : (Oms.refreshed record snapshot).1 = (Oms.observeSnapshot record snapshot).1 := by
      simp [Oms.refreshed, hcurrent]
    rw [hnew]
    refine ⟨?_, ?_, OrderRecord.observeSnapshot_terms_iff hsame snapshot⟩
    · exact OrderRecord.exchangeOrderId_applyObservation _ _ _ _ _ _ _
    · exact OrderRecord.legs_applyObservation _ _ _ _ _ _ _
  | resolved key snapshot =>
    obtain rfl := Option.some.inj hid
    obtain rfl := Option.some.inj hw
    have hnew : (record.resolve snapshot).1 = (Oms.observeSnapshot record snapshot).1 := by
      simp [OrderRecord.resolve, hcurrent, hindex]
    rw [hnew]
    refine ⟨?_, ?_, OrderRecord.observeSnapshot_terms_iff hsame snapshot⟩
    · exact OrderRecord.exchangeOrderId_applyObservation _ _ _ _ _ _ _
    · exact OrderRecord.legs_applyObservation _ _ _ _ _ _ _
  | _ => cases hid

theorem terminal_write (hid : entry.observedId = some id)
    (hw : (entry.write (some record)).1 = some new) (hterminal : isTerminal record.state) :
    (new.state = record.state ∧ new.price = record.price ∧ new.quantity = record.quantity) ↔
      entry.keepsTerms record := by
  cases entry with
  | reported key report =>
    obtain rfl := Option.some.inj hw
    obtain ⟨_, _, state', _, _, heq, -, hstate⟩ := record.arbitrate_spec report
    rw [heq]
    refine ⟨fun _ => rfl, fun _ => ⟨?_, rfl, rfl⟩⟩
    rcases hstate with hs | ⟨-, -, hc⟩
    · exact hs
    · rw [not_canTransition_of_terminal hterminal] at hc
      cases hc
  | listed venue snapshot =>
    obtain rfl := Option.some.inj hw
    exact OrderRecord.observeSnapshot_terms_iff (record.learned_spec _ _) snapshot
  | resolved key snapshot =>
    obtain rfl := Option.some.inj hw
    unfold OrderRecord.resolve
    exact OrderRecord.observeSnapshot_terms_iff (record.learned_spec _ _) snapshot
  | _ => cases hid

/-- What any observation can change; a fill only rises. -/
theorem observed_write (hid : entry.observedId = some id)
    (hw : (entry.write (some record)).1 = some new) :
    record.filledValue ≤ new.filledValue ∧
      ∃ state filled avgPrice price quantity exchangeOrderId legs,
        new = { record with
          state := state
          filledQuantity := filled
          averageFillPrice := avgPrice
          price := price
          quantity := quantity
          exchangeOrderId := exchangeOrderId
          legs := legs } := by
  cases entry with
  | reported key report =>
    obtain rfl := Option.some.inj hw
    exact record.learned_observation _ _ _ _ _ _ _ _
  | listed venue snapshot =>
    obtain rfl := Option.some.inj hw
    unfold Oms.refreshed
    exact record.learned_observation _ _ _ _ _ _ _ _
  | resolved key snapshot =>
    obtain rfl := Option.some.inj hw
    unfold OrderRecord.resolve
    exact record.learned_observation _ _ _ _ _ _ _ _
  | _ => cases hid

end Entry

namespace System

variable {s t : System} {a : Action}

/-- In every reachable state, for every observation a step applies: one of a superseded leg changes
nothing but the fill exactly when it keeps the terms, one of a terminal order exactly when moreover
it brings no other exchange id. A fill never falls. -/
theorem stale_observation (config : Config) (log : Option EventLog) (h : Run (boot config log) s)
    (ha : a.live) (hs : s.step a = some t) {before after : List Entry} {entry : Entry}
    (hentries : s.entries a = before ++ entry :: after) {id : String}
    (hid : entry.observedId = some id) {record : OrderRecord}
    (hr : (s.oms.ledger.enterAll before).orders.find? entry.key = some record) :
    ∃ new, ((s.oms.ledger.enterAll before).enter entry).orders.find? entry.key = some new ∧
      t.oms.ledger = ((s.oms.ledger.enterAll before).enter entry).enterAll after ∧
      record.filledValue ≤ new.filledValue ∧
      (record.superseded id → ((∃ filled avgPrice,
        new = { record with filledQuantity := filled, averageFillPrice := avgPrice }) ↔
          entry.keepsTerms record)) ∧
      (isTerminal record.state → ((∃ filled avgPrice,
        new = { record with filledQuantity := filled, averageFillPrice := avgPrice }) ↔
          entry.bringsFillsOnly record)) := by
  have hidentified : record.Identified := by
    refine (identified_run h).enterAll (Ledger.allEntries_true _ before)
      (fun e hm old new hold _ hw => ?_) _ record hr
    have he : s.Enters a e := s.enters_of_mem (by rw [hentries]; exact List.mem_append_left _ hm)
    exact Entry.identified_write (fun _ hb => he.identified_inserted hb) hold hw
  have hledger : t.oms.ledger =
      ((s.oms.ledger.enterAll before).enter entry).enterAll after := by
    rw [step_ledger hs ha, hentries, Ledger.enterAll_append, Ledger.enterAll_cons]
    rintro orders rfl
    exact List.append_ne_nil_of_right_ne_nil before (List.cons_ne_nil _ _) hentries.symm
  cases hw : (entry.write (some record)).1 with
  | none =>
    cases entry with
    | reported | listed | resolved => cases hw
    | _ => cases hid
  | some new =>
    obtain ⟨hfill, state, filled, avgPrice, price, quantity, exchangeOrderId, legs, hnew⟩ :=
      Entry.observed_write hid hw
    refine ⟨new, Ledger.find?_enter_of_write _ entry hr hw, hledger, hfill, ?_, ?_⟩
    · intro hstale
      obtain ⟨hcurrent, hlegs, hiff⟩ := Entry.superseded_write hid hw hidentified hstale
      rw [← hiff]
      constructor
      · rintro ⟨_, _, rfl⟩
        exact ⟨rfl, rfl, rfl⟩
      · rintro ⟨hs', hp, hq⟩
        rw [hnew] at hcurrent hlegs hs' hp hq
        dsimp only at hcurrent hlegs hs' hp hq
        subst hcurrent hlegs hs' hp hq
        exact ⟨_, _, hnew⟩
    · intro hterminal
      have hterms := Entry.terminal_write hid hw hterminal
      have hids := Entry.ids_write_iff hid hw
      rw [Entry.bringsFillsOnly, Bool.and_eq_true, Bool.not_eq_true', ← hterms, ← hids]
      constructor
      · rintro ⟨_, _, rfl⟩
        exact ⟨⟨rfl, rfl, rfl⟩, rfl, rfl⟩
      · rintro ⟨⟨hs', hp, hq⟩, hcurrent, hlegs⟩
        rw [hnew] at hcurrent hlegs hs' hp hq
        dsimp only at hcurrent hlegs hs' hp hq
        subst hcurrent hlegs hs' hp hq
        exact ⟨_, _, hnew⟩

/-- A reconciliation starts, then the order is amended from price 100 to 101. -/
def replacedActions : List Action :=
  [.place .sample "", .send 0, .placed 0 (.ok ⟨"c1", "1"⟩), .reconcile,
    .amend ⟨"c1", some "101", none⟩, .amended 1 (.ok ⟨"c1", "2"⟩)]

/-- The report of the replaced leg with a fill. -/
theorem stale_observation_report : ∃ s record new, Run (boot .sample (some .fresh)) s ∧
    s.oms.lookup "c1" = some record ∧ record.superseded "1" ∧
    (s.report ⟨"c1", "1", .canceled, .buy, "2", "100"⟩).oms.lookup "c1" = some new ∧
    ∃ filled avgPrice,
      new = { record with filledQuantity := filled, averageFillPrice := avgPrice } := by
  have hrun : (Transition.exec step (fun _ _ => True) (boot .sample (some .fresh))
    replacedActions).isSome := by decide
  have hreach := Transition.reaches_get_exec hrun
  obtain ⟨new, hnew, hledger, -, hstale, -⟩ := stale_observation .sample (some .fresh) hreach
    (a := .report ⟨"c1", "1", .canceled, .buy, "2", "100"⟩) rfl rfl
    (show _ = [] ++ Entry.reported "c1" _ :: [] from rfl) rfl rfl
  refine ⟨_, _, new, hreach, rfl, rfl, ?_, (hstale rfl).mpr rfl⟩
  exact (Oms.lookup_of_ledger hledger "c1").trans hnew

/-- The listing was read before the amend: its snapshot of the replaced leg brings the old price
back. -/
theorem stale_snapshot_reverts_price : ∃ s t record, Run (boot .sample (some .fresh)) s ∧
    s.oms.lookup "c1" = some record ∧ record.superseded "1" ∧ record.price = "101" ∧
    s.step (.listed 0 (.ok [⟨"c1", "1", "BTCUSDT", .live, .buy, .limit, "100", "5", "0", ""⟩])) =
      some t ∧
    (t.oms.lookup "c1").map OrderRecord.price = some "100" := by
  have hrun : (Transition.exec step (fun _ _ => True) (boot .sample (some .fresh))
    replacedActions).isSome := by decide
  exact ⟨_, _, _, Transition.reaches_get_exec hrun, rfl, rfl, rfl, rfl, rfl⟩

end System

end ExchangeGateway
