import ExchangeGateway.Core.Stale
import Mathlib.Order.Bounds.Basic

/-! Reports of known legs in any order and any number: what a working order ends in depends only
on which reports came. The state goes up a small order with the terminal states on top, the fill is
a maximum. -/
namespace ExchangeGateway

/-! ### States -/

def observeStates (state : OrderState) (states : List OrderState) : OrderState :=
  states.foldl (fun state next => (applyTransition state next).1) state

/-- What a working order ends in, by the states observed. -/
inductive StateOutcome (state : OrderState) (states : List OrderState) : OrderState → Prop
  | closed {final : OrderState} (hterminal : isTerminal final) (hm : final ∈ states) :
      StateOutcome state states final
  | partiallyFilled (hopen : ∀ next ∈ states, ¬ isTerminal next)
      (hm : state = .partiallyFilled ∨ .partiallyFilled ∈ states) :
      StateOutcome state states .partiallyFilled
  | live (hopen : ∀ next ∈ states, ¬ isTerminal next) (hstate : state = .live)
      (hm : .partiallyFilled ∉ states) : StateOutcome state states .live

theorem observeStates_of_terminal {state : OrderState} (h : isTerminal state)
    (states : List OrderState) : observeStates state states = state := by
  unfold observeStates
  induction states with
  | nil => rfl
  | cons next states ih =>
    rw [List.foldl_cons, applyTransition_of_terminal h]
    exact ih

theorem stateOutcome_observeStates {state : OrderState}
    (hworking : state = .live ∨ state = .partiallyFilled) {states : List OrderState}
    (hstates : .pending ∉ states) :
    StateOutcome state states (observeStates state states) := by
  induction states generalizing state with
  | nil =>
    rcases hworking with rfl | rfl
    · exact .live (fun _ h => by cases h) rfl (fun h => by cases h)
    · exact .partiallyFilled (fun _ h => by cases h) (.inl rfl)
  | cons next states ih =>
    obtain ⟨hne, hrest⟩ := not_or.mp (List.mem_cons.not.mp hstates)
    by_cases hterminal : isTerminal next
    · have hmoved : (applyTransition state next).1 = next := by
        rcases hworking with rfl | rfl <;> cases next <;> first | rfl | cases hterminal
      have hfinal : observeStates state (next :: states) = next := by
        rw [observeStates, List.foldl_cons, hmoved]
        exact observeStates_of_terminal hterminal states
      rw [hfinal]
      exact .closed hterminal List.mem_cons_self
    · -- a working state is kept by Live and becomes PartiallyFilled by PartiallyFilled
      have hmoved : (applyTransition state next).1 =
          if next = .partiallyFilled then .partiallyFilled else state := by
        rcases hworking with rfl | rfl <;> cases next <;> first | rfl | simp_all [isTerminal]
      have hstep : observeStates state (next :: states) =
          observeStates (if next = .partiallyFilled then .partiallyFilled else state) states := by
        rw [observeStates, List.foldl_cons, hmoved]
        rfl
      rw [hstep]
      have hworking' : (if next = .partiallyFilled then .partiallyFilled else state) = .live ∨
          (if next = .partiallyFilled then .partiallyFilled else state) =
            OrderState.partiallyFilled := by
        split
        · exact .inr rfl
        · exact hworking
      have hopen' (h : ∀ x ∈ states, ¬ isTerminal x) : ∀ x ∈ next :: states, ¬ isTerminal x := by
        intro x hx
        rcases List.mem_cons.mp hx with rfl | hx
        · exact hterminal
        · exact h x hx
      have hrec := ih hworking' hrest
      generalize observeStates _ states = final at hrec ⊢
      cases hrec with
      | closed hterminal hm => exact .closed hterminal (List.mem_cons_of_mem next hm)
      | partiallyFilled hopen hm =>
        refine .partiallyFilled (hopen' hopen) ?_
        by_cases hnext : next = .partiallyFilled
        · exact .inr (hnext ▸ List.mem_cons_self)
        · rw [if_neg hnext] at hm
          exact hm.imp_right (List.mem_cons_of_mem next)
      | live hopen hstate hm =>
        have hnext : next ≠ .partiallyFilled := by
          intro hnext
          rw [if_pos hnext] at hstate
          cases hstate
        rw [if_neg hnext] at hstate
        refine .live (hopen' hopen) hstate fun hx => ?_
        rcases List.mem_cons.mp hx with hx | hx
        · exact hnext hx.symm
        · exact hm hx

/-- The outcome is a function of the set of observed states, if these name one terminal state at
most. -/
theorem StateOutcome.unique {state final final' : OrderState} {states states' : List OrderState}
    (h : StateOutcome state states final) (h' : StateOutcome state states' final')
    (hsame : ∀ next, next ∈ states ↔ next ∈ states')
    (hone : ∀ next ∈ states, ∀ next' ∈ states, isTerminal next → isTerminal next' →
      next = next') : final = final' := by
  cases h with
  | closed hterminal hm =>
    cases h' with
    | closed hterminal' hm' => exact hone _ hm _ ((hsame _).mpr hm') hterminal hterminal'
    | partiallyFilled hopen' _ => exact absurd hterminal (hopen' _ ((hsame _).mp hm))
    | live hopen' _ _ => exact absurd hterminal (hopen' _ ((hsame _).mp hm))
  | partiallyFilled hopen hm =>
    cases h' with
    | closed hterminal' hm' => exact absurd hterminal' (hopen _ ((hsame _).mpr hm'))
    | partiallyFilled _ _ => rfl
    | live _ hstate' hm' =>
      rcases hm with hm | hm
      · cases hm.symm.trans hstate'
      · exact absurd ((hsame _).mp hm) hm'
  | live hopen hstate hm =>
    cases h' with
    | closed hterminal' hm' => exact absurd hterminal' (hopen _ ((hsame _).mpr hm'))
    | partiallyFilled _ hm' =>
      rcases hm' with hm' | hm'
      · cases hstate.symm.trans hm'
      · exact absurd ((hsame _).mpr hm') hm
    | live _ _ _ => rfl

/-! ### Records -/

namespace OrderRecord

/-- A report whose id is empty or that of a known leg. -/
def Knows (record : OrderRecord) (id : String) : Prop :=
  id = "" ∨ ∃ leg ∈ record.legs, leg.exchangeOrderId = id

instance (record : OrderRecord) (id : String) : Decidable (record.Knows id) :=
  inferInstanceAs (Decidable (_ ∨ _))

def parsedFills (reports : List ExecutionReport) : Set ℚ :=
  {value | ∃ report ∈ reports, ∃ fill, parseDecimal report.filledQuantity = .ok fill ∧
    fill.value = value}

/-- The states the reports bring; those of a superseded leg bring none. -/
def reportedStates (record : OrderRecord) (reports : List ExecutionReport) : List OrderState :=
  (reports.filter fun report => !record.superseded report.exchangeOrderId).map
    ExecutionReport.state

structure Observed (record : OrderRecord) (reports : List ExecutionReport) (new : OrderRecord) :
    Prop where
  exchangeOrderId : new.exchangeOrderId = record.exchangeOrderId
  legs : new.legs = record.legs
  price : new.price = record.price
  quantity : new.quantity = record.quantity
  state : new.state = observeStates record.state (record.reportedStates reports)
  parses : ∃ fill, parseDecimal new.filledText = .ok fill
  fill : IsGreatest (insert record.filledValue (parsedFills reports)) new.filledValue

variable {record mid new : OrderRecord}

theorem superseded_of_legs (h : new.legs = record.legs) (id : String) :
    new.superseded id = record.superseded id := by
  unfold superseded legIndexOf
  rw [h]

theorem Identified.learn_known (h : record.Identified) {id : String} (hid : record.Knows id) :
    record.learn id = record := by
  unfold learn
  split
  · rename_i hlearn
    rcases hid with rfl | ⟨leg, hm, hleg⟩
    · exact record.noteExchangeId_empty
    · by_cases he : id = ""
      · rw [he, noteExchangeId_empty]
      · have hcurrent : record.exchangeOrderId ≠ "" := h ⟨leg, hm, by rw [hleg]; exact he⟩
        rcases hlearn with hnone | ⟨-, hnone⟩
        · exact absurd hnone hcurrent
        · rcases record.legIndexOf_spec id with ⟨-, hall⟩ | ⟨index, hsome, -⟩
          · exact absurd hleg (hall leg hm)
          · rw [hnone] at hsome
            cases hsome
  · rfl

/-- The fill part of an observation takes the maximum. -/
theorem observeFill_isGreatest {current : Decimal}
    (hcurrent : parseDecimal record.filledText = .ok current) (filled avgPrice : String) :
    (∃ fill, parseDecimal (record.observeFill filled avgPrice).1.filledText = .ok fill) ∧
      IsGreatest (insert record.filledValue
          {value | ∃ fill, parseDecimal filled = .ok fill ∧ fill.value = value})
        (record.observeFill filled avgPrice).1.filledValue := by
  have hvalue : record.filledValue = current.value := decimalValue_of_parse hcurrent
  cases hr : parseDecimal filled with
  | error error =>
    have hsame : (record.observeFill filled avgPrice).1 = record := by
      rcases record.observeFill_cases filled avgPrice with h | ⟨_, _, -, hok, -⟩
      · rw [h]
      · cases hr.symm.trans hok
    rw [hsame]
    refine ⟨⟨current, hcurrent⟩, Set.mem_insert _ _, ?_⟩
    rintro value (rfl | ⟨fill, hfill, -⟩)
    · exact le_refl _
    · cases hfill
  | ok reported =>
    have hne : filled ≠ "" := by
      rintro rfl
      cases hr
    have hpos := Decimal.compare_pos_iff (parseDecimal_fits hr) (parseDecimal_fits hcurrent)
    by_cases hgt : 0 < reported.compare current
    · have hnew : (record.observeFill filled avgPrice).1.filledQuantity = filled := by
        simp [observeFill, hne, hr, hcurrent, hgt]
      have hparse : parseDecimal (record.observeFill filled avgPrice).1.filledQuantity =
          .ok reported := by rw [hnew, hr]
      have htext := filledText_of_parse hparse
      have hfilled : (record.observeFill filled avgPrice).1.filledValue = reported.value := by
        rw [filledValue, htext, decimalValue_of_parse hparse]
      rw [htext, hfilled]
      refine ⟨⟨reported, hparse⟩, .inr ⟨reported, rfl, rfl⟩, ?_⟩
      rintro value (rfl | ⟨fill, hfill, rfl⟩)
      · rw [hvalue]
        exact (hpos.mp hgt).le
      · rw [Except.ok.inj hfill]
    · have hsame : (record.observeFill filled avgPrice).1 = record := by
        simp [observeFill, hne, hr, hcurrent, hgt]
      rw [hsame]
      refine ⟨⟨current, hcurrent⟩, Set.mem_insert _ _, ?_⟩
      rintro value (rfl | ⟨fill, hfill, rfl⟩)
      · exact le_refl _
      · rw [hvalue, ← Except.ok.inj hfill]
        exact not_lt.mp (hpos.not.mp hgt)

theorem Identified.observed_one (h : record.Identified) {current : Decimal}
    (hcurrent : parseDecimal record.filledText = .ok current) {report : ExecutionReport}
    (hid : record.Knows report.exchangeOrderId) :
    record.Observed [report] (record.arbitrate report).1 := by
  have hfills : parsedFills [report] =
      {value | ∃ fill, parseDecimal report.filledQuantity = .ok fill ∧ fill.value = value} := by
    simp [parsedFills]
  obtain ⟨hparses, hfill⟩ :=
    observeFill_isGreatest hcurrent report.filledQuantity report.averageFillPrice
  rw [← hfills] at hfill
  unfold arbitrate
  rw [h.learn_known hid]
  cases hs : record.superseded report.exchangeOrderId with
  | true =>
    have hstates : record.reportedStates [report] = [] := by simp [reportedStates, hs]
    have hfirst : (record.applyObservation report.state report.filledQuantity
        report.averageFillPrice "" "" (!true)).1 =
        (record.observeFill report.filledQuantity report.averageFillPrice).1 := rfl
    rw [hfirst]
    rcases record.observeFill_cases report.filledQuantity report.averageFillPrice with
      heq | ⟨_, _, -, -, -, -, heq⟩
    all_goals
      rw [heq] at hparses hfill ⊢
      exact ⟨rfl, rfl, rfl, rfl, by rw [hstates]; rfl, hparses, hfill⟩
  | false =>
    have hstates : record.reportedStates [report] = [report.state] := by simp [reportedStates, hs]
    have hfirst := record.applyObservation_fst report.state report.filledQuantity
      report.averageFillPrice "" ""
    rw [Bool.not_false, hfirst]
    refine ⟨rfl, rfl, rfl, rfl, ?_, hparses, hfill⟩
    rw [hstates, observeStates, List.foldl_cons, List.foldl_nil, applyTransition_eq]
    dsimp only
    split <;> rfl

theorem Observed.trans {reports reports' : List ExecutionReport}
    (h : record.Observed reports mid) (h' : mid.Observed reports' new) :
    record.Observed (reports ++ reports') new where
  exchangeOrderId := h'.exchangeOrderId.trans h.exchangeOrderId
  legs := h'.legs.trans h.legs
  price := h'.price.trans h.price
  quantity := h'.quantity.trans h.quantity
  state := by
    have hsuperseded : mid.reportedStates reports' = record.reportedStates reports' := by
      unfold reportedStates
      simp only [superseded_of_legs h.legs]
    rw [h'.state, h.state, hsuperseded]
    simp [observeStates, reportedStates]
  parses := h'.parses
  fill := by
    obtain ⟨hmem, hbound⟩ := h.fill
    obtain ⟨hmem', hbound'⟩ := h'.fill
    have hle : mid.filledValue ≤ new.filledValue := hbound' (Set.mem_insert _ _)
    have hleft : parsedFills reports ⊆ parsedFills (reports ++ reports') := by
      rintro value ⟨report, hm, hvalue⟩
      exact ⟨report, List.mem_append_left _ hm, hvalue⟩
    have hright : parsedFills reports' ⊆ parsedFills (reports ++ reports') := by
      rintro value ⟨report, hm, hvalue⟩
      exact ⟨report, List.mem_append_right _ hm, hvalue⟩
    constructor
    · rcases hmem' with hnew | hnew
      · rw [hnew]
        exact Set.insert_subset_insert hleft hmem
      · exact .inr (hright hnew)
    · rintro value (rfl | ⟨report, hm, hvalue⟩)
      · exact (hbound (Set.mem_insert _ _)).trans hle
      · rcases List.mem_append.mp hm with hm | hm
        · exact (hbound (.inr ⟨report, hm, hvalue⟩)).trans hle
        · exact hbound' (.inr ⟨report, hm, hvalue⟩)

theorem Identified.observed (h : record.Identified) {current : Decimal}
    (hcurrent : parseDecimal record.filledText = .ok current) {reports : List ExecutionReport}
    (hids : ∀ report ∈ reports, record.Knows report.exchangeOrderId) :
    record.Observed reports
      (reports.foldl (fun record report => (record.arbitrate report).1) record) := by
  induction reports generalizing record current with
  | nil =>
    refine ⟨rfl, rfl, rfl, rfl, rfl, ⟨current, hcurrent⟩, Set.mem_insert _ _, ?_⟩
    rintro value (rfl | ⟨report, hm, -⟩)
    · exact le_refl _
    · cases hm
  | cons report reports ih =>
    have hone := h.observed_one hcurrent (hids report List.mem_cons_self)
    obtain ⟨fill, hparses⟩ := hone.parses
    have hidentified : (record.arbitrate report).1.Identified :=
      h.of_eq hone.exchangeOrderId hone.legs
    refine hone.trans (ih hidentified hparses fun other hm => ?_)
    unfold Knows
    rw [hone.legs]
    exact hids other (List.mem_cons_of_mem _ hm)

end OrderRecord

namespace Oms

theorem lookup_foldl_onExecutionReport {oms : Oms} {id : String} {record : OrderRecord}
    (hfree : id ∉ oms.racedReports) (hr : oms.lookup id = some record)
    {reports : List ExecutionReport} (hids : ∀ report ∈ reports, report.clientOrderId = id) :
    (reports.foldl onExecutionReport oms).lookup id =
      some (reports.foldl (fun record report => (record.arbitrate report).1) record) := by
  induction reports generalizing oms record with
  | nil => exact hr
  | cons report reports ih =>
    have hid := hids report List.mem_cons_self
    have hledger := oms.onExecutionReport_ledger report
    have hentries : oms.sinkEntries report = [.reported id report] := by
      rw [sinkEntries, hid, if_neg hfree]
    rw [hentries] at hledger
    have hnext : (oms.onExecutionReport report).lookup id = some (record.arbitrate report).1 := by
      rw [lookup_of_ledger hledger]
      exact Ledger.find?_enter_of_write _ (.reported id report) hr rfl
    have hfree' : id ∉ (oms.onExecutionReport report).racedReports := by
      rwa [mem_racedReports_onExecutionReport]
    exact ih hfree' hnext fun other hm => hids other (List.mem_cons_of_mem _ hm)

end Oms

namespace System

variable {s : System}

/-- In every reachable state, for every working order without an open call: two sequences over the
same reports of known legs, of one kind of terminal state at most, leave the same state, legs,
price, quantity and fill, and that is the greatest one reported. -/
theorem report_order_irrelevant (config : Config) (log : Option EventLog)
    (h : Run (boot config log) s) {id : String} (hcalls : id ∉ s.owners) {record : OrderRecord}
    (hr : s.oms.lookup id = some record)
    (hworking : record.state = .live ∨ record.state = .partiallyFilled)
    {current : Decimal} (hcurrent : parseDecimal record.filledText = .ok current)
    (l l' : List ExecutionReport) (hsame : ∀ report, report ∈ l ↔ report ∈ l')
    (hids : ∀ report ∈ l, report.clientOrderId = id)
    (hlegs : ∀ report ∈ l, record.Knows report.exchangeOrderId)
    (hstates : ∀ report ∈ l, report.state ≠ .pending)
    (hone : ∀ report ∈ l, ∀ report' ∈ l, ¬ record.superseded report.exchangeOrderId →
      ¬ record.superseded report'.exchangeOrderId → isTerminal report.state →
      isTerminal report'.state → report.state = report'.state) :
    ∃ new new', (l.foldl Oms.onExecutionReport s.oms).lookup id = some new ∧
      (l'.foldl Oms.onExecutionReport s.oms).lookup id = some new' ∧
      new.state = new'.state ∧ new.legs = new'.legs ∧ new.price = new'.price ∧
      new.quantity = new'.quantity ∧ new.filledValue = new'.filledValue ∧
      (∃ fill, parseDecimal new.filledText = .ok fill) ∧
      IsGreatest (insert record.filledValue (OrderRecord.parsedFills l)) new.filledValue := by
  have hidentified : record.Identified := identified_run h id record hr
  have hfree : id ∉ s.oms.racedReports := by
    rwa [(owned_run config log h).raced id]
  have hobserved := hidentified.observed hcurrent hlegs
  have hobserved' := hidentified.observed hcurrent fun report hm => hlegs report ((hsame report).mpr hm)
  have hfills : OrderRecord.parsedFills l' = OrderRecord.parsedFills l := by
    ext value
    simp only [OrderRecord.parsedFills, Set.mem_ofPred_eq, hsame]
  have hmem (next : OrderState) :
      next ∈ record.reportedStates l ↔ next ∈ record.reportedStates l' := by
    simp only [OrderRecord.reportedStates, List.mem_map, List.mem_filter, hsame]
  have hpending (reports : List ExecutionReport) (hm : ∀ report ∈ reports, report ∈ l) :
      .pending ∉ record.reportedStates reports := by
    intro hp
    obtain ⟨report, hreport, hstate⟩ := List.mem_map.mp hp
    exact hstates report (hm report (List.mem_filter.mp hreport).1) hstate
  refine ⟨_, _, Oms.lookup_foldl_onExecutionReport hfree hr hids,
    Oms.lookup_foldl_onExecutionReport hfree hr fun report hm => hids report ((hsame report).mpr hm),
    ?_, hobserved.legs.trans hobserved'.legs.symm, hobserved.price.trans hobserved'.price.symm,
    hobserved.quantity.trans hobserved'.quantity.symm, ?_, hobserved.parses, hobserved.fill⟩
  · rw [hobserved.state, hobserved'.state]
    refine (stateOutcome_observeStates hworking (hpending l fun _ hm => hm)).unique
      (stateOutcome_observeStates hworking (hpending l' fun report hm => (hsame report).mpr hm))
      hmem fun next hn next' hn' ht ht' => ?_
    obtain ⟨report, hreport, rfl⟩ := List.mem_map.mp hn
    obtain ⟨report', hreport', rfl⟩ := List.mem_map.mp hn'
    obtain ⟨hm, hcurrent⟩ := List.mem_filter.mp hreport
    obtain ⟨hm', hcurrent'⟩ := List.mem_filter.mp hreport'
    exact hone report hm report' hm' (by simpa using hcurrent) (by simpa using hcurrent') ht ht'
  · have hfill' := hobserved'.fill
    rw [hfills] at hfill'
    exact hobserved.fill.unique hfill'

/-- A partial fill of the current leg, the end of the replaced one, the complete fill. -/
def racingReports : List ExecutionReport :=
  [⟨"c1", "2", .partiallyFilled, .buy, "2", ""⟩, ⟨"c1", "1", .canceled, .buy, "1.50", ""⟩,
    ⟨"c1", "", .filled, .buy, "5.0", ""⟩]

def replaced : System :=
  (Transition.exec step (fun _ _ => True) (boot .sample (some .fresh)) replacedActions).get
    (by decide)

/-- The three reports backwards, then once more. -/
theorem report_order_irrelevant_racing : ∃ record new new',
    Run (boot .sample (some .fresh)) replaced ∧ replaced.oms.lookup "c1" = some record ∧
    (racingReports.foldl Oms.onExecutionReport replaced.oms).lookup "c1" = some new ∧
    ((racingReports.reverse ++ racingReports).foldl Oms.onExecutionReport
      replaced.oms).lookup "c1" = some new' ∧
    new.state = .filled ∧ new.state = new'.state ∧ new.legs = new'.legs ∧
    new.filledValue = new'.filledValue ∧
    IsGreatest (insert record.filledValue (OrderRecord.parsedFills racingReports))
      new.filledValue := by
  have hreach : Run (boot .sample (some .fresh)) replaced := Transition.reaches_get_exec _
  have hcalls : "c1" ∉ replaced.owners := by decide
  have hr : replaced.oms.lookup "c1" = some _ := rfl
  have hzero : parseDecimal "0" = .ok ⟨0, 0⟩ := by decide
  obtain ⟨new, new', hnew, hnew', hstate, hlegs, -, -, hfill, -, hgreatest⟩ :=
    report_order_irrelevant .sample (some .fresh) hreach hcalls hr (.inl rfl) hzero
      racingReports (racingReports.reverse ++ racingReports) (by simp) (by decide)
      (by decide) (by decide) (by decide)
  refine ⟨_, new, new', hreach, hr, hnew, hnew', ?_, hstate, hlegs, hfill, hgreatest⟩
  have hfilled : ((racingReports.foldl Oms.onExecutionReport replaced.oms).lookup "c1").map
      OrderRecord.state = some .filled := by decide +kernel
  rw [hnew] at hfilled
  exact Option.some.inj hfilled

end System

end ExchangeGateway
