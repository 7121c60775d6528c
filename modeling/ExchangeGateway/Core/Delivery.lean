import ExchangeGateway.Core.Ownership

/-! Delivery of execution reports: each report for a registered order is arbitrated exactly once,
in arrival order, at the latest when the open call of its order closes. -/
namespace ExchangeGateway

/-- The reports accounted for: how many the counters saw, and which ones were arbitrated. -/
structure Delivered where
  counted : ℕ
  handed : List ExecutionReport
  deriving DecidableEq, Repr

def Delivered.add (delivered : Delivered) (reports : List ExecutionReport) : Delivered :=
  ⟨delivered.counted + reports.length, delivered.handed ++ reports⟩

@[simp] theorem Delivered.add_nil (delivered : Delivered) : delivered.add [] = delivered := by
  simp [add]

theorem Delivered.add_add (delivered : Delivered) (reports reports' : List ExecutionReport) :
    (delivered.add reports).add reports' = delivered.add (reports ++ reports') := by
  simp [add, Nat.add_assoc]

namespace Oms

def delivered (oms : Oms) : Delivered :=
  ⟨oms.stats.reportsApplied + oms.stats.reportsStale + oms.stats.reportsUnknown,
    oms.history.handed⟩

/-! ### What the sections deliver -/

theorem delivered_apart : Apart delivered := ⟨fun _ _ => rfl, fun _ _ => rfl, fun _ => rfl,
  fun _ _ _ => rfl, fun _ _ => rfl⟩

private theorem delivered_applyReport (oms : Oms) (record : OrderRecord)
    (report : ExecutionReport) (lifecycle : Bool) :
    (oms.applyReport record report lifecycle).1.delivered =
      ⟨oms.delivered.counted + 1, oms.delivered.handed⟩ := by
  unfold applyReport
  dsimp only
  generalize (if record.exchangeOrderId = "" then _ else record) = record
  split
  · rw [delivered_apart.appendEvent]
    simp only [delivered, store]
    congr 1
    omega
  · simp only [delivered, store]
    congr 1
    omega

theorem delivered_applyArbitratedReport (oms : Oms) (record : OrderRecord)
    (report : ExecutionReport) :
    (oms.applyArbitratedReport record report).1.delivered = oms.delivered.add [report] := by
  unfold applyArbitratedReport
  dsimp only
  split
  · split <;> exact delivered_applyReport _ _ _ _
  · exact delivered_applyReport _ _ _ _

theorem delivered_applyReports (oms : Oms) (record : OrderRecord)
    (reports : List ExecutionReport) :
    (oms.applyReports record reports).1.delivered = oms.delivered.add reports := by
  induction reports generalizing oms record with
  | nil => simp [applyReports]
  | cons report reports ih =>
    have hrest := ih (oms.applyArbitratedReport record report).1
      (oms.applyArbitratedReport record report).2
    rw [delivered_applyArbitratedReport, Delivered.add_add] at hrest
    exact hrest

theorem delivered_drainRacedReports (oms : Oms) (id : String) :
    (oms.drainRacedReports id).1.delivered = oms.delivered := by
  unfold drainRacedReports
  split <;> rfl

theorem delivered_stagePending (oms : Oms) (record : OrderRecord) (connector : String) :
    (oms.stagePending record connector).1.delivered = oms.delivered := by
  unfold stagePending
  split
  · rename_i heq
    have hlogged := delivered_apart.of_appendOrError heq
    exact hlogged
  · rename_i heq
    have hlogged := delivered_apart.of_appendOrError heq
    exact hlogged

theorem delivered_placeStage (oms : Oms) (request : OrderRequest) (venue : String) :
    (oms.placeStage request venue).1.delivered = oms.delivered := by
  unfold placeStage
  dsimp only
  split
  · split <;> rfl
  · split
    · rfl
    · split
      · rfl
      · exact delivered_apart.recordRiskRejection _ _ _
      · exact delivered_stagePending _ _ _

/-- An acked call delivers its buffer once the ack is persisted. -/
private theorem delivered_settle {oms : Oms} {raced : List ExecutionReport}
    (h : raced = [] ∨ oms.persists) (record : OrderRecord) (event : Json) :
    (oms.settle record event raced).delivered = oms.delivered.add raced := by
  unfold settle
  split
  · rw [delivered_applyReports]
    rfl
  · rename_i hp
    rw [h.resolve_right hp, Delivered.add_nil]
    rfl

private theorem delivered_amendFailed (oms : Oms) (record : OrderRecord)
    (raced : List ExecutionReport) :
    (oms.amendFailed record raced).delivered = oms.delivered.add raced := by
  unfold amendFailed
  dsimp only
  rw [delivered_applyReports]
  split <;> rfl

/-- The outcome of a place delivers the buffer, unless the venue definitively refused or the ack
could not be persisted. -/
theorem delivered_placeOutcome {oms : Oms} {request : OrderRequest}
    (hid : request.clientOrderId ∈ oms.orders) {placement : Result OrderPlacement}
    (h : oms.buffered request.clientOrderId = [] ∨
      match placement with
      | .error error => error.code = "transport"
      | .ok _ => oms.persists) :
    (oms.placeOutcome request placement).1.delivered =
      oms.delivered.add (oms.buffered request.clientOrderId) := by
  obtain ⟨record, hrecord⟩ := KeyedList.mem_iff.mp hid
  have hlookup : (oms.drainRacedReports request.clientOrderId).1.lookup request.clientOrderId =
      some record := (oms.lookup_drainRacedReports _ _).trans hrecord
  have hdrain := oms.delivered_drainRacedReports request.clientOrderId
  unfold placeOutcome
  simp only [hlookup, drainRacedReports_snd]
  cases placement with
  | error error =>
    by_cases hcode : error.code = "transport"
    · simp only [hcode, ne_eq, not_true_eq_false, if_false]
      rw [delivered_applyReports, hdrain]
    · have hempty := h.resolve_right hcode
      simp only [hcode, ne_eq, not_false_eq_true, if_true]
      rw [delivered_apart.placeRejected, hdrain, hempty, Delivered.add_nil]
  | ok ack =>
    have hp : oms.buffered request.clientOrderId = [] ∨
        (oms.drainRacedReports request.clientOrderId).1.persists := by
      rw [persists_drainRacedReports]
      exact h
    rw [placeAcked_fst, delivered_settle hp, hdrain]

/-- The outcome of an amend delivers the buffer, unless its ack could not be persisted. -/
theorem delivered_amendOutcome {oms : Oms} {command : AmendCommand}
    (hid : command.clientOrderId ∈ oms.orders) (wire : AmendRequest)
    {placement : Result OrderPlacement}
    (h : oms.buffered command.clientOrderId = [] ∨
      match placement with
      | .error _ => True
      | .ok _ => oms.persists) :
    (oms.amendOutcome command wire placement).1.delivered =
      oms.delivered.add (oms.buffered command.clientOrderId) := by
  obtain ⟨record, hrecord⟩ := KeyedList.mem_iff.mp hid
  have hlookup : (oms.drainRacedReports command.clientOrderId).1.lookup command.clientOrderId =
      some record := (oms.lookup_drainRacedReports _ _).trans hrecord
  have hdrain := oms.delivered_drainRacedReports command.clientOrderId
  unfold amendOutcome
  simp only [hlookup, drainRacedReports_snd]
  cases placement with
  | error error => exact (delivered_amendFailed _ record _).trans (by rw [hdrain])
  | ok ack =>
    have hp : oms.buffered command.clientOrderId = [] ∨
        (oms.drainRacedReports command.clientOrderId).1.persists := by
      rw [persists_drainRacedReports]
      exact h
    rw [amendAcked_fst, delivered_settle hp, hdrain]

end Oms

/-- The steps that neither open nor close a place or amend, nor bring a report. -/
def Action.aside : Action → Bool
  | .place _ _ | .placed _ _ | .amend _ | .amended _ _ | .report _ | .restart _ _ => false
  | _ => true

namespace System

variable {s t : System} {a : Action}

theorem view_step {γ : Type} {view : Oms → γ} (h : Oms.Apart view) (hs : s.step a = some t)
    (ha : a.aside) : view t.oms = view s.oms := by
  cases a with
  | place _ _ | placed _ _ | amend _ | amended _ _ | report _ | restart _ _ => cases ha
  | send i =>
    obtain ⟨_, _, _, -, rfl⟩ := send_cases hs
    rfl
  | cancel id =>
    obtain rfl := Option.some.inj hs
    rw [cancel_oms]
  | canceled i placement =>
    obtain ⟨_, _, _, -, rfl⟩ := canceled_cases hs
    exact h.cancelOutcome _ _ _
  | reconcile =>
    obtain rfl := Option.some.inj hs
    rfl
  | listed i pending =>
    obtain ⟨_, _, _, _, -, -, -, -, ⟨_, -, ht⟩ | ⟨_, -, ht⟩⟩ := listed_cases hs
    · rw [ht]
    · rw [ht]
      exact h.reconcileListing _ _ _ _
  | collect i =>
    obtain ⟨_, -, rfl⟩ := collect_cases hs
    rfl
  | resolved i answer =>
    obtain ⟨_, _, _, _, -, -, -, -, ⟨-, ht⟩ | ⟨-, ht⟩⟩ := resolved_cases hs
    · rw [ht]
    · rw [ht]
      exact h.reconcileItem _ _ _ _
  | finish i =>
    obtain ⟨_, -, rfl⟩ := finish_cases hs
    rfl
  | rehash orders =>
    obtain ⟨-, rfl⟩ := rehash_cases hs
    exact h.rehash _ _

/-! ### The accounting invariant -/

/-- The reports that arrived are counted or buffered; those of a registered order are arbitrated
in arrival order, up to its buffer. -/
structure Accounted (s : System) : Prop where
  owned : s.Owned
  addressed : ∀ id, ∀ report ∈ s.oms.buffered id, report.clientOrderId = id
  counted : s.trace.arrived.length =
    s.oms.delivered.counted + s.oms.racedReports.sum (·.reports.length)
  handed : ∀ id, s.trace.known.filter (·.clientOrderId = id) =
    s.oms.delivered.handed.filter (·.clientOrderId = id) ++ s.oms.buffered id

theorem boot_accounted (config : Config) (log : Option EventLog) :
    (boot config log).Accounted := by
  refine ⟨boot_owned config log, ?_, ?_, ?_⟩
  all_goals cases log
  all_goals first | rfl | (intro id report hm; cases hm) | (intro id; rfl)

private theorem Accounted.of_eq (h : s.Accounted) (howned : t.Owned)
    (hraced : t.oms.racedReports = s.oms.racedReports)
    (hdelivered : t.oms.delivered = s.oms.delivered)
    (harrived : t.trace.arrived = s.trace.arrived) (hknown : t.trace.known = s.trace.known) :
    t.Accounted := by
  have hbuffered (id : String) : t.oms.buffered id = s.oms.buffered id := by
    simp only [Oms.buffered, hraced]
  constructor
  · exact howned
  · intro id
    rw [hbuffered]
    exact h.addressed id
  · rw [harrived, hdelivered, hraced]
    exact h.counted
  · intro id
    rw [hknown, hdelivered, hbuffered]
    exact h.handed id

private theorem Accounted.of_open (h : s.Accounted) (howned : t.Owned) {id : String}
    (hnew : id ∉ s.oms.racedReports)
    (hraced : t.oms.racedReports = s.oms.racedReports.set ⟨id, []⟩)
    (hdelivered : t.oms.delivered = s.oms.delivered) (htrace : t.trace = s.trace) :
    t.Accounted := by
  have hnone : s.oms.racedReports.find? id = none := KeyedList.not_mem_iff.mp hnew
  have hbuffered (id' : String) : t.oms.buffered id' = s.oms.buffered id' := by
    simp only [Oms.buffered, hraced, KeyedList.find?_set]
    split
    · rename_i he
      rw [← he, hnone]
      rfl
    · rfl
  constructor
  · exact howned
  · intro id'
    rw [hbuffered]
    exact h.addressed id'
  · rw [htrace, hdelivered, hraced, KeyedList.sum_set_new _ _ hnone]
    exact h.counted
  · intro id'
    rw [htrace, hdelivered, hbuffered]
    exact h.handed id'

private theorem Accounted.of_close (h : s.Accounted) (howned : t.Owned) {id : String}
    (hid : id ∈ s.oms.racedReports)
    (hraced : t.oms.racedReports = s.oms.racedReports.erase id)
    (hdelivered : t.oms.delivered = s.oms.delivered.add (s.oms.buffered id))
    (htrace : t.trace = s.trace) : t.Accounted := by
  obtain ⟨raced, hfind⟩ := KeyedList.mem_iff.mp hid
  have hlength : (s.oms.buffered id).length = raced.reports.length := by
    simp [Oms.buffered, hfind]
  have hself : t.oms.buffered id = [] := by simp [Oms.buffered, hraced]
  have hother {id' : String} (hne : id' ≠ id) : t.oms.buffered id' = s.oms.buffered id' := by
    simp only [Oms.buffered, hraced, KeyedList.find?_erase_of_ne _ hne]
  constructor
  · exact howned
  · intro id' report hm
    by_cases hne : id' = id
    · rw [hne, hself] at hm
      cases hm
    · rw [hother hne] at hm
      exact h.addressed id' report hm
  · have hsum := s.oms.racedReports.sum_erase (·.reports.length) hfind
    have hcounted := h.counted
    rw [htrace, hdelivered, hraced]
    simp only [Delivered.add, hlength]
    omega
  · intro id'
    rw [htrace, hdelivered, h.handed id', Delivered.add, List.filter_append]
    by_cases hne : id' = id
    · have hall : (s.oms.buffered id).filter (·.clientOrderId = id) = s.oms.buffered id := by
        rw [List.filter_eq_self]
        intro report hm
        exact decide_eq_true (h.addressed id report hm)
      rw [hne, hall, hself, List.append_nil]
    · have hnone : (s.oms.buffered id).filter (·.clientOrderId = id') = [] := by
        rw [List.filter_eq_nil_iff]
        intro report hm
        rw [h.addressed id report hm, decide_eq_true_eq]
        exact Ne.symm hne
      rw [hnone, List.append_nil, hother hne]

private theorem filter_addressed_append (reports : List ExecutionReport)
    (report : ExecutionReport) (id : String) :
    (reports ++ [report]).filter (·.clientOrderId = id) =
      reports.filter (·.clientOrderId = id) ++
        if report.clientOrderId = id then [report] else [] := by
  rw [List.filter_append]
  split
  · rename_i he
    rw [List.filter_cons_of_pos (by simpa using he), List.filter_nil]
  · rename_i he
    rw [List.filter_cons_of_neg (by simpa using he), List.filter_nil]

/-- A report of an order with an open call joins its buffer. -/
private theorem Accounted.report_buffered (h : s.Accounted) {report : ExecutionReport}
    {raced : RacedReports} (hraced : s.oms.racedReports.find? report.clientOrderId = some raced) :
    (s.report report).Accounted := by
  have hs : s.step (.report report) = some (s.report report) := rfl
  have hkey : raced.clientOrderId = report.clientOrderId := KeyedList.key_of_find? hraced
  have hmem : report.clientOrderId ∈ s.oms.orders :=
    h.owned.registered _ ((h.owned.raced _).mp (KeyedList.mem_of_find? hraced))
  have homs : (s.report report).oms =
      { s.oms with
        racedReports := s.oms.racedReports.set { raced with reports := raced.reports ++ [report] }
        stats.reportsBuffered := s.oms.stats.reportsBuffered + 1 } := by
    simp only [System.report, Oms.onExecutionReport, hraced]
  have hdelivered : (s.report report).oms.delivered = s.oms.delivered := by
    rw [homs]
    rfl
  have hbuffered (id : String) : (s.report report).oms.buffered id =
      s.oms.buffered id ++ if report.clientOrderId = id then [report] else [] := by
    simp only [Oms.buffered, homs, KeyedList.find?_set, hkey]
    by_cases he : report.clientOrderId = id
    · simp [← he, hraced]
    · rw [if_neg he, if_neg he, List.append_nil]
  refine ⟨h.owned.step hs, fun id report' hm => ?_, ?_, fun id => ?_⟩
  · rw [hbuffered, List.mem_append] at hm
    rcases hm with hm | hm
    · exact h.addressed id report' hm
    · split at hm
      · rename_i he
        rw [List.mem_singleton.mp hm, he]
      · cases hm
  · have hset := s.oms.racedReports.sum_set_old (·.reports.length)
      (a := { raced with reports := raced.reports ++ [report] }) (b := raced)
      (by rw [← hraced, ← hkey])
    have hcounted := h.counted
    have hsum : (s.report report).oms.racedReports =
        s.oms.racedReports.set { raced with reports := raced.reports ++ [report] } := by rw [homs]
    have harrived : (s.report report).trace.arrived = s.trace.arrived ++ [report] := rfl
    rw [harrived, hdelivered, hsum]
    simp only [List.length_append, List.length_singleton] at hset ⊢
    omega
  · have hknown : (s.report report).trace.known = s.trace.known ++ [report] := if_pos hmem
    rw [hknown, hdelivered, hbuffered, filter_addressed_append, h.handed, List.append_assoc]

/-- A report of an unregistered order is only counted. -/
private theorem Accounted.report_unknown (h : s.Accounted) {report : ExecutionReport}
    (hraced : s.oms.racedReports.find? report.clientOrderId = none)
    (hlookup : s.oms.lookup report.clientOrderId = none) : (s.report report).Accounted := by
  have hs : s.step (.report report) = some (s.report report) := rfl
  have homs : (s.report report).oms =
      { s.oms with stats.reportsUnknown := s.oms.stats.reportsUnknown + 1 } := by
    simp only [System.report, Oms.onExecutionReport, hraced, hlookup]
  refine ⟨h.owned.step hs, ?_, ?_, ?_⟩
  · rw [homs]
    exact h.addressed
  · have harrived : (s.report report).trace.arrived = s.trace.arrived ++ [report] := rfl
    rw [harrived, homs, List.length_append, h.counted]
    simp only [Oms.delivered, List.length_singleton]
    omega
  · have hknown : (s.report report).trace.known = s.trace.known :=
      if_neg (KeyedList.not_mem_iff.mpr hlookup)
    rw [hknown, homs]
    exact h.handed

/-- Any other report is arbitrated at once. -/
private theorem Accounted.report_arbitrated (h : s.Accounted) {report : ExecutionReport}
    (hraced : s.oms.racedReports.find? report.clientOrderId = none) {record : OrderRecord}
    (hlookup : s.oms.lookup report.clientOrderId = some record) :
    (s.report report).Accounted := by
  have hs : s.step (.report report) = some (s.report report) := rfl
  have homs : (s.report report).oms = (s.oms.applyArbitratedReport record report).1 := by
    simp only [System.report, Oms.onExecutionReport, hraced, hlookup]
  have hdelivered := s.oms.delivered_applyArbitratedReport record report
  have hsame : (s.report report).oms.racedReports = s.oms.racedReports := by
    rw [homs]
    exact congrArg Prod.snd (s.oms.frame_applyArbitratedReport record report)
  have hbuffered (id : String) : (s.report report).oms.buffered id = s.oms.buffered id := by
    simp only [Oms.buffered, hsame]
  refine ⟨h.owned.step hs, fun id => ?_, ?_, fun id => ?_⟩
  · rw [hbuffered]
    exact h.addressed id
  · have harrived : (s.report report).trace.arrived = s.trace.arrived ++ [report] := rfl
    rw [harrived, hsame, homs, hdelivered, List.length_append, h.counted]
    simp only [Delivered.add, List.length_singleton]
    omega
  · have hknown : (s.report report).trace.known = s.trace.known ++ [report] :=
      if_pos (KeyedList.mem_of_find? hlookup)
    rw [hknown, hbuffered, homs, hdelivered, Delivered.add, filter_addressed_append,
      filter_addressed_append, h.handed]
    by_cases he : report.clientOrderId = id
    · have hempty : s.oms.buffered id = [] := by simp [Oms.buffered, ← he, hraced]
      rw [hempty, List.append_nil, List.append_nil]
    · rw [if_neg he, List.append_nil, List.append_nil]

/-! ### The condition and the result -/

/-- The step does not discard a buffer: the outcome of a place with buffered reports is an ack
that is persisted or a transport error, the ack of such an amend is persisted. -/
def forwards (s : System) : Action → Bool
  | .placed i placement =>
    match s.calls[i]? with
    | some (.place request _ _ _) =>
      s.oms.buffered request.clientOrderId = [] ||
        match placement with
        | .error error => error.code = "transport"
        | .ok _ => s.oms.persists
    | _ => true
  | .amended i (.ok _) =>
    match s.calls[i]? with
    | some (.amend command _ _ _) =>
      s.oms.buffered command.clientOrderId = [] || s.oms.persists
    | _ => true
  | _ => true

private theorem Accounted.placed (h : s.Accounted) {i : ℕ} {placement : Result OrderPlacement}
    (hs : s.step (.placed i placement) = some t) (hforwards : s.forwards (.placed i placement)) :
    t.Accounted := by
  have howned := h.owned.step hs
  obtain ⟨request, connector, staged, hc, rfl⟩ := placed_cases hs
  have hmem : request.clientOrderId ∈ s.owners :=
    List.mem_filterMap.mpr ⟨_, List.mem_of_getElem? hc, rfl⟩
  simp only [forwards, hc, Bool.or_eq_true, decide_eq_true_eq] at hforwards
  refine h.of_close howned ((h.owned.raced _).mpr hmem) ?_ ?_ rfl
  · have hframe := congrArg Prod.snd (s.oms.frame_placeOutcome request placement)
    exact hframe.trans (s.oms.racedReports_drainRacedReports _)
  · apply Oms.delivered_placeOutcome (h.owned.registered _ hmem)
    cases placement with
    | error error => simpa using hforwards
    | ok ack => exact hforwards

private theorem Accounted.amended (h : s.Accounted) {i : ℕ} {placement : Result OrderPlacement}
    (hs : s.step (.amended i placement) = some t)
    (hforwards : s.forwards (.amended i placement)) : t.Accounted := by
  have howned := h.owned.step hs
  obtain ⟨command, wire, connector, validated, hc, rfl⟩ := amended_cases hs
  have hmem : command.clientOrderId ∈ s.owners :=
    List.mem_filterMap.mpr ⟨_, List.mem_of_getElem? hc, rfl⟩
  refine h.of_close howned ((h.owned.raced _).mpr hmem) ?_ ?_ rfl
  · have hframe := congrArg Prod.snd (s.oms.frame_amendOutcome command wire placement)
    exact hframe.trans (s.oms.racedReports_drainRacedReports _)
  · apply Oms.delivered_amendOutcome (h.owned.registered _ hmem)
    cases placement with
    | error error => exact .inr trivial
    | ok ack => simpa [forwards, hc] using hforwards

private theorem Accounted.place (h : s.Accounted) (request : OrderRequest) (venue : String) :
    (s.place request venue).Accounted := by
  have hs : s.step (.place request venue) = some (s.place request venue) := rfl
  have howned := h.owned.step hs
  have hdelivered : (s.place request venue).oms.delivered = s.oms.delivered := by
    rw [place_oms]
    exact s.oms.delivered_placeStage request venue
  cases s.oms.placeStage_cases request venue with
  | unchanged hafter _ hstage =>
    rw [place_refused hstage, hafter]
    exact h
  | riskRejected _ _ _ _ _ hstage hframe =>
    have hraced : (s.place request venue).oms.racedReports = s.oms.racedReports := by
      rw [place_oms]
      exact congrArg Prod.snd hframe
    rw [place_riskRejected hstage] at hdelivered howned hraced ⊢
    exact h.of_eq howned hraced hdelivered rfl rfl
  | unpersisted _ _ _ _ _ hstage hframe =>
    have hraced : (s.place request venue).oms.racedReports = s.oms.racedReports := by
      rw [place_oms]
      exact congrArg Prod.snd hframe
    rw [place_refused (.inl ⟨_, hstage⟩)] at hdelivered howned hraced ⊢
    exact h.of_eq howned hraced hdelivered rfl rfl
  | opened _ _ hnew _ _ _ hstage _ hraced =>
    -- an unregistered order has no open call, hence no buffer
    have hfree : request.clientOrderId ∉ s.oms.racedReports := fun hm =>
      KeyedList.not_mem_iff.mpr hnew (h.owned.registered _ ((h.owned.raced _).mp hm))
    rw [if_neg hfree] at hraced
    rw [place_opened hstage] at hdelivered howned ⊢
    exact h.of_open howned hfree hraced hdelivered rfl

private theorem Accounted.amend (h : s.Accounted) (command : AmendCommand) :
    (s.amend command).Accounted := by
  have hs : s.step (.amend command) = some (s.amend command) := rfl
  have howned := h.owned.step hs
  cases s.oms.amendStage_cases command with
  | unchanged hafter hstage =>
    rw [amend_refused hstage, hafter]
    exact h
  | opened _ _ _ _ _ hfree hstage hafter =>
    rw [amend_opened hstage, hafter] at howned ⊢
    exact h.of_open howned hfree rfl rfl rfl

theorem Accounted.step (h : s.Accounted) (hs : s.step a = some t) (ha : a.live)
    (hforwards : s.forwards a) : t.Accounted := by
  cases a with
  | place request venue =>
    obtain rfl := Option.some.inj hs
    exact h.place request venue
  | amend command =>
    obtain rfl := Option.some.inj hs
    exact h.amend command
  | placed i placement => exact h.placed hs hforwards
  | amended i placement => exact h.amended hs hforwards
  | report report =>
    obtain rfl := Option.some.inj hs
    cases hraced : s.oms.racedReports.find? report.clientOrderId with
    | some raced => exact h.report_buffered hraced
    | none =>
      cases hlookup : s.oms.lookup report.clientOrderId with
      | none => exact h.report_unknown hraced hlookup
      | some record => exact h.report_arbitrated hraced hlookup
  | restart config logOpen => cases ha
  | send i =>
    have howned := h.owned.step hs
    obtain ⟨_, _, _, -, rfl⟩ := send_cases hs
    exact h.of_eq howned rfl rfl rfl rfl
  | _ =>
    have hraced := congrArg Prod.snd (view_step Oms.frame_apart hs rfl)
    have hdelivered := view_step Oms.delivered_apart hs rfl
    have htrace := trace_step hs rfl
    exact h.of_eq (h.owned.step hs) hraced hdelivered (by rw [htrace]) (by rw [htrace])

/-- In every run of one incarnation that discards no buffer: every report that arrived is counted
as applied, stale or unknown or is still buffered; the reports of a registered order are
arbitrated exactly once, in arrival order, up to those in its buffer; and only an order with an
open place or amend has a buffer. -/
theorem no_report_lost (config : Config) (log : Option EventLog) {s : System}
    (h : Transition.Reaches step (fun s a => a.live && s.forwards a) (boot config log) s) :
    s.trace.arrived.length = s.oms.stats.reportsApplied + s.oms.stats.reportsStale +
        s.oms.stats.reportsUnknown + s.oms.racedReports.sum (·.reports.length) ∧
      (∀ id, s.trace.known.filter (·.clientOrderId = id) =
        s.oms.history.handed.filter (·.clientOrderId = id) ++ s.oms.buffered id) ∧
      ∀ id ∉ s.owners, s.oms.buffered id = [] := by
  have hI : s.Accounted := by
    apply Transition.Reaches.invariant (I := Accounted) _ h (boot_accounted config log)
    intro s a t hI ha hs
    obtain ⟨hlive, hforwards⟩ := Bool.and_eq_true_iff.mp ha
    exact hI.step hs hlive hforwards
  refine ⟨hI.counted, hI.handed, fun id hid => ?_⟩
  have hfree : id ∉ s.oms.racedReports := fun hm => hid ((hI.owned.raced id).mp hm)
  simp [Oms.buffered, KeyedList.not_mem_iff.mp hfree]

/-- Two fills race the ack of a place, a third report finds no call open, a fourth no order. -/
theorem no_report_lost_raced : ∃ s,
    Transition.Reaches step (fun s a => a.live && s.forwards a) (boot .sample (some .fresh)) s ∧
      s.trace.arrived.length = 4 ∧ s.oms.history.handed.length = 3 ∧
      s.trace.arrived.length = s.oms.stats.reportsApplied + s.oms.stats.reportsStale +
        s.oms.stats.reportsUnknown + s.oms.racedReports.sum (·.reports.length) := by
  have hrun : (Transition.exec step (fun s a => a.live && s.forwards a)
    (boot .sample (some .fresh))
    [.place .sample "", .send 0, .report ⟨"c1", "1", .partiallyFilled, .buy, "2", "100"⟩,
      .report ⟨"c1", "1", .partiallyFilled, .buy, "1", "100"⟩, .placed 0 (.ok ⟨"c1", "1"⟩),
      .report ⟨"c1", "1", .filled, .buy, "5", "100"⟩,
      .report ⟨"c2", "9", .filled, .buy, "5", "100"⟩]).isSome := by decide
  have hreach := Transition.reaches_get_exec hrun
  exact ⟨_, hreach, rfl, rfl, (no_report_lost .sample (some .fresh) hreach).1⟩

/-- A fill races the ack of a place; the log refuses the event of the ack and the buffer goes with
it: one report arrived, none is counted, buffered or arbitrated. -/
theorem report_lost_with_failed_append : ∃ s,
    LiveRun (boot .sample (some { EventLog.fresh with
      fate := fun n => if n = 0 then .written else .held 0 false })) s ∧
      s.trace.known = [⟨"c1", "1", .filled, .buy, "5", "100"⟩] ∧ s.calls = [] ∧
      s.oms.history.handed = [] ∧
      s.oms.stats.reportsApplied + s.oms.stats.reportsStale + s.oms.stats.reportsUnknown +
        s.oms.racedReports.sum (·.reports.length) = 0 := by
  have hrun : (Transition.exec step (fun _ a => a.live)
    (boot .sample (some { EventLog.fresh with
      fate := fun n => if n = 0 then .written else .held 0 false }))
    [.place .sample "", .send 0, .report ⟨"c1", "1", .filled, .buy, "5", "100"⟩,
      .placed 0 (.ok ⟨"c1", "1"⟩)]).isSome := by decide
  exact ⟨_, Transition.reaches_get_exec hrun, rfl, rfl, rfl, rfl⟩

end System

end ExchangeGateway
