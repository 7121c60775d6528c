import ExchangeGateway.Core.Exclusive
import Mathlib.Data.Rat.Defs

/-! One client order between the gateway and a cancelReplace venue. A processed amend cancels the
current venue order and creates another one under the same client order id; the reports reach the
gateway in the order of their emission, during or after any call. -/
namespace ExchangeGateway

/-- The quantity an adapter sends with a place and with an amend; `none` when it refuses the
request itself. -/
structure Adapter where
  place : OrderRequest → Option String
  amend : AmendRequest → Option String

def Adapter.plain : Adapter where
  place request := some request.quantity
  amend wire := wire.newQuantity

structure VenueOrder where
  orderId : String
  quantity : String
  executed : ℚ := 0
  deriving DecidableEq

structure Book where
  /-- Oldest first; only the last one can be working. -/
  orders : List VenueOrder := []
  working : Bool := false
  /-- The request of the open call has been processed. -/
  processed : Bool := false
  /-- Reports on their way to the gateway. -/
  feed : List ExecutionReport := []

namespace Book

def ids (book : Book) : List String := book.orders.map VenueOrder.orderId

def newest? (book : Book) : Option String := book.ids.getLast?

def executed (book : Book) : ℚ := (book.orders.map VenueOrder.executed).sum

end Book

structure Market where
  system : System
  book : Book := {}
  /-- The quantities the client asked for, with a place or an amend. -/
  requested : List String := []

namespace Market

inductive Action
  /-- A section of the order management system. -/
  | gateway (a : ExchangeGateway.Action)
  /-- The venue processes the place of call `i`. -/
  | accept (i : ℕ) (orderId : String)
  /-- The venue processes the amend of call `i`. -/
  | replace (i : ℕ) (orderId : String) (canceled live : ExecutionReport)
  /-- The working order changes, with or without an execution. -/
  | trade (amount : ℚ) (report : ExecutionReport)
  | deliver

def closes (s : System) (id : String) : ExchangeGateway.Action → Bool
  | .placed i _ | .amended i _ => s.calls[i]?.bind Call.owner = some id
  | _ => false

def asked (id : String) : ExchangeGateway.Action → List String
  | .place request _ => if request.clientOrderId = id then [request.quantity] else []
  | .amend command => if command.clientOrderId = id then command.newQuantity.toList else []
  | _ => []

section

variable (id : String) (adapter : Adapter) (size : String → ℚ) (m : Market)

/-- An ack names the order that the venue created for the call; an error may stand for a lost ack.
Cancels and reconciliations do not take place. -/
def admits (a : ExchangeGateway.Action) : Bool :=
  match a with
  | .placed _ (.ok ack) | .amended _ (.ok ack) =>
    !closes m.system id a || m.book.processed && m.book.newest? = some ack.exchangeOrderId
  | .placed _ (.error _) | .amended _ (.error _) => true
  | .report report => report.clientOrderId ≠ id
  | .place _ _ | .send _ | .amend _ | .rehash _ => true
  | _ => false

def gateway (a : ExchangeGateway.Action) : Option Market :=
  if m.admits id a then
    (m.system.step a).map fun system =>
      { m with
        system := system
        book.processed := m.book.processed && !closes m.system id a
        requested := m.requested ++ asked id a }
  else none

def accept (i : ℕ) (orderId : String) : Option Market :=
  match m.system.calls[i]? with
  | some (.place request _ _ true) =>
    match adapter.place request with
    | some quantity =>
      if request.clientOrderId = id ∧ m.book.orders = [] ∧ orderId ≠ "" ∧ 0 < size quantity then
        some { m with
          book.orders := [⟨orderId, quantity, 0⟩]
          book.working := true
          book.processed := true }
      else none
    | none => none
  | _ => none

def replace (i : ℕ) (orderId : String) (canceled live : ExecutionReport) : Option Market :=
  match m.system.calls[i]? with
  | some (.amend command wire _ _) =>
    match adapter.amend wire with
    | some quantity =>
      if command.clientOrderId = id ∧ m.book.working ∧ ¬ m.book.processed ∧ orderId ≠ "" ∧
          orderId ∉ m.book.ids ∧ 0 < size quantity ∧
          (canceled.clientOrderId = id ∧ m.book.newest? = some canceled.exchangeOrderId ∧
            canceled.state = .canceled) ∧
          live.clientOrderId = id ∧ live.exchangeOrderId = orderId ∧ live.state = .live then
        some { m with
          book.orders := m.book.orders ++ [⟨orderId, quantity, 0⟩]
          book.processed := true
          book.feed := m.book.feed ++ [canceled, live] }
      else none
    | none => none
  | _ => none

/-- Each order executes at most its own quantity. -/
def trade (amount : ℚ) (report : ExecutionReport) : Option Market :=
  match m.book.orders.getLast? with
  | some newest =>
    if m.book.working ∧ report.clientOrderId = id ∧ report.exchangeOrderId = newest.orderId ∧
        0 ≤ amount ∧ newest.executed + amount ≤ size newest.quantity then
      some { m with
        book.orders := m.book.orders.dropLast ++
          [{ newest with executed := newest.executed + amount }]
        book.working := !isTerminal report.state
        book.feed := m.book.feed ++ [report] }
    else none
  | none => none

def deliver : Option Market :=
  match m.book.feed with
  | report :: feed => some { m with system := m.system.report report, book.feed := feed }
  | [] => none

def step : Market.Action → Option Market
  | .gateway a => m.gateway id a
  | .accept i orderId => m.accept id adapter size i orderId
  | .replace i orderId canceled live => m.replace id adapter size i orderId canceled live
  | .trade amount report => m.trade id size amount report
  | .deliver => m.deliver

end

variable {id : String} {adapter : Adapter} {size : String → ℚ} {m n : Market}

theorem gateway_cases {a : ExchangeGateway.Action} (h : m.gateway id a = some n) :
    m.admits id a ∧ ∃ t, m.system.step a = some t ∧
      n = { m with
        system := t
        book.processed := m.book.processed && !closes m.system id a
        requested := m.requested ++ asked id a } := by
  unfold gateway at h
  split_ifs at h with hadmits
  obtain ⟨t, ht, hn⟩ := Option.map_eq_some_iff.mp h
  exact ⟨hadmits, t, ht, hn.symm⟩

theorem accept_cases {i : ℕ} {orderId : String} (h : m.accept id adapter size i orderId = some n) :
    ∃ request connector staged quantity,
      m.system.calls[i]? = some (.place request connector staged true) ∧
      adapter.place request = some quantity ∧
      (request.clientOrderId = id ∧ m.book.orders = [] ∧ orderId ≠ "" ∧ 0 < size quantity) ∧
      n = { m with
        book.orders := [⟨orderId, quantity, 0⟩]
        book.working := true
        book.processed := true } := by
  unfold accept at h
  split at h
  case h_2 => cases h
  case h_1 request connector staged hc =>
    split at h
    case h_2 => cases h
    case h_1 quantity hquantity =>
      split_ifs at h with hguard
      exact ⟨request, connector, staged, quantity, hc, hquantity, hguard, (Option.some.inj h).symm⟩

theorem replace_cases {i : ℕ} {orderId : String} {canceled live : ExecutionReport}
    (h : m.replace id adapter size i orderId canceled live = some n) :
    ∃ command wire connector validated quantity,
      m.system.calls[i]? = some (.amend command wire connector validated) ∧
      adapter.amend wire = some quantity ∧
      (command.clientOrderId = id ∧ m.book.working ∧ ¬ m.book.processed ∧ orderId ≠ "" ∧
        orderId ∉ m.book.ids ∧ 0 < size quantity ∧
        (canceled.clientOrderId = id ∧ m.book.newest? = some canceled.exchangeOrderId ∧
          canceled.state = .canceled) ∧
        live.clientOrderId = id ∧ live.exchangeOrderId = orderId ∧ live.state = .live) ∧
      n = { m with
        book.orders := m.book.orders ++ [⟨orderId, quantity, 0⟩]
        book.processed := true
        book.feed := m.book.feed ++ [canceled, live] } := by
  unfold replace at h
  split at h
  case h_2 => cases h
  case h_1 command wire connector validated hc =>
    split at h
    case h_2 => cases h
    case h_1 quantity hquantity =>
      split_ifs at h with hguard
      exact ⟨command, wire, connector, validated, quantity, hc, hquantity, hguard,
        (Option.some.inj h).symm⟩

theorem trade_cases {amount : ℚ} {report : ExecutionReport}
    (h : m.trade id size amount report = some n) :
    ∃ older newest, m.book.orders = older ++ [newest] ∧
      (m.book.working ∧ report.clientOrderId = id ∧ report.exchangeOrderId = newest.orderId ∧
        0 ≤ amount ∧ newest.executed + amount ≤ size newest.quantity) ∧
      n = { m with
        book.orders := older ++ [{ newest with executed := newest.executed + amount }]
        book.working := !isTerminal report.state
        book.feed := m.book.feed ++ [report] } := by
  unfold trade at h
  split at h
  case h_2 => cases h
  case h_1 newest hnewest =>
    split_ifs at h with hguard
    obtain ⟨older, horders⟩ : ∃ older, m.book.orders = older ++ [newest] :=
      List.getLast?_eq_some_iff.mp hnewest
    have hdrop : m.book.orders.dropLast = older := by simp [horders]
    rw [hdrop] at h
    exact ⟨older, newest, horders, hguard, (Option.some.inj h).symm⟩

theorem deliver_cases (h : m.deliver = some n) :
    ∃ report feed, m.book.feed = report :: feed ∧
      n = { m with system := m.system.report report, book.feed := feed } := by
  unfold deliver at h
  split at h
  case h_2 => cases h
  case h_1 report feed hfeed => exact ⟨report, feed, hfeed, (Option.some.inj h).symm⟩

/-- A gateway that does not know the order yet. -/
def start (config : Config) (log : Option EventLog) : Market where
  system := .boot config log

end Market

/-! ### What a section does to one order -/

/-- The actions of a market: no cancel, no reconciliation, no restart. -/
def Action.ordinary : Action → Bool
  | .place _ _ | .send _ | .placed _ _ | .amend _ | .amended _ _ | .report _ | .rehash _ => true
  | _ => false

theorem Action.live_of_ordinary {a : Action} (h : a.ordinary) : a.live := by
  cases a <;> first | rfl | cases h

namespace System

variable {s t : System} {a : Action} {id : String}

def touches (s : System) (id : String) : Action → Bool
  | .place request _ => request.clientOrderId = id
  | .amend command => command.clientOrderId = id
  | .placed i _ | .amended i _ => s.calls[i]?.bind Call.owner = some id
  | .report report => report.clientOrderId = id
  | _ => false

private theorem key_ne_of_untouched (ha : a.ordinary) (h : ¬ s.touches id a) :
    ∀ entry ∈ s.entries a, entry.key ≠ id := by
  rintro entry hm rfl
  cases s.enters_of_mem hm with
  | riskRejected _ _ _ | staged _ _ => exact h (decide_eq_true rfl)
  | accepted _ hc | rejected _ hc | racedPlace _ _ hc _ | amended _ hc | discovered _ _ hc
  | racedAmend _ _ hc _ =>
    apply h
    simp [touches, hc, Call.owner, Entry.key]
  | reported report hfree => exact h (decide_eq_true rfl)
  | canceled _ _ | listed _ _ _ _ | resolved _ _ | absent _ _ => cases ha

theorem lookup_step_of_not_touches (hs : s.step a = some t) (ha : a.ordinary)
    (h : ¬ s.touches id a) : t.oms.lookup id = s.oms.lookup id :=
  lookup_step_of_untouched hs (Action.live_of_ordinary ha) (key_ne_of_untouched ha h)

theorem racedReports_placed {i : ℕ} {placement : Result OrderPlacement}
    (hs : s.step (.placed i placement) = some t) :
    ∃ request connector staged, s.calls[i]? = some (.place request connector staged true) ∧
      t.oms.racedReports = s.oms.racedReports.erase request.clientOrderId := by
  obtain ⟨request, connector, staged, hc, rfl⟩ := placed_cases hs
  have hframe := congrArg Prod.snd (s.oms.frame_placeOutcome request placement)
  exact ⟨request, connector, staged, hc,
    hframe.trans (s.oms.racedReports_drainRacedReports _)⟩

theorem racedReports_amended {i : ℕ} {placement : Result OrderPlacement}
    (hs : s.step (.amended i placement) = some t) :
    ∃ command wire connector validated,
      s.calls[i]? = some (.amend command wire connector validated) ∧
      t.oms.racedReports = s.oms.racedReports.erase command.clientOrderId := by
  obtain ⟨command, wire, connector, validated, hc, rfl⟩ := amended_cases hs
  have hframe := congrArg Prod.snd (s.oms.frame_amendOutcome command wire placement)
  exact ⟨command, wire, connector, validated, hc,
    hframe.trans (s.oms.racedReports_drainRacedReports _)⟩

/-- What an ordinary step does to the record of an order and to its raced reports. -/
inductive Moves (s : System) (id : String) :
    Action → Option OrderRecord → Option RacedReports → Prop
  | kept {a : Action} (hopen : ¬ Market.closes s id a) :
      Moves s id a (s.oms.lookup id) (s.oms.racedReports.find? id)
  | refused {request : OrderRequest} {venue : String} (venue' : String) (rejection : Error)
      (hid : request.clientOrderId = id) (hnew : s.oms.lookup id = none)
      (hfree : s.oms.racedReports.find? id = none) :
      Moves s id (.place request venue)
        (some ((Oms.candidate request venue').reject rejection)) none
  | opened {request : OrderRequest} {venue : String} (venue' : String)
      (hid : request.clientOrderId = id) (hnew : s.oms.lookup id = none)
      (hfree : s.oms.racedReports.find? id = none) :
      Moves s id (.place request venue) (some (Oms.candidate request venue')) (some ⟨id, []⟩)
  | answered {i : ℕ} {placement : Result OrderPlacement} {request : OrderRequest}
      {connector : String} {staged : OrderRecord}
      (hc : s.calls[i]? = some (.place request connector staged true))
      (hid : request.clientOrderId = id) :
      Moves s id (.placed i placement)
        ((s.oms.ledger.enterAll (s.oms.placedEntries id placement)).orders.find? id) none
  | amending {command : AmendCommand} (record : OrderRecord) (hid : command.clientOrderId = id)
      (hrecord : s.oms.lookup id = some record)
      (hstate : record.state = .live ∨ record.state = .partiallyFilled)
      (hfree : s.oms.racedReports.find? id = none) :
      Moves s id (.amend command) (some record) (some ⟨id, []⟩)
  | amended {i : ℕ} {placement : Result OrderPlacement} {command : AmendCommand}
      {wire : AmendRequest} {connector : String} {validated : OrderRecord}
      (hc : s.calls[i]? = some (.amend command wire connector validated))
      (hid : command.clientOrderId = id) :
      Moves s id (.amended i placement)
        ((s.oms.ledger.enterAll (s.oms.amendedEntries id wire placement)).orders.find? id) none
  | buffered {report : ExecutionReport} (raced : RacedReports) (hid : report.clientOrderId = id)
      (hraced : s.oms.racedReports.find? id = some raced) :
      Moves s id (.report report) (s.oms.lookup id)
        (some { raced with reports := raced.reports ++ [report] })
  | applied {report : ExecutionReport} (record : OrderRecord) (hid : report.clientOrderId = id)
      (hfree : s.oms.racedReports.find? id = none) (hrecord : s.oms.lookup id = some record) :
      Moves s id (.report report) (some (record.arbitrate report).1) none

private theorem Moves.of_eq {lookup : Option OrderRecord} {raced : Option RacedReports}
    (hopen : ¬ Market.closes s id a) (hlookup : lookup = s.oms.lookup id)
    (hraced : raced = s.oms.racedReports.find? id) : s.Moves id a lookup raced := by
  rw [hlookup, hraced]
  exact .kept hopen

private theorem moves_place (h : s.Owned) (request : OrderRequest) (venue : String) :
    s.Moves id (.place request venue) ((s.place request venue).oms.lookup id)
      ((s.place request venue).oms.racedReports.find? id) := by
  have hs : s.step (.place request venue) = some (s.place request venue) := rfl
  have hopen : ¬ Market.closes s id (.place request venue) := Bool.false_ne_true
  have hother (hid : request.clientOrderId ≠ id) :
      (s.place request venue).oms.lookup id = s.oms.lookup id :=
    lookup_step_of_not_touches hs rfl fun h => hid (of_decide_eq_true h)
  have hlookup := Oms.lookup_of_ledger (step_ledger hs rfl fun _ h => by cases h) id
  have hfree (hnew : s.oms.lookup request.clientOrderId = none) :
      request.clientOrderId ∉ s.oms.racedReports := fun hm =>
    KeyedList.not_mem_iff.mpr hnew (h.registered _ ((h.raced _).mp hm))
  cases s.oms.placeStage_cases request venue with
  | unchanged hafter _ hstage =>
    rw [place_refused hstage, hafter]
    exact .kept hopen
  | riskRejected venue' rejection _ hnew hentries _ hframe =>
    have hraced : (s.place request venue).oms.racedReports = s.oms.racedReports := by
      rw [place_oms]
      exact congrArg Prod.snd hframe
    by_cases hid : request.clientOrderId = id
    · subst hid
      have hwrite := s.oms.ledger.find?_enter_of_write
        (.riskRejected ((Oms.candidate request venue').reject rejection)) hnew rfl
      have hrecord : (s.place request venue).oms.lookup request.clientOrderId =
          some ((Oms.candidate request venue').reject rejection) := by
        rw [hlookup]
        simp only [entries, hentries]
        exact hwrite
      rw [hrecord, hraced, KeyedList.not_mem_iff.mp (hfree hnew)]
      exact .refused venue' rejection rfl hnew (KeyedList.not_mem_iff.mp (hfree hnew))
    · exact .of_eq hopen (hother hid) (by rw [hraced])
  | unpersisted venue' _ hnew _ hentries _ hframe =>
    have hraced : (s.place request venue).oms.racedReports = s.oms.racedReports := by
      rw [place_oms]
      exact congrArg Prod.snd hframe
    refine .of_eq hopen ?_ (by rw [hraced])
    rw [hlookup]
    simp only [entries, hentries]
    rfl
  | opened venue' _ hnew _ _ hentries _ _ hraced =>
    have hset : (s.place request venue).oms.racedReports =
        s.oms.racedReports.set ⟨request.clientOrderId, []⟩ := by
      rw [place_oms, hraced, if_neg (hfree hnew)]
    by_cases hid : request.clientOrderId = id
    · subst hid
      have hwrite := s.oms.ledger.find?_enter_of_write
        (.staged (Oms.candidate request venue') true) hnew rfl
      have hrecord : (s.place request venue).oms.lookup request.clientOrderId =
          some (Oms.candidate request venue') := by
        rw [hlookup]
        simp only [entries, hentries]
        exact hwrite
      have hbuffer : (s.place request venue).oms.racedReports.find? request.clientOrderId =
          some ⟨request.clientOrderId, []⟩ := by
        rw [hset]
        exact KeyedList.find?_set_self _ (⟨request.clientOrderId, []⟩ : RacedReports)
      rw [hrecord, hbuffer]
      exact .opened venue' rfl hnew (KeyedList.not_mem_iff.mp (hfree hnew))
    · refine .of_eq hopen (hother hid) ?_
      rw [hset]
      exact KeyedList.find?_set_of_ne _ hid

private theorem moves_amend (command : AmendCommand) :
    s.Moves id (.amend command) ((s.amend command).oms.lookup id)
      ((s.amend command).oms.racedReports.find? id) := by
  cases s.oms.amendStage_cases command with
  | unchanged hafter hstage =>
    rw [amend_refused hstage, hafter]
    exact .kept fun h => by cases h
  | opened _ record hrecord hstate _ hfree hstage hafter =>
    rw [amend_opened hstage, hafter]
    by_cases hid : command.clientOrderId = id
    · subst hid
      have hbuffer : (s.oms.racedReports.set ⟨command.clientOrderId, []⟩).find?
          command.clientOrderId = some ⟨command.clientOrderId, []⟩ :=
        KeyedList.find?_set_self _ (⟨command.clientOrderId, []⟩ : RacedReports)
      have hkept : Oms.lookup { s.oms with
          racedReports := s.oms.racedReports.set ⟨command.clientOrderId, []⟩ }
          command.clientOrderId = some record := hrecord
      rw [hkept]
      show s.Moves _ _ _ ((s.oms.racedReports.set ⟨command.clientOrderId, []⟩).find? _)
      rw [hbuffer]
      exact .amending record rfl hrecord hstate (KeyedList.not_mem_iff.mp hfree)
    · have hbuffer : (s.oms.racedReports.set ⟨command.clientOrderId, []⟩).find? id =
          s.oms.racedReports.find? id := KeyedList.find?_set_of_ne _ hid
      show s.Moves _ _ (s.oms.lookup id)
        ((s.oms.racedReports.set ⟨command.clientOrderId, []⟩).find? _)
      rw [hbuffer]
      exact .kept fun h => by cases h

private theorem moves_report (report : ExecutionReport) :
    s.Moves id (.report report) ((s.report report).oms.lookup id)
      ((s.report report).oms.racedReports.find? id) := by
  have hs : s.step (.report report) = some (s.report report) := rfl
  have hopen : ¬ Market.closes s id (.report report) := Bool.false_ne_true
  have hother (hid : report.clientOrderId ≠ id) :
      (s.report report).oms.lookup id = s.oms.lookup id :=
    lookup_step_of_not_touches hs rfl fun h => hid (of_decide_eq_true h)
  cases hraced : s.oms.racedReports.find? report.clientOrderId with
  | some raced =>
    have hkey : raced.clientOrderId = report.clientOrderId := KeyedList.key_of_find? hraced
    have hafter : (s.report report).oms.racedReports =
        s.oms.racedReports.set { raced with reports := raced.reports ++ [report] } := by
      simp [System.report, Oms.onExecutionReport, hraced]
    have hsame : (s.report report).oms.lookup id = s.oms.lookup id := by
      simp [System.report, Oms.onExecutionReport, hraced, Oms.lookup]
    by_cases hid : report.clientOrderId = id
    · subst hid
      have hbuffer : (s.report report).oms.racedReports.find? report.clientOrderId =
          some { raced with reports := raced.reports ++ [report] } := by
        rw [hafter, KeyedList.find?_set]
        exact if_pos hkey
      rw [hsame, hbuffer]
      exact .buffered raced rfl hraced
    · refine .of_eq hopen hsame ?_
      rw [hafter]
      exact KeyedList.find?_set_of_ne _ fun h => hid (hkey.symm.trans h)
  | none =>
    cases hlookup : s.oms.lookup report.clientOrderId with
    | none =>
      have hsame : (s.report report).oms =
          { s.oms with stats.reportsUnknown := s.oms.stats.reportsUnknown + 1 } := by
        simp [System.report, Oms.onExecutionReport, hraced, hlookup]
      refine .of_eq hopen ?_ ?_
      · rw [hsame]
        rfl
      · rw [hsame]
    | some record =>
      have hafter : (s.report report).oms = (s.oms.applyArbitratedReport record report).1 := by
        simp [System.report, Oms.onExecutionReport, hraced, hlookup]
      have hbuffer : (s.report report).oms.racedReports = s.oms.racedReports := by
        rw [hafter]
        exact congrArg Prod.snd (Oms.frame_applyArbitratedReport s.oms record report)
      by_cases hid : report.clientOrderId = id
      · subst hid
        have hfree : report.clientOrderId ∉ s.oms.racedReports := KeyedList.not_mem_iff.mpr hraced
        have hwrite := s.oms.ledger.find?_enter_of_write (.reported report.clientOrderId report)
          hlookup rfl
        have hledger := Oms.lookup_of_ledger (step_ledger hs rfl fun _ h => by cases h)
          report.clientOrderId
        simp only [entries, Oms.sinkEntries, if_neg hfree] at hledger
        have hrecord : (s.report report).oms.lookup report.clientOrderId =
            some (record.arbitrate report).1 := hledger.trans hwrite
        rw [hrecord, hbuffer, hraced]
        exact .applied record rfl hraced hlookup
      · exact .of_eq hopen (hother hid) (by rw [hbuffer])

theorem moves_step (id : String) (h : s.Owned) (hs : s.step a = some t) (ha : a.ordinary) :
    s.Moves id a (t.oms.lookup id) (t.oms.racedReports.find? id) := by
  cases a with
  | place request venue =>
    obtain rfl := Option.some.inj hs
    exact moves_place h request venue
  | amend command =>
    obtain rfl := Option.some.inj hs
    exact moves_amend command
  | report report =>
    obtain rfl := Option.some.inj hs
    exact moves_report report
  | send i =>
    obtain ⟨_, _, _, -, rfl⟩ := send_cases hs
    exact .kept fun h => by cases h
  | rehash orders =>
    obtain ⟨hp, rfl⟩ := rehash_cases hs
    have hlookup : Oms.lookup { s.oms with orders := orders } id = s.oms.lookup id :=
      KeyedList.find?_of_perm hp id
    show s.Moves id _ (Oms.lookup { s.oms with orders := orders } id) _
    rw [hlookup]
    exact .kept fun h => by cases h
  | placed i placement =>
    obtain ⟨request, connector, staged, hc, hraced⟩ := racedReports_placed hs
    by_cases hid : request.clientOrderId = id
    · subst hid
      have hlookup := Oms.lookup_of_ledger (step_ledger hs rfl fun _ h => by cases h)
        request.clientOrderId
      simp only [entries, hc] at hlookup
      rw [hlookup, hraced, KeyedList.find?_erase_self]
      exact .answered hc rfl
    · have hne : ¬ s.touches id (.placed i placement) := by
        simpa [touches, hc, Call.owner] using hid
      rw [lookup_step_of_not_touches hs rfl hne, hraced,
        KeyedList.find?_erase_of_ne _ (Ne.symm hid)]
      exact .kept hne
  | amended i placement =>
    obtain ⟨command, wire, connector, validated, hc, hraced⟩ := racedReports_amended hs
    by_cases hid : command.clientOrderId = id
    · subst hid
      have hlookup := Oms.lookup_of_ledger (step_ledger hs rfl fun _ h => by cases h)
        command.clientOrderId
      simp only [entries, hc] at hlookup
      rw [hlookup, hraced, KeyedList.find?_erase_self]
      exact .amended hc rfl
    · have hne : ¬ s.touches id (.amended i placement) := by
        simpa [touches, hc, Call.owner] using hid
      rw [lookup_step_of_not_touches hs rfl hne, hraced,
        KeyedList.find?_erase_of_ne _ (Ne.symm hid)]
      exact .kept hne
  | _ => cases ha

end System

end ExchangeGateway
