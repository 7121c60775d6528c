import ExchangeGateway.Core.Legs
import ExchangeGateway.Exchange.Market

/-! A live replacement and the reports of the legs it replaced. The leg table follows the venue's
orders as long as the gateway learns of every replacement before the amend that made it is over. -/
namespace ExchangeGateway

namespace OrderRecord

variable {record : OrderRecord} {ids : List String} {report : ExecutionReport}

/-- The leg table is the venue's list of orders. -/
structure Tracks (record : OrderRecord) (ids : List String) : Prop where
  legs : record.legs.map OrderLeg.exchangeOrderId = ids
  newest : ids.getLast? = some record.exchangeOrderId

structure Untracked (record : OrderRecord) : Prop where
  legs : record.legs = []
  id : record.exchangeOrderId = ""
  state : record.state = .pending ∨ record.state = .rejected

def Follows (record : OrderRecord) (ids : List String) : Prop :=
  record.Untracked ∧ ids.length ≤ 1 ∨ record.Tracks ids

/-- The known ids are those of the venue. -/
theorem Tracks.legIndexOf_eq_none_iff (h : record.Tracks ids) (id : String) :
    record.legIndexOf id = none ↔ id ∉ ids := by
  rw [← h.legs, List.mem_map]
  rcases record.legIndexOf_spec id with ⟨hnone, hall⟩ | ⟨_, hsome, -, leg, hleg, hname⟩
  · refine ⟨fun _ => ?_, fun _ => hnone⟩
    rintro ⟨leg, hleg, hname⟩
    exact hall leg hleg hname
  · constructor
    · intro hnone
      cases hnone.symm.trans hsome
    · exact fun hout => absurd ⟨leg, hleg, hname⟩ hout

theorem Tracks.ne_nil (h : record.Tracks ids) : record.legs ≠ [] := by
  intro hnil
  have hids := h.legs
  rw [hnil] at hids
  have hnewest := h.newest
  rw [← hids] at hnewest
  cases hnewest

/-- Every order but the newest one is superseded. -/
theorem Tracks.superseded (h : record.Tracks ids) {id : String} (hname : id ≠ "")
    (hid : id ∈ ids) (hlast : ids.getLast? ≠ some id) : record.superseded id := by
  obtain ⟨older, leg, hlegs⟩ : ∃ older leg, record.legs = older ++ [leg] :=
    (List.eq_nil_or_concat' record.legs).resolve_left h.ne_nil
  have hids : ids = older.map OrderLeg.exchangeOrderId ++ [leg.exchangeOrderId] := by
    rw [← h.legs, hlegs]
    simp
  have hleg : leg.exchangeOrderId ≠ id := by
    rintro rfl
    apply hlast
    rw [hids]
    simp
  have holder : id ∈ older.map OrderLeg.exchangeOrderId := by
    rw [hids] at hid
    rcases List.mem_append.mp hid with hm | hm
    · exact hm
    · exact absurd (List.mem_singleton.mp hm).symm hleg
  have hindex := legIndexOf_concat hlegs id
  rw [if_neg hleg] at hindex
  rcases { record with legs := older }.legIndexOf_spec id with ⟨-, hall⟩ | ⟨index, hsome, hlt, -⟩
  · obtain ⟨other, hm, hother⟩ := List.mem_map.mp holder
    exact absurd hother (hall other hm)
  · have hbound : index + 1 < record.legs.length := by
      rw [hlegs, List.length_append]
      have hlt' : index < older.length := hlt
      simp only [List.length_singleton]
      omega
    rw [hsome] at hindex
    simp [OrderRecord.superseded, hname, hindex, hbound]

theorem noteExchangeId_of_new (record : OrderRecord) {id : String} (hname : id ≠ "")
    (hnew : id ≠ record.exchangeOrderId) :
    record.noteExchangeId id =
      { record with
        exchangeOrderId := id
        legs := record.legs ++ [⟨record.legs.length + 1, id⟩] } := by
  simp [noteExchangeId, pushLeg, hname, hnew]

/-- The next order of the venue becomes the newest leg. -/
theorem Tracks.push (h : record.Tracks ids) {new : OrderRecord} {version : ℕ} {id : String}
    (hlegs : new.legs = record.legs ++ [⟨version, id⟩]) (hid : new.exchangeOrderId = id) :
    new.Tracks (ids ++ [id]) := by
  constructor
  · rw [hlegs, ← h.legs]
    simp
  · rw [hid]
    simp

/-- The state after an observation: the old one, or the reported one. -/
private theorem state_arbitrate (record : OrderRecord) (report : ExecutionReport) :
    (record.arbitrate report).1.state = record.state ∨
      record.superseded report.exchangeOrderId = false ∧
        (record.arbitrate report).1.state = report.state := by
  obtain ⟨_, _, state, _, _, heq, -, hs⟩ := record.arbitrate_spec report
  rw [heq]
  rcases hs with hs | ⟨hcurrent, hs, -⟩
  · exact .inl hs
  · exact .inr ⟨hcurrent, hs⟩

theorem Tracks.arbitrate (h : record.Tracks ids) (hnamed : "" ∉ ids)
    (hid : report.exchangeOrderId ∈ ids) : (record.arbitrate report).1.Tracks ids := by
  have hname : record.exchangeOrderId ≠ "" := by
    intro hempty
    have hnewest := h.newest
    rw [hempty] at hnewest
    exact hnamed (List.mem_of_getLast? hnewest)
  have hlearn : record.learn report.exchangeOrderId = record := by
    refine if_neg ?_
    rintro (hempty | ⟨-, hnone⟩)
    · exact hname hempty
    · exact (h.legIndexOf_eq_none_iff _).mp hnone hid
  unfold OrderRecord.arbitrate
  rw [hlearn]
  constructor
  · rw [legs_applyObservation]
    exact h.legs
  · rw [exchangeOrderId_applyObservation]
    exact h.newest

theorem Untracked.accept (h : record.Untracked) {id : String} (hname : id ≠ "") :
    (record.accept id).Tracks [id] := by
  have hnote := record.noteExchangeId_of_new hname (by rwa [h.id])
  unfold OrderRecord.accept
  rw [hnote, h.legs]
  exact ⟨rfl, rfl⟩

theorem Untracked.arbitrate (h : record.Untracked) (hname : report.exchangeOrderId ≠ "") :
    (record.arbitrate report).1.Tracks [report.exchangeOrderId] := by
  have hnote := record.noteExchangeId_of_new hname (by rwa [h.id])
  have hlearn : record.learn report.exchangeOrderId =
      record.noteExchangeId report.exchangeOrderId := if_pos (.inl h.id)
  unfold OrderRecord.arbitrate
  rw [hlearn, hnote]
  constructor
  · rw [legs_applyObservation, h.legs]
    rfl
  · rw [exchangeOrderId_applyObservation]
    rfl

private theorem eq_singleton_of_mem {id : String} (hlength : ids.length ≤ 1) (hid : id ∈ ids) :
    ids = [id] := by
  have hone : ids.length = 1 := le_antisymm hlength (List.length_pos_of_mem hid)
  obtain ⟨first, rfl⟩ := List.length_eq_one_iff.mp hone
  rw [List.mem_singleton.mp hid]

/-- A report does not cancel an order that it does not say is canceled, or whose leg is over. -/
theorem Follows.arbitrate (h : record.Follows ids) (hnamed : "" ∉ ids)
    (hid : report.exchangeOrderId ∈ ids) :
    (record.arbitrate report).1.Follows ids ∧
      ((record.arbitrate report).1.state = .canceled → record.state = .canceled ∨
        report.state = .canceled ∧ ids.getLast? = some report.exchangeOrderId) := by
  have hname : report.exchangeOrderId ≠ "" := fun he => hnamed (he ▸ hid)
  rcases h with ⟨hfirst, hlength⟩ | htracks
  · obtain rfl : ids = [report.exchangeOrderId] := eq_singleton_of_mem hlength hid
    refine ⟨.inr (hfirst.arbitrate hname), fun hcanceled => ?_⟩
    rcases record.state_arbitrate report with hs | ⟨-, hs⟩
    · exact .inl (hs.symm.trans hcanceled)
    · exact .inr ⟨hs.symm.trans hcanceled, rfl⟩
  · refine ⟨.inr (htracks.arbitrate hnamed hid), fun hcanceled => ?_⟩
    rcases record.state_arbitrate report with hs | ⟨hcurrent, hs⟩
    · exact .inl (hs.symm.trans hcanceled)
    · refine .inr ⟨hs.symm.trans hcanceled, ?_⟩
      by_contra hlast
      rw [htracks.superseded hname hid hlast] at hcurrent
      cases hcurrent

end OrderRecord

namespace Ledger

variable {ledger : Ledger} {id : String} {record : OrderRecord} {ids : List String}

private theorem follows_reportEntries (hr : ledger.orders.find? id = some record)
    (h : record.Follows ids) (hnamed : "" ∉ ids) {reports : List ExecutionReport}
    (hids : ∀ report ∈ reports, report.exchangeOrderId ∈ ids) :
    ∃ after, (ledger.enterAll (Oms.reportEntries id reports)).orders.find? id = some after ∧
      after.Follows ids ∧ (after.state = .canceled → record.state = .canceled ∨
        ∃ report ∈ reports, report.state = .canceled ∧
          ids.getLast? = some report.exchangeOrderId) := by
  induction reports generalizing ledger record with
  | nil => exact ⟨record, hr, h, .inl⟩
  | cons report reports ih =>
    have hfind := ledger.find?_enter_of_write (.reported id report) hr rfl
    obtain ⟨hfollows, hstate⟩ := h.arbitrate hnamed (hids report List.mem_cons_self)
    obtain ⟨after, hafter, hfollows', hstate'⟩ :=
      ih hfind hfollows fun other hm => hids other (List.mem_cons_of_mem report hm)
    refine ⟨after, hafter, hfollows', fun hcanceled => ?_⟩
    rcases hstate' hcanceled with hc | ⟨other, hm, hc⟩
    · rcases hstate hc with hc | hc
      · exact .inl hc
      · exact .inr ⟨report, List.mem_cons_self, hc⟩
    · exact .inr ⟨other, List.mem_cons_of_mem report hm, hc⟩

end Ledger

/-- The unknown ids among the raced reports are those of the replacement. -/
private theorem newestUnknown_eq {record : OrderRecord} {newest : String} (hname : newest ≠ "")
    (hunknown : record.legIndexOf newest = none) {raced : List ExecutionReport}
    (h : ∀ report ∈ raced, record.legIndexOf report.exchangeOrderId ≠ none ∨
      report.exchangeOrderId = newest) :
    Oms.newestUnknown record raced =
      if ∃ report ∈ raced, report.exchangeOrderId = newest then newest else "" := by
  have hgeneral (first : String) :
      raced.foldl (fun newest entry =>
        if entry.exchangeOrderId ≠ "" ∧ record.legIndexOf entry.exchangeOrderId = none then
          entry.exchangeOrderId
        else newest) first =
      if ∃ report ∈ raced, report.exchangeOrderId = newest then newest else first := by
    induction raced generalizing first with
    | nil => simp
    | cons report raced ih =>
      rw [List.foldl_cons, ih fun other hm => h other (List.mem_cons_of_mem report hm)]
      rcases h report List.mem_cons_self with hknown | rfl
      · have hne : report.exchangeOrderId ≠ newest := by
          rintro rfl
          exact hknown hunknown
        simp [hknown, hne]
      · simp [hname, hunknown]
  exact hgeneral ""

/-- Without unknown ids there is nothing to adopt. -/
private theorem newestUnknown_of_known {record : OrderRecord} {raced : List ExecutionReport}
    (h : ∀ report ∈ raced, record.legIndexOf report.exchangeOrderId ≠ none) :
    Oms.newestUnknown record raced = "" := by
  unfold Oms.newestUnknown
  induction raced with
  | nil => rfl
  | cons report raced ih =>
    rw [List.foldl_cons]
    have hknown := h report List.mem_cons_self
    simp only [hknown, and_false, if_false]
    exact ih fun other hm => h other (List.mem_cons_of_mem report hm)

namespace Market

variable {id : String} {adapter : Adapter} {size : String → ℚ} {m n : Market}

/-- The record against the venue's orders: it follows them, but for the replacement of an amend
that is still open. -/
def Matches (record : OrderRecord) (book : Book) : Prop :=
  if book.processed ∧ record.legs ≠ [] then
    ∃ older newest, book.ids = older ++ [newest] ∧ record.Tracks older
  else record.Follows book.ids

structure Consistent (id : String) (m : Market) : Prop where
  staged : m.system.Staged
  held : m.system.AmendsHeld
  nodup : m.book.ids.Nodup
  named : "" ∉ m.book.ids
  addressed : ∀ report ∈ m.book.feed, report.clientOrderId = id
  known : ∀ report ∈ m.system.oms.buffered id ++ m.book.feed, report.exchangeOrderId ∈ m.book.ids
  quiet : ∀ report ∈ m.system.oms.buffered id ++ m.book.feed, report.state = .canceled →
    m.book.newest? = some report.exchangeOrderId → m.book.working = false
  unregistered : m.system.oms.lookup id = none → m.book.orders = []
  record : ∀ record, m.system.oms.lookup id = some record →
    Matches record m.book ∧ (record.state = .canceled → m.book.working = false)
  flying : m.book.processed → id ∈ m.system.oms.racedReports

private theorem start_silent (id : String) (config : Config) (log : Option EventLog) :
    (start config log).system.oms.buffered id ++ (start config log).book.feed = [] := by
  simp [Oms.buffered, start, System.boot]

theorem start_consistent {config : Config} {log : Option EventLog}
    (hnew : (System.boot config log).oms.lookup id = none) :
    (start config log).Consistent id where
  staged := System.boot_staged config log
  held _ _ _ _ hm := by cases hm
  nodup := List.nodup_nil
  named h := by cases h
  addressed _ h := by cases h
  known report h := by
    rw [start_silent] at h
    cases h
  quiet report h := by
    rw [start_silent] at h
    cases h
  unregistered _ := rfl
  record record h := by cases hnew.symm.trans h
  flying h := by cases h

private theorem admits_ordinary {a : ExchangeGateway.Action} (h : m.admits id a) : a.ordinary := by
  cases a <;> first | rfl | cases h

private theorem spares_of_ordinary {a : ExchangeGateway.Action} (h : a.ordinary) (s : System) :
    s.spares a := by
  cases a <;> first | rfl | cases h

private theorem Consistent.of_step (h : m.Consistent id) {a : ExchangeGateway.Action} {t : System}
    (hs : m.system.step a = some t) (ha : a.ordinary) {processed : Bool}
    {feed : List ExecutionReport} {requested : List String}
    (hfeed : ∀ report ∈ feed, report ∈ m.book.feed)
    (hbuffer : ∀ report ∈ t.oms.buffered id, report ∈ m.system.oms.buffered id ++ m.book.feed)
    (hrecord : ∀ record, t.oms.lookup id = some record →
      Matches record { m.book with processed := processed, feed := feed } ∧
        (record.state = .canceled → m.book.working = false))
    (hflying : processed → id ∈ t.oms.racedReports) :
    Consistent id ⟨t, { m.book with processed := processed, feed := feed }, requested⟩ := by
  have hpending : ∀ report ∈ t.oms.buffered id ++ feed,
      report ∈ m.system.oms.buffered id ++ m.book.feed := by
    intro report hm
    rcases List.mem_append.mp hm with hm | hm
    · exact hbuffer report hm
    · exact List.mem_append_right _ (hfeed report hm)
  have hlive := Action.live_of_ordinary ha
  exact
    { staged := h.staged.step hs
      held := h.held.step h.staged.owned hs (spares_of_ordinary ha _)
      nodup := h.nodup
      named := h.named
      addressed := fun report hm => h.addressed report (hfeed report hm)
      known := fun report hm => h.known report (hpending report hm)
      quiet := fun report hm => h.quiet report (hpending report hm)
      unregistered := fun hnone => by
        apply h.unregistered
        by_contra hsome
        obtain ⟨record, hrecord⟩ := Option.ne_none_iff_exists'.mp hsome
        exact KeyedList.not_mem_iff.mpr hnone
          (System.mem_orders_step hs hlive (KeyedList.mem_of_find? hrecord))
      record := hrecord
      flying := hflying }

private theorem Consistent.of_kept (h : m.Consistent id) {a : ExchangeGateway.Action} {t : System}
    (hs : m.system.step a = some t) (ha : a.ordinary) {feed : List ExecutionReport}
    {requested : List String} (hfeed : ∀ report ∈ feed, report ∈ m.book.feed)
    (hl : t.oms.lookup id = m.system.oms.lookup id)
    (hr : t.oms.racedReports.find? id = m.system.oms.racedReports.find? id) :
    Consistent id ⟨t, { m.book with feed := feed }, requested⟩ := by
  refine h.of_step hs ha hfeed (fun report hm => ?_) (fun record hrecord => ?_) (fun hp => ?_)
  · rw [Oms.buffered, hr] at hm
    exact List.mem_append_left _ hm
  · exact h.record record (hl.symm.trans hrecord)
  · apply KeyedList.mem_iff.mpr
    rw [hr]
    exact KeyedList.mem_iff.mp (h.flying hp)

private theorem buffered_of_find? {s : System} {raced : Option RacedReports}
    (h : s.oms.racedReports.find? id = raced) :
    s.oms.buffered id = (raced.map RacedReports.reports).getD [] := by
  rw [Oms.buffered, h]

private theorem Consistent.newest_ne_empty (h : m.Consistent id) {newest : String}
    (hnewest : m.book.newest? = some newest) : newest ≠ "" := by
  rintro rfl
  exact h.named (List.mem_of_getLast? hnewest)

/-- Outside an open call nothing is processed. -/
private theorem Consistent.unprocessed (h : m.Consistent id)
    (hfree : m.system.oms.racedReports.find? id = none) : m.book.processed = false := by
  by_contra hp
  exact KeyedList.not_mem_iff.mpr hfree (h.flying (by simpa using hp))

private theorem matches_unprocessed {record : OrderRecord} {book : Book}
    (hp : book.processed = false) : Matches record book ↔ record.Follows book.ids := by
  unfold Matches
  rw [if_neg]
  rw [hp]
  rintro ⟨h, -⟩
  cases h

private theorem matches_of_no_legs {record : OrderRecord} {book : Book} (hlegs : record.legs = []) :
    Matches record book ↔ record.Follows book.ids := by
  unfold Matches
  rw [if_neg]
  rintro ⟨-, h⟩
  exact h hlegs

private theorem Consistent.drained (h : m.Consistent id) {ledger : Ledger} {record : OrderRecord}
    (hr : ledger.orders.find? id = some record) (hfollows : record.Follows m.book.ids)
    (hstate : record.state = .canceled → m.book.working = false)
    {reports : List ExecutionReport} (hsub : ∀ report ∈ reports, report ∈ m.system.oms.buffered id)
    {feed : List ExecutionReport} {after : OrderRecord}
    (hafter : (ledger.enterAll (Oms.reportEntries id reports)).orders.find? id = some after) :
    Matches after { m.book with processed := false, feed := feed } ∧
      (after.state = .canceled → m.book.working = false) := by
  obtain ⟨after', hafter', hfollows', hstate'⟩ :=
    Ledger.follows_reportEntries hr hfollows h.named fun report hm =>
      h.known report (List.mem_append_left _ (hsub report hm))
  cases hafter.symm.trans hafter'
  refine ⟨(matches_unprocessed rfl).mpr hfollows', fun hcanceled => ?_⟩
  rcases hstate' hcanceled with hc | ⟨report, hm, hc, hlast⟩
  · exact hstate hc
  · exact h.quiet report (List.mem_append_left _ (hsub report hm)) hc hlast

/-- The raced reports are dropped with a log that lost the ack. -/
private theorem Consistent.drained_if (h : m.Consistent id) {ledger : Ledger} {record : OrderRecord}
    (hr : ledger.orders.find? id = some record) (hfollows : record.Follows m.book.ids)
    (hstate : record.state = .canceled → m.book.working = false) {persists : Bool}
    {feed : List ExecutionReport} {after : OrderRecord}
    (hafter : (ledger.enterAll (if persists then
      Oms.reportEntries id (m.system.oms.buffered id) else [])).orders.find? id = some after) :
    Matches after { m.book with processed := false, feed := feed } ∧
      (after.state = .canceled → m.book.working = false) := by
  cases persists with
  | true => exact h.drained hr hfollows hstate (fun _ hm => hm) hafter
  | false =>
    cases hafter.symm.trans hr
    exact ⟨(matches_unprocessed rfl).mpr hfollows, hstate⟩

private theorem Consistent.untracked (h : m.Consistent id) (hnew : m.system.oms.lookup id = none)
    {record : OrderRecord} (hrecord : record.Untracked) {processed : Bool}
    (hp : processed = false) :
    Matches record { m.book with processed := processed } ∧
      (record.state = .canceled → m.book.working = false) := by
  have hids : m.book.ids = [] := by
    rw [Book.ids, h.unregistered hnew]
    rfl
  have hlength : m.book.ids.length ≤ 1 := by simp [hids]
  refine ⟨(matches_unprocessed hp).mpr (.inl ⟨hrecord, hlength⟩), fun hcanceled => ?_⟩
  rcases hrecord.state with hs | hs <;> cases hs.symm.trans hcanceled

private theorem closes_placed {s : System} {i : ℕ} {request : OrderRequest} {connector : String}
    {staged : OrderRecord} {sent : Bool}
    (hc : s.calls[i]? = some (.place request connector staged sent))
    (hid : request.clientOrderId = id) (placement : Result OrderPlacement) :
    closes s id (.placed i placement) := by
  simp [closes, hc, Call.owner, hid]

private theorem closes_amended {s : System} {i : ℕ} {command : AmendCommand} {wire : AmendRequest}
    {connector : String} {validated : OrderRecord}
    (hc : s.calls[i]? = some (.amend command wire connector validated))
    (hid : command.clientOrderId = id) (placement : Result OrderPlacement) :
    closes s id (.amended i placement) := by
  simp [closes, hc, Call.owner, hid]

private theorem Consistent.answered (h : m.Consistent id) {i : ℕ}
    {placement : Result OrderPlacement} {request : OrderRequest} {connector : String}
    {staged : OrderRecord}
    (hc : m.system.calls[i]? = some (.place request connector staged true))
    (hid : request.clientOrderId = id) (hadmits : m.admits id (.placed i placement))
    (feed : List ExecutionReport) {after : OrderRecord}
    (hafter : (m.system.oms.ledger.enterAll
      (m.system.oms.placedEntries id placement)).orders.find? id = some after) :
    Matches after { m.book with processed := false, feed := feed } ∧
      (after.state = .canceled → m.book.working = false) := by
  obtain ⟨hlookup, venue, hstaged⟩ :=
    h.staged.places request connector staged true (List.mem_of_getElem? hc)
  rw [hid] at hlookup
  have hfind : m.system.oms.ledger.orders.find? id = some staged := hlookup
  have hfirst : staged.Untracked := by
    rw [hstaged]
    exact ⟨rfl, rfl, .inl rfl⟩
  have hpending : staged.state = .pending := by
    rw [hstaged]
    rfl
  have hfollows := (matches_of_no_legs hfirst.legs).mp (h.record staged hlookup).1
  have hlength : m.book.ids.length ≤ 1 := by
    rcases hfollows with ⟨-, hlength⟩ | htracks
    · exact hlength
    · exact absurd hfirst.legs htracks.ne_nil
  cases placement with
  | error error =>
    by_cases hcode : error.code = "transport"
    · simp only [Oms.placedEntries, hcode, ne_eq, not_true_eq_false, if_false] at hafter
      refine h.drained hfind hfollows ?_ (fun _ hm => hm) hafter
      intro hcanceled
      cases hpending.symm.trans hcanceled
    · simp only [Oms.placedEntries, hcode, ne_eq, not_false_eq_true, if_true] at hafter
      have hwrite := m.system.oms.ledger.find?_enter_of_write (.rejected id error) hfind
        (show _ = some (staged.reject error) by simp [Entry.write, hpending, isTerminal])
      cases hafter.symm.trans hwrite
      refine ⟨(matches_unprocessed rfl).mpr (.inl ⟨⟨hfirst.legs, hfirst.id, .inr rfl⟩, hlength⟩),
        fun hcanceled => by cases hcanceled⟩
  | ok ack =>
    have hclosed := closes_placed hc hid (.ok ack)
    have hnewest : m.book.newest? = some ack.exchangeOrderId := by
      simp only [admits, hclosed, Bool.not_true, Bool.false_or, Bool.and_eq_true,
        decide_eq_true_eq] at hadmits
      exact hadmits.2
    have hids : m.book.ids = [ack.exchangeOrderId] := 
      OrderRecord.eq_singleton_of_mem hlength (List.mem_of_getLast? hnewest)
    have hname := h.newest_ne_empty hnewest
    have haccept : (staged.accept ack.exchangeOrderId).Tracks m.book.ids := by
      rw [hids]
      exact hfirst.accept hname
    have hlive : (staged.accept ack.exchangeOrderId).state = .live := by
      unfold OrderRecord.accept
      rw [hpending]
      rfl
    have hwrite := m.system.oms.ledger.find?_enter_of_write (.accepted id ack.exchangeOrderId)
      hfind rfl
    have hspared : (staged.accept ack.exchangeOrderId).state = .canceled →
        m.book.working = false := by
      intro hcanceled
      cases hlive.symm.trans hcanceled
    exact h.drained_if hwrite (.inr haccept) hspared hafter

/-- Whenever an amend that the venue processed ends with an error, a report of the replacement is
among the raced reports. -/
def evident (id : String) (m : Market) : Market.Action → Bool
  | .gateway (.amended i (.error error)) =>
    !closes m.system id (.amended i (.error error)) || !m.book.processed ||
      (m.system.oms.buffered id).any fun report => m.book.newest? = some report.exchangeOrderId
  | _ => true

private theorem Consistent.tracked (h : m.Consistent id) {record : OrderRecord}
    (hlookup : m.system.oms.lookup id = some record)
    (hstate : record.state = .live ∨ record.state = .partiallyFilled) :
    if m.book.processed then ∃ older newest, m.book.ids = older ++ [newest] ∧ record.Tracks older
    else record.Tracks m.book.ids := by
  have hmatches := (h.record record hlookup).1
  have htracks (hfollows : record.Follows m.book.ids) : record.Tracks m.book.ids := by
    rcases hfollows with ⟨hfirst, -⟩ | htracks
    · rcases hfirst.state with hs | hs <;> rw [hs] at hstate <;> simp at hstate
    · exact htracks
  cases hp : m.book.processed with
  | false => exact htracks ((matches_unprocessed hp).mp hmatches)
  | true =>
    by_cases hlegs : record.legs = []
    · exact absurd hlegs (htracks ((matches_of_no_legs hlegs).mp hmatches)).ne_nil
    · unfold Matches at hmatches
      rwa [if_pos ⟨hp, hlegs⟩] at hmatches

/-- An acked amend installs the replacement as the newest leg. -/
private theorem tracks_amend {record : OrderRecord} {older : List String} (h : record.Tracks older)
    {newest : String} (hname : newest ≠ "") (price quantity : String) :
    (record.amend price quantity newest).Tracks (older ++ [newest]) := by
  rcases { record with price := price, quantity := quantity }.appendAmendLeg_cases newest with
    ⟨hempty, -⟩ | ⟨-, hpush⟩
  · exact absurd hempty hname
  · unfold OrderRecord.amend
    rw [hpush]
    exact h.push rfl rfl

private theorem state_amend (record : OrderRecord) (price quantity newest : String) :
    (record.amend price quantity newest).state = record.state := by
  unfold OrderRecord.amend
  rcases { record with price := price, quantity := quantity }.appendAmendLeg_cases newest with
    ⟨-, hsame⟩ | ⟨-, hpush⟩
  · rw [hsame]
  · rw [hpush]

private theorem Consistent.amending (h : m.Consistent id) {i : ℕ} {command : AmendCommand}
    {wire : AmendRequest} {connector : String} {validated : OrderRecord}
    (hc : m.system.calls[i]? = some (.amend command wire connector validated))
    (hid : command.clientOrderId = id) :
    m.system.oms.lookup id = some validated ∧
      (validated.state = .canceled → m.book.working = false) ∧
      if m.book.processed then
        ∃ older newest, m.book.ids = older ++ [newest] ∧ validated.Tracks older
      else validated.Tracks m.book.ids := by
  obtain ⟨hlookup, hstate⟩ := h.held command wire connector validated (List.mem_of_getElem? hc)
  rw [hid] at hlookup
  exact ⟨hlookup, (h.record validated hlookup).2, h.tracked hlookup hstate⟩

private theorem Consistent.amendAcked (h : m.Consistent id) {i : ℕ} {ack : OrderPlacement}
    {command : AmendCommand} {wire : AmendRequest} {connector : String} {validated : OrderRecord}
    (hc : m.system.calls[i]? = some (.amend command wire connector validated))
    (hid : command.clientOrderId = id) (hadmits : m.admits id (.amended i (.ok ack)))
    (feed : List ExecutionReport) {after : OrderRecord}
    (hafter : (m.system.oms.ledger.enterAll
      (m.system.oms.amendedEntries id wire (.ok ack))).orders.find? id = some after) :
    Matches after { m.book with processed := false, feed := feed } ∧
      (after.state = .canceled → m.book.working = false) := by
  obtain ⟨hlookup, hspared, htracked⟩ := h.amending hc hid
  obtain ⟨hprocessed, hnewest⟩ :
      m.book.processed ∧ m.book.newest? = some ack.exchangeOrderId := by
    simpa [admits, closes_amended hc hid (.ok ack)] using hadmits
  rw [if_pos hprocessed] at htracked
  obtain ⟨older, newest, hids, htracks⟩ := htracked
  have hname := h.newest_ne_empty hnewest
  have hack : newest = ack.exchangeOrderId := by
    rw [Book.newest?, hids] at hnewest
    simpa using hnewest
  subst hack
  have hamend := tracks_amend htracks hname (wire.newPrice.getD "") (wire.newQuantity.getD "")
  rw [← hids] at hamend
  have hspared' : (validated.amend (wire.newPrice.getD "") (wire.newQuantity.getD "")
      ack.exchangeOrderId).state = .canceled → m.book.working = false := by
    rw [state_amend]
    exact hspared
  have hwrite := m.system.oms.ledger.find?_enter_of_write
    (.amended id (wire.newPrice.getD "") (wire.newQuantity.getD "") ack.exchangeOrderId) hlookup rfl
  exact h.drained_if hwrite (.inr hamend) hspared' hafter

/-- A failed amend that the venue processed: its replacement is discovered. -/
private theorem Consistent.newestUnknown_eq_newest (h : m.Consistent id) {record : OrderRecord}
    {older : List String} {newest : String} (hids : m.book.ids = older ++ [newest])
    (htracks : record.Tracks older)
    (hevidence : ∃ report ∈ m.system.oms.buffered id, report.exchangeOrderId = newest) :
    newest ∉ older ∧ newest ≠ "" ∧
      Oms.newestUnknown record (m.system.oms.buffered id) = newest := by
  have hfresh : newest ∉ older := by
    have hnodup := h.nodup
    rw [hids] at hnodup
    exact fun hm => (List.nodup_append.mp hnodup).2.2 newest hm newest (by simp) rfl
  have hname : newest ≠ "" := h.newest_ne_empty (by simp [Book.newest?, hids])
  refine ⟨hfresh, hname, ?_⟩
  rw [newestUnknown_eq hname ((htracks.legIndexOf_eq_none_iff newest).mpr hfresh), if_pos hevidence]
  intro report hm
  have hmem := h.known report (List.mem_append_left _ hm)
  rw [hids] at hmem
  rcases List.mem_append.mp hmem with hmem | hmem
  · exact .inl fun hnone => (htracks.legIndexOf_eq_none_iff _).mp hnone hmem
  · exact .inr (List.mem_singleton.mp hmem)

private theorem Consistent.amendFailed (h : m.Consistent id) {i : ℕ} {error : Error}
    {command : AmendCommand} {wire : AmendRequest} {connector : String} {validated : OrderRecord}
    (hc : m.system.calls[i]? = some (.amend command wire connector validated))
    (hid : command.clientOrderId = id)
    (hevident : m.evident id (.gateway (.amended i (.error error))))
    (feed : List ExecutionReport) {after : OrderRecord}
    (hafter : (m.system.oms.ledger.enterAll
      (m.system.oms.amendedEntries id wire (.error error))).orders.find? id = some after) :
    Matches after { m.book with processed := false, feed := feed } ∧
      (after.state = .canceled → m.book.working = false) := by
  obtain ⟨hlookup, hspared, htracked⟩ := h.amending hc hid
  simp only [Oms.amendedEntries, Oms.discoveredEntries, hlookup] at hafter
  cases hprocessed : m.book.processed with
  | false =>
    rw [hprocessed, if_neg Bool.false_ne_true] at htracked
    have hnothing : Oms.newestUnknown validated (m.system.oms.buffered id) = "" := by
      refine newestUnknown_of_known fun report hm hnone => ?_
      exact (htracked.legIndexOf_eq_none_iff _).mp hnone
        (h.known report (List.mem_append_left _ hm))
    rw [hnothing] at hafter
    simp only [ne_eq, not_true_eq_false, and_false, if_false, List.nil_append] at hafter
    have hfind : m.system.oms.ledger.orders.find? id = some validated := hlookup
    exact h.drained hfind (.inr htracked) hspared (fun _ hm => hm) hafter
  | true =>
    rw [hprocessed, if_pos rfl] at htracked
    obtain ⟨older, newest, hids, htracks⟩ := htracked
    have hevidence : ∃ report ∈ m.system.oms.buffered id, report.exchangeOrderId = newest := by
      simp only [evident, closes_amended hc hid, hprocessed, Bool.not_true, Bool.false_or,
        List.any_eq_true, decide_eq_true_eq] at hevident
      obtain ⟨report, hm, hlast⟩ := hevident
      rw [Book.newest?, hids] at hlast
      exact ⟨report, hm, by simpa using hlast.symm⟩
    obtain ⟨hfresh, hname, hdiscovered⟩ := h.newestUnknown_eq_newest hids htracks hevidence
    have hnew : newest ≠ validated.exchangeOrderId := by
      rintro rfl
      exact hfresh (List.mem_of_getLast? htracks.newest)
    have hnote := validated.noteExchangeId_of_new hname hnew
    have hadopted : (validated.noteExchangeId newest).Tracks m.book.ids := by
      rw [hnote, hids]
      exact htracks.push rfl rfl
    have hspared' : (validated.noteExchangeId newest).state = .canceled →
        m.book.working = false := by
      rw [hnote]
      exact hspared
    have hwrite := m.system.oms.ledger.find?_enter_of_write (.discovered id newest) hlookup rfl
    rw [hdiscovered, if_pos ⟨htracks.ne_nil, hname⟩] at hafter
    exact h.drained hwrite (.inr hadopted) hspared' (fun _ hm => hm) hafter

private theorem Consistent.gateway (h : m.Consistent id) {a : ExchangeGateway.Action}
    (hs : m.gateway id a = some n) (hevident : m.evident id (.gateway a)) : n.Consistent id := by
  obtain ⟨hadmits, t, hstep, rfl⟩ := gateway_cases hs
  have ha := admits_ordinary hadmits
  have hmoves := System.moves_step id h.staged.owned hstep ha
  have hempty {raced : Option RacedReports} (hr : t.oms.racedReports.find? id = raced)
      (hnone : (raced.map RacedReports.reports).getD [] = []) :
      ∀ report ∈ t.oms.buffered id, report ∈ m.system.oms.buffered id ++ m.book.feed := by
    intro report hm
    rw [buffered_of_find? hr, hnone] at hm
    cases hm
  generalize hl : t.oms.lookup id = lookup, hr : t.oms.racedReports.find? id = raced at hmoves
  cases hmoves with
  | kept hopen =>
    have hsame : (m.book.processed && !closes m.system id a) = m.book.processed := by
      simp [hopen]
    rw [hsame]
    exact h.of_kept hstep ha (fun _ hm => hm) hl hr
  | refused venue rejection hid hnew hfree =>
    have hp := h.unprocessed hfree
    refine h.of_step hstep ha (fun _ hm => hm) (hempty hr rfl) (fun record hrecord => ?_) ?_
    · cases hl.symm.trans hrecord
      exact h.untracked hnew ⟨rfl, rfl, .inr rfl⟩ (by simp [hp])
    · simp [hp]
  | opened venue hid hnew hfree =>
    have hp := h.unprocessed hfree
    refine h.of_step hstep ha (fun _ hm => hm) (hempty hr rfl) (fun record hrecord => ?_) ?_
    · cases hl.symm.trans hrecord
      exact h.untracked hnew ⟨rfl, rfl, .inl rfl⟩ (by simp [hp])
    · simp [hp]
  | answered hc hid =>
    have hclosed := closes_placed hc hid
    refine h.of_step hstep ha (fun _ hm => hm) (hempty hr rfl) (fun record hrecord => ?_) ?_
    · simpa [hclosed] using h.answered hc hid hadmits m.book.feed (hl.symm.trans hrecord)
    · simp [hclosed]
  | amending record hid hrecord hstate hfree =>
    have hp := h.unprocessed hfree
    refine h.of_step hstep ha (fun _ hm => hm) (hempty hr rfl) (fun other hother => ?_) ?_
    · cases hl.symm.trans hother
      obtain ⟨hmatches, hspared⟩ := h.record record hrecord
      rw [matches_unprocessed hp] at hmatches
      exact ⟨(matches_unprocessed (by simp [hp])).mpr hmatches, hspared⟩
    · simp [hp]
  | @amended _ placement _ _ _ _ hc hid =>
    have hclosed := closes_amended hc hid
    refine h.of_step hstep ha (fun _ hm => hm) (hempty hr rfl) (fun record hrecord => ?_) ?_
    · cases placement with
      | ok ack =>
        simpa [hclosed] using h.amendAcked hc hid hadmits m.book.feed (hl.symm.trans hrecord)
      | error error =>
        simpa [hclosed] using h.amendFailed hc hid hevident m.book.feed (hl.symm.trans hrecord)
    · simp [hclosed]
  | buffered raced hid _ => simp [admits, hid] at hadmits
  | applied record hid _ _ => simp [admits, hid] at hadmits

private theorem Consistent.deliver (h : m.Consistent id) (hs : m.deliver = some n) :
    n.Consistent id := by
  obtain ⟨report, feed, hfeed, rfl⟩ := deliver_cases hs
  have hstep : m.system.step (.report report) = some (m.system.report report) := rfl
  have hmem : report ∈ m.book.feed := by simp [hfeed]
  have hrest : ∀ other ∈ feed, other ∈ m.book.feed := fun other hm => by simp [hfeed, hm]
  have hid := h.addressed report hmem
  have hmoves := System.moves_step id h.staged.owned hstep rfl
  generalize hl : (m.system.report report).oms.lookup id = lookup,
    hr : (m.system.report report).oms.racedReports.find? id = raced at hmoves
  cases hmoves with
  | kept _ =>
    exact h.of_kept hstep rfl hrest hl hr
  | buffered raced _ hraced =>
    refine h.of_step hstep rfl hrest (fun other hm => ?_) (fun record hrecord => ?_) ?_
    · rw [buffered_of_find? hr] at hm
      rcases List.mem_append.mp hm with hm | hm
      · apply List.mem_append_left
        rw [buffered_of_find? hraced]
        exact hm
      · rw [List.mem_singleton.mp hm]
        exact List.mem_append_right _ hmem
    · exact h.record record (hl.symm.trans hrecord)
    · intro _
      exact KeyedList.mem_of_find? hr
  | applied record _ hfree hrecord =>
    have hp := h.unprocessed hfree
    have hpending : report ∈ m.system.oms.buffered id ++ m.book.feed :=
      List.mem_append_right _ hmem
    obtain ⟨hmatches, hspared⟩ := h.record record hrecord
    rw [matches_unprocessed hp] at hmatches
    obtain ⟨hfollows, hstate⟩ := hmatches.arbitrate h.named (h.known report hpending)
    refine h.of_step hstep rfl hrest (fun other hm => ?_) (fun other hother => ?_) ?_
    · rw [buffered_of_find? hr] at hm
      cases hm
    · cases hl.symm.trans hother
      refine ⟨(matches_unprocessed hp).mpr hfollows, fun hcanceled => ?_⟩
      rcases hstate hcanceled with hc | ⟨hc, hlast⟩
      · exact hspared hc
      · exact h.quiet report hpending hc hlast
    · intro hprocessed
      rw [hp] at hprocessed
      cases hprocessed

/-- Only a call that owns the order is processed. -/
private theorem Consistent.owner_raced (h : m.Consistent id) {i : ℕ} {call : Call}
    (hc : m.system.calls[i]? = some call) (howner : call.owner = some id) :
    id ∈ m.system.oms.racedReports :=
  (h.staged.owned.raced id).mpr
    (List.mem_filterMap.mpr ⟨call, List.mem_of_getElem? hc, howner⟩)

private theorem Consistent.accept (h : m.Consistent id) {i : ℕ} {orderId : String}
    (hs : m.accept id adapter size i orderId = some n) : n.Consistent id := by
  obtain ⟨request, connector, staged, quantity, hc, -, ⟨hid, horders, hname, -⟩, rfl⟩ :=
    accept_cases hs
  have hids : m.book.ids = [] := by rw [Book.ids, horders]; rfl
  have hsilent (report : ExecutionReport)
      (hm : report ∈ m.system.oms.buffered id ++ m.book.feed) : False := by
    have hknown := h.known report hm
    rw [hids] at hknown
    cases hknown
  obtain ⟨hlookup, venue, hstaged⟩ :=
    h.staged.places request connector staged true (List.mem_of_getElem? hc)
  rw [hid] at hlookup
  exact
    { staged := h.staged
      held := h.held
      nodup := List.nodup_singleton orderId
      named := fun hm => hname (List.mem_singleton.mp hm).symm
      addressed := h.addressed
      known := fun report hm => (hsilent report hm).elim
      quiet := fun report hm => (hsilent report hm).elim
      unregistered := fun hn => by cases hn.symm.trans hlookup
      record := fun record hrecord => by
        cases hlookup.symm.trans hrecord
        have hlegs : staged.legs = [] := by rw [hstaged]; rfl
        refine ⟨(matches_of_no_legs hlegs).mpr (.inl ⟨?_, le_rfl⟩), fun hcanceled => ?_⟩
        · rw [hstaged]
          exact ⟨rfl, rfl, .inl rfl⟩
        · rw [hstaged] at hcanceled
          cases hcanceled
      flying := fun _ => h.owner_raced hc (congrArg some hid) }

private theorem Consistent.replace (h : m.Consistent id) {i : ℕ} {orderId : String}
    {canceled live : ExecutionReport}
    (hs : m.replace id adapter size i orderId canceled live = some n) : n.Consistent id := by
  obtain ⟨command, wire, connector, validated, quantity, hc, -, ⟨hid, hworking, hprocessed, hname,
    hfresh, -, ⟨hcid, hcnewest, hcstate⟩, hlid, hlname, hlstate⟩, rfl⟩ := replace_cases hs
  obtain ⟨hlookup, hstate⟩ := h.held command wire connector validated (List.mem_of_getElem? hc)
  rw [hid] at hlookup
  have htracks := h.tracked hlookup hstate
  rw [if_neg hprocessed] at htracks
  have hids : ({ m.book with
      orders := m.book.orders ++ [⟨orderId, quantity, 0⟩]
      processed := true
      feed := m.book.feed ++ [canceled, live] } : Book).ids = m.book.ids ++ [orderId] := by
    simp [Book.ids]
  have hcmem : canceled.exchangeOrderId ∈ m.book.ids := List.mem_of_getLast? hcnewest
  -- a report on its way is an old one, or one of the two that the replacement emits
  have hcases (report : ExecutionReport)
      (hm : report ∈ m.system.oms.buffered id ++ (m.book.feed ++ [canceled, live])) :
      report ∈ m.system.oms.buffered id ++ m.book.feed ∨ report = canceled ∨ report = live := by
    simpa [or_assoc] using hm
  exact
    { staged := h.staged
      held := h.held
      nodup := by
        rw [hids]
        exact List.nodup_append.mpr ⟨h.nodup, List.nodup_singleton orderId,
          fun a ha b hb => by
            rw [List.mem_singleton.mp hb]
            exact fun he => hfresh (he ▸ ha)⟩
      named := by
        rw [hids]
        simpa [h.named] using Ne.symm hname
      addressed := fun report hm => by
        simp only [List.mem_append, List.mem_cons, List.not_mem_nil, or_false] at hm
        rcases hm with hm | rfl | rfl
        · exact h.addressed report hm
        · exact hcid
        · exact hlid
      known := fun report hm => by
        rw [hids]
        rcases hcases report hm with hm | rfl | rfl
        · exact List.mem_append_left _ (h.known report hm)
        · exact List.mem_append_left _ hcmem
        · rw [hlname]
          simp
      quiet := fun report hm hcanceled hlast => by
        have hlast' : report.exchangeOrderId = orderId := by
          rw [Book.newest?, hids] at hlast
          simpa using hlast.symm
        rcases hcases report hm with hm | rfl | rfl
        · exact absurd (hlast' ▸ h.known report hm) hfresh
        · exact absurd (hlast' ▸ hcmem) hfresh
        · cases hlstate.symm.trans hcanceled
      unregistered := fun hn => by cases hn.symm.trans hlookup
      record := fun record hrecord => by
        cases hlookup.symm.trans hrecord
        constructor
        · unfold Matches
          rw [if_pos ⟨rfl, htracks.ne_nil⟩]
          exact ⟨m.book.ids, orderId, hids, htracks⟩
        · intro hcanceled
          rcases hstate with hs | hs <;> cases hs.symm.trans hcanceled
      flying := fun _ => h.owner_raced hc (congrArg some hid) }

private theorem Consistent.trade (h : m.Consistent id) {amount : ℚ} {report : ExecutionReport}
    (hs : m.trade id size amount report = some n) : n.Consistent id := by
  obtain ⟨older, newest, hold, ⟨hworking, hid, hname, -, -⟩, rfl⟩ := trade_cases hs
  have hids : ({ m.book with
      orders := older ++ [{ newest with executed := newest.executed + amount }]
      working := !isTerminal report.state
      feed := m.book.feed ++ [report] } : Book).ids = m.book.ids := by
    simp [Book.ids, hold]
  have hmem : report.exchangeOrderId ∈ m.book.ids := by
    rw [Book.ids, hold, hname]
    simp
  have hcases (other : ExecutionReport)
      (hm : other ∈ m.system.oms.buffered id ++ (m.book.feed ++ [report])) :
      other ∈ m.system.oms.buffered id ++ m.book.feed ∨ other = report := by
    simpa [or_assoc] using hm
  have hnot : m.book.working ≠ false := by simp [hworking]
  exact
    { staged := h.staged
      held := h.held
      nodup := by
        rw [hids]
        exact h.nodup
      named := by
        rw [hids]
        exact h.named
      addressed := fun other hm => by
        rcases List.mem_append.mp hm with hm | hm
        · exact h.addressed other hm
        · rw [List.mem_singleton.mp hm]
          exact hid
      known := fun other hm => by
        rw [hids]
        rcases hcases other hm with hm | rfl
        · exact h.known other hm
        · exact hmem
      quiet := fun other hm hcanceled hlast => by
        rcases hcases other hm with hm | rfl
        · rw [Book.newest?, hids] at hlast
          exact absurd (h.quiet other hm hcanceled hlast) hnot
        · rw [hcanceled]
          rfl
      unregistered := fun hn => by
        have horders := h.unregistered hn
        rw [hold] at horders
        simp at horders
      record := fun record hrecord => by
        obtain ⟨hmatches, hspared⟩ := h.record record hrecord
        refine ⟨?_, fun hcanceled => absurd (hspared hcanceled) hnot⟩
        unfold Matches at hmatches ⊢
        rw [hids]
        exact hmatches
      flying := h.flying }

theorem Consistent.step (h : m.Consistent id) {a : Market.Action}
    (hs : m.step id adapter size a = some n) (hevident : m.evident id a) : n.Consistent id := by
  cases a with
  | gateway a => exact h.gateway hs hevident
  | accept i orderId => exact h.accept hs
  | replace i orderId canceled live => exact h.replace hs
  | trade amount report => exact h.trade hs
  | deliver => exact h.deliver hs

/-- In every run with any number of amends in which the gateway learns of every replacement before
the amend that made it is over: the record is not canceled while the venue's newest order works. -/
theorem replacement_not_terminalized (id : String) (adapter : Adapter) (size : String → ℚ)
    {config : Config} {log : Option EventLog}
    (hnew : (System.boot config log).oms.lookup id = none)
    (h : Transition.Reaches (step id adapter size) (fun m a => m.evident id a) (start config log) m)
    {record : OrderRecord} (hrecord : m.system.oms.lookup id = some record)
    (hcanceled : record.state = .canceled) : m.book.working = false := by
  have hI : m.Consistent id :=
    Transition.Reaches.invariant (I := Consistent id) (fun _ _ _ hI ha hs => hI.step hs ha) h
      (start_consistent hnew)
  exact (hI.record record hrecord).2 hcanceled

/-! ### A lost ack -/

def canceledReport (orderId : String) : ExecutionReport := ⟨"c1", orderId, .canceled, .buy, "0", ""⟩

def liveReport (orderId : String) : ExecutionReport := ⟨"c1", orderId, .live, .buy, "0", ""⟩

/-- The place of `c1` is acked, its amend is processed. -/
def amendActions : List Market.Action :=
  [.gateway (.place .sample ""), .gateway (.send 0), .accept 0 "1",
    .gateway (.placed 0 (.ok ⟨"c1", "1"⟩)), .gateway (.amend ⟨"c1", some "101", none⟩),
    .replace 0 "2" (canceledReport "1") (liveReport "2")]

/-- The ack of the amend is lost after its reports arrived; then the venue cancels the
replacement. -/
def adopted : Market :=
  (Transition.exec (step "c1" .plain fun _ => 5) (fun m a => m.evident "c1" a)
    (start .sample (some .fresh)) (amendActions ++ [.deliver, .deliver,
      .gateway (.amended 0 (.error ⟨"transport", "timeout"⟩)), .trade 0 (canceledReport "2"),
      .deliver])).get (by decide +kernel)

def adoptedRecord : OrderRecord :=
  (adopted.system.oms.lookup "c1").get (by decide +kernel)

theorem replacement_not_terminalized_adopted :
    adoptedRecord.state = .canceled ∧ adopted.book.working = false := by
  have hcanceled : adoptedRecord.state = .canceled := by decide +kernel
  exact ⟨hcanceled, replacement_not_terminalized "c1" .plain (fun _ => 5) rfl
    (Transition.reaches_get_exec _) (Option.some_get _).symm hcanceled⟩

def unadopted : Market :=
  (Transition.exec (step "c1" .plain fun _ => 5) (fun _ _ => True) (start .sample (some .fresh))
    (amendActions ++ [.gateway (.amended 0 (.error ⟨"transport", "timeout"⟩)), .deliver,
      .deliver])).get (by decide +kernel)

/-- The cancel of the replaced order ends the record of the live replacement. -/
theorem live_replacement_terminalized :
    Transition.Reaches (step "c1" .plain fun _ => 5) (fun _ _ => True)
        (start .sample (some .fresh)) unadopted ∧
      unadopted.book.feed = [] ∧ unadopted.system.calls = [] ∧
      (unadopted.system.oms.lookup "c1").map OrderRecord.state = some .canceled ∧
      unadopted.book.working = true ∧ unadopted.book.newest? = some "2" := by
  refine ⟨Transition.reaches_get_exec _, ?_, ?_, ?_, ?_, ?_⟩
  all_goals decide +kernel

end Market

end ExchangeGateway
