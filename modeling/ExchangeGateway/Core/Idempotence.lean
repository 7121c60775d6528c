import ExchangeGateway.Core.Isolation

/-! A second reconciliation right after the first. Against venues whose answers stay the same, each
record reflects what was said about it after one pass, so the next pass finds nothing to do. -/
namespace ExchangeGateway

namespace OrderRecord

variable {record : OrderRecord}

def knows (record : OrderRecord) (snapshot : OrderSnapshot) : Prop :=
  snapshot.exchangeOrderId = "" ∨
    record.exchangeOrderId ≠ "" ∧ record.legIndexOf snapshot.exchangeOrderId ≠ none

/-! ### What a record reflects after one observation -/

theorem not_exceededBy_observeFill (filled avgPrice : String) :
    (record.observeFill filled avgPrice).1.exceededBy filled = false := by
  cases h : record.exceededBy filled with
  | false =>
    rw [observeFill_of_not_exceeded h]
    exact h
  | true =>
    obtain ⟨hraised, -⟩ := exceededBy_of_observeFill h avgPrice
    unfold exceededBy
    cases hr : parseDecimal filled with
    | error e => rfl
    | ok reported =>
      have hparse : parseDecimal (record.observeFill filled avgPrice).1.filledQuantity =
          .ok reported := by
        rw [hraised]
        exact hr
      rw [filledText_of_parse hparse, hparse]
      simp [Decimal.compare_self]

theorem reflects_observeSnapshot (record : OrderRecord) (snapshot : OrderSnapshot) :
    (Oms.observeSnapshot record snapshot).1.reflects snapshot := by
  have hfill := record.not_exceededBy_observeFill snapshot.filledQuantity snapshot.averageFillPrice
  unfold Oms.observeSnapshot
  rw [applyObservation_fst]
  unfold reflects
  simp only [Bool.and_eq_true, Bool.or_eq_true, Bool.not_eq_true', decide_eq_true_eq]
  refine ⟨⟨⟨?_, hfill⟩, ?_⟩, ?_⟩
  · by_cases hc : canTransition record.state snapshot.state
    · exact .inl (if_pos hc).symm
    · right
      rw [if_neg hc]
      simpa using hc
  · by_cases he : snapshot.price = ""
    · exact .inl he
    · exact .inr (if_neg he).symm
  · by_cases he : snapshot.quantity = ""
    · exact .inl he
    · exact .inr (if_neg he).symm

theorem reflects_snapshotRecord (snapshot : OrderSnapshot) (venue : String) :
    (Oms.snapshotRecord snapshot venue true).reflects snapshot := by
  have hfill : (Oms.snapshotRecord snapshot venue true).exceededBy snapshot.filledQuantity =
      false := by
    unfold exceededBy
    cases hr : parseDecimal snapshot.filledQuantity with
    | error e => rfl
    | ok reported =>
      have hne : snapshot.filledQuantity ≠ "" := by
        intro he
        rw [he] at hr
        cases hr
      have htext : (Oms.snapshotRecord snapshot venue true).filledText =
          snapshot.filledQuantity := by simp [filledText, Oms.snapshotRecord, hne]
      rw [htext, hr]
      simp [Decimal.compare_self]
  simpa [reflects, Oms.snapshotRecord] using hfill

theorem identified_of_knows {snapshot : OrderSnapshot} (h : record.knows snapshot) :
    record.identified snapshot := by
  rcases h with h | ⟨h, -⟩
  · simp [identified, h]
  · simp [identified, h]

theorem refreshed_spec (record : OrderRecord) (snapshot : OrderSnapshot) :
    (Oms.refreshed record snapshot).1.identified snapshot ∧
      (Oms.refreshed record snapshot).1.reflects snapshot := by
  refine ⟨?_, reflects_observeSnapshot _ snapshot⟩
  by_cases hid : snapshot.exchangeOrderId = ""
  · simp [identified, hid]
  · simp only [identified, Oms.refreshed, Oms.observeSnapshot, exchangeOrderId_applyObservation]
    by_cases hb : record.exchangeOrderId = ""
    · simp [hb, hid, exchangeOrderId_noteExchangeId hid]
    · simp [hb]

theorem legIndexOf_applyObservation (record : OrderRecord) (state : OrderState)
    (filled avgPrice price quantity : String) (lifecycle : Bool) (id : String) :
    (record.applyObservation state filled avgPrice price quantity lifecycle).1.legIndexOf id =
      record.legIndexOf id := by
  unfold legIndexOf
  rw [legs_applyObservation]

/-- The current order is in the leg table. -/
theorem LegTable.legIndexOf_current (h : record.LegTable) (hid : record.exchangeOrderId ≠ "") :
    record.legIndexOf record.exchangeOrderId ≠ none := by
  rcases h.cases with ⟨hempty, -⟩ | ⟨-, older, hlegs⟩
  · exact absurd hempty hid
  · rw [legIndexOf_concat hlegs, if_pos rfl]
    exact Option.some_ne_none _

/-- A lookup leaves a record that knows and reflects the snapshot. -/
theorem resolve_spec (htable : record.LegTable) (snapshot : OrderSnapshot) :
    (record.resolve snapshot).1.knows snapshot ∧ (record.resolve snapshot).1.reflects snapshot := by
  refine ⟨?_, reflects_observeSnapshot _ snapshot⟩
  by_cases hid : snapshot.exchangeOrderId = ""
  · exact .inl hid
  right
  simp only [resolve, Oms.observeSnapshot, exchangeOrderId_applyObservation,
    legIndexOf_applyObservation]
  by_cases hknown : record.exchangeOrderId = "" ∨
      record.legIndexOf snapshot.exchangeOrderId = none
  · -- a new leg is the current one
    have hnoted := (record.legStep_noteExchangeId snapshot.exchangeOrderId).legTable htable
    have hcurrent : (record.noteExchangeId snapshot.exchangeOrderId).exchangeOrderId =
        snapshot.exchangeOrderId := exchangeOrderId_noteExchangeId hid
    have hleg := hnoted.legIndexOf_current (by rw [hcurrent]; exact hid)
    rw [hcurrent] at hleg
    rw [if_pos (by simpa [hid] using hknown), hcurrent]
    exact ⟨hid, hleg⟩
  · rw [if_neg (by simpa [hid] using hknown)]
    exact not_or.mp hknown

end OrderRecord

/-! ### Stable venues -/

/-- A venue lists the snapshot among its open orders, under a client order id. -/
def Venues.Lists (venues : Venues) (oms : Oms) (venue : String) (snapshot : OrderSnapshot) :
    Prop :=
  venue ∈ oms.connectors ∧ snapshot.clientOrderId ≠ "" ∧
    ∃ pending, venues.getOpenOrders venue = .ok pending ∧ snapshot ∈ pending

/-- The record a listed snapshot is about: the registered one, or the one it is adopted as. -/
def Oms.recordFor (oms : Oms) (venue : String) (snapshot : OrderSnapshot) : OrderRecord :=
  (oms.lookup snapshot.clientOrderId).getD (snapshotRecord snapshot venue true)

/-- Each client order is listed at most once, by the venue its record is routed to, and its lookup
there answers with the same snapshot. -/
structure Venues.Consistent (venues : Venues) (oms : Oms) : Prop where
  once : ∀ venue snapshot venue' snapshot', venues.Lists oms venue snapshot →
    venues.Lists oms venue' snapshot' → snapshot.clientOrderId = snapshot'.clientOrderId →
      venue = venue' ∧ snapshot = snapshot'
  own : ∀ venue snapshot, venues.Lists oms venue snapshot →
    oms.venueOf (oms.recordFor venue snapshot) = venue
  looked : ∀ venue snapshot, venues.Lists oms venue snapshot →
    venues.getOrder venue ⟨snapshot.clientOrderId, (oms.recordFor venue snapshot).symbol⟩ =
      .ok (some snapshot)

structure Oms.Settled (oms : Oms) (venues : Venues) : Prop where
  listed : ∀ venue snapshot, venues.Lists oms venue snapshot → ∃ record,
    oms.lookup snapshot.clientOrderId = some record ∧ record.identified snapshot ∧
      record.reflects snapshot
  present : ∀ id record, oms.lookup id = some record → ¬ isTerminal record.state →
    oms.venueOf record ∈ oms.connectors →
      conclusivelyAbsent (venues.getOrder (oms.venueOf record) ⟨id, record.symbol⟩) = false
  looked : ∀ id record snapshot, oms.lookup id = some record → ¬ isTerminal record.state →
    oms.venueOf record ∈ oms.connectors →
    venues.getOrder (oms.venueOf record) ⟨id, record.symbol⟩ = .ok (some snapshot) →
      record.knows snapshot ∧ record.reflects snapshot

structure ReconcileReport.Quiet (report : ReconcileReport) : Prop where
  adopted : report.adopted = 0
  updated : report.updated = 0
  terminalResolved : report.terminalResolved = 0
  absentRejected : report.absentRejected = 0

/-! ### The second pass -/

namespace Oms

variable {oms : Oms} {venues : Venues} {report : ReconcileReport}

theorem store_of_lookup {record : OrderRecord} {id : String} (h : oms.lookup id = some record) :
    oms.store record = oms := by
  have hkey : record.clientOrderId = id := KeyedList.key_of_find? h
  have hself : oms.lookup record.clientOrderId = some record := hkey ▸ h
  have horders : oms.orders.set record = oms.orders := KeyedList.set_of_find? hself
  simp only [store, hself, horders, if_true]

theorem Settled.reconcileSnapshot (h : oms.Settled venues) {venue : String}
    {snapshot : OrderSnapshot} (hs : snapshot.clientOrderId ≠ "" → venues.Lists oms venue snapshot) :
    reconcileSnapshot venue (oms, report) snapshot = (oms, report) := by
  by_cases hskip : snapshot.clientOrderId = "" ∨ snapshot.clientOrderId ∈ oms.racedReports
  · simp [Oms.reconcileSnapshot, hskip]
  · obtain ⟨record, hr, hid, hreflects⟩ := h.listed venue snapshot (hs (not_or.mp hskip).1)
    simp [Oms.reconcileSnapshot, hskip, hr, OrderRecord.refreshed_of_reflects hid hreflects,
      store_of_lookup hr]

theorem Settled.reconcileVenue (h : oms.Settled venues) {venue : String}
    (hvenue : venue ∈ oms.connectors) (hquiet : report.Quiet) :
    ∃ report', report'.Quiet ∧
      reconcileVenue venues (oms, report) venue = (oms, report') := by
  unfold Oms.reconcileVenue
  cases hlisting : venues.getOpenOrders venue with
  | error error =>
    exact ⟨{ report with pendingListingFailed := true },
      ⟨hquiet.adopted, hquiet.updated, hquiet.terminalResolved, hquiet.absentRejected⟩, rfl⟩
  | ok pending =>
    refine ⟨report, hquiet, ?_⟩
    have hall : ∀ rest, rest ⊆ pending →
        rest.foldl (Oms.reconcileSnapshot venue) (oms, report) = (oms, report) := by
      intro rest hrest
      induction rest with
      | nil => rfl
      | cons snapshot rest ih =>
        obtain ⟨hm, hrest⟩ := List.cons_subset.mp hrest
        rw [List.foldl_cons, h.reconcileSnapshot fun hid => ⟨hvenue, hid, pending, hlisting, hm⟩]
        exact ih hrest
    exact hall pending (List.Subset.refl pending)

theorem Settled.resolveSnapshot {record : OrderRecord} {id : String} {snapshot : OrderSnapshot}
    (hr : oms.lookup id = some record) (hknows : record.knows snapshot)
    (hreflects : record.reflects snapshot) :
    resolveSnapshot oms record snapshot report = (oms, report) := by
  have hbackfill : ¬ (record.exchangeOrderId = "" ∧ snapshot.exchangeOrderId ≠ "") := by
    rintro ⟨hempty, hid⟩
    rcases hknows with h | ⟨h, -⟩
    · exact hid h
    · exact h hempty
  have hunknown : ¬ (snapshot.exchangeOrderId ≠ "" ∧
      record.legIndexOf snapshot.exchangeOrderId = none) := by
    rintro ⟨hid, hnone⟩
    rcases hknows with h | ⟨-, h⟩
    · exact hid h
    · exact h hnone
  simp [Oms.resolveSnapshot, hbackfill, hunknown, OrderRecord.observeSnapshot_of_reflects hreflects,
    store_of_lookup hr]

theorem Settled.reconcileLookup (h : oms.Settled venues) {item : WorkItem}
    (hitem : item ∈ oms.reconcileWorklist) (hquiet : report.Quiet) :
    ∃ report', report'.Quiet ∧
      reconcileLookup venues (oms, report) item = (oms, report') := by
  obtain ⟨record, hr, hopen, -, heq⟩ := mem_reconcileWorklist_iff.mp hitem
  have hunresolved : ReconcileReport.Quiet { report with unresolved := report.unresolved + 1 } :=
    ⟨hquiet.adopted, hquiet.updated, hquiet.terminalResolved, hquiet.absentRejected⟩
  have hvenue : item.venue = oms.venueOf record := congrArg WorkItem.venue heq
  have hquery : item.query = ⟨item.id, record.symbol⟩ := congrArg WorkItem.query heq
  unfold Oms.reconcileLookup
  cases hc : oms.connectorFor item.venue with
  | none => exact ⟨_, hunresolved, by simp only [hc]⟩
  | some connector =>
    obtain rfl := eq_of_connectorFor hc
    have hmem : oms.venueOf record ∈ oms.connectors := by
      rw [← hvenue]
      exact mem_of_connectorFor hc
    have hpresent := h.present item.id record hr hopen hmem
    have hlooked := h.looked item.id record
    rw [← hvenue, ← hquery] at hpresent hlooked
    simp only [hc, reconcileItem, hr]
    cases hanswer : venues.getOrder item.venue item.query with
    | error error =>
      rw [hanswer] at hpresent
      exact ⟨_, hunresolved, by simp only [hpresent, Bool.false_eq_true, if_false]⟩
    | ok found =>
      cases found with
      | none =>
        rw [hanswer] at hpresent
        cases hpresent
      | some snapshot =>
        obtain ⟨hknows, hreflects⟩ := hlooked snapshot hr hopen (hvenue ▸ hmem) hanswer
        exact ⟨report, hquiet, Settled.resolveSnapshot hr hknows hreflects⟩

private theorem foldl_quiet {α : Type} {f : Oms × ReconcileReport → α → Oms × ReconcileReport}
    {items : List α}
    (hf : ∀ item ∈ items, ∀ report : ReconcileReport, report.Quiet →
      ∃ report', report'.Quiet ∧ f (oms, report) item = (oms, report'))
    (hquiet : report.Quiet) :
    ∃ report', report'.Quiet ∧ items.foldl f (oms, report) = (oms, report') := by
  induction items generalizing report with
  | nil => exact ⟨report, hquiet, rfl⟩
  | cons item items ih =>
    obtain ⟨report', hquiet', heq⟩ := hf item List.mem_cons_self report hquiet
    rw [List.foldl_cons, heq]
    exact ih (fun other hm => hf other (List.mem_cons_of_mem item hm)) hquiet'

theorem Settled.reconcile (h : oms.Settled venues) :
    ∃ report, report.Quiet ∧ oms.reconcile venues = (oms, report) := by
  have hstart : ReconcileReport.Quiet {} := ⟨rfl, rfl, rfl, rfl⟩
  obtain ⟨report, hquiet, heq⟩ := foldl_quiet (fun _ hvenue _ => h.reconcileVenue hvenue) hstart
  unfold Oms.reconcile
  rw [heq]
  exact foldl_quiet (fun _ hitem _ => h.reconcileLookup hitem) hquiet

/-! ### The first pass -/

/-- The listing of the snapshot has been applied: its record reflects it, routed as before. -/
def Touched (oms mid : Oms) (venue : String) (snapshot : OrderSnapshot) : Prop :=
  ∃ record, mid.lookup snapshot.clientOrderId = some record ∧ record.identified snapshot ∧
    record.reflects snapshot ∧ record.venue = (oms.recordFor venue snapshot).venue ∧
    record.symbol = (oms.recordFor venue snapshot).symbol

/-- A state of phase A: each listed order is as before or has its snapshot applied. -/
structure Relisting (oms : Oms) (venues : Venues) (mid : Oms) : Prop where
  frame : mid.frame = oms.frame
  tables : mid.ledger.LegTables
  listed : ∀ venue snapshot, venues.Lists oms venue snapshot →
    mid.lookup snapshot.clientOrderId = oms.lookup snapshot.clientOrderId ∨
      Touched oms mid venue snapshot

variable {mid : Oms}

/-- The record a listed snapshot finds in phase A, if any, is routed as its record was. -/
private theorem Relisting.routed (h : Relisting oms venues mid) {venue : String}
    {snapshot : OrderSnapshot} (hs : venues.Lists oms venue snapshot) {record : OrderRecord}
    (hr : mid.lookup snapshot.clientOrderId = some record) :
    record.venue = (oms.recordFor venue snapshot).venue ∧
      record.symbol = (oms.recordFor venue snapshot).symbol := by
  rcases h.listed venue snapshot hs with hsame | ⟨touched, ht, -, -, hvenue, hsymbol⟩
  · rw [recordFor, ← hsame, hr]
    exact ⟨rfl, rfl⟩
  · obtain rfl := Option.some.inj (hr.symm.trans ht)
    exact ⟨hvenue, hsymbol⟩

theorem Relisting.touched (h : Relisting oms venues mid) {venue : String}
    {snapshot : OrderSnapshot} (hs : venues.Lists oms venue snapshot)
    (hraced : snapshot.clientOrderId ∉ mid.racedReports) (report : ReconcileReport) :
    Touched oms (reconcileSnapshot venue (mid, report) snapshot).1 venue snapshot := by
  have hledger := reconcileSnapshot_ledger mid venue report snapshot hs.2.1 hraced
  cases hr : mid.lookup snapshot.clientOrderId with
  | none =>
    have hnone : oms.lookup snapshot.clientOrderId = none := by
      rcases h.listed venue snapshot hs with hsame | ⟨record, ht, -⟩
      · exact hsame.symm.trans hr
      · rw [hr] at ht
        cases ht
    refine ⟨snapshotRecord snapshot venue true, ?_, ?_,
      OrderRecord.reflects_snapshotRecord snapshot venue, ?_, ?_⟩
    · rw [lookup_of_ledger hledger]
      exact Ledger.find?_enter_of_write _ (.listed venue snapshot) hr rfl
    · by_cases hid : snapshot.exchangeOrderId = ""
      · simp [OrderRecord.identified, hid]
      · simp [OrderRecord.identified, snapshotRecord, hid]
    · rw [recordFor, hnone, Option.getD_none]
    · rw [recordFor, hnone, Option.getD_none]
  | some record =>
    obtain ⟨hvenue, hsymbol⟩ := h.routed hs hr
    obtain ⟨hid, hreflects⟩ := record.refreshed_spec snapshot
    have hlater := (record.refreshed_updates snapshot).later
    exact ⟨(refreshed record snapshot).1,
      lookup_reconcileSnapshot_of_some (mid, report) hs.2.1 hraced hr venue, hid,
      hreflects, hlater.venue.trans hvenue, hlater.symbol.trans hsymbol⟩

theorem Relisting.step (hvenues : venues.Consistent oms) (hfree : ∀ id, id ∉ oms.racedReports)
    (h : Relisting oms venues mid) {venue : String} {snapshot : OrderSnapshot}
    (hs : snapshot.clientOrderId ≠ "" → venues.Lists oms venue snapshot)
    (report : ReconcileReport) :
    Relisting oms venues (reconcileSnapshot venue (mid, report) snapshot).1 ∧
      ∀ venue' snapshot', venues.Lists oms venue' snapshot' →
        (Touched oms mid venue' snapshot' ∨ venue' = venue ∧ snapshot' = snapshot) →
          Touched oms (reconcileSnapshot venue (mid, report) snapshot).1 venue' snapshot' := by
  have hraced : mid.racedReports = oms.racedReports := congrArg Prod.snd h.frame
  by_cases hempty : snapshot.clientOrderId = ""
  · have hskip : reconcileSnapshot venue (mid, report) snapshot = (mid, report) := by
      simp [Oms.reconcileSnapshot, hempty]
    rw [hskip]
    refine ⟨h, fun venue' snapshot' hs' hdone => hdone.resolve_right fun heq => ?_⟩
    exact hs'.2.1 (heq.2 ▸ hempty)
  have hlists := hs hempty
  have hnot : snapshot.clientOrderId ∉ mid.racedReports := by
    rw [hraced]
    exact hfree _
  have htouched := h.touched hlists hnot report
  -- another listed snapshot is of another client order
  have hother {venue' : String} {snapshot' : OrderSnapshot}
      (hs' : venues.Lists oms venue' snapshot') :
      venue' = venue ∧ snapshot' = snapshot ∨
        (reconcileSnapshot venue (mid, report) snapshot).1.lookup snapshot'.clientOrderId =
          mid.lookup snapshot'.clientOrderId := by
    by_cases hkey : snapshot.clientOrderId = snapshot'.clientOrderId
    · obtain ⟨rfl, rfl⟩ := hvenues.once _ _ _ _ hlists hs' hkey
      exact .inl ⟨rfl, rfl⟩
    · exact .inr (lookup_reconcileSnapshot_of_ne (mid, report) hkey venue)
  constructor
  · constructor
    · exact (frame_apart.reconcileSnapshot mid venue report snapshot).trans h.frame
    · rw [reconcileSnapshot_ledger mid venue report snapshot hempty hnot]
      exact h.tables.enter fun _ hb => by cases hb
    · intro venue' snapshot' hs'
      rcases hother hs' with ⟨rfl, rfl⟩ | hsame
      · exact .inr htouched
      · unfold Touched
        rw [hsame]
        exact h.listed venue' snapshot' hs'
  · intro venue' snapshot' hs' hdone
    rcases hother hs' with ⟨rfl, rfl⟩ | hsame
    · exact htouched
    · rcases hdone with hdone | ⟨rfl, rfl⟩
      · unfold Touched
        rw [hsame]
        exact hdone
      · exact htouched

theorem Relisting.listing (hvenues : venues.Consistent oms) (hfree : ∀ id, id ∉ oms.racedReports)
    {venue : String} {pending : List OrderSnapshot}
    (hpending : ∀ snapshot ∈ pending, snapshot.clientOrderId ≠ "" →
      venues.Lists oms venue snapshot)
    (state : Oms × ReconcileReport) (h : Relisting oms venues state.1) :
    Relisting oms venues (pending.foldl (Oms.reconcileSnapshot venue) state).1 ∧
      ∀ venue' snapshot', venues.Lists oms venue' snapshot' →
        (Touched oms state.1 venue' snapshot' ∨ venue' = venue ∧ snapshot' ∈ pending) →
          Touched oms (pending.foldl (Oms.reconcileSnapshot venue) state).1 venue' snapshot' := by
  induction pending generalizing state with
  | nil => exact ⟨h, fun _ _ _ hdone => hdone.resolve_right fun hm => by cases hm.2⟩
  | cons snapshot pending ih =>
    obtain ⟨hnext, hkept⟩ :=
      h.step hvenues hfree (hpending snapshot List.mem_cons_self) state.2
    obtain ⟨hlast, hkept'⟩ :=
      ih (fun s hm => hpending s (List.mem_cons_of_mem snapshot hm)) _ hnext
    refine ⟨hlast, fun venue' snapshot' hs' hdone => hkept' venue' snapshot' hs' ?_⟩
    rcases hdone with hdone | ⟨rfl, hm⟩
    · exact .inl (hkept venue' snapshot' hs' (.inl hdone))
    · rcases List.mem_cons.mp hm with rfl | hm
      · exact .inl (hkept venue' snapshot' hs' (.inr ⟨rfl, rfl⟩))
      · exact .inr ⟨rfl, hm⟩

theorem Relisting.phase (hvenues : venues.Consistent oms) (hfree : ∀ id, id ∉ oms.racedReports)
    {keys : List String} (hkeys : keys ⊆ oms.connectors) (state : Oms × ReconcileReport)
    (h : Relisting oms venues state.1) :
    Relisting oms venues (keys.foldl (Oms.reconcileVenue venues) state).1 ∧
      ∀ venue snapshot, venues.Lists oms venue snapshot →
        (Touched oms state.1 venue snapshot ∨ venue ∈ keys) →
          Touched oms (keys.foldl (Oms.reconcileVenue venues) state).1 venue snapshot := by
  induction keys generalizing state with
  | nil => exact ⟨h, fun _ _ _ hdone => hdone.resolve_right List.not_mem_nil⟩
  | cons key keys ih =>
    obtain ⟨hkey, hkeys⟩ := List.cons_subset.mp hkeys
    have hfirst : Relisting oms venues (Oms.reconcileVenue venues state key).1 ∧
        ∀ venue snapshot, venues.Lists oms venue snapshot →
          (Touched oms state.1 venue snapshot ∨ venue = key) →
            Touched oms (Oms.reconcileVenue venues state key).1 venue snapshot := by
      unfold Oms.reconcileVenue
      cases hlisting : venues.getOpenOrders key with
      | error error =>
        refine ⟨h, fun venue snapshot hs hdone => hdone.resolve_right fun heq => ?_⟩
        obtain ⟨-, -, pending, hok, -⟩ := heq ▸ hs
        rw [hlisting] at hok
        cases hok
      | ok pending =>
        have hpending (snapshot : OrderSnapshot) (hm : snapshot ∈ pending)
            (hid : snapshot.clientOrderId ≠ "") : venues.Lists oms key snapshot :=
          ⟨hkey, hid, pending, hlisting, hm⟩
        obtain ⟨hnext, hkept⟩ := Relisting.listing hvenues hfree hpending state h
        refine ⟨hnext, fun venue snapshot hs hdone => hkept venue snapshot hs ?_⟩
        refine hdone.imp_right fun heq => ⟨heq, ?_⟩
        obtain ⟨-, -, pending', hok, hm⟩ := heq ▸ hs
        rw [hlisting] at hok
        exact Except.ok.inj hok ▸ hm
    obtain ⟨hnext, hkept⟩ := hfirst
    obtain ⟨hlast, hkept'⟩ := ih hkeys _ hnext
    refine ⟨hlast, fun venue snapshot hs hdone => hkept' venue snapshot hs ?_⟩
    rcases hdone with hdone | hm
    · exact .inl (hkept venue snapshot hs (.inl hdone))
    · rcases List.mem_cons.mp hm with heq | hm
      · exact .inl (hkept venue snapshot hs (.inr heq))
      · exact .inr hm

/-- After phase A every listed snapshot has been applied. -/
theorem relisting_relisted (hvenues : venues.Consistent oms)
    (hfree : ∀ id, id ∉ oms.racedReports) (htables : oms.ledger.LegTables) :
    Relisting oms venues (oms.relisted venues) ∧
      ∀ venue snapshot, venues.Lists oms venue snapshot →
        Touched oms (oms.relisted venues) venue snapshot := by
  have hstart : Relisting oms venues oms := ⟨rfl, htables, fun _ _ _ => .inl rfl⟩
  obtain ⟨hlast, hdone⟩ :=
    Relisting.phase hvenues hfree (List.Subset.refl oms.connectors) (oms, {}) hstart
  exact ⟨hlast, fun venue snapshot hs => hdone venue snapshot hs (.inr hs.1)⟩

theorem frame_reconcile (oms : Oms) (venues : Venues) :
    (oms.reconcile venues).1.frame = oms.frame :=
  (frame_foldl_reconcileLookup venues _ _).trans (oms.frame_relisted venues)

/-- A lookup that leaves the order open is not an absence and leaves its routing alone. -/
theorem settle_open {record : OrderRecord} {answer : Result (Option OrderSnapshot)}
    (hrecord : ¬ isTerminal record.state) (hopen : ¬ isTerminal (record.settle answer).state) :
    conclusivelyAbsent answer = false ∧ (record.settle answer).venue = record.venue ∧
      (record.settle answer).symbol = record.symbol := by
  have hother (h : ∀ snapshot, answer ≠ .ok (some snapshot)) :
      record.settle answer = if conclusivelyAbsent answer ∧ ¬ isTerminal record.state then
        record.reject ⟨"venue_absent", "order is unknown to the venue after reconciliation"⟩
      else record := by
    unfold OrderRecord.settle
    split
    · rename_i snapshot
      exact absurd rfl (h snapshot)
    · rfl
  have hunanswered (h : ∀ snapshot, answer ≠ .ok (some snapshot)) :
      conclusivelyAbsent answer = false ∧ record.settle answer = record := by
    cases hc : conclusivelyAbsent answer with
    | true =>
      rw [hother h, if_pos ⟨hc, hrecord⟩] at hopen
      exact absurd rfl hopen
    | false => exact ⟨rfl, (hother h).trans (if_neg fun hand => by simp [hc] at hand)⟩
  cases answer with
  | error error =>
    obtain ⟨hpresent, hsame⟩ := hunanswered fun _ he => by cases he
    rw [hsame]
    exact ⟨hpresent, rfl, rfl⟩
  | ok found =>
    cases found with
    | none =>
      obtain ⟨hpresent, -⟩ := hunanswered fun _ he => by cases he
      cases hpresent
    | some snapshot =>
      have hlater := (record.resolve_updates snapshot).later
      exact ⟨rfl, hlater.venue, hlater.symbol⟩

/-- An order that is open after a reconciliation was open between the phases, and settled. -/
theorem open_of_reconcile (hfree : ∀ id, id ∉ oms.racedReports) {id : String}
    {record : OrderRecord} (hr : (oms.reconcile venues).1.lookup id = some record)
    (hopen : ¬ isTerminal record.state) :
    ∃ old, (oms.relisted venues).lookup id = some old ∧ ¬ isTerminal old.state ∧
      record = oms.settledRecord venues ⟨id, oms.venueOf old, ⟨id, old.symbol⟩⟩ old := by
  cases hold : (oms.relisted venues).lookup id with
  | none =>
    have hclosed : (oms.reconcile venues).1.lookup id = (oms.relisted venues).lookup id :=
      lookup_reconcile_of_closed fun _ ho => by cases hold.symm.trans ho
    cases hr.symm.trans (hclosed.trans hold)
  | some old =>
    by_cases hterminal : isTerminal old.state
    · have hclosed : (oms.reconcile venues).1.lookup id = (oms.relisted venues).lookup id := by
        refine lookup_reconcile_of_closed fun other ho => ?_
        obtain rfl := Option.some.inj (hold.symm.trans ho)
        exact hterminal
      obtain rfl := Option.some.inj (hr.symm.trans (hclosed.trans hold))
      exact absurd hterminal hopen
    · have hsettled := lookup_reconcile_of_open hfree hold hterminal
      exact ⟨old, rfl, hterminal, Option.some.inj (hr.symm.trans hsettled)⟩

theorem connectorFor_of_mem {venue : String} (h : venue ∈ oms.connectors) :
    oms.connectorFor venue = some venue := if_pos h

/-- An order that stays open was looked up where it is still routed. -/
theorem Relisting.looked (hmid : Relisting oms venues (oms.relisted venues))
    (hfree : ∀ id, id ∉ oms.racedReports) {id : String} {record : OrderRecord}
    (hr : (oms.reconcile venues).1.lookup id = some record) (hopen : ¬ isTerminal record.state)
    (hmem : oms.venueOf record ∈ oms.connectors) :
    ∃ old : OrderRecord, old.LegTable ∧
      conclusivelyAbsent (venues.getOrder (oms.venueOf record) ⟨id, record.symbol⟩) = false ∧
      record = old.settle (venues.getOrder (oms.venueOf record) ⟨id, record.symbol⟩) := by
  obtain ⟨old, hold, hlive, heq⟩ := open_of_reconcile hfree hr hopen
  unfold settledRecord at heq
  by_cases hconnector : oms.venueOf old ∈ oms.connectors
  · rw [connectorFor_of_mem hconnector] at heq
    have hsettled : record = old.settle (venues.getOrder (oms.venueOf old) ⟨id, old.symbol⟩) := heq
    obtain ⟨hpresent, hvenue, hsymbol⟩ := settle_open hlive (hsettled ▸ hopen)
    have hroute : oms.venueOf record = oms.venueOf old := by
      rw [venueOf, venueOf, hsettled, hvenue]
    have hquery : record.symbol = old.symbol := by rw [hsettled, hsymbol]
    rw [hroute, hquery]
    exact ⟨old, hmid.tables id old hold, hpresent, hsettled⟩
  · rw [connectorFor, if_neg hconnector] at heq
    obtain rfl : record = old := heq
    exact absurd hmem hconnector

/-- A listed order is settled with the snapshot it was listed with. -/
theorem Relisting.reflected (hmid : Relisting oms venues (oms.relisted venues))
    (hvenues : venues.Consistent oms) (hfree : ∀ id, id ∉ oms.racedReports) {venue : String}
    {snapshot : OrderSnapshot} (hs : venues.Lists oms venue snapshot)
    (htouched : Touched oms (oms.relisted venues) venue snapshot) :
    ∃ record, (oms.reconcile venues).1.lookup snapshot.clientOrderId = some record ∧
      record.identified snapshot ∧ record.reflects snapshot := by
  obtain ⟨record, hr, hid, hreflects, hvenue, hsymbol⟩ := htouched
  by_cases hterminal : isTerminal record.state
  · refine ⟨record, ?_, hid, hreflects⟩
    refine (lookup_reconcile_of_closed fun other ho => ?_).trans hr
    obtain rfl := Option.some.inj (hr.symm.trans ho)
    exact hterminal
  · have hroute : oms.venueOf record = venue := by
      have hown := hvenues.own venue snapshot hs
      rw [venueOf, ← hvenue] at hown
      exact hown
    have hsettled : oms.settledRecord venues
        ⟨snapshot.clientOrderId, oms.venueOf record, ⟨snapshot.clientOrderId, record.symbol⟩⟩
        record = (record.resolve snapshot).1 := by
      unfold settledRecord
      dsimp only
      rw [hroute, connectorFor_of_mem hs.1, hsymbol, hvenues.looked venue snapshot hs]
      rfl
    obtain ⟨hknows, hreflects'⟩ := OrderRecord.resolve_spec (hmid.tables _ record hr) snapshot
    refine ⟨(record.resolve snapshot).1, ?_, OrderRecord.identified_of_knows hknows, hreflects'⟩
    rw [lookup_reconcile_of_open hfree hr hterminal, hsettled]

/-- After one reconciliation nothing the venues say is new. -/
theorem settled_reconcile (hvenues : venues.Consistent oms)
    (hfree : ∀ id, id ∉ oms.racedReports) (htables : oms.ledger.LegTables) :
    (oms.reconcile venues).1.Settled venues := by
  obtain ⟨hmid, htouched⟩ := relisting_relisted hvenues hfree htables
  have hconnectors : (oms.reconcile venues).1.connectors = oms.connectors :=
    congrArg (Config.connectors ∘ Prod.fst) (oms.frame_reconcile venues)
  have hvenueOf (record : OrderRecord) :
      (oms.reconcile venues).1.venueOf record = oms.venueOf record := by
    have hdefault : (oms.reconcile venues).1.defaultVenue = oms.defaultVenue :=
      congrArg (Config.defaultVenue ∘ Prod.fst) (oms.frame_reconcile venues)
    rw [venueOf, venueOf, hdefault]
  constructor
  · intro venue snapshot hs
    unfold Venues.Lists at hs
    rw [hconnectors] at hs
    exact hmid.reflected hvenues hfree hs (htouched venue snapshot hs)
  · intro id record hr hopen hmem
    rw [hvenueOf, hconnectors] at hmem
    rw [hvenueOf]
    obtain ⟨-, -, hpresent, -⟩ := hmid.looked hfree hr hopen hmem
    exact hpresent
  · intro id record snapshot hr hopen hmem hanswer
    rw [hvenueOf, hconnectors] at hmem
    rw [hvenueOf] at hanswer
    obtain ⟨old, htable, -, hsettled⟩ := hmid.looked hfree hr hopen hmem
    rw [hanswer] at hsettled
    have hresolved : record = (old.resolve snapshot).1 := hsettled
    rw [hresolved]
    exact OrderRecord.resolve_spec htable snapshot

end Oms

namespace System

variable {s : System}

/-- In every state live operations reach from the empty registry, without an open place or amend,
and against venues with stable and consistent answers: right after one reconciliation a second one
changes nothing at all, neither registry nor log, and reports no adoption, update or resolution. -/
theorem reconcile_idempotent (config : Config) (log : Option EventLog)
    (hempty : (boot config log).oms.orders.toList = []) (h : LiveRun (boot config log) s)
    (hcalls : s.owners = []) (venues : Venues) (hvenues : venues.Consistent s.oms) :
    ∃ t, LiveRun s t ∧ t.oms = (s.oms.reconcile venues).1 ∧ t.calls = s.calls ∧
      (t.oms.reconcile venues).1 = t.oms ∧ (t.oms.reconcile venues).2.adopted = 0 ∧
      (t.oms.reconcile venues).2.updated = 0 ∧
      (t.oms.reconcile venues).2.terminalResolved = 0 ∧
      (t.oms.reconcile venues).2.absentRejected = 0 := by
  have hrun : Run (boot config log) s := Transition.Reaches.mono (fun _ _ _ => trivial) h
  have hfree (id : String) : id ∉ s.oms.racedReports := by
    rw [(owned_run config log hrun).raced id, hcalls]
    exact List.not_mem_nil
  have htables := legTables_run config log hempty h
  have hsettled := Oms.settled_reconcile hvenues hfree htables
  obtain ⟨report, hquiet, heq⟩ := hsettled.reconcile
  refine ⟨_, reconcile_run s venues, rfl, rfl, ?_⟩
  dsimp only
  rw [heq]
  exact ⟨rfl, hquiet.adopted, hquiet.updated, hquiet.terminalResolved, hquiet.absentRejected⟩

/-! ### A lost ack and a stranger's order -/

/-- The venue's open orders: the one whose ack was lost, partially filled, and one of another
session. -/
def knownOrders : List OrderSnapshot :=
  [⟨"c1", "1", "BTCUSDT", .partiallyFilled, .buy, .limit, "100", "5", "2", "100"⟩,
    ⟨"x9", "7", "ETHUSDT", .live, .sell, .limit, "9", "4", "", ""⟩]

def knownVenues : Venues where
  getOpenOrders _ := .ok knownOrders
  getOrder _ query := .ok (knownOrders.find? (·.clientOrderId = query.clientOrderId))

private theorem knownVenues_consistent : knownVenues.Consistent unacked.oms := by
  have hcases {venue : String} {snapshot : OrderSnapshot}
      (h : knownVenues.Lists unacked.oms venue snapshot) :
      venue = "binance" ∧ snapshot ∈ knownOrders := by
    obtain ⟨hvenue, -, pending, hok, hm⟩ := h
    exact ⟨List.mem_singleton.mp hvenue, Except.ok.inj hok ▸ hm⟩
  constructor
  · intro venue snapshot venue' snapshot' hs hs' hid
    obtain ⟨rfl, hm⟩ := hcases hs
    obtain ⟨rfl, hm'⟩ := hcases hs'
    have hdistinct : ∀ snapshot ∈ knownOrders, ∀ snapshot' ∈ knownOrders,
        snapshot.clientOrderId = snapshot'.clientOrderId → snapshot = snapshot' := by decide
    exact ⟨rfl, hdistinct snapshot hm snapshot' hm' hid⟩
  · intro venue snapshot hs
    obtain ⟨rfl, hm⟩ := hcases hs
    have hown : ∀ snapshot ∈ knownOrders,
        unacked.oms.venueOf (unacked.oms.recordFor "binance" snapshot) = "binance" := by decide
    exact hown snapshot hm
  · intro venue snapshot hs
    obtain ⟨rfl, hm⟩ := hcases hs
    have hfound : ∀ snapshot ∈ knownOrders,
        knownOrders.find? (·.clientOrderId = snapshot.clientOrderId) = some snapshot := by decide
    exact congrArg Except.ok (hfound snapshot hm)

/-- The first pass resolves the place and adopts the other order; the second does nothing. -/
theorem reconcile_idempotent_adopted : ∃ t, LiveRun unacked t ∧
    (unacked.oms.reconcile knownVenues).2.adopted = 1 ∧
    (unacked.oms.reconcile knownVenues).2.updated = 1 ∧
    t.oms = (unacked.oms.reconcile knownVenues).1 ∧
    (t.oms.reconcile knownVenues).1 = t.oms ∧ (t.oms.reconcile knownVenues).2.updated = 0 := by
  have hrun : LiveRun (boot .sample (some .fresh)) unacked := by
    have hexec : (Transition.exec step (fun _ a => a.live) (boot .sample (some .fresh))
      [.place .sample "", .send 0, .placed 0 (.error ⟨"transport", "timeout"⟩)]).isSome := by decide
    exact Transition.reaches_get_exec hexec
  obtain ⟨t, ht, homs, -, hsame, -, hupdated, -⟩ := reconcile_idempotent .sample (some .fresh) rfl
    hrun rfl knownVenues knownVenues_consistent
  exact ⟨t, ht, rfl, rfl, homs, hsame, hupdated⟩

end System

end ExchangeGateway
