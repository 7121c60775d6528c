import ExchangeGateway.Core.Convergence
import ExchangeGateway.Core.Legs

/-! Whose orders a venue's answer can move. The lookups of phase B go to the venue the record is
routed to. The listings of phase A are matched by client order id alone. -/
namespace ExchangeGateway

namespace OrderRecord

def exceededBy (record : OrderRecord) (filled : String) : Bool :=
  match parseDecimal filled, parseDecimal record.filledText with
  | .ok reported, .ok current => 0 < reported.compare current
  | _, _ => false

/-- Nothing in the snapshot moves the record: its state is the record's or not one the table leads
to, its fill is not above the record's, its price and size are empty or the record's. -/
def reflects (record : OrderRecord) (snapshot : OrderSnapshot) : Bool :=
  (snapshot.state = record.state || !canTransition record.state snapshot.state) &&
    !record.exceededBy snapshot.filledQuantity &&
    (snapshot.price = "" || snapshot.price = record.price) &&
    (snapshot.quantity = "" || snapshot.quantity = record.quantity)

def identified (record : OrderRecord) (snapshot : OrderSnapshot) : Bool :=
  record.exchangeOrderId ≠ "" || snapshot.exchangeOrderId = ""

variable {record : OrderRecord}

theorem observeFill_of_not_exceeded {filled : String} (h : record.exceededBy filled = false)
    (avgPrice : String) : record.observeFill filled avgPrice = (record, false) := by
  rcases record.observeFill_cases filled avgPrice with hsame | ⟨reported, current, -, hr, hc, hgt, -⟩
  · exact hsame
  · simp [exceededBy, hr, hc, hgt] at h

theorem exceededBy_of_observeFill {filled : String} (h : record.exceededBy filled)
    (avgPrice : String) :
    (record.observeFill filled avgPrice).1.filledQuantity = filled ∧
      filled ≠ record.filledQuantity := by
  unfold exceededBy at h
  cases hr : parseDecimal filled with
  | error e => simp [hr] at h
  | ok reported =>
    cases hc : parseDecimal record.filledText with
    | error e => simp [hr, hc] at h
    | ok current =>
      have hgt : 0 < reported.compare current := by simpa [hr, hc] using h
      have hne : filled ≠ "" := by
        intro he
        rw [he] at hr
        cases hr
      constructor
      · simp [observeFill, hne, hr, hc, hgt]
      · intro he
        rw [he] at hr
        rw [filledText_of_parse hr, hr] at hc
        obtain rfl := Except.ok.inj hc
        rw [Decimal.compare_self] at hgt
        cases hgt

theorem observeSnapshot_of_reflects {snapshot : OrderSnapshot} (h : record.reflects snapshot) :
    Oms.observeSnapshot record snapshot = (record, false) := by
  simp only [reflects, Bool.and_eq_true, Bool.or_eq_true, Bool.not_eq_true', decide_eq_true_eq] at h
  obtain ⟨⟨⟨hstate, hfill⟩, hprice⟩, hquantity⟩ := h
  have hs : record.observeState snapshot.state = (record, false) := by
    rcases record.observeState_cases snapshot.state with hs | ⟨hne, hc, -⟩
    · exact hs
    · rcases hstate with hsame | hrefused
      · exact absurd hsame hne
      · rw [hrefused] at hc
        cases hc
  have hp : record.observePrice snapshot.price = (record, false) := by
    rcases record.observePrice_cases snapshot.price with hp | ⟨hempty, hne, -⟩
    · exact hp
    · exact absurd hprice (not_or.mpr ⟨hempty, hne⟩)
  have hq : record.observeQuantity snapshot.quantity = (record, false) := by
    rcases record.observeQuantity_cases snapshot.quantity with hq | ⟨hempty, hne, -⟩
    · exact hq
    · exact absurd hquantity (not_or.mpr ⟨hempty, hne⟩)
  simp [Oms.observeSnapshot, applyObservation, observeFill_of_not_exceeded hfill, hs, hp, hq]

/-- A record is left alone by the snapshots it reflects only. -/
theorem reflects_of_observeSnapshot {snapshot : OrderSnapshot}
    (h : (Oms.observeSnapshot record snapshot).1 = record) : record.reflects snapshot := by
  unfold Oms.observeSnapshot at h
  rw [applyObservation_fst] at h
  have hfill := congrArg OrderRecord.filledQuantity h
  have hstate := congrArg OrderRecord.state h
  have hprice := congrArg OrderRecord.price h
  have hquantity := congrArg OrderRecord.quantity h
  dsimp only at hfill hstate hprice hquantity
  have hnot : record.exceededBy snapshot.filledQuantity = false := by
    cases hexceeded : record.exceededBy snapshot.filledQuantity with
    | false => rfl
    | true =>
      obtain ⟨hraised, hne⟩ := exceededBy_of_observeFill hexceeded snapshot.averageFillPrice
      exact absurd (hraised.symm.trans hfill) hne
  simp only [reflects, hnot, Bool.and_eq_true, Bool.or_eq_true, Bool.not_eq_true',
    decide_eq_true_eq, Bool.not_false, and_true]
  refine ⟨⟨?_, ?_⟩, ?_⟩
  · cases hc : canTransition record.state snapshot.state with
    | false => exact .inr rfl
    | true =>
      rw [if_pos hc] at hstate
      exact .inl hstate
  · by_cases he : snapshot.price = ""
    · exact .inl he
    · rw [if_neg he] at hprice
      exact .inr hprice
  · by_cases he : snapshot.quantity = ""
    · exact .inl he
    · rw [if_neg he] at hquantity
      exact .inr hquantity

theorem refreshed_of_reflects {snapshot : OrderSnapshot} (hid : record.identified snapshot)
    (h : record.reflects snapshot) : Oms.refreshed record snapshot = (record, false) := by
  have hb : (record.exchangeOrderId = "" && snapshot.exchangeOrderId ≠ "") = false := by
    simpa [identified, or_iff_not_imp_left] using hid
  simp only [Oms.refreshed, hb, Bool.false_eq_true, if_false, observeSnapshot_of_reflects h,
    Bool.or_self]

/-- A listed snapshot leaves the record alone exactly when it brings no id and the record reflects
it. -/
theorem refreshed_eq_self_iff (snapshot : OrderSnapshot) :
    (Oms.refreshed record snapshot).1 = record ↔
      record.identified snapshot ∧ record.reflects snapshot := by
  constructor
  · intro h
    by_cases hb : record.exchangeOrderId = "" ∧ snapshot.exchangeOrderId ≠ ""
    · have hid := congrArg OrderRecord.exchangeOrderId h
      simp only [Oms.refreshed, hb.1, hb.2, ne_eq, not_false_eq_true, decide_true, Bool.and_self,
        if_true, Oms.observeSnapshot, exchangeOrderId_applyObservation,
        exchangeOrderId_noteExchangeId hb.2] at hid
    · have hskip : (record.exchangeOrderId = "" && snapshot.exchangeOrderId ≠ "") = false := by
        simpa using hb
      simp only [Oms.refreshed, hskip, Bool.false_eq_true, if_false] at h
      refine ⟨?_, reflects_of_observeSnapshot h⟩
      simpa [identified, or_iff_not_imp_left] using hb
  · rintro ⟨hid, h⟩
    rw [refreshed_of_reflects hid h]

end OrderRecord

/-! ### One answer at a time -/

namespace Oms

def Isolated (venue : String) (before after : Oms) : Prop :=
  ∀ id record, before.lookup id = some record → before.venueOf record ≠ venue →
    after.lookup id = some record

/-- A snapshot in the listing of a venue has no client order id or one of an open call, is unknown
here or of an order routed to that venue, or moves nothing. -/
def spares (oms : Oms) (venue : String) (snapshot : OrderSnapshot) : Prop :=
  snapshot.clientOrderId ≠ "" → snapshot.clientOrderId ∉ oms.racedReports →
    ∀ record, oms.lookup snapshot.clientOrderId = some record → oms.venueOf record ≠ venue →
      record.identified snapshot ∧ record.reflects snapshot

theorem lookup_reconcileSnapshot_of_ne (state : Oms × ReconcileReport) {snapshot : OrderSnapshot}
    {id : String} (hne : snapshot.clientOrderId ≠ id) (venue : String) :
    (reconcileSnapshot venue state snapshot).1.lookup id = state.1.lookup id := by
  by_cases hskip : snapshot.clientOrderId = "" ∨ snapshot.clientOrderId ∈ state.1.racedReports
  · simp [reconcileSnapshot, hskip]
  · obtain ⟨hid, hraced⟩ := not_or.mp hskip
    rw [lookup_of_ledger (reconcileSnapshot_ledger state.1 venue state.2 snapshot hid hraced)]
    exact Ledger.find?_enter_of_ne _ hne

theorem lookup_reconcileSnapshot_of_some (state : Oms × ReconcileReport)
    {snapshot : OrderSnapshot} (hid : snapshot.clientOrderId ≠ "")
    (hraced : snapshot.clientOrderId ∉ state.1.racedReports) {record : OrderRecord}
    (hr : state.1.lookup snapshot.clientOrderId = some record) (venue : String) :
    (reconcileSnapshot venue state snapshot).1.lookup snapshot.clientOrderId =
      some (refreshed record snapshot).1 := by
  rw [lookup_of_ledger (reconcileSnapshot_ledger state.1 venue state.2 snapshot hid hraced)]
  exact Ledger.find?_enter_of_write _ (.listed venue snapshot) hr rfl

theorem isolated_reconcileSnapshot_iff (state : Oms × ReconcileReport) (venue : String)
    (snapshot : OrderSnapshot) :
    Isolated venue state.1 (reconcileSnapshot venue state snapshot).1 ↔
      state.1.spares venue snapshot := by
  constructor
  · intro h hid hraced record hr hforeign
    have hkept := h _ record hr hforeign
    rw [lookup_reconcileSnapshot_of_some _ hid hraced hr venue] at hkept
    exact (OrderRecord.refreshed_eq_self_iff snapshot).mp (Option.some.inj hkept)
  · intro h id record hr hforeign
    by_cases hskip : snapshot.clientOrderId = "" ∨ snapshot.clientOrderId ∈ state.1.racedReports
    · simpa [reconcileSnapshot, hskip] using hr
    · obtain ⟨hid, hraced⟩ := not_or.mp hskip
      by_cases hkey : snapshot.clientOrderId = id
      · subst hkey
        have hself := (OrderRecord.refreshed_eq_self_iff snapshot).mpr
          (h hid hraced record hr hforeign)
        rw [lookup_reconcileSnapshot_of_some _ hid hraced hr venue, hself]
      · rw [lookup_reconcileSnapshot_of_ne _ hkey venue]
        exact hr

/-! ### A whole reconciliation -/

inductive Answer
  | listed (snapshot : OrderSnapshot)
  | looked (item : WorkItem) (answer : Result (Option OrderSnapshot))
  deriving Repr

/-- The reconciliation applies an answer of a venue: the state it finds, and the one it leaves. -/
inductive Applies (oms : Oms) (venues : Venues) : Oms → String → Answer → Oms → Prop
  | listed {earlier later : List String} {venue : String} {before after : List OrderSnapshot}
      {snapshot : OrderSnapshot} (hvenue : oms.connectors = earlier ++ venue :: later)
      (hlisting : venues.getOpenOrders venue = .ok (before ++ snapshot :: after))
      (state : Oms × ReconcileReport)
      (hstate : state = before.foldl (reconcileSnapshot venue)
        (earlier.foldl (reconcileVenue venues) (oms, {}))) :
      Applies oms venues state.1 venue (.listed snapshot)
        (reconcileSnapshot venue state snapshot).1
  | looked {earlier later : List WorkItem} {item : WorkItem}
      (hitem : (oms.relisted venues).reconcileWorklist = earlier ++ item :: later)
      (state : Oms × ReconcileReport)
      (hstate : state = earlier.foldl (reconcileLookup venues)
        (oms.connectors.foldl (reconcileVenue venues) (oms, {}))) :
      Applies oms venues state.1 item.venue
        (.looked item (venues.getOrder item.venue item.query))
        (reconcileLookup venues state item).1

variable {oms : Oms} {venues : Venues}

/-- From one state of the reconciliation to a later one, by applying answers. -/
def AppliesAll (oms : Oms) (venues : Venues) : Oms → Oms → Prop :=
  Relation.ReflTransGen fun before after =>
    ∃ venue answer, oms.Applies venues before venue answer after

private theorem appliesAll_listing {earlier later : List String} {venue : String}
    (hvenue : oms.connectors = earlier ++ venue :: later) {before after : List OrderSnapshot}
    (hlisting : venues.getOpenOrders venue = .ok (before ++ after)) :
    oms.AppliesAll venues
      (before.foldl (reconcileSnapshot venue) (earlier.foldl (reconcileVenue venues) (oms, {}))).1
      ((before ++ after).foldl (reconcileSnapshot venue)
        (earlier.foldl (reconcileVenue venues) (oms, {}))).1 := by
  induction after generalizing before with
  | nil =>
    rw [List.append_nil]
    exact .refl
  | cons snapshot after ih =>
    have hhead := Applies.listed hvenue hlisting _ rfl
    have hnext : venues.getOpenOrders venue = .ok ((before ++ [snapshot]) ++ after) := by
      simpa using hlisting
    have htail := ih hnext
    rw [List.foldl_append, List.foldl_cons, List.foldl_nil, List.append_assoc,
      List.singleton_append] at htail
    exact .head ⟨_, _, hhead⟩ htail

private theorem appliesAll_venues {earlier later : List String}
    (hvenues : oms.connectors = earlier ++ later) :
    oms.AppliesAll venues (earlier.foldl (reconcileVenue venues) (oms, {})).1
      ((earlier ++ later).foldl (reconcileVenue venues) (oms, {})).1 := by
  induction later generalizing earlier with
  | nil =>
    rw [List.append_nil]
    exact .refl
  | cons venue later ih =>
    have hnext : oms.connectors = (earlier ++ [venue]) ++ later := by simpa using hvenues
    have htail := ih hnext
    rw [List.foldl_append, List.foldl_cons, List.foldl_nil, List.append_assoc,
      List.singleton_append] at htail
    have hhead : oms.AppliesAll venues (earlier.foldl (reconcileVenue venues) (oms, {})).1
        (reconcileVenue venues (earlier.foldl (reconcileVenue venues) (oms, {})) venue).1 := by
      cases hlisting : venues.getOpenOrders venue with
      | error error =>
        simp only [reconcileVenue, hlisting]
        exact .refl
      | ok pending =>
        simp only [reconcileVenue, hlisting]
        have hwhole : venues.getOpenOrders venue = .ok ([] ++ pending) := hlisting
        exact appliesAll_listing hvenues hwhole
    exact Relation.ReflTransGen.trans hhead htail

private theorem appliesAll_lookups {earlier later : List WorkItem}
    (hitems : (oms.relisted venues).reconcileWorklist = earlier ++ later) :
    oms.AppliesAll venues
      (earlier.foldl (reconcileLookup venues)
        (oms.connectors.foldl (reconcileVenue venues) (oms, {}))).1
      ((earlier ++ later).foldl (reconcileLookup venues)
        (oms.connectors.foldl (reconcileVenue venues) (oms, {}))).1 := by
  induction later generalizing earlier with
  | nil =>
    rw [List.append_nil]
    exact .refl
  | cons item later ih =>
    have hhead := Applies.looked hitems _ rfl
    have hnext : (oms.relisted venues).reconcileWorklist = (earlier ++ [item]) ++ later := by
      simpa using hitems
    have htail := ih hnext
    rw [List.foldl_append, List.foldl_cons, List.foldl_nil, List.append_assoc,
      List.singleton_append] at htail
    exact .head ⟨_, _, hhead⟩ htail

/-- A reconciliation changes the state by applying answers, one after the other. -/
theorem appliesAll_reconcile (oms : Oms) (venues : Venues) :
    oms.AppliesAll venues oms (oms.reconcile venues).1 := by
  have hvenues : oms.connectors = [] ++ oms.connectors := rfl
  have hitems : (oms.relisted venues).reconcileWorklist =
      [] ++ (oms.relisted venues).reconcileWorklist := rfl
  exact Relation.ReflTransGen.trans (appliesAll_venues hvenues) (appliesAll_lookups hitems)

/-- Phase B finds the record it collected, routed to the venue it asked. -/
theorem isolated_looked {earlier later : List WorkItem} {item : WorkItem}
    (hitem : (oms.relisted venues).reconcileWorklist = earlier ++ item :: later)
    {state : Oms × ReconcileReport}
    (hstate : state = earlier.foldl (reconcileLookup venues)
      (oms.connectors.foldl (reconcileVenue venues) (oms, {}))) :
    Isolated item.venue state.1 (reconcileLookup venues state item).1 := by
  intro id record hr hforeign
  by_cases hid : item.id = id
  · have hnodup := (oms.relisted venues).nodup_reconcileWorklist
    rw [hitem, List.map_append, List.map_cons, List.nodup_append] at hnodup
    have hearlier : ∀ other ∈ earlier, other.id ≠ id := fun other hm he =>
      hnodup.2.2 other.id (List.mem_map_of_mem hm) item.id List.mem_cons_self (he.trans hid.symm)
    have hkept : state.1.lookup id = (oms.relisted venues).lookup id := by
      rw [hstate]
      exact lookup_foldl_of_not_mem venues hearlier _
    have hdefault : state.1.defaultVenue = (oms.relisted venues).defaultVenue := by
      rw [hstate]
      exact congrArg (Config.defaultVenue ∘ Prod.fst) (frame_foldl_reconcileLookup venues earlier _)
    have hmem : item ∈ (oms.relisted venues).reconcileWorklist := by
      rw [hitem]
      exact List.mem_append_right earlier List.mem_cons_self
    obtain ⟨collected, hc, -, -, heq⟩ := mem_reconcileWorklist_iff.mp hmem
    rw [hid, ← hkept] at hc
    obtain rfl := Option.some.inj (hr.symm.trans hc)
    have hvenue : item.venue = (oms.relisted venues).venueOf record := congrArg WorkItem.venue heq
    refine absurd ?_ hforeign
    rw [hvenue, venueOf, venueOf, hdefault]
  · rw [lookup_reconcileLookup_of_ne venues hid]
    exact hr

/-- Every answer a reconciliation applies leaves the orders of the other venues alone exactly when
each listed snapshot spares them. -/
theorem reconcile_isolated_iff (oms : Oms) (venues : Venues) :
    oms.AppliesAll venues oms (oms.reconcile venues).1 ∧
      ((∀ before venue answer after, oms.Applies venues before venue answer after →
          Isolated venue before after) ↔
        ∀ before venue snapshot after, oms.Applies venues before venue (.listed snapshot) after →
          before.spares venue snapshot) := by
  refine ⟨oms.appliesAll_reconcile venues, ?_, ?_⟩
  · intro h before venue snapshot after happlies
    have hisolated := h _ _ _ _ happlies
    cases happlies with
    | listed hvenue hlisting state hstate =>
      exact (isolated_reconcileSnapshot_iff state venue snapshot).mp hisolated
  · intro h before venue answer after happlies
    cases happlies with
    | @listed _ _ _ _ _ snapshot hvenue hlisting state hstate =>
      have hspares := h _ _ _ _ (.listed hvenue hlisting state hstate)
      exact (isolated_reconcileSnapshot_iff state venue snapshot).mpr hspares
    | looked hitem state hstate => exact isolated_looked hitem hstate

end Oms

/-! ### An id that two venues use -/

def Config.pair : Config := ⟨["binance", "okx"], "binance", ⟨none, []⟩⟩

/-- One order, live on the second venue. -/
def System.routed : System :=
  (Transition.exec System.step (fun _ _ => True) (boot .pair (some .fresh))
    [.place .sample "okx", .send 0, .placed 0 (.ok ⟨"c1", "1"⟩)]).get (by decide)

/-- The first venue lists an order of its own under the same id. -/
def Venues.clash : Venues where
  getOpenOrders venue := .ok (if venue = "binance" then
    [⟨"c1", "77", "ETHUSDT", .partiallyFilled, .sell, .limit, "9", "8", "3", "9"⟩] else [])
  getOrder _ _ := .error ⟨"transport", "timeout"⟩

/-- The order of the second venue takes state, fill, price and size from the first venue's
listing. -/
theorem reconcile_mixes_venues : ∃ before after,
    System.routed.oms.Applies .clash before "binance"
        (.listed ⟨"c1", "77", "ETHUSDT", .partiallyFilled, .sell, .limit, "9", "8", "3", "9"⟩) after ∧
      (before.lookup "c1").map before.venueOf = some "okx" ∧
      ¬ Oms.Isolated "binance" before after ∧
      ((System.routed.oms.reconcile .clash).1.lookup "c1").map (fun record =>
        (record.venue, record.state, record.filledQuantity, record.price, record.quantity)) =
        some ("okx", .partiallyFilled, "3", "9", "8") := by
  have hvenue : System.routed.oms.connectors = [] ++ "binance" :: ["okx"] := rfl
  have hlisting : Venues.clash.getOpenOrders "binance" = .ok ([] ++
      ⟨"c1", "77", "ETHUSDT", .partiallyFilled, .sell, .limit, "9", "8", "3", "9"⟩ :: []) := rfl
  refine ⟨_, _, .listed hvenue hlisting _ rfl, rfl, fun h => ?_, rfl⟩
  have hkept := h "c1" _ rfl (by decide)
  exact absurd (congrArg (Option.map OrderRecord.state) hkept) (by decide)

end ExchangeGateway
