import ExchangeGateway.Core.Absence
import ExchangeGateway.Core.Lifecycle

/-! One reconciliation that nothing interleaves with, against venues that answer conclusively.
Both phases move a state along the transition table only, which has no edge from Pending to
Canceled. -/
namespace ExchangeGateway

namespace OrderRecord

def settle (record : OrderRecord) (answer : Result (Option OrderSnapshot)) : OrderRecord :=
  match answer with
  | .ok (some snapshot) => (record.resolve snapshot).1
  | _ =>
    if Oms.conclusivelyAbsent answer ∧ ¬ isTerminal record.state then
      record.reject ⟨"venue_absent", "order is unknown to the venue after reconciliation"⟩
    else record

theorem state_observeSnapshot {record mid : OrderRecord}
    (hmid : ∃ exchangeOrderId legs,
      mid = { record with exchangeOrderId := exchangeOrderId, legs := legs })
    (snapshot : OrderSnapshot) :
    (Oms.observeSnapshot mid snapshot).1.state =
      (applyTransition record.state snapshot.state).1 := by
  obtain ⟨exchangeOrderId, legs, rfl⟩ := hmid
  unfold Oms.observeSnapshot
  rw [applyObservation_fst, applyTransition_eq]
  dsimp only
  split <;> rfl

theorem state_refreshed (record : OrderRecord) (snapshot : OrderSnapshot) :
    (Oms.refreshed record snapshot).1.state =
      (applyTransition record.state snapshot.state).1 :=
  state_observeSnapshot (record.learned_spec _ _) snapshot

theorem state_resolve (record : OrderRecord) (snapshot : OrderSnapshot) :
    (record.resolve snapshot).1.state = (applyTransition record.state snapshot.state).1 := by
  unfold resolve
  exact state_observeSnapshot (record.learned_spec _ _) snapshot

end OrderRecord

/-- No observation leads back to Pending. -/
theorem eq_pending_of_applyTransition {state next : OrderState}
    (h : (applyTransition state next).1 = .pending) : state = .pending := by
  rw [applyTransition_eq] at h
  split at h
  · rename_i hc
    dsimp only at h
    subst h
    exact eq_pending_of_canTransition hc
  · exact h

/-- Observing the same state twice is observing it once. -/
theorem applyTransition_idem (state next : OrderState) :
    (applyTransition (applyTransition state next).1 next).1 = (applyTransition state next).1 := by
  cases state <;> cases next <;> rfl

theorem eq_pending_of_pending_kept {next : OrderState} (hne : next ≠ .canceled)
    (h : (applyTransition .pending next).1 = .pending) : next = .pending := by
  cases next with
  | pending => rfl
  | canceled => exact absurd rfl hne
  | live | partiallyFilled | filled | rejected => cases h

/-- From an open state the table refuses one closing snapshot only: Canceled from Pending. -/
theorem applyTransition_of_terminal_snapshot {state next : OrderState}
    (hopen : ¬ isTerminal state) (hterminal : isTerminal next)
    (hedge : state = .pending → next ≠ .canceled) : (applyTransition state next).1 = next := by
  cases state <;> cases next <;> first | rfl | simp_all [isTerminal]

theorem OrderRecord.pending_of_settle {record : OrderRecord}
    {answer : Result (Option OrderSnapshot)} (h : (record.settle answer).state = .pending) :
    record.state = .pending := by
  unfold settle at h
  split at h
  · rw [state_resolve] at h
    exact eq_pending_of_applyTransition h
  · split at h
    · cases h
    · exact h

namespace Oms

/-! ### Phase B -/

variable (venues : Venues)

theorem frame_reconcileLookup (state : Oms × ReconcileReport) (item : WorkItem) :
    (reconcileLookup venues state item).1.frame = state.1.frame := by
  unfold reconcileLookup
  dsimp only
  split
  · rfl
  · exact frame_apart.reconcileItem _ _ _ _

private theorem connectorFor_of_frame {oms oms' : Oms} (h : oms'.frame = oms.frame)
    (venue : String) : oms'.connectorFor venue = oms.connectorFor venue := by
  have hconnectors : oms'.connectors = oms.connectors :=
    congrArg Config.connectors (congrArg Prod.fst h)
  rw [connectorFor, connectorFor, hconnectors]

theorem eq_of_connectorFor {oms : Oms} {venue connector : String}
    (h : oms.connectorFor venue = some connector) : connector = venue := by
  unfold connectorFor at h
  split at h
  · exact (Option.some.inj h).symm
  · cases h

theorem frame_foldl_reconcileLookup (items : List WorkItem) (state : Oms × ReconcileReport) :
    (items.foldl (reconcileLookup venues) state).1.frame = state.1.frame := by
  induction items generalizing state with
  | nil => rfl
  | cons item items ih =>
    rw [List.foldl_cons, ih]
    exact frame_reconcileLookup venues state item

theorem mem_of_connectorFor {oms : Oms} {venue connector : String}
    (h : oms.connectorFor venue = some connector) : venue ∈ oms.connectors := by
  unfold connectorFor at h
  split at h
  · assumption
  · cases h

def settledRecord (oms : Oms) (item : WorkItem) (record : OrderRecord) : OrderRecord :=
  if (oms.connectorFor item.venue).isSome then
    record.settle (venues.getOrder item.venue item.query)
  else record

private theorem find?_resolvedEntries {ledger : Ledger} {item : WorkItem} {record : OrderRecord}
    (hr : ledger.orders.find? item.id = some record) (answer : Result (Option OrderSnapshot)) :
    (ledger.enterAll (resolvedEntries item answer)).orders.find? item.id =
      some (record.settle answer) := by
  have habsent : (ledger.enter (.absent item.id)).orders.find? item.id =
      some (if isTerminal record.state then record else record.reject
        ⟨"venue_absent", "order is unknown to the venue after reconciliation"⟩) := by
    have hfind := ledger.find?_enter (.absent item.id) item.id
    have hkey : (Entry.absent item.id).key = item.id := rfl
    rw [if_pos hkey, hkey, hr] at hfind
    rw [hfind]
    simp only [Entry.write]
    split <;> rfl
  have hother (h : ∀ snapshot, answer ≠ .ok (some snapshot)) :
      (ledger.enterAll (if conclusivelyAbsent answer then [.absent item.id] else
        [])).orders.find? item.id = some (if conclusivelyAbsent answer ∧ ¬ isTerminal record.state
          then record.reject ⟨"venue_absent", "order is unknown to the venue after reconciliation"⟩
          else record) := by
    by_cases hc : conclusivelyAbsent answer
    · rw [if_pos hc]
      refine habsent.trans (congrArg some ?_)
      by_cases ht : isTerminal record.state
      · simp [ht]
      · simp [ht, hc]
    · rw [if_neg hc]
      refine hr.trans (congrArg some ?_)
      simp [hc]
  cases answer with
  | error error => exact hother fun _ h => by cases h
  | ok found =>
    cases found with
    | none => exact hother fun _ h => by cases h
    | some snapshot => exact Ledger.find?_enter_of_write _ (.resolved item.id snapshot) hr rfl

private theorem find?_resolvedEntries_of_ne {ledger : Ledger} {item : WorkItem} {id : String}
    (hne : item.id ≠ id) (answer : Result (Option OrderSnapshot)) :
    (ledger.enterAll (resolvedEntries item answer)).orders.find? id = ledger.orders.find? id := by
  unfold resolvedEntries
  split
  · exact ledger.find?_enter_of_ne hne
  · split
    · exact ledger.find?_enter_of_ne hne
    · rfl

theorem lookup_reconcileLookup {state : Oms × ReconcileReport} {item : WorkItem}
    {record : OrderRecord} (hr : state.1.lookup item.id = some record) :
    (reconcileLookup venues state item).1.lookup item.id =
      some (state.1.settledRecord venues item record) := by
  unfold reconcileLookup settledRecord
  dsimp only
  cases hc : state.1.connectorFor item.venue with
  | none => simpa using hr
  | some connector =>
    obtain rfl := eq_of_connectorFor hc
    simp only [Option.isSome_some, if_true]
    have hfind : state.1.ledger.orders.find? item.id = some record := hr
    rw [lookup_of_ledger (reconcileItem_ledger _ _ _ _)]
    exact find?_resolvedEntries hfind _

theorem lookup_reconcileLookup_of_ne {state : Oms × ReconcileReport} {item : WorkItem}
    {id : String} (hne : item.id ≠ id) :
    (reconcileLookup venues state item).1.lookup id = state.1.lookup id := by
  unfold reconcileLookup
  dsimp only
  split
  · rfl
  · rw [lookup_of_ledger (reconcileItem_ledger _ _ _ _)]
    exact find?_resolvedEntries_of_ne hne _

/-- Phase B leaves the orders alone that are not on the worklist. -/
theorem lookup_foldl_of_not_mem {items : List WorkItem} {id : String}
    (hid : ∀ item ∈ items, item.id ≠ id) (state : Oms × ReconcileReport) :
    (items.foldl (reconcileLookup venues) state).1.lookup id = state.1.lookup id := by
  induction items generalizing state with
  | nil => rfl
  | cons item items ih =>
    rw [List.foldl_cons, ih fun item hm => hid item (List.mem_cons_of_mem _ hm)]
    exact lookup_reconcileLookup_of_ne venues (hid item List.mem_cons_self)

/-- Phase B settles each order of the worklist once. -/
theorem lookup_foldl_of_mem {items : List WorkItem} (hnodup : (items.map WorkItem.id).Nodup)
    {item : WorkItem} (hitem : item ∈ items) {state : Oms × ReconcileReport}
    {record : OrderRecord} (hr : state.1.lookup item.id = some record) :
    (items.foldl (reconcileLookup venues) state).1.lookup item.id =
      some (state.1.settledRecord venues item record) := by
  induction items generalizing state with
  | nil => cases hitem
  | cons first items ih =>
    obtain ⟨hfirst, hnodup⟩ := List.nodup_cons.mp hnodup
    rw [List.foldl_cons]
    rcases List.mem_cons.mp hitem with rfl | hm
    · rw [lookup_foldl_of_not_mem venues]
      · exact lookup_reconcileLookup venues hr
      · exact fun other hm he => hfirst (List.mem_map.mpr ⟨other, hm, he⟩)
    · have hne : first.id ≠ item.id := fun he => hfirst (List.mem_map.mpr ⟨item, hm, he.symm⟩)
      have hkept : (reconcileLookup venues state first).1.lookup item.id =
          state.1.lookup item.id := lookup_reconcileLookup_of_ne venues hne
      rw [ih hnodup hm (hkept.trans hr), settledRecord, settledRecord,
        connectorFor_of_frame (frame_reconcileLookup venues state first)]

theorem nodup_reconcileWorklist (oms : Oms) :
    (oms.reconcileWorklist.map WorkItem.id).Nodup := by
  unfold reconcileWorklist
  rw [List.map_map]
  exact oms.orders.nodup.sublist (List.filter_sublist.map _)

end Oms

/-! ### Phase A -/

namespace Oms

/-- The venue whose connector owns the record. -/
def venueOf (oms : Oms) (record : OrderRecord) : String :=
  if record.venue = "" then oms.defaultVenue else record.venue

end Oms

/-- All listings and lookups succeed and say the same of the same order: `snap`. -/
structure Venues.Conclusive (venues : Venues) (oms : Oms)
    (snap : String → Option OrderSnapshot) : Prop where
  listed : ∀ venue ∈ oms.connectors, ∃ pending, venues.getOpenOrders venue = .ok pending ∧
    ∀ snapshot ∈ pending, snapshot.clientOrderId ≠ "" →
      snap snapshot.clientOrderId = some snapshot
  looked : ∀ id record, oms.lookup id = some record →
    venues.getOrder (oms.venueOf record) ⟨id, record.symbol⟩ = .ok (snap id)
  states : ∀ id snapshot, snap id = some snapshot →
    snapshot.state ∈ [.live, .partiallyFilled, .filled, .canceled]

theorem Venues.Conclusive.state_ne_pending {venues : Venues} {oms : Oms}
    {snap : String → Option OrderSnapshot} (h : venues.Conclusive oms snap) {id : String}
    {snapshot : OrderSnapshot} (hs : snap id = some snapshot) : snapshot.state ≠ .pending := by
  intro hp
  have hm := h.states id snapshot hs
  rw [hp] at hm
  simp at hm

namespace OrderRecord

/-- A record of phase A: adopted and not Pending, or one of `oms` that was moved towards its
snapshot or not at all. -/
structure Relisted (oms : Oms) (snap : String → Option OrderSnapshot) (record : OrderRecord) :
    Prop where
  adopted : oms.lookup record.clientOrderId = none → record.state ≠ .pending
  known : ∀ old, oms.lookup record.clientOrderId = some old →
    record.venue = old.venue ∧ record.symbol = old.symbol ∧
      (record.state = old.state ∨ ∃ snapshot, snap record.clientOrderId = some snapshot ∧
        record.state = (applyTransition old.state snapshot.state).1)

variable {oms : Oms} {snap : String → Option OrderSnapshot} {record : OrderRecord}

theorem Relisted.refreshed (h : record.Relisted oms snap) {snapshot : OrderSnapshot}
    (hs : snap record.clientOrderId = some snapshot) :
    (Oms.refreshed record snapshot).1.Relisted oms snap where
  adopted hnone hp := by
    rw [clientOrderId_refreshed] at hnone
    rw [state_refreshed] at hp
    exact h.adopted hnone (eq_pending_of_applyTransition hp)
  known old hold := by
    rw [clientOrderId_refreshed] at hold ⊢
    obtain ⟨hvenue, hsymbol, hstate⟩ := h.known old hold
    have hlater := (refreshed_updates record snapshot).later
    refine ⟨hlater.venue.trans hvenue, hlater.symbol.trans hsymbol, .inr ⟨snapshot, hs, ?_⟩⟩
    rw [state_refreshed]
    rcases hstate with hstate | ⟨snapshot', hs', hstate⟩
    · rw [hstate]
    · obtain rfl := Option.some.inj (hs'.symm.trans hs)
      rw [hstate, applyTransition_idem]

end OrderRecord

namespace Ledger

/-- The registry during phase A: no order of `oms` is missing. -/
structure Relisted (oms : Oms) (snap : String → Option OrderSnapshot) (ledger : Ledger) :
    Prop where
  kept : ∀ id ∈ oms.orders, id ∈ ledger.orders
  every : ledger.Every (OrderRecord.Relisted oms snap)

variable {oms : Oms} {snap : String → Option OrderSnapshot} {ledger : Ledger}

theorem Relisted.enter (h : ledger.Relisted oms snap) {snapshot : OrderSnapshot}
    (hs : snap snapshot.clientOrderId = some snapshot) (hp : snapshot.state ≠ .pending)
    (venue : String) : (ledger.enter (.listed venue snapshot)).Relisted oms snap where
  kept id hm := mem_enter _ (h.kept id hm)
  every := by
    refine h.every.enter fun new hw => ?_
    have hkey : (Entry.listed venue snapshot).key = snapshot.clientOrderId := rfl
    rw [hkey] at hw
    cases hr : ledger.orders.find? snapshot.clientOrderId with
    | none =>
      rw [hr] at hw
      obtain rfl := Option.some.inj hw
      refine ⟨fun _ => hp, fun old hold => ?_⟩
      have hm := h.kept snapshot.clientOrderId (KeyedList.mem_of_find? hold)
      exact absurd hr (by simpa [KeyedList.mem_iff, Option.ne_none_iff_exists'] using hm)
    | some record =>
      rw [hr] at hw
      obtain rfl := Option.some.inj hw
      have hid : record.clientOrderId = snapshot.clientOrderId := KeyedList.key_of_find? hr
      exact (h.every _ record hr).refreshed (by rw [hid]; exact hs)

theorem Relisted.enterAll (h : ledger.Relisted oms snap) {venue : String}
    {pending : List OrderSnapshot}
    (hpending : ∀ snapshot ∈ pending,
      snap snapshot.clientOrderId = some snapshot ∧ snapshot.state ≠ .pending) :
    (ledger.enterAll (pending.map (Entry.listed venue))).Relisted oms snap := by
  induction pending generalizing ledger with
  | nil => exact h
  | cons snapshot pending ih =>
    obtain ⟨hs, hp⟩ := hpending snapshot List.mem_cons_self
    exact ih (h.enter hs hp venue) fun x hm => hpending x (List.mem_cons_of_mem _ hm)

end Ledger

namespace Oms

variable {venues : Venues} {oms : Oms} {snap : String → Option OrderSnapshot}

theorem relisted_self (oms : Oms) (snap : String → Option OrderSnapshot) :
    oms.ledger.Relisted oms snap where
  kept _ h := h
  every id record hr := by
    have hid : record.clientOrderId = id := KeyedList.key_of_find? hr
    have hself : oms.lookup record.clientOrderId = some record := hid ▸ hr
    refine ⟨fun hnone => ?_, fun old hold => ?_⟩
    · rw [hself] at hnone
      cases hnone
    · obtain rfl := Option.some.inj (hold.symm.trans hself)
      exact ⟨rfl, rfl, .inl rfl⟩

private theorem relisted_reconcileVenue (h : venues.Conclusive oms snap)
    {state : Oms × ReconcileReport} (hstate : state.1.ledger.Relisted oms snap) {venue : String}
    (hv : venue ∈ oms.connectors) :
    (reconcileVenue venues state venue).1.ledger.Relisted oms snap := by
  obtain ⟨pending, hok, hpending⟩ := h.listed venue hv
  unfold reconcileVenue
  simp only [hok]
  rw [reconcileListing_ledger]
  refine hstate.enterAll fun snapshot hm => ?_
  obtain ⟨hm, hkeep⟩ := List.mem_filter.mp hm
  have hid : snapshot.clientOrderId ≠ "" := by
    intro he
    simp [he] at hkeep
  have hs := hpending snapshot hm hid
  exact ⟨hs, h.state_ne_pending hs⟩

theorem relisted_foldl (h : venues.Conclusive oms snap) {keys : List String}
    (hkeys : keys ⊆ oms.connectors) {state : Oms × ReconcileReport}
    (hstate : state.1.ledger.Relisted oms snap) :
    (keys.foldl (reconcileVenue venues) state).1.ledger.Relisted oms snap := by
  induction keys generalizing state with
  | nil => exact hstate
  | cons venue keys ih =>
    obtain ⟨hv, hkeys⟩ := List.cons_subset.mp hkeys
    exact ih hkeys (relisted_reconcileVenue h hstate hv)

theorem frame_reconcileVenue (venues : Venues) (state : Oms × ReconcileReport) (venue : String) :
    (reconcileVenue venues state venue).1.frame = state.1.frame := by
  unfold reconcileVenue
  dsimp only
  split
  · rfl
  · exact frame_apart.reconcileListing _ _ _ _

theorem frame_foldl_reconcileVenue (venues : Venues) (keys : List String)
    (state : Oms × ReconcileReport) :
    (keys.foldl (reconcileVenue venues) state).1.frame = state.1.frame := by
  induction keys generalizing state with
  | nil => rfl
  | cons venue keys ih =>
    rw [List.foldl_cons, ih]
    exact frame_reconcileVenue venues state venue

/-! ### Both phases -/

def relisted (oms : Oms) (venues : Venues) : Oms :=
  (oms.connectors.foldl (reconcileVenue venues) (oms, {})).1

theorem relisted_spec (h : venues.Conclusive oms snap) :
    (oms.relisted venues).ledger.Relisted oms snap :=
  relisted_foldl h (List.Subset.refl _) (oms.relisted_self snap)

theorem frame_relisted (oms : Oms) (venues : Venues) : (oms.relisted venues).frame = oms.frame :=
  frame_foldl_reconcileVenue venues oms.connectors (oms, {})

private theorem reconcile_fst (oms : Oms) (venues : Venues) :
    ∃ report, (oms.reconcile venues).1 =
      ((oms.relisted venues).reconcileWorklist.foldl (reconcileLookup venues)
        (oms.relisted venues, report)).1 := ⟨_, rfl⟩

/-- The worklist: the open orders without an open call, each with the venue it is routed to. -/
theorem mem_reconcileWorklist_iff {oms : Oms} {item : WorkItem} :
    item ∈ oms.reconcileWorklist ↔
      ∃ record, oms.lookup item.id = some record ∧ ¬ isTerminal record.state ∧
        item.id ∉ oms.racedReports ∧
        item = ⟨item.id, oms.venueOf record, ⟨item.id, record.symbol⟩⟩ := by
  constructor
  · intro h
    obtain ⟨record, hm, rfl⟩ := List.mem_map.mp h
    obtain ⟨hm, hopen⟩ := List.mem_filter.mp hm
    simp only [Bool.and_eq_true, Bool.not_eq_true', decide_eq_false_iff_not] at hopen
    exact ⟨record, KeyedList.find?_of_mem_toList hm, by simp [hopen.1], hopen.2, rfl⟩
  · rintro ⟨record, hr, hopen, hraced, hitem⟩
    have hid : record.clientOrderId = item.id := KeyedList.key_of_find? hr
    refine List.mem_map.mpr ⟨record, List.mem_filter.mpr ⟨KeyedList.mem_toList_of_find? hr, ?_⟩, ?_⟩
    · simp [hopen, hid, hraced]
    · rw [hid]
      exact hitem.symm

theorem lookup_reconcile_of_closed {id : String}
    (hclosed : ∀ record, (oms.relisted venues).lookup id = some record → isTerminal record.state) :
    (oms.reconcile venues).1.lookup id = (oms.relisted venues).lookup id := by
  obtain ⟨report, heq⟩ := oms.reconcile_fst venues
  rw [heq]
  refine lookup_foldl_of_not_mem venues (fun item hm he => ?_) _
  obtain ⟨record, hr, hopen, -, -⟩ := mem_reconcileWorklist_iff.mp hm
  exact hopen (hclosed record (he ▸ hr))

/-- Every other order is looked up once, on its own venue. -/
theorem lookup_reconcile_of_open (hfree : ∀ id, id ∉ oms.racedReports) {id : String}
    {record : OrderRecord}
    (hr : (oms.relisted venues).lookup id = some record) (hopen : ¬ isTerminal record.state) :
    (oms.reconcile venues).1.lookup id =
      some (oms.settledRecord venues ⟨id, oms.venueOf record, ⟨id, record.symbol⟩⟩ record) := by
  obtain ⟨report, heq⟩ := oms.reconcile_fst venues
  have hframe := oms.frame_relisted venues
  have hraced : (oms.relisted venues).racedReports = oms.racedReports :=
    congrArg Prod.snd hframe
  have hdefault : (oms.relisted venues).defaultVenue = oms.defaultVenue :=
    congrArg Config.defaultVenue (congrArg Prod.fst hframe)
  have hitem : (⟨id, oms.venueOf record, ⟨id, record.symbol⟩⟩ : WorkItem) ∈
      (oms.relisted venues).reconcileWorklist := by
    refine mem_reconcileWorklist_iff.mpr ⟨record, hr, hopen, ?_, ?_⟩
    · rw [hraced]
      exact hfree id
    · rw [venueOf, venueOf, hdefault]
  have hstart : (oms.relisted venues, report).1.lookup id = some record := hr
  have hsettled := lookup_foldl_of_mem venues (nodup_reconcileWorklist _) hitem hstart
  rw [settledRecord, connectorFor_of_frame hframe] at hsettled
  rw [heq]
  exact hsettled

/-- A record that was open is moved towards its snapshot, or rejected as absent. -/
theorem reconcile_open (h : venues.Conclusive oms snap) (hfree : ∀ id, id ∉ oms.racedReports)
    {id : String} {old : OrderRecord} (hold : oms.lookup id = some old)
    (hvenue : (oms.connectorForRecord old).isSome) (hopen : ¬ isTerminal old.state) :
    ∃ new, (oms.reconcile venues).1.lookup id = some new ∧
      (∀ snapshot, snap id = some snapshot →
        new.state = (applyTransition old.state snapshot.state).1) ∧
      (snap id = none → new.state = .rejected ∧
        new.rejection.map Error.code = some "venue_absent") := by
  have hrelisted := relisted_spec h
  obtain ⟨mid, hmid⟩ := KeyedList.mem_iff.mp (hrelisted.kept id (KeyedList.mem_of_find? hold))
  have hid : mid.clientOrderId = id := KeyedList.key_of_find? hmid
  obtain ⟨hv, hsymbol, hstate⟩ := (hrelisted.every id mid hmid).known old (by rw [hid]; exact hold)
  rw [hid] at hstate
  by_cases hterminal : isTerminal mid.state
  · refine ⟨mid, (lookup_reconcile_of_closed fun record hr => ?_).trans hmid, ?_, fun hnone => ?_⟩
    · obtain rfl := Option.some.inj (hmid.symm.trans hr)
      exact hterminal
    · intro snapshot hs
      rcases hstate with hstate | ⟨snapshot', hs', hstate⟩
      · rw [hstate] at hterminal
        exact absurd hterminal hopen
      · obtain rfl := Option.some.inj (hs'.symm.trans hs)
        exact hstate
    · rcases hstate with hstate | ⟨snapshot', hs', -⟩
      · rw [hstate] at hterminal
        exact absurd hterminal hopen
      · rw [hnone] at hs'
        cases hs'
  · have hanswer := h.looked id old hold
    have hvenueOf : oms.venueOf mid = oms.venueOf old := by rw [venueOf, venueOf, hv]
    have hconnector : (oms.connectorFor (oms.venueOf old)).isSome := by
      unfold connectorForRecord at hvenue
      unfold venueOf
      split_ifs at hvenue ⊢ with he
      all_goals first | exact hvenue | exact absurd he ‹_›
    have hsettled : oms.settledRecord venues ⟨id, oms.venueOf mid, ⟨id, mid.symbol⟩⟩ mid =
        mid.settle (.ok (snap id)) := by
      rw [settledRecord, hvenueOf, hsymbol, if_pos hconnector, hanswer]
    have hfinal := lookup_reconcile_of_open hfree hmid hterminal
    rw [hsettled] at hfinal
    refine ⟨_, hfinal, fun snapshot hs => ?_, fun hnone => ?_⟩
    · rw [hs, OrderRecord.settle, OrderRecord.state_resolve]
      rcases hstate with hstate | ⟨snapshot', hs', hstate⟩
      · rw [hstate]
      · obtain rfl := Option.some.inj (hs'.symm.trans hs)
        rw [hstate, applyTransition_idem]
    · rw [hnone]
      simp [OrderRecord.settle, conclusivelyAbsent, hterminal, OrderRecord.reject]

/-- An order that is Pending afterwards was Pending before. -/
theorem pending_of_reconcile (h : venues.Conclusive oms snap)
    (hfree : ∀ id, id ∉ oms.racedReports) {id : String} {new : OrderRecord}
    (hnew : (oms.reconcile venues).1.lookup id = some new) (hp : new.state = .pending) :
    ∃ old, oms.lookup id = some old ∧ old.state = .pending := by
  have hrelisted := relisted_spec h
  have hmid : ∃ mid, (oms.relisted venues).lookup id = some mid ∧ mid.state = .pending := by
    cases hmid : (oms.relisted venues).lookup id with
    | none =>
      have hclosed : (oms.reconcile venues).1.lookup id = (oms.relisted venues).lookup id :=
        lookup_reconcile_of_closed fun _ hr => by cases hmid.symm.trans hr
      cases hnew.symm.trans (hclosed.trans hmid)
    | some mid =>
      refine ⟨mid, rfl, ?_⟩
      by_cases hterminal : isTerminal mid.state
      · have hclosed : (oms.reconcile venues).1.lookup id = (oms.relisted venues).lookup id := by
          refine lookup_reconcile_of_closed fun record hr => ?_
          obtain rfl := Option.some.inj (hmid.symm.trans hr)
          exact hterminal
        obtain rfl := Option.some.inj (hnew.symm.trans (hclosed.trans hmid))
        exact hp
      · rw [lookup_reconcile_of_open hfree hmid hterminal] at hnew
        obtain rfl := Option.some.inj hnew
        unfold settledRecord at hp
        split at hp
        · exact OrderRecord.pending_of_settle hp
        · exact hp
  obtain ⟨mid, hmid, hpending⟩ := hmid
  have hid : mid.clientOrderId = id := KeyedList.key_of_find? hmid
  have hmidRelisted := hrelisted.every id mid hmid
  cases hold : oms.lookup id with
  | none => exact absurd hpending (hmidRelisted.adopted (by rw [hid]; exact hold))
  | some old =>
    obtain ⟨-, -, hstate⟩ := hmidRelisted.known old (by rw [hid]; exact hold)
    refine ⟨old, rfl, ?_⟩
    rcases hstate with hstate | ⟨snapshot, -, hstate⟩
    · exact hstate.symm.trans hpending
    · exact eq_pending_of_applyTransition (hstate.symm.trans hpending)

end Oms

namespace System

variable {s t : System}

/-! ### The reconciliation as a run -/

private theorem calls_set_last (calls : List Call) (call call' : Call) :
    (calls ++ [call]).set calls.length call' = calls ++ [call'] := by
  rw [List.set_append_right _ _ le_rfl, Nat.sub_self]
  rfl

private theorem calls_getElem?_last (calls : List Call) (call : Call) :
    (calls ++ [call])[calls.length]? = some call := List.getElem?_concat_length

private theorem listing_run (venues : Venues) (keys : List String) (s : System)
    (report : ReconcileReport) :
    LiveRun { s with calls := s.calls ++ [.listing keys report] }
      { s with
        oms := (keys.foldl (Oms.reconcileVenue venues) (s.oms, report)).1
        calls := s.calls ++
          [.listing [] (keys.foldl (Oms.reconcileVenue venues) (s.oms, report)).2] } := by
  induction keys generalizing s report with
  | nil => exact .refl _
  | cons venue keys ih =>
    have hstep : System.step { s with calls := s.calls ++ [.listing (venue :: keys) report] }
        (.listed s.calls.length (venues.getOpenOrders venue)) =
        some { s with
          oms := (Oms.reconcileVenue venues (s.oms, report) venue).1
          calls := s.calls ++
            [.listing keys (Oms.reconcileVenue venues (s.oms, report) venue).2] } := by
      simp only [System.step, listed, calls_getElem?_last, Oms.reconcileVenue]
      cases venues.getOpenOrders venue with
      | error error => simp only [calls_set_last]
      | ok pending => simp only [calls_set_last]
    have hfirst : LiveRun { s with calls := s.calls ++ [.listing (venue :: keys) report] } _ :=
      (Transition.Reaches.refl _).snoc rfl hstep
    exact hfirst.trans
      (ih { s with oms := (Oms.reconcileVenue venues (s.oms, report) venue).1 } _)

private theorem resolving_run (venues : Venues) (items : List WorkItem) (s : System)
    (report : ReconcileReport) :
    LiveRun { s with calls := s.calls ++ [.resolving items report] }
      { s with
        oms := (items.foldl (Oms.reconcileLookup venues) (s.oms, report)).1
        calls := s.calls ++
          [.resolving [] (items.foldl (Oms.reconcileLookup venues) (s.oms, report)).2] } := by
  induction items generalizing s report with
  | nil => exact .refl _
  | cons item items ih =>
    have hstep : System.step { s with calls := s.calls ++ [.resolving (item :: items) report] }
        (.resolved s.calls.length (venues.getOrder item.venue item.query)) =
        some { s with
          oms := (Oms.reconcileLookup venues (s.oms, report) item).1
          calls := s.calls ++
            [.resolving items (Oms.reconcileLookup venues (s.oms, report) item).2] } := by
      simp only [System.step, resolved, calls_getElem?_last, Oms.reconcileLookup]
      cases hc : s.oms.connectorFor item.venue with
      | none => simp only [calls_set_last]
      | some connector =>
        obtain rfl := Oms.eq_of_connectorFor hc
        simp only [calls_set_last]
    have hfirst : LiveRun { s with calls := s.calls ++ [.resolving (item :: items) report] } _ :=
      (Transition.Reaches.refl _).snoc rfl hstep
    exact hfirst.trans
      (ih { s with oms := (Oms.reconcileLookup venues (s.oms, report) item).1 } _)

/-- `Oms.reconcile` is the run of one reconciliation whose sections follow one another. -/
theorem reconcile_run (s : System) (venues : Venues) :
    LiveRun s { s with oms := (s.oms.reconcile venues).1 } := by
  have hopen : LiveRun s { s with calls := s.calls ++ [.listing s.oms.connectors {}] } :=
    (Transition.Reaches.refl s).snoc (a := .reconcile) rfl rfl
  refine (hopen.trans (listing_run venues s.oms.connectors s {})).trans ?_
  generalize hmid : s.oms.connectors.foldl (Oms.reconcileVenue venues) (s.oms, {}) = mid
  have hcollect : System.step { s with
      oms := mid.1
      calls := s.calls ++ [.listing [] mid.2] } (.collect s.calls.length) =
      some { s with
        oms := mid.1
        calls := s.calls ++ [.resolving mid.1.reconcileWorklist mid.2] } := by
    simp only [System.step, collect, calls_getElem?_last, calls_set_last]
  have hlookups := resolving_run venues mid.1.reconcileWorklist { s with oms := mid.1 } mid.2
  have hcollected : LiveRun { s with oms := mid.1, calls := s.calls ++ [.listing [] mid.2] } _ :=
    (Transition.Reaches.refl _).snoc rfl hcollect
  refine (hcollected.trans hlookups).snoc (a := .finish s.calls.length) rfl ?_
  have hresult : (s.oms.reconcile venues).1 =
      (mid.1.reconcileWorklist.foldl (Oms.reconcileLookup venues) (mid.1, mid.2)).1 := by
    rw [← hmid]
    rfl
  simp only [System.step, finish, calls_getElem?_last, hresult,
    List.eraseIdx_append_of_length_le le_rfl, Nat.sub_self, List.eraseIdx_cons_zero,
    List.append_nil]

/-! ### Resolution -/

structure Resolves (before after : Oms) (snap : String → Option OrderSnapshot) : Prop where
  settled : ∀ id record, after.lookup id = some record → record.state ≠ .pending
  terminal : ∀ id old snapshot, before.lookup id = some old → ¬ isTerminal old.state →
    snap id = some snapshot → isTerminal snapshot.state →
      (after.lookup id).map OrderRecord.state = some snapshot.state
  absent : ∀ id old, before.lookup id = some old → ¬ isTerminal old.state → snap id = none →
    ∃ record, after.lookup id = some record ∧ record.state = .rejected ∧
      record.rejection.map Error.code = some "venue_absent"

/-- From every reachable state without an open place or amend, a reconciliation against conclusive
venues resolves every order exactly when no Pending order is canceled on its venue. -/
theorem reconcile_resolves_iff (config : Config) (log : Option EventLog)
    (h : Run (boot config log) s) (hcalls : s.owners = [])
    (hvenues : ∀ id record, s.oms.lookup id = some record →
      (s.oms.connectorForRecord record).isSome)
    (venues : Venues) (snap : String → Option OrderSnapshot)
    (hsnap : venues.Conclusive s.oms snap) :
    ∃ t, LiveRun s t ∧ t.oms = (s.oms.reconcile venues).1 ∧ t.calls = s.calls ∧
      (Resolves s.oms t.oms snap ↔
        ∀ id record snapshot, s.oms.lookup id = some record → record.state = .pending →
          snap id = some snapshot → snapshot.state ≠ .canceled) := by
  refine ⟨_, reconcile_run s venues, rfl, rfl, ?_⟩
  have hfree (id : String) : id ∉ s.oms.racedReports := by
    rw [(owned_run config log h).raced id, hcalls]
    exact List.not_mem_nil
  constructor
  · intro hresolves id record snapshot hr hp hs hcanceled
    have hopen : ¬ isTerminal record.state := by
      rw [hp]
      decide
    obtain ⟨new, hnew, hstate, -⟩ :=
      Oms.reconcile_open hsnap hfree hr (hvenues id record hr) hopen
    refine hresolves.settled id new hnew ?_
    rw [hstate snapshot hs, hp, hcanceled]
    rfl
  · intro hcond
    refine ⟨fun id new hnew hp => ?_, fun id old snapshot hold hopen hs hterminal => ?_,
      fun id old hold hopen hnone => ?_⟩
    · obtain ⟨old, hold, hpending⟩ := Oms.pending_of_reconcile hsnap hfree hnew hp
      have hopen : ¬ isTerminal old.state := by
        rw [hpending]
        decide
      obtain ⟨new', hnew', hstate, habsent⟩ :=
        Oms.reconcile_open hsnap hfree hold (hvenues id old hold) hopen
      obtain rfl := Option.some.inj (hnew.symm.trans hnew')
      cases hs : snap id with
      | none =>
        rw [(habsent hs).1] at hp
        cases hp
      | some snapshot =>
        have hfinal := hstate snapshot hs
        rw [hp, hpending] at hfinal
        exact hsnap.state_ne_pending hs (eq_pending_of_pending_kept
          (hcond id old snapshot hold hpending hs) hfinal.symm)
    · obtain ⟨new, hnew, hstate, -⟩ :=
        Oms.reconcile_open hsnap hfree hold (hvenues id old hold) hopen
      rw [hnew, Option.map_some, hstate snapshot hs,
        applyTransition_of_terminal_snapshot hopen hterminal fun hp =>
          hcond id old snapshot hold hp hs]
    · obtain ⟨new, hnew, -, habsent⟩ :=
        Oms.reconcile_open hsnap hfree hold (hvenues id old hold) hopen
      exact ⟨new, hnew, habsent hnone⟩

/-! ### Both outcomes, on a place of unknown fate -/

def unacked : System :=
  (Transition.exec step (fun _ _ => True) (boot .sample (some .fresh))
    [.place .sample "", .send 0, .placed 0 (.error ⟨"transport", "timeout"⟩)]).get (by decide)

/-- The venue knows that order, in the given state, and lists nothing. -/
def soleSnapshot (state : OrderState) (id : String) : Option OrderSnapshot :=
  if id = "c1" then some ⟨"c1", "1", "BTCUSDT", state, .buy, .limit, "100", "5", "0", ""⟩ else none

def soleVenues (state : OrderState) : Venues where
  getOpenOrders _ := .ok []
  getOrder _ query := .ok (soleSnapshot state query.clientOrderId)

private theorem unacked_run : Run (boot .sample (some .fresh)) unacked :=
  Transition.reaches_get_exec _

private theorem unacked_venues (id : String) (record : OrderRecord)
    (h : unacked.oms.lookup id = some record) :
    (unacked.oms.connectorForRecord record).isSome := by
  have hall : ∀ record ∈ unacked.oms.orders.toList,
      (unacked.oms.connectorForRecord record).isSome := by decide
  exact hall record (KeyedList.mem_toList_of_find? h)

private theorem soleVenues_conclusive {state : OrderState}
    (hstate : state ∈ [OrderState.live, .partiallyFilled, .filled, .canceled]) (oms : Oms) :
    (soleVenues state).Conclusive oms (soleSnapshot state) where
  listed _ _ := ⟨[], rfl, fun _ h => by cases h⟩
  looked _ _ _ := rfl
  states id snapshot hs := by
    unfold soleSnapshot at hs
    split at hs
    · rw [← Option.some.inj hs]
      exact hstate
    · cases hs

/-- The venue filled the order. -/
theorem reconcile_resolves_filled : ∃ t, LiveRun unacked t ∧
    Resolves unacked.oms t.oms (soleSnapshot .filled) ∧
    (t.oms.lookup "c1").map OrderRecord.state = some .filled := by
  obtain ⟨t, hrun, -, -, hiff⟩ := reconcile_resolves_iff .sample (some .fresh) unacked_run rfl
    unacked_venues (soleVenues .filled) (soleSnapshot .filled)
    (soleVenues_conclusive (by decide) unacked.oms)
  have hresolves : Resolves unacked.oms t.oms (soleSnapshot .filled) := by
    refine hiff.mpr fun id record snapshot _ _ hs hcanceled => ?_
    unfold soleSnapshot at hs
    split at hs
    · rw [← Option.some.inj hs] at hcanceled
      cases hcanceled
    · cases hs
  exact ⟨t, hrun, hresolves, hresolves.terminal "c1" _ _ rfl (by decide) rfl rfl⟩

/-- The venue canceled the order: it stays Pending. -/
theorem reconcile_keeps_canceled_pending : ∃ t, Run (boot .sample (some .fresh)) unacked ∧
    unacked.owners = [] ∧
    (∀ id record, unacked.oms.lookup id = some record →
      (unacked.oms.connectorForRecord record).isSome) ∧
    (soleVenues .canceled).Conclusive unacked.oms (soleSnapshot .canceled) ∧
    LiveRun unacked t ∧ t.oms = (unacked.oms.reconcile (soleVenues .canceled)).1 ∧
    (soleSnapshot .canceled "c1").map OrderSnapshot.state = some .canceled ∧
    (t.oms.lookup "c1").map OrderRecord.state = some .pending ∧
    ¬ Resolves unacked.oms t.oms (soleSnapshot .canceled) := by
  refine ⟨_, unacked_run, rfl, unacked_venues, soleVenues_conclusive (by decide) unacked.oms,
    reconcile_run unacked (soleVenues .canceled), rfl, rfl, rfl, fun hresolves => ?_⟩
  exact hresolves.settled "c1" _ rfl rfl

end System

end ExchangeGateway
