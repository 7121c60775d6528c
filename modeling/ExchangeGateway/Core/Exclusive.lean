import ExchangeGateway.Core.Ownership

/-! Exclusive ownership of a client order with an open place or amend. Reports are buffered,
listings and further amends step aside; what is left are cancels and phase-B lookups whose venue
answer arrives while the call is open. -/
namespace ExchangeGateway

theorem Ledger.find?_enterAll_of_ne (ledger : Ledger) {entries : List Entry} {id : String}
    (h : ∀ entry ∈ entries, entry.key ≠ id) :
    (ledger.enterAll entries).orders.find? id = ledger.orders.find? id := by
  induction entries generalizing ledger with
  | nil => rfl
  | cons entry entries ih =>
    rw [enterAll_cons, ih _ fun e hm => h e (List.mem_cons_of_mem entry hm),
      find?_enter_of_ne ledger (h entry List.mem_cons_self)]

def Call.held : Call → Option OrderRecord
  | .place _ _ staged _ => some staged
  | .amend _ _ _ validated => some validated
  | _ => none

namespace System

variable {s t : System} {a : Action}

theorem lookup_step_of_untouched (hs : s.step a = some t) (ha : a.live) {id : String}
    (h : ∀ entry ∈ s.entries a, entry.key ≠ id) : t.oms.lookup id = s.oms.lookup id := by
  rcases ledger_step_cases hs ha with ⟨orders, rfl, hp, rfl⟩ | hledger
  · exact KeyedList.find?_of_perm hp id
  · rw [Oms.lookup_of_ledger hledger, Ledger.find?_enterAll_of_ne _ h]
    rfl

/-- The entry of another operation about an owned record is the answer to a cancel or to a
phase-B lookup. -/
theorem Enters.of_owned {entry : Entry} (h : s.Enters a entry) (howned : s.Owned)
    (hs : s.step a = some t) {call : Call} (hc : call ∈ s.calls) (hc' : call ∈ t.calls)
    (ho : call.owner = some entry.key) :
    (∃ i ack wire connector, a = .canceled i (.ok ack) ∧
      s.calls[i]? = some (.cancel entry.key wire connector) ∧
      entry = .canceled entry.key ack.exchangeOrderId) ∨
    ∃ i answer item items report, a = .resolved i answer ∧
      s.calls[i]? = some (.resolving (item :: items) report) ∧ item.id = entry.key := by
  have hmem : entry.key ∈ s.owners := List.mem_filterMap.mpr ⟨call, hc, ho⟩
  have hraced : entry.key ∈ s.oms.racedReports := (howned.raced _).mpr hmem
  cases h with
  | riskRejected _ _ hnew =>
    exact absurd (howned.registered _ hmem) (KeyedList.not_mem_iff.mpr hnew)
  | staged _ hnew => exact absurd (howned.registered _ hmem) (KeyedList.not_mem_iff.mpr hnew)
  | accepted _ hi | rejected _ hi | racedPlace _ _ hi _ =>
    obtain ⟨_, _, _, -, rfl⟩ := placed_cases hs
    exact absurd ho (howned.owner_ne hi rfl hc')
  | canceled ack hi => exact .inl ⟨_, ack, _, _, rfl, hi, rfl⟩
  | amended _ hi | discovered _ _ hi | racedAmend _ _ hi _ =>
    obtain ⟨_, _, _, _, -, rfl⟩ := amended_cases hs
    exact absurd ho (howned.owner_ne hi rfl hc')
  | reported _ hfree => exact absurd hraced hfree
  | listed _ _ _ hfree => exact absurd hraced hfree
  | resolved _ hi => exact .inr ⟨_, _, _, _, _, rfl, hi, rfl⟩
  | absent answer hi => exact .inr ⟨_, answer, _, _, _, rfl, hi, rfl⟩

/-! ### The open place -/

def Placing (s : System) (id : String) : Prop :=
  ∃ request connector staged sent, .place request connector staged sent ∈ s.calls ∧
    request.clientOrderId = id

/-- Registered and not being placed: such an order will not be placed again. -/
def Outside (s : System) (id : String) : Prop := id ∈ s.oms.orders ∧ ¬ s.Placing id

theorem Outside.step {id : String} (h : s.Outside id) (hs : s.step a = some t) (ha : a.live) :
    t.Outside id := by
  refine ⟨mem_orders_step hs ha h.1, ?_⟩
  rintro ⟨request, connector, staged, sent, hm, rfl⟩
  rcases mem_calls_step hs hm with hm | hm
  · exact h.2 ⟨_, _, _, _, hm, rfl⟩
  · cases hm with
    | place _ _ hnew _ _ _ => exact KeyedList.not_mem_iff.mpr hnew h.1
    | sent hc => exact h.2 ⟨_, _, _, _, List.mem_of_getElem? hc, rfl⟩

/-- An open place owns its record outright: cancels and lookups in flight are about other
orders, so the record is the one its first section staged. -/
structure Staged (s : System) : Prop where
  owned : s.Owned
  places : ∀ request connector staged sent, .place request connector staged sent ∈ s.calls →
    s.oms.lookup request.clientOrderId = some staged ∧
      ∃ venue, staged = Oms.candidate request venue
  cancels : ∀ id wire connector, .cancel id wire connector ∈ s.calls → s.Outside id
  items : ∀ items report, .resolving items report ∈ s.calls → ∀ item ∈ items, s.Outside item.id

private theorem staged_of_no_calls (h : s.Owned) (hc : s.calls = []) : s.Staged where
  owned := h
  places _ _ _ _ hm := by simp [hc] at hm
  cancels _ _ _ hm := by simp [hc] at hm
  items _ _ hm := by simp [hc] at hm

theorem boot_staged (config : Config) (log : Option EventLog) : (boot config log).Staged :=
  staged_of_no_calls (boot_owned config log) rfl

/-- The collected worklist leaves out the orders with an open call. -/
theorem outside_of_mem_worklist (h : s.Owned) {item : WorkItem}
    (hm : item ∈ s.oms.reconcileWorklist) : s.Outside item.id := by
  obtain ⟨record, hr, rfl⟩ := List.mem_map.mp hm
  obtain ⟨hr, hskip⟩ := List.mem_filter.mp hr
  have hfree : record.clientOrderId ∉ s.oms.racedReports := by
    simp only [Bool.and_eq_true, Bool.not_eq_true', decide_eq_false_iff_not] at hskip
    exact hskip.2
  refine ⟨KeyedList.mem_of_find? (KeyedList.find?_of_mem_toList hr), ?_⟩
  rintro ⟨request, connector, staged, sent, hc, hid⟩
  exact hfree ((h.raced _).mpr (List.mem_filterMap.mpr ⟨_, hc, congrArg some hid⟩))

private theorem Staged.places_step (h : s.Staged) (hs : s.step a = some t) (ha : a.live)
    {request : OrderRequest} {connector : String} {staged : OrderRecord} {sent : Bool}
    (hc : .place request connector staged sent ∈ s.calls)
    (hc' : .place request connector staged sent ∈ t.calls) :
    t.oms.lookup request.clientOrderId = some staged := by
  rw [lookup_step_of_untouched hs ha fun entry hm hk => ?_]
  · exact (h.places _ _ _ _ hc).1
  · have hplacing : s.Placing entry.key := ⟨_, _, _, _, hc, hk.symm⟩
    obtain ⟨i, ack, wire, connector', -, hi, -⟩ | ⟨i, answer, item, items, report, -, hi, hid⟩ :=
      (s.enters_of_mem hm).of_owned h.owned hs hc hc' (congrArg some hk.symm)
    · exact (h.cancels _ _ _ (List.mem_of_getElem? hi)).2 hplacing
    · exact (h.items _ _ (List.mem_of_getElem? hi) item List.mem_cons_self).2 (hid ▸ hplacing)

theorem Staged.step (h : s.Staged) (hs : s.step a = some t) : t.Staged := by
  have howned := h.owned.step hs
  by_cases ha : a.live
  swap
  · cases a <;> try exact absurd rfl ha
    obtain rfl := restart_cases hs
    exact staged_of_no_calls howned rfl
  refine ⟨howned, fun request connector staged sent hm => ?_, fun id wire connector hm => ?_,
    fun items report hm item hi => ?_⟩
  · rcases mem_calls_step hs hm with hold | hnew
    · exact ⟨h.places_step hs ha hold hm, (h.places _ _ _ _ hold).2⟩
    · cases hnew with
      | place venue' _ hnew _ _ hentries =>
        refine ⟨?_, venue', rfl⟩
        have hl := step_ledger hs ha fun _ => nofun
        rw [hentries] at hl
        rw [Oms.lookup_of_ledger hl]
        exact s.oms.ledger.find?_enter_of_write
          (.staged (Oms.candidate request venue') true) rfl rfl
      | sent hc =>
        have hmem := List.mem_of_getElem? hc
        refine ⟨?_, (h.places _ _ _ _ hmem).2⟩
        rw [lookup_step_of_untouched hs ha fun entry he => by cases he]
        exact (h.places _ _ _ _ hmem).1
  · rcases mem_calls_step hs hm with hold | hnew
    · exact (h.cancels _ _ _ hold).step hs ha
    · cases hnew with
      | cancel _ _ record hrecord hstate =>
        refine Outside.step ⟨KeyedList.mem_of_find? hrecord, ?_⟩ hs ha
        rintro ⟨request, connector', staged, sent, hc, rfl⟩
        obtain ⟨hl, venue, rfl⟩ := h.places _ _ _ _ hc
        obtain rfl := Option.some.inj (hl.symm.trans hrecord)
        rcases hstate with hstate | hstate <;> cases hstate
  · rcases mem_calls_step hs hm with hold | hnew
    · exact (h.items _ _ hold item hi).step hs ha
    · cases hnew with
      | collect hc => exact (outside_of_mem_worklist h.owned hi).step hs ha
      | resolved _ hc =>
        exact (h.items _ _ (List.mem_of_getElem? hc) item (List.mem_cons_of_mem _ hi)).step hs ha

end System

/-! ### The open amend -/

namespace OrderRecord

/-- The reported fill is above the recorded one. -/
def raisesFill (record : OrderRecord) (filled : String) : Bool :=
  filled ≠ "" &&
    match parseDecimal filled, parseDecimal record.filledText with
    | .ok reported, .ok current => reported.compare current > 0
    | _, _ => false

/-- A snapshot that tells the record something: an unknown exchange id, a higher fill, a legal
new state, other terms. -/
def informedBy (record : OrderRecord) (snapshot : OrderSnapshot) : Bool :=
  (snapshot.exchangeOrderId ≠ "" && (record.exchangeOrderId = "" ||
    (record.legIndexOf snapshot.exchangeOrderId).isNone)) ||
  record.raisesFill snapshot.filledQuantity ||
  (snapshot.state ≠ record.state && canTransition record.state snapshot.state) ||
  (snapshot.price ≠ "" && snapshot.price ≠ record.price) ||
  (snapshot.quantity ≠ "" && snapshot.quantity ≠ record.quantity)

theorem observeFill_of_not_raisesFill {record : OrderRecord} {filled : String}
    (h : record.raisesFill filled = false) (avgPrice : String) :
    record.observeFill filled avgPrice = (record, false) := by
  rcases record.observeFill_cases filled avgPrice with h' | ⟨r, c, hf, hr, hc, hgt, -⟩
  · exact h'
  · simp [raisesFill, hf, hr, hc, hgt] at h

theorem resolve_of_not_informedBy {record : OrderRecord} {snapshot : OrderSnapshot}
    (h : record.informedBy snapshot = false) : (record.resolve snapshot).1 = record := by
  simp only [informedBy, Bool.or_eq_false_iff] at h
  obtain ⟨⟨⟨⟨hid, hfill⟩, hstate⟩, hprice⟩, hquantity⟩ := h
  have hs : record.observeState snapshot.state = (record, false) := by
    rcases record.observeState_cases snapshot.state with h' | ⟨hne, hc, -⟩
    · exact h'
    · simp [hne, hc] at hstate
  have hp : record.observePrice snapshot.price = (record, false) := by
    rcases record.observePrice_cases snapshot.price with h' | ⟨hne, hne', -⟩
    · exact h'
    · simp [hne, hne'] at hprice
  have hq : record.observeQuantity snapshot.quantity = (record, false) := by
    rcases record.observeQuantity_cases snapshot.quantity with h' | ⟨hne, hne', -⟩
    · exact h'
    · simp [hne, hne'] at hquantity
  simp only [resolve, hid, Bool.false_eq_true, if_false, Oms.observeSnapshot, applyObservation,
    observeFill_of_not_raisesFill hfill, hs, hp, hq, if_true]

end OrderRecord

namespace System

variable {s t : System} {a : Action}

/-- The step leaves owned records to their owners: no venue answers a cancel of such an order
with success, and no phase-B lookup of one comes back absent or with news. -/
def spares (s : System) : Action → Bool
  | .canceled i (.ok _) =>
    match s.calls[i]? with
    | some (.cancel id _ _) => id ∉ s.oms.racedReports
    | _ => true
  | .resolved i answer =>
    match s.calls[i]? with
    | some (.resolving (item :: _) _) =>
      item.id ∉ s.oms.racedReports ||
        match answer with
        | .ok (some snapshot) => !(s.oms.lookup item.id).any (·.informedBy snapshot)
        | answer => !Oms.conclusivelyAbsent answer
    | _ => true
  | _ => true

/-- A spared record stays while a call owns it. -/
theorem lookup_step_of_spares (h : s.Owned) (hs : s.step a = some t) (ha : a.live)
    (hspares : s.spares a) {call : Call} {id : String} (hc : call ∈ s.calls)
    (hc' : call ∈ t.calls) (ho : call.owner = some id) :
    t.oms.lookup id = s.oms.lookup id := by
  have hraced : id ∈ s.oms.racedReports :=
    (h.raced _).mpr (List.mem_filterMap.mpr ⟨call, hc, ho⟩)
  by_cases hlookup : ∃ i answer item items report, a = .resolved i answer ∧
      s.calls[i]? = some (.resolving (item :: items) report) ∧ item.id = id
  · obtain ⟨i, answer, item, items, report, rfl, hi, rfl⟩ := hlookup
    simp only [spares, hi, hraced, not_true_eq_false, decide_false, Bool.false_or] at hspares
    have hl := step_ledger hs ha fun _ => nofun
    simp only [entries, hi] at hl
    rw [Oms.lookup_of_ledger hl]
    split
    · rcases answer with error | _ | snapshot
      · have habs : Oms.conclusivelyAbsent (.error error) = false := by simpa using hspares
        simp only [Oms.resolvedEntries, habs]
        rfl
      · cases hspares
      · cases hrec : s.oms.lookup item.id with
        | none =>
          have hmem := h.registered _ ((h.raced _).mp hraced)
          exact absurd hmem (KeyedList.not_mem_iff.mpr hrec)
        | some record =>
          have hinf : record.informedBy snapshot = false := by simpa [hrec] using hspares
          have hwrite := s.oms.ledger.find?_enter_of_write (.resolved item.id snapshot) hrec rfl
          rw [OrderRecord.resolve_of_not_informedBy hinf] at hwrite
          exact hwrite
    · rfl
  · refine lookup_step_of_untouched hs ha fun entry hm hk => ?_
    obtain ⟨i, ack, wire, connector, rfl, hi, -⟩ | ⟨i, answer, item, items, report, rfl, hi, hid⟩ :=
      (s.enters_of_mem hm).of_owned h hs hc hc' (hk ▸ ho)
    · simp only [spares, hi, hk, hraced, not_true_eq_false, decide_false] at hspares
      cases hspares
    · exact hlookup ⟨i, answer, item, items, report, rfl, hi, hid.trans hk⟩

def AmendsHeld (s : System) : Prop :=
  ∀ command wire connector validated, .amend command wire connector validated ∈ s.calls →
    s.oms.lookup command.clientOrderId = some validated ∧
      (validated.state = .live ∨ validated.state = .partiallyFilled)

theorem AmendsHeld.step (h : s.AmendsHeld) (howned : s.Owned) (hs : s.step a = some t)
    (hspares : s.spares a) : t.AmendsHeld := by
  intro command wire connector validated hm
  by_cases ha : a.live
  swap
  · cases a <;> try exact absurd rfl ha
    obtain rfl := restart_cases hs
    cases hm
  rcases mem_calls_step hs hm with hold | hnew
  · rw [lookup_step_of_spares howned hs ha hspares hold hm rfl]
    exact h _ _ _ _ hold
  · cases hnew with
    | amend _ record hrecord hstate _ _ =>
      rw [lookup_step_of_untouched hs ha fun entry he => by cases he]
      exact ⟨hrecord, hstate⟩

/-- In every run that spares owned records, the record of an open place or amend is the one the
call's first section left: the staged pending record, or the validated working one. -/
theorem open_call_exclusive (config : Config) (log : Option EventLog) {s : System}
    (h : Transition.Reaches step (fun s a => s.spares a) (boot config log) s) :
    (∀ id, id ∈ s.oms.racedReports ↔ id ∈ s.owners) ∧
      (∀ request connector staged sent, .place request connector staged sent ∈ s.calls →
        s.oms.lookup request.clientOrderId = some staged ∧ staged.state = .pending) ∧
      ∀ command wire connector validated, .amend command wire connector validated ∈ s.calls →
        s.oms.lookup command.clientOrderId = some validated ∧
          (validated.state = .live ∨ validated.state = .partiallyFilled) := by
  have hI : s.Staged ∧ s.AmendsHeld :=
    Transition.Reaches.invariant (I := fun s => s.Staged ∧ s.AmendsHeld)
      (fun _ _ _ hI ha hs => ⟨hI.1.step hs, hI.2.step hI.1.owned hs ha⟩) h
      ⟨boot_staged config log, fun _ _ _ _ hm => by cases hm⟩
  refine ⟨hI.1.owned.raced, fun request connector staged sent hm => ?_, hI.2⟩
  obtain ⟨hl, venue, rfl⟩ := hI.1.places _ _ _ _ hm
  exact ⟨hl, rfl⟩

def openAmendActions : List Action :=
  [.place .sample "", .send 0, .placed 0 (.ok ⟨"c1", "1"⟩), .amend ⟨"c1", some "101", none⟩]

/-- The old leg's cancel report waits in the buffer while the amend is open. -/
theorem open_call_exclusive_buffered : ∃ s,
    Transition.Reaches step (fun s a => s.spares a) (boot .sample (some .fresh)) s ∧
      ∃ command wire connector validated,
        .amend command wire connector validated ∈ s.calls ∧
        s.oms.buffered "c1" = [⟨"c1", "1", .canceled, .buy, "", ""⟩] ∧
        s.oms.lookup command.clientOrderId = some validated ∧ validated.state = .live := by
  have hrun : (Transition.exec step (fun s a => s.spares a) (boot .sample (some .fresh))
    (openAmendActions ++ [.report ⟨"c1", "1", .canceled, .buy, "", ""⟩])).isSome := by decide
  have hreach := Transition.reaches_get_exec hrun
  have hopen := (open_call_exclusive .sample (some .fresh) hreach).2.2
  exact ⟨_, hreach, _, _, _, _, List.mem_singleton.mpr rfl, rfl,
    (hopen _ _ _ _ (List.mem_singleton.mpr rfl)).1, rfl⟩

/-- A cancel sent before the amend and acknowledged while the amend is open terminalizes the
record the amend owns. -/
theorem open_call_not_exclusive : ∃ s, LiveRun (boot .sample (some .fresh)) s ∧
    ∃ command wire connector validated, .amend command wire connector validated ∈ s.calls ∧
      validated.state = .live ∧
      (s.oms.lookup command.clientOrderId).map (·.state) = some .canceled := by
  have hrun : (Transition.exec step (fun _ a => a.live) (boot .sample (some .fresh))
    [.place .sample "", .send 0, .placed 0 (.ok ⟨"c1", "1"⟩), .cancel "c1",
      .amend ⟨"c1", some "101", none⟩, .canceled 0 (.ok ⟨"c1", "1"⟩)]).isSome := by decide
  exact ⟨_, Transition.reaches_get_exec hrun, _, _, _, _, List.mem_singleton.mpr rfl, rfl, rfl⟩

end System

end ExchangeGateway
