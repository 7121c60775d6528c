import ExchangeGateway.Core.AtMostOnce
import ExchangeGateway.Core.Legs
import ExchangeGateway.Core.Position

/-! When the projection of the risk step throws. It reads the fill of every working order of the
instrument through `Result::value`, and the adoption of a snapshot copies the venue's fill
unchecked. -/
namespace ExchangeGateway

def OrderRecord.Measured (record : OrderRecord) : Prop :=
  isTerminal record.state ∨ ∃ filled, parseDecimal record.filledText = .ok filled

/-- A snapshot that would be adopted is closed or has a fill that parses. -/
def Entry.measured : Entry → Option OrderRecord → Bool
  | .listed venue snapshot, none =>
    isTerminal snapshot.state ||
      (parseDecimal (Oms.snapshotRecord snapshot venue true).filledText).isOk
  | _, _ => true

def System.measured (s : System) (a : Action) : Bool :=
  s.oms.ledger.allEntries Entry.measured (s.entries a)

/-! ### The projection -/

namespace Oms

variable {symbol : String} {replace : Option OrderRecord}

/-- The projection of one record reads a failed parse: the record is working, its size parses and
its fill does not. -/
theorem projectRecord_eq_none_iff (total : Decimal) (record : OrderRecord) :
    projectRecord symbol replace total record = none ↔
      record.symbol = symbol ∧ record.working replace ∧
        (∃ quantity, parseDecimal record.quantity = .ok quantity) ∧
        ∃ error, parseDecimal record.filledText = .error error := by
  unfold projectRecord
  by_cases hs : record.symbol = symbol
  · by_cases hw : isTerminal record.state ∨ replace.any (·.clientOrderId = record.clientOrderId)
    · have hworking : record.working replace = false := by
        simpa [OrderRecord.working, ← Bool.not_or] using hw
      simp [hs, hw, hworking]
    · have hworking : record.working replace = true := by
        simpa [OrderRecord.working, ← Bool.not_or] using hw
      cases hq : parseDecimal record.quantity with
      | error e => simp [hs, hw]
      | ok quantity =>
        cases hf : parseDecimal record.filledText with
        | error e => simp [hs, hw, hworking]
        | ok filled => simp [hs, hw]
  · simp [hs]

theorem foldlM_projectRecord_eq_none_iff {records : List OrderRecord} (total : Decimal) :
    records.foldlM (projectRecord symbol replace) total = none ↔
      ∃ record ∈ records, projectRecord symbol replace total record = none := by
  induction records generalizing total with
  | nil => simp
  | cons record records ih =>
    rw [List.foldlM_cons]
    cases hr : projectRecord symbol replace total record with
    | none => simp [hr]
    | some next =>
      have hne : projectRecord symbol replace total record ≠ none := by simp [hr]
      rw [ne_eq, projectRecord_eq_none_iff] at hne
      simp only [Option.bind_eq_bind, Option.bind_some, ih, List.mem_cons, exists_eq_or_imp,
        projectRecord_eq_none_iff, hne, false_or]

/-- The projection throws exactly when a working order of the instrument has a size that parses
and a fill that does not. -/
theorem projectedPosition_eq_none_iff (oms : Oms) (side : Side) (quantity : String) :
    oms.projectedPosition symbol replace side quantity = none ↔
      ∃ record ∈ oms.orders.toList, record.symbol = symbol ∧ record.working replace ∧
        (∃ quantity, parseDecimal record.quantity = .ok quantity) ∧
        ∃ error, parseDecimal record.filledText = .error error := by
  simp only [projectedPosition, Option.map_eq_none_iff, foldlM_projectRecord_eq_none_iff,
    projectRecord_eq_none_iff]

/-- Only the projection makes the first section of a place throw. -/
theorem placeStage_ne_threw {oms : Oms} {request : OrderRequest} {venue : String}
    (hrisk : oms.riskCheck request.instrumentId none request.side request.price
      request.quantity ≠ .threw) : (oms.placeStage request venue).2 ≠ .threw := by
  unfold placeStage
  cases oms.lookup request.clientOrderId with
  | some existing =>
    dsimp only
    cases existing.rejection <;> exact fun he => by cases he
  | none =>
    dsimp only
    cases oms.connectorFor (if venue = "" then oms.defaultVenue else venue) with
    | none => exact fun he => by cases he
    | some connector =>
      dsimp only
      cases hcheck : oms.riskCheck request.instrumentId none request.side request.price
          request.quantity with
      | threw => exact absurd hcheck hrisk
      | rejected rejection =>
        dsimp only [recordRiskRejection]
        split <;> exact fun he => by cases he
      | passed =>
        dsimp only [stagePending]
        split <;> exact fun he => by cases he

theorem amendStage_ne_threw {oms : Oms} {command : AmendCommand}
    (hrisk : ∀ symbol replace side price quantity,
      oms.riskCheck symbol replace side price quantity ≠ .threw) :
    (oms.amendStage command).2 ≠ .threw := by
  unfold amendStage
  by_cases hempty : command.newPrice = none ∧ command.newQuantity = none
  · rw [if_pos hempty]
    exact fun he => by cases he
  rw [if_neg hempty]
  cases oms.lookup command.clientOrderId with
  | none => exact fun he => by cases he
  | some record =>
    dsimp only
    by_cases hpending : record.state = .pending
    · rw [if_pos hpending]
      exact fun he => by cases he
    rw [if_neg hpending]
    by_cases hterminal : isTerminal record.state
    · rw [if_pos hterminal]
      exact fun he => by cases he
    rw [if_neg hterminal]
    cases oms.connectorForRecord record with
    | none => exact fun he => by cases he
    | some connector =>
      dsimp only
      cases hcheck : oms.riskCheck record.symbol (some record) record.side
          (command.newPrice.getD record.price) (command.newQuantity.getD record.quantity) with
      | threw => exact absurd hcheck (hrisk _ _ _ _ _)
      | rejected rejection => exact fun he => by cases he
      | passed =>
        dsimp only
        split_ifs
        · exact fun he => by cases he
        · exact fun he => by cases he

end Oms

/-! ### The registry -/

namespace OrderRecord

variable {old new : OrderRecord}

theorem Measured.of_eq (h : old.Measured) (hstate : new.state = old.state)
    (hfilled : new.filledQuantity = old.filledQuantity) : new.Measured := by
  unfold Measured filledText at h ⊢
  rw [hstate, hfilled]
  exact h

theorem Measured.of_parse {filled : Decimal} (h : parseDecimal new.filledQuantity = .ok filled) :
    new.Measured := by
  refine .inr ⟨filled, ?_⟩
  rw [filledText_of_parse h]
  exact h

theorem Measured.of_zero (h : new.filledQuantity = "0") : new.Measured := by
  have hparse : parseDecimal new.filledQuantity = .ok ⟨0, 0⟩ := by
    rw [h]
    decide
  exact .of_parse hparse

/-- An observed fill parses if it is new, and a closed order stays closed. -/
theorem Measured.observed (h : old.Measured) (learned : Prop) [Decidable learned] (id : String)
    (state : OrderState) (filled avgPrice price quantity : String) (lifecycle : Bool) :
    ((if learned then old.noteExchangeId id else old).applyObservation state filled avgPrice price
      quantity lifecycle).1.Measured := by
  obtain ⟨exchangeOrderId, legs, hmid⟩ := old.learned_spec learned id
  obtain ⟨state', filled', _, _, _, _, heq, hfill, hs, -⟩ :=
    (if learned then old.noteExchangeId id else old).applyObservation_spec state filled avgPrice
      price quantity lifecycle
  rw [heq]
  rw [hmid] at hs hfill ⊢
  rcases hfill with ⟨hfilled, -⟩ | ⟨reported, _, -, hreported, -, -, hfilled, -⟩
  · have hsame : filled' = old.filledQuantity := hfilled
    rcases h with hterminal | hparse
    · have hstate : state' = old.state := by
        refine hs.resolve_right fun hmove => ?_
        have hc : canTransition old.state state := hmove.2.2
        rw [not_canTransition_of_terminal hterminal] at hc
        cases hc
      left
      show isTerminal state'
      rw [hstate]
      exact hterminal
    · right
      unfold filledText at hparse ⊢
      rw [hsame]
      exact hparse
  · have hparse : parseDecimal filled' = .ok reported := by
      rw [hfilled]
      exact hreported
    exact .of_parse hparse

end OrderRecord

theorem Entry.measured_write {entry : Entry} {old : Option OrderRecord} {new : OrderRecord}
    (hinserted : ∀ record, entry.inserted = some record → record.Measured)
    (hold : ∀ record, old = some record → record.Measured) (hmeasured : entry.measured old)
    (hw : (entry.write old).1 = some new) : new.Measured := by
  obtain hi | ⟨venue, snapshot, rfl, rfl, rfl⟩ | ⟨hi, record, rfl⟩ := write_cases hw
  · exact hinserted new hi
  · rcases Bool.or_eq_true_iff.mp hmeasured with hterminal | hok
    · exact .inl hterminal
    · cases hparse : parseDecimal (Oms.snapshotRecord snapshot venue true).filledText with
      | error e =>
        rw [hparse] at hok
        cases hok
      | ok filled => exact .inr ⟨filled, hparse⟩
  have h := hold record rfl
  cases rewrites_of_write hi hw with
  | accepted _ exchangeOrderId =>
    obtain ⟨_, _, hnote⟩ := record.noteExchangeId_spec exchangeOrderId
    rw [OrderRecord.accept, hnote]
    rcases h with hterminal | hparse
    · left
      show isTerminal (applyTransition record.state .live).1
      rw [applyTransition_of_terminal hterminal]
      exact hterminal
    · exact .inr hparse
  | rejected _ error _ => exact .inl rfl
  | canceled _ exchangeOrderId _ => exact .inl rfl
  | noted _ exchangeOrderId =>
    obtain ⟨_, _, hnote⟩ := record.noteExchangeId_spec exchangeOrderId
    exact h.of_eq (by rw [hnote]) (by rw [hnote])
  | amended _ price quantity exchangeOrderId =>
    obtain ⟨_, _, hamend⟩ := OrderRecord.appendAmendLeg_spec
      { record with price := price, quantity := quantity } exchangeOrderId
    rw [OrderRecord.amend, hamend]
    exact h.of_eq rfl rfl
  | discovered _ exchangeOrderId =>
    obtain ⟨_, _, hnote⟩ := record.noteExchangeId_spec exchangeOrderId
    rw [hnote]
    exact h.of_eq rfl rfl
  | reported _ report => exact h.observed _ _ _ _ _ _ _ _
  | listed _ snapshot =>
    unfold Oms.refreshed
    exact h.observed _ _ _ _ _ _ _ _
  | resolved _ snapshot =>
    unfold OrderRecord.resolve
    exact h.observed _ _ _ _ _ _ _ _
  | absent _ _ => exact .inl rfl

/-! ### Leg versions -/

namespace OrderRecord

variable {old new : OrderRecord}

def Versioned (record : OrderRecord) : Prop := ∀ leg ∈ record.legs, leg.version ≠ 0

theorem Versioned.currentVersion_ne_zero (h : new.Versioned) : new.currentVersion ≠ 0 := by
  unfold currentVersion
  split
  · exact one_ne_zero
  · rename_i leg hlast
    exact h leg (List.mem_of_getLast? hlast)

theorem Versioned.concat (h : old.Versioned) {leg : OrderLeg} (hleg : leg.version ≠ 0)
    (hlegs : new.legs = old.legs ++ [leg]) : new.Versioned := by
  intro leg' hm
  rw [hlegs, List.mem_append, List.mem_singleton] at hm
  rcases hm with hm | rfl
  · exact h leg' hm
  · exact hleg

theorem Versioned.of_legStep (h : old.Versioned) (hstep : old.LegStep new) : new.Versioned := by
  cases hstep with
  | same _ hlegs =>
    unfold Versioned
    rw [hlegs]
    exact h
  | push id _ _ hlegs => exact h.concat (Nat.succ_ne_zero _) hlegs

private theorem versioned_replayLeg (h : old.Versioned) {version : ℕ} (hversion : version ≠ 0)
    (id : String) : (old.replayLeg version id).Versioned := by
  intro leg hm
  have hm : leg ∈ (if version ≤ old.legs.length then
      if id = "" then old.legs
      else old.legs.modify (version - 1) fun leg => { leg with exchangeOrderId := id }
    else old.legs ++ [⟨version, id⟩]) := hm
  split_ifs at hm
  · exact h leg hm
  · obtain ⟨i, hi⟩ := List.mem_iff_getElem?.mp hm
    rw [List.getElem?_modify] at hi
    obtain ⟨leg', hleg', rfl⟩ := Option.map_eq_some_iff.mp hi
    have hne := h leg' (List.mem_of_getElem? hleg')
    split <;> exact hne
  · rcases List.mem_append.mp hm with hm | hm
    · exact h leg hm
    · rw [List.mem_singleton.mp hm]
      exact hversion

theorem versioned_replay (defaultVenue : String) : ReplayInvariant Versioned defaultVenue where
  created type id event := by
    unfold Versioned recordFromEvent
    dsimp only
    generalize (if type = "place_submitted" then "" else
      (eventString event "exchangeOrderId").getD "") = exchangeOrderId
    intro leg hm
    split_ifs at hm with _ hversion
    · cases hm
    · rw [List.mem_singleton.mp hm]
      exact one_ne_zero
    · rw [List.mem_singleton.mp hm]
      exact hversion
  rejected record event h := by
    rcases h with h | ⟨id, rfl⟩
    · exact h
    · exact fun leg hm => by cases hm
  amended record event h := by
    have hterms : (record.replayTerms event).Versioned := h
    unfold replayAmended
    dsimp only
    split
    · have hnote := hterms.of_legStep ((record.replayTerms event).legStep_noteExchangeId
        ((eventString event "exchangeOrderId").getD ""))
      unfold replayLegacyAmend
      dsimp only
      split
      · exact hnote
      · exact hnote
    · rename_i hversion
      exact versioned_replayLeg hterms hversion _
  state record event h := by
    unfold replayState
    split
    · exact h
    · rename_i state _
      have hobserved := h.of_legStep (record.legStep_observed False "" state
        ((eventString event "filledQuantity").getD "")
        ((eventString event "averageFillPrice").getD "") "" "" true)
      rw [if_neg not_false] at hobserved
      dsimp only
      split
      · exact hobserved.of_legStep (legStep_noteExchangeId _ _)
      · exact hobserved

theorem LegTable.versioned (h : new.LegTable) : new.Versioned := by
  intro leg hm
  have hversion := List.mem_map_of_mem (f := OrderLeg.version) hm
  rw [h.versions, List.mem_range'_1] at hversion
  omega

end OrderRecord

theorem Entry.versioned_write {entry : Entry} {old : Option OrderRecord} {new : OrderRecord}
    (hinserted : ∀ record, entry.inserted = some record → record.LegTable)
    (hold : ∀ record, old = some record → record.Versioned)
    (hw : (entry.write old).1 = some new) : new.Versioned := by
  obtain hi | ⟨venue, snapshot, -, -, rfl⟩ | ⟨hi, record, rfl⟩ := write_cases hw
  · exact (hinserted new hi).versioned
  · exact (OrderRecord.legTable_snapshotRecord snapshot venue true).versioned
  · exact (hold record rfl).of_legStep (legStep_write hi hw)

/-! ### The log -/

/-- What the replay of an event needs: an adopted order whose fill parses unless it is closed, and
an explicit version in an `amended` event, which does not reopen the order. -/
structure EventMeasured (event : Json) : Prop where
  adopted : eventString event "type" = some "adopted" → ∀ defaultVenue id,
    (recordFromEvent defaultVenue "adopted" id event).Measured
  amended : eventString event "type" = some "amended" → eventVersion event ≠ 0

theorem measured_applyLogEvent {orders : Registry}
    (h : ∀ id record, orders.find? id = some record → record.Measured) {event : Json}
    (hevent : EventMeasured event) (defaultVenue : String) :
    ∀ id record, (applyLogEvent defaultVenue orders event).find? id = some record →
      record.Measured := by
  apply every_applyLogEvent h
  · intro type id htype hkind
    rcases hkind with rfl | rfl | rfl
    · exact .of_zero rfl
    · exact .of_zero rfl
    · exact hevent.adopted htype defaultVenue id
  · exact fun id => .inl rfl
  · intro id record htype hr
    unfold OrderRecord.replayAmended
    dsimp only
    rw [if_neg (hevent.amended htype)]
    exact (h id record hr).of_eq rfl rfl
  · intro id record _ _ hr
    unfold OrderRecord.replayState
    split
    · exact h id record hr
    · rename_i state _
      have hobserved := (h id record hr).observed False "" state
        ((eventString event "filledQuantity").getD "")
        ((eventString event "averageFillPrice").getD "") "" "" true
      rw [if_neg not_false] at hobserved
      dsimp only
      split
      · obtain ⟨_, _, hnote⟩ := OrderRecord.noteExchangeId_spec
          (record.applyObservation state ((eventString event "filledQuantity").getD "")
            ((eventString event "averageFillPrice").getD "") "" "" true).1
          ((eventString event "exchangeOrderId").getD "")
        rw [hnote]
        exact hobserved.of_eq rfl rfl
      · exact hobserved

/-- Whatever the default venue, the log replays to orders that are closed or have a fill that
parses. -/
def EventLog.Measured (log : EventLog) : Prop :=
  ∀ defaultVenue id record,
    (replay defaultVenue (.empty _) log.events).find? id = some record → record.Measured

theorem measured_replay {defaultVenue : String} {orders : Registry}
    (h : ∀ id record, orders.find? id = some record → record.Measured) {events : List Json}
    (hevents : ∀ event ∈ events, EventMeasured event) :
    ∀ id record, (replay defaultVenue orders events).find? id = some record → record.Measured := by
  induction events generalizing orders with
  | nil => exact h
  | cons event events ih =>
    have hnext := measured_applyLogEvent h (hevents event List.mem_cons_self) defaultVenue
    exact ih hnext fun e hm => hevents e (List.mem_cons_of_mem event hm)

/-- What the log holds, and what the stream still has for it. -/
structure EventLog.Measuring (log : EventLog) : Prop where
  events : log.Measured
  buffer : ∀ event ∈ log.buffer, EventMeasured event

theorem EventLog.Measured.lines {log log' : EventLog} (h : log.Measured) {lines : List Json}
    (hlines : ∀ event ∈ lines, EventMeasured event) (hevents : log'.events = log.events ++ lines) :
    log'.Measured := by
  intro defaultVenue id record hr
  rw [hevents, replay, List.foldl_append] at hr
  exact measured_replay (h defaultVenue) hlines id record hr

theorem EventLog.Measuring.append {log : EventLog} (h : log.Measuring) {event : Json}
    (hevent : EventMeasured event) : (log.append event).1.Measuring := by
  have hall : ∀ e ∈ log.buffer ++ [event], EventMeasured e := by
    intro e hm
    rcases List.mem_append.mp hm with hm | hm
    · exact h.buffer e hm
    · rw [List.mem_singleton.mp hm]
      exact hevent
  constructor
  · exact h.events.lines (fun e hm => hall e (mem_brought hm)) (log.events_append event)
  · exact fun e hm => hall e (mem_buffer_append hm)

theorem EventLog.Measuring.appendAll {log : EventLog} (h : log.Measuring) {events : List Json}
    (hevents : ∀ event ∈ events, EventMeasured event) : (log.appendAll events).Measuring := by
  induction events generalizing log with
  | nil => exact h
  | cons event events ih =>
    have happend := h.append (hevents event List.mem_cons_self)
    exact ih happend fun e hm => hevents e (List.mem_cons_of_mem event hm)

theorem EventLog.Measuring.close {log : EventLog} (h : log.Measuring) : log.close.Measured := by
  exact h.events.lines (fun e hm => h.buffer e (EventLog.mem_flushed hm)) log.events_close

theorem eventMeasured_adoptedEvent {record : OrderRecord} (h : record.Measured) :
    EventMeasured (adoptedEvent record) where
  adopted _ defaultVenue id := by
    apply h.of_eq
    · show (parseOrderState record.state.toString).getD .live = record.state
      rw [parseOrderState_toString]
      rfl
    · rfl
  amended htype := absurd (Option.some.inj htype) (by decide)

theorem eventMeasured_amendedEvent {record : OrderRecord} (h : record.Versioned) :
    EventMeasured (amendedEvent record) where
  adopted htype := absurd (Option.some.inj htype) (by decide)
  amended _ := h.currentVersion_ne_zero

theorem EventMeasured.of_type {event : Json} {type : String}
    (htype : eventString event "type" = some type) (hadopted : type ≠ "adopted")
    (hamended : type ≠ "amended") : EventMeasured event := by
  constructor
  · intro h
    exact absurd (Option.some.inj (htype.symm.trans h)) hadopted
  · intro h
    exact absurd (Option.some.inj (htype.symm.trans h)) hamended

theorem Entry.eventMeasured_write {entry : Entry} {old : Option OrderRecord}
    (hinserted : ∀ record, entry.inserted = some record → record.LegTable ∧ record.Measured)
    (hkey : ∀ record, old = some record → record.clientOrderId = entry.key)
    (hversioned : ∀ record, old = some record → record.Versioned)
    (hold : ∀ record, old = some record → record.Measured) (hmeasured : entry.measured old)
    {event : Json} (hm : event ∈ (entry.write old).2) : EventMeasured event := by
  obtain ⟨record, -, ⟨-, rfl⟩ | rfl | ⟨hw, rfl⟩ | rfl | ⟨hw, rfl⟩ | rfl⟩ :=
    event_of_mem_write hkey hm
  · exact .of_type rfl (by decide) (by decide)
  · exact .of_type rfl (by decide) (by decide)
  · apply eventMeasured_adoptedEvent
    exact measured_write (fun record hb => (hinserted record hb).2) hold hmeasured hw
  · exact .of_type rfl (by decide) (by decide)
  · apply eventMeasured_amendedEvent
    exact versioned_write (fun record hb => (hinserted record hb).1) hversioned hw
  · exact .of_type rfl (by decide) (by decide)

namespace Ledger

variable {ledger : Ledger}

/-- Registry and log both give orders whose fills the projection can read. -/
structure Measured (ledger : Ledger) : Prop where
  versioned : ledger.Every OrderRecord.Versioned
  records : ledger.Every OrderRecord.Measured
  logged : ∀ log, ledger.log = some log → log.Measuring

theorem Measured.enter (h : ledger.Measured) {entry : Entry}
    (hinserted : ∀ record, entry.inserted = some record → record.LegTable ∧ record.Measured)
    (hmeasured : entry.measured (ledger.orders.find? entry.key)) :
    (ledger.enter entry).Measured where
  versioned := h.versioned.enter fun _ hw =>
    Entry.versioned_write (fun record hb => (hinserted record hb).1) (h.versioned entry.key) hw
  records := h.records.enter fun _ hw =>
    Entry.measured_write (fun record hb => (hinserted record hb).2) (h.records entry.key)
      hmeasured hw
  logged log' hlog' := by
    rw [log_enter] at hlog'
    obtain ⟨log, hlog, rfl⟩ := Option.map_eq_some_iff.mp hlog'
    apply (h.logged log hlog).appendAll
    intro event hm
    exact Entry.eventMeasured_write hinserted (fun _ => KeyedList.key_of_find?)
      (h.versioned entry.key) (h.records entry.key) hmeasured hm

theorem Measured.enterAll (h : ledger.Measured) {entries : List Entry}
    (hinserted : ∀ entry ∈ entries, ∀ record, entry.inserted = some record →
      record.LegTable ∧ record.Measured)
    (hmeasured : ledger.allEntries Entry.measured entries) :
    (ledger.enterAll entries).Measured := by
  induction entries generalizing ledger with
  | nil => exact h
  | cons entry entries ih =>
    obtain ⟨hhead, htail⟩ := Bool.and_eq_true_iff.mp hmeasured
    have henter := h.enter (hinserted entry List.mem_cons_self) hhead
    exact ih henter (fun e hm => hinserted e (List.mem_cons_of_mem entry hm)) htail

end Ledger

namespace System

variable {s t : System} {a : Action}

theorem Enters.measured_inserted {entry : Entry} (h : s.Enters a entry) {record : OrderRecord}
    (hb : entry.inserted = some record) : record.Measured := by
  cases h with
  | riskRejected _ _ _ =>
    obtain rfl := Option.some.inj hb
    exact .inl rfl
  | staged _ _ =>
    obtain rfl := Option.some.inj hb
    exact .of_zero rfl
  | _ => cases hb

theorem start_measured (config : Config) {log : Option EventLog}
    (hlog : ∀ l, log = some l → l.Measured) : (Oms.start config log).ledger.Measured where
  versioned := start_every (OrderRecord.versioned_replay _) log
  records := by
    cases log with
    | none => exact fun _ _ hr => by cases hr
    | some log => exact hlog log rfl config.defaultVenue
  logged log' hl := by
    have hl : (Oms.start config log).log = some log' := hl
    rw [log_start] at hl
    obtain ⟨log, rfl, rfl⟩ := Option.map_eq_some_iff.mp hl
    exact ⟨hlog log rfl, fun _ hm => (by cases hm)⟩

theorem measured_step (h : s.oms.ledger.Measured) (hs : s.step a = some t)
    (hmeasured : s.measured a) : t.oms.ledger.Measured := by
  by_cases ha : a.live
  · rcases ledger_step_cases hs ha with ⟨orders, rfl, hp, rfl⟩ | hledger
    · constructor
      · exact fun id record hr =>
          h.versioned id record ((KeyedList.find?_of_perm hp id).symm.trans hr)
      · exact fun id record hr =>
          h.records id record ((KeyedList.find?_of_perm hp id).symm.trans hr)
      · exact h.logged
    · rw [hledger]
      refine h.enterAll (fun entry hm record hb => ?_) hmeasured
      have henters := s.enters_of_mem hm
      exact ⟨henters.legTable_inserted hb, henters.measured_inserted hb⟩
  · cases a <;> try exact absurd rfl ha
    obtain rfl := restart_cases hs
    apply start_measured
    intro log hlog
    obtain ⟨log, hl, rfl⟩ := Option.map_eq_some_iff.mp hlog
    exact (h.logged log hl).close

/-- Readable fills are enough for the projection. -/
theorem projectedPosition_isSome (h : s.oms.ledger.Every OrderRecord.Measured) (symbol : String)
    (replace : Option OrderRecord) (side : Side) (quantity : String) :
    (s.oms.projectedPosition symbol replace side quantity).isSome := by
  rw [Option.isSome_iff_ne_none, ne_eq, Oms.projectedPosition_eq_none_iff]
  rintro ⟨record, hm, -, hworking, -, error, herror⟩
  have hopen : isTerminal record.state = false := by
    simp only [OrderRecord.working, Bool.and_eq_true, Bool.not_eq_true'] at hworking
    exact hworking.1
  rcases h _ record (KeyedList.find?_of_mem_toList hm) with hterminal | ⟨filled, hparse⟩
  · rw [hopen] at hterminal
    cases hterminal
  · rw [hparse] at herror
    cases herror

theorem riskCheck_ne_threw (h : s.oms.ledger.Every OrderRecord.Measured) (symbol : String)
    (replace : Option OrderRecord) (side : Side) (price quantity : String) :
    s.oms.riskCheck symbol replace side price quantity ≠ .threw := by
  obtain ⟨position, hposition⟩ :=
    Option.isSome_iff_exists.mp (projectedPosition_isSome h symbol replace side quantity)
  unfold Oms.riskCheck
  rw [hposition]
  cases s.oms.risk.limitsFor symbol with
  | none => exact fun he => by cases he
  | some limits =>
    dsimp only
    split
    · exact fun he => by cases he
    · exact fun he => by cases he

/-- In every run, restarts included, in which no open order is adopted with a fill that does not
parse, from a log that replays to readable fills: the projection of every place and amend reads
only parsed values, and the risk step completes. -/
theorem projection_never_throws (config : Config) (log : Option EventLog)
    (hlog : ∀ l, log = some l → l.Measured)
    (h : Transition.Reaches step (fun s a => s.measured a) (boot config log) s) :
    (∀ symbol replace side quantity,
      (s.oms.projectedPosition symbol replace side quantity).isSome) ∧
    (∀ request venue, (s.oms.placeStage request venue).2 ≠ .threw) ∧
    ∀ command, (s.oms.amendStage command).2 ≠ .threw := by
  have hmeasured : s.oms.ledger.Measured :=
    Transition.Reaches.invariant (I := fun s => s.oms.ledger.Measured)
      (fun _ _ _ hI ha hs => measured_step hI hs ha) h (start_measured config hlog)
  have hrisk := riskCheck_ne_threw hmeasured.records
  refine ⟨projectedPosition_isSome hmeasured.records, fun request venue => ?_, fun command => ?_⟩
  · exact Oms.placeStage_ne_threw (hrisk _ _ _ _ _)
  · exact Oms.amendStage_ne_threw hrisk

/-- A partially filled order of another session is adopted, with the venue's fill, and survives a
restart; the next place passes its risk check. -/
theorem projection_never_throws_adopted : ∃ s,
    Transition.Reaches step (fun s a => s.measured a) (boot .limited (some .fresh)) s ∧
      s.oms.projectedPosition "BTCUSDT" none .buy "5" = some "9" ∧
      (s.oms.placeStage .sample "").2 ≠ .threw := by
  have hrun : (Transition.exec step (fun s a => s.measured a) (boot .limited (some .fresh))
    [.reconcile, .listed 0 (.ok [⟨"x1", "7", "BTCUSDT", .partiallyFilled, .buy, .limit, "100",
      "4", "1.5", "100"⟩]), .restart .limited true]).isSome := by decide
  have hreach := Transition.reaches_get_exec hrun
  have hfresh : EventLog.fresh.Measured := fun _ _ _ hr => by cases hr
  have hplace := (projection_never_throws .limited (some .fresh)
    (fun l hl => by cases hl; exact hfresh) hreach).2.1 .sample ""
  exact ⟨_, hreach, rfl, hplace⟩

/-- An open order listed with a fill that is no decimal is adopted as it is: from then on every
place on the instrument throws. -/
theorem projection_throws_after_adoption : ∃ s, LiveRun (boot .limited (some .fresh)) s ∧
    s.oms.projectedPosition "BTCUSDT" none .buy "5" = none ∧
      (s.oms.placeStage .sample "").2 = .threw := by
  have hrun : (Transition.exec step (fun _ a => a.live) (boot .limited (some .fresh))
    [.reconcile, .listed 0 (.ok [⟨"x1", "7", "BTCUSDT", .partiallyFilled, .buy, .limit, "100",
      "4", "-1.5", "100"⟩])]).isSome := by decide
  exact ⟨_, Transition.reaches_get_exec hrun, rfl, rfl⟩

end System

end ExchangeGateway
