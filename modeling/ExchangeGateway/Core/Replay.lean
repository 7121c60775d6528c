import ExchangeGateway.Core.Exclusive

/-! Log replay reproduces the lifecycle: the registry rebuilt from the events written so far has
the same orders, each in the same state with the same fills and rejection. -/
namespace ExchangeGateway

/-- The part of a record the log must bring back whatever happens to its legs and terms. -/
structure Lifecycle where
  state : OrderState
  filledQuantity : String
  averageFillPrice : String
  rejection : Option Error
  deriving DecidableEq, Repr

def OrderRecord.lifecycle (record : OrderRecord) : Lifecycle :=
  ⟨record.state, record.filledQuantity, record.averageFillPrice, record.rejection⟩

def Lifecycle.initial : Lifecycle := ⟨.pending, "0", "", none⟩

namespace OrderRecord

/-! ### Replay of one event over one record -/

@[simp] theorem clientOrderId_replayAmended (record : OrderRecord) (event : Json) :
    (record.replayAmended event).clientOrderId = record.clientOrderId := by
  unfold replayAmended
  dsimp only
  split
  · unfold replayLegacyAmend
    dsimp only
    split <;> exact clientOrderId_noteExchangeId _ _
  · rfl

@[simp] theorem clientOrderId_replayState (record : OrderRecord) (event : Json) :
    (record.replayState event).clientOrderId = record.clientOrderId := by
  unfold replayState
  split
  · rfl
  · dsimp only
    split <;> simp

theorem lifecycle_noteExchangeId (record : OrderRecord) (id : String) :
    (record.noteExchangeId id).lifecycle = record.lifecycle := by
  obtain ⟨_, _, h⟩ := record.noteExchangeId_spec id
  rw [h]
  rfl

/-- Writing an observed fill into an event and observing it again changes nothing more. -/
theorem observeFill_replayed {record : OrderRecord} {filled avgPrice filled' avgPrice' : String}
    (h : record.FillObserved filled avgPrice filled' avgPrice') :
    (record.observeFill filled' avgPrice').1 =
      { record with filledQuantity := filled', averageFillPrice := avgPrice' } := by
  rcases h with ⟨rfl, rfl⟩ | ⟨reported, current, hf, hr, hc, hgt, rfl, rfl⟩
  · rcases record.observeFill_cases record.filledQuantity record.averageFillPrice with
      h | ⟨reported, current, hf, hr, hc, hgt, -⟩
    · rw [h]
    · rw [filledText_of_parse hr, hr] at hc
      obtain rfl := Except.ok.inj hc
      rw [Decimal.compare_self] at hgt
      cases hgt
  · simp only [observeFill, hf, hr, hc, hgt, if_false, if_true, mk.injEq, true_and, and_true]
    split_ifs <;> simp_all

theorem observeState_replayed {record : OrderRecord} {state : OrderState}
    (h : state = record.state ∨ canTransition record.state state) :
    (record.observeState state).1 = { record with state := state } := by
  rcases record.observeState_cases state with hs | ⟨-, -, hs⟩
  · rcases h with rfl | hc
    · rw [hs]
    · by_cases he : state = record.state
      · rw [hs, he]
      · simp [observeState, he, applyTransition_eq, hc] at hs
  · rw [hs]

/-- Replaying the `state` event of an observed record over any record with the lifecycle it was
observed from. -/
theorem replayState_stateEvent {old new replayed : OrderRecord}
    (hstate : new.state = old.state ∨ canTransition old.state new.state)
    (hfill : ∃ filled avgPrice,
      old.FillObserved filled avgPrice new.filledQuantity new.averageFillPrice)
    (h : replayed.lifecycle = old.lifecycle) :
    (replayed.replayState (stateEvent new)).lifecycle =
      ⟨new.state, new.filledQuantity, new.averageFillPrice, old.rejection⟩ := by
  obtain ⟨hs, hf, ha, hr⟩ := Lifecycle.mk.inj h
  obtain ⟨filled, avgPrice, hfill⟩ := hfill
  have htext : replayed.filledText = old.filledText := by simp only [filledText, hf]
  have hfill' : replayed.FillObserved filled avgPrice new.filledQuantity new.averageFillPrice := by
    unfold FillObserved at hfill ⊢
    rwa [hf, ha, htext]
  have hobserve : (replayed.applyObservation new.state new.filledQuantity new.averageFillPrice ""
      "" true).1.lifecycle =
        ⟨new.state, new.filledQuantity, new.averageFillPrice, old.rejection⟩ := by
    simp only [applyObservation, if_true, observePrice_empty, observeQuantity_empty,
      observeFill_replayed hfill']
    rw [observeState_replayed (by simpa [hs] using hstate)]
    simp only [lifecycle, hr]
  have hparse : parseOrderState ((eventString (stateEvent new) "state").getD "") =
      some new.state := parseOrderState_toString new.state
  unfold replayState
  rw [hparse]
  dsimp only
  split
  · rw [lifecycle_noteExchangeId]
    exact hobserve
  · exact hobserve

/-- An `amended` event carries no lifecycle. -/
theorem replayAmended_amendedEvent {new replayed : OrderRecord}
    (h : replayed.state = new.state) :
    (replayed.replayAmended (amendedEvent new)).lifecycle = replayed.lifecycle := by
  have hparse : parseOrderState ((eventString (amendedEvent new) "state").getD "") =
      some new.state := parseOrderState_toString new.state
  unfold replayAmended
  dsimp only
  split
  · unfold replayLegacyAmend
    rw [hparse]
    dsimp only
    split
    · rename_i hc
      obtain ⟨hlive, hcanceled⟩ := hc
      rw [state_noteExchangeId, show (replayed.replayTerms _).state = replayed.state from rfl, h,
        Option.some.inj hlive] at hcanceled
      cases hcanceled
    · rw [lifecycle_noteExchangeId]
      rfl
  · rfl

end OrderRecord

namespace OrderRecord

/-- The lifecycle of the second record is an observation made on the first. -/
structure Observes (old new : OrderRecord) : Prop where
  state : new.state = old.state ∨ canTransition old.state new.state
  fill : ∃ filled avgPrice,
    old.FillObserved filled avgPrice new.filledQuantity new.averageFillPrice
  rejection : new.rejection = old.rejection

theorem Observes.of_lifecycle {old mid new : OrderRecord} (h : Observes mid new)
    (hl : mid.lifecycle = old.lifecycle) : Observes old new := by
  obtain ⟨hs, hf, ha, hr⟩ := Lifecycle.mk.inj hl
  have htext : mid.filledText = old.filledText := by simp only [filledText, hf]
  obtain ⟨filled, avgPrice, hfill⟩ := h.fill
  refine ⟨hs ▸ h.state, ⟨filled, avgPrice, ?_⟩, h.rejection.trans hr⟩
  unfold FillObserved at hfill ⊢
  rwa [← hf, ← ha, ← htext]

/-- An observation over a record with the old lifecycle; without a change the lifecycle stays. -/
theorem observes_applyObservation {old mid : OrderRecord} (h : mid.lifecycle = old.lifecycle)
    (state : OrderState) (filled avgPrice price quantity : String) (lifecycle : Bool) :
    Observes old (mid.applyObservation state filled avgPrice price quantity lifecycle).1 ∧
      ((mid.applyObservation state filled avgPrice price quantity lifecycle).2 = false →
        (mid.applyObservation state filled avgPrice price quantity lifecycle).1.lifecycle =
          old.lifecycle) := by
  obtain ⟨state', filled', avgPrice', _, _, changed, heq, hfill, hstate, -, -, hsame⟩ :=
    mid.applyObservation_spec state filled avgPrice price quantity lifecycle
  rw [heq]
  have hs : state' = mid.state ∨ canTransition mid.state state' := by
    rcases hstate with hs | ⟨-, rfl, hc⟩
    · exact .inl hs
    · exact .inr hc
  refine ⟨Observes.of_lifecycle ⟨hs, ⟨filled, avgPrice, hfill⟩, rfl⟩ h, fun hc => ?_⟩
  obtain ⟨hs', hf', ha', -, -⟩ := hsame hc
  rw [← h]
  simp only [OrderRecord.lifecycle, hs', hf', ha']

theorem lifecycle_learn (record : OrderRecord) (id : String) :
    (record.learn id).lifecycle = record.lifecycle := by
  unfold learn
  split
  · exact lifecycle_noteExchangeId record id
  · rfl

theorem observes_arbitrate (record : OrderRecord) (report : ExecutionReport) :
    Observes record (record.arbitrate report).1 ∧ ((record.arbitrate report).2 = false →
      (record.arbitrate report).1.lifecycle = record.lifecycle) :=
  observes_applyObservation (record.lifecycle_learn _) _ _ _ _ _ _

/-- A snapshot over a record with the old lifecycle; `noted` is a change of another kind. -/
private theorem observes_snapshot {old mid : OrderRecord} (h : mid.lifecycle = old.lifecycle)
    (snapshot : OrderSnapshot) (noted : Bool) :
    Observes old (Oms.observeSnapshot mid snapshot).1 ∧
      ((noted || (Oms.observeSnapshot mid snapshot).2) = false →
        (Oms.observeSnapshot mid snapshot).1.lifecycle = old.lifecycle) := by
  obtain ⟨hobserves, hsame⟩ := observes_applyObservation h snapshot.state snapshot.filledQuantity
    snapshot.averageFillPrice snapshot.price snapshot.quantity true
  constructor
  · exact hobserves
  · intro hc
    exact hsame (Bool.or_eq_false_iff.mp hc).2

theorem observes_refreshed (record : OrderRecord) (snapshot : OrderSnapshot) :
    Observes record (Oms.refreshed record snapshot).1 ∧
      ((Oms.refreshed record snapshot).2 = false →
        (Oms.refreshed record snapshot).1.lifecycle = record.lifecycle) := by
  unfold Oms.refreshed
  dsimp only
  split
  · exact observes_snapshot (record.lifecycle_noteExchangeId _) snapshot _
  · exact observes_snapshot rfl snapshot _

theorem observes_resolve (record : OrderRecord) (snapshot : OrderSnapshot) :
    Observes record (record.resolve snapshot).1 ∧ ((record.resolve snapshot).2 = false →
      (record.resolve snapshot).1.lifecycle = record.lifecycle) := by
  unfold resolve
  dsimp only
  split
  · exact observes_snapshot (record.lifecycle_noteExchangeId _) snapshot _
  · exact observes_snapshot rfl snapshot _

theorem observes_cancel {record : OrderRecord} {id : String}
    (hc : canTransition (record.noteExchangeId id).state .canceled) :
    Observes record { record.noteExchangeId id with state := .canceled } := by
  obtain ⟨_, _, h⟩ := record.noteExchangeId_spec id
  rw [h] at hc ⊢
  exact ⟨.inr hc, ⟨"", "", .inl ⟨rfl, rfl⟩⟩, rfl⟩

end OrderRecord

/-! ### Replay of one event into a registry -/

private theorem clientOrderId_getD_blank (orders : Registry) (id : String) :
    ((orders.find? id).getD (.blank id)).clientOrderId = id := by
  cases hf : orders.find? id with
  | none => rfl
  | some record =>
    have hk := KeyedList.key_of_find? hf
    exact hk

/-- An event is about one client order. -/
theorem find?_applyLogEvent_of_ne {event : Json} {key id : String}
    (h : eventString event "clientOrderId" = some key) (hne : key ≠ id) (defaultVenue : String)
    (orders : Registry) : (applyLogEvent defaultVenue orders event).find? id = orders.find? id := by
  have hset (new : OrderRecord) (hk : new.clientOrderId = key) :
      (orders.set new).find? id = orders.find? id :=
    KeyedList.find?_set_of_ne orders (fun e => hne (hk.symm.trans e))
  unfold applyLogEvent
  rw [h]
  cases eventString event "type" with
  | none => rfl
  | some type =>
    dsimp only
    split
    · exact hset _ rfl
    · split
      · exact hset _ (clientOrderId_getD_blank orders key)
      · split
        · split
          · rfl
          · rename_i record hf
            exact hset _ ((record.clientOrderId_replayAmended event).trans
              (KeyedList.key_of_find? hf))
        · split
          · split
            · rfl
            · rename_i record hf
              exact hset _ ((record.clientOrderId_replayState event).trans
                (KeyedList.key_of_find? hf))
          · rfl

/-- The events of an entry leave the other orders alone. -/
theorem Entry.find?_replay_write_of_ne {entry : Entry} {old : Option OrderRecord}
    (hold : ∀ record, old = some record → record.clientOrderId = entry.key) {id : String}
    (hk : entry.key ≠ id) (defaultVenue : String) (orders : Registry) :
    ((entry.write old).2.foldl (applyLogEvent defaultVenue) orders).find? id =
      orders.find? id := by
  have hforeign : ∀ event ∈ (entry.write old).2,
      eventString event "clientOrderId" = some entry.key := by
    intro event hm
    obtain ⟨record, hr, ⟨-, rfl⟩ | rfl | ⟨-, rfl⟩ | rfl | ⟨-, rfl⟩ | rfl⟩ :=
      Entry.event_of_mem_write hold hm
    all_goals exact congrArg some hr
  generalize (entry.write old).2 = events at hforeign
  induction events generalizing orders with
  | nil => rfl
  | cons event events ih =>
    rw [List.foldl_cons, ih _ fun e he => hforeign e (List.mem_cons_of_mem event he),
      find?_applyLogEvent_of_ne (hforeign event List.mem_cons_self) hk]

section Self

variable (defaultVenue : String) (orders : Registry) (record : OrderRecord)
  {replayed : OrderRecord}

theorem find?_placeSubmittedEvent :
    (applyLogEvent defaultVenue orders (placeSubmittedEvent record)).find?
      record.clientOrderId = some (recordFromEvent defaultVenue "place_submitted"
        record.clientOrderId (placeSubmittedEvent record)) :=
  KeyedList.find?_set_self orders (recordFromEvent defaultVenue "place_submitted"
    record.clientOrderId (placeSubmittedEvent record))

theorem find?_placeAcceptedEvent :
    (applyLogEvent defaultVenue orders (placeAcceptedEvent record)).find?
      record.clientOrderId = some (recordFromEvent defaultVenue "place_accepted"
        record.clientOrderId (placeAcceptedEvent record)) :=
  KeyedList.find?_set_self orders (recordFromEvent defaultVenue "place_accepted"
    record.clientOrderId (placeAcceptedEvent record))

theorem find?_adoptedEvent :
    (applyLogEvent defaultVenue orders (adoptedEvent record)).find?
      record.clientOrderId = some (recordFromEvent defaultVenue "adopted"
        record.clientOrderId (adoptedEvent record)) :=
  KeyedList.find?_set_self orders (recordFromEvent defaultVenue "adopted"
    record.clientOrderId (adoptedEvent record))

theorem find?_rejectedEvent :
    (applyLogEvent defaultVenue orders (rejectedEvent record)).find? record.clientOrderId =
      some (((orders.find? record.clientOrderId).getD
        (.blank record.clientOrderId)).replayRejected defaultVenue (rejectedEvent record)) := by
  have hk : (((orders.find? record.clientOrderId).getD
      (.blank record.clientOrderId)).replayRejected defaultVenue
        (rejectedEvent record)).clientOrderId = record.clientOrderId :=
    clientOrderId_getD_blank orders record.clientOrderId
  have hset := KeyedList.find?_set_self orders (((orders.find? record.clientOrderId).getD
    (.blank record.clientOrderId)).replayRejected defaultVenue (rejectedEvent record))
  rw [hk] at hset
  exact hset

theorem find?_amendedEvent (h : orders.find? record.clientOrderId = some replayed) :
    (applyLogEvent defaultVenue orders (amendedEvent record)).find? record.clientOrderId =
      some (replayed.replayAmended (amendedEvent record)) := by
  have htype : eventString (amendedEvent record) "type" = some "amended" := rfl
  have hid : eventString (amendedEvent record) "clientOrderId" = some record.clientOrderId := rfl
  have happly : applyLogEvent defaultVenue orders (amendedEvent record) =
      orders.set (replayed.replayAmended (amendedEvent record)) := by
    simp [applyLogEvent, htype, hid, h]
  have hk := (replayed.clientOrderId_replayAmended (amendedEvent record)).trans
    (KeyedList.key_of_find? h)
  rw [happly, ← hk]
  exact KeyedList.find?_set_self _ _

theorem find?_stateEvent (h : orders.find? record.clientOrderId = some replayed) :
    (applyLogEvent defaultVenue orders (stateEvent record)).find? record.clientOrderId =
      some (replayed.replayState (stateEvent record)) := by
  have htype : eventString (stateEvent record) "type" = some "state" := rfl
  have hid : eventString (stateEvent record) "clientOrderId" = some record.clientOrderId := rfl
  have happly : applyLogEvent defaultVenue orders (stateEvent record) =
      orders.set (replayed.replayState (stateEvent record)) := by
    simp [applyLogEvent, htype, hid, h]
  have hk := (replayed.clientOrderId_replayState (stateEvent record)).trans
    (KeyedList.key_of_find? h)
  rw [happly, ← hk]
  exact KeyedList.find?_set_self _ _

end Self

/-! ### The simulation -/

def EventLog.Reliable (log : EventLog) : Prop := log.isOpen ∧ ∀ n, log.fate n = .written

/-- Every append succeeds, and nothing is left to write. -/
structure EventLog.Steady (log : EventLog) : Prop where
  reliable : log.Reliable
  buffer : log.buffer = []

namespace EventLog.Steady

variable {log : EventLog}

theorem torn (h : log.Steady) : log.torn = false := by
  rw [Bool.eq_false_iff]
  exact fun htorn => log.buffer_of_torn htorn h.buffer

theorem append (h : log.Steady) (event : Json) :
    (log.append event).1.events = log.events ++ [event] ∧ (log.append event).1.Steady := by
  obtain ⟨ho, hw⟩ := h.reliable
  constructor
  · rw [events_append]
    simp [brought, ho, hw, h.buffer, h.torn, Fate.carried]
  · refine ⟨⟨?_, fun n => ?_⟩, ?_⟩ <;> simp [EventLog.append, receive, ho, hw]

theorem appendAll (h : log.Steady) (events : List Json) :
    (log.appendAll events).events = log.events ++ events ∧ (log.appendAll events).Steady := by
  induction events generalizing log with
  | nil => exact ⟨(List.append_nil _).symm, h⟩
  | cons event events ih =>
    obtain ⟨he, hr⟩ := h.append event
    obtain ⟨he', hr'⟩ := ih hr
    refine ⟨he'.trans ?_, hr'⟩
    rw [he, List.append_assoc]
    rfl

theorem ready (h : log.Steady) : log.ready := by
  obtain ⟨ho, hw⟩ := h.reliable
  simp [EventLog.ready, ho, hw]

theorem close (h : log.Steady) : log.close.events = log.events := by
  obtain ⟨ho, hw⟩ := h.reliable
  simp [EventLog.close, receive, ho, hw, h.buffer, h.torn, Fate.carried]

end EventLog.Steady

theorem EventLog.Reliable.restarted {log : EventLog} (h : log.Reliable) :
    EventLog.Reliable { log.close with isOpen := true } := by
  refine ⟨rfl, fun n => ?_⟩
  simp [EventLog.close, receive, h.1, h.2]

theorem EventLog.Reliable.reopen {log : EventLog} (h : log.Reliable) : log.reopen.Steady :=
  ⟨h, rfl⟩

def SameLifecycles (orders orders' : Registry) : Prop :=
  ∀ id, (orders.find? id).map OrderRecord.lifecycle =
    (orders'.find? id).map OrderRecord.lifecycle

namespace Ledger

/-- The log brings the registry back, as far as lifecycles go. -/
def ReplaysLifecycle (ledger : Ledger) (defaultVenue : String) : Prop :=
  ∃ log, ledger.log = some log ∧ log.Steady ∧
    SameLifecycles (replay defaultVenue (.empty _) log.events) ledger.orders

/-- What the replay of a place relies on: a staging was persisted, a risk rejection is new, an
accepted order is still as it was staged. -/
def Timely (ledger : Ledger) : Entry → Prop
  | .riskRejected record => ledger.orders.find? record.clientOrderId = none ∧
      ∃ error, record.lifecycle = ⟨.rejected, "0", "", some error⟩
  | .staged record persisted => persisted ∧ record.lifecycle = .initial
  | .accepted id _ => ∀ record, ledger.orders.find? id = some record →
      record.lifecycle = .initial
  | _ => True

end Ledger

section Write

variable {orders : Registry} {old new replayed : OrderRecord} (defaultVenue : String)

private theorem lifecycle_replay_observed (hobs : old.Observes new) (changed : Bool)
    (hsame : changed = false → new.lifecycle = old.lifecycle) {key : String}
    (hkey : new.clientOrderId = key) (hf : orders.find? key = some replayed)
    (hl : replayed.lifecycle = old.lifecycle) :
    (((if changed then [stateEvent new] else []).foldl (applyLogEvent defaultVenue) orders).find?
      key).map OrderRecord.lifecycle = some new.lifecycle := by
  subst hkey
  cases changed with
  | false => simpa [hf] using hl.trans (hsame rfl).symm
  | true =>
    have hreplay := OrderRecord.replayState_stateEvent hobs.state hobs.fill hl
    simp only [if_true, List.foldl_cons, List.foldl_nil, find?_stateEvent _ _ new hf,
      Option.map_some, hreplay, ← hobs.rejection]
    rfl

/-- An acked order starts over in the log. -/
private theorem lifecycle_replay_accepted (hinit : old.lifecycle = .initial)
    (exchangeOrderId : String) :
    ((applyLogEvent defaultVenue orders
      (placeAcceptedEvent (old.accept exchangeOrderId))).find? old.clientOrderId).map
        OrderRecord.lifecycle = some (old.accept exchangeOrderId).lifecycle := by
  have hkey : (old.accept exchangeOrderId).clientOrderId = old.clientOrderId := by
    simp [OrderRecord.accept]
  obtain ⟨_, _, hnote⟩ := old.noteExchangeId_spec exchangeOrderId
  obtain ⟨hs, hf, ha, hr⟩ := Lifecycle.mk.inj hinit
  have haccept : (old.accept exchangeOrderId).lifecycle = ⟨.live, "0", "", none⟩ := by
    simp only [OrderRecord.accept, hnote, OrderRecord.lifecycle, hs, hf, ha, hr]
    rfl
  rw [haccept, ← hkey, find?_placeAcceptedEvent]
  rfl

private theorem lifecycle_replay_amended (hf : orders.find? old.clientOrderId = some replayed)
    (hl : replayed.lifecycle = old.lifecycle) (price quantity exchangeOrderId : String) :
    ((applyLogEvent defaultVenue orders
      (amendedEvent (old.amend price quantity exchangeOrderId))).find? old.clientOrderId).map
        OrderRecord.lifecycle = some (old.amend price quantity exchangeOrderId).lifecycle := by
  obtain ⟨_, _, hamend⟩ := OrderRecord.appendAmendLeg_spec
    { old with price := price, quantity := quantity } exchangeOrderId
  have hnew : (old.amend price quantity exchangeOrderId).lifecycle = old.lifecycle := by
    simp only [OrderRecord.amend, hamend]
    rfl
  have hkey := old.clientOrderId_amend price quantity exchangeOrderId
  rw [← hkey] at hf ⊢
  rw [find?_amendedEvent _ _ _ hf, Option.map_some,
    OrderRecord.replayAmended_amendedEvent, hl, hnew]
  exact congrArg Lifecycle.state (hl.trans hnew.symm)

private theorem lifecycle_replay_rejected {error : Error}
    (hf : orders.find? old.clientOrderId = some replayed)
    (hl : replayed.filledQuantity = old.filledQuantity ∧
      replayed.averageFillPrice = old.averageFillPrice) :
    ((applyLogEvent defaultVenue orders (rejectedEvent (old.reject error))).find?
      old.clientOrderId).map OrderRecord.lifecycle = some (old.reject error).lifecycle := by
  have hreplay := find?_rejectedEvent defaultVenue orders (old.reject error)
  rw [show (old.reject error).clientOrderId = old.clientOrderId from rfl, hf] at hreplay
  rw [hreplay]
  simp only [Option.map_some, Option.getD_some, OrderRecord.lifecycle, OrderRecord.replayRejected,
    OrderRecord.reject, hl.1, hl.2]
  rfl

end Write

section View

variable {γ : Type} {view : OrderRecord → γ} {ledger : Ledger} {entry : Entry} {orders : Registry}
  {old : Option OrderRecord} (hold : ledger.orders.find? entry.key = old) {defaultVenue : String}

include hold

theorem map_replay_of_kept (hview : (orders.find? entry.key).map view = old.map view)
    (hw : entry.write old = (none, [])) :
    (((entry.write old).2.foldl (applyLogEvent defaultVenue) orders).find? entry.key).map view =
      ((ledger.enter entry).orders.find? entry.key).map view := by
  rw [ledger.enter_none entry hold hw, hold, hw]
  exact hview

theorem map_replay_of_written {new : OrderRecord} {events : List Json}
    (hw : entry.write old = (some new, events))
    (hr : ((events.foldl (applyLogEvent defaultVenue) orders).find? entry.key).map view =
      some (view new)) :
    (((entry.write old).2.foldl (applyLogEvent defaultVenue) orders).find? entry.key).map view =
      ((ledger.enter entry).orders.find? entry.key).map view := by
  rw [ledger.find?_enter_of_write entry hold (congrArg Prod.fst hw), hw]
  exact hr

end View

private theorem lifecycle_replay_update {ledger : Ledger} {entry : Entry} {orders : Registry}
    {old replayed : OrderRecord} (hold : ledger.orders.find? entry.key = some old)
    (htimely : ledger.Timely entry) (hf : orders.find? entry.key = some replayed)
    (hl : replayed.lifecycle = old.lifecycle) (defaultVenue : String) :
    (((entry.write (some old)).2.foldl (applyLogEvent defaultVenue) orders).find?
      entry.key).map OrderRecord.lifecycle =
      ((ledger.enter entry).orders.find? entry.key).map OrderRecord.lifecycle := by
  have hkey : old.clientOrderId = entry.key := KeyedList.key_of_find? hold
  have hview : (orders.find? entry.key).map OrderRecord.lifecycle =
      (some old).map OrderRecord.lifecycle := by
    rw [hf]
    exact congrArg some hl
  cases entry with
  | riskRejected record =>
    cases htimely.1.symm.trans hold
  | staged record persisted =>
    obtain ⟨rfl, hinit⟩ := htimely
    refine map_replay_of_written hold rfl ?_
    simp only [List.foldl_cons, List.foldl_nil, Entry.key, find?_placeSubmittedEvent,
      Option.map_some, hinit]
    rfl
  | accepted id exchangeOrderId =>
    obtain rfl : old.clientOrderId = id := hkey
    exact map_replay_of_written hold rfl (lifecycle_replay_accepted defaultVenue (htimely old hold) _)
  | rejected id error =>
    by_cases ht : isTerminal old.state
    · exact map_replay_of_kept hold hview (by simp [Entry.write, ht])
    · refine map_replay_of_written hold (by simp only [Entry.write, ht]; rfl) ?_
      obtain rfl : old.clientOrderId = id := hkey
      obtain ⟨-, hfill, havg, -⟩ := Lifecycle.mk.inj hl
      exact lifecycle_replay_rejected defaultVenue hf ⟨hfill, havg⟩
  | canceled id exchangeOrderId =>
    by_cases hc : canTransition (old.noteExchangeId exchangeOrderId).state .canceled
    · refine map_replay_of_written hold (by simp only [Entry.write, hc]; rfl) ?_
      exact lifecycle_replay_observed defaultVenue (OrderRecord.observes_cancel hc) true (fun h => by cases h)
        (by simpa using hkey) hf hl
    · refine map_replay_of_written hold (by simp only [Entry.write, hc]; rfl) ?_
      rw [OrderRecord.lifecycle_noteExchangeId]
      simpa [hf] using hl
  | amended id price quantity exchangeOrderId =>
    obtain rfl : old.clientOrderId = id := hkey
    exact map_replay_of_written hold rfl (lifecycle_replay_amended defaultVenue hf hl _ _ _)
  | discovered id exchangeOrderId =>
    refine map_replay_of_written hold rfl ?_
    rw [OrderRecord.lifecycle_noteExchangeId]
    simpa [hf] using hl
  | reported id report =>
    obtain ⟨hobs, hsame⟩ := old.observes_arbitrate report
    exact map_replay_of_written hold rfl
      (lifecycle_replay_observed defaultVenue hobs _ hsame (by simpa using hkey) hf hl)
  | listed venue snapshot =>
    obtain ⟨hobs, hsame⟩ := old.observes_refreshed snapshot
    exact map_replay_of_written hold rfl
      (lifecycle_replay_observed defaultVenue hobs _ hsame (by simpa using hkey) hf hl)
  | resolved id snapshot =>
    obtain ⟨hobs, hsame⟩ := old.observes_resolve snapshot
    exact map_replay_of_written hold rfl
      (lifecycle_replay_observed defaultVenue hobs _ hsame (by simpa using hkey) hf hl)
  | absent id =>
    by_cases ht : isTerminal old.state
    · exact map_replay_of_kept hold hview (by simp [Entry.write, ht])
    · refine map_replay_of_written hold (by simp only [Entry.write, ht]; rfl) ?_
      obtain rfl : old.clientOrderId = id := hkey
      have hstate : (replayed.replayState (stateEvent (old.reject ⟨"venue_absent",
          "order is unknown to the venue after reconciliation"⟩))).lifecycle = _ :=
        OrderRecord.replayState_stateEvent (.inr (canTransition_rejected_iff.mpr ht))
          ⟨"", "", .inl ⟨rfl, rfl⟩⟩ hl
      obtain ⟨-, hfill, havg, -⟩ := Lifecycle.mk.inj hstate
      exact lifecycle_replay_rejected defaultVenue (find?_stateEvent _ _ _ hf) ⟨hfill, havg⟩

private theorem lifecycle_replay_insert {ledger : Ledger} {entry : Entry} {orders : Registry}
    (hold : ledger.orders.find? entry.key = none) (htimely : ledger.Timely entry)
    (hf : orders.find? entry.key = none) (defaultVenue : String) :
    (((entry.write none).2.foldl (applyLogEvent defaultVenue) orders).find?
      entry.key).map OrderRecord.lifecycle =
      ((ledger.enter entry).orders.find? entry.key).map OrderRecord.lifecycle := by
  cases entry with
  | riskRejected record =>
    obtain ⟨-, error, hl⟩ := htimely
    rw [ledger.find?_enter_of_write (.riskRejected record) hold rfl]
    have hreplay := find?_rejectedEvent defaultVenue orders record
    rw [show orders.find? record.clientOrderId = none from hf] at hreplay
    simp only [Entry.write, Entry.key, List.foldl_cons, List.foldl_nil, hreplay, Option.map_some, hl]
    obtain ⟨-, -, -, hr⟩ := Lifecycle.mk.inj hl
    simp only [OrderRecord.lifecycle, OrderRecord.replayRejected, rejectedEvent, hr]
    rfl
  | staged record persisted =>
    obtain ⟨rfl, hinit⟩ := htimely
    rw [ledger.find?_enter_of_write (.staged record true) hold rfl]
    simp only [Entry.write, Entry.key, List.foldl_cons, List.foldl_nil,
      find?_placeSubmittedEvent, Option.map_some, hinit]
    rfl
  | listed venue snapshot =>
    rw [ledger.find?_enter_of_write (.listed venue snapshot) hold rfl]
    have hreplay := find?_adoptedEvent defaultVenue orders
      (Oms.snapshotRecord snapshot venue true)
    have hparse : parseOrderState ((eventString (adoptedEvent
        (Oms.snapshotRecord snapshot venue true)) "state").getD "live") = some snapshot.state :=
      parseOrderState_toString snapshot.state
    refine (congrArg (Option.map OrderRecord.lifecycle) hreplay).trans ?_
    simp only [Option.map_some, OrderRecord.lifecycle, recordFromEvent, hparse]
    rfl
  | _ =>
    apply map_replay_of_kept hold _ rfl
    rw [hf]

namespace Ledger

theorem ReplaysLifecycle.enter {ledger : Ledger} {defaultVenue : String}
    (h : ledger.ReplaysLifecycle defaultVenue) {entry : Entry} (htimely : ledger.Timely entry) :
    (ledger.enter entry).ReplaysLifecycle defaultVenue := by
  obtain ⟨log, hlog, hrel, hsame⟩ := h
  obtain ⟨hevents, hrel'⟩ := hrel.appendAll (entry.write (ledger.orders.find? entry.key)).2
  refine ⟨_, by rw [log_enter, hlog]; rfl, hrel', fun id => ?_⟩
  rw [hevents, replay, List.foldl_append]
  change (KeyedList.find? (List.foldl _ (replay defaultVenue _ log.events) _) id).map _ = _
  by_cases hk : entry.key = id
  · subst hk
    have hkey := hsame entry.key
    cases hold : ledger.orders.find? entry.key with
    | none =>
      rw [hold, Option.map_none, Option.map_eq_none_iff] at hkey
      exact lifecycle_replay_insert hold htimely hkey defaultVenue
    | some old =>
      rw [hold, Option.map_some, Option.map_eq_some_iff] at hkey
      obtain ⟨replayed, hf, hl⟩ := hkey
      exact lifecycle_replay_update hold htimely hf hl defaultVenue
  · rw [find?_enter_of_ne ledger hk, ← hsame id]
    exact congrArg _ (Entry.find?_replay_write_of_ne (fun _ => KeyedList.key_of_find?) hk _ _)

def TimelyAll : Ledger → List Entry → Prop
  | _, [] => True
  | ledger, entry :: entries => ledger.Timely entry ∧ TimelyAll (ledger.enter entry) entries

theorem ReplaysLifecycle.enterAll {ledger : Ledger} {defaultVenue : String}
    (h : ledger.ReplaysLifecycle defaultVenue) {entries : List Entry}
    (htimely : ledger.TimelyAll entries) :
    (ledger.enterAll entries).ReplaysLifecycle defaultVenue := by
  induction entries generalizing ledger with
  | nil => exact h
  | cons entry entries ih => exact ih (h.enter htimely.1) htimely.2

/-- Entries that are timely anywhere are timely in any list. -/
theorem timelyAll_of_forall {entries : List Entry}
    (h : ∀ entry ∈ entries, ∀ ledger : Ledger, ledger.Timely entry) (ledger : Ledger) :
    ledger.TimelyAll entries := by
  induction entries generalizing ledger with
  | nil => trivial
  | cons entry entries ih =>
    exact ⟨h entry List.mem_cons_self ledger, ih (fun e hm => h e (List.mem_cons_of_mem entry hm)) _⟩

end Ledger

namespace System

variable {s t : System} {a : Action}

private theorem timelyAll_place (hp : s.oms.persists) (request : OrderRequest) (venue : String) :
    s.oms.ledger.TimelyAll (s.entries (.place request venue)) := by
  cases s.oms.placeStage_cases request venue with
  | unchanged _ hentries _ =>
    simp only [entries, hentries]
    trivial
  | riskRejected venue' rejection _ hnew hentries _ _ =>
    simp only [entries, hentries]
    exact ⟨⟨hnew, rejection, rfl⟩, trivial⟩
  | unpersisted _ _ _ hpersists _ _ _ =>
    rw [hp] at hpersists
    cases hpersists
  | opened venue' _ hnew hpersists _ hentries _ _ _ =>
    simp only [entries, hentries]
    exact ⟨⟨rfl, rfl⟩, trivial⟩

/-- The ack of a place finds the record as it was staged. -/
private theorem timelyAll_acked (h : s.Staged) (i : ℕ) (ack : OrderPlacement) :
    s.oms.ledger.TimelyAll (s.entries (.placed i (.ok ack))) := by
  simp only [entries]
  split
  · rename_i request connector staged sent hc
    obtain ⟨hl, venue, rfl⟩ := h.places _ _ _ _ (List.mem_of_getElem? hc)
    refine ⟨fun record hr => ?_, Ledger.timelyAll_of_forall (fun entry hm _ => ?_) _⟩
    · obtain rfl := Option.some.inj (hl.symm.trans hr)
      rfl
    · split at hm
      · obtain ⟨report, -, rfl⟩ := List.mem_map.mp hm
        trivial
      · cases hm
  · trivial

theorem timelyAll_entries (h : s.Staged) (hp : s.oms.persists) (a : Action) :
    s.oms.ledger.TimelyAll (s.entries a) := by
  by_cases hplace : ∃ request venue, a = .place request venue
  · obtain ⟨request, venue, rfl⟩ := hplace
    exact timelyAll_place hp request venue
  by_cases hack : ∃ i ack, a = .placed i (.ok ack)
  · obtain ⟨i, ack, rfl⟩ := hack
    exact timelyAll_acked h i ack
  refine Ledger.timelyAll_of_forall (fun entry hm ledger => ?_) _
  cases s.enters_of_mem hm with
  | riskRejected => exact absurd ⟨_, _, rfl⟩ hplace
  | staged => exact absurd ⟨_, _, rfl⟩ hplace
  | accepted => exact absurd ⟨_, _, rfl⟩ hack
  | _ => trivial

end System

/-- A restart finds the log open again. -/
def Action.reopens : Action → Bool
  | .restart _ logOpen => logOpen
  | _ => true

namespace System

variable {s t : System} {a : Action}

theorem replaysLifecycle_start (config : Config) {log : EventLog} (h : log.Reliable) :
    (Oms.start config (some log)).ledger.ReplaysLifecycle
      (Oms.start config (some log)).defaultVenue :=
  ⟨log.reopen, rfl, h.reopen, fun _ => rfl⟩

theorem replaysLifecycle_step (h : s.Staged)
    (hr : s.oms.ledger.ReplaysLifecycle s.oms.defaultVenue) (hs : s.step a = some t)
    (ha : a.reopens) : t.oms.ledger.ReplaysLifecycle t.oms.defaultVenue := by
  obtain ⟨log, hlog, hrel, hsame⟩ := hr
  by_cases hlive : a.live
  swap
  · cases a <;> try exact absurd rfl hlive
    rename_i config logOpen
    obtain rfl : logOpen = true := ha
    obtain rfl := restart_cases hs
    have hlog' : s.oms.log = some log := hlog
    rw [restart, hlog']
    exact replaysLifecycle_start config hrel.reliable.restarted
  have hvenue : t.oms.defaultVenue = s.oms.defaultVenue :=
    congrArg Config.defaultVenue (config_step hs hlive)
  rw [hvenue]
  rcases ledger_step_cases hs hlive with ⟨orders, rfl, hp, rfl⟩ | hledger
  · refine ⟨log, hlog, hrel, fun id => ?_⟩
    rw [hsame id]
    exact congrArg _ (KeyedList.find?_of_perm hp id).symm
  · have hp : s.oms.persists := by
      simp [Oms.persists, show s.oms.log = some log from hlog, hrel.ready]
    rw [hledger]
    exact Ledger.ReplaysLifecycle.enterAll ⟨log, hlog, hrel, hsame⟩ (timelyAll_entries h hp a)

/-- In every run in which every append succeeds, whatever the restarts: the log written so far,
replayed into an empty registry, brings back the same orders in the same state, with the same
fills and the same rejection. -/
theorem replay_lifecycle (config : Config) {log : EventLog} (hlog : log.Reliable) {s : System}
    (h : Transition.Reaches step (fun _ a => a.reopens) (boot config (some log)) s) :
    ∃ log', s.oms.log = some log' ∧ ∀ id,
      ((replay s.oms.defaultVenue (.empty _) log'.events).find? id).map OrderRecord.lifecycle =
        (s.oms.lookup id).map OrderRecord.lifecycle := by
  have hI : s.Staged ∧ s.oms.ledger.ReplaysLifecycle s.oms.defaultVenue :=
    Transition.Reaches.invariant
      (I := fun s => s.Staged ∧ s.oms.ledger.ReplaysLifecycle s.oms.defaultVenue)
      (fun _ _ _ hI ha hs => ⟨hI.1.step hs, replaysLifecycle_step hI.1 hI.2 hs ha⟩) h
      ⟨boot_staged config (some log), replaysLifecycle_start config hlog⟩
  obtain ⟨log', hlog', -, hsame⟩ := hI.2
  exact ⟨log', hlog', hsame⟩

/-- An order acked, amended while its old leg's reports race the ack, filled, across a restart. -/
theorem replay_lifecycle_restart : ∃ s,
    Transition.Reaches step (fun _ a => a.reopens) (boot .sample (some .fresh)) s ∧
      (s.oms.lookup "c1").map OrderRecord.lifecycle = some ⟨.filled, "5", "100", none⟩ ∧
      ∃ log', s.oms.log = some log' ∧ ∀ id,
        ((replay "binance" (.empty _) log'.events).find? id).map OrderRecord.lifecycle =
          (s.oms.lookup id).map OrderRecord.lifecycle := by
  have hrun : (Transition.exec step (fun _ a => a.reopens) (boot .sample (some .fresh))
    [.place .sample "", .send 0, .placed 0 (.ok ⟨"c1", "1"⟩), .amend ⟨"c1", some "101", none⟩,
      .report ⟨"c1", "1", .canceled, .buy, "2", "100"⟩, .amended 0 (.ok ⟨"c1", "2"⟩),
      .restart .sample true, .report ⟨"c1", "2", .filled, .buy, "5", "100"⟩]).isSome := by
    decide
  have hreach := Transition.reaches_get_exec hrun
  exact ⟨_, hreach, rfl, replay_lifecycle .sample ⟨rfl, fun _ => rfl⟩ hreach⟩

end System

end ExchangeGateway
