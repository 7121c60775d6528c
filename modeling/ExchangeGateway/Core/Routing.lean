import ExchangeGateway.Core.Legs
import ExchangeGateway.Core.Replay

/-! Log replay and the routing of an order: exchange id, leg table, price and quantity. Only part
of what changes them has a field in the events and a branch in the replay. -/
namespace ExchangeGateway

structure Routing where
  exchangeOrderId : String
  legs : List OrderLeg
  price : String
  quantity : String
  deriving DecidableEq, Repr

namespace OrderRecord

def routing (record : OrderRecord) : Routing :=
  ⟨record.exchangeOrderId, record.legs, record.price, record.quantity⟩

def movedBy (record : OrderRecord) (state : OrderState) (filled : String) : Bool :=
  record.raisesFill filled || (state ≠ record.state && canTransition record.state state)

def sameTerms (record : OrderRecord) (snapshot : OrderSnapshot) : Bool :=
  (snapshot.price = "" || snapshot.price = record.price) &&
    (snapshot.quantity = "" || snapshot.quantity = record.quantity)

end OrderRecord

/-- The write changes the routing in a way some event carries. -/
def Entry.recorded : Entry → Option OrderRecord → Bool
  | .canceled _ id, some record =>
    id = "" || id = record.exchangeOrderId ||
      (record.exchangeOrderId = "" && canTransition record.state .canceled)
  | .amended _ price quantity id, some record =>
    (price ≠ "" || record.price = "") && (quantity ≠ "" || record.quantity = "") &&
      (id ≠ "" || record.legs ≠ [])
  | .discovered _ _, some _ => false
  | .reported _ report, some record =>
    report.exchangeOrderId = "" || (record.legIndexOf report.exchangeOrderId).isSome ||
      (record.exchangeOrderId = "" && record.movedBy report.state report.filledQuantity)
  | .listed _ snapshot, some record => record.sameTerms snapshot
  | .resolved _ snapshot, some record =>
    record.sameTerms snapshot &&
      (snapshot.exchangeOrderId = "" || record.exchangeOrderId = "" ||
        (record.legIndexOf snapshot.exchangeOrderId).isSome)
  | _, _ => true

/-- The events of the step carry every change of routing it makes; risk-rejected orders are
exempt. -/
def System.records (s : System) (a : Action) : Bool :=
  s.oms.ledger.allEntries
    (fun entry record => entry.key ∈ s.trace.riskRejected || entry.recorded record) (s.entries a)

namespace OrderRecord

variable {record old new replayed : OrderRecord}

theorem routing_noteExchangeId (h : replayed.routing = record.routing) (id : String) :
    (replayed.noteExchangeId id).routing = (record.noteExchangeId id).routing := by
  obtain ⟨hid, hlegs, hprice, hquantity⟩ := Routing.mk.inj h
  unfold noteExchangeId
  rw [hid]
  split
  · exact h
  · simp only [pushLeg, routing, hlegs, hprice, hquantity]

/-- Without other terms an observation leaves the routing alone. -/
theorem routing_applyObservation (record : OrderRecord) (state : OrderState)
    (filled avgPrice : String) {price quantity : String} (lifecycle : Bool)
    (hprice : price = "" ∨ price = record.price)
    (hquantity : quantity = "" ∨ quantity = record.quantity) :
    (record.applyObservation state filled avgPrice price quantity lifecycle).1.routing =
      record.routing := by
  obtain ⟨_, _, _, price', quantity', _, heq, -, -, hp, hq, -⟩ :=
    record.applyObservation_spec state filled avgPrice price quantity lifecycle
  have hprice' : price' = record.price := by
    rcases hp with hp | ⟨-, hp, hne⟩
    · exact hp
    · rw [hp]
      exact hprice.resolve_left hne
  have hquantity' : quantity' = record.quantity := by
    rcases hq with hq | ⟨-, hq, hne⟩
    · exact hq
    · rw [hq]
      exact hquantity.resolve_left hne
  rw [heq]
  simp only [routing, hprice', hquantity']

theorem sameTerms_iff {snapshot : OrderSnapshot} :
    record.sameTerms snapshot ↔
      (snapshot.price = "" ∨ snapshot.price = record.price) ∧
        (snapshot.quantity = "" ∨ snapshot.quantity = record.quantity) := by
  simp [sameTerms]

theorem routing_observeSnapshot {snapshot : OrderSnapshot} (h : record.sameTerms snapshot) :
    (Oms.observeSnapshot record snapshot).1.routing = record.routing := by
  obtain ⟨hprice, hquantity⟩ := sameTerms_iff.mp h
  exact routing_applyObservation record _ _ _ _ hprice hquantity

/-- The only change of routing a `state` event can carry: the first exchange id. -/
def Backfills (old new : OrderRecord) : Prop :=
  new.routing =
    (if old.exchangeOrderId = "" then old.noteExchangeId new.exchangeOrderId else old).routing

theorem Backfills.of_eq (h : new.routing = old.routing) : Backfills old new := by
  unfold Backfills
  have hid : new.exchangeOrderId = old.exchangeOrderId := congrArg Routing.exchangeOrderId h
  split
  · rename_i hempty
    rw [hid, hempty, noteExchangeId_empty]
    exact h
  · exact h

theorem Backfills.of_noteExchangeId {id : String} (hempty : old.exchangeOrderId = "")
    (h : new.routing = (old.noteExchangeId id).routing) : Backfills old new := by
  have hid : new.exchangeOrderId = (old.noteExchangeId id).exchangeOrderId :=
    congrArg Routing.exchangeOrderId h
  unfold Backfills
  rw [if_pos hempty, h]
  by_cases hne : id = ""
  · rw [hid, hne, noteExchangeId_empty, hempty, noteExchangeId_empty]
  · rw [hid, exchangeOrderId_noteExchangeId hne]

theorem routing_replayState (h : replayed.routing = old.routing) (hnew : Backfills old new) :
    (replayed.replayState (stateEvent new)).routing = new.routing := by
  have hparse : parseOrderState ((eventString (stateEvent new) "state").getD "") =
      some new.state := parseOrderState_toString new.state
  have hfield : (eventString (stateEvent new) "exchangeOrderId").getD "" =
      new.exchangeOrderId := rfl
  unfold replayState
  rw [hparse, hfield]
  dsimp only
  generalize hobs : (replayed.applyObservation new.state _ _ "" "" true).1 = observed
  have hobserved : observed.routing = old.routing := by
    rw [← hobs, routing_applyObservation _ _ _ _ _ (.inl rfl) (.inl rfl)]
    exact h
  have hid : observed.exchangeOrderId = old.exchangeOrderId :=
    congrArg Routing.exchangeOrderId hobserved
  unfold Backfills at hnew
  rw [hid, hnew]
  split
  · exact routing_noteExchangeId hobserved _
  · exact hobserved

/-! ### Replay of an amend -/

theorem routing_replayTerms {price quantity : String} (h : replayed.routing = old.routing)
    (hp : new.price = price) (hq : new.quantity = quantity)
    (hprice : price ≠ "" ∨ old.price = "") (hquantity : quantity ≠ "" ∨ old.quantity = "") :
    (replayed.replayTerms (amendedEvent new)).routing =
      ⟨old.exchangeOrderId, old.legs, price, quantity⟩ := by
  obtain ⟨hid, hlegs, hprice', hquantity'⟩ := Routing.mk.inj h
  have hterms : replayed.replayTerms (amendedEvent new) =
      { replayed with
        price := if new.price = "" then replayed.price else new.price
        quantity := if new.quantity = "" then replayed.quantity else new.quantity } := rfl
  have hpe : (if price = "" then old.price else price) = price := by
    split
    · rename_i he
      rw [he]
      exact hprice.resolve_left (not_not_intro he)
    · rfl
  have hqe : (if quantity = "" then old.quantity else quantity) = quantity := by
    split
    · rename_i he
      rw [he]
      exact hquantity.resolve_left (not_not_intro he)
    · rfl
  rw [hterms]
  simp only [routing, hid, hlegs, hprice', hquantity', hp, hq, hpe, hqe]

/-- The version of a fresh leg is one past the table. -/
theorem replayLeg_fresh {id : String} (hne : id ≠ "") :
    record.replayLeg (record.legs.length + 1) id =
      { record with
        exchangeOrderId := id
        legs := record.legs ++ [⟨record.legs.length + 1, id⟩] } := by
  unfold replayLeg
  rw [if_neg (Nat.not_succ_le_self _), if_neg hne]

/-- Replaying the current leg over itself changes nothing. -/
theorem replayLeg_current {older : List OrderLeg}
    (hlegs : record.legs = older ++ [⟨older.length + 1, record.exchangeOrderId⟩]) :
    record.replayLeg (older.length + 1) record.exchangeOrderId = record := by
  have hle : older.length + 1 ≤ record.legs.length := by simp [hlegs]
  have hmodify : record.legs.modify older.length
      (fun leg => { leg with exchangeOrderId := record.exchangeOrderId }) = record.legs := by
    apply List.ext_getElem?
    intro i
    rw [List.getElem?_modify]
    by_cases hi : older.length = i
    · simp [hlegs, ← hi]
    · simp [hi]
  unfold replayLeg
  rw [if_pos hle, Nat.add_sub_cancel, hmodify]
  simp

theorem routing_replayLeg (h : replayed.routing = record.routing) (version : ℕ) (id : String) :
    (replayed.replayLeg version id).routing = (record.replayLeg version id).routing := by
  obtain ⟨hid, hlegs, hprice, hquantity⟩ := Routing.mk.inj h
  simp only [replayLeg, routing, hid, hlegs, hprice, hquantity]

theorem routing_replayAmended (htable : old.LegTable) (h : replayed.routing = old.routing)
    {price quantity id : String} (hprice : price ≠ "" ∨ old.price = "")
    (hquantity : quantity ≠ "" ∨ old.quantity = "") (hid : id ≠ "" ∨ old.legs ≠ []) :
    (replayed.replayAmended (amendedEvent (old.amend price quantity id))).routing =
      (old.amend price quantity id).routing := by
  have hreplay (hversion : (old.amend price quantity id).currentVersion ≠ 0) :
      replayed.replayAmended (amendedEvent (old.amend price quantity id)) =
        (replayed.replayTerms (amendedEvent (old.amend price quantity id))).replayLeg
          (old.amend price quantity id).currentVersion
          (old.amend price quantity id).exchangeOrderId := if_neg hversion
  have hterms : (replayed.replayTerms (amendedEvent (old.amend price quantity id))).routing =
      { old with price := price, quantity := quantity }.routing := by
    have hp : (old.amend price quantity id).price = price := by
      unfold amend appendAmendLeg
      split <;> rfl
    have hq : (old.amend price quantity id).quantity = quantity := by
      unfold amend appendAmendLeg
      split <;> rfl
    have hreplayed := routing_replayTerms h hp hq hprice hquantity
    exact hreplayed
  rcases appendAmendLeg_cases { old with price := price, quantity := quantity } id with
    ⟨hempty, heq⟩ | ⟨hne, heq⟩
  · obtain ⟨-, hlegs⟩ | ⟨-, older, hlegs⟩ := htable.cases
    · exact absurd hlegs (hid.resolve_left (not_not_intro hempty))
    · have hamend : old.amend price quantity id =
          { old with price := price, quantity := quantity } := heq
      have hversion : (old.amend price quantity id).currentVersion = older.length + 1 := by
        simp [hamend, currentVersion, hlegs]
      rw [hreplay (by omega), hversion, routing_replayLeg hterms, hamend]
      exact congrArg routing (replayLeg_current hlegs)
  · have hamend : old.amend price quantity id =
        { old with
          price := price
          quantity := quantity
          exchangeOrderId := id
          legs := old.legs ++ [⟨old.legs.length + 1, id⟩] } := heq
    have hversion : (old.amend price quantity id).currentVersion = old.legs.length + 1 := by
      simp [hamend, currentVersion]
    rw [hreplay (by omega), hversion, routing_replayLeg hterms, hamend]
    exact congrArg routing (replayLeg_fresh hne)

/-! ### What a recorded write does to the routing -/

theorem changed_of_movedBy {state : OrderState} {filled : String}
    (h : record.movedBy state filled) (avgPrice price quantity : String) :
    (record.applyObservation state filled avgPrice price quantity true).2 = true := by
  by_cases hraises : record.raisesFill filled
  · have hfill : (record.observeFill filled avgPrice).2 = true := by
      simp only [raisesFill, Bool.and_eq_true, decide_eq_true_eq] at hraises
      obtain ⟨hne, hmatch⟩ := hraises
      unfold observeFill
      rw [if_neg hne]
      cases hr : parseDecimal filled with
      | error _ => simp [hr] at hmatch
      | ok reported =>
        cases hc : parseDecimal record.filledText with
        | error _ => simp [hr, hc] at hmatch
        | ok current =>
          have hgt : reported.compare current > 0 := by simpa [hr, hc] using hmatch
          simp only [hgt, if_true]
    simp [applyObservation, hfill]
  · have hfill := observeFill_of_not_raisesFill (Bool.eq_false_of_not_eq_true hraises) avgPrice
    have hstate : state ≠ record.state ∧ canTransition record.state state := by
      simpa [movedBy, hraises] using h
    have hmoved : (record.observeState state).2 = true := by
      rcases record.observeState_cases state with heq | ⟨-, -, heq⟩
      · simp [observeState, hstate.1, applyTransition_eq, hstate.2] at heq
      · rw [heq]
    simp [applyObservation, hfill, hmoved]

theorem legIndexOf_of_nil (h : record.legs = []) (id : String) : record.legIndexOf id = none := by
  simp [legIndexOf, h]

theorem routing_arbitrate (htable : record.LegTable) {id : String} {report : ExecutionReport}
    (h : (Entry.reported id report).recorded (some record)) :
    Backfills record (record.arbitrate report).1 ∧
      ((record.arbitrate report).2 = false →
        (record.arbitrate report).1.routing = record.routing) := by
  have hobserve : (record.arbitrate report).1.routing =
      (record.learn report.exchangeOrderId).routing :=
    routing_applyObservation _ _ _ _ _ (.inl rfl) (.inl rfl)
  simp only [Entry.recorded, Bool.or_eq_true, Bool.and_eq_true, decide_eq_true_eq] at h
  have hkept (hlearn : record.learn report.exchangeOrderId = record) :
      Backfills record (record.arbitrate report).1 ∧
        ((record.arbitrate report).2 = false →
          (record.arbitrate report).1.routing = record.routing) := by
    rw [hlearn] at hobserve
    exact ⟨.of_eq hobserve, fun _ => hobserve⟩
  rcases h with (hempty | hknown) | ⟨hfirst, hmoved⟩
  · apply hkept
    unfold learn
    split
    · rw [hempty, noteExchangeId_empty]
    · rfl
  · apply hkept
    unfold learn
    rw [if_neg]
    rintro (hfirst | ⟨-, hunknown⟩)
    · rw [legIndexOf_of_nil (htable.id_eq_empty_iff.mp hfirst)] at hknown
      cases hknown
    · rw [hunknown] at hknown
      cases hknown
  · -- the first id arrives with a report that moves the order, so its event carries the id
    have hlegs := htable.id_eq_empty_iff.mp hfirst
    have hlearn : record.learn report.exchangeOrderId =
        record.noteExchangeId report.exchangeOrderId := if_pos (.inl hfirst)
    refine ⟨.of_noteExchangeId hfirst (hobserve.trans (by rw [hlearn])), fun hc => ?_⟩
    have hcurrent : record.superseded report.exchangeOrderId = false := by
      simp [superseded, legIndexOf_of_nil hlegs]
    obtain ⟨exchangeOrderId, legs, hnote⟩ := record.noteExchangeId_spec report.exchangeOrderId
    have hmoved' : (record.noteExchangeId report.exchangeOrderId).movedBy report.state
        report.filledQuantity := by
      rw [hnote]
      exact hmoved
    have hchanged := changed_of_movedBy hmoved' report.averageFillPrice "" ""
    rw [arbitrate, hlearn, hcurrent, Bool.not_false, hchanged] at hc
    cases hc

private theorem routing_observed {snapshot : OrderSnapshot} (hterms : record.sameTerms snapshot)
    (learned : Bool)
    (hlearned : learned → record.exchangeOrderId = "" ∧ snapshot.exchangeOrderId ≠ "") :
    Backfills record (Oms.observeSnapshot
        (if learned then record.noteExchangeId snapshot.exchangeOrderId else record) snapshot).1 ∧
      (learned = false → (Oms.observeSnapshot
        (if learned then record.noteExchangeId snapshot.exchangeOrderId else record)
          snapshot).1.routing = record.routing) := by
  cases learned with
  | false =>
    have hobserve := routing_observeSnapshot hterms
    exact ⟨.of_eq hobserve, fun _ => hobserve⟩
  | true =>
    obtain ⟨hfirst, -⟩ := hlearned rfl
    obtain ⟨exchangeOrderId, legs, hnote⟩ := record.noteExchangeId_spec snapshot.exchangeOrderId
    have hterms' : (record.noteExchangeId snapshot.exchangeOrderId).sameTerms snapshot := by
      rw [hnote]
      exact hterms
    exact ⟨.of_noteExchangeId hfirst (routing_observeSnapshot hterms'), nofun⟩

theorem routing_refreshed {venue : String} {snapshot : OrderSnapshot}
    (h : (Entry.listed venue snapshot).recorded (some record)) :
    Backfills record (Oms.refreshed record snapshot).1 ∧
      ((Oms.refreshed record snapshot).2 = false →
        (Oms.refreshed record snapshot).1.routing = record.routing) := by
  have hobserved := routing_observed h
    (record.exchangeOrderId = "" && snapshot.exchangeOrderId ≠ "") (by simp)
  exact ⟨hobserved.1, fun hc => hobserved.2 (Bool.or_eq_false_iff.mp hc).1⟩

theorem routing_resolve {id : String} {snapshot : OrderSnapshot}
    (h : (Entry.resolved id snapshot).recorded (some record)) :
    Backfills record (record.resolve snapshot).1 ∧
      ((record.resolve snapshot).2 = false →
        (record.resolve snapshot).1.routing = record.routing) := by
  simp only [Entry.recorded, Bool.and_eq_true, Bool.or_eq_true, decide_eq_true_eq] at h
  obtain ⟨hterms, hid⟩ := h
  have hobserved := routing_observed hterms
    (snapshot.exchangeOrderId ≠ "" && (record.exchangeOrderId = "" ||
      (record.legIndexOf snapshot.exchangeOrderId).isNone)) (by
    simp only [Bool.and_eq_true, Bool.or_eq_true, decide_eq_true_eq, Option.isNone_iff_eq_none]
    rintro ⟨hne, hnew⟩
    refine ⟨?_, hne⟩
    rcases hnew with hfirst | hunknown
    · exact hfirst
    · rcases hid with (hempty | hfirst) | hknown
      · exact absurd hempty hne
      · exact hfirst
      · rw [hunknown] at hknown
        cases hknown)
  exact ⟨hobserved.1, fun hc => hobserved.2 (Bool.or_eq_false_iff.mp hc).1⟩

end OrderRecord

/-! ### The simulation -/

namespace Ledger

/-- The log brings back the routing of every order that is not exempt. -/
def ReplaysRouting (ledger : Ledger) (defaultVenue : String) (exempt : List String) : Prop :=
  ∃ log, ledger.log = some log ∧ log.Steady ∧ ∀ id ∉ exempt,
    ((replay defaultVenue (.empty _) log.events).find? id).map OrderRecord.routing =
      (ledger.orders.find? id).map OrderRecord.routing

def Traceable (ledger : Ledger) : Entry → Prop
  | .riskRejected _ => False
  | .staged record persisted =>
    ledger.orders.find? record.clientOrderId = none ∧ persisted ∧
      record.exchangeOrderId = "" ∧ record.legs = []
  | .accepted id _ => ∀ record, ledger.orders.find? id = some record →
      record.exchangeOrderId = "" ∧ record.legs = []
  | entry => entry.recorded (ledger.orders.find? entry.key)

end Ledger

section Write

variable {orders : Registry} {old new replayed : OrderRecord} (defaultVenue : String)

private theorem routing_replay_observed (hback : OrderRecord.Backfills old new) (changed : Bool)
    (hsame : changed = false → new.routing = old.routing) {key : String}
    (hkey : new.clientOrderId = key) (hf : orders.find? key = some replayed)
    (hl : replayed.routing = old.routing) :
    (((if changed then [stateEvent new] else []).foldl (applyLogEvent defaultVenue) orders).find?
      key).map OrderRecord.routing = some new.routing := by
  subst hkey
  cases changed with
  | false => simpa [hf] using hl.trans (hsame rfl).symm
  | true =>
    have hreplay := OrderRecord.routing_replayState hl hback
    simp only [if_true, List.foldl_cons, List.foldl_nil, find?_stateEvent _ _ new hf,
      Option.map_some, hreplay]

/-- An acked order starts over in the log. -/
private theorem routing_replay_accepted (hid : old.exchangeOrderId = "") (hlegs : old.legs = [])
    (exchangeOrderId : String) :
    ((applyLogEvent defaultVenue orders
      (placeAcceptedEvent (old.accept exchangeOrderId))).find? old.clientOrderId).map
        OrderRecord.routing = some (old.accept exchangeOrderId).routing := by
  have hkey : (old.accept exchangeOrderId).clientOrderId = old.clientOrderId := by
    simp [OrderRecord.accept]
  have hfind := find?_placeAcceptedEvent defaultVenue orders (old.accept exchangeOrderId)
  rw [hkey] at hfind
  rw [hfind, Option.map_some]
  congr 1
  have hevent : (recordFromEvent defaultVenue "place_accepted" old.clientOrderId
      (placeAcceptedEvent (old.accept exchangeOrderId))).routing =
      ⟨(old.accept exchangeOrderId).exchangeOrderId,
        if (old.accept exchangeOrderId).exchangeOrderId = "" then []
        else [⟨if (old.accept exchangeOrderId).currentVersion = 0 then 1
            else (old.accept exchangeOrderId).currentVersion,
          (old.accept exchangeOrderId).exchangeOrderId⟩],
        (old.accept exchangeOrderId).price, (old.accept exchangeOrderId).quantity⟩ := rfl
  rw [hevent]
  rcases old.noteExchangeId_cases exchangeOrderId with hnote | ⟨hne, -, hnote⟩
  · simp [OrderRecord.accept, hnote, OrderRecord.routing, hid, hlegs]
  · simp [OrderRecord.accept, hnote, OrderRecord.routing, OrderRecord.currentVersion, hlegs, hne]

private theorem routing_replay_rejected (hf : orders.find? old.clientOrderId = some replayed)
    (hl : replayed.routing = old.routing) (error : Error) :
    ((applyLogEvent defaultVenue orders (rejectedEvent (old.reject error))).find?
      old.clientOrderId).map OrderRecord.routing = some (old.reject error).routing := by
  have hreplay := find?_rejectedEvent defaultVenue orders (old.reject error)
  rw [show (old.reject error).clientOrderId = old.clientOrderId from rfl, hf] at hreplay
  rw [hreplay]
  exact congrArg some hl

end Write

private theorem routing_replay_update {ledger : Ledger} {entry : Entry} {orders : Registry}
    {old replayed : OrderRecord} (hold : ledger.orders.find? entry.key = some old)
    (htable : old.LegTable) (htrace : ledger.Traceable entry)
    (hf : orders.find? entry.key = some replayed) (hl : replayed.routing = old.routing)
    (defaultVenue : String) :
    (((entry.write (some old)).2.foldl (applyLogEvent defaultVenue) orders).find?
      entry.key).map OrderRecord.routing =
      ((ledger.enter entry).orders.find? entry.key).map OrderRecord.routing := by
  have hkey : old.clientOrderId = entry.key := KeyedList.key_of_find? hold
  have hview : (orders.find? entry.key).map OrderRecord.routing =
      (some old).map OrderRecord.routing := by
    rw [hf]
    exact congrArg some hl
  have hrecorded (h : entry.recorded (ledger.orders.find? entry.key)) :
      entry.recorded (some old) := hold ▸ h
  cases entry with
  | riskRejected record => exact htrace.elim
  | staged record persisted => cases htrace.1.symm.trans hold
  | accepted id exchangeOrderId =>
    obtain rfl : old.clientOrderId = id := hkey
    obtain ⟨hid, hlegs⟩ := htrace old hold
    exact map_replay_of_written hold rfl (routing_replay_accepted defaultVenue hid hlegs _)
  | rejected id error =>
    by_cases ht : isTerminal old.state
    · exact map_replay_of_kept hold hview (by simp [Entry.write, ht])
    · refine map_replay_of_written hold (by simp only [Entry.write, ht]; rfl) ?_
      obtain rfl : old.clientOrderId = id := hkey
      exact routing_replay_rejected defaultVenue hf hl error
  | canceled id exchangeOrderId =>
    have hid := hrecorded htrace
    simp only [Entry.recorded, Bool.or_eq_true, Bool.and_eq_true, decide_eq_true_eq] at hid
    by_cases hc : canTransition (old.noteExchangeId exchangeOrderId).state .canceled
    · refine map_replay_of_written hold (by simp only [Entry.write, hc]; rfl) ?_
      have hback : OrderRecord.Backfills old
          { old.noteExchangeId exchangeOrderId with state := .canceled } := by
        rcases hid with (hempty | hsame) | ⟨hfirst, -⟩
        · exact .of_eq (by simp [hempty, OrderRecord.routing])
        · exact .of_eq (by simp [hsame, OrderRecord.noteExchangeId, OrderRecord.routing])
        · exact .of_noteExchangeId hfirst rfl
      exact routing_replay_observed defaultVenue hback true (fun h => by cases h)
        (by simpa using hkey) hf hl
    · refine map_replay_of_written hold (by simp only [Entry.write, hc]; rfl) ?_
      have hsame : old.noteExchangeId exchangeOrderId = old := by
        rcases hid with (hempty | hsame) | ⟨-, hc'⟩
        · rw [hempty, OrderRecord.noteExchangeId_empty]
        · simp [OrderRecord.noteExchangeId, hsame]
        · rw [OrderRecord.state_noteExchangeId] at hc
          exact absurd hc' hc
      rw [hsame]
      simpa [hf] using hl
  | amended id price quantity exchangeOrderId =>
    obtain rfl : old.clientOrderId = id := hkey
    have hterms := hrecorded htrace
    simp only [Entry.recorded, Bool.or_eq_true, Bool.and_eq_true, decide_eq_true_eq] at hterms
    obtain ⟨⟨hprice, hquantity⟩, hid⟩ := hterms
    refine map_replay_of_written hold rfl ?_
    have hf' : orders.find? (old.amend price quantity exchangeOrderId).clientOrderId =
        some replayed := by
      rw [OrderRecord.clientOrderId_amend]
      exact hf
    have hfind := find?_amendedEvent defaultVenue orders _ hf'
    rw [OrderRecord.clientOrderId_amend] at hfind
    rw [List.foldl_cons, List.foldl_nil, Entry.key, hfind, Option.map_some,
      OrderRecord.routing_replayAmended htable hl hprice hquantity hid]
  | discovered id exchangeOrderId => exact absurd (hrecorded htrace) Bool.false_ne_true
  | reported id report =>
    obtain ⟨hback, hsame⟩ := OrderRecord.routing_arbitrate htable (hrecorded htrace)
    exact map_replay_of_written hold rfl
      (routing_replay_observed defaultVenue hback _ hsame (by simpa using hkey) hf hl)
  | listed venue snapshot =>
    obtain ⟨hback, hsame⟩ := OrderRecord.routing_refreshed (hrecorded htrace)
    exact map_replay_of_written hold rfl
      (routing_replay_observed defaultVenue hback _ hsame (by simpa using hkey) hf hl)
  | resolved id snapshot =>
    obtain ⟨hback, hsame⟩ := OrderRecord.routing_resolve (hrecorded htrace)
    exact map_replay_of_written hold rfl
      (routing_replay_observed defaultVenue hback _ hsame (by simpa using hkey) hf hl)
  | absent id =>
    by_cases ht : isTerminal old.state
    · exact map_replay_of_kept hold hview (by simp [Entry.write, ht])
    · refine map_replay_of_written hold (by simp only [Entry.write, ht]; rfl) ?_
      obtain rfl : old.clientOrderId = id := hkey
      generalize (⟨"venue_absent", "order is unknown to the venue after reconciliation"⟩ :
        Error) = error
      have hback : OrderRecord.Backfills old (old.reject error) := .of_eq rfl
      have hstate : (replayed.replayState (stateEvent (old.reject error))).routing =
        old.routing := OrderRecord.routing_replayState hl hback
      have hfind := find?_stateEvent defaultVenue orders (old.reject error) hf
      exact routing_replay_rejected defaultVenue hfind hstate error

private theorem routing_replay_insert {ledger : Ledger} {entry : Entry} {orders : Registry}
    (hold : ledger.orders.find? entry.key = none) (htrace : ledger.Traceable entry)
    (hf : orders.find? entry.key = none) (defaultVenue : String) :
    (((entry.write none).2.foldl (applyLogEvent defaultVenue) orders).find?
      entry.key).map OrderRecord.routing =
      ((ledger.enter entry).orders.find? entry.key).map OrderRecord.routing := by
  cases entry with
  | riskRejected record => exact htrace.elim
  | staged record persisted =>
    obtain ⟨-, rfl, hid, hlegs⟩ := htrace
    rw [ledger.find?_enter_of_write (.staged record true) hold rfl]
    have hfind := find?_placeSubmittedEvent defaultVenue orders record
    refine (congrArg (Option.map OrderRecord.routing) hfind).trans ?_
    simp only [Option.map_some, OrderRecord.routing, hid, hlegs]
    rfl
  | listed venue snapshot =>
    rw [ledger.find?_enter_of_write (.listed venue snapshot) hold rfl]
    have hfind := find?_adoptedEvent defaultVenue orders
      (Oms.snapshotRecord snapshot venue true)
    refine (congrArg (Option.map OrderRecord.routing) hfind).trans ?_
    have hversion (h : snapshot.exchangeOrderId ≠ "") :
        (Oms.snapshotRecord snapshot venue true).currentVersion = 1 := by
      simp [OrderRecord.currentVersion, Oms.snapshotRecord, h]
    have hevent : (recordFromEvent defaultVenue "adopted" snapshot.clientOrderId
        (adoptedEvent (Oms.snapshotRecord snapshot venue true))).routing =
        ⟨snapshot.exchangeOrderId,
          if snapshot.exchangeOrderId = "" then []
          else [⟨if (Oms.snapshotRecord snapshot venue true).currentVersion = 0 then 1
              else (Oms.snapshotRecord snapshot venue true).currentVersion,
            snapshot.exchangeOrderId⟩],
          snapshot.price, snapshot.quantity⟩ := rfl
    refine congrArg some (hevent.trans ?_)
    by_cases hid : snapshot.exchangeOrderId = ""
    · simp [OrderRecord.routing, Oms.snapshotRecord, hid]
    · rw [hversion hid]
      simp [OrderRecord.routing, Oms.snapshotRecord, hid]
  | _ =>
    apply map_replay_of_kept hold _ rfl
    rw [hf]

namespace Ledger

variable {ledger : Ledger} {defaultVenue : String} {exempt : List String}

theorem ReplaysRouting.enter (h : ledger.ReplaysRouting defaultVenue exempt)
    (htables : ledger.LegTables) {entry : Entry}
    (htrace : entry.key ∈ exempt ∨ ledger.Traceable entry) :
    (ledger.enter entry).ReplaysRouting defaultVenue exempt := by
  obtain ⟨log, hlog, hrel, hsame⟩ := h
  obtain ⟨hevents, hrel'⟩ := hrel.appendAll (entry.write (ledger.orders.find? entry.key)).2
  refine ⟨_, by rw [log_enter, hlog]; rfl, hrel', fun id hid => ?_⟩
  rw [hevents, replay, List.foldl_append]
  change (KeyedList.find? (List.foldl _ (replay defaultVenue _ log.events) _) id).map _ = _
  by_cases hk : entry.key = id
  · subst hk
    have htrace := htrace.resolve_left hid
    have hkey := hsame entry.key hid
    cases hold : ledger.orders.find? entry.key with
    | none =>
      rw [hold, Option.map_none, Option.map_eq_none_iff] at hkey
      exact routing_replay_insert hold htrace hkey defaultVenue
    | some old =>
      rw [hold, Option.map_some, Option.map_eq_some_iff] at hkey
      obtain ⟨replayed, hf, hl⟩ := hkey
      exact routing_replay_update hold (htables _ old hold) htrace hf hl defaultVenue
  · rw [find?_enter_of_ne ledger hk, ← hsame id hid]
    exact congrArg _ (Entry.find?_replay_write_of_ne (fun _ => KeyedList.key_of_find?) hk _ _)

def TraceableAll (exempt : List String) : Ledger → List Entry → Prop
  | _, [] => True
  | ledger, entry :: entries =>
    (entry.key ∈ exempt ∨ ledger.Traceable entry) ∧
      TraceableAll exempt (ledger.enter entry) entries

theorem ReplaysRouting.enterAll (h : ledger.ReplaysRouting defaultVenue exempt)
    (htables : ledger.LegTables) {entries : List Entry}
    (hinserted : ∀ entry ∈ entries, ∀ record, entry.inserted = some record → record.LegTable)
    (htrace : ledger.TraceableAll exempt entries) :
    (ledger.enterAll entries).ReplaysRouting defaultVenue exempt := by
  induction entries generalizing ledger with
  | nil => exact h
  | cons entry entries ih =>
    obtain ⟨hhead, htail⟩ := htrace
    apply ih (h.enter htables hhead) (htables.enter (hinserted entry List.mem_cons_self)) _ htail
    intro e hm
    exact hinserted e (List.mem_cons_of_mem entry hm)

/-- Apart from those of a place, an entry is traceable when it is recorded. -/
theorem traceableAll_of_recorded {entries : List Entry}
    (hplain : ∀ entry ∈ entries, ∀ ledger : Ledger,
      entry.recorded (ledger.orders.find? entry.key) → ledger.Traceable entry)
    (h : ledger.allEntries (fun entry record => entry.key ∈ exempt || entry.recorded record)
      entries) : ledger.TraceableAll exempt entries := by
  induction entries generalizing ledger with
  | nil => trivial
  | cons entry entries ih =>
    simp only [allEntries, Bool.and_eq_true, Bool.or_eq_true, decide_eq_true_eq] at h
    obtain ⟨hhead, htail⟩ := h
    refine ⟨?_, ih (fun e hm => hplain e (List.mem_cons_of_mem entry hm)) htail⟩
    rcases hhead with hexempt | hrecorded
    · exact .inl hexempt
    · exact .inr (hplain entry List.mem_cons_self ledger hrecorded)

end Ledger

namespace System

variable {s t : System} {a : Action}

/-- Only a place is risk-rejected. -/
theorem riskRejected_step (hs : s.step a = some t) (ha : a.live)
    (hplace : ∀ request venue, a ≠ .place request venue) :
    t.trace.riskRejected = s.trace.riskRejected := by
  by_cases hsilent : a.silent
  · rw [trace_step hs hsilent]
  · cases a with
    | place request venue => exact absurd rfl (hplace request venue)
    | send i =>
      obtain ⟨_, _, _, -, rfl⟩ := send_cases hs
      rfl
    | report report =>
      obtain rfl := Option.some.inj hs
      rfl
    | restart config logOpen => cases ha
    | _ => exact absurd rfl hsilent

theorem riskRejected_subset_step (hs : s.step a = some t) (ha : a.live) :
    s.trace.riskRejected ⊆ t.trace.riskRejected := by
  by_cases hplace : ∃ request venue, a = .place request venue
  · obtain ⟨request, venue, rfl⟩ := hplace
    obtain rfl := Option.some.inj hs
    obtain he | ⟨-, he⟩ := s.trace_place request venue
    · rw [he]
      exact List.Subset.refl _
    · rw [he]
      exact List.subset_append_left _ _
  · rw [riskRejected_step hs ha fun request venue he => hplace ⟨request, venue, he⟩]
    exact List.Subset.refl _

private theorem traceableAll_place (hp : s.oms.persists) (request : OrderRequest)
    (venue : String) :
    s.oms.ledger.TraceableAll (s.place request venue).trace.riskRejected
      (s.entries (.place request venue)) := by
  cases s.oms.placeStage_cases request venue with
  | unchanged _ hentries _ =>
    simp only [entries, hentries]
    trivial
  | riskRejected venue' rejection error _ hentries hstage _ =>
    simp only [entries, hentries]
    refine ⟨.inl ?_, trivial⟩
    rw [place_riskRejected hstage]
    exact List.mem_append_right _ List.mem_cons_self
  | unpersisted _ _ _ hpersists _ _ _ =>
    rw [hp] at hpersists
    cases hpersists
  | opened venue' _ hnew _ _ hentries _ _ _ =>
    simp only [entries, hentries]
    exact ⟨.inr ⟨hnew, rfl, rfl, rfl⟩, trivial⟩

/-- The ack of a place finds the record as it was staged, without legs. -/
private theorem traceableAll_acked (h : s.Staged) (i : ℕ) (ack : OrderPlacement)
    (hrecords : s.records (.placed i (.ok ack))) :
    s.oms.ledger.TraceableAll s.trace.riskRejected (s.entries (.placed i (.ok ack))) := by
  unfold records at hrecords
  simp only [entries] at hrecords ⊢
  split at hrecords
  · rename_i request connector staged sent hc
    obtain ⟨hl, venue, rfl⟩ := h.places _ _ _ _ (List.mem_of_getElem? hc)
    rw [Oms.placedEntries, Ledger.allEntries, Bool.and_eq_true] at hrecords
    refine ⟨.inr fun record hr => ?_, Ledger.traceableAll_of_recorded ?_ hrecords.2⟩
    · obtain rfl := Option.some.inj (hl.symm.trans hr)
      exact ⟨rfl, rfl⟩
    · intro entry hm ledger hrecorded
      split at hm
      · obtain ⟨report, -, rfl⟩ := List.mem_map.mp hm
        exact hrecorded
      · cases hm
  · trivial

theorem traceableAll_entries (h : s.Staged) (hp : s.oms.persists) (hs : s.step a = some t)
    (ha : a.live) (hrecords : s.records a) :
    s.oms.ledger.TraceableAll t.trace.riskRejected (s.entries a) := by
  by_cases hplace : ∃ request venue, a = .place request venue
  · obtain ⟨request, venue, rfl⟩ := hplace
    obtain rfl := Option.some.inj hs
    exact traceableAll_place hp request venue
  rw [riskRejected_step hs ha fun request venue he => hplace ⟨request, venue, he⟩]
  by_cases hack : ∃ i ack, a = .placed i (.ok ack)
  · obtain ⟨i, ack, rfl⟩ := hack
    exact traceableAll_acked h i ack hrecords
  apply Ledger.traceableAll_of_recorded _ hrecords
  intro entry hm ledger hrecorded
  cases s.enters_of_mem hm with
  | riskRejected => exact absurd ⟨_, _, rfl⟩ hplace
  | staged => exact absurd ⟨_, _, rfl⟩ hplace
  | accepted => exact absurd ⟨_, _, rfl⟩ hack
  | _ => exact hrecorded

/-- The routing is in the log, in a system whose places and legs are in order. -/
structure Routed (s : System) : Prop where
  staged : s.Staged
  tables : s.oms.ledger.LegTables
  replays : s.oms.ledger.ReplaysRouting s.oms.defaultVenue s.trace.riskRejected

theorem boot_routed (config : Config) {log : EventLog} (h : log.Reliable)
    (hempty : log.events = []) : (boot config (some log)).Routed := by
  have horders : (Oms.start config (some log)).orders = .empty _ := by
    simp only [Oms.start, Oms.loadFromLog, Option.map_some, EventLog.reopen, hempty]
    rfl
  refine ⟨boot_staged config (some log), ?_, log.reopen, rfl, h.reopen, fun id _ => rfl⟩
  intro id record hr
  rw [show (boot config (some log)).oms.ledger.orders = .empty _ from horders] at hr
  cases hr

theorem Routed.step (h : s.Routed) (hs : s.step a = some t) (ha : a.live)
    (hrecords : s.records a) : t.Routed := by
  refine ⟨h.staged.step hs, legTables_step h.tables hs ha, ?_⟩
  obtain ⟨log, hlog, hrel, hsame⟩ := h.replays
  have hvenue : t.oms.defaultVenue = s.oms.defaultVenue :=
    congrArg Config.defaultVenue (config_step hs ha)
  rw [hvenue]
  rcases ledger_step_cases hs ha with ⟨orders, rfl, hp, rfl⟩ | hledger
  · refine ⟨log, hlog, hrel, fun id hid => ?_⟩
    rw [hsame id hid]
    exact congrArg _ (KeyedList.find?_of_perm hp id).symm
  · have hp : s.oms.persists := by
      simp [Oms.persists, show s.oms.log = some log from hlog, hrel.ready]
    have htrace := traceableAll_entries h.staged hp hs ha hrecords
    have hexempt : s.trace.riskRejected ⊆ t.trace.riskRejected := riskRejected_subset_step hs ha
    rw [hledger]
    refine Ledger.ReplaysRouting.enterAll ?_ h.tables ?_ htrace
    · exact ⟨log, hlog, hrel, fun id hid => hsame id fun hm => hid (hexempt hm)⟩
    · intro entry hm record hi
      exact (s.enters_of_mem hm).legTable_inserted hi

/-- In every run of one incarnation over an empty log to which every append succeeds, and whose
steps change the routing of an order only where an event carries the change: the log written so
far, replayed into an empty registry, brings back exchange id, leg table, price and quantity of
every order that was not risk-rejected. -/
theorem replay_routing (config : Config) {log : EventLog} (hlog : log.Reliable)
    (hempty : log.events = []) {s : System}
    (h : Transition.Reaches step (fun s a => a.live && s.records a) (boot config (some log)) s) :
    ∃ log', s.oms.log = some log' ∧ ∀ id ∉ s.trace.riskRejected,
      ((replay s.oms.defaultVenue (.empty _) log'.events).find? id).map OrderRecord.routing =
        (s.oms.lookup id).map OrderRecord.routing := by
  have hI : s.Routed := by
    apply Transition.Reaches.invariant (I := Routed) _ h (boot_routed config hlog hempty)
    intro s a t hI ha hs
    obtain ⟨hlive, hrecords⟩ := Bool.and_eq_true_iff.mp ha
    exact hI.step hs hlive hrecords
  obtain ⟨log', hlog', -, hsame⟩ := hI.replays
  exact ⟨log', hlog', hsame⟩

/-- An order acked, amended while the old leg's cancel races the ack, then filled. -/
theorem replay_routing_amended : ∃ s,
    Transition.Reaches step (fun s a => a.live && s.records a) (boot .sample (some .fresh)) s ∧
      (s.oms.lookup "c1").map OrderRecord.routing = some ⟨"2", [⟨1, "1"⟩, ⟨2, "2"⟩], "101", "5"⟩ ∧
      ∃ log', s.oms.log = some log' ∧ ∀ id ∉ s.trace.riskRejected,
        ((replay "binance" (.empty _) log'.events).find? id).map OrderRecord.routing =
          (s.oms.lookup id).map OrderRecord.routing := by
  have hrun : (Transition.exec step (fun s a => a.live && s.records a)
    (boot .sample (some .fresh))
    [.place .sample "", .send 0, .placed 0 (.ok ⟨"c1", "1"⟩), .amend ⟨"c1", some "101", none⟩,
      .report ⟨"c1", "1", .canceled, .buy, "2", "100"⟩, .amended 0 (.ok ⟨"c1", "2"⟩),
      .report ⟨"c1", "2", .filled, .buy, "5", "100"⟩]).isSome := by decide
  have hreach := Transition.reaches_get_exec hrun
  exact ⟨_, hreach, rfl, replay_routing .sample ⟨rfl, fun _ => rfl⟩ rfl hreach⟩

/-- The ack of an amend is lost; the report of the replacement makes the live order adopt its
leg, and the log does not mention it. -/
theorem replay_misses_discovered_leg : ∃ s, LiveRun (boot .sample (some .fresh)) s ∧
    "c1" ∉ s.trace.riskRejected ∧
    (s.oms.lookup "c1").map OrderRecord.routing = some ⟨"2", [⟨1, "1"⟩, ⟨2, "2"⟩], "100", "5"⟩ ∧
    ∃ log', s.oms.log = some log' ∧ log'.Reliable ∧
      ((replay s.oms.defaultVenue (.empty _) log'.events).find? "c1").map OrderRecord.routing =
        some ⟨"1", [⟨1, "1"⟩], "100", "5"⟩ := by
  have hrun : (Transition.exec step (fun _ a => a.live) (boot .sample (some .fresh))
    [.place .sample "", .send 0, .placed 0 (.ok ⟨"c1", "1"⟩), .amend ⟨"c1", some "101", none⟩,
      .amended 0 (.error ⟨"transport", "timeout"⟩),
      .report ⟨"c1", "2", .live, .buy, "", ""⟩]).isSome := by decide
  exact ⟨_, Transition.reaches_get_exec hrun, List.not_mem_nil, rfl, _, rfl,
    ⟨rfl, fun _ => rfl⟩, rfl⟩

end System

end ExchangeGateway
