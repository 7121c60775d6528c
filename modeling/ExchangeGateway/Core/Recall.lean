import ExchangeGateway.Core.AtMostOnce
import ExchangeGateway.Core.Lifecycle
import ExchangeGateway.Core.Replay

/-! What the log brings back when appends fail. State and fills may then be behind the registry;
where an order trades never is, nor what was ordered, a rejected order apart. -/
namespace ExchangeGateway

namespace OrderRecord

/-- Where the order trades: its symbol and its venue. -/
def home (record : OrderRecord) : String × String := (record.symbol, record.venue)

/-- What was ordered, amends apart. -/
def order (record : OrderRecord) : Side × OrderType × String :=
  (record.side, record.type, record.timeInForce)

/-- What the log brings back of a record. The event of a rejection does not say what was ordered. -/
structure Recalled (found record : OrderRecord) : Prop where
  home : found.home = record.home
  order : record.state ≠ .rejected → found.order = record.order

theorem Recalled.refl (record : OrderRecord) : Recalled record record := ⟨rfl, fun _ => rfl⟩

theorem Recalled.of_eq {found found' record : OrderRecord} (h : Recalled found record)
    (hhome : found'.home = found.home) (horder : found'.order = found.order) :
    Recalled found' record :=
  ⟨hhome.trans h.home, fun hstate => horder.trans (h.order hstate)⟩

theorem Later.home {old new : OrderRecord} (h : old.Later new) : new.home = old.home := by
  unfold OrderRecord.home
  rw [h.symbol, h.venue]

theorem Later.order {old new : OrderRecord} (h : old.Later new) : new.order = old.order := by
  unfold OrderRecord.order
  rw [h.side, h.type, h.timeInForce]

/-- A rejection is final, so the order is still known if it was before. -/
theorem Recalled.update {found old new : OrderRecord} (h : Recalled found old)
    (hupdate : Updates old new) : Recalled found new := by
  constructor
  · exact h.home.trans hupdate.later.home.symm
  · intro hstate
    have hold : old.state ≠ .rejected := by
      intro hrejected
      rcases hupdate.state with heq | hlegal
      · exact hstate (heq.trans hrejected)
      · rw [hrejected, not_canTransition_of_terminal rfl] at hlegal
        cases hlegal
    exact (h.order hold).trans hupdate.later.order.symm

theorem home_noteExchangeId (record : OrderRecord) (id : String) :
    (record.noteExchangeId id).home = record.home ∧
      (record.noteExchangeId id).order = record.order := by
  obtain ⟨_, _, hnote⟩ := record.noteExchangeId_spec id
  rw [hnote]
  exact ⟨rfl, rfl⟩

theorem Recalled.replayAmended {found record : OrderRecord} (h : Recalled found record)
    (event : Json) : Recalled (found.replayAmended event) record := by
  unfold OrderRecord.replayAmended
  dsimp only
  split
  · unfold replayLegacyAmend
    obtain ⟨hhome, horder⟩ := (found.replayTerms event).home_noteExchangeId
      ((eventString event "exchangeOrderId").getD "")
    dsimp only
    split
    · exact h.of_eq hhome horder
    · exact h.of_eq hhome horder
  · exact h.of_eq rfl rfl

theorem Recalled.replayState {found record : OrderRecord} (h : Recalled found record)
    (event : Json) : Recalled (found.replayState event) record := by
  unfold OrderRecord.replayState
  split
  · exact h
  · rename_i state _
    have hlater := (found.applyObservation_updates state
      ((eventString event "filledQuantity").getD "")
      ((eventString event "averageFillPrice").getD "") "" "" true).later
    have hobserved := h.of_eq hlater.home hlater.order
    dsimp only
    split
    · obtain ⟨hhome, horder⟩ := home_noteExchangeId (found.applyObservation state
        ((eventString event "filledQuantity").getD "")
        ((eventString event "averageFillPrice").getD "") "" "" true).1
        ((eventString event "exchangeOrderId").getD "")
      exact hobserved.of_eq hhome horder
    · exact hobserved

end OrderRecord

inductive Tells (record : OrderRecord) : Json → Prop
  | submitted : Tells record (placeSubmittedEvent record)
  | accepted : Tells record (placeAcceptedEvent record)
  | adopted : Tells record (adoptedEvent record)
  | rejected (hstate : record.state = .rejected) : Tells record (rejectedEvent record)
  | amended : Tells record (amendedEvent record)
  | state : Tells record (stateEvent record)

/-- An entry tells of the record that it stores; a place that does not persist stores none. -/
theorem Entry.tells_of_mem_write {entry : Entry} {old : Option OrderRecord} {event : Json}
    (hrisk : ∀ record, entry = .riskRejected record → record.state = .rejected)
    (h : event ∈ (entry.write old).2) :
    (∃ new, (entry.write old).1 = some new ∧ Tells new event) ∨
      ∃ record, entry = .staged record false := by
  cases old with
  | none =>
    cases entry with
    | staged record persisted =>
      cases persisted with
      | false => exact .inr ⟨record, rfl⟩
      | true =>
        cases List.mem_singleton.mp h
        exact .inl ⟨record, rfl, .submitted⟩
    | riskRejected record =>
      cases List.mem_singleton.mp h
      exact .inl ⟨record, rfl, .rejected (hrisk record rfl)⟩
    | listed venue snapshot =>
      cases List.mem_singleton.mp h
      exact .inl ⟨_, rfl, .adopted⟩
    | _ => cases h
  | some record =>
    cases entry with
    | staged record persisted =>
      cases persisted with
      | false => exact .inr ⟨record, rfl⟩
      | true =>
        cases List.mem_singleton.mp h
        exact .inl ⟨record, rfl, .submitted⟩
    | riskRejected record =>
      cases List.mem_singleton.mp h
      exact .inl ⟨record, rfl, .rejected (hrisk record rfl)⟩
    | accepted _ id =>
      cases List.mem_singleton.mp h
      exact .inl ⟨_, rfl, .accepted⟩
    | amended _ price quantity id =>
      cases List.mem_singleton.mp h
      exact .inl ⟨_, rfl, .amended⟩
    | discovered _ _ => cases h
    | rejected _ error =>
      simp only [write] at h ⊢
      split at h
      · cases h
      · rename_i hopen
        cases List.mem_singleton.mp h
        exact .inl ⟨record.reject error, by rw [if_neg hopen], .rejected rfl⟩
    | absent _ =>
      simp only [write] at h ⊢
      split at h
      · cases h
      · rename_i hopen
        simp only [hopen]
        rcases List.mem_cons.mp h with hstate | hrejected
        · cases hstate
          exact .inl ⟨_, rfl, .state⟩
        · cases List.mem_singleton.mp hrejected
          exact .inl ⟨_, rfl, .rejected rfl⟩
    | canceled _ id =>
      simp only [write] at h ⊢
      split at h
      · rename_i hc
        cases List.mem_singleton.mp h
        exact .inl ⟨_, by rw [if_pos hc], .state⟩
      · cases h
    | reported _ _ | listed _ _ | resolved _ _ =>
      simp only [write] at h ⊢
      split at h
      · cases List.mem_singleton.mp h
        exact .inl ⟨_, rfl, .state⟩
      · cases h

theorem Tells.clientOrderId {record : OrderRecord} {event : Json} (h : Tells record event) :
    eventString event "clientOrderId" = some record.clientOrderId := by
  cases h <;> rfl

/-- Replaying an event that tells of a record brings the record back. -/
theorem Tells.recalled {record found : OrderRecord} {event : Json} (h : Tells record event)
    {defaultVenue : String} {orders : Registry}
    (hbefore : ∀ old, orders.find? record.clientOrderId = some old → old.Recalled record)
    (hfound : (applyLogEvent defaultVenue orders event).find? record.clientOrderId =
      some found) : found.Recalled record := by
  have horder : (((parseSide record.side.toString).getD .buy,
      (parseOrderType record.type.toString).getD .limit, record.timeInForce) :
        Side × OrderType × String) = record.order := by
    simp [OrderRecord.order]
  cases h with
  | submitted =>
    rw [find?_placeSubmittedEvent] at hfound
    cases hfound
    exact ⟨rfl, fun _ => horder⟩
  | accepted =>
    rw [find?_placeAcceptedEvent] at hfound
    cases hfound
    exact ⟨rfl, fun _ => horder⟩
  | adopted =>
    rw [find?_adoptedEvent] at hfound
    cases hfound
    exact ⟨rfl, fun _ => horder⟩
  | rejected hstate =>
    rw [find?_rejectedEvent] at hfound
    cases hfound
    exact ⟨rfl, fun hne => absurd hstate hne⟩
  | amended =>
    cases hf : orders.find? record.clientOrderId with
    | none =>
      have htype : eventString (amendedEvent record) "type" = some "amended" := rfl
      have hid : eventString (amendedEvent record) "clientOrderId" =
        some record.clientOrderId := rfl
      simp [applyLogEvent, htype, hid, hf] at hfound
    | some old =>
      rw [find?_amendedEvent _ _ _ hf] at hfound
      cases hfound
      exact (hbefore old hf).replayAmended _
  | state =>
    cases hf : orders.find? record.clientOrderId with
    | none =>
      have htype : eventString (stateEvent record) "type" = some "state" := rfl
      have hid : eventString (stateEvent record) "clientOrderId" =
        some record.clientOrderId := rfl
      simp [applyLogEvent, htype, hid, hf] at hfound
    | some old =>
      rw [find?_stateEvent _ _ _ hf] at hfound
      cases hfound
      exact (hbefore old hf).replayState _

theorem recalled_foldl {record : OrderRecord} {defaultVenue : String} {events : List Json}
    (h : ∀ event ∈ events, Tells record event) {orders : Registry}
    (hbefore : ∀ old, orders.find? record.clientOrderId = some old → old.Recalled record)
    {id : String} {found : OrderRecord}
    (hfound : (events.foldl (applyLogEvent defaultVenue) orders).find? id = some found) :
    (id = record.clientOrderId ∧ found.Recalled record) ∨
      id ≠ record.clientOrderId ∧ orders.find? id = some found := by
  induction events generalizing orders with
  | nil =>
    by_cases hid : id = record.clientOrderId
    · exact .inl ⟨hid, hbefore found (hid ▸ hfound)⟩
    · exact .inr ⟨hid, hfound⟩
  | cons event events ih =>
    have htells := h event List.mem_cons_self
    rcases ih (fun e he => h e (List.mem_cons_of_mem event he)) (fun old => htells.recalled hbefore)
      hfound with hself | ⟨hne, hother⟩
    · exact .inl hself
    · rw [find?_applyLogEvent_of_ne htells.clientOrderId (Ne.symm hne)] at hother
      exact .inr ⟨hne, hother⟩

/-! ### Logs without late lines -/

def Fate.holds : Fate → Bool
  | .held _ _ => true
  | _ => false

/-- No whole line reaches the file. -/
def Fate.idle : Fate → Bool
  | .written => false
  | .lost => true
  | .held whole _ => whole = 0

theorem Fate.carried_of_idle {fate : Fate} (h : fate.idle) (lines : List Json) :
    fate.carried lines = [] := by
  cases fate with
  | written => cases h
  | lost => rfl
  | held whole torn =>
    have hnone : whole = 0 := by simpa [idle] using h
    rw [carried, hnone, List.take_zero]

/-- Once a line is held back no write succeeds any more, so that no line of a failed append ever
reaches the file. -/
def EventLog.Forgetful (log : EventLog) : Prop :=
  ∀ m n, m ≤ n → (log.fate m).holds → (log.fate n).idle

structure EventLog.Forgetting (log : EventLog) : Prop where
  forgetful : log.Forgetful
  buffer : log.buffer = [] ∨ ∃ m < log.attempts, (log.fate m).holds

namespace EventLog

variable {log : EventLog}

theorem Reliable.forgetful (h : log.Reliable) : log.Forgetful := by
  intro m _ _ hholds
  rw [h.2 m] at hholds
  cases hholds

theorem Forgetful.reopen (h : log.Forgetful) : log.reopen.Forgetting := ⟨h, .inl rfl⟩

namespace Forgetting

theorem idle (h : log.Forgetting) (hbuffer : log.buffer ≠ []) : (log.fate log.attempts).idle := by
  obtain ⟨m, hlt, hholds⟩ := h.buffer.resolve_left hbuffer
  exact h.forgetful m log.attempts hlt.le hholds

/-- An append succeeds only while no line is held back. -/
theorem nothing_held (h : log.Forgetting) (hfate : log.fate log.attempts = .written) :
    log.buffer = [] ∧ log.torn = false := by
  have hempty : log.buffer = [] := by
    by_contra hne
    have hidle := h.idle hne
    rw [hfate] at hidle
    cases hidle
  refine ⟨hempty, ?_⟩
  rw [Bool.eq_false_iff]
  exact fun ht => log.buffer_of_torn ht hempty

theorem idle_of_held (h : log.Forgetting) (hholds : (log.fate log.attempts).holds) :
    (log.fate log.attempts).idle :=
  h.forgetful log.attempts log.attempts le_rfl hholds

theorem brought (h : log.Forgetting) (event : Json) :
    log.brought event = if log.ready then [event] else [] := by
  cases hopen : log.isOpen with
  | false => simp [EventLog.brought, ready, hopen]
  | true =>
    cases hfate : log.fate log.attempts with
    | written =>
      obtain ⟨hempty, htorn⟩ := h.nothing_held hfate
      simp [EventLog.brought, ready, hopen, hfate, hempty, htorn, Fate.carried]
    | lost => simp [EventLog.brought, ready, hopen, hfate, Fate.carried]
    | held whole torn =>
      have hidle := h.idle_of_held (by rw [hfate]; rfl)
      have hnone := Fate.carried_of_idle hidle (log.buffer ++ [event])
      rw [hfate] at hnone
      simp [EventLog.brought, ready, hopen, hfate, hnone]

theorem append (h : log.Forgetting) (event : Json) : (log.append event).1.Forgetting := by
  by_cases hopen : log.isOpen
  · refine ⟨?_, ?_⟩
    · intro m n hle
      rw [fate_append]
      exact h.forgetful m n hle
    · rw [fate_append, attempts_append_of_open hopen]
      cases hfate : log.fate log.attempts with
      | written =>
        left
        simp [EventLog.append, hopen, hfate]
      | lost =>
        have hsame : (log.append event).1.buffer = log.buffer := by
          simp [EventLog.append, receive, hopen, hfate]
        rw [hsame]
        refine h.buffer.imp_right ?_
        rintro ⟨m, hlt, hholds⟩
        exact ⟨m, Nat.lt_succ_of_lt hlt, hholds⟩
      | held whole torn => exact .inr ⟨log.attempts, Nat.lt_succ_self _, by rw [hfate]; rfl⟩
  · rw [append_of_closed hopen]
    exact h

theorem corrupt_append (h : log.Forgetting) (event : Json) :
    (log.append event).1.corrupt = log.corrupt := by
  by_cases hopen : log.isOpen
  · cases hfate : log.fate log.attempts with
    | written =>
      obtain ⟨hempty, htorn⟩ := h.nothing_held hfate
      simp [EventLog.append, receive, hopen, hfate, htorn]
    | lost => simp [EventLog.append, receive, hopen, hfate, Fate.carried]
    | held whole torn =>
      have hidle := h.idle_of_held (by rw [hfate]; rfl)
      have hnone := Fate.carried_of_idle hidle (log.buffer ++ [event])
      rw [hfate] at hnone
      simp [EventLog.append, receive, hopen, hfate, hnone]
  · rw [append_of_closed hopen]

theorem appendAll (h : log.Forgetting) (events : List Json) :
    (log.appendAll events).Forgetting := by
  induction events generalizing log with
  | nil => exact h
  | cons event events ih => exact ih (h.append event)

theorem corrupt_appendAll (h : log.Forgetting) (events : List Json) :
    (log.appendAll events).corrupt = log.corrupt := by
  induction events generalizing log with
  | nil => rfl
  | cons event events ih =>
    calc (log.appendAll (event :: events)).corrupt
      _ = (log.append event).1.corrupt := ih (h.append event)
      _ = log.corrupt := h.corrupt_append event

theorem events_appendAll (h : log.Forgetting) (events : List Json) :
    ∃ kept, (log.appendAll events).events = log.events ++ kept ∧ ∀ e ∈ kept, e ∈ events := by
  induction events generalizing log with
  | nil => exact ⟨[], (List.append_nil _).symm, by simp⟩
  | cons event events ih =>
    obtain ⟨kept, hkept, hsub⟩ := ih (h.append event)
    have heq : (log.appendAll (event :: events)).events = (log.append event).1.events ++ kept :=
      hkept
    refine ⟨log.brought event ++ kept, ?_, fun e hm => ?_⟩
    · rw [heq, log.events_append, List.append_assoc]
    · rw [h.brought] at hm
      rcases List.mem_append.mp hm with hm | hm
      · split_ifs at hm
        · rw [List.mem_singleton.mp hm]
          exact List.mem_cons_self
        · cases hm
      · exact List.mem_cons_of_mem event (hsub e hm)

theorem carried (h : log.Forgetting) : (log.fate log.attempts).carried log.buffer = [] := by
  by_cases hempty : log.buffer = []
  · rw [hempty]
    cases log.fate log.attempts with
    | held whole torn => exact List.take_nil
    | _ => rfl
  · exact Fate.carried_of_idle (h.idle hempty) log.buffer

theorem close (h : log.Forgetting) : log.close.events = log.events := by
  rw [log.events_close, flushed, h.carried]
  simp

theorem forgetful_close (h : log.Forgetting) : log.close.Forgetful := by
  have hfate : log.close.fate = log.fate := by
    unfold EventLog.close
    split_ifs <;> rfl
  intro m n hle
  rw [hfate]
  exact h.forgetful m n hle

theorem corrupt_close (h : log.Forgetting) : log.close.corrupt = log.corrupt := by
  unfold EventLog.close
  split_ifs
  · simp [receive, h.carried]
  · rfl

end Forgetting

end EventLog

namespace Ledger

variable {ledger : Ledger} {defaultVenue : String}

/-- Whatever the log brings back is registered. -/
structure Recalls (ledger : Ledger) (defaultVenue : String) : Prop where
  forgetting : ∀ log, ledger.log = some log → log.Forgetting
  registered : ∀ log, ledger.log = some log → ∀ id found,
    (replay defaultVenue (.empty _) log.events).find? id = some found →
      ∃ record, ledger.orders.find? id = some record ∧ found.Recalled record

theorem Recalls.enter (h : ledger.Recalls defaultVenue) (hsettled : ledger.Settled) {entry : Entry}
    (hsafe : ledger.Safe entry)
    (hrisk : ∀ record, entry = .riskRejected record → record.state = .rejected)
    (hlost : ∀ record, entry = .staged record false → ¬ ledger.log.all EventLog.ready) :
    (ledger.enter entry).Recalls defaultVenue := by
  refine ⟨fun log' hlog' => ?_, fun log' hlog' id found hfound => ?_⟩
  · rw [log_enter, Option.map_eq_some_iff] at hlog'
    obtain ⟨log, hlog, rfl⟩ := hlog'
    exact (h.forgetting log hlog).appendAll _
  rw [log_enter, Option.map_eq_some_iff] at hlog'
  obtain ⟨log, hlog, rfl⟩ := hlog'
  have hkey : ∀ old, ledger.orders.find? entry.key = some old → old.clientOrderId = entry.key :=
    fun _ => KeyedList.key_of_find?
  by_cases hstaged : ∃ record, entry = .staged record false
  · -- Nothing is stored, and nothing is appended either.
    obtain ⟨record, rfl⟩ := hstaged
    have hready : ¬ log.ready := by simpa [hlog] using hlost record rfl
    have hevents : (log.appendAll [placeSubmittedEvent record]).events = log.events := by
      have hnothing := (h.forgetting log hlog).brought (placeSubmittedEvent record)
      rw [if_neg hready] at hnothing
      have happend := log.events_append (placeSubmittedEvent record)
      rw [hnothing, List.append_nil] at happend
      exact happend
    have hwrite : ((Entry.staged record false).write
        (ledger.orders.find? (Entry.staged record false).key)) =
          (none, [placeSubmittedEvent record]) := by
      cases ledger.orders.find? (Entry.staged record false).key <;> rfl
    rw [hwrite, hevents] at hfound
    obtain ⟨registered, hregistered, hrecalled⟩ := h.registered log hlog id found hfound
    refine ⟨registered, ?_, hrecalled⟩
    rw [find?_enter, hwrite]
    split_ifs with heq
    · rw [heq, hregistered]
      rfl
    · exact hregistered
  · obtain ⟨kept, hkept, hsub⟩ := (h.forgetting log hlog).events_appendAll
      (entry.write (ledger.orders.find? entry.key)).2
    have hreplay : replay defaultVenue (.empty _) (log.events ++ kept) =
        kept.foldl (applyLogEvent defaultVenue) (replay defaultVenue (.empty _) log.events) :=
      List.foldl_append
    rw [hkept, hreplay] at hfound
    have htells : ∀ event ∈ kept, ∃ new,
        (entry.write (ledger.orders.find? entry.key)).1 = some new ∧ Tells new event := by
      intro event hm
      exact (Entry.tells_of_mem_write hrisk (hsub event hm)).resolve_right hstaged
    cases hw : (entry.write (ledger.orders.find? entry.key)).1 with
    | none =>
      have hnil : kept = [] := by
        apply List.eq_nil_iff_forall_not_mem.mpr
        intro event hm
        obtain ⟨new, hnew, -⟩ := htells event hm
        rw [hw] at hnew
        cases hnew
      rw [hnil] at hfound
      obtain ⟨registered, hregistered, hrecalled⟩ := h.registered log hlog id found hfound
      refine ⟨registered, ?_, hrecalled⟩
      rw [find?_enter, hw, Option.none_or]
      split_ifs with heq
      · rw [heq]
        exact hregistered
      · exact hregistered
    | some new =>
      have hid : new.clientOrderId = entry.key := Entry.key_write hkey hw
      have hnew : ∀ event ∈ kept, Tells new event := by
        intro event hm
        obtain ⟨new', hnew', htell⟩ := htells event hm
        rw [hw] at hnew'
        cases hnew'
        exact htell
      have hbefore : ∀ old, (replay defaultVenue (.empty _) log.events).find?
          new.clientOrderId = some old → old.Recalled new := by
        intro old hold
        obtain ⟨registered, hregistered, hrecalled⟩ := h.registered log hlog _ old hold
        rw [hid] at hregistered
        rw [hregistered] at hw
        have hinserted : entry.inserted = none := by
          cases hi : entry.inserted with
          | none => rfl
          | some record =>
            have hfree := (hsafe record hi).1
            rw [hregistered] at hfree
            cases hfree
        exact hrecalled.update (Entry.write_updates hinserted (hsettled _ _ hregistered) hw)
      rcases recalled_foldl hnew hbefore hfound with ⟨hself, hrecalled⟩ | ⟨hne, hother⟩
      · refine ⟨new, ?_, hrecalled⟩
        rw [hself, hid]
        exact ledger.find?_enter_of_write entry rfl hw
      · obtain ⟨registered, hregistered, hrecalled⟩ := h.registered log hlog id found hother
        refine ⟨registered, ?_, hrecalled⟩
        rw [find?_enter_of_ne]
        · exact hregistered
        · rw [← hid]
          exact Ne.symm hne

theorem Recalls.enterAll (h : ledger.Recalls defaultVenue) (hsettled : ledger.Settled)
    {entries : List Entry} (hsafe : ledger.SafeAll entries)
    (hrisk : ∀ entry ∈ entries, ∀ record, entry = .riskRejected record → record.state = .rejected)
    (hsettles : ∀ entry ∈ entries, entry.settles) :
    (ledger.enterAll entries).Recalls defaultVenue := by
  induction entries generalizing ledger with
  | nil => exact h
  | cons entry entries ih =>
    have hlost : ∀ record, entry = .staged record false → ¬ ledger.log.all EventLog.ready := by
      intro record he
      have hs := hsettles entry List.mem_cons_self
      rw [he] at hs
      cases hs
    apply ih (h.enter hsettled hsafe.1 (hrisk entry List.mem_cons_self) hlost)
      (hsettled.enter hsafe.1) hsafe.2
    · exact fun e he => hrisk e (List.mem_cons_of_mem entry he)
    · exact fun e he => hsettles e (List.mem_cons_of_mem entry he)

theorem readable_enterAll (ledger : Ledger)
    (h : ∀ log, ledger.log = some log → log.Forgetting ∧ log.corrupt = false)
    (entries : List Entry) : ∀ log, (ledger.enterAll entries).log = some log →
      log.Forgetting ∧ log.corrupt = false := by
  induction entries generalizing ledger with
  | nil => exact h
  | cons entry entries ih =>
    apply ih
    intro log' hlog'
    rw [log_enter, Option.map_eq_some_iff] at hlog'
    obtain ⟨log, hlog, rfl⟩ := hlog'
    obtain ⟨hforgetting, hreadable⟩ := h log hlog
    exact ⟨hforgetting.appendAll _, (hforgetting.corrupt_appendAll _).trans hreadable⟩

end Ledger

namespace System

variable {s t : System} {a : Action}

/-- A fresh process has registered what its log brings back. -/
theorem recalls_start (config : Config) {log : Option EventLog}
    (hlog : ∀ l, log = some l → l.Forgetful) :
    (Oms.start config log).ledger.Recalls (Oms.start config log).defaultVenue := by
  cases log with
  | none => exact ⟨fun _ hl => (by cases hl), fun _ hl => (by cases hl)⟩
  | some log =>
    constructor
    · intro log' hl
      obtain rfl : log.reopen = log' := Option.some.inj hl
      exact (hlog log rfl).reopen
    · intro log' hl id found hfound
      obtain rfl : log.reopen = log' := Option.some.inj hl
      exact ⟨found, hfound, .refl found⟩

/-- What the risk check rejects is rejected. -/
theorem rejected_of_mem_entries {entry : Entry} (h : entry ∈ s.entries a) (record : OrderRecord)
    (he : entry = .riskRejected record) : record.state = .rejected := by
  cases s.enters_of_mem h with
  | riskRejected =>
    cases he
    rfl
  | _ => cases he

private theorem recalls_place (h : s.oms.ledger.Recalls s.oms.defaultVenue)
    (hsettled : s.oms.ledger.Settled) (request : OrderRequest) (venue : String) :
    (s.oms.ledger.enterAll (s.entries (.place request venue))).Recalls s.oms.defaultVenue := by
  have hsafe := s.safeAll_entries (.place request venue)
  simp only [entries] at hsafe ⊢
  cases s.oms.placeStage_cases request venue with
  | unchanged _ hentries _ =>
    rw [hentries]
    exact h
  | riskRejected venue' rejection _ _ hentries _ _ =>
    rw [hentries] at hsafe ⊢
    have hrisk : ∀ record, Entry.riskRejected ((Oms.candidate request venue').reject rejection) =
        .riskRejected record → record.state = .rejected := by
      intro record he
      cases he
      rfl
    exact h.enter hsettled hsafe.1 hrisk fun _ he => by cases he
  | unpersisted venue' _ _ hpersists hentries _ _ =>
    rw [hentries] at hsafe ⊢
    refine h.enter hsettled hsafe.1 (fun _ he => by cases he) ?_
    intro _ _ hready
    have hpersists' : s.oms.persists = true := hready
    rw [hpersists] at hpersists'
    cases hpersists'
  | opened venue' _ _ _ _ hentries _ _ _ =>
    rw [hentries] at hsafe ⊢
    exact h.enter hsettled hsafe.1 (fun _ he => by cases he) fun _ he => by cases he

theorem recalls_step (h : s.oms.ledger.Recalls s.oms.defaultVenue)
    (hsettled : s.oms.ledger.Settled) (hs : s.step a = some t) (ha : a.live) :
    t.oms.ledger.Recalls t.oms.defaultVenue := by
  have hvenue : t.oms.defaultVenue = s.oms.defaultVenue :=
    congrArg Config.defaultVenue (config_step hs ha)
  rw [hvenue]
  rcases ledger_step_cases hs ha with ⟨orders, rfl, hp, rfl⟩ | hledger
  · refine ⟨h.forgetting, fun log hlog id found hfound => ?_⟩
    obtain ⟨record, hr, hrecalled⟩ := h.registered log hlog id found hfound
    exact ⟨record, (KeyedList.find?_of_perm hp id).trans hr, hrecalled⟩
  · rw [hledger]
    by_cases hplace : ∃ request venue, a = .place request venue
    · obtain ⟨request, venue, rfl⟩ := hplace
      exact recalls_place h hsettled request venue
    · apply h.enterAll hsettled (s.safeAll_entries a)
      · exact fun entry hm => rejected_of_mem_entries hm
      · exact fun entry hm =>
          settles_of_mem_entries (fun request venue he => hplace ⟨request, venue, he⟩) hm

/-- No line of the log is unreadable, and none becomes so. -/
def Readable (s : System) : Prop :=
  ∀ log, s.oms.log = some log → log.Forgetting ∧ log.corrupt = false

theorem Readable.step (h : s.Readable) (hs : s.step a = some t) : t.Readable := by
  by_cases ha : a.live
  · rcases ledger_step_cases hs ha with ⟨orders, rfl, hp, rfl⟩ | hledger
    · exact h
    · have hlog : t.oms.log = (s.oms.ledger.enterAll (s.entries a)).log :=
        congrArg Ledger.log hledger
      unfold Readable
      rw [hlog]
      exact s.oms.ledger.readable_enterAll h _
  · cases a <;> try exact absurd rfl ha
    obtain rfl := restart_cases hs
    intro log' hlog'
    rw [log_restart, Option.map_eq_some_iff] at hlog'
    obtain ⟨log, hlog, rfl⟩ := hlog'
    obtain ⟨hforgetting, hreadable⟩ := h log hlog
    exact ⟨⟨hforgetting.forgetful_close, .inl rfl⟩, hforgetting.corrupt_close.trans hreadable⟩

structure Recalling (s : System) : Prop where
  intended : s.Intended
  settled : s.oms.ledger.Settled
  recalls : s.oms.ledger.Recalls s.oms.defaultVenue

theorem Recalling.step (h : s.Recalling) (hs : s.step a = some t) : t.Recalling := by
  have hintended := h.intended.step hs
  by_cases ha : a.live
  · have hsettled := (step_advances h.settled hs ha).1
    exact ⟨hintended, hsettled, recalls_step h.recalls h.settled hs ha⟩
  · cases a <;> try exact absurd rfl ha
    obtain rfl := restart_cases hs
    refine ⟨hintended, boot_settled _ _, recalls_start _ ?_⟩
    intro log' hlog'
    obtain ⟨log, hlog, rfl⟩ := Option.map_eq_some_iff.mp hlog'
    exact (h.recalls.forgetting log hlog).forgetful_close

theorem boot_recalling (config : Config) {log : Option EventLog}
    (hlog : ∀ l, log = some l → l.Forgetful) : (boot config log).Recalling :=
  ⟨boot_intended config log, boot_settled config log, recalls_start config hlog⟩

end System

end ExchangeGateway
