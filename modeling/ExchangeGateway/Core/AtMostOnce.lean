import ExchangeGateway.Core.Ownership

/-! The place is sent at most once per client order: the intent is in the log before the
request leaves, an order that was sent is registered, from the log after a restart, and a registered
id is never sent again. -/
namespace ExchangeGateway

def Json.Submits (event : Json) (id : String) : Prop :=
  eventString event "type" = some "place_submitted" ∧
    eventString event "clientOrderId" = some id

/-- The intent to place this client order is in the log. -/
def EventLog.Submitted (log : EventLog) (id : String) : Prop :=
  ∃ event ∈ log.events, event.Submits id

namespace EventLog

theorem mem_events_append_of_mem {log : EventLog} {e : Json} (h : e ∈ log.events)
    (event : Json) : e ∈ (log.append event).1.events := by
  rw [log.events_append]
  exact List.mem_append_left _ h

theorem mem_events_appendAll_of_mem {log : EventLog} {e : Json} (h : e ∈ log.events)
    (events : List Json) : e ∈ (log.appendAll events).events := by
  induction events generalizing log with
  | nil => exact h
  | cons event events ih => exact ih (mem_events_append_of_mem h event)

theorem Submitted.appendAll {log : EventLog} {id : String} (h : log.Submitted id)
    (events : List Json) : (log.appendAll events).Submitted id := by
  obtain ⟨event, hm, hs⟩ := h
  exact ⟨event, mem_events_appendAll_of_mem hm events, hs⟩

theorem Submitted.close {log : EventLog} {id : String} (h : log.Submitted id) :
    log.close.Submitted id := by
  obtain ⟨event, hm, hs⟩ := h
  refine ⟨event, ?_, hs⟩
  rw [log.events_close]
  exact List.mem_append_left _ hm

end EventLog

/-! ### Replay registers every intent -/

theorem mem_applyLogEvent {orders : Registry} {id : String} (h : id ∈ orders)
    (defaultVenue : String) (event : Json) : id ∈ applyLogEvent defaultVenue orders event := by
  unfold applyLogEvent
  repeat' split
  all_goals first | exact h | exact KeyedList.mem_set.mpr (.inr h)

theorem mem_applyLogEvent_of_submits {event : Json} {id : String} (h : event.Submits id)
    (defaultVenue : String) (orders : Registry) :
    id ∈ applyLogEvent defaultVenue orders event := by
  unfold applyLogEvent
  rw [h.1, h.2]
  exact KeyedList.mem_set.mpr (.inl rfl)

theorem mem_replay {orders : Registry} {events : List Json} {id : String}
    (h : id ∈ orders ∨ ∃ event ∈ events, event.Submits id) (defaultVenue : String) :
    id ∈ replay defaultVenue orders events := by
  induction events generalizing orders with
  | nil =>
    rcases h with h | ⟨event, hm, -⟩
    · exact h
    · cases hm
  | cons event events ih =>
    refine ih ?_
    rcases h with h | ⟨event', hm, hs⟩
    · exact .inl (mem_applyLogEvent h defaultVenue event)
    · rcases List.mem_cons.mp hm with rfl | hm
      · exact .inl (mem_applyLogEvent_of_submits hs defaultVenue orders)
      · exact .inr ⟨event', hm, hs⟩

/-! ### Only a staged place writes an intent -/

def Entry.settles : Entry → Bool
  | .staged _ _ => false
  | _ => true

namespace Ledger

/-- A persisted staging leaves the intent in the log. -/
theorem submitted_of_staged {ledger : Ledger} {log : EventLog} {record : OrderRecord}
    (hlog : (ledger.enter (.staged record true)).log = some log)
    (h : ledger.log.all EventLog.ready) : log.Submitted record.clientOrderId := by
  rw [log_enter, Option.map_eq_some_iff] at hlog
  obtain ⟨log, hl, rfl⟩ := hlog
  have hr : log.ready := by simpa [hl] using h
  refine ⟨placeSubmittedEvent record, ?_, rfl, rfl⟩
  obtain ⟨before, hbefore⟩ := EventLog.brought_of_ready hr (placeSubmittedEvent record)
  show _ ∈ (log.append (placeSubmittedEvent record)).1.events
  rw [EventLog.events_append, hbefore]
  simp

theorem submitted_enterAll (ledger : Ledger) {log : EventLog} {id : String}
    (hl : ledger.log = some log) (hs : log.Submitted id) (entries : List Entry) :
    ∃ log', (ledger.enterAll entries).log = some log' ∧ log'.Submitted id := by
  induction entries generalizing ledger log with
  | nil => exact ⟨log, hl, hs⟩
  | cons entry entries ih =>
    have hl' : (ledger.enter entry).log =
        some (log.appendAll (entry.write (ledger.orders.find? entry.key)).2) := by
      rw [log_enter, hl]
      rfl
    exact ih _ hl' (hs.appendAll _)

theorem log_isSome_enterAll (ledger : Ledger) (entries : List Entry) :
    (ledger.enterAll entries).log.isSome = ledger.log.isSome := by
  induction entries generalizing ledger with
  | nil => rfl
  | cons entry entries ih =>
    rw [enterAll_cons, ih, log_enter, Option.isSome_map]

end Ledger

namespace System

variable {s t : System}

/-- Only a place stages. -/
theorem settles_of_mem_entries {a : Action} (ha : ∀ r v, a ≠ .place r v)
    {entry : Entry} (h : entry ∈ s.entries a) : entry.settles := by
  cases s.enters_of_mem h with
  | staged => exact absurd rfl (ha _ _)
  | _ => rfl

/-- Every place that was ever sent or is about to be sent has its intent in the log, every order
that was sent is registered, and what is about to be sent was not sent before. -/
structure Intended (s : System) : Prop where
  owned : s.Owned
  /-- With a log, open places and past sends are logged. -/
  opened : ∀ log, s.oms.log = some log → ∀ request connector staged sent,
    .place request connector staged sent ∈ s.calls → log.Submitted request.clientOrderId
  logged : ∀ log, s.oms.log = some log → ∀ send ∈ s.trace.sent, log.Submitted send.2
  /-- Sends belong to this incarnation or an earlier one; the latter are registered from the log. -/
  past : ∀ send ∈ s.trace.sent, send.1 ≤ s.trace.incarnation
  registered : ∀ send ∈ s.trace.sent,
    send.1 = s.trace.incarnation ∨ s.oms.log.isSome → send.2 ∈ s.oms.orders
  unsent : ∀ request connector staged, .place request connector staged false ∈ s.calls →
    (s.trace.incarnation, request.clientOrderId) ∉ s.trace.sent ∧
      (s.oms.log.isSome → request.clientOrderId ∉ s.trace.sent.map Prod.snd)
  once : s.trace.sent.Nodup
  onceLogged : s.oms.log.isSome → (s.trace.sent.map Prod.snd).Nodup

theorem log_start (config : Config) (log : Option EventLog) :
    (Oms.start config log).log = log.map EventLog.reopen := by
  cases log <;> rfl

/-- A fresh process has registered every intent of its log. -/
theorem mem_orders_start (config : Config) {log : EventLog} {id : String} (h : log.Submitted id) :
    id ∈ (Oms.start config (some log)).orders := mem_replay (.inr h) config.defaultVenue

/-- What was in the log is in that of the next process. -/
theorem log_restart (s : System) (config : Config) (logOpen : Bool) :
    (s.restart config logOpen).oms.log =
      s.oms.log.map fun log => { log.close.reopen with isOpen := logOpen } := by
  rw [System.restart, log_start, Option.map_map]
  rfl

theorem boot_intended (config : Config) (log : Option EventLog) :
    (boot config log).Intended where
  owned := boot_owned config log
  opened _ _ _ _ _ _ h := by cases h
  logged _ _ _ h := by cases h
  past _ h := by cases h
  registered _ h := by cases h
  unsent _ _ _ h := by cases h
  once := List.nodup_nil
  onceLogged _ := List.nodup_nil

private theorem Intended.restart (h : s.Intended) {config : Config} {logOpen : Bool}
    (hs : s.step (.restart config logOpen) = some t) : t.Intended := by
  have howned := h.owned.step hs
  obtain rfl := restart_cases hs
  have hlogged (log : EventLog) (hlog : s.oms.log = some log) (send : ℕ × String)
      (hm : send ∈ s.trace.sent) : log.close.Submitted send.2 := (h.logged log hlog send hm).close
  refine ⟨howned, fun _ _ _ _ _ _ hm => (by cases hm), fun log' hlog' send hm => ?_,
    fun send hm => Nat.le_succ_of_le (h.past send hm), fun send hm hreason => ?_,
    fun _ _ _ hm => (by cases hm), h.once, fun hlog => h.onceLogged ?_⟩
  · rw [log_restart, Option.map_eq_some_iff] at hlog'
    obtain ⟨log, hlog, rfl⟩ := hlog'
    exact hlogged log hlog send hm
  · have hsome : s.oms.log.isSome := by
      rcases hreason with hi | hlog
      · have hpast := h.past send hm
        have hi : send.1 = s.trace.incarnation + 1 := hi
        omega
      · rwa [log_restart, Option.isSome_map] at hlog
    obtain ⟨log, hlog⟩ := Option.isSome_iff_exists.mp hsome
    rw [System.restart, hlog]
    exact mem_orders_start config (hlogged log hlog send hm)
  · rwa [log_restart, Option.isSome_map] at hlog

/-! ### One step -/

variable {a : Action}

theorem sent_step (hs : s.step a = some t) (ha : a.live) (hsend : ∀ i, a ≠ .send i) :
    t.trace.sent = s.trace.sent ∧ t.trace.incarnation = s.trace.incarnation := by
  by_cases hsilent : a.silent
  · rw [trace_step hs hsilent]
    exact ⟨rfl, rfl⟩
  · cases a with
    | place request venue =>
      obtain rfl := Option.some.inj hs
      obtain he | ⟨-, he⟩ := s.trace_place request venue <;> rw [he] <;> exact ⟨rfl, rfl⟩
    | send i => exact absurd rfl (hsend i)
    | report report =>
      obtain rfl := Option.some.inj hs
      exact ⟨rfl, rfl⟩
    | restart config logOpen => cases ha
    | _ => exact absurd rfl hsilent

theorem log_isSome_step (hs : s.step a = some t) (ha : a.live) :
    t.oms.log.isSome = s.oms.log.isSome := by
  rcases ledger_step_cases hs ha with ⟨orders, rfl, -, rfl⟩ | hledger
  · rfl
  · have hlog := s.oms.ledger.log_isSome_enterAll (s.entries a)
    rw [← hledger] at hlog
    exact hlog

/-- Intents stay in the log. -/
theorem submitted_step (hs : s.step a = some t) (ha : a.live) {log' : EventLog}
    (hlog' : t.oms.log = some log') {id : String}
    (h : ∀ log, s.oms.log = some log → log.Submitted id) : log'.Submitted id := by
  rcases ledger_step_cases hs ha with ⟨orders, rfl, -, rfl⟩ | hledger
  · exact h log' hlog'
  · have hsome := log_isSome_step hs ha
    rw [hlog'] at hsome
    obtain ⟨log, hlog⟩ := Option.isSome_iff_exists.mp hsome.symm
    obtain ⟨log'', hl, hsub⟩ := s.oms.ledger.submitted_enterAll hlog (h log hlog) (s.entries a)
    rw [← hledger] at hl
    obtain rfl : log'' = log' := Option.some.inj (hl.symm.trans hlog')
    exact hsub

/-- A staged place is not among the sent ones: it is not registered, and those are. -/
private theorem unsent_of_new (h : s.Intended) {id : String} (hnew : s.oms.lookup id = none) :
    (s.trace.incarnation, id) ∉ s.trace.sent ∧
      (s.oms.log.isSome → id ∉ s.trace.sent.map Prod.snd) := by
  have hn : id ∉ s.oms.orders := KeyedList.not_mem_iff.mpr hnew
  refine ⟨fun hm => hn (h.registered _ hm (.inl rfl)), fun hlog hm => ?_⟩
  obtain ⟨send, hsend, rfl⟩ := List.mem_map.mp hm
  exact hn (h.registered send hsend (.inr hlog))

private theorem mem_set_cases {α : Type} {l : List α} {i : ℕ} {a b : α}
    (h : b ∈ l.set i a) : b = a ∨ b ∈ l.eraseIdx i := by
  induction l generalizing i with
  | nil => cases h
  | cons c l ih =>
    cases i with
    | zero => simpa using h
    | succ i =>
      rcases List.mem_cons.mp h with rfl | h
      · exact .inr List.mem_cons_self
      · exact (ih h).imp_right (List.mem_cons_of_mem c)

private theorem Intended.send (h : s.Intended) {i : ℕ} (hs : s.step (.send i) = some t) :
    t.Intended := by
  have howned := h.owned.step hs
  obtain ⟨request, connector, staged, hc, rfl⟩ := send_cases hs
  have hmem := List.mem_of_getElem? hc
  obtain ⟨hnew, hnewLogged⟩ := h.unsent request connector staged hmem
  refine ⟨howned, fun log hlog request' connector' staged' sent' hm => ?_,
    fun log hlog send hm => ?_, fun send hm => ?_, fun send hm hreason => ?_,
    fun request' connector' staged' hm => ?_, ?_, fun hlog => ?_⟩
  · rcases List.mem_or_eq_of_mem_set hm with hm | he
    · exact h.opened log hlog _ _ _ _ hm
    · obtain ⟨rfl, -⟩ := Call.place.inj he
      exact h.opened log hlog _ _ _ _ hmem
  · rcases List.mem_append.mp hm with hm | hm
    · exact h.logged log hlog send hm
    · rw [List.mem_singleton.mp hm]
      exact h.opened log hlog _ _ _ _ hmem
  · rcases List.mem_append.mp hm with hm | hm
    · exact h.past send hm
    · rw [List.mem_singleton.mp hm]
  · rcases List.mem_append.mp hm with hm | hm
    · exact h.registered send hm hreason
    · rw [List.mem_singleton.mp hm]
      exact h.owned.registered _ (List.mem_filterMap.mpr ⟨_, hmem, rfl⟩)
  · rcases mem_set_cases hm with he | hm
    · cases he
    · have hne : request'.clientOrderId ≠ request.clientOrderId := fun he =>
        h.owned.owner_ne hc rfl hm (congrArg some he)
      obtain ⟨hold, holdLogged⟩ := h.unsent _ _ _ (List.mem_of_mem_eraseIdx hm)
      refine ⟨fun hm => ?_, fun hlog hm => ?_⟩
      · rcases List.mem_append.mp hm with hm | hm
        · exact hold hm
        · exact hne (congrArg Prod.snd (List.mem_singleton.mp hm))
      · simp only [List.map_append, List.mem_append] at hm
        rcases hm with hm | hm
        · exact holdLogged hlog hm
        · exact hne (List.mem_singleton.mp hm)
  · refine List.nodup_append.mpr ⟨h.once, by simp, fun a ha b hb => ?_⟩
    rw [List.mem_singleton.mp hb]
    exact fun e => hnew (e ▸ ha)
  · simp only [List.map_append]
    refine List.nodup_append.mpr ⟨h.onceLogged hlog, by simp, fun a ha b hb => ?_⟩
    rw [List.mem_singleton.mp hb]
    exact fun (e : a = request.clientOrderId) => hnewLogged hlog (e ▸ ha)

theorem Intended.step (h : s.Intended) (hs : s.step a = some t) : t.Intended := by
  by_cases ha : a.live
  swap
  · cases a <;> try exact absurd rfl ha
    exact h.restart hs
  have howned := h.owned.step hs
  have hsome := log_isSome_step hs ha
  by_cases hsend : ∃ i, a = .send i
  · obtain ⟨i, rfl⟩ := hsend
    exact h.send hs
  · obtain ⟨hsent, hinc⟩ := sent_step hs ha fun i e => hsend ⟨i, e⟩
    refine ⟨howned, fun log' hlog' request connector staged sent hm => ?_,
      fun log' hlog' send hm => ?_, ?_, ?_, fun request connector staged hm => ?_, ?_, ?_⟩
    · rcases mem_calls_step hs hm with hm | hm
      · exact submitted_step hs ha hlog' fun log hlog => h.opened log hlog _ _ _ _ hm
      · cases hm with
        | place venue' _ _ hpersists _ hentries =>
          have hl := step_ledger hs ha fun _ => nofun
          have hlog : (s.oms.ledger.enter (.staged (Oms.candidate request venue') true)).log =
              some log' := by
            rw [hentries] at hl
            exact (congrArg Ledger.log hl).symm.trans hlog'
          exact Ledger.submitted_of_staged hlog hpersists
        | sent hc => exact absurd ⟨_, rfl⟩ hsend
    · exact submitted_step hs ha hlog' fun log hlog => h.logged log hlog send (hsent ▸ hm)
    · rw [hsent, hinc]
      exact h.past
    · rw [hsent, hinc, hsome]
      exact fun send hm hreason => mem_orders_step hs ha (h.registered send hm hreason)
    · rw [hsent, hinc, hsome]
      rcases mem_calls_step hs hm with hm | hm
      · exact h.unsent _ _ _ hm
      · cases hm with
        | place _ _ hnew _ _ _ => exact unsent_of_new h hnew
    · rw [hsent]
      exact h.once
    · rw [hsent, hsome]
      exact h.onceLogged

theorem log_isSome_run {config : Config} {log : Option EventLog} (h : Run (boot config log) s) :
    s.oms.log.isSome = log.isSome := by
  have hboot : (boot config log).oms.log.isSome = log.isSome := by
    have hstart : (boot config log).oms.log = log.map EventLog.reopen := log_start config log
    rw [hstart, Option.isSome_map]
  refine Transition.Reaches.invariant (I := fun s => s.oms.log.isSome = log.isSome) ?_ h hboot
  intro s a t hI _ hs
  by_cases ha : a.live
  · exact (log_isSome_step hs ha).trans hI
  · cases a <;> try exact absurd rfl ha
    obtain rfl := restart_cases hs
    rw [log_restart, Option.isSome_map]
    exact hI

/-- In every run `place_order` is invoked at most once per client order and incarnation; with a
log at most once per client order, whatever the restarts, and only after the intent has been
persisted. -/
theorem placeOrder_at_most_once (config : Config) (log : Option EventLog) {s : System}
    (h : Run (boot config log) s) :
    s.trace.sent.Nodup ∧ (log.isSome → (s.trace.sent.map Prod.snd).Nodup) ∧
      ∀ i t, s.step (.send i) = some t → ∃ id,
        t.trace.sent = s.trace.sent ++ [(s.trace.incarnation, id)] ∧
          (log.isSome → ∃ l, s.oms.log = some l ∧ l.Submitted id) := by
  have hI : s.Intended := Transition.Reaches.invariant (fun _ _ _ hI _ hs => hI.step hs) h
    (boot_intended config log)
  have hlog := log_isSome_run h
  refine ⟨hI.once, fun hl => hI.onceLogged (hlog ▸ hl), fun i t hs => ?_⟩
  obtain ⟨request, connector, staged, hc, rfl⟩ := send_cases hs
  refine ⟨request.clientOrderId, rfl, fun hl => ?_⟩
  obtain ⟨l, hl⟩ := Option.isSome_iff_exists.mp (hlog ▸ hl)
  exact ⟨l, hl, hI.opened l hl _ _ _ _ (List.mem_of_getElem? hc)⟩

/-- A place whose answer is lost, a restart, a retry that is replayed, another place. -/
def retryActions : List Action :=
  [.place .sample "", .send 0, .placed 0 (.error ⟨"transport", "timeout"⟩),
    .restart .sample true, .place .sample "",
    .place { OrderRequest.sample with clientOrderId := "c2" } "", .send 0]

theorem placeOrder_at_most_once_retry :
    ∃ s, Run (boot .sample (some .fresh)) s ∧ s.trace.sent = [(0, "c1"), (1, "c2")] ∧
      (s.trace.sent.map Prod.snd).Nodup := by
  have hrun : (Transition.exec step (fun _ _ => True) (boot .sample (some .fresh))
    retryActions).isSome := by decide
  have hreach := Transition.reaches_get_exec hrun
  exact ⟨_, hreach, rfl, (placeOrder_at_most_once .sample (some .fresh) hreach).2.1 rfl⟩

end System

end ExchangeGateway
