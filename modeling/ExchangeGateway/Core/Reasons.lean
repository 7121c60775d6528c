import ExchangeGateway.Core.Legs

/-! Rejected orders and their reasons. Risk, venue and absence rejections set both the state and
the recorded rejection. A venue observation of the state Rejected sets only the state, and so does
the replay of a `state` event. -/
namespace ExchangeGateway

def OrderRecord.Reasoned (record : OrderRecord) : Prop :=
  record.state = .rejected ↔ record.rejection.isSome

/-- A venue observation does not reject: it says something else, or finds the order closed or its
leg superseded. -/
def Entry.reasoned : Entry → Option OrderRecord → Bool
  | .reported _ report, some record =>
    report.state ≠ .rejected || isTerminal record.state ||
      record.superseded report.exchangeOrderId
  | .listed _ snapshot, none => snapshot.state ≠ .rejected
  | .listed _ snapshot, some record | .resolved _ snapshot, some record =>
    snapshot.state ≠ .rejected || isTerminal record.state
  | _, _ => true

def eventRejects (event : Json) : Bool :=
  parseOrderState ((eventString event "state").getD "") = some .rejected

/-- A `state` event of a rejected order finds the rejection already replayed, or no record; an
adopted order is not a rejected one. -/
def explains (orders : Registry) (event : Json) : Bool :=
  !eventRejects event ||
    match eventString event "type", eventString event "clientOrderId" with
    | some "state", some id => (orders.find? id).all (·.rejection.isSome)
    | some "adopted", _ => false
    | _, _ => true

/-- Each of the lines finds its reason in the replay of what stands before it. -/
def explainsLines (defaultVenue : String) : Registry → List Json → Bool
  | _, [] => true
  | orders, event :: events =>
    explains orders event &&
      explainsLines defaultVenue (applyLogEvent defaultVenue orders event) events

/-- So do all lines that some appends bring to the file. -/
def EventLog.explains (defaultVenue : String) : EventLog → List Json → Bool
  | _, [] => true
  | log, event :: events =>
    explainsLines defaultVenue (replay defaultVenue (.empty _) log.events) (log.brought event) &&
      explains defaultVenue (log.append event).1 events

/-- The write gives its reason, in the registry and in the log. -/
def Ledger.explains (defaultVenue : String) (ledger : Ledger) (entry : Entry) : Bool :=
  entry.reasoned (ledger.orders.find? entry.key) &&
    ledger.log.all (·.explains defaultVenue (entry.write (ledger.orders.find? entry.key)).2)

def Ledger.explainsAll (defaultVenue : String) : Ledger → List Entry → Bool
  | _, [] => true
  | ledger, entry :: entries =>
    ledger.explains defaultVenue entry &&
      explainsAll defaultVenue (ledger.enter entry) entries

/-- No venue observation rejects an order, and no `state` line of a rejected order reaches the file
before its rejection. -/
def System.explains (s : System) (a : Action) : Bool :=
  s.oms.ledger.explainsAll s.oms.defaultVenue (s.entries a)

namespace OrderRecord

variable {old new : OrderRecord}

theorem Reasoned.of_move (h : old.Reasoned) (hrejection : new.rejection = old.rejection)
    (hstate : new.state = old.state ∨ ¬ isTerminal old.state ∧ new.state ≠ .rejected) :
    new.Reasoned := by
  unfold Reasoned at h ⊢
  rw [hrejection]
  rcases hstate with hs | ⟨hlive, hne⟩
  · rw [hs]
    exact h
  · have hold : old.state ≠ .rejected := by
      intro he
      rw [he] at hlive
      exact hlive rfl
    rw [← h]
    simp [hne, hold]

theorem Reasoned.of_reject (hstate : new.state = .rejected) (hrejection : new.rejection.isSome) :
    new.Reasoned := by
  simp [Reasoned, hstate, hrejection]

theorem Reasoned.of_none (hstate : new.state ≠ .rejected) (hrejection : new.rejection = none) :
    new.Reasoned := by
  simp [Reasoned, hstate, hrejection]

theorem Reasoned.observed (h : old.Reasoned) (learned : Prop) [Decidable learned] (id : String)
    (state : OrderState) (filled avgPrice price quantity : String) (lifecycle : Bool)
    (hstate : lifecycle → state ≠ .rejected ∨ isTerminal old.state) :
    ((if learned then old.noteExchangeId id else old).applyObservation state filled avgPrice price
      quantity lifecycle).1.Reasoned := by
  obtain ⟨exchangeOrderId, legs, hmid⟩ := old.learned_spec learned id
  obtain ⟨state', _, _, _, _, _, heq, -, hs, -⟩ :=
    (if learned then old.noteExchangeId id else old).applyObservation_spec state filled avgPrice
      price quantity lifecycle
  rw [heq]
  rw [hmid] at hs ⊢
  refine h.of_move rfl ?_
  rcases hs with hs | ⟨hl, hs, hc⟩
  · exact .inl hs
  · have hc' : canTransition old.state state := hc
    have hlive : ¬ isTerminal old.state := by
      intro ht
      rw [not_canTransition_of_terminal ht] at hc'
      cases hc'
    refine .inr ⟨hlive, ?_⟩
    show state' ≠ _
    rw [hs]
    exact (hstate hl).resolve_right hlive

end OrderRecord

/-! ### The registry -/

theorem Entry.reasoned_write {entry : Entry} {old : Option OrderRecord} {new : OrderRecord}
    (hinserted : ∀ record, entry.inserted = some record → record.Reasoned)
    (hold : ∀ record, old = some record → record.Reasoned) (hreasoned : entry.reasoned old)
    (hw : (entry.write old).1 = some new) : new.Reasoned := by
  obtain hi | ⟨venue, snapshot, rfl, rfl, rfl⟩ | ⟨hi, record, rfl⟩ := write_cases hw
  · exact hinserted new hi
  · have hne : snapshot.state ≠ .rejected := by simpa [reasoned] using hreasoned
    exact .of_none hne rfl
  have h := hold record rfl
  cases rewrites_of_write hi hw with
  | accepted _ exchangeOrderId =>
    obtain ⟨_, _, hnote⟩ := record.noteExchangeId_spec exchangeOrderId
    refine h.of_move ?_ ?_
    · rw [OrderRecord.accept, hnote]
    · have hstate : (record.accept exchangeOrderId).state =
          (applyTransition record.state .live).1 := rfl
      rw [hstate, applyTransition_eq]
      by_cases hc : canTransition record.state .live
      · rw [if_pos hc]
        refine .inr ⟨fun ht => ?_, fun he => by cases he⟩
        rw [not_canTransition_of_terminal ht] at hc
        cases hc
      · rw [if_neg hc]
        exact .inl rfl
  | rejected _ error _ => exact .of_reject rfl rfl
  | canceled _ exchangeOrderId hc =>
    obtain ⟨_, _, hnote⟩ := record.noteExchangeId_spec exchangeOrderId
    refine h.of_move (by rw [hnote]) (.inr ⟨fun ht => ?_, fun he => by cases he⟩)
    rw [OrderRecord.state_noteExchangeId, not_canTransition_of_terminal ht] at hc
    cases hc
  | noted _ exchangeOrderId =>
    obtain ⟨_, _, hnote⟩ := record.noteExchangeId_spec exchangeOrderId
    exact h.of_move (by rw [hnote]) (.inl (by rw [hnote]))
  | amended _ price quantity exchangeOrderId =>
    obtain ⟨_, _, hamend⟩ := OrderRecord.appendAmendLeg_spec
      { record with price := price, quantity := quantity } exchangeOrderId
    rw [OrderRecord.amend, hamend]
    exact h.of_move rfl (.inl rfl)
  | discovered _ exchangeOrderId =>
    obtain ⟨_, _, hnote⟩ := record.noteExchangeId_spec exchangeOrderId
    rw [hnote]
    exact h.of_move rfl (.inl rfl)
  | reported _ report =>
    refine h.observed _ _ _ _ _ _ _ _ fun hlifecycle => ?_
    have hcurrent : record.superseded report.exchangeOrderId = false := by
      simpa using hlifecycle
    simpa [reasoned, hcurrent] using hreasoned
  | listed _ snapshot =>
    unfold Oms.refreshed
    exact h.observed _ _ _ _ _ _ _ _ fun _ => by simpa [reasoned] using hreasoned
  | resolved _ snapshot =>
    unfold OrderRecord.resolve
    exact h.observed _ _ _ _ _ _ _ _ fun _ => by simpa [reasoned] using hreasoned
  | absent _ _ => exact .of_reject rfl rfl

/-! ### The log -/

namespace OrderRecord

variable {record : OrderRecord}

private theorem reasoned_replayAmended (h : record.Reasoned) (event : Json) :
    (record.replayAmended event).Reasoned := by
  have hterms : (record.replayTerms event).Reasoned := h
  unfold replayAmended
  dsimp only
  split
  · obtain ⟨_, _, hnote⟩ := (record.replayTerms event).noteExchangeId_spec
      ((eventString event "exchangeOrderId").getD "")
    unfold replayLegacyAmend
    dsimp only
    rw [hnote]
    split
    · rename_i hcanceled
      have hstate : record.state = .canceled := hcanceled.2
      have hnone : record.rejection = none := by
        rw [Reasoned, hstate] at h
        simpa using h
      exact .of_none (fun he => by cases he) hnone
    · exact hterms.of_move rfl (.inl rfl)
  · exact hterms.of_move rfl (.inl rfl)

private theorem reasoned_replayState (h : record.Reasoned) {event : Json}
    (hevent : eventRejects event → record.rejection.isSome) :
    (record.replayState event).Reasoned := by
  unfold replayState
  split
  · exact h
  · rename_i state hstate
    have hallowed : state ≠ .rejected ∨ isTerminal record.state := by
      by_cases hrejects : state = .rejected
      · have hreason : record.rejection.isSome := hevent (by simp [eventRejects, hstate, hrejects])
        have hrejected : record.state = .rejected := h.mpr hreason
        rw [hrejected]
        exact .inr rfl
      · exact .inl hrejects
    have hobserved := h.observed False "" state ((eventString event "filledQuantity").getD "")
      ((eventString event "averageFillPrice").getD "") "" "" true fun _ => hallowed
    rw [if_neg not_false] at hobserved
    dsimp only
    split
    · obtain ⟨_, _, hnote⟩ := noteExchangeId_spec
        (record.applyObservation state ((eventString event "filledQuantity").getD "")
          ((eventString event "averageFillPrice").getD "") "" "" true).1
        ((eventString event "exchangeOrderId").getD "")
      rw [hnote]
      exact hobserved.of_move rfl (.inl rfl)
    · exact hobserved

end OrderRecord

/-- The replay of an explained event keeps state and rejection together. -/
theorem reasoned_applyLogEvent {orders : Registry}
    (h : ∀ id record, orders.find? id = some record → record.Reasoned) {event : Json}
    (hexplains : explains orders event) (defaultVenue : String) :
    ∀ id record, (applyLogEvent defaultVenue orders event).find? id = some record →
      record.Reasoned := by
  apply every_applyLogEvent h
  · intro type id htype hkind
    apply OrderRecord.Reasoned.of_none _ rfl
    rcases hkind with rfl | rfl | rfl
    · exact fun he => by cases he
    · exact fun he => by cases he
    · have hquiet : eventRejects event = false := by
        simpa [explains, htype] using hexplains
      intro he
      have hstate : (parseOrderState ((eventString event "state").getD "live")).getD .live =
          .rejected := he
      cases htext : eventString event "state" with
      | none =>
        rw [htext] at hstate
        cases hstate
      | some text =>
        rw [htext, Option.getD_some] at hstate
        cases hparse : parseOrderState text with
        | none =>
          rw [hparse] at hstate
          cases hstate
        | some state =>
          rw [hparse] at hstate
          obtain rfl : state = .rejected := hstate
          simp [eventRejects, htext, hparse] at hquiet
  · exact fun id => .of_reject rfl rfl
  · exact fun id record _ hr => OrderRecord.reasoned_replayAmended (h id record hr) event
  · intro id record htype hid hr
    refine OrderRecord.reasoned_replayState (h id record hr) fun hrejects => ?_
    simpa [explains, htype, hid, hr, hrejects] using hexplains

/-- Every prefix of the log replays to a registry that gives its reasons. -/
def ReasonedLines (defaultVenue : String) (events : List Json) : Prop :=
  ∀ n id record, (replay defaultVenue (.empty _) (events.take n)).find? id = some record →
    record.Reasoned

theorem ReasonedLines.snoc {defaultVenue : String} {events : List Json}
    (h : ReasonedLines defaultVenue events) {event : Json}
    (hexplains : explains (replay defaultVenue (.empty _) events) event) :
    ReasonedLines defaultVenue (events ++ [event]) := by
  intro n id record hr
  by_cases hn : n ≤ events.length
  · rw [List.take_append_of_le_length hn] at hr
    exact h n id record hr
  · rw [List.take_of_length_le (by simp; omega), replay, List.foldl_append] at hr
    refine reasoned_applyLogEvent (fun id record hr => ?_) hexplains defaultVenue id record hr
    exact h events.length id record (by rw [List.take_length]; exact hr)

theorem ReasonedLines.append {defaultVenue : String} {events lines : List Json}
    (h : ReasonedLines defaultVenue events)
    (hexplains : explainsLines defaultVenue (replay defaultVenue (.empty _) events) lines) :
    ReasonedLines defaultVenue (events ++ lines) := by
  induction lines generalizing events with
  | nil =>
    rw [List.append_nil]
    exact h
  | cons line lines ih =>
    obtain ⟨hhead, htail⟩ := Bool.and_eq_true_iff.mp hexplains
    have hreplay : replay defaultVenue (.empty _) (events ++ [line]) =
        applyLogEvent defaultVenue (replay defaultVenue (.empty _) events) line :=
      List.foldl_append
    have hnext := h.snoc hhead
    rw [← hreplay] at htail
    rw [← List.singleton_append, ← List.append_assoc]
    exact ih hnext htail

theorem ReasonedLines.appendAll {defaultVenue : String} {log : EventLog}
    (h : ReasonedLines defaultVenue log.events) {events : List Json}
    (hexplains : log.explains defaultVenue events) :
    ReasonedLines defaultVenue (log.appendAll events).events := by
  induction events generalizing log with
  | nil => exact h
  | cons event events ih =>
    obtain ⟨hhead, htail⟩ := Bool.and_eq_true_iff.mp hexplains
    have happend : ReasonedLines defaultVenue (log.append event).1.events := by
      rw [log.events_append]
      exact h.append hhead
    exact ih happend htail

namespace Ledger

variable {ledger : Ledger} {defaultVenue : String}

structure Reasoned (defaultVenue : String) (ledger : Ledger) : Prop where
  records : ledger.Every OrderRecord.Reasoned
  prefixes : ∀ log, ledger.log = some log → ReasonedLines defaultVenue log.events

theorem Reasoned.enter (h : ledger.Reasoned defaultVenue) {entry : Entry}
    (hinserted : ∀ record, entry.inserted = some record → record.Reasoned)
    (hexplains : ledger.explains defaultVenue entry) :
    (ledger.enter entry).Reasoned defaultVenue := by
  obtain ⟨hreasoned, hlogged⟩ := Bool.and_eq_true_iff.mp hexplains
  constructor
  · exact h.records.enter fun new hw =>
      Entry.reasoned_write hinserted (h.records entry.key) hreasoned hw
  · intro log' hlog'
    rw [log_enter] at hlog'
    obtain ⟨log, hlog, rfl⟩ := Option.map_eq_some_iff.mp hlog'
    rw [hlog] at hlogged
    exact (h.prefixes log hlog).appendAll hlogged

theorem Reasoned.enterAll (h : ledger.Reasoned defaultVenue) {entries : List Entry}
    (hinserted : ∀ entry ∈ entries, ∀ record, entry.inserted = some record → record.Reasoned)
    (hexplains : ledger.explainsAll defaultVenue entries) :
    (ledger.enterAll entries).Reasoned defaultVenue := by
  induction entries generalizing ledger with
  | nil => exact h
  | cons entry entries ih =>
    obtain ⟨hhead, htail⟩ := Bool.and_eq_true_iff.mp hexplains
    have henter := h.enter (hinserted entry List.mem_cons_self) hhead
    exact ih henter (fun e hm => hinserted e (List.mem_cons_of_mem entry hm)) htail

end Ledger

namespace System

variable {s t : System} {a : Action}

theorem Enters.reasoned_inserted {entry : Entry} (h : s.Enters a entry) {record : OrderRecord}
    (hb : entry.inserted = some record) : record.Reasoned := by
  cases h with
  | riskRejected _ _ _ =>
    obtain rfl := Option.some.inj hb
    exact .of_reject rfl rfl
  | staged _ _ =>
    obtain rfl := Option.some.inj hb
    exact .of_none (fun he => by cases he) rfl
  | _ => cases hb

theorem reasoned_step (h : s.oms.ledger.Reasoned s.oms.defaultVenue) (hs : s.step a = some t)
    (ha : a.live) (hexplains : s.explains a) : t.oms.ledger.Reasoned t.oms.defaultVenue := by
  have hvenue : t.oms.defaultVenue = s.oms.defaultVenue :=
    congrArg Config.defaultVenue (config_step hs ha)
  rw [hvenue]
  rcases ledger_step_cases hs ha with ⟨orders, rfl, hp, rfl⟩ | hledger
  · refine ⟨fun id record hr => ?_, h.prefixes⟩
    exact h.records id record ((KeyedList.find?_of_perm hp id).symm.trans hr)
  · rw [hledger]
    exact h.enterAll (fun entry hm _ hb => (s.enters_of_mem hm).reasoned_inserted hb) hexplains

theorem boot_reasoned (config : Config) {log : Option EventLog}
    (hempty : ∀ l, log = some l → l.events = []) :
    (boot config log).oms.ledger.Reasoned (boot config log).oms.defaultVenue := by
  have hnone (id : String) (record : OrderRecord)
      (hr : (KeyedList.empty OrderRecord.clientOrderId).find? id = some record) :
      record.Reasoned := by cases hr
  cases log with
  | none => exact ⟨hnone, fun _ hl => by cases hl⟩
  | some log =>
    have hevents := hempty log rfl
    constructor
    · intro id record hr
      have hr' : (replay config.defaultVenue (.empty _) log.events).find? id = some record := hr
      rw [hevents] at hr'
      exact hnone id record hr'
    · intro log' hl n id record hr
      obtain rfl : log.reopen = log' := Option.some.inj hl
      have hr' : (replay config.defaultVenue (.empty _) (log.events.take n)).find? id =
          some record := hr
      rw [hevents, List.take_nil] at hr'
      exact hnone id record hr'

/-- From an empty log, in every run whose writes give their reasons: in the registry, and in what
any prefix of the log replays to, an order is Rejected exactly when a rejection is recorded; a
place of a Rejected order returns that rejection. So it is in the log that the process leaves
behind, if the lines that its end brings to the file give theirs. -/
theorem rejected_iff_reason (config : Config) (log : Option EventLog)
    (hempty : ∀ l, log = some l → l.events = [])
    (h : Transition.Reaches step (fun s a => a.live ∧ s.explains a) (boot config log) s) :
    (∀ id record, s.oms.lookup id = some record →
      (record.state = .rejected ↔ record.rejection.isSome)) ∧
    (∀ log', s.oms.log = some log' → ∀ n id record,
      (replay s.oms.defaultVenue (.empty _) (log'.events.take n)).find? id = some record →
        (record.state = .rejected ↔ record.rejection.isSome)) ∧
    (∀ log', s.oms.log = some log' →
      explainsLines s.oms.defaultVenue (replay s.oms.defaultVenue (.empty _) log'.events)
        log'.flushed → ∀ n id record,
      (replay s.oms.defaultVenue (.empty _) (log'.close.events.take n)).find? id = some record →
        (record.state = .rejected ↔ record.rejection.isSome)) ∧
    ∀ request venue record, s.oms.lookup request.clientOrderId = some record →
      record.state = .rejected → ∃ rejection, record.rejection = some rejection ∧
        (s.oms.placeStage request venue).2 = .answered (.error rejection) := by
  have hreasoned : s.oms.ledger.Reasoned s.oms.defaultVenue :=
    Transition.Reaches.invariant (I := fun s => s.oms.ledger.Reasoned s.oms.defaultVenue)
      (fun _ _ _ hI ha hs => reasoned_step hI hs ha.1 ha.2) h (boot_reasoned config hempty)
  refine ⟨hreasoned.records, hreasoned.prefixes, ?_, ?_⟩
  · intro log' hlog' hexplains
    rw [log'.events_close]
    exact (hreasoned.prefixes log' hlog').append hexplains
  · intro request venue record hr hstate
    obtain ⟨rejection, hrejection⟩ :=
      Option.isSome_iff_exists.mp ((hreasoned.records _ record hr).mp hstate)
    refine ⟨rejection, hrejection, ?_⟩
    simp only [Oms.placeStage, hr, hrejection]

/-- A place the venue refused, then filled late, placed again. -/
theorem rejected_iff_reason_refused : ∃ s record,
    Transition.Reaches step (fun s a => a.live ∧ s.explains a) (boot .sample (some .fresh)) s ∧
      s.oms.lookup "c1" = some record ∧ record.state = .rejected ∧
      record.filledQuantity = "1" ∧
      ∃ rejection, record.rejection = some rejection ∧
        (s.oms.placeStage .sample "").2 = .answered (.error rejection) := by
  have hrun : (Transition.exec step (fun s a => a.live ∧ s.explains a) (boot .sample (some .fresh))
    [.place .sample "", .send 0, .placed 0 (.error ⟨"venue:-2010", "insufficient balance"⟩),
      .report ⟨"c1", "1", .filled, .buy, "1", "100"⟩]).isSome := by decide
  have hreach := Transition.reaches_get_exec hrun
  have hreason := (rejected_iff_reason .sample (some .fresh) (fun l hl => by cases hl; rfl)
    hreach).2.2.2 .sample "" _ rfl rfl
  exact ⟨_, _, hreach, rfl, rfl, rfl, hreason⟩

/-- The venue reports REJECTED for a live order: Rejected without a reason, and a retry of the
place succeeds. -/
theorem rejected_without_reason : ∃ s record, LiveRun (boot .sample (some .fresh)) s ∧
    s.oms.lookup "c1" = some record ∧ record.state = .rejected ∧ record.rejection = none ∧
    (s.oms.placeStage .sample "").2 = .answered (.ok ⟨record, true⟩) := by
  have hrun : (Transition.exec step (fun _ a => a.live) (boot .sample (some .fresh))
    [.place .sample "", .send 0, .placed 0 (.ok ⟨"c1", "1"⟩),
      .report ⟨"c1", "1", .rejected, .buy, "0", ""⟩]).isSome := by decide
  exact ⟨_, _, Transition.reaches_get_exec hrun, rfl, rfl, rfl, rfl⟩

end System

end ExchangeGateway
