import ExchangeGateway.Core.Ownership

/-! Lifecycle monotonicity: whatever interleaving of sections changes a record, its state moves
along the transition table, its fill only rises, its identity and a recorded rejection stay. -/
namespace ExchangeGateway

/-- A chain of state changes, each a different state reached by an edge of the table. -/
def StatePath : OrderState → List (OrderState × OrderState) → OrderState → Prop
  | src, [], dst => src = dst
  | src, change :: path, dst =>
    change.1 = src ∧ change.1 ≠ change.2 ∧ change ∈ kLegalTransitions ∧
      StatePath change.2 path dst

namespace StatePath

theorem trans {a b c : OrderState} {path path' : List (OrderState × OrderState)}
    (h : StatePath a path b) (h' : StatePath b path' c) : StatePath a (path ++ path') c := by
  induction path generalizing a with
  | nil => exact h ▸ h'
  | cons change path ih =>
    obtain ⟨hsrc, hne, hlegal, h⟩ := h
    exact ⟨hsrc, hne, hlegal, ih h⟩

theorem of_terminal {a b : OrderState} {path : List (OrderState × OrderState)}
    (h : StatePath a path b) (ha : isTerminal a) : path = [] ∧ b = a := by
  cases path with
  | nil => exact ⟨rfl, h.symm⟩
  | cons change path =>
    obtain ⟨rfl, -, hlegal, -⟩ := h
    have hc := canTransition_iff.mpr hlegal
    rw [not_canTransition_of_terminal ha] at hc
    cases hc

theorem eq_pending {a : OrderState} {path : List (OrderState × OrderState)}
    (h : StatePath a path .pending) : a = .pending := by
  induction path generalizing a with
  | nil => exact h
  | cons change path ih =>
    obtain ⟨rfl, -, hlegal, h⟩ := h
    have hdst := ih h
    exact eq_pending_of_canTransition (canTransition_iff.mpr (hdst ▸ hlegal))

end StatePath

/-- What stays or grows while a record is updated, its state apart. -/
structure OrderRecord.Later (old new : OrderRecord) : Prop where
  clientOrderId : new.clientOrderId = old.clientOrderId
  symbol : new.symbol = old.symbol
  venue : new.venue = old.venue
  side : new.side = old.side
  type : new.type = old.type
  timeInForce : new.timeInForce = old.timeInForce
  filled : ∀ d, parseDecimal old.filledQuantity = .ok d →
    ∃ d', parseDecimal new.filledQuantity = .ok d' ∧ d.value ≤ d'.value
  rejection : ∀ error, old.rejection = some error → new.rejection = some error

/-- A recorded rejection is that of a rejected order. -/
def OrderRecord.Settled (record : OrderRecord) : Prop :=
  record.rejection.isSome → record.state = .rejected

namespace OrderRecord

theorem Later.refl (record : OrderRecord) : Later record record :=
  ⟨rfl, rfl, rfl, rfl, rfl, rfl, fun d hd => ⟨d, hd, le_refl _⟩, fun _ h => h⟩

theorem Later.trans {a b c : OrderRecord} (h : Later a b) (h' : Later b c) : Later a c where
  clientOrderId := h'.clientOrderId.trans h.clientOrderId
  symbol := h'.symbol.trans h.symbol
  venue := h'.venue.trans h.venue
  side := h'.side.trans h.side
  type := h'.type.trans h.type
  timeInForce := h'.timeInForce.trans h.timeInForce
  filled d hd := by
    obtain ⟨d', hd', hle⟩ := h.filled d hd
    obtain ⟨d'', hd'', hle'⟩ := h'.filled d' hd'
    exact ⟨d'', hd'', hle.trans hle'⟩
  rejection error he := h'.rejection error (h.rejection error he)

/-- Legs, terms and state are free to change. -/
private theorem later_with (record : OrderRecord) (exchangeOrderId : String)
    (legs : List OrderLeg) (price quantity : String) (state : OrderState) :
    Later record
      { record with
        exchangeOrderId := exchangeOrderId
        legs := legs
        price := price
        quantity := quantity
        state := state } :=
  ⟨rfl, rfl, rfl, rfl, rfl, rfl, fun d hd => ⟨d, hd, le_refl _⟩, fun _ h => h⟩

/-- One update: later fields, and at most one legal state change. -/
structure Updates (old new : OrderRecord) : Prop where
  later : Later old new
  state : new.state = old.state ∨ canTransition old.state new.state
  settled : old.Settled → new.Settled

/-- The state keeps the record settled when a rejected state cannot be left. -/
private theorem settled_of_state {old new : OrderRecord} (hr : new.rejection = old.rejection)
    (hs : new.state = old.state ∨ canTransition old.state new.state) (h : old.Settled) :
    new.Settled := by
  intro hrej
  have hold := h (hr ▸ hrej)
  rcases hs with hs | hs
  · exact hs.trans hold
  · rw [hold, not_canTransition_of_terminal rfl] at hs
    cases hs

theorem noteExchangeId_updates (record : OrderRecord) (id : String) :
    Updates record (record.noteExchangeId id) := by
  obtain ⟨_, _, h⟩ := record.noteExchangeId_spec id
  rw [h]
  exact ⟨later_with record _ _ _ _ _, .inl rfl, fun h => h⟩

theorem applyObservation_updates (record : OrderRecord) (state : OrderState)
    (filled avgPrice price quantity : String) (lifecycle : Bool) :
    Updates record
      (record.applyObservation state filled avgPrice price quantity lifecycle).1 := by
  obtain ⟨state', filled', _, _, _, _, h, hfill, hstate, -⟩ :=
    record.applyObservation_spec state filled avgPrice price quantity lifecycle
  rw [h]
  have hs : state' = record.state ∨ canTransition record.state state' := by
    rcases hstate with hs | ⟨-, rfl, hc⟩
    · exact .inl hs
    · exact .inr hc
  exact ⟨⟨rfl, rfl, rfl, rfl, rfl, rfl, fun _ => hfill.value_le, fun _ h => h⟩, hs,
    settled_of_state rfl hs⟩

/-- A leg is learned before the observation, which alone can move the state. -/
private theorem updates_of_same_state {old mid new : OrderRecord} (h : Updates old mid)
    (hmid : mid.state = old.state) (h' : Updates mid new) : Updates old new :=
  ⟨h.later.trans h'.later, hmid ▸ h'.state, fun hs => h'.settled (h.settled hs)⟩

private theorem noted_observation_updates (record : OrderRecord) (id : String)
    (state : OrderState) (filled avgPrice price quantity : String) (lifecycle : Bool) :
    Updates record ((record.noteExchangeId id).applyObservation state filled avgPrice price quantity
      lifecycle).1 := by
  have hnoted : Updates record (record.noteExchangeId id) := noteExchangeId_updates _ _
  apply updates_of_same_state hnoted
  · simp
  · exact applyObservation_updates _ _ _ _ _ _ _

theorem arbitrate_updates (record : OrderRecord) (report : ExecutionReport) :
    Updates record (record.arbitrate report).1 := by
  unfold arbitrate learn
  split
  · exact noted_observation_updates _ _ _ _ _ _ _ _
  · exact applyObservation_updates _ _ _ _ _ _ _

theorem refreshed_updates (record : OrderRecord) (snapshot : OrderSnapshot) :
    Updates record (Oms.refreshed record snapshot).1 := by
  unfold Oms.refreshed
  dsimp only
  split
  · exact noted_observation_updates _ _ _ _ _ _ _ _
  · exact applyObservation_updates _ _ _ _ _ _ _

theorem resolve_updates (record : OrderRecord) (snapshot : OrderSnapshot) :
    Updates record (record.resolve snapshot).1 := by
  unfold resolve
  dsimp only
  split
  · exact noted_observation_updates _ _ _ _ _ _ _ _
  · exact applyObservation_updates _ _ _ _ _ _ _

theorem accept_updates (record : OrderRecord) (id : String) :
    Updates record (record.accept id) := by
  obtain ⟨_, _, h⟩ := record.noteExchangeId_spec id
  have hs : (applyTransition record.state .live).1 = record.state ∨
      canTransition record.state (applyTransition record.state .live).1 := by
    rw [applyTransition_eq]
    split
    · rename_i hc
      exact .inr hc
    · exact .inl rfl
  unfold accept
  rw [h]
  exact ⟨later_with record _ _ _ _ _, hs, settled_of_state rfl hs⟩

theorem amend_updates (record : OrderRecord) (price quantity id : String) :
    Updates record (record.amend price quantity id) := by
  obtain ⟨_, _, h⟩ := appendAmendLeg_spec { record with price := price, quantity := quantity } id
  unfold amend
  rw [h]
  exact ⟨later_with record _ _ _ _ _, .inl rfl, fun h => h⟩

/-- A rejection overwrites none: a settled record with one is terminal already. -/
theorem reject_updates {record : OrderRecord} (hs : record.Settled)
    (ht : ¬ isTerminal record.state) (error : Error) : Updates record (record.reject error) := by
  have hnone (e : Error) : record.rejection ≠ some e := fun he =>
    ht (by rw [hs (by rw [he]; rfl)]; rfl)
  exact ⟨⟨rfl, rfl, rfl, rfl, rfl, rfl, fun d hd => ⟨d, hd, le_refl _⟩,
    fun e he => absurd he (hnone e)⟩, .inr (canTransition_rejected_iff.mpr ht), fun _ _ => rfl⟩

theorem cancel_updates {record : OrderRecord} {id : String}
    (hc : canTransition (record.noteExchangeId id).state .canceled) :
    Updates record { record.noteExchangeId id with state := .canceled } := by
  obtain ⟨_, _, h⟩ := record.noteExchangeId_spec id
  rw [h] at hc ⊢
  exact ⟨later_with record _ _ _ _ _, .inr hc, settled_of_state rfl (.inr hc)⟩

end OrderRecord

theorem Entry.write_updates {entry : Entry} (he : entry.inserted = none) {old new : OrderRecord}
    (hs : old.Settled) (h : (entry.write (some old)).1 = some new) : old.Updates new := by
  cases rewrites_of_write he h with
  | accepted _ id => exact old.accept_updates id
  | rejected _ error ht => exact OrderRecord.reject_updates hs ht error
  | canceled _ id hc => exact OrderRecord.cancel_updates hc
  | noted _ id => exact old.noteExchangeId_updates id
  | amended _ price quantity id => exact old.amend_updates price quantity id
  | discovered _ id => exact old.noteExchangeId_updates id
  | reported _ report => exact old.arbitrate_updates report
  | listed _ snapshot => exact old.refreshed_updates snapshot
  | resolved _ snapshot => exact old.resolve_updates snapshot
  | absent _ ht => exact OrderRecord.reject_updates hs ht _

namespace Ledger

def Settled (ledger : Ledger) : Prop :=
  ∀ id record, ledger.orders.find? id = some record → record.Settled

/-- From one state of the ledger to a later one: the state changes written in between, and for
every order that was registered its own path and later record. -/
def Advances (before after : Ledger) : Prop :=
  ∃ changes, after.transitions = before.transitions ++ changes ∧
    ∀ id record, before.orders.find? id = some record →
      ∃ record', after.orders.find? id = some record' ∧ record.Later record' ∧
        StatePath record.state ((changes.filter (·.1 = id)).map Prod.snd) record'.state

theorem Advances.refl (ledger : Ledger) : Advances ledger ledger :=
  ⟨[], by simp, fun _ record h => ⟨record, h, .refl record, rfl⟩⟩

theorem Advances.trans {a b c : Ledger} (h : Advances a b) (h' : Advances b c) :
    Advances a c := by
  obtain ⟨changes, hc, h⟩ := h
  obtain ⟨changes', hc', h'⟩ := h'
  refine ⟨changes ++ changes', by rw [hc', hc, List.append_assoc], fun id record hr => ?_⟩
  obtain ⟨mid, hmid, hl, hp⟩ := h id record hr
  obtain ⟨last, hlast, hl', hp'⟩ := h' id mid hmid
  refine ⟨last, hlast, hl.trans hl', ?_⟩
  rw [List.filter_append, List.map_append]
  exact hp.trans hp'

/-- An entry is safe when what it inserts is new and settled. -/
def Safe (ledger : Ledger) (entry : Entry) : Prop :=
  ∀ record, entry.inserted = some record →
    ledger.orders.find? entry.key = none ∧ record.Settled

/-- The record an entry brings into the registry is settled. -/
private theorem settled_of_write_none {ledger : Ledger} {entry : Entry} (hs : ledger.Safe entry)
    {new : OrderRecord} (h : (entry.write none).1 = some new) : new.Settled := by
  cases entry with
  | riskRejected record => exact Option.some.inj h ▸ (hs record rfl).2
  | staged record persisted =>
    cases persisted with
    | false => cases h
    | true => exact Option.some.inj h ▸ (hs record rfl).2
  | listed venue snapshot =>
    obtain rfl := Option.some.inj h
    exact nofun
  | _ => cases h

theorem Settled.enter {ledger : Ledger} (h : ledger.Settled) {entry : Entry}
    (hs : ledger.Safe entry) : (ledger.enter entry).Settled := by
  intro id record hr
  rw [find?_enter] at hr
  split_ifs at hr with hk
  · cases hold : ledger.orders.find? entry.key with
    | none =>
      rw [hold, Option.or_none] at hr
      exact settled_of_write_none hs hr
    | some old =>
      rw [hold] at hr
      cases hw : (entry.write (some old)).1 with
      | none =>
        rw [hw, Option.none_or] at hr
        exact Option.some.inj hr ▸ h _ old hold
      | some new =>
        rw [hw, Option.some_or] at hr
        have hins : entry.inserted = none := by
          cases hi : entry.inserted with
          | none => rfl
          | some record => cases (hs record hi).1.symm.trans hold
        exact Option.some.inj hr ▸ (Entry.write_updates hins (h _ old hold) hw).settled (h _ old hold)
  · exact h id record hr

private theorem transitions_enter (ledger : Ledger) (entry : Entry) :
    (ledger.enter entry).transitions = ledger.transitions ++
      match ledger.orders.find? entry.key,
          (entry.write (ledger.orders.find? entry.key)).1 with
      | some old, some new =>
        if old.state = new.state then [] else [(entry.key, old.state, new.state)]
      | _, _ => [] := by
  simp only [enter, transitions_append]
  cases hw : (entry.write (ledger.orders.find? entry.key)).1 with
  | none => cases ledger.orders.find? entry.key <;> simp
  | some new =>
    have hkey := Entry.key_write (fun old hold => KeyedList.key_of_find? hold) hw
    simp only [Option.map_some, Option.getD_some, store, hkey]
    cases ledger.orders.find? entry.key with
    | none => simp
    | some old =>
      dsimp only
      split <;> simp

theorem Settled.advances {ledger : Ledger} (h : ledger.Settled) {entry : Entry}
    (hs : ledger.Safe entry) : ledger.Advances (ledger.enter entry) := by
  refine ⟨_, ledger.transitions_enter entry, fun id record hr => ?_⟩
  rw [find?_enter]
  by_cases hk : entry.key = id
  · subst hk
    have hins : entry.inserted = none := by
      cases hi : entry.inserted with
      | none => rfl
      | some record' => exact absurd ((hs record' hi).1.symm.trans hr) nofun
    rw [if_pos rfl, hr]
    cases hw : (entry.write (some record)).1 with
    | none => exact ⟨record, rfl, .refl record, rfl⟩
    | some new =>
      have hu := Entry.write_updates hins (h _ record hr) hw
      refine ⟨new, rfl, hu.later, ?_⟩
      dsimp only
      split
      · assumption
      · rename_i hne
        have hc := hu.state.resolve_left fun e => hne e.symm
        simp only [List.filter_cons, decide_true, if_true, List.filter_nil, List.map_cons,
          List.map_nil]
        exact ⟨rfl, hne, canTransition_iff.mp hc, rfl⟩
  · rw [if_neg hk]
    refine ⟨record, hr, .refl record, ?_⟩
    split
    · split <;> simp [StatePath, hk]
    · rfl

def SafeAll : Ledger → List Entry → Prop
  | _, [] => True
  | ledger, entry :: entries => ledger.Safe entry ∧ SafeAll (ledger.enter entry) entries

theorem Settled.advancesAll {ledger : Ledger} (h : ledger.Settled) {entries : List Entry}
    (hs : ledger.SafeAll entries) :
    (ledger.enterAll entries).Settled ∧ ledger.Advances (ledger.enterAll entries) := by
  induction entries generalizing ledger with
  | nil => exact ⟨h, .refl ledger⟩
  | cons entry entries ih =>
    obtain ⟨hset, hadv⟩ := ih (h.enter hs.1) hs.2
    exact ⟨hset, (h.advances hs.1).trans hadv⟩

/-- Entries that insert nothing are safe anywhere. -/
theorem safeAll_of_not_inserted {ledger : Ledger} {entries : List Entry}
    (h : ∀ entry ∈ entries, entry.inserted = none) : ledger.SafeAll entries := by
  induction entries generalizing ledger with
  | nil => trivial
  | cons entry entries ih =>
    refine ⟨fun record hr => ?_, ih fun e hm => h e (List.mem_cons_of_mem entry hm)⟩
    rw [h entry List.mem_cons_self] at hr
    cases hr

end Ledger

namespace System

variable {s t : System} {a : Action}

theorem safeAll_entries (s : System) (a : Action) : s.oms.ledger.SafeAll (s.entries a) := by
  by_cases hp : ∃ request venue, a = .place request venue
  · obtain ⟨request, venue, rfl⟩ := hp
    cases s.oms.placeStage_cases request venue with
    | unchanged _ hentries _ =>
      simp only [entries, hentries]
      trivial
    | riskRejected venue' rejection _ hnew hentries _ _ =>
      simp only [entries, hentries]
      exact ⟨fun record hr => ⟨hnew, Option.some.inj hr ▸ fun _ => rfl⟩, trivial⟩
    | unpersisted venue' _ hnew _ hentries _ _ =>
      simp only [entries, hentries]
      exact ⟨fun record hr => ⟨hnew, Option.some.inj hr ▸ fun h => by cases h⟩, trivial⟩
    | opened venue' _ hnew _ _ hentries _ _ _ =>
      simp only [entries, hentries]
      exact ⟨fun record hr => ⟨hnew, Option.some.inj hr ▸ fun h => by cases h⟩, trivial⟩
  · refine Ledger.safeAll_of_not_inserted fun entry hm => ?_
    cases s.enters_of_mem hm with
    | riskRejected => exact absurd ⟨_, _, rfl⟩ hp
    | staged => exact absurd ⟨_, _, rfl⟩ hp
    | _ => rfl

theorem step_advances (h : s.oms.ledger.Settled) (hs : s.step a = some t) (ha : a.live) :
    t.oms.ledger.Settled ∧ s.oms.ledger.Advances t.oms.ledger := by
  rcases ledger_step_cases hs ha with ⟨orders, rfl, hp, rfl⟩ | hledger
  · have hfind := fun id => KeyedList.find?_of_perm hp id
    exact ⟨fun id record hr => h id record ((hfind id).symm.trans hr),
      [], (List.append_nil _).symm,
      fun id record hr => ⟨record, (hfind id).trans hr, .refl record, rfl⟩⟩
  · rw [hledger]
    exact h.advancesAll (s.safeAll_entries a)

end System

/-! ### Replay leaves settled records -/

namespace OrderRecord

private theorem settled_replayAmended {record : OrderRecord} (h : record.Settled) (event : Json) :
    (record.replayAmended event).Settled := by
  have hterms : (record.replayTerms event).Settled := h
  unfold replayAmended
  dsimp only
  split
  · unfold replayLegacyAmend
    have hnote := ((record.replayTerms event).noteExchangeId_updates
      ((eventString event "exchangeOrderId").getD "")).settled hterms
    dsimp only
    split
    · rename_i hc
      intro hrej
      have hstate := hnote hrej
      rw [hc.2] at hstate
      cases hstate
    · exact hnote
  · exact hterms

private theorem settled_replayState {record : OrderRecord} (h : record.Settled) (event : Json) :
    (record.replayState event).Settled := by
  unfold replayState
  split
  · exact h
  · rename_i state _
    have hobs := (record.applyObservation_updates state
      ((eventString event "filledQuantity").getD "")
      ((eventString event "averageFillPrice").getD "") "" "" true).settled h
    dsimp only
    split
    · exact (noteExchangeId_updates _ _).settled hobs
    · exact hobs

end OrderRecord

theorem settled_replay (defaultVenue : String) :
    ReplayInvariant OrderRecord.Settled defaultVenue where
  created _ _ _ hrej := by cases hrej
  rejected _ _ _ _ := rfl
  amended _ event h := OrderRecord.settled_replayAmended h event
  state _ event h := OrderRecord.settled_replayState h event

namespace System

theorem boot_settled (config : Config) (log : Option EventLog) :
    (boot config log).oms.ledger.Settled :=
  start_every (settled_replay config.defaultVenue) log

theorem settled_run {config : Config} {log : Option EventLog} {s : System}
    (h : LiveRun (boot config log) s) : s.oms.ledger.Settled :=
  Transition.Reaches.invariant (I := fun s => s.oms.ledger.Settled)
    (fun _ _ _ hI ha hs => (step_advances hI hs ha).1) h (boot_settled config log)

theorem advances_run {config : Config} {log : Option EventLog} {s t : System}
    (hs : LiveRun (boot config log) s) (ht : LiveRun s t) :
    s.oms.ledger.Advances t.oms.ledger :=
  Transition.Reaches.relates (I := fun s => s.oms.ledger.Settled)
    (R := fun s t => s.oms.ledger.Advances t.oms.ledger) (fun _ => .refl _)
    (fun _ _ _ h h' => h.trans h') (fun _ _ _ hI ha hs => (step_advances hI hs ha).1)
    (fun _ _ _ hI ha hs => (step_advances hI hs ha).2) ht (settled_run hs)

/-- Whatever happens after a record exists: it stays, its state moves along the transition table
only (a terminal state stays, Pending is not re-entered), a fill that parses keeps parsing and
never falls, its identity and a recorded rejection never change. -/
theorem lifecycle_monotone (config : Config) (log : Option EventLog) {s t : System}
    (hs : LiveRun (boot config log) s) (ht : LiveRun s t) :
    ∃ changes, t.oms.history.transitions = s.oms.history.transitions ++ changes ∧
      ∀ id record, s.oms.lookup id = some record →
        ∃ record', t.oms.lookup id = some record' ∧
          StatePath record.state ((changes.filter (·.1 = id)).map Prod.snd) record'.state ∧
          (isTerminal record.state → record'.state = record.state) ∧
          (record'.state = .pending → record.state = .pending) ∧
          record.Later record' := by
  obtain ⟨changes, hc, h⟩ := advances_run hs ht
  refine ⟨changes, hc, fun id record hr => ?_⟩
  obtain ⟨record', hr', hl, hp⟩ := h id record hr
  exact ⟨record', hr', hp, fun hterm => (hp.of_terminal hterm).2,
    fun hpend => (hpend ▸ hp).eq_pending, hl⟩

/-- Placed, acked, partially filled; then a canceled report and a late fill. -/
theorem lifecycle_monotone_filled : ∃ s t, LiveRun (boot .sample (some .fresh)) s ∧ LiveRun s t ∧
    (s.oms.lookup "c1").map (·.state) = some .live ∧
    (t.oms.lookup "c1").map (·.state) = some .canceled ∧
    ∃ changes, t.oms.history.transitions = s.oms.history.transitions ++ changes := by
  have hs : (Transition.exec step (fun _ a => a.live) (boot .sample (some .fresh))
    [.place .sample "", .send 0, .placed 0 (.ok ⟨"c1", "1"⟩)]).isSome := by decide
  have ht : (Transition.exec step (fun _ a => a.live)
    ((Transition.exec step (fun _ a => a.live) (boot .sample (some .fresh))
      [.place .sample "", .send 0, .placed 0 (.ok ⟨"c1", "1"⟩)]).get hs)
    [.report ⟨"c1", "1", .partiallyFilled, .buy, "2", "100"⟩,
      .report ⟨"c1", "1", .canceled, .buy, "2", "100"⟩,
      .report ⟨"c1", "1", .live, .buy, "3", "100"⟩]).isSome := rfl
  have hreach := Transition.reaches_get_exec hs
  have hreach' := Transition.reaches_get_exec ht
  obtain ⟨changes, hc, -⟩ := lifecycle_monotone .sample (some .fresh) hreach hreach'
  exact ⟨_, _, hreach, hreach', rfl, rfl, changes, hc⟩

end System

end ExchangeGateway
