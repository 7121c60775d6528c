import ExchangeGateway.Core.Ownership

/-! The leg table of a client order: versions from 1 on, no empty id, the last one current.
Every write of a section keeps it. -/
namespace ExchangeGateway

namespace OrderRecord

/-- The legs are numbered from 1, each has an id, the last one is the current order. -/
structure LegTable (record : OrderRecord) : Prop where
  versions : record.legs.map OrderLeg.version = List.range' 1 record.legs.length
  named : ∀ leg ∈ record.legs, leg.exchangeOrderId ≠ ""
  current : record.exchangeOrderId =
    (record.legs.getLast?.map OrderLeg.exchangeOrderId).getD ""

variable {record new : OrderRecord} {id : String}

theorem LegTable.of_eq (h : record.LegTable)
    (hid : new.exchangeOrderId = record.exchangeOrderId) (hlegs : new.legs = record.legs) :
    new.LegTable := by
  obtain ⟨hversions, hnamed, hcurrent⟩ := h
  constructor
  · rw [hlegs]
    exact hversions
  · rw [hlegs]
    exact hnamed
  · rw [hid, hlegs]
    exact hcurrent

theorem LegTable.of_nil (hid : record.exchangeOrderId = "") (hlegs : record.legs = []) :
    record.LegTable := by
  constructor <;> simp [hid, hlegs]

theorem LegTable.push (h : record.LegTable) (hid : new.exchangeOrderId = id)
    (hlegs : new.legs = record.legs ++ [⟨record.legs.length + 1, id⟩]) (hne : id ≠ "") :
    new.LegTable := by
  constructor
  · simp only [hlegs, List.map_append, h.versions, List.map_cons, List.map_nil,
      List.length_append, List.length_singleton, List.range'_1_concat, Nat.add_comm]
  · intro leg hm
    rw [hlegs, List.mem_append, List.mem_singleton] at hm
    rcases hm with hm | rfl
    · exact h.named leg hm
    · exact hne
  · simp [hid, hlegs]

/-- Without an id there are no legs; otherwise the last leg carries it. -/
theorem LegTable.cases (h : record.LegTable) :
    record.exchangeOrderId = "" ∧ record.legs = [] ∨
      record.exchangeOrderId ≠ "" ∧ ∃ older,
        record.legs = older ++ [⟨older.length + 1, record.exchangeOrderId⟩] := by
  rcases List.eq_nil_or_concat' record.legs with hlegs | ⟨older, leg, hlegs⟩
  · refine .inl ⟨?_, hlegs⟩
    rw [h.current, hlegs]
    rfl
  · have hid : record.exchangeOrderId = leg.exchangeOrderId := by simp [h.current, hlegs]
    have hversion : leg.version = older.length + 1 := by
      have hversions := h.versions
      rw [hlegs, List.length_append, List.length_singleton, List.range'_1_concat,
        List.map_append] at hversions
      have hlast := List.append_inj_right' hversions rfl
      simpa [Nat.add_comm] using hlast
    refine .inr ⟨?_, older, ?_⟩
    · rw [hid]
      exact h.named leg (by simp [hlegs])
    · rw [hlegs, hid, ← hversion]

theorem LegTable.id_eq_empty_iff (h : record.LegTable) :
    record.exchangeOrderId = "" ↔ record.legs = [] := by
  rcases h.cases with ⟨hid, hlegs⟩ | ⟨hid, older, hlegs⟩
  · simp [hid, hlegs]
  · simp [hid, hlegs]

/-! ### The newest leg of an id -/

theorem legIndexOf_concat {older : List OrderLeg} {leg : OrderLeg}
    (h : record.legs = older ++ [leg]) (id : String) :
    record.legIndexOf id = if leg.exchangeOrderId = id then some older.length
      else { record with legs := older }.legIndexOf id := by
  simp [legIndexOf, h, List.zipIdx_append]

theorem legIndexOf_spec (record : OrderRecord) (id : String) :
    record.legIndexOf id = none ∧ (∀ leg ∈ record.legs, leg.exchangeOrderId ≠ id) ∨
      ∃ index, record.legIndexOf id = some index ∧ index < record.legs.length ∧
        ∃ leg ∈ record.legs, leg.exchangeOrderId = id := by
  have hgeneral (legs : List OrderLeg) :
      { record with legs := legs }.legIndexOf id = none ∧
          (∀ leg ∈ legs, leg.exchangeOrderId ≠ id) ∨
        ∃ index, { record with legs := legs }.legIndexOf id = some index ∧ index < legs.length ∧
          ∃ leg ∈ legs, leg.exchangeOrderId = id := by
    induction legs using List.reverseRecOn with
    | nil => exact .inl ⟨rfl, fun _ hm => by cases hm⟩
    | append_singleton older leg ih =>
      rw [legIndexOf_concat rfl]
      by_cases hid : leg.exchangeOrderId = id
      · exact .inr ⟨older.length, if_pos hid, by simp, leg, by simp, hid⟩
      · rw [if_neg hid]
        rcases ih with ⟨hnone, hall⟩ | ⟨index, hsome, hlt, leg', hm, hid'⟩
        · refine .inl ⟨hnone, fun leg' hm => ?_⟩
          rcases List.mem_append.mp hm with hm | hm
          · exact hall leg' hm
          · rw [List.mem_singleton.mp hm]
            exact hid
        · refine .inr ⟨index, hsome, ?_, leg', List.mem_append_left _ hm, hid'⟩
          rw [List.length_append]
          omega
  exact hgeneral record.legs

/-! ### What the operations on a record do to its legs -/

theorem noteExchangeId_cases (record : OrderRecord) (id : String) :
    record.noteExchangeId id = record ∨ id ≠ "" ∧ id ≠ record.exchangeOrderId ∧
      record.noteExchangeId id =
        { record with
          exchangeOrderId := id
          legs := record.legs ++ [⟨record.legs.length + 1, id⟩] } := by
  unfold noteExchangeId
  split
  · exact .inl rfl
  · rename_i h
    simp only [Bool.or_eq_true, decide_eq_true_eq, not_or] at h
    exact .inr ⟨h.1, h.2, rfl⟩

theorem appendAmendLeg_cases (record : OrderRecord) (id : String) :
    id = "" ∧ record.appendAmendLeg id = record ∨ id ≠ "" ∧
      record.appendAmendLeg id =
        { record with
          exchangeOrderId := id
          legs := record.legs ++ [⟨record.legs.length + 1, id⟩] } := by
  unfold appendAmendLeg
  split
  · rename_i h
    exact .inl ⟨h, rfl⟩
  · rename_i h
    exact .inr ⟨h, rfl⟩

@[simp] theorem exchangeOrderId_applyObservation (record : OrderRecord) (state : OrderState)
    (filled avgPrice price quantity : String) (lifecycle : Bool) :
    (record.applyObservation state filled avgPrice price quantity lifecycle).1.exchangeOrderId =
      record.exchangeOrderId := by
  obtain ⟨_, _, _, _, _, _, h, -⟩ :=
    record.applyObservation_spec state filled avgPrice price quantity lifecycle
  rw [h]

@[simp] theorem legs_applyObservation (record : OrderRecord) (state : OrderState)
    (filled avgPrice price quantity : String) (lifecycle : Bool) :
    (record.applyObservation state filled avgPrice price quantity lifecycle).1.legs =
      record.legs := by
  obtain ⟨_, _, _, _, _, _, h, -⟩ :=
    record.applyObservation_spec state filled avgPrice price quantity lifecycle
  rw [h]

/-- All a write does to the legs: it leaves them alone or appends one that becomes current. -/
inductive LegStep (old new : OrderRecord) : Prop
  | same (hid : new.exchangeOrderId = old.exchangeOrderId) (hlegs : new.legs = old.legs)
  | push (id : String) (hne : id ≠ "") (hid : new.exchangeOrderId = id)
      (hlegs : new.legs = old.legs ++ [⟨old.legs.length + 1, id⟩])

theorem legStep_noteExchangeId (record : OrderRecord) (id : String) :
    record.LegStep (record.noteExchangeId id) := by
  rcases record.noteExchangeId_cases id with heq | ⟨hne, -, heq⟩
  · rw [heq]
    exact .same rfl rfl
  · rw [heq]
    exact .push id hne rfl rfl

theorem legStep_amend (record : OrderRecord) (price quantity id : String) :
    record.LegStep (record.amend price quantity id) := by
  unfold OrderRecord.amend
  rcases appendAmendLeg_cases { record with price := price, quantity := quantity } id with
    ⟨-, heq⟩ | ⟨hne, heq⟩
  · rw [heq]
    exact .same rfl rfl
  · rw [heq]
    exact .push id hne rfl rfl

theorem legStep_observed (record : OrderRecord) (learned : Prop) [Decidable learned]
    (id : String) (state : OrderState) (filled avgPrice price quantity : String)
    (lifecycle : Bool) :
    record.LegStep ((if learned then record.noteExchangeId id else record).applyObservation state
      filled avgPrice price quantity lifecycle).1 := by
  have hlearned : record.LegStep (if learned then record.noteExchangeId id else record) := by
    split
    · exact record.legStep_noteExchangeId id
    · exact .same rfl rfl
  cases hlearned with
  | same hid hlegs =>
    apply LegStep.same
    · rw [exchangeOrderId_applyObservation, hid]
    · rw [legs_applyObservation, hlegs]
  | push id' hne hid hlegs =>
    apply LegStep.push id' hne
    · rw [exchangeOrderId_applyObservation, hid]
    · rw [legs_applyObservation, hlegs]

theorem LegStep.legTable (h : record.LegStep new) (htable : record.LegTable) : new.LegTable := by
  cases h with
  | same hid hlegs => exact htable.of_eq hid hlegs
  | push id hne hid hlegs => exact htable.push hid hlegs hne

theorem LegStep.legs_extend (h : record.LegStep new) : record.legs <+: new.legs := by
  cases h with
  | same _ hlegs => rw [hlegs]
  | push _ _ _ hlegs =>
    rw [hlegs]
    exact List.prefix_append _ _

theorem legTable_snapshotRecord (snapshot : OrderSnapshot) (venue : String) (adopted : Bool) :
    (Oms.snapshotRecord snapshot venue adopted).LegTable := by
  by_cases hid : snapshot.exchangeOrderId = ""
  · exact .of_nil hid (by simp [Oms.snapshotRecord, hid])
  · have hempty : (OrderRecord.blank "").LegTable := .of_nil rfl rfl
    exact hempty.push rfl (by simp [Oms.snapshotRecord, hid, OrderRecord.blank]) hid

end OrderRecord

namespace Entry

theorem legStep_write {entry : Entry} {old new : OrderRecord} (hinserted : entry.inserted = none)
    (hw : (entry.write (some old)).1 = some new) : old.LegStep new := by
  cases rewrites_of_write hinserted hw with
  | accepted _ exchangeOrderId =>
    cases old.legStep_noteExchangeId exchangeOrderId with
    | same hid hlegs => exact .same hid hlegs
    | push id hne hid hlegs => exact .push id hne hid hlegs
  | rejected _ error _ => exact .same rfl rfl
  | canceled _ exchangeOrderId _ =>
    cases old.legStep_noteExchangeId exchangeOrderId with
    | same hid hlegs => exact .same hid hlegs
    | push id hne hid hlegs => exact .push id hne hid hlegs
  | noted _ exchangeOrderId => exact old.legStep_noteExchangeId exchangeOrderId
  | amended _ price quantity exchangeOrderId =>
    exact old.legStep_amend price quantity exchangeOrderId
  | discovered _ exchangeOrderId => exact old.legStep_noteExchangeId exchangeOrderId
  | reported _ report => exact old.legStep_observed _ _ _ _ _ _ _ _
  | listed _ snapshot =>
    unfold Oms.refreshed
    exact old.legStep_observed _ _ _ _ _ _ _ _
  | resolved _ snapshot =>
    unfold OrderRecord.resolve
    exact old.legStep_observed _ _ _ _ _ _ _ _
  | absent _ _ => exact .same rfl rfl

/-- A written record is a place's own, an adopted one, or follows from the one found. -/
theorem write_cases {entry : Entry} {old : Option OrderRecord} {new : OrderRecord}
    (hw : (entry.write old).1 = some new) :
    entry.inserted = some new ∨
      (∃ venue snapshot, entry = .listed venue snapshot ∧ old = none ∧
        new = Oms.snapshotRecord snapshot venue true) ∨
      entry.inserted = none ∧ ∃ record, old = some record := by
  cases entry with
  | riskRejected record => exact .inl (by simpa [write, inserted] using hw)
  | staged record persisted =>
    cases persisted with
    | false => simp [write] at hw
    | true => exact .inl (by simpa [write, inserted] using hw)
  | listed venue snapshot =>
    cases old with
    | none => exact .inr (.inl ⟨venue, snapshot, rfl, rfl, (Option.some.inj hw).symm⟩)
    | some record => exact .inr (.inr ⟨rfl, record, rfl⟩)
  | _ =>
    cases old with
    | none => cases hw
    | some record => exact .inr (.inr ⟨rfl, record, rfl⟩)

theorem legTable_write {entry : Entry} {old : Option OrderRecord} {new : OrderRecord}
    (hinserted : ∀ record, entry.inserted = some record → record.LegTable)
    (hold : ∀ record, old = some record → record.LegTable)
    (hw : (entry.write old).1 = some new) : new.LegTable := by
  obtain hi | ⟨venue, snapshot, -, -, rfl⟩ | ⟨hi, record, rfl⟩ := write_cases hw
  · exact hinserted new hi
  · exact OrderRecord.legTable_snapshotRecord snapshot venue true
  · exact (legStep_write hi hw).legTable (hold record rfl)

end Entry

namespace Ledger

def LegTables (ledger : Ledger) : Prop :=
  ∀ id record, ledger.orders.find? id = some record → record.LegTable

theorem LegTables.enter {ledger : Ledger} (h : ledger.LegTables) {entry : Entry}
    (hinserted : ∀ record, entry.inserted = some record → record.LegTable) :
    (ledger.enter entry).LegTables :=
  Every.enter h fun _ hw => Entry.legTable_write hinserted (h entry.key) hw

def LegsGrow (ledger ledger' : Ledger) : Prop :=
  ∀ id record, ledger.orders.find? id = some record →
    ∃ record', ledger'.orders.find? id = some record' ∧ record.legs <+: record'.legs

theorem LegsGrow.refl (ledger : Ledger) : ledger.LegsGrow ledger :=
  fun _ record hr => ⟨record, hr, List.prefix_refl _⟩

theorem LegsGrow.trans {ledger ledger' ledger'' : Ledger} (h : ledger.LegsGrow ledger')
    (h' : ledger'.LegsGrow ledger'') : ledger.LegsGrow ledger'' := by
  intro id record hr
  obtain ⟨record', hr', hle⟩ := h id record hr
  obtain ⟨record'', hr'', hle'⟩ := h' id record' hr'
  exact ⟨record'', hr'', hle.trans hle'⟩

/-- A place only brings orders that are not registered yet. -/
theorem LegsGrow.enter (ledger : Ledger) {entry : Entry}
    (h : entry.inserted = none ∨ ledger.orders.find? entry.key = none) :
    ledger.LegsGrow (ledger.enter entry) := by
  intro id record hr
  by_cases hk : entry.key = id
  · subst hk
    have hinserted : entry.inserted = none := by
      rcases h with h | h
      · exact h
      · cases h.symm.trans hr
    cases hw : (entry.write (some record)).1 with
    | none =>
      refine ⟨record, ?_, List.prefix_refl _⟩
      rw [find?_enter, if_pos rfl, hr, hw, Option.none_or]
    | some new =>
      exact ⟨new, ledger.find?_enter_of_write entry hr hw,
        (Entry.legStep_write hinserted hw).legs_extend⟩
  · exact ⟨record, (find?_enter_of_ne ledger hk).trans hr, List.prefix_refl _⟩

theorem LegsGrow.enterAll (ledger : Ledger) {entries : List Entry}
    (h : ∀ entry ∈ entries, entry.inserted = none) :
    ledger.LegsGrow (ledger.enterAll entries) := by
  induction entries generalizing ledger with
  | nil => exact .refl ledger
  | cons entry entries ih =>
    have hhead : ledger.LegsGrow (ledger.enter entry) :=
      .enter ledger (.inl (h entry List.mem_cons_self))
    exact hhead.trans (ih _ fun e hm => h e (List.mem_cons_of_mem entry hm))

end Ledger

namespace System

variable {s t : System} {a : Action}

/-- A first section brings a record without legs. -/
theorem Enters.legTable_inserted {entry : Entry} (h : s.Enters a entry) {record : OrderRecord}
    (hb : entry.inserted = some record) : record.LegTable := by
  cases h with
  | riskRejected _ _ _ | staged _ _ =>
    obtain rfl := Option.some.inj hb
    exact .of_nil rfl rfl
  | _ => cases hb

theorem legTables_step (h : s.oms.ledger.LegTables) (hs : s.step a = some t) (ha : a.live) :
    t.oms.ledger.LegTables := by
  refine every_step h hs ha (Ledger.allEntries_true _ _) fun entry he old new hold _ hw => ?_
  exact Entry.legTable_write (fun _ hb => he.legTable_inserted hb) hold hw

theorem legsGrow_step (hs : s.step a = some t) (ha : a.live) :
    s.oms.ledger.LegsGrow t.oms.ledger := by
  rcases ledger_step_cases hs ha with ⟨orders, rfl, hp, rfl⟩ | hledger
  · intro id record hr
    exact ⟨record, (KeyedList.find?_of_perm hp id).trans hr, List.prefix_refl _⟩
  · rw [hledger]
    by_cases hplace : ∃ request venue, a = .place request venue
    · obtain ⟨request, venue, rfl⟩ := hplace
      cases s.oms.placeStage_cases request venue with
      | unchanged _ he _ =>
        simp only [entries, he]
        exact .refl _
      | riskRejected _ _ _ hnew he _ _ =>
        simp only [entries, he]
        exact .enter _ (.inr hnew)
      | unpersisted _ _ hnew _ he _ _ =>
        simp only [entries, he]
        exact .enter _ (.inr hnew)
      | opened _ _ hnew _ _ he _ _ _ =>
        simp only [entries, he]
        exact .enter _ (.inr hnew)
    · apply Ledger.LegsGrow.enterAll
      intro entry hm
      cases s.enters_of_mem hm with
      | riskRejected | staged => exact absurd ⟨_, _, rfl⟩ hplace
      | _ => rfl

theorem legTables_run (config : Config) (log : Option EventLog)
    (hempty : (boot config log).oms.orders.toList = []) (h : LiveRun (boot config log) s) :
    s.oms.ledger.LegTables := by
  have hboot : (boot config log).oms.ledger.LegTables := by
    intro id record hr
    have hnone : (boot config log).oms.ledger.orders.find? id = none := by
      change (boot config log).oms.orders.toList.find? _ = none
      rw [hempty]
      rfl
    cases hnone.symm.trans hr
  exact Transition.Reaches.invariant (I := fun s => s.oms.ledger.LegTables)
    (fun s a t hI ha hs => legTables_step hI hs ha) h hboot

/-- From the empty registry, every leg table is numbered 1 to N, names every leg and ends with the
current order; every step only appends to it. -/
theorem leg_table_invariant (config : Config) (log : Option EventLog)
    (hempty : (boot config log).oms.orders.toList = []) (h : LiveRun (boot config log) s) :
    (∀ id record, s.oms.lookup id = some record →
      record.legs.map OrderLeg.version = List.range' 1 record.legs.length ∧
      (∀ leg ∈ record.legs, leg.exchangeOrderId ≠ "") ∧
      (record.exchangeOrderId = "" ↔ record.legs = []) ∧
      ∀ leg, record.legs.getLast? = some leg → record.exchangeOrderId = leg.exchangeOrderId) ∧
    ∀ a t, a.live → s.step a = some t → ∀ id record, s.oms.lookup id = some record →
      ∃ record', t.oms.lookup id = some record' ∧ record.legs <+: record'.legs := by
  have htables := legTables_run config log hempty h
  constructor
  · intro id record hr
    have htable := htables id record hr
    refine ⟨htable.versions, htable.named, htable.id_eq_empty_iff, fun leg hleg => ?_⟩
    rw [htable.current, hleg]
    rfl
  · intro a t ha hs
    exact legsGrow_step hs ha

/-- An order with two legs, and the report that finds them. -/
theorem leg_table_invariant_amended : ∃ s, LiveRun (boot .sample (some .fresh)) s ∧
    ∃ record, s.oms.lookup "c1" = some record ∧
      record.legs.map OrderLeg.exchangeOrderId = ["1", "2"] ∧
      record.legs.map OrderLeg.version = List.range' 1 record.legs.length := by
  have hrun : (Transition.exec step (fun _ a => a.live) (boot .sample (some .fresh))
    [.place .sample "", .send 0, .placed 0 (.ok ⟨"c1", "1"⟩), .amend ⟨"c1", some "101", none⟩,
      .amended 0 (.ok ⟨"c1", "2"⟩), .report ⟨"c1", "1", .canceled, .buy, "", ""⟩]).isSome := by
    decide
  have hreach := Transition.reaches_get_exec hrun
  have hinv := (leg_table_invariant .sample (some .fresh) rfl hreach).1 "c1" _ rfl
  exact ⟨_, hreach, _, rfl, rfl, hinv.1⟩

end System

end ExchangeGateway
