import ExchangeGateway.Core.AuditRun
import ExchangeGateway.Core.Legs
import ExchangeGateway.Lib.Backlog

/-! The notes of adopted legs. A venue order that no leg of its client order names is adopted as the
newest leg and noted for the next audit; the notes are a backlog of 256. -/
namespace ExchangeGateway

namespace OrderRecord

def Names (record : OrderRecord) (id : String) : Prop :=
  ∃ leg ∈ record.legs, leg.exchangeOrderId = id

def Anchored (record : OrderRecord) : Prop :=
  record.exchangeOrderId = "" ∨ record.Names record.exchangeOrderId

variable {record new : OrderRecord} {id : String}

theorem not_names_of_legIndexOf (h : record.legIndexOf id = none) : ¬ record.Names id := by
  rintro ⟨leg, hleg, hid⟩
  rcases record.legIndexOf_spec id with ⟨-, hall⟩ | ⟨index, hsome, -⟩
  · exact hall leg hleg hid
  · rw [h] at hsome
    cases hsome

theorem Names.of_prefix (h : record.Names id) (hlegs : record.legs <+: new.legs) :
    new.Names id := by
  obtain ⟨leg, hleg, hid⟩ := h
  exact ⟨leg, hlegs.subset hleg, hid⟩

theorem LegStep.anchored (h : record.LegStep new) (hanchored : record.Anchored) :
    new.Anchored := by
  cases h with
  | same hid hlegs =>
    unfold Anchored Names
    rw [hid, hlegs]
    exact hanchored
  | push id hne hid hlegs =>
    apply Or.inr
    rw [hid]
    exact ⟨_, by rw [hlegs]; exact List.mem_append_right _ (List.mem_singleton_self _), rfl⟩

/-- An id that no leg has becomes the newest leg. -/
theorem names_noteExchangeId (hanchored : record.Anchored) (hne : id ≠ "")
    (hnone : record.legIndexOf id = none) : (record.noteExchangeId id).Names id := by
  rcases record.noteExchangeId_cases id with heq | ⟨-, -, heq⟩
  · -- then the id was the current one, hence that of a leg
    have hcurrent : (record.noteExchangeId id).exchangeOrderId = id :=
      exchangeOrderId_noteExchangeId hne
    rw [heq] at hcurrent
    rcases hanchored with hempty | hnames
    · exact absurd (hcurrent.symm.trans hempty) hne
    · rw [hcurrent] at hnames
      exact absurd hnames (not_names_of_legIndexOf hnone)
  · rw [heq]
    exact ⟨_, List.mem_append_right _ (List.mem_singleton_self _), rfl⟩

end OrderRecord

/-! ### What a section adopts -/

namespace Oms

def Knows (oms : Oms) (note : String × String) : Prop :=
  ∃ record, oms.lookup note.1 = some record ∧ record.Names note.2

theorem Knows.grow {before after : Oms} {note : String × String} (h : before.Knows note)
    (hgrows : before.ledger.LegsGrow after.ledger) : after.Knows note := by
  obtain ⟨record, hrecord, hnames⟩ := h
  obtain ⟨record', hrecord', hlegs⟩ := hgrows _ record hrecord
  exact ⟨record', hrecord', hnames.of_prefix hlegs⟩

def kMaxDiscoveredLegNotes : ℕ := 256

def noted (oms : Oms) : List (String × String) × ℕ :=
  (oms.discoveredLegNotes, oms.stats.legsDiscovered)

/-- From one state to a later one: the adopted legs, each of them new. -/
structure Adopts (before after : Oms) (fresh : List (String × String)) : Prop where
  notes : after.noted.1 = Backlog.pushAll kMaxDiscoveredLegNotes before.noted.1 fresh
  count : after.noted.2 = before.noted.2 + fresh.length
  nodup : fresh.Nodup
  unknown : ∀ note ∈ fresh, ¬ before.Knows note
  known : ∀ note ∈ fresh, after.Knows note
  grows : before.ledger.LegsGrow after.ledger

variable {before after : Oms} {record : OrderRecord}

theorem Adopts.nothing (h : after.noted = before.noted)
    (hgrows : before.ledger.LegsGrow after.ledger) : Adopts before after [] := by
  refine ⟨?_, ?_, List.nodup_nil, nofun, nofun, hgrows⟩
  · rw [h, Backlog.pushAll_nil]
  · rw [h, List.length_nil, Nat.add_zero]

theorem Adopts.one {id : String} (hrecord : before.lookup record.clientOrderId = some record)
    (hnone : record.legIndexOf id = none)
    (h : after.noted = (Backlog.push kMaxDiscoveredLegNotes before.noted.1
      (record.clientOrderId, id), before.noted.2 + 1))
    (hafter : after.Knows (record.clientOrderId, id))
    (hgrows : before.ledger.LegsGrow after.ledger) :
    Adopts before after [(record.clientOrderId, id)] := by
  refine ⟨?_, ?_, List.nodup_singleton _, ?_, ?_, hgrows⟩
  · rw [h, Backlog.pushAll_singleton]
  · rw [h, List.length_singleton]
  · intro note hnote hknows
    rw [List.mem_singleton.mp hnote] at hknows
    obtain ⟨record', hrecord', hnames⟩ := hknows
    rw [show before.lookup record.clientOrderId = some record' from hrecord'] at hrecord
    cases hrecord
    exact OrderRecord.not_names_of_legIndexOf hnone hnames
  · intro note hnote
    rw [List.mem_singleton.mp hnote]
    exact hafter

theorem Adopts.trans {mid : Oms} {fresh fresh' : List (String × String)}
    (h : Adopts before mid fresh) (h' : Adopts mid after fresh') :
    Adopts before after (fresh ++ fresh') := by
  refine ⟨?_, ?_, ?_, ?_, ?_, h.grows.trans h'.grows⟩
  · rw [Backlog.pushAll_append, ← h.notes]
    exact h'.notes
  · rw [h'.count, h.count, List.length_append]
    omega
  · apply List.nodup_append.mpr
    refine ⟨h.nodup, h'.nodup, ?_⟩
    intro note hnote note' hnote' heq
    exact h'.unknown note' hnote' (heq ▸ h.known note hnote)
  · intro note hnote hknows
    rcases List.mem_append.mp hnote with hnote | hnote
    · exact h.unknown note hnote hknows
    · exact h'.unknown note hnote (hknows.grow h.grows)
  · intro note hnote
    rcases List.mem_append.mp hnote with hnote | hnote
    · exact (h.known note hnote).grow h'.grows
    · exact h'.known note hnote

theorem noted_of_appendOrError {oms oms' : Oms} {event : Json} {error : Option Error}
    (h : oms.appendOrError event = (oms', error)) : oms'.noted = oms.noted := by
  obtain ⟨-, heq⟩ | ⟨-, error', heq⟩ := oms.appendOrError_cases event
  all_goals
    rw [heq] at h
    cases congrArg Prod.fst h
    rfl

theorem noted_appendEvent (oms : Oms) (event : Json) :
    (oms.appendEvent event).noted = oms.noted := by
  unfold appendEvent
  split
  · rename_i heq
    exact noted_of_appendOrError heq
  · rename_i heq
    have hlogged := noted_of_appendOrError heq
    exact hlogged

theorem noted_adoptUnknownLeg (oms : Oms) (record : OrderRecord) (id : String) :
    (oms.adoptUnknownLeg record id).1.noted =
      (Backlog.push kMaxDiscoveredLegNotes oms.noted.1 (record.clientOrderId, id),
        oms.noted.2 + 1) := by
  simp [adoptUnknownLeg, noteDiscoveredLeg, Backlog.push, store, kMaxDiscoveredLegNotes, noted]

theorem noted_applyReport (oms : Oms) (record : OrderRecord) (report : ExecutionReport)
    (lifecycle : Bool) : (oms.applyReport record report lifecycle).1.noted = oms.noted := by
  unfold applyReport
  dsimp only
  generalize (if record.exchangeOrderId = "" then _ else record) = record
  split
  · rw [noted_appendEvent]
    rfl
  · rfl

theorem adopts_applyArbitratedReport (h : before.lookup record.clientOrderId = some record)
    (hanchored : record.Anchored) (report : ExecutionReport) :
    ∃ fresh, Adopts before (before.applyArbitratedReport record report).1 fresh := by
  obtain ⟨-, hledger⟩ := applyArbitratedReport_eq h report
  have hgrows : before.ledger.LegsGrow (before.applyArbitratedReport record report).1.ledger := by
    rw [hledger]
    exact .enter _ (.inl rfl)
  by_cases hid : report.exchangeOrderId ≠ "" ∧ record.legs ≠ []
  · cases hindex : record.legIndexOf report.exchangeOrderId with
    | none =>
      have hnoted : (before.applyArbitratedReport record report).1.noted =
          ((before.hand report).adoptUnknownLeg record report.exchangeOrderId).1.noted := by
        simp only [applyArbitratedReport, if_pos hid, hindex]
        exact noted_applyReport _ _ _ _
      rw [noted_adoptUnknownLeg] at hnoted
      refine ⟨_, .one h hindex hnoted ?_ hgrows⟩
      refine ⟨(record.arbitrate report).1, ?_, ?_⟩
      · rw [lookup_of_ledger hledger]
        exact before.ledger.find?_enter_of_write (.reported record.clientOrderId report) h rfl
      · have hlearn : record.learn report.exchangeOrderId =
            record.noteExchangeId report.exchangeOrderId := by
          simp [OrderRecord.learn, hid.2, hindex]
        have hnames := OrderRecord.names_noteExchangeId hanchored hid.1 hindex
        unfold OrderRecord.Names OrderRecord.arbitrate
        rw [OrderRecord.legs_applyObservation, hlearn]
        exact hnames
    | some index =>
      refine ⟨[], .nothing ?_ hgrows⟩
      simp only [applyArbitratedReport, if_pos hid, hindex]
      exact noted_applyReport _ _ _ _
  · refine ⟨[], .nothing ?_ hgrows⟩
    simp only [applyArbitratedReport, if_neg hid]
    exact noted_applyReport _ _ _ _

theorem adopts_applyReports (h : before.lookup record.clientOrderId = some record)
    (hanchored : record.Anchored) (reports : List ExecutionReport) :
    ∃ fresh, Adopts before (before.applyReports record reports).1 fresh := by
  induction reports generalizing before record with
  | nil => exact ⟨[], .nothing rfl (.refl _)⟩
  | cons report reports ih =>
    obtain ⟨hrecord, hledger⟩ := applyArbitratedReport_eq h report
    have hwrite : ((Entry.reported record.clientOrderId report).write (some record)).1 =
      some (record.arbitrate report).1 := rfl
    have hid : (record.arbitrate report).1.clientOrderId = record.clientOrderId :=
      OrderRecord.clientOrderId_arbitrate _ _
    have hfind : (before.applyArbitratedReport record report).1.lookup
        (record.arbitrate report).1.clientOrderId = some (record.arbitrate report).1 := by
      rw [lookup_of_ledger hledger, hid]
      exact before.ledger.find?_enter_of_write (.reported record.clientOrderId report) h rfl
    have hanchored' : (record.arbitrate report).1.Anchored :=
      (Entry.legStep_write rfl hwrite).anchored hanchored
    obtain ⟨fresh, hfresh⟩ := adopts_applyArbitratedReport h hanchored report
    obtain ⟨rest, hrest⟩ := ih hfind hanchored'
    refine ⟨fresh ++ rest, hfresh.trans ?_⟩
    rw [← hrecord] at hrest
    exact hrest

/-! ### The sections -/

theorem legsGrow_store {new : OrderRecord} (h : before.lookup record.clientOrderId = some record)
    (hid : new.clientOrderId = record.clientOrderId) (hlegs : record.legs <+: new.legs) :
    before.ledger.LegsGrow (before.store new).ledger := by
  intro id old hold
  have hfind : (before.store new).ledger.orders.find? id =
      if new.clientOrderId = id then some new else before.ledger.orders.find? id :=
    KeyedList.find?_set _ _ _
  rw [hfind]
  split_ifs with hkey
  · have hsame : before.ledger.orders.find? id = some record := by
      rw [← hkey, hid]
      exact h
    rw [hsame] at hold
    cases hold
    exact ⟨new, rfl, hlegs⟩
  · exact ⟨old, hold, List.prefix_refl _⟩

theorem adopts_store {new : OrderRecord} (h : before.lookup record.clientOrderId = some record)
    (hid : new.clientOrderId = record.clientOrderId) (hlegs : record.legs <+: new.legs) :
    Adopts before (before.store new) [] :=
  .nothing rfl (legsGrow_store h hid hlegs)

theorem adopts_appendEvent (oms : Oms) (event : Json) : Adopts oms (oms.appendEvent event) [] := by
  apply Adopts.nothing (noted_appendEvent oms event)
  rw [ledger_appendEvent]
  exact Ledger.LegsGrow.refl oms.ledger

theorem adopts_adoptUnknownLeg {id : String}
    (h : before.lookup record.clientOrderId = some record) (hanchored : record.Anchored)
    (hne : id ≠ "") (hnone : record.legIndexOf id = none) :
    Adopts before (before.adoptUnknownLeg record id).1 [(record.clientOrderId, id)] := by
  have hid : (record.noteExchangeId id).clientOrderId = record.clientOrderId :=
    OrderRecord.clientOrderId_noteExchangeId _ _
  apply Adopts.one h hnone (before.noted_adoptUnknownLeg record id)
  · refine ⟨record.noteExchangeId id, ?_, OrderRecord.names_noteExchangeId hanchored hne hnone⟩
    have hstored := KeyedList.find?_set_self before.orders (record.noteExchangeId id)
    rw [hid] at hstored
    exact hstored
  · rw [ledger_adoptUnknownLeg, ← ledger_store]
    exact legsGrow_store h hid (record.legStep_noteExchangeId id).legs_extend

/-- An ack stores and logs its record before the buffered reports are applied. -/
theorem adopts_settle {new : OrderRecord} (h : before.lookup record.clientOrderId = some record)
    (hid : new.clientOrderId = record.clientOrderId) (hstep : record.LegStep new)
    (hanchored : record.Anchored) (event : Json) (raced : List ExecutionReport) :
    ∃ fresh, Adopts before (before.settle new event raced) fresh := by
  have hgrows : before.ledger.LegsGrow ((before.store new).logged event).ledger :=
    legsGrow_store h hid hstep.legs_extend
  have hstored : Adopts before ((before.store new).logged event) [] := .nothing rfl hgrows
  unfold settle
  split
  · have hlookup : ((before.store new).logged event).lookup new.clientOrderId = some new :=
      KeyedList.find?_set_self _ _
    obtain ⟨fresh, hfresh⟩ := adopts_applyReports hlookup (hstep.anchored hanchored) raced
    exact ⟨[] ++ fresh, hstored.trans hfresh⟩
  · exact ⟨[], .nothing rfl hgrows⟩

theorem adopts_drainRacedReports (oms : Oms) (id : String) :
    Adopts oms (oms.drainRacedReports id).1 [] := by
  apply Adopts.nothing
  · unfold drainRacedReports
    split
    all_goals rfl
  · rw [ledger_drainRacedReports]
    exact .refl _

theorem Adopts.noted_eq (h : Adopts before after []) : after.noted = before.noted :=
  Prod.ext h.notes h.count

/-- The newest unknown id of a batch is that of no leg. -/
theorem newestUnknown_spec (record : OrderRecord) (raced : List ExecutionReport)
    (h : newestUnknown record raced ≠ "") :
    record.legIndexOf (newestUnknown record raced) = none := by
  unfold newestUnknown at h ⊢
  induction raced using List.reverseRecOn with
  | nil => exact absurd rfl h
  | append_singleton older entry ih =>
    rw [List.foldl_append] at h ⊢
    simp only [List.foldl_cons, List.foldl_nil] at h ⊢
    split_ifs at h ⊢ with hunknown
    · exact hunknown.2
    · exact ih h

theorem adopts_amendFailed (h : before.lookup record.clientOrderId = some record)
    (hanchored : record.Anchored) (raced : List ExecutionReport) :
    ∃ fresh, Adopts before (before.amendFailed record raced) fresh := by
  unfold amendFailed
  by_cases hunknown : record.legs ≠ [] ∧ newestUnknown record raced ≠ ""
  · rw [if_pos hunknown]
    have hnone := newestUnknown_spec record raced hunknown.2
    generalize newestUnknown record raced = id at hunknown hnone
    have hadopted := adopts_adoptUnknownLeg h hanchored hunknown.2 hnone
    have hlookup : (before.adoptUnknownLeg record id).1.lookup
        (record.noteExchangeId id).clientOrderId = some (record.noteExchangeId id) :=
      KeyedList.find?_set_self _ _
    have hanchored' := (record.legStep_noteExchangeId id).anchored hanchored
    obtain ⟨fresh, hfresh⟩ := adopts_applyReports hlookup hanchored' raced
    exact ⟨_, hadopted.trans hfresh⟩
  · rw [if_neg hunknown]
    exact adopts_applyReports h hanchored raced

theorem noted_placeRejected (oms : Oms) (record : OrderRecord) (error : Error) :
    (oms.placeRejected record error).noted = oms.noted := by
  unfold placeRejected
  split
  · dsimp only
    split
    · rename_i heq
      have hlogged := noted_of_appendOrError heq
      exact hlogged
    · rename_i heq
      have hlogged := noted_of_appendOrError heq
      exact hlogged
  · rfl

theorem adopts_placeOutcome (hanchored : before.ledger.Every OrderRecord.Anchored)
    (request : OrderRequest) (placement : Result OrderPlacement)
    (hgrows : before.ledger.LegsGrow (before.placeOutcome request placement).1.ledger) :
    ∃ fresh, Adopts before (before.placeOutcome request placement).1 fresh := by
  have hdrained := before.adopts_drainRacedReports request.clientOrderId
  have hlookup := before.lookup_drainRacedReports request.clientOrderId request.clientOrderId
  unfold placeOutcome at hgrows ⊢
  dsimp only at hgrows ⊢
  cases hrecord : before.lookup request.clientOrderId with
  | none =>
    rw [hlookup, hrecord]
    exact ⟨[], hdrained⟩
  | some record =>
    have hkey : record.clientOrderId = request.clientOrderId := KeyedList.key_of_find? hrecord
    have hrecord' : (before.drainRacedReports request.clientOrderId).1.lookup
        record.clientOrderId = some record := by
      rw [hkey, hlookup, hrecord]
    have hanchor := hanchored _ record hrecord
    rw [hlookup, hrecord] at hgrows ⊢
    cases placement with
    | error error =>
      dsimp only at hgrows ⊢
      split at hgrows
      · rename_i hcode
        rw [if_pos hcode]
        have hnoted := noted_placeRejected (before.drainRacedReports request.clientOrderId).1
          record error
        exact ⟨[], .nothing (hnoted.trans (hdrained.noted_eq)) hgrows⟩
      · rename_i hcode
        rw [if_neg hcode]
        obtain ⟨fresh, hfresh⟩ := adopts_applyReports hrecord' hanchor
          (before.drainRacedReports request.clientOrderId).2
        exact ⟨[] ++ fresh, hdrained.trans hfresh⟩
    | ok ack =>
      rw [placeAcked_fst]
      have hwrite : ((Entry.accepted record.clientOrderId ack.exchangeOrderId).write
        (some record)).1 = some (record.accept ack.exchangeOrderId) := rfl
      have hid : (record.accept ack.exchangeOrderId).clientOrderId = record.clientOrderId :=
        OrderRecord.clientOrderId_noteExchangeId _ _
      obtain ⟨fresh, hfresh⟩ := adopts_settle hrecord' hid (Entry.legStep_write rfl hwrite) hanchor
        (placeAcceptedEvent (record.accept ack.exchangeOrderId))
        (before.drainRacedReports request.clientOrderId).2
      exact ⟨[] ++ fresh, hdrained.trans hfresh⟩

theorem adopts_amendOutcome (hanchored : before.ledger.Every OrderRecord.Anchored)
    (command : AmendCommand) (wire : AmendRequest) (placement : Result OrderPlacement) :
    ∃ fresh, Adopts before (before.amendOutcome command wire placement).1 fresh := by
  have hdrained := before.adopts_drainRacedReports command.clientOrderId
  have hlookup := before.lookup_drainRacedReports command.clientOrderId command.clientOrderId
  unfold amendOutcome
  dsimp only
  cases hrecord : before.lookup command.clientOrderId with
  | none =>
    rw [hlookup, hrecord]
    exact ⟨[], hdrained⟩
  | some record =>
    have hkey : record.clientOrderId = command.clientOrderId := KeyedList.key_of_find? hrecord
    have hrecord' : (before.drainRacedReports command.clientOrderId).1.lookup
        record.clientOrderId = some record := by
      rw [hkey, hlookup, hrecord]
    have hanchor := hanchored _ record hrecord
    rw [hlookup, hrecord]
    cases placement with
    | error error =>
      obtain ⟨fresh, hfresh⟩ := adopts_amendFailed hrecord' hanchor
        (before.drainRacedReports command.clientOrderId).2
      exact ⟨[] ++ fresh, hdrained.trans hfresh⟩
    | ok ack =>
      rw [amendAcked_fst]
      obtain ⟨fresh, hfresh⟩ := adopts_settle hrecord' (by simp)
        (record.legStep_amend (wire.newPrice.getD "") (wire.newQuantity.getD "")
          ack.exchangeOrderId) hanchor _ (before.drainRacedReports command.clientOrderId).2
      exact ⟨[] ++ fresh, hdrained.trans hfresh⟩

theorem adopts_onExecutionReport (hanchored : before.ledger.Every OrderRecord.Anchored)
    (report : ExecutionReport) : ∃ fresh, Adopts before (before.onExecutionReport report) fresh := by
  unfold onExecutionReport
  split
  · exact ⟨[], .nothing rfl (.refl _)⟩
  · split
    · exact ⟨[], .nothing rfl (.refl _)⟩
    · rename_i record hrecord
      have hkey : record.clientOrderId = report.clientOrderId := KeyedList.key_of_find? hrecord
      have hanchor := hanchored _ record hrecord
      rw [← hkey] at hrecord
      exact adopts_applyArbitratedReport hrecord hanchor report

theorem adopts_resolveSnapshot (h : before.lookup record.clientOrderId = some record)
    (hanchored : record.Anchored) (snapshot : OrderSnapshot) (report : ReconcileReport) :
    ∃ fresh, Adopts before (before.resolveSnapshot record snapshot report).1 fresh := by
  -- the observation stores the record once more, with the same legs
  have hobserve {mid : Oms} {known : OrderRecord}
      (hknown : mid.lookup known.clientOrderId = some known) :
      Adopts mid (mid.store (observeSnapshot known snapshot).1) [] := by
    apply adopts_store hknown
    · exact OrderRecord.clientOrderId_applyObservation _ _ _ _ _ _ _
    · unfold observeSnapshot
      rw [OrderRecord.legs_applyObservation]
  unfold resolveSnapshot
  by_cases hfirst : record.exchangeOrderId = "" ∧ snapshot.exchangeOrderId ≠ ""
  · rw [if_pos hfirst]
    dsimp only
    rw [Bool.true_or, if_pos rfl]
    have hstored := adopts_store h (OrderRecord.clientOrderId_noteExchangeId _ _)
      (record.legStep_noteExchangeId snapshot.exchangeOrderId).legs_extend
    have hlookup : (before.store (record.noteExchangeId snapshot.exchangeOrderId)).lookup
        (record.noteExchangeId snapshot.exchangeOrderId).clientOrderId =
          some (record.noteExchangeId snapshot.exchangeOrderId) := KeyedList.find?_set_self _ _
    exact ⟨_, (hstored.trans (hobserve hlookup)).trans (adopts_appendEvent _ _)⟩
  · rw [if_neg hfirst]
    by_cases hunknown : snapshot.exchangeOrderId ≠ "" ∧
        record.legIndexOf snapshot.exchangeOrderId = none
    · rw [if_pos hunknown]
      have hadopted := adopts_adoptUnknownLeg h hanchored hunknown.1 hunknown.2
      have hlookup : (before.adoptUnknownLeg record snapshot.exchangeOrderId).1.lookup
          (record.noteExchangeId snapshot.exchangeOrderId).clientOrderId =
            some (record.noteExchangeId snapshot.exchangeOrderId) := KeyedList.find?_set_self _ _
      exact ⟨_, (hadopted.trans (hobserve hlookup)).trans (adopts_appendEvent _ _)⟩
    · rw [if_neg hunknown]
      dsimp only
      split
      · exact ⟨_, (hobserve h).trans (adopts_appendEvent _ _)⟩
      · exact ⟨_, hobserve h⟩

/-- Phase B adopts the id of a snapshot that no leg of an acked order has. -/
theorem adopts_reconcileItem (hanchored : before.ledger.Every OrderRecord.Anchored)
    (item : WorkItem) (answer : Result (Option OrderSnapshot)) (report : ReconcileReport)
    (hgrows : before.ledger.LegsGrow (before.reconcileItem item answer report).1.ledger) :
    ∃ fresh, Adopts before (before.reconcileItem item answer report).1 fresh := by
  have hledger := before.reconcileItem_ledger item answer report
  unfold reconcileItem at hgrows hledger ⊢
  cases hrecord : before.lookup item.id with
  | none => exact ⟨[], .nothing rfl (.refl _)⟩
  | some record =>
    have hkey : record.clientOrderId = item.id := KeyedList.key_of_find? hrecord
    simp only [hrecord] at hgrows hledger ⊢
    have habsent : (before.resolveAbsent record).noted = before.noted := by
      unfold resolveAbsent
      split
      · rw [noted_appendEvent, noted_appendEvent]
        rfl
      · rfl
    rcases answer with error | _ | snapshot
    · dsimp only at hgrows ⊢
      split at hgrows
      · rename_i hconclusive
        rw [if_pos hconclusive]
        exact ⟨[], .nothing habsent hgrows⟩
      · rename_i hconclusive
        rw [if_neg hconclusive]
        exact ⟨[], .nothing rfl hgrows⟩
    · exact ⟨[], .nothing habsent hgrows⟩
    · exact adopts_resolveSnapshot (hkey ▸ hrecord) (hanchored _ record hrecord) snapshot report

theorem noted_placeStage (oms : Oms) (request : OrderRequest) (venue : String) :
    (oms.placeStage request venue).1.noted = oms.noted := by
  unfold placeStage
  dsimp only
  split
  · split
    all_goals rfl
  · split
    · rfl
    · split
      · rfl
      · unfold recordRiskRejection
        dsimp only
        split
        all_goals
          rename_i heq
          have hlogged := noted_of_appendOrError heq
          exact hlogged
      · unfold stagePending
        split
        all_goals
          rename_i heq
          have hlogged := noted_of_appendOrError heq
          exact hlogged

theorem noted_cancelOutcome (oms : Oms) (id : String) (placement : Result OrderPlacement) :
    (oms.cancelOutcome id placement).1.noted = oms.noted := by
  unfold cancelOutcome
  split
  · rfl
  · split
    · rfl
    · dsimp only
      split
      · exact noted_appendEvent _ _
      · rfl

theorem noted_reconcileListing (oms : Oms) (venue : String) (pending : List OrderSnapshot)
    (report : ReconcileReport) :
    (oms.reconcileListing venue pending report).1.noted = oms.noted := by
  unfold reconcileListing
  induction pending generalizing oms report with
  | nil => rfl
  | cons snapshot pending ih =>
    have hsnapshot : (reconcileSnapshot venue (oms, report) snapshot).1.noted = oms.noted := by
      unfold reconcileSnapshot
      dsimp only
      split
      · rfl
      · split
        · exact noted_appendEvent _ _
        · split
          · exact noted_appendEvent _ _
          · rfl
    exact (ih _ _).trans hsnapshot

end Oms

/-! ### Every current id is that of a leg -/

namespace OrderRecord

theorem LegTable.anchored {record : OrderRecord} (h : record.LegTable) : record.Anchored := by
  rcases h.cases with ⟨hempty, -⟩ | ⟨-, older, hlegs⟩
  · exact .inl hempty
  · exact .inr ⟨_, by rw [hlegs]; exact List.mem_append_right _ (List.mem_singleton_self _), rfl⟩

theorem anchored_replayLeg {record : OrderRecord} (h : record.Anchored) {version : ℕ}
    (hversion : version ≠ 0) (id : String) : (record.replayLeg version id).Anchored := by
  unfold replayLeg Anchored Names
  dsimp only
  by_cases hid : id = ""
  · simp only [hid, if_true]
    rcases h with hempty | ⟨leg, hleg, hnamed⟩
    · exact .inl hempty
    · refine .inr ⟨leg, ?_, hnamed⟩
      split
      · exact hleg
      · exact List.mem_append_left _ hleg
  · simp only [hid, if_false]
    apply Or.inr
    split
    · rename_i hle
      have hlt : version - 1 < record.legs.length := by omega
      refine ⟨{ record.legs[version - 1] with exchangeOrderId := id }, ?_, rfl⟩
      apply List.mem_iff_getElem.mpr
      refine ⟨version - 1, by rwa [List.length_modify], ?_⟩
      rw [List.getElem_modify, if_pos rfl]
    · exact ⟨_, List.mem_append_right _ (List.mem_singleton_self _), rfl⟩

theorem anchored_replayAmended {record : OrderRecord} (h : record.Anchored) (event : Json) :
    (record.replayAmended event).Anchored := by
  have hterms : (record.replayTerms event).Anchored := h
  unfold replayAmended
  dsimp only
  split
  · unfold replayLegacyAmend
    have hnoted := (legStep_noteExchangeId (record.replayTerms event)
      ((eventString event "exchangeOrderId").getD "")).anchored hterms
    dsimp only
    split
    · exact hnoted
    · exact hnoted
  · rename_i hversion
    exact anchored_replayLeg hterms hversion _

theorem anchored_replayState {record : OrderRecord} (h : record.Anchored) (event : Json) :
    (record.replayState event).Anchored := by
  unfold replayState
  split
  · exact h
  · dsimp only
    have hobserved (state : OrderState) (filled avgPrice : String) :
        (record.applyObservation state filled avgPrice "" "" true).1.Anchored := by
      unfold Anchored Names
      rw [exchangeOrderId_applyObservation, legs_applyObservation]
      exact h
    split
    · exact (legStep_noteExchangeId _ _).anchored (hobserved _ _ _)
    · exact hobserved _ _ _

end OrderRecord

theorem anchored_replay (defaultVenue : String) :
    ReplayInvariant OrderRecord.Anchored defaultVenue where
  created type id event := by
    unfold OrderRecord.Anchored OrderRecord.Names recordFromEvent
    dsimp only
    generalize (if type = "place_submitted" then "" else
      (eventString event "exchangeOrderId").getD "") = exchangeOrderId
    by_cases hid : exchangeOrderId = ""
    · exact .inl hid
    · rw [if_neg hid]
      exact .inr ⟨_, List.mem_singleton_self _, rfl⟩
  rejected record event h := by
    rcases h with h | ⟨id, rfl⟩
    · exact h
    · exact .inl rfl
  amended _ event h := OrderRecord.anchored_replayAmended h event
  state _ event h := OrderRecord.anchored_replayState h event

namespace System

variable {s t : System} {a : Action}

theorem anchored_step (h : s.oms.ledger.Every OrderRecord.Anchored) (hs : s.step a = some t)
    (ha : a.live) : t.oms.ledger.Every OrderRecord.Anchored := by
  apply every_step h hs ha (Ledger.allEntries_true _ _)
  intro entry henters old new hold _ hwrite
  obtain hinserted | ⟨venue, snapshot, -, -, rfl⟩ | ⟨hinserted, record, rfl⟩ :=
    Entry.write_cases hwrite
  · exact (henters.legTable_inserted hinserted).anchored
  · exact (OrderRecord.legTable_snapshotRecord snapshot venue true).anchored
  · exact (Entry.legStep_write hinserted hwrite).anchored (hold record rfl)

theorem adopts_step (h : s.oms.ledger.Every OrderRecord.Anchored) (hs : s.step a = some t)
    (ha : a.live) : ∃ fresh, Oms.Adopts s.oms t.oms fresh := by
  have hgrows := legsGrow_step hs ha
  cases a with
  | place request venue =>
    cases hs
    refine ⟨[], .nothing ?_ hgrows⟩
    rw [place_oms]
    exact s.oms.noted_placeStage request venue
  | placed i placement =>
    obtain ⟨request, connector, staged, -, rfl⟩ := placed_cases hs
    exact Oms.adopts_placeOutcome h request placement hgrows
  | cancel id =>
    cases hs
    refine ⟨[], .nothing ?_ hgrows⟩
    rw [cancel_oms]
  | canceled i placement =>
    obtain ⟨id, wire, connector, -, rfl⟩ := canceled_cases hs
    exact ⟨[], .nothing (s.oms.noted_cancelOutcome id placement) hgrows⟩
  | amend command =>
    cases hs
    refine ⟨[], .nothing ?_ hgrows⟩
    rw [amend_oms]
    cases s.oms.amendStage_cases command with
    | unchanged hafter _ => rw [hafter]
    | opened _ _ _ _ _ _ _ hafter =>
      rw [hafter]
      rfl
  | amended i placement =>
    obtain ⟨command, wire, connector, validated, -, rfl⟩ := amended_cases hs
    exact Oms.adopts_amendOutcome h command wire placement
  | report report =>
    cases hs
    exact Oms.adopts_onExecutionReport h report
  | resolved i answer =>
    obtain ⟨item, items, report, report', -, -, -, -, ⟨-, ht⟩ | ⟨-, ht⟩⟩ := resolved_cases hs
    · rw [ht]
      exact ⟨[], .nothing rfl (.refl _)⟩
    · rw [ht] at hgrows ⊢
      exact Oms.adopts_reconcileItem h item answer _ hgrows
  | listed i pending =>
    obtain ⟨venue, venues, report, report', -, -, -, -, ⟨_, -, ht⟩ | ⟨snapshots, -, ht⟩⟩ :=
      listed_cases hs
    · rw [ht]
      exact ⟨[], .nothing rfl (.refl _)⟩
    · refine ⟨[], .nothing ?_ hgrows⟩
      rw [ht]
      exact Oms.noted_reconcileListing _ _ _ _
  | send i =>
    obtain ⟨_, _, _, -, rfl⟩ := send_cases hs
    exact ⟨[], .nothing rfl hgrows⟩
  | reconcile =>
    cases hs
    exact ⟨[], .nothing rfl hgrows⟩
  | collect i =>
    obtain ⟨_, -, rfl⟩ := collect_cases hs
    exact ⟨[], .nothing rfl hgrows⟩
  | finish i =>
    obtain ⟨_, -, rfl⟩ := finish_cases hs
    exact ⟨[], .nothing rfl hgrows⟩
  | rehash orders =>
    obtain ⟨-, rfl⟩ := rehash_cases hs
    exact ⟨[], .nothing rfl hgrows⟩
  | restart config logOpen => cases ha

end System

/-! ### Audits -/

structure Watch where
  system : System
  /-- The notes that the audits drained, in order. -/
  reported : List (String × String)
  /-- How many legs had been adopted at the last audit. -/
  seen : ℕ
  /-- How many legs were adopted between two audits beyond what the backlog holds. -/
  excess : ℕ

namespace Watch

inductive Move
  | act (a : Action)
  /-- The section of `audit` that drains the notes. -/
  | audit

def Move.live : Move → Bool
  | .act a => a.live
  | .audit => true

def boot (config : Config) (log : Option EventLog) : Watch := ⟨.boot config log, [], 0, 0⟩

def notes (w : Watch) : List (String × String) := w.system.oms.discoveredLegNotes

def adopted (w : Watch) : ℕ := w.system.oms.stats.legsDiscovered

def audit (w : Watch) : Watch where
  system := { w.system with oms := w.system.oms.auditBegin.1 }
  reported := w.reported ++ w.notes
  seen := w.adopted
  excess := w.excess + (w.adopted - w.seen - Oms.kMaxDiscoveredLegNotes)

def step (w : Watch) : Move → Option Watch
  | .act a => (w.system.step a).map fun system => { w with system := system }
  | .audit => some w.audit

/-- Every leg adopted so far was reported, was lost or was adopted since the last audit. -/
structure Accounts (w : Watch) (lost since : List (String × String)) : Prop where
  anchored : w.system.oms.ledger.Every OrderRecord.Anchored
  seen : w.reported.length + lost.length = w.seen
  total : w.seen + since.length = w.adopted
  excess : lost.length = w.excess
  pending : w.notes = Backlog.newest Oms.kMaxDiscoveredLegNotes since
  nodup : (w.reported ++ lost ++ since).Nodup
  known : ∀ note ∈ w.reported ++ lost ++ since, w.system.oms.Knows note

theorem boot_accounts (config : Config) (log : Option EventLog) :
    (boot config log).Accounts [] [] := by
  have hnoted : (boot config log).system.oms.noted = ([], 0) := by
    cases log <;> rfl
  have hadopted : (boot config log).adopted = 0 := congrArg Prod.snd hnoted
  exact {
    anchored := System.start_every (anchored_replay config.defaultVenue) log
    seen := rfl
    total := hadopted.symm
    excess := rfl
    pending := congrArg Prod.fst hnoted
    nodup := List.nodup_nil
    known := by simp [boot] }

variable {w : Watch} {lost since : List (String × String)}

theorem Accounts.act (h : w.Accounts lost since) {a : Action} {system : System}
    (hs : w.system.step a = some system) (ha : a.live) :
    ∃ since, Accounts { w with system := system } lost since := by
  obtain ⟨fresh, hfresh⟩ := System.adopts_step h.anchored hs ha
  have hcount : adopted { w with system := system } = w.adopted + fresh.length := hfresh.count
  have hpushed : notes { w with system := system } =
    Backlog.pushAll Oms.kMaxDiscoveredLegNotes w.notes fresh := hfresh.notes
  refine ⟨since ++ fresh, System.anchored_step h.anchored hs ha, h.seen, ?_, h.excess, ?_, ?_, ?_⟩
  · rw [hcount, ← h.total, List.length_append, Nat.add_assoc]
  · rw [hpushed, h.pending, Backlog.pushAll_newest]
  · rw [← List.append_assoc]
    apply List.nodup_append.mpr
    refine ⟨h.nodup, hfresh.nodup, ?_⟩
    intro note hnote note' hnote' heq
    exact hfresh.unknown note' hnote' (heq ▸ h.known note hnote)
  · intro note hnote
    rw [← List.append_assoc] at hnote
    rcases List.mem_append.mp hnote with hold | hnew
    · exact (h.known note hold).grow hfresh.grows
    · exact hfresh.known note hnew

/-- An audit reports what the backlog still holds; what it no longer holds is lost. -/
theorem Accounts.audit (h : w.Accounts lost since) :
    w.audit.Accounts (lost ++ since.take (since.length - Oms.kMaxDiscoveredLegNotes)) [] := by
  have hseen := h.seen
  have htotal := h.total
  have hexcess := h.excess
  have hnotes := h.pending
  have hsplit := List.take_append_drop (since.length - Oms.kMaxDiscoveredLegNotes) since
  have hlength : w.notes.length = since.length - (since.length - Oms.kMaxDiscoveredLegNotes) := by
    rw [hnotes, Backlog.newest, List.length_drop]
  have hperm : (w.reported ++ w.notes ++
      (lost ++ since.take (since.length - Oms.kMaxDiscoveredLegNotes)) ++ []).Perm
        (w.reported ++ lost ++ since) := by
    apply List.perm_iff_count.mpr
    intro note
    have hcount := congrArg (List.count note) hsplit
    rw [hnotes, Backlog.newest]
    simp only [List.count_append, List.count_nil] at hcount ⊢
    omega
  refine ⟨h.anchored, ?_, rfl, ?_, rfl, hperm.nodup_iff.mpr h.nodup, ?_⟩
  · change (w.reported ++ w.notes).length + _ = w.adopted
    simp only [List.length_append, List.length_take]
    omega
  · change _ = w.excess + (w.adopted - w.seen - Oms.kMaxDiscoveredLegNotes)
    simp only [List.length_append, List.length_take]
    omega
  · intro note hnote
    exact h.known note (hperm.subset hnote)

theorem Accounts.step {w' : Watch} (h : w.Accounts lost since) {move : Move}
    (hs : w.step move = some w') (hlive : move.live) :
    ∃ lost since, w'.Accounts lost since := by
  cases move with
  | act a =>
    obtain ⟨system, hsystem, rfl⟩ := Option.map_eq_some_iff.mp hs
    exact ⟨lost, h.act hsystem hlive⟩
  | audit =>
    cases hs
    exact ⟨_, _, h.audit⟩

theorem mem_audit_alerts {oms : Oms} {note : String × String} (h : note ∈ oms.discoveredLegNotes)
    (visit : AuditItem → Oms × Result (Option OrderSnapshot)) :
    ⟨note.1, "unknown_leg_report", "execution report carried exchangeOrderId " ++ note.2 ++
      " absent from the leg table; adopted as a new leg (lost amend ack?)"⟩ ∈
        (oms.audit visit).alerts := by
  rw [Oms.audit_alerts]
  apply List.mem_append_left
  apply List.mem_append_right
  exact List.mem_map.mpr ⟨note, h, rfl⟩

/-- In every run of one incarnation, with audits at any time: the legs adopted up to the last audit
are those that audits reported and those lost to the backlog, which are as many as were adopted
between two audits beyond 256. Of those adopted since, the last 256 wait, and the next audit raises
an alert for each. All of them are in the leg tables of their orders, and none is counted twice. -/
theorem audits_report_adoptions (config : Config) (log : Option EventLog) {w : Watch}
    (h : Transition.Reaches step (fun _ move => move.live) (boot config log) w) :
    ∃ lost since : List (String × String),
      w.reported.length + lost.length = w.seen ∧ w.seen + since.length = w.adopted ∧
      lost.length = w.excess ∧
      w.notes = Backlog.newest 256 since ∧ (since.length ≤ 256 → w.notes = since) ∧
      (w.reported ++ lost ++ since).Nodup ∧
      (∀ note ∈ w.reported ++ lost ++ since, ∃ record,
        w.system.oms.lookup note.1 = some record ∧
        ∃ leg ∈ record.legs, leg.exchangeOrderId = note.2) ∧
      ∀ visit, ∀ note ∈ w.notes,
        ⟨note.1, "unknown_leg_report", "execution report carried exchangeOrderId " ++ note.2 ++
          " absent from the leg table; adopted as a new leg (lost amend ack?)"⟩ ∈
            (w.system.oms.audit visit).alerts := by
  obtain ⟨lost, since, haccounts⟩ : ∃ lost since, w.Accounts lost since :=
    Transition.Reaches.invariant (I := fun w : Watch => ∃ lost since, w.Accounts lost since)
      (fun _ _ _ hI hlive hs => hI.elim fun _ hI => hI.elim fun _ hI => hI.step hs hlive) h
      ⟨[], [], boot_accounts config log⟩
  refine ⟨lost, since, haccounts.seen, haccounts.total, haccounts.excess, haccounts.pending, ?_,
    haccounts.nodup, haccounts.known, ?_⟩
  · intro hfits
    exact haccounts.pending.trans (Backlog.newest_of_length_le hfits)
  · intro visit note hnote
    exact mem_audit_alerts hnote visit

/-- The ack of an amend is lost, the report of its new leg comes in and is audited; a second leg
waits for the next audit. -/
theorem audits_report_adoptions_lostAck : ∃ w,
    Transition.Reaches step (fun _ move => move.live) (boot .sample (some .fresh)) w ∧
      w.reported = [("c1", "2")] ∧ w.notes = [("c1", "3")] ∧ w.adopted = 2 ∧
      ∃ lost since : List (String × String), w.reported.length + lost.length = w.seen ∧
        w.seen + since.length = w.adopted ∧ lost.length = 0 ∧ w.notes = since := by
  have hexec : (Transition.exec step (fun _ move => move.live) (boot .sample (some .fresh))
    [.act (.place .sample ""), .act (.send 0), .act (.placed 0 (.ok ⟨"c1", "1"⟩)),
      .act (.amend ⟨"c1", some "101", none⟩), .act (.amended 0 (.error ⟨"transport", "timeout"⟩)),
      .act (.report ⟨"c1", "2", .live, .buy, "0", ""⟩), .audit,
      .act (.report ⟨"c1", "3", .live, .buy, "0", ""⟩)]).isSome := by decide
  have hreach := Transition.reaches_get_exec hexec
  obtain ⟨lost, since, hseen, hadopted, hexcess, -, hpending, -⟩ :=
    audits_report_adoptions .sample (some .fresh) hreach
  have hlength : since.length = 1 := by
    have hsum : 1 + since.length = 2 := hadopted
    omega
  refine ⟨_, hreach, rfl, rfl, rfl, lost, since, hseen, hadopted, hexcess, hpending ?_⟩
  rw [hlength]
  decide

end Watch

end ExchangeGateway
