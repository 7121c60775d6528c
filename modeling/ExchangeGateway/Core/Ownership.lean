import ExchangeGateway.Core.Sections

/-! What each step does to the open calls and the raced-report buffers, and the invariant that
ties them together: the buffers are those of the open places and amends, one per client order. -/
namespace ExchangeGateway

namespace Ledger

/-- Entries add orders to the registry and never remove one. -/
theorem mem_enter {ledger : Ledger} {id : String} (entry : Entry) (h : id ∈ ledger.orders) :
    id ∈ (ledger.enter entry).orders := by
  obtain ⟨record, hr⟩ := KeyedList.mem_iff.mp h
  rw [KeyedList.mem_iff, find?_enter]
  split_ifs with hk
  · rw [hk, hr]
    cases (entry.write (some record)).1 <;> simp
  · exact ⟨record, hr⟩

theorem mem_enterAll {ledger : Ledger} {id : String} (entries : List Entry)
    (h : id ∈ ledger.orders) : id ∈ (ledger.enterAll entries).orders := by
  induction entries generalizing ledger with
  | nil => exact h
  | cons entry entries ih => exact ih (mem_enter entry h)

def Every (P : OrderRecord → Prop) (ledger : Ledger) : Prop :=
  ∀ id record, ledger.orders.find? id = some record → P record

theorem Every.enter {P : OrderRecord → Prop} {ledger : Ledger} (h : ledger.Every P)
    {entry : Entry}
    (hw : ∀ new, (entry.write (ledger.orders.find? entry.key)).1 = some new → P new) :
    (ledger.enter entry).Every P := by
  intro id record hr
  rw [find?_enter] at hr
  split at hr
  · cases hnew : (entry.write (ledger.orders.find? entry.key)).1 with
    | none =>
      rw [hnew, Option.none_or] at hr
      exact h _ record hr
    | some new =>
      rw [hnew, Option.some_or] at hr
      obtain rfl := Option.some.inj hr
      exact hw new hnew
  · exact h id record hr

theorem Every.enterAll {P : OrderRecord → Prop} {check : Entry → Option OrderRecord → Bool}
    {ledger : Ledger} (h : ledger.Every P) {entries : List Entry}
    (hcheck : ledger.allEntries check entries)
    (hw : ∀ entry ∈ entries, ∀ old new, (∀ record, old = some record → P record) →
      check entry old → (entry.write old).1 = some new → P new) :
    (ledger.enterAll entries).Every P := by
  induction entries generalizing ledger with
  | nil => exact h
  | cons entry entries ih =>
    obtain ⟨hhead, htail⟩ := Bool.and_eq_true_iff.mp hcheck
    have henter : (ledger.enter entry).Every P :=
      h.enter fun new => hw entry List.mem_cons_self _ new (h entry.key) hhead
    exact ih henter htail fun e hm => hw e (List.mem_cons_of_mem entry hm)

theorem allEntries_true (ledger : Ledger) (entries : List Entry) :
    ledger.allEntries (fun _ _ => true) entries := by
  induction entries generalizing ledger with
  | nil => rfl
  | cons entry entries ih => exact ih _

end Ledger

namespace Oms

/-! ### The first sections -/

theorem frame_stagePending_of_not_persists {oms : Oms} (h : ¬ oms.persists)
    (record : OrderRecord) (connector : String) :
    ∃ result, (oms.stagePending record connector).2 = .answered result ∧
      (oms.stagePending record connector).1.frame = oms.frame := by
  obtain ⟨hp, ha⟩ | ⟨-, error, ha⟩ := oms.appendOrError_cases (placeSubmittedEvent record)
  · exact absurd hp h
  · simp only [stagePending, ha]
    exact ⟨_, rfl, rfl⟩

theorem stagePending_of_persists {oms : Oms} (h : oms.persists) (record : OrderRecord)
    (connector : String) :
    (oms.stagePending record connector).2 = .opened connector record ∧
      (oms.stagePending record connector).1.config = oms.config ∧
      (oms.stagePending record connector).1.racedReports =
        if record.clientOrderId ∈ oms.racedReports then oms.racedReports
        else oms.racedReports.set ⟨record.clientOrderId, []⟩ := by
  obtain ⟨-, ha⟩ | ⟨hp, -⟩ := oms.appendOrError_cases (placeSubmittedEvent record)
  · rw [stagePending, ha]
    exact ⟨rfl, rfl, rfl⟩
  · exact absurd h hp

theorem recordRiskRejection_cases (oms : Oms) (record : OrderRecord) (rejection : Error) :
    ∃ error, (oms.recordRiskRejection record rejection).2 = .riskRejected error ∧
      (oms.recordRiskRejection record rejection).1.frame = oms.frame := by
  unfold recordRiskRejection
  obtain ⟨-, ha⟩ | ⟨-, error, ha⟩ := oms.appendOrError_cases
    (rejectedEvent { record with state := .rejected, rejection := some rejection })
  all_goals
    simp only [ha]
    exact ⟨_, rfl, rfl⟩

inductive PlaceStaged (oms : Oms) (request : OrderRequest) (after : Oms) (stage : PlaceStage)
    (entries : List Entry) : Prop
  /-- Replayed, refused for its venue, or thrown. -/
  | unchanged (hafter : after = oms) (hentries : entries = [])
      (hstage : (∃ result, stage = .answered result) ∨ stage = .threw)
  | riskRejected (venue : String) (rejection error : Error)
      (hnew : oms.lookup request.clientOrderId = none)
      (hentries : entries = [.riskRejected ((candidate request venue).reject rejection)])
      (hstage : stage = .riskRejected error) (hframe : after.frame = oms.frame)
  | unpersisted (venue : String) (result : Result PlaceOutcome)
      (hnew : oms.lookup request.clientOrderId = none) (hpersists : oms.persists = false)
      (hentries : entries = [.staged (candidate request venue) false])
      (hstage : stage = .answered result) (hframe : after.frame = oms.frame)
  | opened (venue connector : String) (hnew : oms.lookup request.clientOrderId = none)
      (hpersists : oms.persists)
      (hrisk : oms.riskCheck request.instrumentId none request.side request.price
        request.quantity = .passed)
      (hentries : entries = [.staged (candidate request venue) true])
      (hstage : stage = .opened connector (candidate request venue))
      (hconfig : after.config = oms.config)
      (hraced : after.racedReports =
        if request.clientOrderId ∈ oms.racedReports then oms.racedReports
        else oms.racedReports.set ⟨request.clientOrderId, []⟩)

theorem placeStage_cases (oms : Oms) (request : OrderRequest) (venue : String) :
    PlaceStaged oms request (oms.placeStage request venue).1 (oms.placeStage request venue).2
      (oms.placeEntries request venue) := by
  unfold placeStage placeEntries
  generalize (if venue = "" then oms.defaultVenue else venue) = venue
  cases hl : oms.lookup request.clientOrderId with
  | some existing =>
    rw [if_pos (KeyedList.mem_of_find? hl)]
    cases hr : existing.rejection <;> simp only [hr] <;>
      exact .unchanged rfl rfl (.inl ⟨_, rfl⟩)
  | none =>
    rw [if_neg (KeyedList.not_mem_iff.mpr hl)]
    cases hc : oms.connectorFor venue with
    | none =>
      simp only [hc]
      exact .unchanged rfl rfl (.inl ⟨_, rfl⟩)
    | some connector =>
      simp only [hc]
      cases hk : oms.riskCheck request.instrumentId none request.side request.price
          request.quantity with
      | threw => exact .unchanged rfl rfl (.inr rfl)
      | rejected rejection =>
        obtain ⟨error, hs, hf⟩ :=
          oms.recordRiskRejection_cases (candidate request venue) rejection
        exact .riskRejected venue rejection error hl rfl hs hf
      | passed =>
        by_cases hp : oms.persists
        · obtain ⟨hs, hcfg, hr⟩ := stagePending_of_persists hp (candidate request venue) connector
          exact .opened venue connector hl hp hk (by rw [hp]) hs hcfg hr
        · obtain ⟨result, hs, hf⟩ :=
            frame_stagePending_of_not_persists hp (candidate request venue) connector
          have hp := Bool.eq_false_of_not_eq_true hp
          exact .unpersisted venue result hl hp (by rw [hp]) hs hf

inductive AmendStaged (oms : Oms) (command : AmendCommand) (after : Oms) (stage : AmendStage) :
    Prop
  | unchanged (hafter : after = oms)
      (hstage : (∃ result, stage = .answered result) ∨ stage = .threw)
  | opened (connector : String) (record : OrderRecord)
      (hrecord : oms.lookup command.clientOrderId = some record)
      (hstate : record.state = .live ∨ record.state = .partiallyFilled)
      (hrisk : oms.riskCheck record.symbol (some record) record.side
        (command.newPrice.getD record.price) (command.newQuantity.getD record.quantity) = .passed)
      (hfree : command.clientOrderId ∉ oms.racedReports)
      (hstage : stage = .opened connector (amendWire record command) record)
      (hafter : after =
        { oms with racedReports := oms.racedReports.set ⟨command.clientOrderId, []⟩ })

theorem amendStage_cases (oms : Oms) (command : AmendCommand) :
    AmendStaged oms command (oms.amendStage command).1 (oms.amendStage command).2 := by
  unfold amendStage
  split
  · exact .unchanged rfl (.inl ⟨_, rfl⟩)
  · cases hl : oms.lookup command.clientOrderId with
    | none => exact .unchanged rfl (.inl ⟨_, rfl⟩)
    | some record =>
      by_cases hpend : record.state = .pending
      · simp only [hpend, if_true]
        exact .unchanged rfl (.inl ⟨_, rfl⟩)
      · by_cases hterm : isTerminal record.state
        · simp only [hpend, hterm, if_false, if_true]
          exact .unchanged rfl (.inl ⟨_, rfl⟩)
        · simp only [hpend, hterm, if_false, Bool.false_eq_true]
          have hstate : record.state = .live ∨ record.state = .partiallyFilled := by
            cases hs : record.state <;> simp_all [isTerminal]
          cases oms.connectorForRecord record with
          | none => exact .unchanged rfl (.inl ⟨_, rfl⟩)
          | some connector =>
            dsimp only
            cases hk : oms.riskCheck record.symbol (some record) record.side
                (command.newPrice.getD record.price)
                (command.newQuantity.getD record.quantity) with
            | threw => exact .unchanged rfl (.inr rfl)
            | rejected rejection => exact .unchanged rfl (.inl ⟨_, rfl⟩)
            | passed =>
              dsimp only
              split
              · exact .unchanged rfl (.inl ⟨_, rfl⟩)
              · rename_i hfree
                exact .opened connector record hl hstate hk hfree rfl rfl

/-- A cancel reaches the venue only for a working order. -/
theorem cancelStage_opened {oms : Oms} {id connector : String} {wire : CancelRequest}
    (h : oms.cancelStage id = .opened connector wire) :
    ∃ record, oms.lookup id = some record ∧
      (record.state = .live ∨ record.state = .partiallyFilled) := by
  unfold cancelStage at h
  cases hl : oms.lookup id with
  | none => simp [hl] at h
  | some record =>
    refine ⟨record, rfl, ?_⟩
    cases hs : record.state <;> simp_all [isTerminal]

/-! ### The buffers -/

@[simp] theorem config_onExecutionReport (oms : Oms) (report : ExecutionReport) :
    (oms.onExecutionReport report).config = oms.config := by
  unfold onExecutionReport
  split
  · rfl
  · split
    · rfl
    · exact congrArg Prod.fst (frame_applyArbitratedReport oms _ report)

theorem mem_racedReports_onExecutionReport (oms : Oms) (report : ExecutionReport) (id : String) :
    id ∈ (oms.onExecutionReport report).racedReports ↔ id ∈ oms.racedReports := by
  unfold onExecutionReport
  split
  · rename_i raced hr
    simp only [KeyedList.mem_set]
    refine ⟨?_, .inr⟩
    rintro (rfl | h)
    · exact KeyedList.mem_of_find? (KeyedList.key_of_find? hr ▸ hr)
    · exact h
  · split
    · rfl
    · rename_i record _
      rw [show (oms.applyArbitratedReport record report).1.racedReports = oms.racedReports from
        congrArg Prod.snd (frame_applyArbitratedReport oms record report)]

theorem racedReports_drainRacedReports (oms : Oms) (id : String) :
    (oms.drainRacedReports id).1.racedReports = oms.racedReports.erase id := by
  unfold drainRacedReports
  split
  · rename_i h
    exact (KeyedList.erase_of_not_mem (KeyedList.not_mem_iff.mpr h)).symm
  · rfl

theorem config_drainRacedReports (oms : Oms) (id : String) :
    (oms.drainRacedReports id).1.config = oms.config := by
  unfold drainRacedReports
  split <;> rfl

@[simp] theorem racedReports_start (config : Config) (log : Option EventLog) :
    (start config log).racedReports = .empty _ := by
  cases log <;> rfl

end Oms

/-- The actions the trace does not mention. -/
def Action.silent : Action → Bool
  | .place _ _ | .send _ | .report _ | .restart _ _ => false
  | _ => true

namespace System

/-! ### Inversion of the answering steps -/

variable {s t : System} {i : ℕ}

theorem send_cases (h : s.send i = some t) :
    ∃ request connector staged, s.calls[i]? = some (.place request connector staged false) ∧
      t = { s with
        calls := s.calls.set i (.place request connector staged true)
        trace.sent := s.trace.sent ++ [(s.trace.incarnation, request.clientOrderId)] } := by
  unfold send at h
  split at h
  · rename_i hc
    exact ⟨_, _, _, hc, (Option.some.inj h).symm⟩
  · cases h

theorem placed_cases {placement : Result OrderPlacement} (h : s.placed i placement = some t) :
    ∃ request connector staged, s.calls[i]? = some (.place request connector staged true) ∧
      t = { s with
        oms := (s.oms.placeOutcome request placement).1
        calls := s.calls.eraseIdx i } := by
  unfold placed at h
  split at h
  · rename_i hc
    exact ⟨_, _, _, hc, (Option.some.inj h).symm⟩
  · cases h

theorem canceled_cases {placement : Result OrderPlacement} (h : s.canceled i placement = some t) :
    ∃ id wire connector, s.calls[i]? = some (.cancel id wire connector) ∧
      t = { s with
        oms := (s.oms.cancelOutcome id placement).1
        calls := s.calls.eraseIdx i } := by
  unfold canceled at h
  split at h
  · rename_i hc
    exact ⟨_, _, _, hc, (Option.some.inj h).symm⟩
  · cases h

theorem amended_cases {placement : Result OrderPlacement} (h : s.amended i placement = some t) :
    ∃ command wire connector validated,
      s.calls[i]? = some (.amend command wire connector validated) ∧
      t = { s with
        oms := (s.oms.amendOutcome command wire placement).1
        calls := s.calls.eraseIdx i } := by
  unfold amended at h
  split at h
  · rename_i hc
    exact ⟨_, _, _, _, hc, (Option.some.inj h).symm⟩
  · cases h

theorem listed_cases {pending : Result (List OrderSnapshot)} (h : s.listed i pending = some t) :
    ∃ venue venues report report', s.calls[i]? = some (.listing (venue :: venues) report) ∧
      t.calls = s.calls.set i (.listing venues report') ∧ t.trace = s.trace ∧
      t.oms.frame = s.oms.frame ∧
      ((∃ error, pending = .error error ∧ t.oms = s.oms) ∨
        ∃ snapshots, pending = .ok snapshots ∧
          t.oms = (s.oms.reconcileListing venue snapshots report).1) := by
  unfold listed at h
  split at h
  · rename_i hc
    cases pending with
    | error error =>
      obtain rfl := Option.some.inj h
      exact ⟨_, _, _, _, hc, rfl, rfl, rfl, .inl ⟨error, rfl, rfl⟩⟩
    | ok pending =>
      obtain rfl := Option.some.inj h
      exact ⟨_, _, _, _, hc, rfl, rfl, Oms.frame_apart.reconcileListing s.oms _ pending _,
        .inr ⟨pending, rfl, rfl⟩⟩
  · cases h

theorem collect_cases (h : s.collect i = some t) :
    ∃ report, s.calls[i]? = some (.listing [] report) ∧
      t = { s with calls := s.calls.set i (.resolving s.oms.reconcileWorklist report) } := by
  unfold collect at h
  split at h
  · rename_i hc
    exact ⟨_, hc, (Option.some.inj h).symm⟩
  · cases h

theorem resolved_cases {answer : Result (Option OrderSnapshot)}
    (h : s.resolved i answer = some t) :
    ∃ item items report report', s.calls[i]? = some (.resolving (item :: items) report) ∧
      t.calls = s.calls.set i (.resolving items report') ∧ t.trace = s.trace ∧
      t.oms.frame = s.oms.frame ∧
      (s.oms.connectorFor item.venue = none ∧ t.oms = s.oms ∨
        (s.oms.connectorFor item.venue).isSome ∧
          t.oms = (s.oms.reconcileItem item answer report).1) := by
  unfold resolved at h
  split at h
  · rename_i hc
    split at h
    · rename_i hn
      obtain rfl := Option.some.inj h
      exact ⟨_, _, _, _, hc, rfl, rfl, rfl, .inl ⟨hn, rfl⟩⟩
    · rename_i hn
      obtain rfl := Option.some.inj h
      exact ⟨_, _, _, _, hc, rfl, rfl, Oms.frame_apart.reconcileItem s.oms _ answer _,
        .inr ⟨by simp [hn], rfl⟩⟩
  · cases h

theorem finish_cases (h : s.finish i = some t) :
    ∃ report, s.calls[i]? = some (.resolving [] report) ∧
      t = { s with calls := s.calls.eraseIdx i } := by
  unfold finish at h
  split at h
  · rename_i hc
    exact ⟨_, hc, (Option.some.inj h).symm⟩
  · cases h

theorem restart_cases {config : Config} {logOpen : Bool}
    (h : s.step (.restart config logOpen) = some t) : t = s.restart config logOpen := by
  simp only [step] at h
  split_ifs at h
  exact (Option.some.inj h).symm

theorem rehash_cases {orders : Registry} (h : s.rehash orders = some t) :
    orders.toList.Perm s.oms.orders.toList ∧ t = { s with oms.orders := orders } := by
  unfold rehash at h
  split at h
  · rename_i hp
    exact ⟨hp, (Option.some.inj h).symm⟩
  · cases h

/-- A step of an incarnation reorders the registry or writes its entries. -/
theorem ledger_step_cases {a : Action} (hs : s.step a = some t) (ha : a.live) :
    (∃ orders, a = .rehash orders ∧ orders.toList.Perm s.oms.orders.toList ∧
        t = { s with oms.orders := orders }) ∨
      t.oms.ledger = s.oms.ledger.enterAll (s.entries a) := by
  by_cases hre : ∃ orders, a = .rehash orders
  · obtain ⟨orders, rfl⟩ := hre
    obtain ⟨hp, rfl⟩ := rehash_cases hs
    exact .inl ⟨orders, rfl, hp, rfl⟩
  · right
    exact step_ledger hs ha fun orders ho => hre ⟨orders, ho⟩

/-! ### Inversion of the opening steps -/

theorem place_opened {request : OrderRequest} {venue connector : String} {record : OrderRecord}
    (h : (s.oms.placeStage request venue).2 = .opened connector record) :
    s.place request venue =
      { s with
        oms := (s.oms.placeStage request venue).1
        calls := s.calls ++ [.place request connector record false] } := by
  unfold place
  rcases hp : s.oms.placeStage request venue with ⟨oms, stage⟩
  obtain rfl : stage = .opened connector record := by rw [← h, hp]
  rfl

theorem place_riskRejected {request : OrderRequest} {venue : String} {error : Error}
    (h : (s.oms.placeStage request venue).2 = .riskRejected error) :
    s.place request venue =
      { s with
        oms := (s.oms.placeStage request venue).1
        trace.riskRejected := s.trace.riskRejected ++ [request.clientOrderId] } := by
  unfold place
  rcases hp : s.oms.placeStage request venue with ⟨oms, stage⟩
  obtain rfl : stage = .riskRejected error := by rw [← h, hp]
  rfl

theorem place_refused {request : OrderRequest} {venue : String}
    (h : (∃ result, (s.oms.placeStage request venue).2 = .answered result) ∨
      (s.oms.placeStage request venue).2 = .threw) :
    s.place request venue = { s with oms := (s.oms.placeStage request venue).1 } := by
  unfold place
  rcases hp : s.oms.placeStage request venue with ⟨oms, stage⟩
  rw [hp] at h
  obtain ⟨result, rfl⟩ | rfl := h <;> rfl

theorem amend_opened {command : AmendCommand} {connector : String} {wire : AmendRequest}
    {record : OrderRecord} (h : (s.oms.amendStage command).2 = .opened connector wire record) :
    s.amend command =
      { s with
        oms := (s.oms.amendStage command).1
        calls := s.calls ++ [.amend command wire connector record] } := by
  unfold amend
  rcases hp : s.oms.amendStage command with ⟨oms, stage⟩
  obtain rfl : stage = .opened connector wire record := by rw [← h, hp]
  rfl

theorem amend_refused {command : AmendCommand}
    (h : (∃ result, (s.oms.amendStage command).2 = .answered result) ∨
      (s.oms.amendStage command).2 = .threw) :
    s.amend command = { s with oms := (s.oms.amendStage command).1 } := by
  unfold amend
  rcases hp : s.oms.amendStage command with ⟨oms, stage⟩
  rw [hp] at h
  obtain ⟨result, rfl⟩ | rfl := h <;> rfl

theorem cancel_cases (s : System) (id : String) :
    s.cancel id = s ∨ ∃ wire connector record, s.oms.lookup id = some record ∧
      (record.state = .live ∨ record.state = .partiallyFilled) ∧
      s.cancel id = { s with calls := s.calls ++ [.cancel id wire connector] } := by
  unfold cancel
  split
  · rename_i connector wire h
    obtain ⟨record, hl, hstate⟩ := Oms.cancelStage_opened h
    exact .inr ⟨wire, connector, record, hl, hstate, rfl⟩
  · exact .inl rfl

/-! ### Inversion of the entries -/

/-- Which entries a step can make, with what the state before it knows about them. -/
inductive Enters (s : System) : Action → Entry → Prop
  | riskRejected {request : OrderRequest} {venue : String} (venue' : String) (rejection : Error)
      (hnew : s.oms.lookup request.clientOrderId = none) :
      Enters s (.place request venue)
        (.riskRejected ((Oms.candidate request venue').reject rejection))
  | staged {request : OrderRequest} {venue : String} (venue' : String)
      (hnew : s.oms.lookup request.clientOrderId = none) :
      Enters s (.place request venue) (.staged (Oms.candidate request venue') s.oms.persists)
  | accepted {i : ℕ} {request : OrderRequest} {connector : String} {staged : OrderRecord}
      {sent : Bool} (ack : OrderPlacement)
      (hc : s.calls[i]? = some (.place request connector staged sent)) :
      Enters s (.placed i (.ok ack)) (.accepted request.clientOrderId ack.exchangeOrderId)
  | rejected {i : ℕ} {request : OrderRequest} {connector : String} {staged : OrderRecord}
      {sent : Bool} (error : Error)
      (hc : s.calls[i]? = some (.place request connector staged sent)) :
      Enters s (.placed i (.error error)) (.rejected request.clientOrderId error)
  | racedPlace {i : ℕ} {request : OrderRequest} {connector : String} {staged : OrderRecord}
      {sent : Bool} (placement : Result OrderPlacement) (report : ExecutionReport)
      (hc : s.calls[i]? = some (.place request connector staged sent))
      (hm : report ∈ s.oms.buffered request.clientOrderId) :
      Enters s (.placed i placement) (.reported request.clientOrderId report)
  | canceled {i : ℕ} {id : String} {wire : CancelRequest} {connector : String}
      (ack : OrderPlacement) (hc : s.calls[i]? = some (.cancel id wire connector)) :
      Enters s (.canceled i (.ok ack)) (.canceled id ack.exchangeOrderId)
  | amended {i : ℕ} {command : AmendCommand} {wire : AmendRequest} {connector : String}
      {validated : OrderRecord} (ack : OrderPlacement)
      (hc : s.calls[i]? = some (.amend command wire connector validated)) :
      Enters s (.amended i (.ok ack)) (.amended command.clientOrderId (wire.newPrice.getD "")
        (wire.newQuantity.getD "") ack.exchangeOrderId)
  | discovered {i : ℕ} {command : AmendCommand} {wire : AmendRequest} {connector : String}
      {validated : OrderRecord} (error : Error) (id : String)
      (hc : s.calls[i]? = some (.amend command wire connector validated)) :
      Enters s (.amended i (.error error)) (.discovered command.clientOrderId id)
  | racedAmend {i : ℕ} {command : AmendCommand} {wire : AmendRequest} {connector : String}
      {validated : OrderRecord} (placement : Result OrderPlacement) (report : ExecutionReport)
      (hc : s.calls[i]? = some (.amend command wire connector validated))
      (hm : report ∈ s.oms.buffered command.clientOrderId) :
      Enters s (.amended i placement) (.reported command.clientOrderId report)
  | reported (report : ExecutionReport) (hfree : report.clientOrderId ∉ s.oms.racedReports) :
      Enters s (.report report) (.reported report.clientOrderId report)
  | listed {i : ℕ} {venue : String} {venues : List String} {report : ReconcileReport}
      {pending : List OrderSnapshot} (snapshot : OrderSnapshot)
      (hc : s.calls[i]? = some (.listing (venue :: venues) report)) (hm : snapshot ∈ pending)
      (hfree : snapshot.clientOrderId ∉ s.oms.racedReports) :
      Enters s (.listed i (.ok pending)) (.listed venue snapshot)
  | resolved {i : ℕ} {item : WorkItem} {items : List WorkItem} {report : ReconcileReport}
      (snapshot : OrderSnapshot) (hc : s.calls[i]? = some (.resolving (item :: items) report)) :
      Enters s (.resolved i (.ok (some snapshot))) (.resolved item.id snapshot)
  | absent {i : ℕ} {item : WorkItem} {items : List WorkItem} {report : ReconcileReport}
      (answer : Result (Option OrderSnapshot))
      (hc : s.calls[i]? = some (.resolving (item :: items) report)) :
      Enters s (.resolved i answer) (.absent item.id)

private theorem enters_of_mem_placedEntries {placement : Result OrderPlacement}
    {request : OrderRequest} {connector : String} {staged : OrderRecord} {sent : Bool}
    (hc : s.calls[i]? = some (.place request connector staged sent)) {entry : Entry}
    (h : entry ∈ s.oms.placedEntries request.clientOrderId placement) :
    s.Enters (.placed i placement) entry := by
  have hraced (hm : entry ∈ Oms.reportEntries request.clientOrderId
      (s.oms.buffered request.clientOrderId)) : s.Enters (.placed i placement) entry := by
    obtain ⟨report, hr, rfl⟩ := List.mem_map.mp hm
    exact .racedPlace placement report hc hr
  cases placement with
  | error error =>
    simp only [Oms.placedEntries] at h
    split at h
    · obtain rfl := List.mem_singleton.mp h
      exact .rejected error hc
    · exact hraced h
  | ok ack =>
    rcases List.mem_cons.mp h with rfl | h
    · exact .accepted ack hc
    · split at h
      · exact hraced h
      · cases h

private theorem enters_of_mem_amendedEntries {placement : Result OrderPlacement}
    {command : AmendCommand} {wire : AmendRequest} {connector : String} {validated : OrderRecord}
    (hc : s.calls[i]? = some (.amend command wire connector validated)) {entry : Entry}
    (h : entry ∈ s.oms.amendedEntries command.clientOrderId wire placement) :
    s.Enters (.amended i placement) entry := by
  have hraced (hm : entry ∈ Oms.reportEntries command.clientOrderId
      (s.oms.buffered command.clientOrderId)) : s.Enters (.amended i placement) entry := by
    obtain ⟨report, hr, rfl⟩ := List.mem_map.mp hm
    exact .racedAmend placement report hc hr
  cases placement with
  | error error =>
    rcases List.mem_append.mp h with h | h
    · unfold Oms.discoveredEntries at h
      split at h
      · cases h
      · split at h
        · obtain rfl := List.mem_singleton.mp h
          exact .discovered error _ hc
        · cases h
    · exact hraced h
  | ok ack =>
    rcases List.mem_cons.mp h with rfl | h
    · exact .amended ack hc
    · split at h
      · exact hraced h
      · cases h

theorem enters_of_mem {a : Action} {entry : Entry} (h : entry ∈ s.entries a) :
    s.Enters a entry := by
  cases a with
  | place request venue =>
    cases s.oms.placeStage_cases request venue with
    | unchanged _ hentries _ =>
      simp only [entries, hentries, List.not_mem_nil] at h
    | riskRejected venue' rejection _ hnew hentries _ _ =>
      simp only [entries, hentries, List.mem_singleton] at h
      exact h ▸ .riskRejected venue' rejection hnew
    | unpersisted venue' _ hnew hpersists hentries _ _ =>
      simp only [entries, hentries, List.mem_singleton] at h
      have hs : s.Enters (.place request venue) _ := .staged venue' hnew
      rw [hpersists] at hs
      exact h ▸ hs
    | opened venue' _ hnew hpersists _ hentries _ _ _ =>
      simp only [entries, hentries, List.mem_singleton] at h
      have hs : s.Enters (.place request venue) _ := .staged venue' hnew
      rw [hpersists] at hs
      exact h ▸ hs
  | placed i placement =>
    simp only [entries] at h
    split at h
    · rename_i hc
      exact enters_of_mem_placedEntries hc h
    · cases h
  | canceled i placement =>
    simp only [entries] at h
    split at h
    · rename_i hc
      cases placement with
      | error error => cases h
      | ok ack =>
        obtain rfl := List.mem_singleton.mp h
        exact .canceled ack hc
    · cases h
  | amended i placement =>
    simp only [entries] at h
    split at h
    · rename_i hc
      exact enters_of_mem_amendedEntries hc h
    · cases h
  | report report =>
    simp only [entries, Oms.sinkEntries] at h
    split at h
    · cases h
    · rename_i hfree
      obtain rfl := List.mem_singleton.mp h
      exact .reported report hfree
  | listed i pending =>
    cases pending with
    | error error => cases h
    | ok pending =>
      simp only [entries] at h
      split at h
      · rename_i hc
        obtain ⟨snapshot, hm, rfl⟩ := List.mem_map.mp h
        obtain ⟨hm, hskip⟩ := List.mem_filter.mp hm
        have hskip : ¬ (snapshot.clientOrderId = "" ∨
            snapshot.clientOrderId ∈ s.oms.racedReports) := by simpa using hskip
        exact .listed snapshot hc hm fun hr => hskip (.inr hr)
      · cases h
  | resolved i answer =>
    simp only [entries] at h
    split at h
    · rename_i hc
      split at h
      · rcases answer with error | _ | snapshot
        · simp only [Oms.resolvedEntries] at h
          split at h
          · obtain rfl := List.mem_singleton.mp h
            exact .absent _ hc
          · cases h
        · obtain rfl := List.mem_singleton.mp h
          exact .absent _ hc
        · obtain rfl := List.mem_singleton.mp h
          exact .resolved snapshot hc
      · cases h
    · cases h
  | _ => cases h

/-! ### Inversion of the open calls -/

/-- Which calls a step can bring, with what the state before it knows about them. -/
inductive Opens (s : System) : Action → Call → Prop
  | place {request : OrderRequest} {venue : String} (venue' connector : String)
      (hnew : s.oms.lookup request.clientOrderId = none) (hpersists : s.oms.persists)
      (hrisk : s.oms.riskCheck request.instrumentId none request.side request.price
        request.quantity = .passed)
      (hentries : s.entries (.place request venue) =
        [.staged (Oms.candidate request venue') true]) :
      Opens s (.place request venue)
        (.place request connector (Oms.candidate request venue') false)
  | sent {i : ℕ} {request : OrderRequest} {connector : String} {staged : OrderRecord}
      (hc : s.calls[i]? = some (.place request connector staged false)) :
      Opens s (.send i) (.place request connector staged true)
  | cancel {id : String} (wire : CancelRequest) (connector : String) (record : OrderRecord)
      (hrecord : s.oms.lookup id = some record)
      (hstate : record.state = .live ∨ record.state = .partiallyFilled) :
      Opens s (.cancel id) (.cancel id wire connector)
  | amend {command : AmendCommand} (connector : String) (record : OrderRecord)
      (hrecord : s.oms.lookup command.clientOrderId = some record)
      (hstate : record.state = .live ∨ record.state = .partiallyFilled)
      (hrisk : s.oms.riskCheck record.symbol (some record) record.side
        (command.newPrice.getD record.price) (command.newQuantity.getD record.quantity) = .passed)
      (hfree : command.clientOrderId ∉ s.oms.racedReports) :
      Opens s (.amend command)
        (.amend command (Oms.amendWire record command) connector record)
  | reconcile : Opens s .reconcile (.listing s.oms.connectors {})
  | listed {i : ℕ} {pending : Result (List OrderSnapshot)} {venue : String}
      {venues : List String} {report : ReconcileReport} (report' : ReconcileReport)
      (hc : s.calls[i]? = some (.listing (venue :: venues) report)) :
      Opens s (.listed i pending) (.listing venues report')
  | collect {i : ℕ} {report : ReconcileReport} (hc : s.calls[i]? = some (.listing [] report)) :
      Opens s (.collect i) (.resolving s.oms.reconcileWorklist report)
  | resolved {i : ℕ} {answer : Result (Option OrderSnapshot)} {item : WorkItem}
      {items : List WorkItem} {report : ReconcileReport} (report' : ReconcileReport)
      (hc : s.calls[i]? = some (.resolving (item :: items) report)) :
      Opens s (.resolved i answer) (.resolving items report')

theorem mem_calls_step {a : Action} (hs : s.step a = some t) {call : Call}
    (h : call ∈ t.calls) : call ∈ s.calls ∨ s.Opens a call := by
  cases a with
  | place request venue =>
    obtain rfl := Option.some.inj hs
    cases s.oms.placeStage_cases request venue with
    | unchanged _ _ hstage =>
      rw [place_refused hstage] at h
      exact .inl h
    | riskRejected _ _ _ _ _ hstage _ =>
      rw [place_riskRejected hstage] at h
      exact .inl h
    | unpersisted _ _ _ _ _ hstage _ =>
      rw [place_refused (.inl ⟨_, hstage⟩)] at h
      exact .inl h
    | opened venue' connector hnew hpersists hrisk hentries hstage _ _ =>
      rw [place_opened hstage] at h
      rcases List.mem_append.mp h with h | h
      · exact .inl h
      · obtain rfl := List.mem_singleton.mp h
        exact .inr (.place venue' connector hnew hpersists hrisk hentries)
  | send i =>
    obtain ⟨request, connector, staged, hc, rfl⟩ := send_cases hs
    rcases List.mem_or_eq_of_mem_set h with h | rfl
    · exact .inl h
    · exact .inr (.sent hc)
  | placed i placement =>
    obtain ⟨request, connector, staged, hc, rfl⟩ := placed_cases hs
    exact .inl (List.mem_of_mem_eraseIdx h)
  | cancel id =>
    obtain rfl := Option.some.inj hs
    obtain he | ⟨wire, connector, record, hrecord, hstate, he⟩ := s.cancel_cases id
    · rw [he] at h
      exact .inl h
    · rw [he] at h
      rcases List.mem_append.mp h with h | h
      · exact .inl h
      · obtain rfl := List.mem_singleton.mp h
        exact .inr (.cancel wire connector record hrecord hstate)
  | canceled i placement =>
    obtain ⟨id, wire, connector, hc, rfl⟩ := canceled_cases hs
    exact .inl (List.mem_of_mem_eraseIdx h)
  | amend command =>
    obtain rfl := Option.some.inj hs
    cases s.oms.amendStage_cases command with
    | unchanged _ hstage =>
      rw [amend_refused hstage] at h
      exact .inl h
    | opened connector record hrecord hstate hrisk hfree hstage _ =>
      rw [amend_opened hstage] at h
      rcases List.mem_append.mp h with h | h
      · exact .inl h
      · obtain rfl := List.mem_singleton.mp h
        exact .inr (.amend connector record hrecord hstate hrisk hfree)
  | amended i placement =>
    obtain ⟨command, wire, connector, validated, hc, rfl⟩ := amended_cases hs
    exact .inl (List.mem_of_mem_eraseIdx h)
  | report report =>
    obtain rfl := Option.some.inj hs
    exact .inl h
  | reconcile =>
    obtain rfl := Option.some.inj hs
    rcases List.mem_append.mp h with h | h
    · exact .inl h
    · obtain rfl := List.mem_singleton.mp h
      exact .inr .reconcile
  | listed i pending =>
    obtain ⟨venue, venues, report, report', hc, hcalls, -, -, -⟩ := listed_cases hs
    rw [hcalls] at h
    rcases List.mem_or_eq_of_mem_set h with h | rfl
    · exact .inl h
    · exact .inr (.listed report' hc)
  | collect i =>
    obtain ⟨report, hc, rfl⟩ := collect_cases hs
    rcases List.mem_or_eq_of_mem_set h with h | rfl
    · exact .inl h
    · exact .inr (.collect hc)
  | resolved i answer =>
    obtain ⟨item, items, report, report', hc, hcalls, -, -, -⟩ := resolved_cases hs
    rw [hcalls] at h
    rcases List.mem_or_eq_of_mem_set h with h | rfl
    · exact .inl h
    · exact .inr (.resolved report' hc)
  | finish i =>
    obtain ⟨report, hc, rfl⟩ := finish_cases hs
    exact .inl (List.mem_of_mem_eraseIdx h)
  | rehash orders =>
    obtain ⟨-, rfl⟩ := rehash_cases hs
    exact .inl h
  | restart config logOpen =>
    obtain rfl := restart_cases hs
    cases h

theorem trace_step {a : Action} (hs : s.step a = some t) (ha : a.silent) :
    t.trace = s.trace := by
  cases a with
  | place _ _ | send _ | report _ | restart _ _ => cases ha
  | placed i placement =>
    obtain ⟨_, _, _, -, rfl⟩ := placed_cases hs
    rfl
  | cancel id =>
    obtain rfl := Option.some.inj hs
    obtain he | ⟨_, _, _, -, -, he⟩ := s.cancel_cases id <;> rw [he]
  | canceled i placement =>
    obtain ⟨_, _, _, -, rfl⟩ := canceled_cases hs
    rfl
  | amend command =>
    obtain rfl := Option.some.inj hs
    cases s.oms.amendStage_cases command with
    | unchanged _ hstage => rw [amend_refused hstage]
    | opened _ _ _ _ _ _ hstage _ => rw [amend_opened hstage]
  | amended i placement =>
    obtain ⟨_, _, _, _, -, rfl⟩ := amended_cases hs
    rfl
  | reconcile =>
    obtain rfl := Option.some.inj hs
    rfl
  | listed i pending =>
    obtain ⟨_, _, _, _, -, -, htrace, -, -⟩ := listed_cases hs
    exact htrace
  | collect i =>
    obtain ⟨_, -, rfl⟩ := collect_cases hs
    rfl
  | resolved i answer =>
    obtain ⟨_, _, _, _, -, -, htrace, -, -⟩ := resolved_cases hs
    exact htrace
  | finish i =>
    obtain ⟨_, -, rfl⟩ := finish_cases hs
    rfl
  | rehash orders =>
    obtain ⟨-, rfl⟩ := rehash_cases hs
    rfl

/-- A place adds to the risk rejections at most. -/
theorem trace_place (s : System) (request : OrderRequest) (venue : String) :
    (s.place request venue).trace = s.trace ∨
      (∃ error, (s.oms.placeStage request venue).2 = .riskRejected error) ∧
        (s.place request venue).trace =
          { s.trace with
            riskRejected := s.trace.riskRejected ++ [request.clientOrderId] } := by
  cases s.oms.placeStage_cases request venue with
  | unchanged _ _ hstage => exact .inl (by rw [place_refused hstage])
  | riskRejected _ _ _ _ _ hstage _ =>
    exact .inr ⟨⟨_, hstage⟩, by rw [place_riskRejected hstage]⟩
  | unpersisted _ _ _ _ _ hstage _ => exact .inl (by rw [place_refused (.inl ⟨_, hstage⟩)])
  | opened _ _ _ _ _ _ hstage _ _ => exact .inl (by rw [place_opened hstage])

/-- The registry only grows within an incarnation. -/
theorem mem_orders_step {a : Action} (h : s.step a = some t) (ha : a.live) {id : String}
    (hid : id ∈ s.oms.orders) : id ∈ t.oms.orders := by
  rcases ledger_step_cases h ha with ⟨orders, rfl, hp, rfl⟩ | hledger
  · obtain ⟨record, hf⟩ := KeyedList.mem_iff.mp hid
    exact KeyedList.mem_iff.mpr ⟨record, (KeyedList.find?_of_perm hp id).trans hf⟩
  · have hm : id ∈ t.oms.ledger.orders := hledger ▸ Ledger.mem_enterAll (s.entries a) hid
    exact hm

/-- The configuration is fixed within an incarnation. -/
theorem config_step {a : Action} (hs : s.step a = some t) (ha : a.live) :
    t.oms.config = s.oms.config := by
  cases a with
  | place request venue =>
    obtain rfl := Option.some.inj hs
    rw [place_oms]
    cases s.oms.placeStage_cases request venue with
    | unchanged hafter _ _ => rw [hafter]
    | riskRejected _ _ _ _ _ _ hframe => exact congrArg Prod.fst hframe
    | unpersisted _ _ _ _ _ _ hframe => exact congrArg Prod.fst hframe
    | opened _ _ _ _ _ _ _ hconfig _ => exact hconfig
  | send i =>
    obtain ⟨_, _, _, -, rfl⟩ := send_cases hs
    rfl
  | placed i placement =>
    obtain ⟨request, _, _, -, rfl⟩ := placed_cases hs
    refine (congrArg Prod.fst (s.oms.frame_placeOutcome request placement)).trans ?_
    exact s.oms.config_drainRacedReports request.clientOrderId
  | cancel id =>
    obtain rfl := Option.some.inj hs
    rw [cancel_oms]
  | canceled i placement =>
    obtain ⟨id, _, _, -, rfl⟩ := canceled_cases hs
    exact congrArg Prod.fst (Oms.frame_apart.cancelOutcome s.oms id placement)
  | amend command =>
    obtain rfl := Option.some.inj hs
    rw [amend_oms]
    cases s.oms.amendStage_cases command with
    | unchanged hafter _ => rw [hafter]
    | opened _ _ _ _ _ _ _ hafter =>
      rw [hafter]
      rfl
  | amended i placement =>
    obtain ⟨command, wire, _, _, -, rfl⟩ := amended_cases hs
    refine (congrArg Prod.fst (s.oms.frame_amendOutcome command wire placement)).trans ?_
    exact s.oms.config_drainRacedReports command.clientOrderId
  | report report =>
    obtain rfl := Option.some.inj hs
    exact s.oms.config_onExecutionReport report
  | reconcile =>
    obtain rfl := Option.some.inj hs
    rfl
  | listed i pending =>
    obtain ⟨_, _, _, _, -, -, -, hframe, -⟩ := listed_cases hs
    exact congrArg Prod.fst hframe
  | collect i =>
    obtain ⟨_, -, rfl⟩ := collect_cases hs
    rfl
  | resolved i answer =>
    obtain ⟨_, _, _, _, -, -, -, hframe, -⟩ := resolved_cases hs
    exact congrArg Prod.fst hframe
  | finish i =>
    obtain ⟨_, -, rfl⟩ := finish_cases hs
    rfl
  | rehash orders =>
    obtain ⟨-, rfl⟩ := rehash_cases hs
    rfl
  | restart config logOpen => cases ha

theorem every_step {P : OrderRecord → Prop} {check : Entry → Option OrderRecord → Bool}
    {a : Action} (h : s.oms.ledger.Every P) (hs : s.step a = some t) (ha : a.live)
    (hcheck : s.oms.ledger.allEntries check (s.entries a))
    (hw : ∀ entry, s.Enters a entry → ∀ old new, (∀ record, old = some record → P record) →
      check entry old → (entry.write old).1 = some new → P new) : t.oms.ledger.Every P := by
  rcases ledger_step_cases hs ha with ⟨orders, rfl, hp, rfl⟩ | hledger
  · intro id record hr
    exact h id record ((KeyedList.find?_of_perm hp id).symm.trans hr)
  · rw [hledger]
    exact h.enterAll hcheck fun entry hm => hw entry (s.enters_of_mem hm)

theorem start_every {P : OrderRecord → Prop} {config : Config}
    (hP : ReplayInvariant P config.defaultVenue) (log : Option EventLog) :
    (Oms.start config log).ledger.Every P := by
  have hempty : ∀ id record,
      (KeyedList.empty OrderRecord.clientOrderId).find? id = some record → P record :=
    fun _ _ hr => by cases hr
  cases log with
  | none => exact hempty
  | some log => exact hP.every_replay hempty log.events

theorem every_run {P : OrderRecord → Prop} (hreplay : ∀ venue, ReplayInvariant P venue)
    (hw : ∀ (s : System) a entry, s.Enters a entry → ∀ old new,
      (∀ record, old = some record → P record) → (entry.write old).1 = some new → P new)
    {config : Config} {log : Option EventLog} (h : Run (boot config log) s) :
    s.oms.ledger.Every P := by
  refine Transition.Reaches.invariant (I := fun s => s.oms.ledger.Every P) ?_ h
    (start_every (hreplay _) log)
  intro s a t hI _ hs
  by_cases ha : a.live
  · exact every_step hI hs ha (Ledger.allEntries_true _ _)
      fun entry he old new hold _ => hw s a entry he old new hold
  · cases a <;> try exact absurd rfl ha
    obtain rfl := restart_cases hs
    exact start_every (hreplay _) _

/-! ### The ownership invariant -/

/-- The raced-report buffers are those of the open places and amends, at most one call per
client order, and that order is registered. -/
structure Owned (s : System) : Prop where
  nodup : s.owners.Nodup
  raced : ∀ id, id ∈ s.oms.racedReports ↔ id ∈ s.owners
  registered : ∀ id ∈ s.owners, id ∈ s.oms.orders

private theorem filterMap_set {α β : Type} {f : α → Option β} {l : List α} {a b : α} {i : ℕ}
    (h : l[i]? = some a) (hf : f b = f a) : (l.set i b).filterMap f = l.filterMap f := by
  induction l generalizing i with
  | nil => rfl
  | cons c l ih =>
    cases i with
    | zero =>
      obtain rfl : c = a := by simpa using h
      simp only [List.set_cons_zero, List.filterMap_cons, hf]
    | succ i => simp only [List.set_cons_succ, List.filterMap_cons, ih (by simpa using h)]

private theorem perm_cons_eraseIdx {α : Type} {l : List α} {a : α} {i : ℕ}
    (h : l[i]? = some a) : l.Perm (a :: l.eraseIdx i) := by
  obtain ⟨hi, rfl⟩ := List.getElem?_eq_some_iff.mp h
  exact (List.getElem_cons_eraseIdx_perm hi).symm

theorem owners_append (s : System) (call : Call) :
    (s.calls ++ [call]).filterMap Call.owner = s.owners ++ call.owner.toList := by
  cases h : call.owner <;> simp [owners, h]

theorem owners_set {call call' : Call} (h : s.calls[i]? = some call)
    (ho : call'.owner = call.owner) :
    (s.calls.set i call').filterMap Call.owner = s.owners := filterMap_set h ho

theorem owners_eraseIdx {call : Call} {id : String} (h : s.calls[i]? = some call)
    (ho : call.owner = some id) :
    s.owners.Perm (id :: (s.calls.eraseIdx i).filterMap Call.owner) := by
  have hp := (perm_cons_eraseIdx h).filterMap Call.owner
  rwa [List.filterMap_cons_some ho] at hp

theorem owners_eraseIdx_of_none {call : Call} (h : s.calls[i]? = some call)
    (ho : call.owner = none) :
    s.owners.Perm ((s.calls.eraseIdx i).filterMap Call.owner) := by
  have hp := (perm_cons_eraseIdx h).filterMap Call.owner
  rwa [List.filterMap_cons_none ho] at hp

/-- The owners and the buffers may change as long as they keep in step. -/
private theorem Owned.of_eq (h : s.Owned) (howners : t.owners.Perm s.owners)
    (hraced : ∀ id, id ∈ t.oms.racedReports ↔ id ∈ s.oms.racedReports)
    (horders : ∀ id, id ∈ s.oms.orders → id ∈ t.oms.orders) : t.Owned where
  nodup := howners.nodup_iff.mpr h.nodup
  raced id := (hraced id).trans ((h.raced id).trans howners.mem_iff.symm)
  registered id hid := horders id (h.registered id (howners.mem_iff.mp hid))

private theorem Owned.of_open (h : s.Owned) {id : String} (hnew : id ∉ s.owners)
    (howners : t.owners = s.owners ++ [id])
    (hraced : ∀ id', id' ∈ t.oms.racedReports ↔ id = id' ∨ id' ∈ s.oms.racedReports)
    (hid : id ∈ t.oms.orders) (horders : ∀ id, id ∈ s.oms.orders → id ∈ t.oms.orders) :
    t.Owned where
  nodup := by
    rw [howners]
    refine List.nodup_append.mpr ⟨h.nodup, by simp, fun a hm b hb => ?_⟩
    rw [List.mem_singleton.mp hb]
    exact fun e => hnew (e ▸ hm)
  raced id' := by
    rw [hraced, h.raced, howners, List.mem_append, List.mem_singleton, or_comm]
    exact or_congr_right eq_comm
  registered id' hm := by
    rw [howners, List.mem_append, List.mem_singleton] at hm
    rcases hm with hm | rfl
    · exact horders id' (h.registered id' hm)
    · exact hid

private theorem Owned.of_close (h : s.Owned) {id : String}
    (howners : s.owners.Perm (id :: t.owners))
    (hraced : t.oms.racedReports = s.oms.racedReports.erase id)
    (horders : ∀ id, id ∈ s.oms.orders → id ∈ t.oms.orders) : t.Owned where
  nodup := (List.nodup_cons.mp (howners.nodup_iff.mp h.nodup)).2
  raced id' := by
    have hnot : id ∉ t.owners := (List.nodup_cons.mp (howners.nodup_iff.mp h.nodup)).1
    rw [hraced, KeyedList.mem_erase, h.raced, howners.mem_iff, List.mem_cons]
    refine ⟨fun ⟨hne, hm⟩ => hm.resolve_left hne, fun hm => ⟨?_, .inr hm⟩⟩
    rintro rfl
    exact hnot hm
  registered id' hm :=
    horders id' (h.registered id' (howners.mem_iff.mpr (List.mem_cons_of_mem id hm)))

theorem boot_owned (config : Config) (log : Option EventLog) : (boot config log).Owned where
  nodup := List.nodup_nil
  raced id := by simp [owners, boot]
  registered id hid := by cases hid

theorem Owned.step (h : s.Owned) {a : Action} (hs : s.step a = some t) : t.Owned := by
  by_cases ha : a.live
  swap
  · cases a <;> try exact absurd rfl ha
    obtain rfl := restart_cases hs
    exact ⟨List.nodup_nil, fun id => by simp [owners, restart], fun id hid => by cases hid⟩
  have horders := fun id (hid : id ∈ s.oms.orders) => mem_orders_step hs ha hid
  cases a with
  | place request venue =>
    obtain rfl := Option.some.inj hs
    cases s.oms.placeStage_cases request venue with
    | unchanged hafter _ hstage =>
      rw [place_refused hstage, hafter]
      exact h
    | riskRejected _ _ _ _ _ hstage hframe =>
      have hraced := congrArg Prod.snd hframe
      refine h.of_eq (by rw [place_riskRejected hstage]; exact .refl _) (fun id => ?_) horders
      rw [place_oms, show (s.oms.placeStage request venue).1.racedReports = _ from hraced]
      rfl
    | unpersisted _ _ _ _ _ hstage hframe =>
      have hraced := congrArg Prod.snd hframe
      refine h.of_eq (by rw [place_refused (.inl ⟨_, hstage⟩)]; exact .refl _) (fun id => ?_)
        horders
      rw [place_oms, show (s.oms.placeStage request venue).1.racedReports = _ from hraced]
      rfl
    | opened venue _ hnew _ _ hentries hstage _ hraced =>
      have hfree : request.clientOrderId ∉ s.owners := fun hm =>
        KeyedList.not_mem_iff.mpr hnew (h.registered _ hm)
      refine h.of_open hfree ?_ (fun id' => ?_) ?_ horders
      · rw [place_opened hstage]
        exact s.owners_append _
      · rw [place_oms, hraced, if_neg (fun hm => hfree ((h.raced _).mp hm)), KeyedList.mem_set]
      · have hl := step_ledger hs ha (fun _ he => by cases he)
        simp only [entries, hentries] at hl
        have hfind := s.oms.ledger.find?_enter_of_write
          (.staged (Oms.candidate request venue) true) rfl rfl
        exact KeyedList.mem_of_find? ((Oms.lookup_of_ledger hl _).trans hfind)
  | send i =>
    obtain ⟨request, connector, staged, hc, rfl⟩ := send_cases hs
    exact h.of_eq (.of_eq (owners_set hc rfl)) (fun id => Iff.rfl) horders
  | placed i placement =>
    obtain ⟨request, connector, staged, hc, rfl⟩ := placed_cases hs
    have hframe := congrArg Prod.snd (s.oms.frame_placeOutcome request placement)
    refine h.of_close (owners_eraseIdx hc rfl) ?_ horders
    exact hframe.trans (s.oms.racedReports_drainRacedReports request.clientOrderId)
  | cancel id =>
    obtain rfl := Option.some.inj hs
    obtain he | ⟨wire, connector, record, -, -, he⟩ := s.cancel_cases id
    · rw [he]
      exact h
    · refine h.of_eq ?_ (fun id => ?_) horders
      · rw [he]
        exact .of_eq ((s.owners_append _).trans (List.append_nil _))
      · rw [he]
  | canceled i placement =>
    obtain ⟨id, wire, connector, hc, rfl⟩ := canceled_cases hs
    have hframe := congrArg Prod.snd (Oms.frame_apart.cancelOutcome s.oms id placement)
    refine h.of_eq (owners_eraseIdx_of_none hc rfl).symm (fun id' => ?_) horders
    rw [show (s.oms.cancelOutcome id placement).1.racedReports = _ from hframe]
    rfl
  | amend command =>
    obtain rfl := Option.some.inj hs
    cases s.oms.amendStage_cases command with
    | unchanged hafter hstage =>
      rw [amend_refused hstage, hafter]
      exact h
    | opened connector record hrecord _ _ hfree hstage hafter =>
      refine h.of_open (fun hm => hfree ((h.raced _).mpr hm)) ?_ (fun id' => ?_) ?_ horders
      · rw [amend_opened hstage]
        exact s.owners_append _
      · rw [amend_oms, hafter, KeyedList.mem_set]
      · exact horders _ (KeyedList.mem_of_find? hrecord)
  | amended i placement =>
    obtain ⟨command, wire, connector, validated, hc, rfl⟩ := amended_cases hs
    have hframe := congrArg Prod.snd (s.oms.frame_amendOutcome command wire placement)
    refine h.of_close (owners_eraseIdx hc rfl) ?_ horders
    exact hframe.trans (s.oms.racedReports_drainRacedReports command.clientOrderId)
  | report report =>
    obtain rfl := Option.some.inj hs
    exact h.of_eq (.refl _) (s.oms.mem_racedReports_onExecutionReport report) horders
  | reconcile =>
    obtain rfl := Option.some.inj hs
    exact h.of_eq (.of_eq ((s.owners_append _).trans (List.append_nil _))) (fun id => Iff.rfl)
      horders
  | listed i pending =>
    obtain ⟨venue, venues, report, report', hc, hcalls, -, hframe, -⟩ := listed_cases hs
    refine h.of_eq ?_ (fun id => ?_) horders
    · rw [owners, hcalls]
      exact .of_eq (owners_set hc rfl)
    · rw [show t.oms.racedReports = s.oms.racedReports from congrArg Prod.snd hframe]
  | collect i =>
    obtain ⟨report, hc, rfl⟩ := collect_cases hs
    exact h.of_eq (.of_eq (owners_set hc rfl)) (fun id => Iff.rfl) horders
  | resolved i answer =>
    obtain ⟨item, items, report, report', hc, hcalls, -, hframe, -⟩ := resolved_cases hs
    refine h.of_eq ?_ (fun id => ?_) horders
    · rw [owners, hcalls]
      exact .of_eq (owners_set hc rfl)
    · rw [show t.oms.racedReports = s.oms.racedReports from congrArg Prod.snd hframe]
  | finish i =>
    obtain ⟨report, hc, rfl⟩ := finish_cases hs
    exact h.of_eq (owners_eraseIdx_of_none hc rfl).symm (fun id => Iff.rfl) horders
  | rehash orders =>
    obtain ⟨hp, rfl⟩ := rehash_cases hs
    exact h.of_eq (.refl _) (fun id => Iff.rfl) horders
  | restart config logOpen => cases ha

/-- Two open calls never own the same client order. -/
theorem Owned.owner_ne {call call' : Call} (h : s.Owned) {id : String}
    (hc : s.calls[i]? = some call) (ho : call.owner = some id)
    (hm : call' ∈ s.calls.eraseIdx i) : call'.owner ≠ some id := by
  have hnot := (List.nodup_cons.mp ((owners_eraseIdx hc ho).nodup_iff.mp h.nodup)).1
  exact fun ho' => hnot (List.mem_filterMap.mpr ⟨call', hm, ho'⟩)

/-- While an order has an open call, a step brings it no second one: the place it can issue is the
open one itself. -/
theorem Owned.no_second_call (h : s.Owned) {a : Action} (hs : s.step a = some t) {call : Call}
    (hm : call ∈ t.calls) {id : String} (ho : call.owner = some id) (hid : id ∈ s.owners) :
    call ∈ s.calls ∨ ∃ request connector staged,
      call = .place request connector staged true ∧
        .place request connector staged false ∈ s.calls := by
  rcases mem_calls_step hs hm with hold | hopens
  · exact .inl hold
  · cases hopens with
    | place venue' connector hnew _ _ _ =>
      obtain rfl := Option.some.inj ho
      exact absurd (h.registered _ hid) (KeyedList.not_mem_iff.mpr hnew)
    | sent hc => exact .inr ⟨_, _, _, rfl, List.mem_of_getElem? hc⟩
    | amend connector record _ _ _ hfree =>
      obtain rfl := Option.some.inj ho
      exact absurd ((h.raced _).mpr hid) hfree
    | cancel | reconcile | listed | collect | resolved => cases ho

theorem owned_run (config : Config) (log : Option EventLog) (h : Run (boot config log) s) :
    s.Owned :=
  Transition.Reaches.invariant (I := Owned) (fun _ _ _ hI _ hs => hI.step hs) h
    (boot_owned config log)

/-- In every run: the keys of the buffers are the orders with an open place or amend, each has one
such call and is registered, no step issues another place or amend for it, and without open calls
there is no buffer. -/
theorem one_call_per_order (config : Config) (log : Option EventLog)
    (h : Run (boot config log) s) :
    (∀ id, id ∈ s.oms.racedReports ↔ ∃ call ∈ s.calls, call.owner = some id) ∧
    (∀ id, (s.calls.filter (·.owner = some id)).length ≤ 1) ∧
    (∀ id ∈ s.oms.racedReports, id ∈ s.oms.orders) ∧
    (∀ a t, s.step a = some t → ∀ call ∈ t.calls, ∀ id ∈ s.oms.racedReports,
      call.owner = some id → call ∈ s.calls ∨ ∃ request connector staged,
        call = .place request connector staged true ∧
          .place request connector staged false ∈ s.calls) ∧
    ((∀ call ∈ s.calls, call.owner = none) → s.oms.racedReports.toList = []) := by
  have howned := owned_run config log h
  have hkeys (id : String) :
      id ∈ s.oms.racedReports ↔ ∃ call ∈ s.calls, call.owner = some id :=
    (howned.raced id).trans List.mem_filterMap
  refine ⟨hkeys, fun id => ?_, fun id hm => howned.registered id ((howned.raced id).mp hm),
    fun a t hs call hm id hid ho => howned.no_second_call hs hm ho ((howned.raced id).mp hid),
    fun hnone => ?_⟩
  · have hcount : (s.calls.filter (·.owner = some id)).length = s.owners.count id := by
      unfold owners
      rw [List.count_filterMap, List.countP_eq_length_filter]
      congr 2
      funext call
      exact (beq_eq_decide _ _).symm
    rw [hcount]
    exact List.nodup_iff_count_le_one.mp howned.nodup id
  · rw [List.eq_nil_iff_forall_not_mem]
    intro raced hm
    have hfind := KeyedList.find?_of_mem_toList hm
    obtain ⟨call, hc, ho⟩ := (hkeys _).mp (KeyedList.mem_of_find? hfind)
    rw [hnone call hc] at ho
    cases ho

/-- An amend is open, a second one is refused. -/
theorem one_call_per_order_busy : ∃ s, Run (boot .sample (some .fresh)) s ∧
    (s.oms.amendStage ⟨"c1", some "102", none⟩).2 = .answered (.error ⟨"order_busy",
      "a place/amend for c1 is still in flight; retry once it resolves"⟩) ∧
    (s.calls.filter (·.owner = some "c1")).length = 1 ∧
    ("c1" ∈ s.oms.racedReports ↔ ∃ call ∈ s.calls, call.owner = some "c1") := by
  have hrun : (Transition.exec step (fun _ _ => True) (boot .sample (some .fresh))
    [.place .sample "", .send 0, .placed 0 (.ok ⟨"c1", "1"⟩),
      .amend ⟨"c1", some "101", none⟩]).isSome := by decide
  have hreach := Transition.reaches_get_exec hrun
  exact ⟨_, hreach, rfl, rfl, (one_call_per_order .sample (some .fresh) hreach).1 "c1"⟩

end System

end ExchangeGateway
