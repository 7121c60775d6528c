import ExchangeGateway.Core.Absence
import ExchangeGateway.Core.Recall
import ExchangeGateway.Exchange.Lookup

/-! Orders that a venue accepted. A reconciliation rejects an order that its venue does not have.
Here the gateway runs beside venues that accept orders at any time while the place is open, and
its lookups go through the connectors to responses of these venues. -/
namespace ExchangeGateway

open PercentCoding Httplib

namespace Connector

variable {ρ W : Type} (library : Json.Library)

/-- The venue denies none of these orders, whoever asks: on OKX the request that is sent names the
order in its query, read as form data, on Binance in its parameters. -/
def Vouches (orders : List OrderRequest) : Connector W → Prop
  | .okx http => ∀ request ∈ orders, ∀ path w response,
      decodeFormQuery (queryPart (encodeRequestTarget path)) =
        [(ascii "instId", Okx.bytes request.instrumentId),
          (ascii "clOrdId", Okx.bytes request.clientOrderId)] →
      (http.get path w).1 = some response → ¬ Okx.Denies library response
  | .binance session _ _ => ∀ request ∈ orders, ∀ params w,
      Binance.Asks params ⟨request.clientOrderId, Binance.toWire request.instrumentId⟩ →
      ¬ Binance.Denies library (session.send "order.status" params w).1

variable {library}

/-- A lookup of such an order does not find it absent, whatever is lost on the way. -/
theorem Vouches.not_absent {connector : Connector W} {orders : List OrderRequest}
    (h : connector.Vouches library orders) {request : OrderRequest} (hm : request ∈ orders)
    {policy : RetryPolicy ρ} {clock : RetryClock ρ W} {w : W × Binance.SymbolTranslator}
    {answer : Result (Option OrderSnapshot)}
    (hanswer : connector.getOrder library policy clock
      ⟨request.clientOrderId, request.instrumentId⟩ w = some answer) :
    ¬ Oms.conclusivelyAbsent answer := by
  intro habsent
  cases connector with
  | okx http =>
    obtain rfl := Option.some.inj hanswer
    obtain ⟨v, response, hget, hdenies⟩ := Okx.denies_of_getOrder habsent
    exact h request hm _ v response (Okx.decodeFormQuery_orderInfo _) hget hdenies
  | binance session hmac config =>
    obtain ⟨params, v, hasks, hdenies⟩ := Binance.denies_of_getOrder hanswer habsent
    exact h request hm params v hasks hdenies

end Connector

/-! ### The gateway beside its venues -/

/-- A venue decides on an order only while its place waits for the answer. -/
structure World where
  system : System
  /-- The orders that a venue accepted, each with the connector it came through. -/
  accepted : List (String × OrderRequest)
  /-- The lookups that came back. -/
  answered : List (WorkItem × Result (Option OrderSnapshot))

namespace World

inductive Event
  | gateway (action : Action)
  /-- The venue accepts the order of an open place. -/
  | accept (i : ℕ)
  /-- The next lookup of a reconciliation comes back. -/
  | answer (i : ℕ) (answer : Result (Option OrderSnapshot))

/-- A restart leaves the lookups in flight behind. -/
def step (s : World) : Event → Option World
  | .gateway action =>
    (s.system.step action).map fun t =>
      { s with system := t, answered := if action.live then s.answered else [] }
  | .accept i =>
    match s.system.calls[i]? with
    | some (.place request connector _ true) =>
      some { s with accepted := s.accepted ++ [(connector, request)] }
    | _ => none
  | .answer i answer =>
    match s.system.calls[i]? with
    | some (.resolving (item :: _) _) =>
      some { s with answered := s.answered ++ [(item, answer)] }
    | _ => none

def acceptedBy (s : World) (name : String) : List OrderRequest :=
  (s.accepted.filter (·.1 = name)).map Prod.snd

/-- The answer comes from the connector of the order, and the venue vouches for its orders. -/
def Answers (s : World) (item : WorkItem) (answer : Result (Option OrderSnapshot)) : Prop :=
  ∃ name, s.system.oms.connectorFor item.venue = some name ∧
    ∃ (ρ W : Type) (library : Json.Library) (policy : RetryPolicy ρ) (clock : RetryClock ρ W)
      (connector : Connector W) (w : W × Binance.SymbolTranslator),
      connector.Vouches library (s.acceptedBy name) ∧
        connector.getOrder library policy clock item.query w = some answer

/-- A restart finds the same venues configured. -/
def Reconnects (s : World) : Action → Prop
  | .restart config _ =>
    config.connectors = s.system.oms.connectors ∧
      config.defaultVenue = s.system.oms.defaultVenue
  | _ => True

/-- A section that applies a lookup applies one that came back. -/
def Allowed (s : World) : Event → Prop
  | .gateway action => s.Reconnects action ∧ ∀ i answer item items report,
      action = .resolved i answer →
      s.system.calls[i]? = some (.resolving (item :: items) report) →
      (s.system.oms.connectorFor item.venue).isSome → (item, answer) ∈ s.answered
  | .accept _ => True
  | .answer i answer => ∀ item items report,
      s.system.calls[i]? = some (.resolving (item :: items) report) → s.Answers item answer

abbrev Run : World → World → Prop := Transition.Reaches step Allowed

end World

namespace System

variable {s t : System} {a : Action}

/-- The order is registered, and its record leads to the connector. -/
def Known (s : System) (connector : String) (request : OrderRequest) : Prop :=
  ∃ record, s.oms.lookup request.clientOrderId = some record ∧
    record.symbol = request.instrumentId ∧
    s.oms.connectorFor (s.oms.venueOf record) = some connector

/-- The lookup of the item asks for its record, on the venue of that. -/
def Addressed (s : System) (item : WorkItem) : Prop :=
  ∃ record, s.oms.lookup item.id = some record ∧
    item.venue = s.oms.venueOf record ∧ item.query = ⟨item.id, record.symbol⟩

theorem connectorFor_of_config {oms oms' : Oms} (h : oms'.config = oms.config) (venue : String) :
    oms'.connectorFor venue = oms.connectorFor venue := by
  have hconnectors : oms'.connectors = oms.connectors := congrArg Config.connectors h
  simp only [Oms.connectorFor, hconnectors]

theorem venueOf_of_config {oms oms' : Oms} (h : oms'.config = oms.config)
    {record record' : OrderRecord} (hv : record'.venue = record.venue) :
    oms'.venueOf record' = oms.venueOf record := by
  have hdefault : oms'.defaultVenue = oms.defaultVenue := congrArg Config.defaultVenue h
  simp only [Oms.venueOf, hdefault, hv]

theorem later_step (h : s.oms.ledger.Settled) (hs : s.step a = some t) (ha : a.live) {id : String}
    {record : OrderRecord} (hr : s.oms.lookup id = some record) :
    ∃ record', t.oms.lookup id = some record' ∧ record.Later record' := by
  obtain ⟨-, changes, -, hadvances⟩ := step_advances h hs ha
  obtain ⟨record', hr', hlater, -⟩ := hadvances id record hr
  exact ⟨record', hr', hlater⟩

theorem Known.step {connector : String} {request : OrderRequest} (h : s.Known connector request)
    (hsettled : s.oms.ledger.Settled) (hs : s.step a = some t) (ha : a.live) :
    t.Known connector request := by
  obtain ⟨record, hr, hsymbol, hconnector⟩ := h
  obtain ⟨record', hr', hlater⟩ := later_step hsettled hs ha hr
  have hconfig := config_step hs ha
  refine ⟨record', hr', hlater.symbol.trans hsymbol, ?_⟩
  rw [connectorFor_of_config hconfig, venueOf_of_config hconfig hlater.venue]
  exact hconnector

theorem Addressed.step {item : WorkItem} (h : s.Addressed item)
    (hsettled : s.oms.ledger.Settled) (hs : s.step a = some t) (ha : a.live) :
    t.Addressed item := by
  obtain ⟨record, hr, hvenue, hquery⟩ := h
  obtain ⟨record', hr', hlater⟩ := later_step hsettled hs ha hr
  refine ⟨record', hr', ?_, ?_⟩
  · rw [venueOf_of_config (config_step hs ha) hlater.venue]
    exact hvenue
  · rw [hlater.symbol]
    exact hquery

/-- An open place goes to the connector that its record leads to. -/
def Directed (s : System) : Prop :=
  ∀ request connector staged sent, .place request connector staged sent ∈ s.calls →
    s.oms.connectorFor (s.oms.venueOf staged) = some connector

theorem connectorFor_of_opened {oms : Oms} {request : OrderRequest} {venue connector : String}
    {record : OrderRecord} (h : (oms.placeStage request venue).2 = .opened connector record) :
    oms.connectorFor (oms.venueOf record) = some connector := by
  have hvenue : oms.venueOf (Oms.candidate request (if venue = "" then oms.defaultVenue
      else venue)) = if venue = "" then oms.defaultVenue else venue := by
    unfold Oms.venueOf Oms.candidate
    split_ifs <;> simp_all
  unfold Oms.placeStage at h
  dsimp only at h
  cases hl : oms.lookup request.clientOrderId with
  | some existing =>
    simp only [hl] at h
    cases hrejection : existing.rejection with
    | none => simp [hrejection] at h
    | some rejection => simp [hrejection] at h
  | none =>
    simp only [hl] at h
    cases hc : oms.connectorFor (if venue = "" then oms.defaultVenue else venue) with
    | none => simp [hc] at h
    | some name =>
      simp only [hc] at h
      cases hk : oms.riskCheck request.instrumentId none request.side request.price
          request.quantity with
      | threw => simp [hk] at h
      | rejected rejection =>
        obtain ⟨error, hrejected, -⟩ := oms.recordRiskRejection_cases
          (Oms.candidate request (if venue = "" then oms.defaultVenue else venue)) rejection
        simp only [hk, hrejected] at h
        cases h
      | passed =>
        simp only [hk] at h
        by_cases hp : oms.persists
        · obtain ⟨hopened, -, -⟩ := Oms.stagePending_of_persists hp
            (Oms.candidate request (if venue = "" then oms.defaultVenue else venue)) name
          rw [hopened] at h
          cases h
          rw [hvenue]
          exact hc
        · obtain ⟨result, hanswered, -⟩ := Oms.frame_stagePending_of_not_persists hp
            (Oms.candidate request (if venue = "" then oms.defaultVenue else venue)) name
          rw [hanswered] at h
          cases h

private theorem Directed.of_calls (h : s.Directed) (hconfig : t.oms.config = s.oms.config)
    (hcalls : ∀ request connector staged sent, .place request connector staged sent ∈ t.calls →
      ∃ sent', .place request connector staged sent' ∈ s.calls) : t.Directed := by
  intro request connector staged sent hm
  obtain ⟨sent', hm'⟩ := hcalls request connector staged sent hm
  rw [connectorFor_of_config hconfig, venueOf_of_config hconfig rfl]
  exact h request connector staged sent' hm'

theorem Directed.place (h : s.Directed) (request : OrderRequest) (venue : String) :
    (s.place request venue).Directed := by
  have hconfig : (s.place request venue).oms.config = s.oms.config :=
    config_step (a := .place request venue) rfl rfl
  cases hstage : (s.oms.placeStage request venue).2 with
  | opened connector record =>
    have hplace := place_opened hstage
    intro request' connector' staged sent hm
    rw [connectorFor_of_config hconfig, venueOf_of_config hconfig rfl]
    rw [hplace] at hm
    rcases List.mem_append.mp hm with hold | hnew
    · exact h request' connector' staged sent hold
    · cases List.mem_singleton.mp hnew
      exact connectorFor_of_opened hstage
  | riskRejected error =>
    have hcalls : (s.place request venue).calls = s.calls := by rw [place_riskRejected hstage]
    exact h.of_calls hconfig fun _ _ _ sent hm => ⟨sent, hcalls ▸ hm⟩
  | answered result =>
    have hcalls : (s.place request venue).calls = s.calls := by
      rw [place_refused (.inl ⟨result, hstage⟩)]
    exact h.of_calls hconfig fun _ _ _ sent hm => ⟨sent, hcalls ▸ hm⟩
  | threw =>
    have hcalls : (s.place request venue).calls = s.calls := by
      rw [place_refused (.inr hstage)]
    exact h.of_calls hconfig fun _ _ _ sent hm => ⟨sent, hcalls ▸ hm⟩

theorem Directed.step (h : s.Directed) (hs : s.step a = some t) (ha : a.live) : t.Directed := by
  by_cases hplace : ∃ request venue, a = .place request venue
  · obtain ⟨request, venue, rfl⟩ := hplace
    obtain rfl := Option.some.inj hs
    exact h.place request venue
  · refine h.of_calls (config_step hs ha) ?_
    intro request connector staged sent hm
    rcases mem_calls_step hs hm with hold | hopens
    · exact ⟨sent, hold⟩
    · cases hopens with
      | place => exact absurd ⟨_, _, rfl⟩ hplace
      | sent hc => exact ⟨false, List.mem_of_getElem? hc⟩

end System

/-! ### The invariant -/

namespace World

variable {s t : World}

/-- What is known about every accepted order and every lookup that came back. -/
structure Custody (s : World) : Prop where
  staged : s.system.Staged
  recalling : s.system.Recalling
  logged : s.system.oms.log.isSome
  directed : s.system.Directed
  addressed : ∀ items report, .resolving items report ∈ s.system.calls →
    ∀ item ∈ items, s.system.Addressed item
  known : ∀ connector request, (connector, request) ∈ s.accepted →
    s.system.Known connector request
  submitted : ∀ connector request, (connector, request) ∈ s.accepted →
    ∀ log, s.system.oms.log = some log → log.Submitted request.clientOrderId
  /-- Who was found absent is not being placed, so no venue will accept it later. -/
  absent : ∀ item answer, (item, answer) ∈ s.answered → Oms.conclusivelyAbsent answer →
    s.system.Outside item.id ∧
      ∀ connector request, (connector, request) ∈ s.accepted → request.clientOrderId ≠ item.id

theorem Custody.live (h : s.Custody) {action : Action} {after : System}
    (hs : s.system.step action = some after) (ha : action.live) :
    Custody { s with system := after } where
  staged := h.staged.step hs
  recalling := h.recalling.step hs
  logged := (System.log_isSome_step hs ha).trans h.logged
  directed := h.directed.step hs ha
  addressed := by
    intro items report hm item hitem
    rcases System.mem_calls_step hs hm with hold | hopens
    · exact (h.addressed items report hold item hitem).step h.recalling.settled hs ha
    · cases hopens with
      | collect hc =>
        obtain ⟨record, hr, -, -, heq⟩ := Oms.mem_reconcileWorklist_iff.mp hitem
        have haddressed : s.system.Addressed item :=
          ⟨record, hr, congrArg WorkItem.venue heq, congrArg WorkItem.query heq⟩
        exact haddressed.step h.recalling.settled hs ha
      | resolved _ hc =>
        have hold := h.addressed _ _ (List.mem_of_getElem? hc) item (List.mem_cons_of_mem _ hitem)
        exact hold.step h.recalling.settled hs ha
  known := fun connector request hm =>
    (h.known connector request hm).step h.recalling.settled hs ha
  submitted := fun connector request hm _ hlog =>
    System.submitted_step hs ha hlog (h.submitted connector request hm)
  absent := by
    intro item answer hm habsent
    obtain ⟨houtside, hnone⟩ := h.absent item answer hm habsent
    exact ⟨houtside.step hs ha, hnone⟩

/-- A restart finds every accepted order in the log, on its venue and under its symbol. -/
theorem Custody.restart (h : s.Custody) {config : Config} {logOpen : Bool} {after : System}
    (hstep : s.system.step (.restart config logOpen) = some after)
    (hsame : s.Reconnects (.restart config logOpen)) : Custody ⟨after, s.accepted, []⟩ := by
  obtain ⟨log, hlog⟩ := Option.isSome_iff_exists.mp h.logged
  have hclose : log.close.events = log.events := (h.recalling.recalls.forgetting log hlog).close
  have hstaged := h.staged.step hstep
  have hrecalling := h.recalling.step hstep
  obtain rfl := System.restart_cases hstep
  have homs : (s.system.restart config logOpen).oms =
      .start config (some { log.close with isOpen := logOpen }) := by
    unfold System.restart
    rw [hlog]
    rfl
  constructor
  case staged => exact hstaged
  case recalling => exact hrecalling
  case logged =>
    rw [homs]
    rfl
  case directed =>
    intro _ _ _ _ hm
    cases hm
  case addressed =>
    intro _ _ hm
    cases hm
  case known =>
    intro connector request hm
    obtain ⟨record, hr, hsymbol, hconnector⟩ := h.known connector request hm
    have hsubmitted := h.submitted connector request hm log hlog
    have hmem : request.clientOrderId ∈
        replay s.system.oms.defaultVenue (.empty _) log.events := mem_replay (.inr hsubmitted) _
    obtain ⟨found, hfound⟩ := KeyedList.mem_iff.mp hmem
    obtain ⟨record', hr', hhome, -⟩ :=
      h.recalling.recalls.registered log hlog _ found hfound
    have hrecord : record' = record := Option.some.inj (hr'.symm.trans hr)
    rw [hrecord] at hhome
    have hfoundSymbol : found.symbol = record.symbol := congrArg Prod.fst hhome
    have hfoundVenue : found.venue = record.venue := congrArg Prod.snd hhome
    refine ⟨found, ?_, hfoundSymbol.trans hsymbol, ?_⟩
    · rw [homs]
      rw [← hsame.2, ← hclose] at hfound
      exact hfound
    · rw [homs]
      have hvenue : (Oms.start config (some { log.close with isOpen := logOpen })).venueOf found =
          s.system.oms.venueOf record := by
        unfold Oms.venueOf
        rw [hfoundVenue, ← hsame.2]
        rfl
      rw [hvenue]
      have hconnectors : (Oms.start config
          (some { log.close with isOpen := logOpen })).connectors =
            s.system.oms.connectors := hsame.1
      simp only [Oms.connectorFor, hconnectors]
      exact hconnector
  case submitted =>
    intro connector request hm log' hlog'
    rw [homs] at hlog'
    cases hlog'
    exact (h.submitted connector request hm log hlog).close
  case absent =>
    intro _ _ hm
    cases hm

theorem Custody.accept (h : s.Custody) {i : ℕ} (hs : s.step (.accept i) = some t) : t.Custody := by
  unfold step at hs
  dsimp only at hs
  split at hs
  · rename_i request connector staged hc
    obtain rfl := Option.some.inj hs
    have hmem := List.mem_of_getElem? hc
    refine ⟨h.staged, h.recalling, h.logged, h.directed, h.addressed, ?_, ?_, ?_⟩
    · intro connector' request' hm
      rcases List.mem_append.mp hm with hold | hnew
      · exact h.known connector' request' hold
      · cases List.mem_singleton.mp hnew
        obtain ⟨hr, venue, hcandidate⟩ := h.staged.places _ _ _ _ hmem
        exact ⟨staged, hr, congrArg OrderRecord.symbol hcandidate, h.directed _ _ _ _ hmem⟩
    · intro connector' request' hm log hlog
      rcases List.mem_append.mp hm with hold | hnew
      · exact h.submitted connector' request' hold log hlog
      · cases List.mem_singleton.mp hnew
        exact h.recalling.intended.opened log hlog _ _ _ _ hmem
    · intro item answer hm habsent
      obtain ⟨houtside, hnone⟩ := h.absent item answer hm habsent
      refine ⟨houtside, ?_⟩
      intro connector' request' hm'
      rcases List.mem_append.mp hm' with hold | hnew
      · exact hnone connector' request' hold
      · cases List.mem_singleton.mp hnew
        intro heq
        exact houtside.2 ⟨_, _, _, _, hmem, heq⟩
  · cases hs

theorem mem_acceptedBy {name : String} {request : OrderRequest}
    (h : (name, request) ∈ s.accepted) : request ∈ s.acceptedBy name :=
  List.mem_map.mpr ⟨(name, request), List.mem_filter.mpr ⟨h, by simp⟩, rfl⟩

/-- A lookup asks the venue that accepted the order, and under the name it was accepted with. -/
theorem Custody.not_absent (h : s.Custody) {item : WorkItem} (haddressed : s.system.Addressed item)
    {answer : Result (Option OrderSnapshot)} (hanswers : s.Answers item answer)
    (habsent : Oms.conclusivelyAbsent answer) {connector : String} {request : OrderRequest}
    (hm : (connector, request) ∈ s.accepted) : request.clientOrderId ≠ item.id := by
  intro heq
  obtain ⟨record, hr, hsymbol, hconnector⟩ := h.known connector request hm
  obtain ⟨record', hr', hvenue, hquery⟩ := haddressed
  rw [← heq, hr] at hr'
  cases hr'
  obtain ⟨name, hname, ρ, W, library, policy, clock, wire, w, hvouches, hanswer⟩ := hanswers
  rw [hvenue, hconnector] at hname
  cases hname
  rw [hquery, ← heq, hsymbol] at hanswer
  exact hvouches.not_absent (mem_acceptedBy hm) hanswer habsent

theorem Custody.answer (h : s.Custody) {i : ℕ} {answer : Result (Option OrderSnapshot)}
    (ha : s.Allowed (.answer i answer)) (hs : s.step (.answer i answer) = some t) :
    t.Custody := by
  unfold step at hs
  dsimp only at hs
  split at hs
  · rename_i item items report hc
    obtain rfl := Option.some.inj hs
    have hmem := List.mem_of_getElem? hc
    refine ⟨h.staged, h.recalling, h.logged, h.directed, h.addressed, h.known, h.submitted, ?_⟩
    intro item' answer' hm habsent
    rcases List.mem_append.mp hm with hold | hnew
    · exact h.absent item' answer' hold habsent
    · cases List.mem_singleton.mp hnew
      refine ⟨h.staged.items _ _ hmem item List.mem_cons_self, ?_⟩
      intro connector request hm'
      exact h.not_absent (h.addressed _ _ hmem item List.mem_cons_self)
        (ha item items report hc) habsent hm'
  · cases hs

theorem Custody.step (h : s.Custody) {event : Event} (ha : s.Allowed event)
    (hs : s.step event = some t) : t.Custody := by
  cases event with
  | gateway action =>
    obtain ⟨after, hafter, rfl⟩ := Option.map_eq_some_iff.mp hs
    by_cases hlive : action.live
    · rw [if_pos hlive]
      exact h.live hafter hlive
    · cases action <;> try exact absurd rfl hlive
      exact h.restart hafter ha.1
  | accept i => exact h.accept hs
  | answer i answer => exact h.answer ha hs

def Event.quiet : Event → Bool
  | .gateway (.resolved _ _) => false
  | .gateway action => action.live
  | .accept _ => true
  | .answer _ _ => false

end World

end ExchangeGateway
