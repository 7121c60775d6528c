import ExchangeGateway.Exchange.Lookup

/-! What a listing of open orders brings into the registry. One order that the gateway cannot
represent must not hide the others. -/
namespace ExchangeGateway

/-! ### OKX -/

namespace Okx

structure Represents (library : Json.Library) (item : Json) (id : String) : Prop where
  state : (mapOkxState (fieldString library item "state")).isSome
  side : (mapOkxSide (fieldString library item "side")).isSome
  type : (mapOrdType (fieldString library item "ordType")).isSome
  clOrdId : fieldString library item "clOrdId" = id

/-- The response is the venue's list of these items. -/
def Enumerates (library : Json.Library) (response : Response) (items : List Json) : Prop :=
  response.status = 200 ∧ ∃ fields, Carries library response.body fields "0" ∧
    (Json.obj fields).find? "data" = some (.arr items)

variable {library : Json.Library}

theorem exists_toSnapshot_iff {item : Json} {id : String} :
    (∃ snapshot, toSnapshot (parseOrderInfo library item) = .ok snapshot ∧
      snapshot.clientOrderId = id) ↔ Represents library item id := by
  constructor
  · intro ⟨snapshot, hok, hid⟩
    unfold toSnapshot at hok
    split at hok
    · cases hok
    · cases hok
    · cases hok
    · rename_i state side type hstate hside htype
      cases hok
      have hstate' : mapOkxState (fieldString library item "state") = some state := hstate
      have hside' : mapOkxSide (fieldString library item "side") = some side := hside
      have htype' : mapOrdType (fieldString library item "ordType") = some type := htype
      exact ⟨by simp [hstate'], by simp [hside'], by simp [htype'], hid⟩
  · intro ⟨hstate, hside, htype, hid⟩
    obtain ⟨state, hstate⟩ := Option.isSome_iff_exists.mp hstate
    obtain ⟨side, hside⟩ := Option.isSome_iff_exists.mp hside
    obtain ⟨type, htype⟩ := Option.isSome_iff_exists.mp htype
    have hstate' : mapOkxState (parseOrderInfo library item).state = some state := hstate
    have hside' : mapOkxSide (parseOrderInfo library item).side = some side := hside
    have htype' : mapOrdType (parseOrderInfo library item).ordType = some type := htype
    unfold toSnapshot
    rw [hstate', hside', htype']
    exact ⟨_, rfl, hid⟩

theorem pendingInfos_ok {items : List Json} {infos : List OrderInfo}
    (h : pendingInfos library items = .ok infos) : infos = items.map (parseOrderInfo library) := by
  induction items generalizing infos with
  | nil =>
    cases h
    rfl
  | cons item items ih =>
    cases item with
    | obj fields =>
      unfold pendingInfos at h
      cases hrest : pendingInfos library items with
      | error error =>
        rw [hrest] at h
        cases h
      | ok rest =>
        rw [hrest] at h
        cases h
        rw [ih hrest]
        rfl
    | _ => cases h

theorem mem_snapshots_iff {items : List Json} {id : String} :
    (∃ snapshot ∈ snapshots (items.map (parseOrderInfo library)), snapshot.clientOrderId = id) ↔
      ∃ item ∈ items, Represents library item id := by
  constructor
  · intro ⟨snapshot, hm, hid⟩
    obtain ⟨info, hinfo, hok⟩ := List.mem_filterMap.mp hm
    obtain ⟨item, hitem, rfl⟩ := List.mem_map.mp hinfo
    refine ⟨item, hitem, exists_toSnapshot_iff.mp ⟨snapshot, ?_, hid⟩⟩
    cases hsnapshot : toSnapshot (parseOrderInfo library item) with
    | error error =>
      rw [hsnapshot] at hok
      cases hok
    | ok found =>
      rw [hsnapshot] at hok
      cases hok
      rfl
  · intro ⟨item, hitem, hrepresents⟩
    obtain ⟨snapshot, hok, hid⟩ := exists_toSnapshot_iff.mpr hrepresents
    refine ⟨snapshot, List.mem_filterMap.mpr ⟨_, List.mem_map.mpr ⟨item, hitem, rfl⟩, ?_⟩, hid⟩
    rw [hok]
    rfl

/-- A listing has every order of the venue's list that the gateway can represent, and no other. -/
theorem listed_of_getOpenOrders {ρ W : Type} {http : Http W} {policy : RetryPolicy ρ}
    {clock : RetryClock ρ W} {w : W} {listed : List OrderSnapshot}
    (h : (getOpenOrders library http policy clock w).1 = .ok listed) :
    ∃ v response items, Queried clock (getOrdersPending library http) w v ∧
      (http.get (ascii kPathOrdersPending) v).1 = some response ∧
      Enumerates library response items ∧
      ∀ id, (∃ snapshot ∈ listed, snapshot.clientOrderId = id) ↔
        ∃ item ∈ items, Represents library item id := by
  unfold getOpenOrders at h
  dsimp only at h
  rcases queryWith_attempted policy (getOrdersPending library http) w with
    hnone | ⟨v, hqueried, hattempt⟩
  · rw [hnone] at h
    cases h
  · rw [hattempt] at h
    unfold getOrdersPending at h
    dsimp only at h
    cases hget : (http.get (ascii kPathOrdersPending) v).1 with
    | none =>
      rw [hget] at h
      cases h
    | some response =>
      rw [hget] at h
      have hreads := reads_signedRequest library http.host kPathOrdersPending response
      generalize signedRequest library http.host kPathOrdersPending (some response) = result
        at hreads h
      cases hreads with
      | inconclusive _ => cases h
      | refused _ _ _ => cases h
      | @data fields items hs hcarries hdata =>
        refine ⟨v, response, items, hqueried, hget, ⟨hs, fields, hcarries, hdata⟩, ?_⟩
        intro id
        cases hinfos : pendingInfos library items with
        | error error =>
          simp [Except.bind, hinfos, Except.map] at h
        | ok infos =>
          simp only [Except.bind, hinfos, Except.map] at h
          cases h
          rw [pendingInfos_ok hinfos]
          exact mem_snapshots_iff

end Okx

/-! ### Binance -/

namespace Binance

structure Represents (item : Json) (id : String) : Prop where
  object : item.isObject
  status : (mapBinanceState (stringField item "status")).isSome
  side : (mapBinanceSide (stringField item "side")).isSome
  type : (mapBinanceType (stringField item "type")).isSome
  clientOrderId : stringField item "clientOrderId" = id

/-- The response to the request is the venue's list of these items. -/
def Enumerates (library : Json.Library) (request : Request) (items : List Json) : Prop :=
  ∃ response, request.response library = some response ∧ statusOf response = some 200 ∧
    response.find? "result" = some (.arr items)

variable {library : Json.Library}

/-- Whether there is a snapshot does not depend on the translator. -/
theorem exists_toSnapshot_iff {info : OrderInfo} {symbols : SymbolTranslator} {id : String} :
    (∃ snapshot, (toSnapshot info symbols).1 = .ok snapshot ∧ snapshot.clientOrderId = id) ↔
      (mapBinanceState info.status).isSome ∧ (mapBinanceSide info.side).isSome ∧
        (mapBinanceType info.type).isSome ∧ info.clientOrderId = id := by
  constructor
  · intro ⟨snapshot, hok, hid⟩
    unfold toSnapshot at hok
    split at hok
    · cases hok
    · cases hok
    · cases hok
    · rename_i state side type hstate hside htype
      cases hok
      exact ⟨by simp [hstate], by simp [hside], by simp [htype], hid⟩
  · intro ⟨hstate, hside, htype, hid⟩
    obtain ⟨state, hstate⟩ := Option.isSome_iff_exists.mp hstate
    obtain ⟨side, hside⟩ := Option.isSome_iff_exists.mp hside
    obtain ⟨type, htype⟩ := Option.isSome_iff_exists.mp htype
    unfold toSnapshot
    rw [hstate, hside, htype]
    exact ⟨_, rfl, hid⟩

theorem mem_openOrders_iff {infos : List OrderInfo} {symbols : SymbolTranslator} {id : String} :
    (∃ snapshot ∈ (openOrders infos symbols).1, snapshot.clientOrderId = id) ↔
      ∃ info ∈ infos, (mapBinanceState info.status).isSome ∧ (mapBinanceSide info.side).isSome ∧
        (mapBinanceType info.type).isSome ∧ info.clientOrderId = id := by
  induction infos generalizing symbols with
  | nil => simp [openOrders]
  | cons info infos ih =>
    have hfirst := @exists_toSnapshot_iff info symbols id
    unfold openOrders
    rcases hresult : toSnapshot info symbols with ⟨result, symbols'⟩
    rw [hresult] at hfirst
    cases result with
    | error error =>
      simp only [reduceCtorEq, false_and, exists_false, false_iff] at hfirst
      simp only [List.mem_cons, exists_eq_or_imp, hfirst, false_or]
      exact ih
    | ok snapshot =>
      simp only [Except.ok.injEq, exists_eq_left'] at hfirst
      simp only [List.mem_cons, exists_eq_or_imp, hfirst]
      exact or_congr Iff.rfl ih

theorem mem_orderInfos_iff {items : List Json} {id : String} :
    (∃ info ∈ orderInfos items, (mapBinanceState info.status).isSome ∧
        (mapBinanceSide info.side).isSome ∧ (mapBinanceType info.type).isSome ∧
        info.clientOrderId = id) ↔ ∃ item ∈ items, Represents item id := by
  constructor
  · intro ⟨info, hm, hstatus, hside, htype, hid⟩
    obtain ⟨item, hitem, hparsed⟩ := List.mem_filterMap.mp hm
    refine ⟨item, hitem, ?_⟩
    cases item with
    | obj fields =>
      cases hparsed
      exact ⟨rfl, hstatus, hside, htype, hid⟩
    | _ => cases hparsed
  · intro ⟨item, hitem, hrepresents⟩
    cases item with
    | obj fields =>
      refine ⟨_, List.mem_filterMap.mpr ⟨_, hitem, rfl⟩, ?_⟩
      exact ⟨hrepresents.status, hrepresents.side, hrepresents.type, hrepresents.clientOrderId⟩
    | _ => cases hrepresents.object

theorem response_of_call {method : String} {request : Request} {result : Json}
    (h : call library method request = some (.ok result)) :
    ∃ response, request.response library = some response ∧ statusOf response = some 200 ∧
      response.find? "result" = some result := by
  rcases call_cases library method request with ⟨-, message, hcall⟩ | ⟨response, hresponse, hcall⟩
  · rw [hcall] at h
    cases h
  · rw [hcall] at h
    have hclassified := classified_classify library response
    rw [h] at hclassified
    cases hclassified with
    | placed hs hr => exact ⟨response, hresponse, hs, hr⟩

theorem invoked_of_getOpenOrders {W : Type}
    {invoke : String → Params → W → Option (Result Json) × W} {w : W} {infos : List OrderInfo}
    (h : (Api.getOpenOrdersWith invoke w).1 = some (.ok infos)) :
    ∃ items, (invoke "openOrders.status" buildOpenOrdersParams w).1 = some (.ok (.arr items)) ∧
      infos = orderInfos items := by
  unfold Api.getOpenOrdersWith at h
  rcases hinvoke : invoke "openOrders.status" buildOpenOrdersParams w with ⟨outcome, v⟩
  rw [hinvoke] at h
  cases outcome with
  | none => cases h
  | some result =>
    cases result with
    | error error => cases h
    | ok value =>
      cases value with
      | arr items =>
        cases h
        exact ⟨items, rfl, rfl⟩
      | _ => cases h

theorem listed_of_getOpenOrders {ρ W : Type} {session : Session W} {hmac : Hmac}
    {config : Credentials} {policy : RetryPolicy ρ} {clock : RetryClock ρ W}
    {w : W × SymbolTranslator} {listed : List OrderSnapshot}
    (h : (getOpenOrders (session.callSigned library hmac config) policy clock w).1 =
      some (.ok listed)) :
    ∃ v items,
      QueriedOrThrow clock (Api.getOpenOrdersWith (session.callSigned library hmac config)) w.1 v ∧
      (∃ attempt ∈
          session.attempts library hmac config "openOrders.status" buildOpenOrdersParams v,
        Enumerates library
          (session.send "openOrders.status" attempt.params attempt.world).1 items) ∧
      ∀ id, (∃ snapshot ∈ listed, snapshot.clientOrderId = id) ↔
        ∃ item ∈ items, Represents item id := by
  unfold getOpenOrders at h
  rcases hquery : queryOrThrow policy clock
    (Api.getOpenOrdersWith (session.callSigned library hmac config)) w.1 with ⟨outcome, v⟩
  rw [hquery] at h
  cases outcome with
  | none => cases h
  | some result =>
    cases result with
    | error error => cases h
    | ok infos =>
      cases h
      have hresult : (queryOrThrow policy clock
          (Api.getOpenOrdersWith (session.callSigned library hmac config)) w.1).1 =
            some (.ok infos) := by rw [hquery]
      rcases queryOrThrow_attempted hresult with hnone | ⟨u, hqueried, hanswered⟩
      · cases hnone
      · obtain ⟨items, hinvoked, hinfos⟩ := invoked_of_getOpenOrders hanswered
        rcases call_of_callSigned hinvoked with hskew | ⟨attempt, hattempt, hcall⟩
        · cases hskew
        · refine ⟨u, items, hqueried, ⟨attempt, hattempt, response_of_call hcall⟩, ?_⟩
          intro id
          rw [mem_openOrders_iff, hinfos]
          exact mem_orderInfos_iff

end Binance

/-! ### The registry -/

namespace Connector

variable {ρ W : Type} (library : Json.Library)

/-- A response that the call received, in one of its attempts, lists these items. -/
def Listed (clock : RetryClock ρ W) (w : W) (items : List Json) : Connector W → Prop
  | .okx http => ∃ v response, Queried clock (Okx.getOrdersPending library http) w v ∧
      (http.get (ascii Okx.kPathOrdersPending) v).1 = some response ∧
        Okx.Enumerates library response items
  | .binance session hmac config => ∃ v,
      Binance.QueriedOrThrow clock
        (Binance.Api.getOpenOrdersWith (session.callSigned library hmac config)) w v ∧
      ∃ attempt ∈
          session.attempts library hmac config "openOrders.status" Binance.buildOpenOrdersParams v,
        Binance.Enumerates library
          (session.send "openOrders.status" attempt.params attempt.world).1 items

def Represents (item : Json) (id : String) : Connector W → Prop
  | .okx _ => Okx.Represents library item id
  | .binance _ _ _ => Binance.Represents item id

variable {library}

theorem listed_of_getOpenOrders {connector : Connector W} {policy : RetryPolicy ρ}
    {clock : RetryClock ρ W} {w : W × Binance.SymbolTranslator} {listed : List OrderSnapshot}
    (h : connector.getOpenOrders library policy clock w = some (.ok listed)) :
    ∃ items, connector.Listed library clock w.1 items ∧
      ∀ id, (∃ snapshot ∈ listed, snapshot.clientOrderId = id) ↔
        ∃ item ∈ items, connector.Represents library item id := by
  cases connector with
  | okx http =>
    obtain ⟨v, response, items, hqueried, hget, henumerates, hiff⟩ :=
      Okx.listed_of_getOpenOrders (Option.some.inj h)
    exact ⟨items, ⟨v, response, hqueried, hget, henumerates⟩, hiff⟩
  | binance session hmac config =>
    obtain ⟨v, items, hqueried, hlists, hiff⟩ := Binance.listed_of_getOpenOrders h
    exact ⟨items, ⟨v, hqueried, hlists⟩, hiff⟩

end Connector

theorem Ledger.mem_enter_listed {ledger : Ledger} {venue id : String} {snapshot : OrderSnapshot} :
    id ∈ (ledger.enter (.listed venue snapshot)).orders ↔
      id ∈ ledger.orders ∨ snapshot.clientOrderId = id := by
  rw [KeyedList.mem_iff, KeyedList.mem_iff, find?_enter]
  have hkey : (Entry.listed venue snapshot).key = snapshot.clientOrderId := rfl
  rw [hkey]
  by_cases heq : snapshot.clientOrderId = id
  · rw [if_pos heq]
    cases ledger.orders.find? snapshot.clientOrderId with
    | none => simp [Entry.write, heq]
    | some record => simp [Entry.write, heq]
  · rw [if_neg heq]
    simp [heq]

theorem Ledger.mem_enterAll_listed {ledger : Ledger} {venue id : String}
    {snapshots : List OrderSnapshot} :
    id ∈ (ledger.enterAll (snapshots.map (Entry.listed venue))).orders ↔
      id ∈ ledger.orders ∨ ∃ snapshot ∈ snapshots, snapshot.clientOrderId = id := by
  induction snapshots generalizing ledger with
  | nil => simp [enterAll]
  | cons snapshot snapshots ih =>
    rw [List.map_cons, enterAll_cons, ih, mem_enter_listed, or_assoc]
    simp only [List.mem_cons, exists_eq_or_imp]

theorem Oms.mem_reconcileListing_iff (oms : Oms) (venue : String) (pending : List OrderSnapshot)
    (report : ReconcileReport) (id : String) :
    id ∈ (oms.reconcileListing venue pending report).1.orders ↔
      id ∈ oms.orders ∨ id ≠ "" ∧ id ∉ oms.racedReports ∧
        ∃ snapshot ∈ pending, snapshot.clientOrderId = id := by
  have hledger := oms.reconcileListing_ledger venue pending report
  have horders : (oms.reconcileListing venue pending report).1.orders =
      (oms.ledger.enterAll (oms.listedEntries venue pending)).orders := by
    rw [← hledger]
    rfl
  rw [horders, listedEntries, Ledger.mem_enterAll_listed]
  refine or_congr Iff.rfl ?_
  constructor
  · rintro ⟨snapshot, hm, hid⟩
    obtain ⟨hpending, hopen⟩ := List.mem_filter.mp hm
    simp only [Bool.not_eq_true', decide_eq_false_iff_not, not_or, hid] at hopen
    exact ⟨hopen.1, hopen.2, snapshot, hpending, hid⟩
  · rintro ⟨hne, hfree, snapshot, hpending, hid⟩
    refine ⟨snapshot, List.mem_filter.mpr ⟨hpending, ?_⟩, hid⟩
    simp [hid, hne, hfree]

/-- A listing that fails changes nothing. One that comes back registers exactly those items of the
response it received that the gateway can represent, whatever stands beside them; empty ids and
orders with an open call are left alone. -/
theorem System.listing_registers {ρ W : Type} {library : Json.Library} {policy : RetryPolicy ρ}
    {clock : RetryClock ρ W} {connector : Connector W} {w : W × Binance.SymbolTranslator}
    {answer : Result (List OrderSnapshot)}
    (hanswer : connector.getOpenOrders library policy clock w = some answer) {s t : System} {i : ℕ}
    (hs : s.step (.listed i answer) = some t) :
    ((∃ error, answer = .error error) ∧ t.oms = s.oms) ∨
      ∃ items, connector.Listed library clock w.1 items ∧
        ∀ id, id ∈ t.oms.orders ↔
          id ∈ s.oms.orders ∨ id ≠ "" ∧ id ∉ s.oms.racedReports ∧
            ∃ item ∈ items, connector.Represents library item id := by
  obtain ⟨venue, venues, report, report', -, -, -, -, houtcome⟩ := listed_cases hs
  rcases houtcome with ⟨error, herror, homs⟩ | ⟨listed, hlisted, homs⟩
  · exact .inl ⟨⟨error, herror⟩, homs⟩
  · rw [hlisted] at hanswer
    obtain ⟨items, hitems, hiff⟩ := Connector.listed_of_getOpenOrders hanswer
    refine .inr ⟨items, hitems, ?_⟩
    intro id
    rw [homs, Oms.mem_reconcileListing_iff, hiff]

namespace System

/-- An order of a type that the gateway does not know, and one that it does. -/
def exoticFields : List (String × Json) :=
  [("code", .str "0"), ("data", .arr [
    .obj [("clOrdId", .str "x2"), ("state", .str "live"), ("side", .str "buy"),
      ("ordType", .str "iceberg")],
    .obj [("ordId", .str "7"), ("clOrdId", .str "x1"), ("instId", .str "BTC-USDT"),
      ("state", .str "live"), ("side", .str "buy"), ("ordType", .str "limit"), ("px", .str "100"),
      ("sz", .str "5"), ("accFillSz", .str "0")]])]

def exoticLibrary : Json.Library where
  parse _ := some (.obj exoticFields)
  dump _ := ""
  truncate _ := 0

def exoticVenue : Connector Unit := .okx ⟨"www.okx.com", fun _ w => (some ⟨200, "list"⟩, w)⟩

def exoticAnswer : Result (List OrderSnapshot) :=
  .ok [⟨"x1", "7", "BTC-USDT", .live, .buy, .limit, "100", "5", "0", ""⟩]

def listing : System :=
  (Transition.exec step (fun _ _ => True) (boot .sample (some .fresh)) [.reconcile]).get (by decide)

/-- The second order is adopted all the same. -/
theorem listing_registers_exotic : ∃ t, listing.step (.listed 0 exoticAnswer) = some t ∧
    exoticVenue.getOpenOrders exoticLibrary patientPolicy stoppedClock
      ((), Binance.SymbolTranslator.fresh) = some exoticAnswer ∧
    (t.oms.lookup "x1").map OrderRecord.state = some .live ∧ t.oms.lookup "x2" = none ∧
    ∃ items, exoticVenue.Listed exoticLibrary stoppedClock () items ∧
      ∀ id, id ∈ t.oms.orders ↔ id ∈ listing.oms.orders ∨ id ≠ "" ∧
        id ∉ listing.oms.racedReports ∧
          ∃ item ∈ items, exoticVenue.Represents exoticLibrary item id := by
  have hanswer : exoticVenue.getOpenOrders exoticLibrary patientPolicy stoppedClock
      ((), Binance.SymbolTranslator.fresh) = some exoticAnswer := by decide
  have hsome : (listing.step (.listed 0 exoticAnswer)).isSome := by decide
  have hs := (Option.some_get hsome).symm
  refine ⟨_, hs, hanswer, rfl, rfl, ?_⟩
  rcases listing_registers hanswer hs with ⟨⟨error, herror⟩, -⟩ | hregistered
  · cases herror
  · exact hregistered

end System

end ExchangeGateway
