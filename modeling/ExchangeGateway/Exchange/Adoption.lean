import ExchangeGateway.Core.Convergence
import ExchangeGateway.Core.Lifecycle
import ExchangeGateway.Exchange.Frames
import ExchangeGateway.Exchange.Symbols

/-! The symbol of an adopted order, from the venue's listing to the requests about the order
(`exchange/binance/binance_connector.cpp`). -/
namespace ExchangeGateway.Binance

def mapBinanceType (type : String) : Option OrderType :=
  if type = "LIMIT" then some .limit else if type = "MARKET" then some .market else none

/-- Snapshot normalization; what is unknown is an error, before the symbol is translated. -/
def toSnapshot (info : OrderInfo) (symbols : SymbolTranslator) :
    Result OrderSnapshot × SymbolTranslator :=
  match mapBinanceState info.status, mapBinanceSide info.side, mapBinanceType info.type with
  | none, _, _ => (.error ⟨"protocol", "unknown Binance order status: " ++ info.status⟩, symbols)
  | _, none, _ => (.error ⟨"protocol", "unknown Binance order side: " ++ info.side⟩, symbols)
  | _, _, none => (.error ⟨"protocol", "unknown Binance order type: " ++ info.type⟩, symbols)
  | some state, some side, some type =>
    let (instrumentId, symbols) := symbols.toGateway info.symbol
    (.ok {
      clientOrderId := info.clientOrderId
      exchangeOrderId := info.orderId
      instrumentId := instrumentId
      state := state
      side := side
      type := type
      price := info.price
      quantity := info.origQty
      filledQuantity := info.executedQty
      averageFillPrice := "" }, symbols)

/-- The loop of `get_open_orders`: orders without a snapshot are left out. -/
def openOrders : List OrderInfo → SymbolTranslator → List OrderSnapshot × SymbolTranslator
  | [], symbols => ([], symbols)
  | info :: orders, symbols =>
    match toSnapshot info symbols with
    | (.ok snapshot, symbols) =>
      let (snapshots, symbols) := openOrders orders symbols
      (snapshot :: snapshots, symbols)
    | (.error _, symbols) => openOrders orders symbols

def orderQueryOf (query : ExchangeGateway.OrderQuery) (symbols : SymbolTranslator) :
    OrderQuery × SymbolTranslator :=
  let (symbol, symbols) := symbols.toWire query.instrumentId
  (⟨query.clientOrderId, symbol⟩, symbols)

def cancelRequestOf (request : ExchangeGateway.CancelRequest) (symbols : SymbolTranslator) :
    CancelRequest × SymbolTranslator :=
  let (symbol, symbols) := symbols.toWire request.instrumentId
  (⟨request.clientOrderId, symbol⟩, symbols)

/-! ### The listing -/

/-- A snapshot of the order: same id, and a symbol that stands for the venue's. -/
structure Lists (info : OrderInfo) (snapshot : OrderSnapshot) : Prop where
  clientOrderId : snapshot.clientOrderId = info.clientOrderId
  symbol : '-' ∉ info.symbol.toList → toWire snapshot.instrumentId = info.symbol

theorem toSnapshot_ok {info : OrderInfo} {symbols : SymbolTranslator} {snapshot : OrderSnapshot}
    (hfaithful : symbols.Faithful) (h : (toSnapshot info symbols).1 = .ok snapshot) :
    Lists info snapshot := by
  unfold toSnapshot at h
  split at h
  · cases h
  · cases h
  · cases h
  · cases h
    constructor
    · rfl
    · intro hdash
      exact hfaithful.toWire_toGateway hdash

theorem toSnapshot_faithful {symbols : SymbolTranslator} (h : symbols.Faithful)
    (info : OrderInfo) : (toSnapshot info symbols).2.Faithful := by
  unfold toSnapshot
  split
  · exact h
  · exact h
  · exact h
  · exact h.step (.toGateway info.symbol)

/-- Every snapshot of a listing is that of a listed order. -/
theorem openOrders_lists {orders : List OrderInfo} {symbols : SymbolTranslator}
    (h : symbols.Faithful) : ∀ snapshot ∈ (openOrders orders symbols).1,
      ∃ info ∈ orders, Lists info snapshot := by
  induction orders generalizing symbols with
  | nil => simp [openOrders]
  | cons info orders ih =>
    have hrest := ih (toSnapshot_faithful h info)
    intro snapshot hmem
    unfold openOrders at hmem
    rcases hresult : toSnapshot info symbols with ⟨result, symbols'⟩
    rw [hresult] at hmem hrest
    cases result with
    | error error =>
      obtain ⟨other, hother, hlists⟩ := hrest snapshot hmem
      exact ⟨other, List.mem_cons_of_mem _ hother, hlists⟩
    | ok first =>
      rcases List.mem_cons.mp hmem with hfirst | hlater
      · have hok : (toSnapshot info symbols).1 = .ok snapshot := by rw [hresult, hfirst]
        exact ⟨info, List.mem_cons_self, toSnapshot_ok h hok⟩
      · obtain ⟨other, hother, hlists⟩ := hrest snapshot hlater
        exact ⟨other, List.mem_cons_of_mem _ hother, hlists⟩

/-! ### The requests about an order -/

theorem cancelStage_wire {oms : Oms} {id connector : String}
    {request : ExchangeGateway.CancelRequest} (h : oms.cancelStage id = .opened connector request) :
    ∃ record, oms.lookup id = some record ∧ request.instrumentId = record.symbol := by
  unfold Oms.cancelStage at h
  cases hl : oms.lookup id with
  | none => simp [hl] at h
  | some record =>
    refine ⟨record, rfl, ?_⟩
    rw [hl] at h
    dsimp only at h
    split_ifs at h
    cases hc : oms.connectorForRecord record with
    | none => simp [hc] at h
    | some connector' =>
      rw [hc] at h
      cases h
      rfl

/-- Every lookup, cancel and amend of the order goes out under the wire symbol. -/
structure SentUnder (oms : Oms) (symbols : SymbolTranslator) (id wire : String) : Prop where
  queried : ∀ item ∈ oms.reconcileWorklist, item.id = id →
    (orderQueryOf item.query symbols).1.symbol = wire
  canceled : ∀ connector request, oms.cancelStage id = .opened connector request →
    (cancelRequestOf request symbols).1.symbol = wire
  amended : ∀ command connector request record, command.clientOrderId = id →
    (oms.amendStage command).2 = .opened connector request record →
      ∀ placed, amendRequestOf request = .ok placed → placed.symbol = wire

theorem amendRequestOf_symbol {request : AmendRequest} {placed : PlaceRequest}
    (h : amendRequestOf request = .ok placed) : placed.symbol = toWire request.instrumentId := by
  unfold amendRequestOf at h
  split at h
  · cases h
    rfl
  · cases h

theorem sentUnder_of_lookup {oms : Oms} {id : String} {record : OrderRecord}
    (h : oms.lookup id = some record) (symbols : SymbolTranslator) :
    SentUnder oms symbols id (toWire record.symbol) := by
  constructor
  · intro item hitem hid
    obtain ⟨found, hfound, -, -, hquery⟩ := Oms.mem_reconcileWorklist_iff.mp hitem
    rw [hid, h] at hfound
    cases hfound
    rw [hquery]
    rfl
  · intro connector request hopened
    obtain ⟨found, hfound, hsymbol⟩ := cancelStage_wire hopened
    rw [h] at hfound
    cases hfound
    rw [← hsymbol]
    rfl
  · intro command connector request validated hid hopened placed hplaced
    rw [amendRequestOf_symbol hplaced]
    cases oms.amendStage_cases command with
    | unchanged _ hstage =>
      rcases hstage with ⟨result, hstage⟩ | hstage
      · rw [hstage] at hopened
        cases hopened
      · rw [hstage] at hopened
        cases hopened
    | opened _ found hfound _ _ _ hstage _ =>
      rw [hid, h] at hfound
      cases hfound
      rw [hstage] at hopened
      cases hopened
      rfl

open SymbolTranslator

/-- Whatever the translator was asked before and is asked later, a wire symbol without a dash
comes back; so an adopted order keeps the wire symbol it was listed under for the whole run. -/
theorem wire_symbol_survives (calls : List SymbolCall) {w : String} (hw : '-' ∉ w.toList) :
    (∀ later, ((run (calls ++ .toGateway w :: later)).toWire ((run calls).toGateway w).1).1 = w) ∧
      ∀ orders, ∀ snapshot ∈ (openOrders orders (run calls)).1,
        (∀ info ∈ orders, info.clientOrderId = snapshot.clientOrderId → info.symbol = w) →
        ∀ config log venue s t, System.LiveRun (System.boot config log) s →
          s.oms.lookup snapshot.clientOrderId = some (Oms.snapshotRecord snapshot venue true) →
          System.LiveRun s t → ∀ later, SentUnder t.oms (run later) snapshot.clientOrderId w := by
  constructor
  · intro later
    exact (faithful_run calls).toWire_toGateway hw
  · intro orders snapshot hmem hsymbol config log venue s t hs hadopted ht later
    obtain ⟨info, hinfo, hlists⟩ := openOrders_lists (faithful_run calls) snapshot hmem
    have hwire : info.symbol = w := hsymbol info hinfo hlists.clientOrderId.symm
    obtain ⟨changes, -, hadvances⟩ := System.advances_run hs ht
    obtain ⟨record, hrecord, hlater, -⟩ := hadvances _ _ hadopted
    have hkept : record.symbol = snapshot.instrumentId := hlater.symbol
    have hback : toWire record.symbol = w := by
      rw [hkept, ← hwire]
      rw [← hwire] at hw
      exact hlists.symbol hw
    have hsent := sentUnder_of_lookup hrecord (run later)
    rw [hback] at hsent
    exact hsent

/-- An order of another session, listed after a client used an odd spelling of its symbol. -/
def listedElsewhere : OrderInfo :=
  ⟨"7", "x1", "BTCUSDT", "NEW", "BUY", "LIMIT", "100", "4", "0", "0"⟩

def listedSnapshot : OrderSnapshot :=
  ⟨"x1", "7", "BTC-US-DT", .live, .buy, .limit, "100", "4", "0", ""⟩

/-- It is adopted under that spelling and partially filled; it is still queried, canceled and
amended under the venue's symbol. -/
theorem wire_symbol_survives_odd_spelling :
    (openOrders [listedElsewhere] (run [.toWire "BTC-US-DT"])).1 = [listedSnapshot] ∧
      ∃ t, System.LiveRun (System.boot .sample (some .fresh)) t ∧
        (t.oms.lookup "x1").map (·.symbol) = some "BTC-US-DT" ∧
        SentUnder t.oms (run [.toWire "BTCUSDT"]) "x1" "BTCUSDT" := by
  have hlisted : (openOrders [listedElsewhere] (run [.toWire "BTC-US-DT"])).1 =
      [listedSnapshot] := by decide
  have hadopt : (Transition.exec System.step (fun _ a => a.live)
    (System.boot .sample (some .fresh)) [.reconcile, .listed 0 (.ok [listedSnapshot])]).isSome := by
    decide
  have hfill : (Transition.exec System.step (fun _ a => a.live)
    ((Transition.exec System.step (fun _ a => a.live)
      (System.boot .sample (some .fresh)) [.reconcile, .listed 0 (.ok [listedSnapshot])]).get hadopt)
    [.report ⟨"x1", "7", .partiallyFilled, .buy, "1", "100"⟩]).isSome := rfl
  have hs := Transition.reaches_get_exec hadopt
  have ht := Transition.reaches_get_exec hfill
  have hmem : listedSnapshot ∈ (openOrders [listedElsewhere] (run [.toWire "BTC-US-DT"])).1 := by
    rw [hlisted]
    exact List.mem_singleton.mpr rfl
  have hsent := (wire_symbol_survives [.toWire "BTC-US-DT"] (w := "BTCUSDT") (by decide)).2
    [listedElsewhere] listedSnapshot hmem (by decide) .sample (some .fresh) "binance" _ _ hs rfl ht
    [.toWire "BTCUSDT"]
  exact ⟨hlisted, _, hs.trans ht, rfl, hsent⟩

end ExchangeGateway.Binance
