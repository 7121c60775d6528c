import ExchangeGateway.Exchange.Binance
import ExchangeGateway.Lib.KeyedList

/-! Symbol translation (`SymbolTranslator` of `exchange/binance/binance_wire.cpp`). Each call holds
the mutex, so concurrent callers are a sequence of calls. -/
namespace ExchangeGateway.Binance

/-- Quote assets recognized by the reverse translation. -/
def kQuoteAssets : List String :=
  ["USDT", "FDUSD", "USDC", "TUSD", "BUSD", "DAI", "BTC", "ETH", "BNB", "EUR", "TRY", "GBP"]

structure SymbolPair where
  gateway : String
  wire : String
  deriving DecidableEq, Repr

structure SymbolTranslator where
  gatewayToWire : KeyedList SymbolPair.gateway
  wireToGateway : KeyedList SymbolPair.wire

/-- The loop over the quote assets: the first one that ends the symbol and leaves more than one
byte before it. -/
def splitQuote (quotes : List String) (wire : String) : Option String :=
  (quotes.find? fun quote =>
      wire.utf8ByteSize > quote.utf8ByteSize + 1 && decide (quote.toList <:+ wire.toList)).map
    fun quote =>
      String.ofList (wire.toList.take (wire.toList.length - quote.toList.length)) ++ "-" ++ quote

namespace SymbolTranslator

def fresh : SymbolTranslator := ⟨.empty _, .empty _⟩

def register (symbols : SymbolTranslator) (pair : SymbolPair) : SymbolTranslator :=
  ⟨symbols.gatewayToWire.set pair, symbols.wireToGateway.set pair⟩

/-- Both memos are overwritten, whatever they held. -/
def toWire (symbols : SymbolTranslator) (gatewaySymbol : String) : String × SymbolTranslator :=
  let wire := Binance.toWire gatewaySymbol
  (wire, symbols.register ⟨gatewaySymbol, wire⟩)

/-- The memo first, then the quote suffix, then the symbol itself. -/
def toGateway (symbols : SymbolTranslator) (wireSymbol : String) : String × SymbolTranslator :=
  match symbols.wireToGateway.find? wireSymbol with
  | some pair => (pair.gateway, symbols)
  | none =>
    let gateway := (splitQuote kQuoteAssets wireSymbol).getD wireSymbol
    (gateway, symbols.register ⟨gateway, wireSymbol⟩)

end SymbolTranslator

/-! ### Splitting at the quote asset -/

/-- No quote asset ends another one. -/
theorem kQuoteAssets_suffix_free : ∀ q ∈ kQuoteAssets, ∀ q' ∈ kQuoteAssets,
    q'.toList <:+ q.toList → q' = q := by
  decide

/-- At most one quote asset ends a symbol. -/
theorem quote_unique {wire : List Char} {q q' : String} (hq : q ∈ kQuoteAssets)
    (hq' : q' ∈ kQuoteAssets) (h : q.toList <:+ wire) (h' : q'.toList <:+ wire) : q' = q := by
  rcases List.suffix_or_suffix_of_suffix h h' with hs | hs
  · exact (kQuoteAssets_suffix_free q' hq' q hq hs).symm
  · exact kQuoteAssets_suffix_free q hq q' hq' hs

/-- Whatever the order of the table, the quote asset is split off a base of at least two bytes, and
a base of one byte is not split. -/
theorem splitQuote_append {quotes : List String} (hperm : quotes.Perm kQuoteAssets)
    {base quote : String} (hq : quote ∈ kQuoteAssets) :
    splitQuote quotes (base ++ quote) =
      if 2 ≤ base.utf8ByteSize then some (base ++ "-" ++ quote) else none := by
  have hchars : (base ++ quote).toList = base.toList ++ quote.toList := String.toList_append
  have hsuffix : quote.toList <:+ (base ++ quote).toList := by
    rw [hchars]
    exact List.suffix_append _ _
  have hsize : (base ++ quote).utf8ByteSize = base.utf8ByteSize + quote.utf8ByteSize :=
    String.utf8ByteSize_append
  have hmem : quote ∈ quotes := hperm.mem_iff.mpr hq
  unfold splitQuote
  cases hfind : quotes.find? (fun quote' =>
      (base ++ quote).utf8ByteSize > quote'.utf8ByteSize + 1 &&
        decide (quote'.toList <:+ (base ++ quote).toList)) with
  | none =>
    have hnone := List.find?_eq_none.mp hfind quote hmem
    simp only [hsize, hsuffix, decide_true, Bool.and_true, decide_eq_true_eq, gt_iff_lt] at hnone
    rw [if_neg (by omega)]
    rfl
  | some found =>
    have hpred := List.find?_some hfind
    have hfound : found ∈ kQuoteAssets := hperm.mem_iff.mp (List.mem_of_find?_eq_some hfind)
    simp only [Bool.and_eq_true, decide_eq_true_eq, gt_iff_lt] at hpred
    obtain rfl : found = quote := quote_unique hq hfound hsuffix hpred.2
    have hlt := hpred.1
    rw [hsize] at hlt
    have htake : (base.toList ++ found.toList).take
        ((base.toList ++ found.toList).length - found.toList.length) = base.toList := by
      rw [List.length_append, Nat.add_sub_cancel, List.take_left]
    rw [if_pos (by omega), Option.map_some, hchars, htake, String.ofList_toList]

theorem kQuoteAssets_dash_free : ∀ q ∈ kQuoteAssets, '-' ∉ q.toList := by
  decide

theorem toWire_append (lhs rhs : String) : toWire (lhs ++ rhs) = toWire lhs ++ toWire rhs := by
  rw [toWire, toWire, toWire, String.toList_append, List.filter_append, String.ofList_append]

theorem toWire_of_dash_free {symbol : String} (h : '-' ∉ symbol.toList) : toWire symbol = symbol := by
  have hfilter : symbol.toList.filter (· ≠ '-') = symbol.toList := by
    apply List.filter_eq_self.mpr
    intro c hc
    have hne : c ≠ '-' := fun he => h (he ▸ hc)
    simpa using hne
  rw [toWire, hfilter, String.ofList_toList]

/-- Dropping the dash inverts a split. -/
theorem toWire_split {base quote : String} (hdash : '-' ∉ base.toList)
    (hquote : quote ∈ kQuoteAssets) : toWire (base ++ "-" ++ quote) = base ++ quote := by
  have hminus : toWire "-" = "" := by decide
  rw [toWire_append, toWire_append, toWire_of_dash_free hdash, hminus,
    toWire_of_dash_free (kQuoteAssets_dash_free quote hquote), String.append_empty]

/-- What is split is the symbol. -/
theorem splitQuote_spec {quotes : List String} {wire gateway : String}
    (h : splitQuote quotes wire = some gateway) :
    ∃ base quote, quote ∈ quotes ∧ wire = base ++ quote ∧ gateway = base ++ "-" ++ quote := by
  obtain ⟨quote, hfind, rfl⟩ := Option.map_eq_some_iff.mp h
  have hpred := List.find?_some hfind
  simp only [Bool.and_eq_true, decide_eq_true_eq] at hpred
  obtain ⟨base, hbase⟩ := hpred.2
  have htake : wire.toList.take (wire.toList.length - quote.toList.length) = base := by
    rw [← hbase, List.length_append, Nat.add_sub_cancel, List.take_left]
  refine ⟨String.ofList base, quote, List.mem_of_find?_eq_some hfind, ?_, by rw [htake]⟩
  apply String.toList_inj.mp
  rw [String.toList_append, String.toList_ofList, hbase]

/-- The gateway symbol of an unseen wire symbol without a dash translates back. -/
theorem toWire_splitQuote {wire : String} (h : '-' ∉ wire.toList) :
    toWire ((splitQuote kQuoteAssets wire).getD wire) = wire := by
  cases hsplit : splitQuote kQuoteAssets wire with
  | none => exact toWire_of_dash_free h
  | some gateway =>
    obtain ⟨base, quote, hquote, hwire, hgateway⟩ := splitQuote_spec hsplit
    have hdash : '-' ∉ base.toList := by
      intro hmem
      apply h
      rw [hwire, String.toList_append]
      exact List.mem_append_left _ hmem
    rw [Option.getD_some, hgateway, toWire_split hdash hquote, hwire]

namespace SymbolTranslator

theorem toGateway_fresh (wireSymbol : String) :
    (fresh.toGateway wireSymbol).1 = (splitQuote kQuoteAssets wireSymbol).getD wireSymbol := rfl

/-- Unseen symbols split at their quote asset, the only one that ends them, and translate back, if
and only if the base has more than one byte. -/
theorem toGateway_splits_iff {base quote : String} (hdash : '-' ∉ base.toList)
    (hquote : quote ∈ kQuoteAssets) :
    ((fresh.toGateway (base ++ quote)).1 = base ++ "-" ++ quote ∧
        (∀ q ∈ kQuoteAssets, q.toList <:+ (base ++ quote).toList → q = quote) ∧
        (∀ quotes, quotes.Perm kQuoteAssets →
          splitQuote quotes (base ++ quote) = splitQuote kQuoteAssets (base ++ quote)) ∧
        ((fresh.toGateway (base ++ quote)).2.toWire (fresh.toGateway (base ++ quote)).1).1 =
          base ++ quote) ↔
      2 ≤ base.utf8ByteSize := by
  have hsplit : splitQuote kQuoteAssets (base ++ quote) =
      if 2 ≤ base.utf8ByteSize then some (base ++ "-" ++ quote) else none :=
    splitQuote_append (List.Perm.refl kQuoteAssets) hquote
  constructor
  · rintro ⟨hresult, -, -, -⟩
    by_contra hshort
    rw [toGateway_fresh, hsplit, if_neg hshort, Option.getD_none] at hresult
    have hlength := congrArg (fun text => text.toList.length) hresult
    simp only [String.toList_append, List.length_append] at hlength
    have hminus : ("-" : String).toList.length = 1 := rfl
    omega
  · intro hlong
    have hresult : (fresh.toGateway (base ++ quote)).1 = base ++ "-" ++ quote := by
      rw [toGateway_fresh, hsplit, if_pos hlong, Option.getD_some]
    refine ⟨hresult, ?_, ?_, ?_⟩
    · intro q hq hends
      refine quote_unique hquote hq ?_ hends
      rw [String.toList_append]
      exact List.suffix_append _ _
    · intro quotes hperm
      rw [splitQuote_append hperm hquote, hsplit]
    · rw [hresult]
      exact toWire_split hdash hquote

/-- A base that itself ends in a quote asset. -/
theorem toGateway_splits_usdc_usdt :
    (fresh.toGateway "USDCUSDT").1 = "USDC-USDT" ∧
      (∀ q ∈ kQuoteAssets, q.toList <:+ "USDCUSDT".toList → q = "USDT") ∧
      (∀ quotes, quotes.Perm kQuoteAssets →
        splitQuote quotes "USDCUSDT" = splitQuote kQuoteAssets "USDCUSDT") ∧
      ((fresh.toGateway "USDCUSDT").2.toWire (fresh.toGateway "USDCUSDT").1).1 = "USDCUSDT" :=
  (@toGateway_splits_iff "USDC" "USDT" (by decide) (by decide)).mpr (by decide)

/-- A base of one letter stays glued to its quote asset. -/
theorem toGateway_keeps_short_base :
    '-' ∉ "T".toList ∧ "USDT" ∈ kQuoteAssets ∧ (fresh.toGateway ("T" ++ "USDT")).1 = "TUSDT" ∧
      (fresh.toGateway ("T" ++ "USDT")).1 ≠ "T" ++ "-" ++ "USDT" := by
  decide

end SymbolTranslator

/-! ### Stability -/

inductive SymbolCall
  | toWire (gatewaySymbol : String)
  | toGateway (wireSymbol : String)
  deriving DecidableEq, Repr

namespace SymbolTranslator

def pairOf (symbols : SymbolTranslator) : SymbolCall → SymbolPair
  | .toWire gatewaySymbol => ⟨gatewaySymbol, (symbols.toWire gatewaySymbol).1⟩
  | .toGateway wireSymbol => ⟨(symbols.toGateway wireSymbol).1, wireSymbol⟩

def step (symbols : SymbolTranslator) : SymbolCall → SymbolTranslator
  | .toWire gatewaySymbol => (symbols.toWire gatewaySymbol).2
  | .toGateway wireSymbol => (symbols.toGateway wireSymbol).2

def run (calls : List SymbolCall) : SymbolTranslator := calls.foldl step fresh

theorem run_snoc (calls : List SymbolCall) (call : SymbolCall) :
    run (calls ++ [call]) = (run calls).step call := by
  rw [run, List.foldl_append, List.foldl_cons, List.foldl_nil, run]

/-- A call memoizes its association and leaves those of other wire symbols alone. -/
theorem find?_step (symbols : SymbolTranslator) (call : SymbolCall) (w : String) :
    (symbols.step call).wireToGateway.find? w =
      if (symbols.pairOf call).wire = w then some (symbols.pairOf call)
      else symbols.wireToGateway.find? w := by
  cases call with
  | toWire gatewaySymbol => exact KeyedList.find?_set _ _ _
  | toGateway wireSymbol =>
    cases hfind : symbols.wireToGateway.find? wireSymbol with
    | none =>
      simp only [step, pairOf, toGateway, hfind]
      exact KeyedList.find?_set _ _ _
    | some pair =>
      obtain rfl : pair.wire = wireSymbol := KeyedList.key_of_find? hfind
      simp only [step, pairOf, toGateway, hfind]
      by_cases hw : pair.wire = w
      · rw [if_pos hw, ← hw]
        exact hfind
      · rw [if_neg hw]

theorem toGateway_of_find? {symbols : SymbolTranslator} {w : String} {pair : SymbolPair}
    (h : symbols.wireToGateway.find? w = some pair) : (symbols.toGateway w).1 = pair.gateway := by
  rw [toGateway, h]

/-- Once a call has used or returned a gateway symbol for a wire symbol, `to_gateway` returns it in
every state reached later. -/
def Stable (calls : List SymbolCall) : Prop :=
  ∀ pre call mid post, calls = pre ++ call :: mid ++ post →
    ((run (pre ++ call :: mid)).toGateway ((run pre).pairOf call).wire).1 =
      ((run pre).pairOf call).gateway

/-- No other gateway symbol is memoized for the wire form of a symbol that is used. -/
def Unclashing (calls : List SymbolCall) : Prop :=
  ∀ pre gatewaySymbol post, calls = pre ++ .toWire gatewaySymbol :: post →
    ∀ pair, (run pre).wireToGateway.find? (Binance.toWire gatewaySymbol) = some pair →
      pair.gateway = gatewaySymbol

/-- Every memoized association comes from a call of the run. -/
theorem exists_call_of_find? {calls : List SymbolCall} {w : String} {pair : SymbolPair}
    (h : (run calls).wireToGateway.find? w = some pair) :
    ∃ pre call post, calls = pre ++ call :: post ∧ (run pre).pairOf call = pair := by
  induction calls using List.reverseRecOn with
  | nil => cases h
  | append_singleton calls call ih =>
    rw [run_snoc, find?_step] at h
    split_ifs at h with hw
    · exact ⟨calls, call, [], rfl, Option.some.inj h⟩
    · obtain ⟨pre, earlier, post, rfl, hpair⟩ := ih h
      exact ⟨pre, earlier, post ++ [call], by simp, hpair⟩

/-- A call that clashes with no memo keeps the memo of every wire symbol. -/
theorem find?_step_of_unclashing {symbols : SymbolTranslator} {call : SymbolCall} {w : String}
    {pair : SymbolPair} (h : symbols.wireToGateway.find? w = some pair)
    (hcall : ∀ gatewaySymbol, call = .toWire gatewaySymbol → ∀ other,
      symbols.wireToGateway.find? (Binance.toWire gatewaySymbol) = some other →
        other.gateway = gatewaySymbol) :
    (symbols.step call).wireToGateway.find? w = some pair := by
  obtain ⟨gateway, wire⟩ := pair
  obtain rfl : wire = w := KeyedList.key_of_find? h
  rw [find?_step]
  by_cases hw : (symbols.pairOf call).wire = wire
  · have hpair : symbols.pairOf call = ⟨gateway, wire⟩ := by
      cases call with
      | toWire gatewaySymbol =>
        obtain rfl : Binance.toWire gatewaySymbol = wire := hw
        obtain rfl : gateway = gatewaySymbol := hcall gatewaySymbol rfl _ h
        rfl
      | toGateway wireSymbol =>
        obtain rfl : wireSymbol = wire := hw
        rw [pairOf, toGateway_of_find? h]
    rw [if_pos hw, hpair]
  · rw [if_neg hw]
    exact h

theorem Unclashing.of_append {calls post : List SymbolCall} (h : Unclashing (calls ++ post)) :
    Unclashing calls := by
  rintro pre gatewaySymbol rest rfl
  apply h pre gatewaySymbol (rest ++ post)
  simp

/-- The memo of a call outlasts the calls after it. -/
theorem find?_run_of_unclashing {pre mid : List SymbolCall} {call : SymbolCall}
    (h : Unclashing (pre ++ call :: mid)) :
    (run (pre ++ call :: mid)).wireToGateway.find? ((run pre).pairOf call).wire =
      some ((run pre).pairOf call) := by
  induction mid using List.reverseRecOn with
  | nil => rw [run_snoc, find?_step, if_pos rfl]
  | append_singleton mid last ih =>
    have hsplit : pre ++ call :: (mid ++ [last]) = (pre ++ call :: mid) ++ [last] := by simp
    rw [hsplit] at h ⊢
    rw [run_snoc]
    apply find?_step_of_unclashing (ih h.of_append)
    rintro gatewaySymbol rfl
    exact h (pre ++ call :: mid) gatewaySymbol [] rfl

/-- Translations stay stable over a run if and only if no used symbol clashes with the memo of its
wire form: `to_wire` overwrites the memo. -/
theorem stable_iff_unclashing (calls : List SymbolCall) : Stable calls ↔ Unclashing calls := by
  constructor
  · rintro hstable pre gatewaySymbol post rfl pair hfind
    have hwire : pair.wire = Binance.toWire gatewaySymbol := KeyedList.key_of_find? hfind
    obtain ⟨pre', call, post', rfl, rfl⟩ := exists_call_of_find? hfind
    have hlater := hstable pre' call (post' ++ [.toWire gatewaySymbol]) post (by simp)
    have hrun : pre' ++ call :: (post' ++ [.toWire gatewaySymbol]) =
        (pre' ++ call :: post') ++ [.toWire gatewaySymbol] := by simp
    have hmemo : ((run (pre' ++ call :: post')).step (.toWire gatewaySymbol)).wireToGateway.find?
        (Binance.toWire gatewaySymbol) = some ⟨gatewaySymbol, Binance.toWire gatewaySymbol⟩ :=
      KeyedList.find?_set_self _ _
    rw [hrun, run_snoc, hwire, toGateway_of_find? hmemo] at hlater
    exact hlater.symm
  · rintro hunclashing pre call mid post rfl
    exact toGateway_of_find? (find?_run_of_unclashing hunclashing.of_append)

/-- A price query for the wire spelling renames the symbol of a placed order. -/
theorem clashing_spelling_renames :
    (run [.toWire "BTC-USDT"]).wireToGateway.find? "BTCUSDT" = some ⟨"BTC-USDT", "BTCUSDT"⟩ ∧
      ((run [.toWire "BTC-USDT", .toWire "BTCUSDT"]).toGateway "BTCUSDT").1 = "BTCUSDT" ∧
      ¬ Stable [.toWire "BTC-USDT", .toWire "BTCUSDT"] := by
  refine ⟨by decide, by decide, ?_⟩
  intro hstable
  exact absurd (hstable [] (.toWire "BTC-USDT") [.toWire "BTCUSDT"] [] rfl) (by decide)

/-! ### Wire symbols -/

/-- The memo of a wire symbol without a dash translates back to it. -/
def Faithful (symbols : SymbolTranslator) : Prop :=
  ∀ w pair, '-' ∉ w.toList → symbols.wireToGateway.find? w = some pair →
    Binance.toWire pair.gateway = w

theorem faithful_fresh : fresh.Faithful := by
  intro w pair _ hfind
  cases hfind

theorem Faithful.toWire_toGateway {symbols : SymbolTranslator} (h : symbols.Faithful) {w : String}
    (hw : '-' ∉ w.toList) : Binance.toWire (symbols.toGateway w).1 = w := by
  cases hfind : symbols.wireToGateway.find? w with
  | none =>
    simp only [toGateway, hfind]
    exact toWire_splitQuote hw
  | some pair =>
    rw [toGateway_of_find? hfind]
    exact h w pair hw hfind

/-- A call memoizes an association that translates back, or one of a symbol with a dash. -/
theorem Faithful.step {symbols : SymbolTranslator} (h : symbols.Faithful) (call : SymbolCall) :
    (symbols.step call).Faithful := by
  intro w pair hw hfind
  rw [find?_step] at hfind
  split_ifs at hfind with hwire
  · obtain rfl := Option.some.inj hfind
    cases call with
    | toWire gatewaySymbol => exact hwire
    | toGateway wireSymbol =>
      obtain rfl : wireSymbol = w := hwire
      exact h.toWire_toGateway hw
  · exact h w pair hw hfind

theorem faithful_run (calls : List SymbolCall) : (run calls).Faithful := by
  induction calls using List.reverseRecOn with
  | nil => exact faithful_fresh
  | append_singleton calls call ih =>
    rw [run_snoc]
    exact ih.step call

end SymbolTranslator

end ExchangeGateway.Binance
