import ExchangeGateway.Exchange.RequestTarget

/-! The query strings of the OKX requests (`exchange/okx/okx_wire.cpp`,
`exchange/okx/okx_rest_client.cpp`), byte by byte: instrument ids come unchecked from clients. What
is requested is what the HTTP library makes of the path that it is given. -/
namespace ExchangeGateway.Okx

open PercentCoding Httplib

def kHex : List UInt8 := ascii "0123456789ABCDEF"

def unreserved (c : UInt8) : Bool :=
  ('A'.toUInt8 ≤ c && c ≤ 'Z'.toUInt8) || ('a'.toUInt8 ≤ c && c ≤ 'z'.toUInt8) ||
    ('0'.toUInt8 ≤ c && c ≤ '9'.toUInt8) || c == '-'.toUInt8 || c == '_'.toUInt8 ||
    c == '.'.toUInt8 || c == '~'.toUInt8

def urlEncode (value : List UInt8) : List UInt8 :=
  value.flatMap fun c =>
    if unreserved c then [c]
    else ['%'.toUInt8, kHex.getD (c >>> 4).toNat 0, kHex.getD (c &&& 0x0F).toNat 0]

/-- `OkxQuery`, with the bytes of its strings. -/
structure QueryBytes where
  instId : List UInt8
  clOrdId : List UInt8
  deriving DecidableEq, Repr

def toQuery (query : QueryBytes) : List UInt8 :=
  ascii "instId=" ++ urlEncode query.instId ++ ascii "&clOrdId=" ++ urlEncode query.clOrdId

def kPathOrderInfo : String := "/api/v5/trade/order"

def kPathTicker : String := "/api/v5/market/ticker"

/-- The path that `get_order` gives to the HTTP client. -/
def orderInfoPath (query : QueryBytes) : List UInt8 :=
  ascii kPathOrderInfo ++ ascii "?" ++ toQuery query

/-- The path that `get_ticker` gives to it: the instrument id goes in as it is. -/
def tickerPath (instrumentId : List UInt8) : List UInt8 :=
  ascii kPathTicker ++ ascii "?instId=" ++ instrumentId

theorem urlEncode_eq (value : List UInt8) : urlEncode value = encode unreserved value := by
  have hall : ∀ n : Fin 256, ['%'.toUInt8, kHex.getD (UInt8.ofFin n >>> 4).toNat 0,
      kHex.getD (UInt8.ofFin n &&& 0x0F).toNat 0] = escape (UInt8.ofFin n) := by
    decide +kernel
  have hescape (c : UInt8) : ['%'.toUInt8, kHex.getD (c >>> 4).toNat 0,
      kHex.getD (c &&& 0x0F).toNat 0] = escape c := hall c.toFin
  unfold urlEncode encode
  simp only [hescape]

theorem decode_urlEncode (value : List UInt8) : decode (urlEncode value) = value := by
  rw [urlEncode_eq]
  exact decode_encode (by decide) value

/-- No separator, no blank and no plus sign is in an encoded value. -/
theorem not_mem_urlEncode {c : UInt8} (hkeep : unreserved c = false) (hpercent : c ≠ percent)
    (hdigit : hexValue? c = none) (value : List UInt8) : c ∉ urlEncode value := by
  rw [urlEncode_eq]
  exact not_mem_encode hkeep (not_mem_escape hpercent hdigit) value

theorem ampersand_not_mem_urlEncode (value : List UInt8) : ampersand ∉ urlEncode value :=
  not_mem_urlEncode (by decide) (by decide) (by decide) value

theorem decodeForm_urlEncode (value : List UInt8) : decodeForm (urlEncode value) = value := by
  rw [decodeForm_of_not_mem (not_mem_urlEncode (by decide) (by decide) (by decide) value),
    decode_urlEncode]

theorem rdropWhile_urlEncode (value : List UInt8) :
    (urlEncode value).rdropWhile isSpaceOrTab = urlEncode value := by
  apply rdropWhile_of_no_blank
  intro c hc
  have hspace : c ≠ ' '.toUInt8 := by
    rintro rfl
    exact not_mem_urlEncode (by decide) (by decide) (by decide) value hc
  have htab : c ≠ '\t'.toUInt8 := by
    rintro rfl
    exact not_mem_urlEncode (by decide) (by decide) (by decide) value hc
  simp [isSpaceOrTab, hspace, htab]

/-! ### The order lookup -/

theorem toQuery_eq (query : QueryBytes) :
    toQuery query = ascii "instId" ++ equals :: urlEncode query.instId ++
      ampersand :: (ascii "clOrdId" ++ equals :: urlEncode query.clOrdId) := by
  have hinst : ascii "instId=" = ascii "instId" ++ [equals] := by decide
  have hcl : ascii "&clOrdId=" = ampersand :: (ascii "clOrdId" ++ [equals]) := by decide
  simp [toQuery, hinst, hcl]

theorem rawQuery_toQuery (query : QueryBytes) :
    rawQuery (toQuery query) =
      [(ascii "instId", urlEncode query.instId), (ascii "clOrdId", urlEncode query.clOrdId)] := by
  have hinst : ampersand ∉ ascii "instId" ++ equals :: urlEncode query.instId :=
    not_mem_part (by decide) (ampersand_not_mem_urlEncode _)
  have hcl : ampersand ∉ ascii "clOrdId" ++ equals :: urlEncode query.clOrdId :=
    not_mem_part (by decide) (ampersand_not_mem_urlEncode _)
  rw [toQuery_eq, rawQuery, List.splitOn_append_cons_self_of_not_mem hinst,
    List.splitOn_eq_singleton hcl, List.map_cons, List.map_singleton,
    splitPart_append (by decide), splitPart_append (by decide)]

theorem decodeQuery_toQuery (query : QueryBytes) :
    decodeQuery (toQuery query) =
      [(ascii "instId", query.instId), (ascii "clOrdId", query.clOrdId)] := by
  have hinst : decode (ascii "instId") = ascii "instId" := by decide
  have hcl : decode (ascii "clOrdId") = ascii "clOrdId" := by decide
  rw [decodeQuery, rawQuery_toQuery]
  simp [hinst, hcl, decode_urlEncode]

theorem toQuery_injective : Function.Injective toQuery := by
  intro query other h
  have hfields := congrArg decodeQuery h
  rw [decodeQuery_toQuery, decodeQuery_toQuery] at hfields
  obtain ⟨instId, clOrdId⟩ := query
  obtain ⟨instId', clOrdId'⟩ := other
  simp only [List.cons.injEq, Prod.mk.injEq, true_and, and_true] at hfields
  obtain ⟨rfl, rfl⟩ := hfields
  rfl

theorem queryPart_orderInfoPath (query : QueryBytes) :
    queryPart (orderInfoPath query) = toQuery query := by
  have hpath : '?'.toUInt8 ∉ ascii kPathOrderInfo := by decide
  have hmark : ascii "?" = ['?'.toUInt8] := by decide
  unfold orderInfoPath
  rw [hmark, List.append_assoc, List.singleton_append]
  exact queryPart_append hpath _

theorem split_toQuery (query : QueryBytes) :
    split (toQuery query) '&'.toUInt8 =
      [ascii "instId" ++ equals :: urlEncode query.instId,
        ascii "clOrdId" ++ equals :: urlEncode query.clOrdId] := by
  have hinst : ascii "instId" = 'i'.toUInt8 :: ascii "nstId" := by decide
  have hcl : ascii "clOrdId" = 'c'.toUInt8 :: ascii "lOrdId" := by decide
  rw [toQuery_eq, hinst, hcl, split_cons (by decide) (by decide) (ampersand_not_mem_urlEncode _),
    split_singleton (by decide) (by decide) (ampersand_not_mem_urlEncode _), rdropWhile_urlEncode,
    rdropWhile_urlEncode]

theorem sentPairs_toQuery (query : QueryBytes) :
    sentPairs (toQuery query) =
      [(ascii "instId", urlEncode query.instId), (ascii "clOrdId", urlEncode query.clOrdId)] := by
  unfold sentPairs
  rw [split_toQuery, List.map_cons, List.map_singleton, splitPart_append (by decide),
    splitPart_append (by decide)]
  rfl

theorem normalizeQueryString_toQuery (query : QueryBytes) :
    normalizeQueryString (toQuery query) =
      ascii "instId" ++ equals :: encodeQueryComponent query.instId ++
        ampersand :: (ascii "clOrdId" ++ equals :: encodeQueryComponent query.clOrdId) := by
  have hinst : rewritten (ascii "instId") = ascii "instId" := by decide
  have hcl : rewritten (ascii "clOrdId") = ascii "clOrdId" := by decide
  have hvalue (value : List UInt8) : rewritten (urlEncode value) = encodeQueryComponent value := by
    rw [rewritten, decodeQueryComponent_eq, decodeForm_urlEncode]
  rw [normalizeQueryString_eq, split_toQuery,
    List.filterMap_cons_some (normalizePart_pair (by decide) (by decide) _),
    List.filterMap_cons_some (normalizePart_pair (by decide) (by decide) _), List.filterMap_nil,
    intercalate_cons, hinst, hcl, hvalue, hvalue]
  simp

/-- The bytes that `url_encode` escapes and `encode_query_component` does not. -/
def special : List UInt8 := ascii " !$'()*,;:@/?"

/-- A value that both encode alike. -/
def Plain (value : List UInt8) : Prop := ∀ c ∈ value, c ∉ special

theorem encodeQueryComponent_eq_urlEncode_iff (value : List UInt8) :
    encodeQueryComponent value = urlEncode value ↔ Plain value := by
  have hbytes : ∀ n : Fin 256,
      (UInt8.ofFin n ∈ special →
        (if querySafe (UInt8.ofFin n) then [UInt8.ofFin n]
          else if UInt8.ofFin n = space then [plus] else escape (UInt8.ofFin n)).head? ≠
        (if unreserved (UInt8.ofFin n) then [UInt8.ofFin n] else escape (UInt8.ofFin n)).head?) ∧
      (UInt8.ofFin n ∉ special →
        (if querySafe (UInt8.ofFin n) then [UInt8.ofFin n]
          else if UInt8.ofFin n = space then [plus] else escape (UInt8.ofFin n)) =
        if unreserved (UInt8.ofFin n) then [UInt8.ofFin n] else escape (UInt8.ofFin n)) := by
    decide +kernel
  rw [encodeQueryComponent_eq, urlEncode_eq, encodeForm, encode, flatMap_eq_flatMap_iff]
  · refine forall₂_congr fun c _ => ⟨fun hsame hspecial => ?_, (hbytes c.toFin).2⟩
    exact (hbytes c.toFin).1 hspecial (congrArg List.head? hsame)
  · intro c
    constructor
    · split_ifs <;> simp [escape]
    · split_ifs <;> simp [escape]
  · intro c
    by_cases hspecial : c ∈ special
    · exact .inr ((hbytes c.toFin).1 hspecial)
    · exact .inl ((hbytes c.toFin).2 hspecial)

/-- What is requested is the path that was given exactly if no id has a byte that is written anew
in another way. -/
theorem encodeRequestTarget_orderInfoPath_iff (query : QueryBytes) :
    encodeRequestTarget (orderInfoPath query) = orderInfoPath query ↔
      Plain query.instId ∧ Plain query.clOrdId := by
  rw [← encodeQueryComponent_eq_urlEncode_iff, ← encodeQueryComponent_eq_urlEncode_iff]
  have hquery := normalizeQueryString_toQuery query
  have hpath : (orderInfoPath query).takeWhile (· ≠ '?'.toUInt8) = ascii kPathOrderInfo := by
    have hnone : '?'.toUInt8 ∉ ascii kPathOrderInfo := by decide
    have hfixed : ∀ c ∈ ascii kPathOrderInfo, decide (c ≠ '?'.toUInt8) = true := by
      intro c hc
      have hne : c ≠ '?'.toUInt8 := fun he => hnone (he ▸ hc)
      simpa using hne
    have hmark : ascii "?" = ['?'.toUInt8] := by decide
    rw [orderInfoPath, hmark, List.append_assoc, List.takeWhile_append_of_pos hfixed]
    simp
  have htarget : encodeRequestTarget (orderInfoPath query) =
      ascii kPathOrderInfo ++ '?'.toUInt8 :: normalizeQueryString (toQuery query) := by
    have hkept : encodePath (ascii kPathOrderInfo) = ascii kPathOrderInfo := by decide
    unfold encodeRequestTarget
    rw [hpath, hkept, queryPart_orderInfoPath, if_neg (by rw [hquery]; simp)]
  constructor
  · intro hsame
    have hparts := congrArg (fun target => rawQuery (queryPart target)) hsame
    have hsent := rawQuery_normalizeQueryString
      (by rw [sentPairs_toQuery query]; exact List.cons_ne_nil _ _)
    rw [queryPart_encodeRequestTarget, queryPart_orderInfoPath, hsent, sentPairs_toQuery,
      rawQuery_toQuery] at hparts
    simp only [List.map_cons, List.map_nil, Prod.map_apply, List.cons.injEq, Prod.mk.injEq,
      rewritten, decodeQueryComponent_eq, decodeForm_urlEncode, and_true] at hparts
    exact ⟨hparts.1.2, hparts.2.2⟩
  · rintro ⟨hinst, hcl⟩
    have hmark : ascii "?" = ['?'.toUInt8] := by decide
    rw [htarget, hquery, hinst, hcl, ← toQuery_eq, orderInfoPath, hmark]
    simp

/-- What is requested has these parameters, read as form data. -/
theorem decodeFormQuery_orderInfo (query : QueryBytes) :
    decodeFormQuery (queryPart (encodeRequestTarget (orderInfoPath query))) =
      [(ascii "instId", query.instId), (ascii "clOrdId", query.clOrdId)] := by
  have hpairs := sentPairs_toQuery query
  have hinst : decodeForm (ascii "instId") = ascii "instId" := by decide
  have hcl : decodeForm (ascii "clOrdId") = ascii "clOrdId" := by decide
  rw [queryPart_encodeRequestTarget, queryPart_orderInfoPath,
    decodeFormQuery_normalizeQueryString (by rw [hpairs]; exact List.cons_ne_nil _ _), hpairs]
  simp [hinst, hcl, decodeForm_urlEncode]

/-! ### The ticker -/

theorem queryPart_tickerPath (instrumentId : List UInt8) :
    queryPart (tickerPath instrumentId) = ascii "instId" ++ equals :: instrumentId := by
  have hpath : '?'.toUInt8 ∉ ascii kPathTicker := by decide
  have hmark : ascii "?instId=" = '?'.toUInt8 :: (ascii "instId" ++ [equals]) := by decide
  unfold tickerPath
  rw [hmark, List.append_assoc, List.cons_append, List.append_assoc, List.singleton_append]
  exact queryPart_append hpath _

/-- The parameters of the requested path: the first one is all but what follows a separator. -/
theorem decodeQuery_ticker {first : List UInt8} (h : ampersand ∉ first) :
    decodeQuery (queryPart (encodeRequestTarget (tickerPath first))) =
        [(ascii "instId", (decodeForm (first.rdropWhile isSpaceOrTab)).map plussed)] ∧
      ∀ rest, ∃ others,
        decodeQuery (queryPart (encodeRequestTarget (tickerPath (first ++ ampersand :: rest)))) =
          (ascii "instId", (decodeForm (first.rdropWhile isSpaceOrTab)).map plussed) :: others := by
  have hinst : ascii "instId" = 'i'.toUInt8 :: ascii "nstId" := by decide
  have hname : (decodeForm ('i'.toUInt8 :: ascii "nstId")).map plussed =
      'i'.toUInt8 :: ascii "nstId" := by
    decide
  constructor
  · have hpairs : sentPairs (ascii "instId" ++ equals :: first) =
        [('i'.toUInt8 :: ascii "nstId", first.rdropWhile isSpaceOrTab)] := by
      rw [hinst]
      exact sentPairs_singleton (by decide) (by decide) (by decide) h
    rw [queryPart_encodeRequestTarget, queryPart_tickerPath,
      decodeQuery_normalizeQueryString (by rw [hpairs]; exact List.cons_ne_nil _ _), hpairs, hinst]
    simp only [List.map_cons, List.map_nil, hname]
  · intro rest
    have hpairs : sentPairs (ascii "instId" ++ equals :: (first ++ ampersand :: rest)) =
        ('i'.toUInt8 :: ascii "nstId", first.rdropWhile isSpaceOrTab) :: sentPairs rest := by
      have hassoc : ascii "instId" ++ equals :: (first ++ ampersand :: rest) =
          ascii "instId" ++ equals :: first ++ ampersand :: rest := by
        simp
      rw [hassoc, hinst]
      exact sentPairs_cons (by decide) (by decide) (by decide) h rest
    rw [queryPart_encodeRequestTarget, queryPart_tickerPath,
      decodeQuery_normalizeQueryString (by rw [hpairs]; exact List.cons_ne_nil _ _), hpairs, hinst]
    simp only [List.map_cons, hname]
    exact ⟨_, rfl⟩

def Carried (instrumentId : List UInt8) : Prop :=
  ampersand ∉ instrumentId ∧ space ∉ instrumentId ∧ ¬ HasEscape instrumentId ∧
    instrumentId.getLast? ≠ some '\t'.toUInt8

/-- Read back, a value is no longer than it was. -/
theorem length_carried_le (value : List UInt8) :
    ((decodeForm (value.rdropWhile isSpaceOrTab)).map plussed).length ≤
      (value.rdropWhile isSpaceOrTab).length := by
  rw [List.length_map, decodeForm]
  have hle := length_decode_le ((value.rdropWhile isSpaceOrTab).map spaced)
  rwa [List.length_map] at hle

theorem map_plussed_spaced_iff (value : List UInt8) :
    (value.map spaced).map plussed = value ↔ space ∉ value := by
  have hbyte : ∀ n : Fin 256, plussed (spaced (UInt8.ofFin n)) = UInt8.ofFin n ↔
      UInt8.ofFin n ≠ space := by
    decide +kernel
  have hsame : (value.map spaced).map plussed = value ↔
      ∀ c ∈ value, (plussed ∘ spaced) c = id c := by
    rw [← List.map_inj_left, List.map_id, List.map_map]
  rw [hsame]
  constructor
  · intro hall hmem
    exact absurd (hall space hmem) (by decide)
  · intro hnone c hc
    exact (hbyte c.toFin).mpr fun he => hnone (he ▸ hc)

theorem carried_iff {value : List UInt8} (h : ampersand ∉ value) :
    (decodeForm (value.rdropWhile isSpaceOrTab)).map plussed = value ↔ Carried value := by
  constructor
  · intro hsame
    have hlength := congrArg List.length hsame
    have hle := length_carried_le value
    have hprefix := List.rdropWhile_prefix isSpaceOrTab value
    have hwhole : value.rdropWhile isSpaceOrTab = value := by
      apply hprefix.eq_of_length
      exact Nat.le_antisymm hprefix.length_le (hlength ▸ hle)
    rw [hwhole] at hsame hlength
    have hescape : ¬ HasEscape (value.map spaced) := by
      rw [← length_decode_eq_iff, List.length_map]
      rw [List.length_map] at hlength
      exact hlength
    rw [decodeForm, decode_of_not_hasEscape hescape, map_plussed_spaced_iff] at hsame
    rw [hasEscape_map_spaced_iff] at hescape
    refine ⟨h, hsame, hescape, ?_⟩
    intro hlast
    obtain ⟨before, rfl⟩ := List.getLast?_eq_some_iff.mp hlast
    rw [List.rdropWhile_concat_pos _ _ _ (by decide)] at hwhole
    have hshort := (List.rdropWhile_prefix isSpaceOrTab before).length_le
    rw [hwhole, List.length_append, List.length_singleton] at hshort
    omega
  · rintro ⟨-, hspace, hescape, htab⟩
    have hwhole : value.rdropWhile isSpaceOrTab = value := by
      rw [List.rdropWhile_eq_self_iff]
      intro hne hblank
      have hlast := List.getLast?_eq_getLast_of_ne_nil hne
      rcases (Bool.or_eq_true _ _).mp hblank with hc | hc
      · apply hspace
        rw [show space = ' '.toUInt8 from rfl, ← of_decide_eq_true hc]
        exact List.getLast_mem hne
      · rw [of_decide_eq_true hc] at hlast
        exact htab hlast
    rw [hwhole, decodeForm,
      decode_of_not_hasEscape (mt (hasEscape_map_spaced_iff value).mp hescape),
      map_plussed_spaced_iff]
    exact hspace

/-- The query of an order lookup carries its parameters, whatever their bytes. The query that is
requested for a ticker carries the instrument id if and only if the id has no separator, no space
and no escape and does not end in a tab. -/
theorem query_paths_carry_iff (query : QueryBytes) (instrumentId : List UInt8) :
    (decodeQuery (toQuery query) =
        [(ascii "instId", query.instId), (ascii "clOrdId", query.clOrdId)] ∧
      queryPart (orderInfoPath query) = toQuery query ∧ Function.Injective toQuery) ∧
      (decodeQuery (queryPart (encodeRequestTarget (tickerPath instrumentId))) =
          [(ascii "instId", instrumentId)] ↔ Carried instrumentId) := by
  refine ⟨⟨decodeQuery_toQuery query, queryPart_orderInfoPath query, toQuery_injective⟩, ?_⟩
  by_cases hmem : ampersand ∈ instrumentId
  · obtain ⟨first, rest, rfl, hfirst⟩ := List.eq_append_cons_of_mem hmem
    obtain ⟨others, hquery⟩ := (decodeQuery_ticker hfirst).2 rest
    constructor
    · intro hsame
      rw [hquery] at hsame
      have hvalue : (decodeForm (first.rdropWhile isSpaceOrTab)).map plussed =
          first ++ ampersand :: rest := congrArg Prod.snd (List.cons.inj hsame).1
      have hlength := congrArg List.length hvalue
      have hle := length_carried_le first
      have hprefix := (List.rdropWhile_prefix isSpaceOrTab first).length_le
      rw [List.length_append, List.length_cons] at hlength
      omega
    · rintro ⟨hnone, -⟩
      exact absurd hmem hnone
  · rw [(decodeQuery_ticker hmem).1, List.singleton_inj, Prod.mk.injEq, and_iff_right rfl]
    exact carried_iff hmem

/-- An ampersand adds a second instrument, an escape names another one, and a space is sent as a
plus sign. -/
theorem ticker_parameter_injected :
    decodeQuery (queryPart (encodeRequestTarget (tickerPath
        (ascii "BTC-USDT&instId=ETH-USDT")))) =
        [(ascii "instId", ascii "BTC-USDT"), (ascii "instId", ascii "ETH-USDT")] ∧
      decodeQuery (queryPart (encodeRequestTarget (tickerPath (ascii "BTC%2DUSDT")))) =
        [(ascii "instId", ascii "BTC-USDT")] ∧
      encodeRequestTarget (tickerPath (ascii "a b")) =
        encodeRequestTarget (tickerPath (ascii "a+b")) ∧
      ¬ ∀ instrumentId, decodeQuery (queryPart (encodeRequestTarget (tickerPath instrumentId))) =
        [(ascii "instId", instrumentId)] := by
  refine ⟨by decide +kernel, by decide +kernel, by decide +kernel, ?_⟩
  intro hcarries
  exact absurd (hcarries (ascii "BTC%2DUSDT")) (by decide +kernel)

end ExchangeGateway.Okx
