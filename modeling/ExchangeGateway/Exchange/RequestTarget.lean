import ExchangeGateway.Lib.PercentCoding

/-! The target of a request line as the HTTP library under `third_party` sends it (`httplib.h`). The
client does not send the path that it was given: it writes the query anew, as form data. -/
namespace ExchangeGateway

def ascii (text : String) : List UInt8 := text.toList.map Char.toUInt8

namespace Httplib

open PercentCoding

def isAsciiAlnum (c : UInt8) : Bool :=
  ('A'.toUInt8 ≤ c && c ≤ 'Z'.toUInt8) || ('a'.toUInt8 ≤ c && c ≤ 'z'.toUInt8) ||
    ('0'.toUInt8 ≤ c && c ≤ '9'.toUInt8)

def kUpperHex : List UInt8 := ascii "0123456789ABCDEF"

/-- The format `%02X` behind a percent sign. -/
def upperEscape (c : UInt8) : List UInt8 :=
  ['%'.toUInt8, kUpperHex.getD (c >>> 4).toNat 0, kUpperHex.getD (c &&& 0x0F).toNat 0]

def encodeQueryComponent (component : List UInt8) : List UInt8 :=
  component.flatMap fun c =>
    if isAsciiAlnum c || c ∈ ascii "-._~" then [c]
    else if c = ' '.toUInt8 then ['+'.toUInt8]
    else if c = '+'.toUInt8 then ascii "%2B"
    else if c ∈ ascii "!$'()*,;" then [c]
    else if c ∈ ascii ":@" then [c]
    else if c = '/'.toUInt8 then [c]
    else if c = '?'.toUInt8 then [c]
    else upperEscape c

def decodeQueryComponent : List UInt8 → List UInt8
  | [] => []
  | c :: high :: low :: rest =>
    match escaped? c high low with
    | some byte => byte :: decodeQueryComponent rest
    | none => spaced c :: decodeQueryComponent (high :: low :: rest)
  | c :: rest => spaced c :: decodeQueryComponent rest

def encodePathByte (c : UInt8) : List UInt8 :=
  if c = ' '.toUInt8 then ascii "%20"
  else if c = '+'.toUInt8 then ascii "%2B"
  else if c = '\r'.toUInt8 then ascii "%0D"
  else if c = '\n'.toUInt8 then ascii "%0A"
  else if c = '\''.toUInt8 then ascii "%27"
  else if c = ','.toUInt8 then ascii "%2C"
  else if c = ';'.toUInt8 then ascii "%3B"
  else if 0x80 ≤ c then upperEscape c
  else [c]

/-- The loop ends at a zero byte. -/
def encodePath (path : List UInt8) : List UInt8 := (path.takeWhile (· ≠ 0)).flatMap encodePathByte

def isSpaceOrTab (c : UInt8) : Bool := c = ' '.toUInt8 || c = '\t'.toUInt8

def trim (span : List UInt8) : List UInt8 := (span.dropWhile isSpaceOrTab).rdropWhile isSpaceOrTab

/-- The spans between the separators, trimmed, without the empty ones. -/
def split (text : List UInt8) (d : UInt8) : List (List UInt8) :=
  ((text.splitOn d).map trim).filter (· ≠ [])

/-- One part of the query, if it has a name. -/
def normalizePart (span : List UInt8) : Option (List UInt8) :=
  let (key, val) := splitPart span
  if key = [] then none
  else
    some (encodeQueryComponent (decodeQueryComponent key) ++
      if val ≠ [] || '='.toUInt8 ∈ span then
        '='.toUInt8 :: encodeQueryComponent (decodeQueryComponent val)
      else [])

def appendPart (result span : List UInt8) : List UInt8 :=
  match normalizePart span with
  | none => result
  | some part => (if result = [] then result else result ++ ['&'.toUInt8]) ++ part

def normalizeQueryString (query : List UInt8) : List UInt8 :=
  (split query '&'.toUInt8).foldl appendPart []

def queryPart (target : List UInt8) : List UInt8 := (target.dropWhile (· ≠ '?'.toUInt8)).tail

/-- With the path encoding on, as a client has it by default. -/
def encodeRequestTarget (target : List UInt8) : List UInt8 :=
  let result := encodePath (target.takeWhile (· ≠ '?'.toUInt8))
  let normalized := normalizeQueryString (queryPart target)
  if normalized = [] then result else result ++ '?'.toUInt8 :: normalized

/-! ### Components -/

def querySafe (c : UInt8) : Bool :=
  isAsciiAlnum c || c ∈ ascii "-._~" || c ∈ ascii "!$'()*,;" || c ∈ ascii ":@" ||
    c = '/'.toUInt8 || c = '?'.toUInt8

theorem encodeQueryComponent_eq (component : List UInt8) :
    encodeQueryComponent component = encodeForm querySafe component := by
  have hall : ∀ n : Fin 256, encodeQueryComponent [UInt8.ofFin n] =
      encodeForm querySafe [UInt8.ofFin n] := by
    decide +kernel
  unfold encodeQueryComponent encodeForm
  congr 1
  funext c
  simpa [encodeQueryComponent, encodeForm] using hall c.toFin

theorem decodeQueryComponent_eq (component : List UInt8) :
    decodeQueryComponent component = decodeForm component := by
  unfold decodeForm
  fun_induction decodeQueryComponent component with
  | case1 => rfl
  | case2 c high low rest byte hbyte ih =>
    simp only [List.map_cons, decode, escaped?_spaced, hbyte, ih]
  | case3 c high low rest hnone ih =>
    rw [List.map_cons, List.map_cons] at ih
    simp only [List.map_cons, decode, escaped?_spaced, hnone, ih]
  | case4 c rest hshort ih =>
    cases rest with
    | nil => rfl
    | cons high rest =>
      cases rest with
      | nil =>
        rw [ih]
        rfl
      | cons low rest => exact absurd rfl (hshort high low rest)

theorem decode_encodeQueryComponent (component : List UInt8) :
    decode (encodeQueryComponent component) = component.map plussed := by
  rw [encodeQueryComponent_eq]
  exact decode_encodeForm (by decide) (by decide) component

theorem decodeForm_encodeQueryComponent (component : List UInt8) :
    decodeForm (encodeQueryComponent component) = component := by
  rw [encodeQueryComponent_eq]
  exact decodeForm_encodeForm (by decide) (by decide) component

theorem not_mem_encodeQueryComponent {sep : UInt8} (h : sep = ampersand ∨ sep = equals)
    (component : List UInt8) : sep ∉ encodeQueryComponent component := by
  rw [encodeQueryComponent_eq]
  rcases h with rfl | rfl
  · exact not_mem_encodeForm (by decide) (by decide) (by decide) (by decide) component
  · exact not_mem_encodeForm (by decide) (by decide) (by decide) (by decide) component

def rewritten (component : List UInt8) : List UInt8 :=
  encodeQueryComponent (decodeQueryComponent component)

theorem encodeQueryComponent_eq_nil_iff {component : List UInt8} :
    encodeQueryComponent component = [] ↔ component = [] := by
  constructor
  · intro hnil
    have hread := decodeForm_encodeQueryComponent component
    rw [hnil] at hread
    exact hread.symm
  · rintro rfl
    rfl

theorem decodeQueryComponent_eq_nil_iff {component : List UInt8} :
    decodeQueryComponent component = [] ↔ component = [] := by
  fun_cases decodeQueryComponent component <;> simp_all

/-! ### The query -/

/-- The parameters of a query that are sent, as they were given. -/
def sentPairs (query : List UInt8) : List (List UInt8 × List UInt8) :=
  ((split query '&'.toUInt8).map splitPart).filter (·.1 ≠ [])

/-- Blanks at the end of a part are lost. -/
theorem trim_part {first : UInt8} (h : isSpaceOrTab first = false) (name value : List UInt8) :
    trim (first :: name ++ equals :: value) =
      first :: name ++ equals :: value.rdropWhile isSpaceOrTab := by
  have hfirst : (first :: name ++ equals :: value).dropWhile isSpaceOrTab =
      first :: name ++ equals :: value := List.dropWhile_cons_of_neg (by simp [h])
  rw [trim, hfirst]
  induction value using List.reverseRecOn with
  | nil => exact List.rdropWhile_concat_neg _ _ _ (by decide)
  | append_singleton value c ih =>
    have hassoc : first :: name ++ equals :: (value ++ [c]) =
        (first :: name ++ equals :: value) ++ [c] := by
      simp
    have hvalue : (first :: name ++ equals :: value).dropWhile isSpaceOrTab =
        first :: name ++ equals :: value := List.dropWhile_cons_of_neg (by simp [h])
    rw [hassoc, List.rdropWhile_concat, List.rdropWhile_concat, ih hvalue]
    split_ifs
    · rfl
    · simp

section

variable {first : UInt8} {name : List UInt8} (hfirst : isSpaceOrTab first = false)
  (hseparator : ampersand ∉ first :: name) (hequals : equals ∉ first :: name)

include hfirst hseparator

theorem split_cons {value : List UInt8} (h : ampersand ∉ value) (rest : List UInt8) :
    split (first :: name ++ equals :: value ++ ampersand :: rest) '&'.toUInt8 =
      (first :: name ++ equals :: value.rdropWhile isSpaceOrTab) :: split rest '&'.toUInt8 := by
  have hsplit : (first :: name ++ equals :: value ++ ampersand :: rest).splitOn '&'.toUInt8 =
      (first :: name ++ equals :: value) :: rest.splitOn ampersand :=
    List.splitOn_append_cons_self_of_not_mem (not_mem_part hseparator h) rest
  unfold split
  rw [hsplit, List.map_cons, trim_part hfirst, List.filter_cons, if_pos (by simp)]
  rfl

theorem split_singleton {value : List UInt8} (h : ampersand ∉ value) :
    split (first :: name ++ equals :: value) '&'.toUInt8 =
      [first :: name ++ equals :: value.rdropWhile isSpaceOrTab] := by
  have hsplit : (first :: name ++ equals :: value).splitOn '&'.toUInt8 =
      [first :: name ++ equals :: value] :=
    List.splitOn_eq_singleton (not_mem_part hseparator h)
  unfold split
  rw [hsplit, List.map_singleton, trim_part hfirst, List.filter_cons, if_pos (by simp),
    List.filter_nil]

include hequals

theorem sentPairs_cons {value : List UInt8} (h : ampersand ∉ value) (rest : List UInt8) :
    sentPairs (first :: name ++ equals :: value ++ ampersand :: rest) =
      (first :: name, value.rdropWhile isSpaceOrTab) :: sentPairs rest := by
  unfold sentPairs
  rw [split_cons hfirst hseparator h, List.map_cons, splitPart_append hequals, List.filter_cons,
    if_pos (by simp)]

theorem sentPairs_singleton {value : List UInt8} (h : ampersand ∉ value) :
    sentPairs (first :: name ++ equals :: value) =
      [(first :: name, value.rdropWhile isSpaceOrTab)] := by
  unfold sentPairs
  rw [split_singleton hfirst hseparator h, List.map_singleton, splitPart_append hequals,
    List.filter_cons, if_pos (by simp), List.filter_nil]

end

theorem rdropWhile_of_no_blank {value : List UInt8} (h : ∀ c ∈ value, isSpaceOrTab c = false) :
    value.rdropWhile isSpaceOrTab = value := by
  rw [List.rdropWhile_eq_self_iff]
  intro hne
  rw [h _ (List.getLast_mem hne)]
  exact Bool.false_ne_true

theorem normalizePart_pair {name : List UInt8} (hne : name ≠ []) (hequals : equals ∉ name)
    (value : List UInt8) :
    normalizePart (name ++ equals :: value) =
      some (rewritten name ++ equals :: rewritten value) := by
  have hmem : '='.toUInt8 ∈ name ++ equals :: value := List.mem_append_right _ List.mem_cons_self
  unfold normalizePart
  rw [splitPart_append hequals]
  dsimp only
  rw [if_neg hne, if_pos (by simp [hmem])]
  rfl

theorem normalizePart_eq (span : List UInt8) :
    normalizePart span = none ∧ (splitPart span).1 = [] ∨
      ∃ part, normalizePart span = some part ∧ (splitPart span).1 ≠ [] ∧ part ≠ [] ∧
        ampersand ∉ part ∧
        splitPart part = (rewritten (splitPart span).1, rewritten (splitPart span).2) := by
  unfold normalizePart
  by_cases hkey : (splitPart span).1 = []
  · exact .inl ⟨if_pos hkey, hkey⟩
  · right
    have hname : rewritten (splitPart span).1 ≠ [] := by
      rw [rewritten, ne_eq, encodeQueryComponent_eq_nil_iff, decodeQueryComponent_eq_nil_iff]
      exact hkey
    have hampersand (component : List UInt8) : ampersand ∉ rewritten component :=
      not_mem_encodeQueryComponent (.inl rfl) _
    have hequals (component : List UInt8) : equals ∉ rewritten component :=
      not_mem_encodeQueryComponent (.inr rfl) _
    dsimp only
    rw [if_neg hkey]
    refine ⟨_, rfl, hkey, List.append_ne_nil_of_left_ne_nil hname _, ?_⟩
    by_cases hval : ((splitPart span).2 ≠ [] || '='.toUInt8 ∈ span) = true
    · rw [if_pos hval]
      exact ⟨not_mem_part (hampersand _) (hampersand _), splitPart_append (hequals _) _⟩
    · rw [if_neg hval, List.append_nil]
      refine ⟨hampersand _, ?_⟩
      have hnone : (splitPart span).2 = [] := by
        by_contra hne
        exact hval (by simp [hne])
      rw [hnone]
      exact splitPart_of_not_mem (hequals _)

theorem intercalate_cons (first : List UInt8) (parts : List (List UInt8)) :
    [ampersand].intercalate (first :: parts) = first ++ parts.flatMap (ampersand :: ·) := by
  induction parts generalizing first with
  | nil => simp
  | cons part parts ih =>
    rw [List.intercalate_cons_cons, ih, List.flatMap_cons, List.append_assoc]
    rfl

theorem normalizeQueryString_eq (query : List UInt8) :
    normalizeQueryString query =
      [ampersand].intercalate ((split query '&'.toUInt8).filterMap normalizePart) := by
  have hnone {result span : List UInt8} (h : normalizePart span = none) :
      appendPart result span = result := by
    simp only [appendPart, h]
  have hsome {result span part : List UInt8} (h : normalizePart span = some part) :
      appendPart result span = (if result = [] then result else result ++ [ampersand]) ++ part := by
    simp only [appendPart, h]
    rfl
  -- the loop, from a text that is not empty
  have hloop (spans : List (List UInt8)) (result : List UInt8) (hne : result ≠ []) :
      spans.foldl appendPart result =
        result ++ (spans.filterMap normalizePart).flatMap (ampersand :: ·) := by
    induction spans generalizing result with
    | nil => simp
    | cons span spans ih =>
      rw [List.foldl_cons]
      cases hpart : normalizePart span with
      | none => rw [List.filterMap_cons_none hpart, hnone hpart, ih _ hne]
      | some part =>
        have hnext : (result ++ [ampersand]) ++ part ≠ [] := by simp
        rw [List.filterMap_cons_some hpart, hsome hpart, List.flatMap_cons, if_neg hne, ih _ hnext]
        simp
  unfold normalizeQueryString
  generalize split query '&'.toUInt8 = spans
  induction spans with
  | nil => rfl
  | cons span spans ih =>
    rw [List.foldl_cons]
    rcases normalizePart_eq span with ⟨hskip, -⟩ | ⟨part, hpart, -, hne, -, -⟩
    · rw [List.filterMap_cons_none hskip, ← ih, hnone hskip]
    · rw [List.filterMap_cons_some hpart, intercalate_cons, hsome hpart, if_pos rfl,
        List.nil_append, hloop _ _ hne]

/-- Names and values are written anew, one by one. -/
theorem rawQuery_normalizeQueryString {query : List UInt8} (h : sentPairs query ≠ []) :
    rawQuery (normalizeQueryString query) =
      (sentPairs query).map (Prod.map rewritten rewritten) := by
  have hparts (spans : List (List UInt8)) :
      (∀ part ∈ spans.filterMap normalizePart, ampersand ∉ part) ∧
        (spans.filterMap normalizePart).map splitPart =
          ((spans.map splitPart).filter (·.1 ≠ [])).map (Prod.map rewritten rewritten) := by
    induction spans with
    | nil => exact ⟨fun _ hm => (by cases hm), rfl⟩
    | cons span spans ih =>
      obtain ⟨hmem, hmap⟩ := ih
      rw [List.map_cons]
      rcases normalizePart_eq span with ⟨hnone, hkey⟩ | ⟨part, hsome, hkey, -, hpart, hpair⟩
      · rw [List.filterMap_cons_none hnone, List.filter_cons, if_neg (by simpa using hkey)]
        exact ⟨hmem, hmap⟩
      · rw [List.filterMap_cons_some hsome, List.filter_cons, if_pos (by simpa using hkey),
          List.map_cons, List.map_cons, hmap, hpair]
        exact ⟨List.forall_mem_cons.mpr ⟨hpart, hmem⟩, rfl⟩
  obtain ⟨hmem, hmap⟩ := hparts (split query '&'.toUInt8)
  have hne : (split query '&'.toUInt8).filterMap normalizePart ≠ [] := by
    intro hnil
    rw [hnil, List.map_nil] at hmap
    exact h (List.map_eq_nil_iff.mp hmap.symm)
  rw [normalizeQueryString_eq, rawQuery_intercalate hmem hne, hmap]
  rfl

/-- Read as form data, the query has the parameters it was given. -/
theorem decodeFormQuery_normalizeQueryString {query : List UInt8} (h : sentPairs query ≠ []) :
    decodeFormQuery (normalizeQueryString query) =
      (sentPairs query).map (Prod.map decodeForm decodeForm) := by
  have hread (component : List UInt8) :
      decodeForm (rewritten component) = decodeForm component := by
    rw [rewritten, decodeForm_encodeQueryComponent, decodeQueryComponent_eq]
  rw [decodeFormQuery, rawQuery_normalizeQueryString h, List.map_map]
  congr 1
  funext ⟨key, val⟩
  simp only [Function.comp_apply, Prod.map_apply, hread]

/-- Read as usual, it has a plus sign for every space. -/
theorem decodeQuery_normalizeQueryString {query : List UInt8} (h : sentPairs query ≠ []) :
    decodeQuery (normalizeQueryString query) =
      (sentPairs query).map fun pair =>
        ((decodeForm pair.1).map plussed, (decodeForm pair.2).map plussed) := by
  have hread (component : List UInt8) :
      decode (rewritten component) = (decodeForm component).map plussed := by
    rw [rewritten, decode_encodeQueryComponent, decodeQueryComponent_eq]
  rw [decodeQuery, rawQuery_normalizeQueryString h, List.map_map]
  congr 1
  funext ⟨key, val⟩
  simp only [Function.comp_apply, Prod.map_apply, hread]

theorem queryPart_append {path : List UInt8} (h : '?'.toUInt8 ∉ path) (query : List UInt8) :
    queryPart (path ++ '?'.toUInt8 :: query) = query := by
  have hpath : ∀ c ∈ path, decide (c ≠ '?'.toUInt8) = true := by
    intro c hc
    have hne : c ≠ '?'.toUInt8 := fun he => h (he ▸ hc)
    simpa using hne
  unfold queryPart
  rw [List.dropWhile_append_of_pos hpath]
  simp

theorem question_not_mem_encodePath {path : List UInt8} (h : '?'.toUInt8 ∉ path) :
    '?'.toUInt8 ∉ encodePath path := by
  have hall : ∀ n : Fin 256, UInt8.ofFin n ≠ '?'.toUInt8 →
      '?'.toUInt8 ∉ encodePathByte (UInt8.ofFin n) := by
    decide +kernel
  intro hmem
  obtain ⟨c, hc, hcode⟩ := List.mem_flatMap.mp hmem
  have hpath : c ∈ path := List.takeWhile_subset _ hc
  have hne : c ≠ '?'.toUInt8 := fun he => h (he ▸ hpath)
  exact hall c.toFin hne hcode

theorem queryPart_encodeRequestTarget (target : List UInt8) :
    queryPart (encodeRequestTarget target) = normalizeQueryString (queryPart target) := by
  have hpath : '?'.toUInt8 ∉ encodePath (target.takeWhile (· ≠ '?'.toUInt8)) := by
    apply question_not_mem_encodePath
    intro hmem
    have hother := List.mem_takeWhile_imp hmem
    simp at hother
  unfold encodeRequestTarget
  dsimp only
  split_ifs with hempty
  · rw [hempty]
    unfold queryPart
    rw [List.dropWhile_eq_nil_iff.mpr]
    · rfl
    · intro c hc
      have hne : c ≠ '?'.toUInt8 := fun he => hpath (he ▸ hc)
      simpa using hne
  · exact queryPart_append hpath _

end Httplib

end ExchangeGateway
