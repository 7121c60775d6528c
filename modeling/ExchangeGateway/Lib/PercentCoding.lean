import Mathlib.Data.List.DropRight
import Mathlib.Data.List.Infix
import Mathlib.Tactic.Common

/-! Percent-coded bytes, and queries made of them. -/
namespace PercentCoding

def percent : UInt8 := 0x25

def ampersand : UInt8 := 0x26

def equals : UInt8 := 0x3D

def plus : UInt8 := 0x2B

def space : UInt8 := 0x20

def hexValue? (c : UInt8) : Option UInt8 :=
  if 0x30 ≤ c ∧ c ≤ 0x39 then some (c - 0x30)
  else if 0x41 ≤ c ∧ c ≤ 0x46 then some (c - 0x41 + 10)
  else if 0x61 ≤ c ∧ c ≤ 0x66 then some (c - 0x61 + 10)
  else none

/-- The byte that three bytes stand for, if they are an escape. -/
def escaped? (c high low : UInt8) : Option UInt8 :=
  if c = percent then
    match hexValue? high, hexValue? low with
    | some high, some low => some (high * 16 + low)
    | _, _ => none
  else none

/-- Every escape is replaced by its byte; a percent sign without two digits stays. -/
def decode : List UInt8 → List UInt8
  | [] => []
  | c :: high :: low :: rest =>
    match escaped? c high low with
    | some byte => byte :: decode rest
    | none => c :: decode (high :: low :: rest)
  | c :: rest => c :: decode rest

def hexDigit (value : UInt8) : UInt8 := if value < 10 then 0x30 + value else 0x41 + (value - 10)

def escape (c : UInt8) : List UInt8 := [percent, hexDigit (c >>> 4), hexDigit (c &&& 0x0F)]

/-- All bytes are escaped but those to keep. -/
def encode (keep : UInt8 → Bool) (value : List UInt8) : List UInt8 :=
  value.flatMap fun c => if keep c then [c] else escape c

/-! ### Decoding what was encoded -/

theorem escaped?_escape (c : UInt8) :
    escaped? percent (hexDigit (c >>> 4)) (hexDigit (c &&& 0x0F)) = some c := by
  have hall : ∀ n : Fin 256, escaped? percent (hexDigit (UInt8.ofFin n >>> 4))
      (hexDigit (UInt8.ofFin n &&& 0x0F)) = some (UInt8.ofFin n) := by
    decide +kernel
  exact hall c.toFin

theorem decode_escape (c : UInt8) (rest : List UInt8) :
    decode (escape c ++ rest) = c :: decode rest := by
  simp only [escape, List.cons_append, List.nil_append, decode, escaped?_escape]

theorem decode_cons {c : UInt8} (h : c ≠ percent) (rest : List UInt8) :
    decode (c :: rest) = c :: decode rest := by
  match rest with
  | [] => rfl
  | [_] => rfl
  | high :: low :: rest =>
    have hnone : escaped? c high low = none := if_neg h
    simp only [decode, hnone]

/-- Bytes that are encoded one by one are decoded one by one. -/
theorem decode_flatMap {table : UInt8 → List UInt8} {f : UInt8 → UInt8}
    (h : ∀ c rest, decode (table c ++ rest) = f c :: decode rest) (value : List UInt8) :
    decode (value.flatMap table) = value.map f := by
  induction value with
  | nil => rfl
  | cons c value ih => rw [List.flatMap_cons, h, ih, List.map_cons]

/-- An encoder that does not keep the percent sign is inverted. -/
theorem decode_encode {keep : UInt8 → Bool} (hkeep : keep percent = false) (value : List UInt8) :
    decode (encode keep value) = value := by
  have htable (c : UInt8) (rest : List UInt8) :
      decode ((if keep c then [c] else escape c) ++ rest) = id c :: decode rest := by
    split_ifs with hc
    · have hne : c ≠ percent := by
        intro he
        rw [he, hkeep] at hc
        cases hc
      exact decode_cons hne rest
    · exact decode_escape c rest
  rw [encode, decode_flatMap htable, List.map_id]

theorem not_mem_encode {keep : UInt8 → Bool} {sep : UInt8} (hkeep : keep sep = false)
    (hescape : ∀ c, sep ∉ escape c) (value : List UInt8) : sep ∉ encode keep value := by
  intro hmem
  obtain ⟨c, -, hc⟩ := List.mem_flatMap.mp hmem
  split_ifs at hc with hkept
  · obtain rfl : sep = c := List.mem_singleton.mp hc
    rw [hkeep] at hkept
    cases hkept
  · exact hescape c hc

/-- An escape is made of digits and the percent sign. -/
theorem not_mem_escape {sep : UInt8} (hpercent : sep ≠ percent) (hdigit : hexValue? sep = none)
    (c : UInt8) : sep ∉ escape c := by
  have hall : ∀ n : Fin 256, (hexValue? (hexDigit (UInt8.ofFin n >>> 4))).isSome ∧
      (hexValue? (hexDigit (UInt8.ofFin n &&& 0x0F))).isSome := by
    decide +kernel
  obtain ⟨hhigh, hlow⟩ := hall c.toFin
  intro hmem
  simp only [escape, List.mem_cons, List.not_mem_nil, or_false] at hmem
  rcases hmem with he | he | he
  · exact hpercent he
  · rw [he] at hdigit
    exact absurd hdigit (Option.isSome_iff_ne_none.mp hhigh)
  · rw [he] at hdigit
    exact absurd hdigit (Option.isSome_iff_ne_none.mp hlow)

/-- Two encodings agree if and only if they agree byte by byte, when different codes of a byte
start with different bytes. -/
theorem flatMap_eq_flatMap_iff {table table' : UInt8 → List UInt8}
    (hne : ∀ c, table c ≠ [] ∧ table' c ≠ [])
    (hcodes : ∀ c, table c = table' c ∨ (table c).head? ≠ (table' c).head?) (value : List UInt8) :
    value.flatMap table = value.flatMap table' ↔ ∀ c ∈ value, table c = table' c := by
  induction value with
  | nil => simp
  | cons c value ih =>
    rw [List.flatMap_cons, List.flatMap_cons, List.forall_mem_cons, ← ih]
    rcases hcodes c with hsame | hdiffer
    · rw [hsame, List.append_cancel_left_eq, and_iff_right rfl]
    · constructor
      · intro hjoined
        have hheads := congrArg List.head? hjoined
        rw [List.head?_append_of_ne_nil _ (hne c).1, List.head?_append_of_ne_nil _ (hne c).2]
          at hheads
        exact absurd hheads hdiffer
      · rintro ⟨hsame, -⟩
        exact absurd (congrArg List.head? hsame) hdiffer

/-! ### What decoding leaves alone -/

def HasEscape (value : List UInt8) : Prop :=
  ∃ high low, (hexValue? high).isSome ∧ (hexValue? low).isSome ∧ [percent, high, low] <:+: value

theorem escaped?_isSome_iff {c high low : UInt8} :
    (escaped? c high low).isSome ↔
      c = percent ∧ (hexValue? high).isSome ∧ (hexValue? low).isSome := by
  unfold escaped?
  split_ifs with hc
  · cases hexValue? high <;> cases hexValue? low <;> simp [hc]
  · simp [hc]

theorem length_decode_le (value : List UInt8) : (decode value).length ≤ value.length := by
  fun_induction decode value with
  | case1 => simp
  | case2 c high low rest byte hbyte ih =>
    simp only [List.length_cons]
    omega
  | case3 c high low rest hnone ih =>
    simp only [List.length_cons] at ih ⊢
    omega
  | case4 c rest hshort ih =>
    simp only [List.length_cons]
    omega

theorem hasEscape_cons_of_escaped {c high low : UInt8} (rest : List UInt8)
    (h : (escaped? c high low).isSome) : HasEscape (c :: high :: low :: rest) := by
  obtain ⟨rfl, hhigh, hlow⟩ := escaped?_isSome_iff.mp h
  exact ⟨high, low, hhigh, hlow, [], rest, rfl⟩

theorem hasEscape_cons (c : UInt8) {rest : List UInt8} (h : HasEscape rest) :
    HasEscape (c :: rest) := by
  obtain ⟨high, low, hhigh, hlow, hinfix⟩ := h
  exact ⟨high, low, hhigh, hlow, List.infix_cons hinfix⟩

/-- A byte that starts no escape does not matter. -/
theorem hasEscape_cons_iff {c : UInt8} {rest : List UInt8}
    (h : ∀ high low post, rest = high :: low :: post → escaped? c high low = none) :
    HasEscape (c :: rest) ↔ HasEscape rest := by
  constructor
  · intro ⟨high, low, hhigh, hlow, hinfix⟩
    rcases List.infix_cons_iff.mp hinfix with ⟨post, hprefix⟩ | hrest
    · obtain ⟨hc, hpost⟩ := List.cons.inj hprefix
      have hsome : (escaped? c high low).isSome :=
        escaped?_isSome_iff.mpr ⟨hc.symm, hhigh, hlow⟩
      rw [h high low post hpost.symm] at hsome
      cases hsome
    · exact ⟨high, low, hhigh, hlow, hrest⟩
  · exact hasEscape_cons c

/-- Decoding shortens a value if and only if it has an escape. -/
theorem length_decode_eq_iff (value : List UInt8) :
    (decode value).length = value.length ↔ ¬ HasEscape value := by
  fun_induction decode value with
  | case1 =>
    have hnone : ¬ HasEscape [] := by
      intro ⟨high, low, _, _, hinfix⟩
      cases List.infix_nil.mp hinfix
    simp [hnone]
  | case2 c high low rest byte hbyte ih =>
    have hescape := hasEscape_cons_of_escaped rest (Option.isSome_of_eq_some hbyte)
    have hlength := length_decode_le rest
    constructor
    · intro hlengths
      simp only [List.length_cons] at hlengths
      omega
    · intro hno
      exact absurd hescape hno
  | case3 c high low rest hnone ih =>
    have hcons : HasEscape (c :: high :: low :: rest) ↔ HasEscape (high :: low :: rest) := by
      apply hasEscape_cons_iff
      intro high' low' post hpost
      cases hpost
      exact hnone
    rw [hcons, ← ih, List.length_cons, List.length_cons, Nat.add_right_cancel_iff]
  | case4 c rest hshort ih =>
    have hcons : HasEscape (c :: rest) ↔ HasEscape rest := by
      apply hasEscape_cons_iff
      intro high low post hpost
      exact absurd hpost (hshort high low post)
    rw [hcons, ← ih, List.length_cons, List.length_cons, Nat.add_right_cancel_iff]

/-- Without an escape a value is its own decoding. -/
theorem decode_of_not_hasEscape {value : List UInt8} (h : ¬ HasEscape value) :
    decode value = value := by
  fun_induction decode value with
  | case1 => rfl
  | case2 c high low rest byte hbyte =>
    exact absurd (hasEscape_cons_of_escaped rest (Option.isSome_of_eq_some hbyte)) h
  | case3 c high low rest hnone ih =>
    have hrest := mt (hasEscape_cons c) h
    rw [ih hrest]
  | case4 c rest hshort ih =>
    have hrest := mt (hasEscape_cons c) h
    rw [ih hrest]

/-! ### Form data -/

/-- In form data a plus sign is a space. -/
def spaced (c : UInt8) : UInt8 := if c = plus then space else c

def plussed (c : UInt8) : UInt8 := if c = space then plus else c

def decodeForm (value : List UInt8) : List UInt8 := decode (value.map spaced)

/-- All bytes are escaped but the space and those to keep. -/
def encodeForm (keep : UInt8 → Bool) (value : List UInt8) : List UInt8 :=
  value.flatMap fun c => if keep c then [c] else if c = space then [plus] else escape c

theorem map_spaced_of_not_mem {value : List UInt8} (h : plus ∉ value) :
    value.map spaced = value := by
  have hsame : ∀ c ∈ value, spaced c = id c := by
    intro c hc
    have hne : c ≠ plus := fun he => h (he ▸ hc)
    exact if_neg hne
  rw [List.map_congr_left hsame, List.map_id]

/-- A plus sign apart, form data are decoded as usual. -/
theorem decodeForm_of_not_mem {value : List UInt8} (h : plus ∉ value) :
    decodeForm value = decode value := by
  rw [decodeForm, map_spaced_of_not_mem h]

theorem spaced_eq_percent_iff (c : UInt8) : spaced c = percent ↔ c = percent := by
  have hall : ∀ n : Fin 256, spaced (UInt8.ofFin n) = percent ↔ UInt8.ofFin n = percent := by
    decide +kernel
  exact hall c.toFin

theorem hexValue?_spaced (c : UInt8) : hexValue? (spaced c) = hexValue? c := by
  have hall : ∀ n : Fin 256, hexValue? (spaced (UInt8.ofFin n)) = hexValue? (UInt8.ofFin n) := by
    decide +kernel
  exact hall c.toFin

theorem escaped?_spaced (c high low : UInt8) :
    escaped? (spaced c) (spaced high) (spaced low) = escaped? c high low := by
  unfold escaped?
  simp only [spaced_eq_percent_iff, hexValue?_spaced]

theorem hasEscape_map_spaced_iff (value : List UInt8) :
    HasEscape (value.map spaced) ↔ HasEscape value := by
  constructor
  · rintro ⟨high, low, hhigh, hlow, hinfix⟩
    obtain ⟨part, hpart, hmap⟩ := List.infix_map_iff.mp hinfix
    obtain ⟨c, rest, rfl, hc, hrest⟩ := List.map_eq_cons_iff.mp hmap.symm
    obtain ⟨c', rest', rfl, rfl, hrest'⟩ := List.map_eq_cons_iff.mp hrest
    obtain ⟨c'', rest'', rfl, rfl, hnil⟩ := List.map_eq_cons_iff.mp hrest'
    rw [List.map_eq_nil_iff.mp hnil, (spaced_eq_percent_iff c).mp hc] at hpart
    rw [hexValue?_spaced] at hhigh hlow
    exact ⟨c', c'', hhigh, hlow, hpart⟩
  · rintro ⟨high, low, hhigh, hlow, hinfix⟩
    refine ⟨spaced high, spaced low, ?_, ?_, hinfix.map spaced⟩
    · rw [hexValue?_spaced]
      exact hhigh
    · rw [hexValue?_spaced]
      exact hlow

section

variable {keep : UInt8 → Bool} (hpercent : keep percent = false)

include hpercent

/-- Read as usual, an encoded form has a plus sign for every space. -/
theorem decode_encodeForm (hspace : keep space = false) (value : List UInt8) :
    decode (encodeForm keep value) = value.map plussed := by
  apply decode_flatMap
  intro c rest
  by_cases hc : c = space
  · rw [hc, if_neg (by rw [hspace]; exact Bool.false_ne_true), if_pos rfl]
    exact decode_cons (by decide) rest
  · have hplain : plussed c = c := if_neg hc
    rw [if_neg hc, hplain]
    split_ifs with hkept
    · have hne : c ≠ percent := by
        intro he
        rw [he, hpercent] at hkept
        cases hkept
      exact decode_cons hne rest
    · exact decode_escape c rest

/-- Form data are read back. -/
theorem decodeForm_encodeForm (hplus : keep plus = false) (value : List UInt8) :
    decodeForm (encodeForm keep value) = value := by
  have hescape (c : UInt8) : (escape c).map spaced = escape c :=
    map_spaced_of_not_mem (not_mem_escape (by decide) (by decide) c)
  have htable (c : UInt8) (rest : List UInt8) :
      decode ((if keep c then [c] else if c = space then [plus] else escape c).map spaced ++ rest) =
        id c :: decode rest := by
    by_cases hkept : keep c
    · have hplain : spaced c = c := by
        apply if_neg
        intro he
        rw [he, hplus] at hkept
        cases hkept
      have hne : c ≠ percent := by
        intro he
        rw [he, hpercent] at hkept
        cases hkept
      rw [if_pos hkept, List.map_singleton, hplain]
      exact decode_cons hne rest
    · rw [if_neg hkept]
      by_cases hc : c = space
      · rw [if_pos hc, hc]
        exact decode_cons (by decide) rest
      · rw [if_neg hc, hescape]
        exact decode_escape c rest
  rw [decodeForm, encodeForm, List.map_flatMap, decode_flatMap htable, List.map_id]

end

theorem not_mem_encodeForm {keep : UInt8 → Bool} {sep : UInt8} (hkeep : keep sep = false)
    (hplus : sep ≠ plus) (hpercent : sep ≠ percent) (hdigit : hexValue? sep = none)
    (value : List UInt8) : sep ∉ encodeForm keep value := by
  intro hmem
  obtain ⟨c, -, hc⟩ := List.mem_flatMap.mp hmem
  split_ifs at hc with hkept
  · obtain rfl : sep = c := List.mem_singleton.mp hc
    rw [hkeep] at hkept
    cases hkept
  · exact hplus (List.mem_singleton.mp hc)
  · exact not_mem_escape hpercent hdigit c hc

/-! ### Queries -/

/-- Name and value of a part, at its first equals sign. -/
def splitPart (part : List UInt8) : List UInt8 × List UInt8 :=
  (part.takeWhile (· ≠ equals), (part.dropWhile (· ≠ equals)).tail)

/-- The parameters of a query as they are written. -/
def rawQuery (query : List UInt8) : List (List UInt8 × List UInt8) :=
  (query.splitOn ampersand).map splitPart

def decodeQuery (query : List UInt8) : List (List UInt8 × List UInt8) :=
  (rawQuery query).map (Prod.map decode decode)

def decodeFormQuery (query : List UInt8) : List (List UInt8 × List UInt8) :=
  (rawQuery query).map (Prod.map decodeForm decodeForm)

theorem splitPart_append {name : List UInt8} (h : equals ∉ name) (value : List UInt8) :
    splitPart (name ++ equals :: value) = (name, value) := by
  have hname : ∀ c ∈ name, decide (c ≠ equals) = true := by
    intro c hc
    have hne : c ≠ equals := fun he => h (he ▸ hc)
    simpa using hne
  unfold splitPart
  rw [List.takeWhile_append_of_pos hname, List.dropWhile_append_of_pos hname]
  simp

theorem splitPart_of_not_mem {part : List UInt8} (h : equals ∉ part) :
    splitPart part = (part, []) := by
  have hpart : ∀ c ∈ part, decide (c ≠ equals) = true := by
    intro c hc
    have hne : c ≠ equals := fun he => h (he ▸ hc)
    simpa using hne
  unfold splitPart
  rw [List.takeWhile_eq_self_iff.mpr hpart, List.dropWhile_eq_nil_iff.mpr hpart]
  rfl

theorem not_mem_part {name value : List UInt8} (hname : ampersand ∉ name)
    (hvalue : ampersand ∉ value) : ampersand ∉ name ++ equals :: value := by
  have hne : ampersand ≠ equals := by decide
  simp [hname, hne, hvalue]

theorem rawQuery_intercalate {parts : List (List UInt8)} (h : ∀ part ∈ parts, ampersand ∉ part)
    (hne : parts ≠ []) : rawQuery ([ampersand].intercalate parts) = parts.map splitPart := by
  rw [rawQuery, List.splitOn_intercalate ampersand h hne]

end PercentCoding
