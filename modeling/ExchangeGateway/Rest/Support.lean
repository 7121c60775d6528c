import ExchangeGateway.Connector
import ExchangeGateway.Json

/-! Helpers shared by the routes (`rest/route_support.hpp`): responses, the error envelope, field
access and field checks. -/
namespace ExchangeGateway.Rest

structure Response where
  status : ℕ
  body : Json

def errorResponse (status : ℕ) (code reason clientOrderId : String) : Response where
  status := status
  body := .obj [("error", .obj [("code", .str code), ("reason", .str reason),
    ("clientOrderId", .str clientOrderId)])]

/-- Most checks answer with this. -/
def invalidRequest (reason clientOrderId : String) : Response :=
  errorResponse 400 "invalid_request" reason clientOrderId

/-- The loop of `is_decimal`. -/
def scanPlain : List Char → Bool → Bool
  | [], _ => true
  | c :: rest, dotSeen =>
    if c = '.' then !dotSeen && scanPlain rest true
    else if c < '0' || c > '9' then false
    else scanPlain rest dotSeen

/-- Plain decimal: no sign, no exponent, digits on both sides of at most one dot. -/
def isDecimal (text : String) : Bool :=
  !(text = "" || text.toList.head? = some '.') && scanPlain text.toList false &&
    text.toList.getLast? != some '.'

def names : Json → List String
  | .obj fields => fields.map (·.1)
  | _ => []

/-- Separated by commas, as a loop that looks at the text so far writes them. -/
def joinNames (items : List String) : String :=
  items.foldl (fun text item => (if text = "" then text else text ++ ", ") ++ item) ""

def unknownFields (body : Json) (allowed : List String) : String :=
  joinNames ((names body).filter (· ∉ allowed))

def stringField (body : Json) (name : String) : String :=
  match body.find? name with
  | some (.str text) => text
  | _ => ""

/-- Absent, null and values of another type are all `none`. -/
def optionalStringField (body : Json) (name : String) : Option String :=
  match body.find? name with
  | some (.str text) => some text
  | _ => none

def parseJsonBody (library : Json.Library) (text : String) : Except Response Json :=
  match library.parse text with
  | some (.obj fields) => .ok (.obj fields)
  | _ => .error (invalidRequest "request body must be a JSON object" "")

/-- The response of a handler, and what it called the OMS with: its checks come first. -/
def answer {α : Type} (checked : Except Response α) (call : α → Response) : Response × Option α :=
  match checked with
  | .error response => (response, none)
  | .ok passed => (call passed, some passed)

/-- Errors of the OMS and the connectors as responses. -/
def mapError (error : Error) (clientOrderId : String) : Response :=
  if error.code = "invalid_request" then
    errorResponse 400 "invalid_request" error.message clientOrderId
  else if error.code = "not_found" || error.code = "venue:51016" || error.code = "venue:-2013" ||
      error.code = "venue:51603" then
    errorResponse 404 "not_found" error.message clientOrderId
  else if error.code = "order_terminal" then
    errorResponse 409 "order_terminal" error.message clientOrderId
  else if error.code = "order_pending" then
    errorResponse 409 "order_pending" error.message clientOrderId
  else if "risk_".toList <+: error.code.toList then
    errorResponse 400 error.code error.message clientOrderId
  else if error.code = "venue_absent" then
    errorResponse 409 "venue_rejected" error.message clientOrderId
  else if error.code = "transport" then
    errorResponse 502 "venue_unavailable" "cannot reach the venue" clientOrderId
  else if "venue:".toList <+: error.code.toList then
    errorResponse 409 "venue_rejected" error.message clientOrderId
  else if error.code = "persistence" then
    errorResponse 500 "persistence" error.message clientOrderId
  else errorResponse 500 "internal" error.message clientOrderId

/-! ### Checks of a request -/

def require (ok : Bool) (response : Response) : Except Response Unit :=
  if ok then .ok () else .error response

/-- A value a check parses, or an answer. -/
def orAnswer {α : Type} (value : Option α) (response : Response) : Except Response α :=
  match value with
  | some value => .ok value
  | none => .error response

section

variable {α β : Type} {response : Response}

theorem require_ok {ok : Bool} {u : Unit} : require ok response = .ok u ↔ ok = true := by
  cases ok <;> simp [require]

theorem orAnswer_ok {value : Option α} {a : α} :
    orAnswer value response = .ok a ↔ value = some a := by
  cases value <;> simp [orAnswer]

/-- Every answer given instead of going on has status 400. -/
def Refuses (result : Except Response α) : Prop :=
  ∀ response, result = .error response → response.status = 400

theorem refuses_ok (a : α) : Refuses (.ok a) := nofun

theorem refuses_invalidRequest (reason clientOrderId : String) :
    Refuses (.error (invalidRequest reason clientOrderId) : Except Response α) := by
  intro response h
  rw [← Except.error.inj h]
  rfl

theorem Refuses.bind {first : Except Response α} {next : α → Except Response β}
    (hfirst : Refuses first) (hnext : ∀ a, Refuses (next a)) : Refuses (first >>= next) := by
  cases first with
  | error response =>
    intro response' h
    exact hfirst response' (by rw [← Except.error.inj h])
  | ok a => exact hnext a

theorem refuses_require (ok : Bool) (reason clientOrderId : String) :
    Refuses (require ok (invalidRequest reason clientOrderId)) := by
  cases ok with
  | false => exact refuses_invalidRequest _ _
  | true => exact refuses_ok _

theorem refuses_orAnswer (value : Option α) (reason clientOrderId : String) :
    Refuses (orAnswer value (invalidRequest reason clientOrderId)) := by
  cases value with
  | none => exact refuses_invalidRequest _ _
  | some a => exact refuses_ok _

theorem refuses_parseJsonBody (library : Json.Library) (text : String) :
    Refuses (parseJsonBody library text) := by
  unfold parseJsonBody
  split
  · exact refuses_ok _
  · exact refuses_invalidRequest _ _

end

/-! ### Fields -/

theorem stringField_of_find? {body : Json} {name text : String}
    (h : body.find? name = some (.str text)) : stringField body name = text := by
  rw [stringField, h]

/-- A text that is not empty was a field. -/
theorem find?_of_stringField {body : Json} {name : String} (h : stringField body name ≠ "") :
    body.find? name = some (.str (stringField body name)) := by
  unfold stringField at h ⊢
  split at h
  · rename_i text hfind
    rw [hfind]
  · exact absurd rfl h

theorem optionalStringField_eq_some {body : Json} {name text : String} :
    optionalStringField body name = some text ↔ body.find? name = some (.str text) := by
  unfold optionalStringField
  split
  · rename_i value hfind
    rw [hfind]
    simp
  · rename_i hnone
    constructor
    · intro h
      cases h
    · intro h
      exact absurd h (hnone text)

theorem joinNames_eq_empty {items : List String} :
    joinNames items = "" ↔ ∀ item ∈ items, item = "" := by
  -- the loop, from any text so far
  have hloop (text : String) :
      items.foldl (fun text item => (if text = "" then text else text ++ ", ") ++ item) text = "" ↔
        text = "" ∧ ∀ item ∈ items, item = "" := by
    induction items generalizing text with
    | nil => simp
    | cons item items ih =>
      rw [List.foldl_cons, ih, String.append_eq_empty_iff, List.forall_mem_cons, ← and_assoc]
      by_cases htext : text = "" <;> simp [htext]
  rw [joinNames, hloop, and_iff_right rfl]

/-- The text of the unknown names is empty also when their only name is the empty one. -/
theorem unknownFields_eq_empty {body : Json} {allowed : List String} :
    unknownFields body allowed = "" ↔ ∀ name ∈ names body, name ∈ allowed ∨ name = "" := by
  rw [unknownFields, joinNames_eq_empty]
  simp only [List.mem_filter, decide_eq_true_eq, and_imp]
  exact forall₂_congr fun name _ => or_iff_not_imp_left.symm

theorem mem_names_of_find? {body : Json} {name : String} {value : Json}
    (h : body.find? name = some value) : name ∈ names body := by
  cases body with
  | obj fields =>
    obtain ⟨before, rest, rfl, -⟩ := List.lookup_eq_some_iff.mp h
    simp [names]
  | _ => cases h

end ExchangeGateway.Rest
