import ExchangeGateway.Exchange.Resilient

/-! The place engines against a venue. The venue is a function of what it decides at each request
and of what gets lost on the way; the engine sees its answers only. -/
namespace ExchangeGateway

/-- The decisions of the environment, by the number of the request. -/
structure Environment (absent : Error → Bool) (α ι ρ : Type) where
  /-- A place that is admitted creates an order, or is refused. -/
  place : ℕ → Result α
  /-- Text of the transport error when the answer does not arrive. -/
  lost : ℕ → Option String
  /-- Text of a duplicate rejection. -/
  duplicate : ℕ → String
  lookup : ℕ → LookupAnswer absent ι
  now : ℕ → ℤ
  random01 : ℕ → ρ

/-- The venue's orders by client order id, oldest first, and the requests so far. -/
structure VenueWorld where
  orders : String → List String
  places : ℕ := 0
  lookups : ℕ := 0
  reads : ℕ := 0
  draws : ℕ := 0

/-- How acks and order infos carry the venue's order id. -/
structure Wording (α ι : Type) where
  ackId : α → String
  withId : ι → String → ι
  ack : ι → α
  ackId_ack : ∀ info id, ackId (ack (withId info id)) = id

namespace VenueWorld

variable {absent : Error → Bool} {α ι ρ : Type} (env : Environment absent α ι ρ)

def create (w : VenueWorld) (id orderId : String) : VenueWorld :=
  { w with orders := Function.update w.orders id (w.orders id ++ [orderId]) }

/-- What the venue does with a place. One with a duplicate code refuses a second order under one
client order id. -/
def process (wording : Wording α ι) (duplicateCode : Option String) (id : String)
    (w : VenueWorld) : Result α × VenueWorld :=
  if duplicateCode.isSome ∧ w.orders id ≠ [] then
    (.error ⟨duplicateCode.getD "", env.duplicate w.places⟩, w)
  else
    match env.place w.places with
    | .ok ack => (.ok ack, w.create id (wording.ackId ack))
    | .error error => (.error error, w)

/-- The raw place: the answer may get lost. -/
def place (wording : Wording α ι) (duplicateCode : Option String) (id : String) (w : VenueWorld) :
    Result α × VenueWorld :=
  let (answer, after) := w.process env wording duplicateCode id
  ((env.lost w.places).elim answer fun message => .error ⟨"transport", message⟩,
    { after with places := w.places + 1 })

/-- The raw lookup: truthful about the newest order under the id, or failed. -/
def getOrder (wording : Wording α ι) (id : String) (w : VenueWorld) :
    Result (Option ι) × VenueWorld :=
  (match env.lookup w.lookups with
    | .failed error _ => .error error
    | .answered info absence =>
      match (w.orders id).getLast?, absence with
      | some orderId, _ => .ok (some (wording.withId info orderId))
      | none, none => .ok none
      | none, some error => .error error,
    { w with lookups := w.lookups + 1 })

def clock : RetryClock ρ VenueWorld where
  now w := (env.now w.reads, { w with reads := w.reads + 1 })
  sleep _ w := w
  random01 w := (env.random01 w.draws, { w with draws := w.draws + 1 })

/-! ### The lookup -/

variable (wording : Wording α ι) (id : String)

structure Tells (wording : Wording α ι) (id : String) (orders : String → List String)
    (lookup : Lookup ι) : Prop where
  found : ∀ info, lookup = .found info →
    (orders id).getLast? = some (wording.ackId (wording.ack info))
  absent : lookup = .absent → orders id = []

private theorem tells_inconclusive (orders : String → List String) (error : Error) :
    Tells wording id orders (.inconclusive error) :=
  ⟨fun _ h => (by cases h), fun h => (by cases h)⟩

private theorem tells_absent {orders : String → List String} (h : orders id = []) :
    Tells wording id orders .absent :=
  ⟨fun _ h => (by cases h), fun _ => h⟩

private theorem tells_found {orders : String → List String} {orderId : String}
    (h : (orders id).getLast? = some orderId) (info : ι) :
    Tells wording id orders (.found (wording.withId info orderId)) := by
  refine ⟨fun found he => ?_, fun h => by cases h⟩
  cases he
  rw [h, wording.ackId_ack]

theorem clock_keeps (orders : String → List String) (places : ℕ) :
    (clock env).Keeps fun w => w.orders = orders ∧ w.places = places :=
  fun _ h => ⟨h, h, fun _ => h⟩

private theorem lookupAttempt_tells (w : VenueWorld) :
    (lookupAttempt absent (getOrder env wording id) w).2 = { w with lookups := w.lookups + 1 } ∧
      ∀ lookup, (lookupAttempt absent (getOrder env wording id) w).1 = .ok lookup →
        Tells wording id w.orders lookup := by
  cases ha : env.lookup w.lookups with
  | failed error h =>
    by_cases ht : error.code = "transport"
    · simp [lookupAttempt, getOrder, ha, h, ht]
    · simp only [lookupAttempt, getOrder, ha, h, ht, if_false, Bool.false_eq_true, true_and,
        Except.ok.injEq]
      rintro lookup rfl
      exact tells_inconclusive wording id _ _
  | answered info absence =>
    cases ho : (w.orders id).getLast? with
    | some orderId =>
      simp only [lookupAttempt, getOrder, ha, ho, true_and, Except.ok.injEq]
      rintro lookup rfl
      exact tells_found wording id ho info
    | none =>
      have hnone : w.orders id = [] := List.getLast?_eq_none_iff.mp ho
      cases absence with
      | none =>
        simp only [lookupAttempt, getOrder, ha, ho, true_and, Except.ok.injEq]
        rintro lookup rfl
        exact tells_absent wording id hnone
      | some error =>
        simp only [lookupAttempt, getOrder, ha, ho, error.2, if_true, true_and, Except.ok.injEq]
        rintro lookup rfl
        exact tells_absent wording id hnone

/-- A retried lookup changes nothing on the venue and tells the truth. -/
theorem lookupWith_tells (policy : RetryPolicy ρ) (w : VenueWorld) :
    (lookupWith policy (clock env) absent (getOrder env wording id) w).2.orders = w.orders ∧
      (lookupWith policy (clock env) absent (getOrder env wording id) w).2.places = w.places ∧
      Tells wording id w.orders
        (lookupWith policy (clock env) absent (getOrder env wording id) w).1 := by
  have hrule := lookupWith_rule policy (clock env) absent (getOrder env wording id)
    (I := fun v => v.orders = w.orders ∧ v.places = w.places)
    (P := fun lookup _ => Tells wording id w.orders lookup)
    (clock_keeps env w.orders w.places) (fun _ _ h => h) ?_
    (fun error _ => tells_inconclusive wording id _ error) (w := w) ⟨rfl, rfl⟩
  · exact ⟨hrule.1.1, hrule.1.2, hrule.2⟩
  · intro v hv
    obtain ⟨hworld, htells⟩ := lookupAttempt_tells env wording id v
    rw [hworld, ← hv.1]
    exact ⟨⟨rfl, hv.2⟩, htells⟩

/-! ### The place -/

theorem process_cases (duplicateCode : Option String) (w : VenueWorld) :
    (∃ ack, w.process env wording duplicateCode id =
        (.ok ack, w.create id (wording.ackId ack))) ∨
      ∃ error, w.process env wording duplicateCode id = (.error error, w) := by
  unfold process
  split
  · exact .inr ⟨_, rfl⟩
  · cases env.place w.places with
    | ok ack => exact .inl ⟨ack, rfl⟩
    | error error => exact .inr ⟨error, rfl⟩

/-- A raw place creates one order and acks it, or the ack is lost; or it fails. -/
inductive Placed (wording : Wording α ι) (orders : List String) : Result α → List String → Prop
  | acked (ack : α) : Placed wording orders (.ok ack) (orders ++ [wording.ackId ack])
  | lost (orderId message : String) :
      Placed wording orders (.error ⟨"transport", message⟩) (orders ++ [orderId])
  | failed (error : Error) : Placed wording orders (.error error) orders

theorem placed_place (duplicateCode : Option String) (w : VenueWorld) :
    Placed wording (w.orders id) (place env wording duplicateCode id w).1
      ((place env wording duplicateCode id w).2.orders id) := by
  unfold place
  rcases w.process_cases env wording id duplicateCode with ⟨ack, h⟩ | ⟨error, h⟩
  · have horders : (w.create id (wording.ackId ack)).orders id =
        w.orders id ++ [wording.ackId ack] := by simp [create]
    cases hl : env.lost w.places with
    | none =>
      simp only [h, horders, Option.elim_none]
      exact .acked ack
    | some message =>
      simp only [h, horders, Option.elim_some]
      exact .lost _ message
  · cases hl : env.lost w.places with
    | none =>
      simp only [h, Option.elim_none]
      exact .failed error
    | some message =>
      simp only [h, Option.elim_some]
      exact .failed _

/-- What one attempt of the engine, begun without an order, leaves behind. -/
structure Attempted (wording : Wording α ι) (orders : List String) (result : Result α)
    (resend : Bool) : Prop where
  once : orders.length ≤ 1
  acked : ∀ ack, result = .ok ack → orders = [wording.ackId ack]
  definitive : ∀ error, result = .error error → error.code ≠ "transport" → orders = []
  resend : resend → orders = []

variable (policy : RetryPolicy ρ) (duplicate : Error → Bool) (label : String)

def attempt (duplicateCode : Option String) : VenueWorld × Bool → Result α × VenueWorld × Bool :=
  placeAttempt duplicate label (place env wording duplicateCode id)
    (lookupWith policy (clock env) absent (getOrder env wording id)) wording.ack

private theorem eq_singleton_of_getLast? {l : List String} {a : String} (honce : l.length ≤ 1)
    (hlast : l.getLast? = some a) : l = [a] := by
  have hmem : a ∈ l := List.mem_of_getLast? hlast
  obtain ⟨first, rfl⟩ := List.length_eq_one_iff.mp
    (le_antisymm honce (List.length_pos_of_mem hmem))
  rw [List.mem_singleton.mp hmem]

/-- A failed place is resolved by the lookup, or stays as it is. -/
private theorem attempt_of_error {duplicateCode : Option String} {w : VenueWorld × Bool}
    {error : Error} {v : VenueWorld}
    (hp : place env wording duplicateCode id w.1 = (.error error, v))
    (honce : (v.orders id).length ≤ 1)
    (hdefinitive : error.code ≠ "transport" → v.orders id = []) :
    (attempt env wording id policy duplicate label duplicateCode w).2.1.places = v.places ∧
      Attempted wording
        ((attempt env wording id policy duplicate label duplicateCode w).2.1.orders id)
        (attempt env wording id policy duplicate label duplicateCode w).1
        (attempt env wording id policy duplicate label duplicateCode w).2.2 := by
  unfold attempt placeAttempt
  simp only [hp]
  obtain ⟨horders, hplaces, htells⟩ := lookupWith_tells env wording id policy v
  by_cases hresolve : error.code = "transport" ∨ duplicate error
  · rw [if_pos hresolve]
    rcases hl : lookupWith policy (clock env) absent (getOrder env wording id) v with ⟨lookup, v'⟩
    rw [hl] at horders hplaces htells
    have hid : v'.orders id = v.orders id := congrFun horders id
    cases lookup with
    | found info =>
      have hlast := htells.found info rfl
      have hone : v.orders id = [wording.ackId (wording.ack info)] :=
        eq_singleton_of_getLast? honce hlast
      dsimp only
      rw [hid, hone]
      refine ⟨hplaces, le_rfl, fun ack h => ?_, fun _ h => ?_, fun h => ?_⟩
      · rw [Except.ok.inj h]
      · cases h
      · cases h
    | absent =>
      have hnone := htells.absent rfl
      dsimp only
      rw [hid, hnone]
      refine ⟨hplaces, Nat.zero_le 1, fun ack h => ?_, fun _ _ _ => rfl, fun _ => rfl⟩
      cases h
    | inconclusive reason =>
      dsimp only
      by_cases hd : duplicate error
      · rw [if_pos hd, hid]
        refine ⟨hplaces, honce, fun ack h => ?_, fun e h hc => ?_, fun h => ?_⟩
        · cases h
        · rw [← Except.error.inj h] at hc
          exact hdefinitive hc
        · cases h
      · rw [if_neg hd, hid]
        refine ⟨hplaces, honce, fun ack h => ?_, fun e h hc => ?_, fun h => ?_⟩
        · cases h
        · rw [← Except.error.inj h] at hc
          exact absurd rfl hc
        · cases h
  · rw [if_neg hresolve]
    refine ⟨rfl, honce, fun ack h => ?_, fun e h hc => ?_, fun h => ?_⟩
    · cases h
    · rw [← Except.error.inj h] at hc
      exact hdefinitive hc
    · cases h

theorem attempt_attempted (duplicateCode : Option String) {w : VenueWorld × Bool}
    (hw : w.1.orders id = []) :
    (attempt env wording id policy duplicate label duplicateCode w).2.1.places =
        w.1.places + 1 ∧
      Attempted wording
        ((attempt env wording id policy duplicate label duplicateCode w).2.1.orders id)
        (attempt env wording id policy duplicate label duplicateCode w).1
        (attempt env wording id policy duplicate label duplicateCode w).2.2 := by
  have hplaced := placed_place env wording id duplicateCode w.1
  have hcount : (place env wording duplicateCode id w.1).2.places = w.1.places + 1 := rfl
  rcases hp : place env wording duplicateCode id w.1 with ⟨result, v⟩
  rw [hp, hw] at hplaced
  rw [hp] at hcount
  rw [← hcount]
  generalize ho : v.orders id = orders at hplaced
  cases hplaced with
  | acked ack =>
    unfold attempt placeAttempt
    simp only [hp]
    rw [ho]
    refine ⟨trivial, le_rfl, fun other h => ?_, fun _ h => ?_, fun h => ?_⟩
    · rw [← Except.ok.inj h]
      rfl
    · cases h
    · cases h
  | lost orderId message =>
    refine attempt_of_error env wording id policy duplicate label hp ?_ fun hc => absurd rfl hc
    rw [ho]
    exact le_rfl
  | failed error =>
    refine attempt_of_error env wording id policy duplicate label hp ?_ fun _ => ho
    rw [ho]
    exact Nat.zero_le 1

def engine (duplicateCode : Option String) : VenueWorld → Result α × VenueWorld :=
  placeWith policy (clock env) duplicate label (place env wording duplicateCode id)
    (lookupWith policy (clock env) absent (getOrder env wording id)) wording.ack

theorem engine_attempted (duplicateCode : Option String) {w : VenueWorld}
    (hw : w.orders id = []) :
    (engine env wording id policy duplicate label duplicateCode w).2.places ≤
        w.places + policy.maxAttempts.toNat ∧
      Attempted wording
        ((engine env wording id policy duplicate label duplicateCode w).2.orders id)
        (engine env wording id policy duplicate label duplicateCode w).1 false := by
  have hrule := withRetries_rule policy ((clock env).beside Bool)
    (attempt env wording id policy duplicate label duplicateCode) (fun _ v => v.2)
    (I := fun n v => v.1.orders id = [] ∧ v.1.places = w.places + n)
    (Q := fun n result v => v.1.places = w.places + n ∧
      Attempted wording (v.1.orders id) result v.2)
    (fun _ _ h => ⟨h, h, fun _ => h⟩) (fun _ _ _ h => h) ?_ (w := (w, false)) ⟨hw, rfl⟩
  swap
  · intro n v hv
    obtain ⟨hplaces, hattempted⟩ :=
      attempt_attempted env wording id policy duplicate label duplicateCode hv.1
    have hcount : (attempt env wording id policy duplicate label duplicateCode v).2.1.places =
        w.places + (n + 1) := by omega
    exact ⟨⟨hcount, hattempted⟩, fun _ _ hresend => ⟨hattempted.resend hresend, hcount⟩⟩
  unfold engine placeWith
  rcases hrule with ⟨hmax, heq⟩ | ⟨m, -, hm, hplaces, hattempted⟩
  · have heq' : withRetries policy ((clock env).beside Bool)
        (placeAttempt duplicate label (place env wording duplicateCode id)
          (lookupWith policy (clock env) absent (getOrder env wording id)) wording.ack)
        (fun _ v => v.2) (w, false) = _ := heq
    rw [heq']
    have hnone : (((clock env).beside Bool).now (w, false)).2.1.orders id = [] := hw
    refine ⟨Nat.le_add_right _ _, ?_, fun ack h => ?_, fun _ _ _ => hnone, fun h => ?_⟩
    · rw [hnone]
      exact Nat.zero_le 1
    · cases h
    · cases h
  · refine ⟨?_, hattempted.once, hattempted.acked, hattempted.definitive, fun h => by cases h⟩
    have hle : m ≤ policy.maxAttempts.toNat := by omega
    exact hplaces.le.trans (Nat.add_le_add_left hle _)

/-! ### An order that was there before -/

/-- One of the next `left` lookups is answered, and every earlier one failed in transport, before
the deadline. -/
def AnsweredWithin (env : Environment absent α ι ρ) (deadline : ℤ) (left lookups reads : ℕ) :
    Prop :=
  ∃ n < left, (∃ info absence, env.lookup (lookups + n) = .answered info absence) ∧
    ∀ m < n, (∃ error h, env.lookup (lookups + m) = .failed error h ∧ error.code = "transport") ∧
      env.now (reads + m) < deadline

def Answered (env : Environment absent α ι ρ) (policy : RetryPolicy ρ) (lookups reads : ℕ) : Prop :=
  AnsweredWithin env (env.now reads + policy.budget * kNanosPerMilli) policy.maxAttempts.toNat
    lookups (reads + 1)

/-- A venue that has the order answers as the environment says. -/
theorem scripted (orders : String → List String) (horders : orders id ≠ []) :
    Scripted (clock env) (getOrder env wording id) env.lookup env.now
      fun n m w => w.orders = orders ∧ w.lookups = n ∧ w.reads = m where
  read := by
    rintro n m w ⟨ho, hn, rfl⟩
    exact ⟨rfl, ho, hn, rfl⟩
  draw _ _ _ h := h
  sleep _ _ _ _ h := h
  looked := by
    rintro n m w ⟨ho, rfl, hm⟩
    exact ⟨ho, rfl, hm⟩
  failed := by
    rintro n m w error h ⟨-, rfl, -⟩ ha
    simp [getOrder, ha]
  answered := by
    rintro n m w info absence ⟨rfl, rfl, -⟩ ha
    obtain ⟨orderId, ho⟩ : ∃ orderId, (w.orders id).getLast? = some orderId :=
      Option.ne_none_iff_exists'.mp fun h => horders (List.getLast?_eq_none_iff.mp h)
    exact ⟨wording.withId info orderId, by simp [getOrder, ha, ho]⟩

/-- An order that is there is found exactly when a lookup gets an answer. -/
theorem lookupWith_found_iff {v : VenueWorld} (hv : v.orders id ≠ []) :
    (∃ info, (lookupWith policy (clock env) absent (getOrder env wording id) v).1 =
        .found info) ↔ Answered env policy v.lookups v.reads :=
  (scripted env wording id v.orders hv).lookupWith_found_iff policy ⟨rfl, rfl, rfl⟩

/-- An order that is there is found, or the lookup is inconclusive. -/
private theorem lookupWith_of_existing {v : VenueWorld} (hv : v.orders id ≠ []) :
    ∃ lookup v', lookupWith policy (clock env) absent (getOrder env wording id) v = (lookup, v') ∧
      v'.orders id = v.orders id ∧
      ((∃ info, lookup = .found info ∧
          (v.orders id).getLast? = some (wording.ackId (wording.ack info))) ∧
          Answered env policy v.lookups v.reads ∨
        (∃ reason, lookup = .inconclusive reason) ∧ ¬ Answered env policy v.lookups v.reads) := by
  obtain ⟨horders, -, htells⟩ := lookupWith_tells env wording id policy v
  have hfound := lookupWith_found_iff env wording id policy hv
  rcases hl : lookupWith policy (clock env) absent (getOrder env wording id) v with ⟨lookup, v'⟩
  rw [hl] at horders htells hfound
  refine ⟨lookup, v', rfl, congrFun horders id, ?_⟩
  cases lookup with
  | found info => exact .inl ⟨⟨info, rfl, htells.found info rfl⟩, hfound.mp ⟨info, rfl⟩⟩
  | absent => exact absurd (htells.absent rfl) hv
  | inconclusive reason =>
    refine .inr ⟨⟨reason, rfl⟩, fun h => ?_⟩
    obtain ⟨info, h⟩ := hfound.mpr h
    cases h

/-- What the engine makes of the answer to its first place, at a venue that has the order. -/
inductive FirstDecides {β : Type} (wording : Wording α ι) (duplicate : Error → Bool) (ack : ι → β)
    (orders : List String) (answered : Prop) : Result β → Result β → Prop
  | passed (value : β) : FirstDecides wording duplicate ack orders answered (.ok value) (.ok value)
  | definitive (error : Error) (h : ¬ (error.code = "transport" ∨ duplicate error)) :
      FirstDecides wording duplicate ack orders answered (.error error) (.error error)
  | found (error : Error) (h : error.code = "transport" ∨ duplicate error) (ha : answered)
      (info : ι) (hinfo : orders.getLast? = some (wording.ackId (wording.ack info))) :
      FirstDecides wording duplicate ack orders answered (.error error) (.ok (ack info))
  | unresolved (error : Error) (h : error.code = "transport" ∨ duplicate error) (ha : ¬ answered)
      (unresolved : Error) (hcode : unresolved.code = error.code) :
      FirstDecides wording duplicate ack orders answered (.error error) (.error unresolved)

section

variable {β : Type} (place : VenueWorld → Result β × VenueWorld) (ack : ι → β) {result : Result β}
  {v : VenueWorld}

/-- The first attempt at a venue that has the order when it answers is the last one. -/
private theorem placeAttempt_of_existing {w : VenueWorld × Bool} (hp : place w.1 = (result, v))
    (hv : v.orders id ≠ []) :
    ∃ outcome v', placeAttempt duplicate label place
        (lookupWith policy (clock env) absent (getOrder env wording id)) ack w =
          (outcome, v', false) ∧ v'.orders id = v.orders id ∧
      FirstDecides wording duplicate ack (v.orders id) (Answered env policy v.lookups v.reads)
        result outcome := by
  unfold placeAttempt
  simp only [hp]
  cases result with
  | ok value => exact ⟨_, v, rfl, rfl, .passed value⟩
  | error error =>
    by_cases hresolve : error.code = "transport" ∨ duplicate error
    · obtain ⟨lookup, v', hl, horders, hcases⟩ := lookupWith_of_existing env wording id policy hv
      simp only [if_pos hresolve, hl]
      rcases hcases with ⟨⟨info, rfl, hinfo⟩, hanswered⟩ | ⟨⟨reason, rfl⟩, hanswered⟩
      · exact ⟨_, v', rfl, horders, .found error hresolve hanswered info hinfo⟩
      · by_cases hd : duplicate error
        · exact ⟨_, v', if_pos hd, horders, .unresolved error hresolve hanswered error rfl⟩
        · refine ⟨_, v', if_neg hd, horders, .unresolved error hresolve hanswered _ ?_⟩
          exact (hresolve.resolve_right hd).symm
    · simp only [if_neg hresolve]
      exact ⟨_, v, rfl, rfl, .definitive error hresolve⟩

theorem placeWith_of_existing {w : VenueWorld} (hmax : 1 ≤ policy.maxAttempts)
    (hp : place { w with reads := w.reads + 1 } = (result, v)) (hv : v.orders id ≠ []) :
    (placeWith policy (clock env) duplicate label place
        (lookupWith policy (clock env) absent (getOrder env wording id)) ack w).2.orders id =
        v.orders id ∧
      FirstDecides wording duplicate ack (v.orders id) (Answered env policy v.lookups v.reads)
        result (placeWith policy (clock env) duplicate label place
          (lookupWith policy (clock env) absent (getOrder env wording id)) ack w).1 := by
  obtain ⟨outcome, v', hattempt, horders, hdecides⟩ := placeAttempt_of_existing env wording id
    policy duplicate label place ack (w := ({ w with reads := w.reads + 1 }, false)) hp hv
  have hdriver := withRetries_of_first policy ((clock env).beside Bool)
    (placeAttempt duplicate label place
      (lookupWith policy (clock env) absent (getOrder env wording id)) ack)
    (fun _ v => v.2) (w := (w, false)) hmax fun _ _ => congrArg (fun r => r.2.2) hattempt
  have hengine : placeWith policy (clock env) duplicate label place
      (lookupWith policy (clock env) absent (getOrder env wording id)) ack w = (outcome, v') := by
    unfold placeWith
    simp only [hdriver]
    exact congrArg (fun r => (r.1, r.2.1)) hattempt
  rw [hengine]
  exact ⟨horders, hdecides⟩

end

private theorem engine_of_existing {code : String} (hcode : code ≠ "transport")
    (hduplicate : ∀ text, duplicate ⟨code, text⟩) {w : VenueWorld} (hw : w.orders id ≠ [])
    (hmax : 1 ≤ policy.maxAttempts) :
    (engine env wording id policy duplicate label (some code) w).2.orders id = w.orders id ∧
      ((∃ error, (engine env wording id policy duplicate label (some code) w).1 = .error error ∧
          error.code ≠ "transport") ↔
        env.lost w.places = none ∧ ¬ Answered env policy w.lookups (w.reads + 1)) := by
  have hfirst : ∃ error, place env wording (some code) id { w with reads := w.reads + 1 } =
        (.error error, { w with reads := w.reads + 1, places := w.places + 1 }) ∧
      (error.code = "transport" ∨ duplicate error) ∧
      (error.code ≠ "transport" ↔ env.lost w.places = none) := by
    have hprocess : process env wording (some code) id { w with reads := w.reads + 1 } =
        (.error ⟨code, env.duplicate w.places⟩, { w with reads := w.reads + 1 }) := by
      simp [process, hw]
    cases hl : env.lost w.places with
    | none =>
      refine ⟨⟨code, env.duplicate w.places⟩, by simp [place, hprocess, hl],
        .inr (hduplicate _), ?_⟩
      simpa using hcode
    | some message =>
      refine ⟨⟨"transport", message⟩, by simp [place, hprocess, hl], .inl rfl, ?_⟩
      simp
  obtain ⟨error, hp, hresolve, hlost⟩ := hfirst
  obtain ⟨horders, hdecides⟩ := placeWith_of_existing env wording id policy duplicate label
    (place env wording (some code) id) wording.ack hmax hp hw
  refine ⟨horders, ?_⟩
  unfold engine
  rw [← hlost]
  generalize (placeWith policy (clock env) duplicate label (place env wording (some code) id)
    (lookupWith policy (clock env) absent (getOrder env wording id)) wording.ack w).1 = outcome
    at hdecides
  cases hdecides with
  | definitive _ h => exact absurd hresolve h
  | found _ _ hanswered info hinfo =>
    constructor
    · rintro ⟨e, h, -⟩
      cases h
    · rintro ⟨-, h⟩
      exact absurd hanswered h
  | unresolved _ _ hanswered e hsame =>
    constructor
    · rintro ⟨other, h, hne⟩
      rw [← Except.error.inj h, hsame] at hne
      exact ⟨hne, hanswered⟩
    · rintro ⟨hne, -⟩
      exact ⟨e, rfl, by rwa [hsame]⟩

/-- A definitive error means that there is no order, exactly when there was none before, or the
driver makes an attempt and the first place is not answered, or a lookup after it is. -/
theorem engine_definitive_iff {code : String} (hcode : code ≠ "transport")
    (hduplicate : ∀ text, duplicate ⟨code, text⟩) (w : VenueWorld) :
    (∀ error, (engine env wording id policy duplicate label (some code) w).1 = .error error →
        error.code ≠ "transport" →
        (engine env wording id policy duplicate label (some code) w).2.orders id = []) ↔
      w.orders id = [] ∨ 1 ≤ policy.maxAttempts ∧
        (env.lost w.places ≠ none ∨ Answered env policy w.lookups (w.reads + 1)) := by
  by_cases hw : w.orders id = []
  · have hattempted := (engine_attempted env wording id policy duplicate label (some code) hw).2
    exact ⟨fun _ => .inl hw, fun _ => hattempted.definitive⟩
  by_cases hmax : 1 ≤ policy.maxAttempts
  · obtain ⟨horders, hiff⟩ := engine_of_existing env wording id policy duplicate label hcode
      hduplicate hw hmax
    rw [horders]
    constructor
    · intro h
      refine .inr ⟨hmax, ?_⟩
      by_contra hcontra
      obtain ⟨hlost, hanswered⟩ := not_or.mp hcontra
      obtain ⟨error, herror, hne⟩ := hiff.mpr ⟨not_not.mp hlost, hanswered⟩
      exact hw (h error herror hne)
    · rintro (h | ⟨-, h⟩) error herror hne
      · exact h
      · obtain ⟨hlost, hanswered⟩ := hiff.mp ⟨error, herror, hne⟩
        rcases h with h | h
        · exact absurd hlost h
        · exact absurd h hanswered
  · have hnone : policy.maxAttempts.toNat = 0 := by omega
    have hexhausted : engine env wording id policy duplicate label (some code) w =
        (.error ⟨"protocol", "retry driver exhausted attempts"⟩,
          { w with reads := w.reads + 1 }) := by
      simp [engine, placeWith, withRetries, hnone, retryLoop, RetryClock.beside, clock]
    rw [hexhausted]
    constructor
    · intro h
      exact absurd (h _ rfl (by decide)) hw
    · rintro (h | ⟨h, -⟩)
      · exact absurd h hw
      · exact absurd h hmax

end VenueWorld

/-! ### The two venues -/

namespace Okx

def wording : Wording OrderAck OrderInfo where
  ackId ack := ack.ordId
  withId info id := { info with ordId := id }
  ack := synthesizedAck
  ackId_ack _ _ := rfl

/-- OKX may word the absence of an order as an error. -/
abbrev Environment (ρ : Type) :=
  ExchangeGateway.Environment (fun error => error.code = "venue:51603") OrderAck OrderInfo ρ

def venueClient {ρ : Type} (env : Environment ρ) (duplicateCode : Option String) :
    Client VenueWorld where
  placeOrder request := VenueWorld.place env wording duplicateCode request.clOrdId
  getOrder query := VenueWorld.getOrder env wording query.clOrdId

end Okx

namespace Binance

def wording : Wording OrderAck OrderInfo where
  ackId ack := ack.orderId
  withId info id := { info with orderId := id }
  ack := ackOf
  ackId_ack _ _ := rfl

abbrev Environment (ρ : Type) :=
  ExchangeGateway.Environment (fun _ => false) OrderAck OrderInfo ρ

def venueApi {ρ : Type} (env : Environment ρ) (duplicateCode : Option String) :
    Api VenueWorld where
  place request := VenueWorld.place env wording duplicateCode request.clientOrderId
  getOrder query := VenueWorld.getOrder env wording query.clientOrderId

end Binance

namespace VenueWorld

variable {ρ : Type}

/-- At most one order, at most `maxAttempts` raw places, and an ack names the order. -/
structure PlacedOnce (policy : RetryPolicy ρ) (before : VenueWorld) (id : String)
    (orderId : Result String) (after : VenueWorld) : Prop where
  once : (after.orders id).length ≤ 1
  bounded : after.places ≤ before.places + policy.maxAttempts.toNat
  acked : ∀ found, orderId = .ok found → after.orders id = [found]

private theorem Attempted.placedOnce {α ι : Type} {wording : Wording α ι} {id : String}
    {before after : VenueWorld} {policy : RetryPolicy ρ} {result : Result α}
    (hbounded : after.places ≤ before.places + policy.maxAttempts.toNat)
    (h : Attempted wording (after.orders id) result false) :
    PlacedOnce policy before id (result.map wording.ackId) after where
  once := h.once
  bounded := hbounded
  acked found hfound := by
    cases result with
    | error error => cases hfound
    | ok ack =>
      rw [h.acked ack rfl]
      exact congrArg (fun id => [id]) (Except.ok.inj hfound)

/-- For every policy, clock and sequence of answers, from a venue without the order: both engines
create at most one. -/
theorem resilientPlace_placedOnce (policy : RetryPolicy ρ) (duplicateCode : Option String)
    (w : VenueWorld) (okx : Okx.Environment ρ) (request : Okx.PlaceRequest)
    (hokx : w.orders request.clOrdId = []) (binance : Binance.Environment ρ)
    (request' : Binance.PlaceRequest) (hbinance : w.orders request'.clientOrderId = []) :
    PlacedOnce policy w request.clOrdId
        ((Okx.resilientPlace (Okx.venueClient okx duplicateCode) policy (clock okx) request w).1.map
          Okx.OrderAck.ordId)
        (Okx.resilientPlace (Okx.venueClient okx duplicateCode) policy (clock okx) request w).2 ∧
      PlacedOnce policy w request'.clientOrderId
        ((Binance.resilientPlace (Binance.venueApi binance duplicateCode) policy (clock binance)
          request' w).1.map Binance.OrderAck.orderId)
        (Binance.resilientPlace (Binance.venueApi binance duplicateCode) policy (clock binance)
          request' w).2 := by
  have hfirst := engine_attempted okx Okx.wording request.clOrdId policy
    (fun error => error.code = "venue:51000") ("clOrdId " ++ request.clOrdId) duplicateCode hokx
  have hsecond := engine_attempted binance Binance.wording request'.clientOrderId policy
    Binance.isDuplicateReject ("clientOrderId " ++ request'.clientOrderId) duplicateCode hbinance
  exact ⟨hfirst.2.placedOnce hfirst.1, hsecond.2.placedOnce hsecond.1⟩

/-! ### A place that is dropped, sent again, and acked by the lookup -/

def samplePolicy : RetryPolicy Unit := ⟨3, 5000, fun _ _ => 100⟩

/-- No answer to a place arrives: the first one is dropped, the second one creates the order. -/
def flaky {absent : Error → Bool} {α ι : Type} (ack : α) (info : ι) :
    Environment absent α ι Unit where
  place n := if n = 0 then .error ⟨"transport", "connection reset"⟩ else .ok ack
  lost _ := some "timeout"
  duplicate _ := "duplicate"
  lookup _ := .answered info none
  now _ := 0
  random01 _ := ()

def okxRequest : Okx.PlaceRequest := ⟨"c1", "BTC-USDT", "buy", "limit", "100", "5", "", "cash"⟩

def binanceRequest : Binance.PlaceRequest := ⟨"c1", "BTCUSDT", .buy, .limit, "100", "5", "GTC"⟩

def okxInfo : Okx.OrderInfo :=
  ⟨"", "c1", "BTC-USDT", "live", "buy", "limit", "100", "5", "", "0"⟩

def binanceInfo : Binance.OrderInfo :=
  ⟨"", "c1", "BTCUSDT", "NEW", "BUY", "LIMIT", "100", "5", "0", "0"⟩

def okxFlaky : Okx.Environment Unit := flaky ⟨"42", "c1", "0", ""⟩ okxInfo

def binanceFlaky : Binance.Environment Unit := flaky ⟨"42", "c1", "NEW", "0"⟩ binanceInfo

def noOrders : VenueWorld := { orders := fun _ => [] }

theorem resilientPlace_placedOnce_flaky :
    PlacedOnce samplePolicy noOrders "c1" (.ok "42")
        (Okx.resilientPlace (Okx.venueClient okxFlaky none) samplePolicy (clock okxFlaky)
          okxRequest noOrders).2 ∧
      PlacedOnce samplePolicy noOrders "c1" (.ok "42")
        (Binance.resilientPlace (Binance.venueApi binanceFlaky none) samplePolicy
          (clock binanceFlaky) binanceRequest noOrders).2 :=
  resilientPlace_placedOnce samplePolicy none noOrders okxFlaky okxRequest rfl binanceFlaky
    binanceRequest rfl

/-- A place error other than `transport` means that the venue has no order under the id. -/
def Definitive {α : Type} (id : String) (outcome : Result α × VenueWorld) : Prop :=
  ∀ error, outcome.1 = .error error → error.code ≠ "transport" → outcome.2.orders id = []

/-- The lookups resolve what the first place met: no order, or no answer to that place, or an
answer to one of the lookups after it. -/
def Resolvable {absent : Error → Bool} {α ι : Type} (env : Environment absent α ι ρ)
    (policy : RetryPolicy ρ) (id : String) (w : VenueWorld) : Prop :=
  w.orders id = [] ∨ 1 ≤ policy.maxAttempts ∧
    (env.lost w.places ≠ none ∨ Answered env policy w.lookups (w.reads + 1))

/-- For every policy, clock and sequence of answers of a venue that refuses duplicates: an engine's
definitive error is truthful exactly when the duplicate it may have met is resolvable. -/
theorem resilientPlace_definitive_iff (policy : RetryPolicy ρ) (w : VenueWorld)
    (okx : Okx.Environment ρ) (request : Okx.PlaceRequest) (binance : Binance.Environment ρ)
    (request' : Binance.PlaceRequest) :
    (Definitive request.clOrdId (Okx.resilientPlace (Okx.venueClient okx (some "venue:51000"))
        policy (clock okx) request w) ↔ Resolvable okx policy request.clOrdId w) ∧
      (Definitive request'.clientOrderId
        (Binance.resilientPlace (Binance.venueApi binance (some "venue:-4116")) policy
          (clock binance) request' w) ↔
        Resolvable binance policy request'.clientOrderId w) := by
  constructor
  · exact engine_definitive_iff okx Okx.wording request.clOrdId policy
      (fun error => error.code = "venue:51000") ("clOrdId " ++ request.clOrdId) (by decide)
      (fun _ => rfl) w
  · exact engine_definitive_iff binance Binance.wording request'.clientOrderId policy
      Binance.isDuplicateReject ("clientOrderId " ++ request'.clientOrderId) (by decide)
      (fun _ => rfl) w

def unreachable {absent : Error → Bool} {α ι : Type} (h : absent ⟨"transport", "timeout"⟩ = false) :
    Environment absent α ι Unit where
  place _ := .error ⟨"venue:51001", "Instrument ID does not exist"⟩
  lost _ := none
  duplicate _ := "Duplicate order sent."
  lookup _ := .failed ⟨"transport", "timeout"⟩ h
  now _ := 0
  random01 _ := ()

def okxUnreachable : Okx.Environment Unit := unreachable rfl

def binanceUnreachable : Binance.Environment Unit := unreachable rfl

def placedBefore : VenueWorld := { orders := fun id => if id = "c1" then ["7"] else [] }

/-- The duplicate rejection is passed on as a definitive error although the order is there. -/
theorem duplicate_reject_passed_on :
    ¬ Definitive "c1" (Okx.resilientPlace (Okx.venueClient okxUnreachable (some "venue:51000"))
        samplePolicy (clock okxUnreachable) okxRequest placedBefore) ∧
      ¬ Definitive "c1"
        (Binance.resilientPlace (Binance.venueApi binanceUnreachable (some "venue:-4116"))
          samplePolicy (clock binanceUnreachable) binanceRequest placedBefore) := by
  constructor
  · intro h
    have hnone := h ⟨"venue:51000", "Duplicate order sent."⟩ rfl (by decide)
    cases hnone
  · intro h
    have hnone := h ⟨"venue:-4116", "Duplicate order sent."⟩ rfl (by decide)
    cases hnone

end VenueWorld

end ExchangeGateway
