import ExchangeGateway.Exchange.Binance
import ExchangeGateway.Lib.KeyedList
import ExchangeGateway.Lib.Transition
import Mathlib.Data.List.Basic

/-! The shared socket of `BinanceWsClient` (`exchange/binance/binance_ws_client.cpp`). Callers and
the session thread take turns: each step is one critical section, or one call into the socket. What
the socket does is part of the step. -/
namespace ExchangeGateway.Binance

variable (library : Json.Library)

/-- The request id that `dispatch_message` finds in a frame; event frames and frames without an
integer id have none. -/
def requestIdOf (message : String) : Option ℤ :=
  match library.parse message with
  | none => none
  | some parsed =>
    if !parsed.isObject ∨ (parsed.find? "event").any Json.isObject then none
    else ((parsed.find? "id").bind Json.integer?).map longLong

/-- A text frame, with its number among the frames that were read. -/
structure Frame where
  number : ℕ
  message : String
  deriving DecidableEq, Repr

/-- Who waits for a response: an invocation of `call`, or the session with its subscription. -/
inductive Owner
  | call (i : ℕ)
  | session
  deriving DecidableEq, Repr

inductive Outcome
  | unsent
  | timedOut
  | connectionLost
  | response (frame : Frame)
  deriving DecidableEq, Repr

/-- Where an invocation of `call` stands. -/
inductive Phase
  | begun
  | numbered (id : ℤ)
  | registered (id : ℤ)
  | unsent (id : ℤ)
  | sent (id : ℤ)
  | woken (id : ℤ) (timedOut : Bool)
  | done (id : ℤ) (outcome : Outcome)
  deriving DecidableEq, Repr

def Phase.id? : Phase → Option ℤ
  | .begun => none
  | .numbered id | .registered id | .unsent id | .sent id | .woken id _ | .done id _ => some id

def Phase.left : Phase → ℕ
  | .begun => 5
  | .numbered _ => 4
  | .registered _ => 3
  | .sent _ => 2
  | .unsent _ | .woken _ _ => 1
  | .done _ _ => 0

/-- An invocation of `call` with its `Pending`. -/
structure Invocation where
  method : String
  phase : Phase := .begun
  response : Option Frame := none
  failed : Bool := false
  deriving DecidableEq, Repr

def Invocation.of (method : String) : Invocation := { method := method }

/-- What `call` returns once it no longer waits. There is no response to read when neither flag is
set. -/
def Invocation.outcome? (c : Invocation) (timedOut : Bool) : Option Outcome :=
  if timedOut then some .timedOut
  else if c.failed then some .connectionLost
  else c.response.map .response

theorem Invocation.response_of_outcome? {c : Invocation} {timedOut : Bool} {frame : Frame}
    (h : c.outcome? timedOut = some (.response frame)) : c.response = some frame := by
  unfold Invocation.outcome? at h
  split_ifs at h with htimedOut hfailed
  · cases h
  · cases h
  · obtain ⟨other, hresponse, hsame⟩ := Option.map_eq_some_iff.mp h
    cases hsame
    exact hresponse

inductive Reader
  | idle
  | connecting
  | syncing
  | syncSending (id : ℤ)
  | syncReading (id : ℤ)
  | subscribing
  | subscribeNumbered (id : ℤ)
  | subscribeSending (id : ℤ)
  | reading (id : ℤ)
  /-- `dispatch_message` has taken the entry of the owner and not stored the response yet. -/
  | storing (id : ℤ) (owner : Owner) (frame : Frame)
  | leaving (id : ℤ)
  | resetting
  | collecting
  /-- `fail_all_pending` has emptied the map and not told these waiters yet. -/
  | failing (waiters : List Owner)
  deriving DecidableEq, Repr

/-- `client_` is set. -/
def Reader.published : Reader → Bool
  | .idle | .collecting | .failing _ => false
  | _ => true

/-- The session thread owes no waiter anything. -/
def Reader.free : Reader → Bool
  | .storing _ _ _ | .failing _ => false
  | _ => true

/-- The client with its callers. `issued` and `frames` record the ids that were given out and the
frames that were read. -/
structure WsClient where
  nextId : ℤ := 1
  pending : KeyedList (Prod.fst : ℤ × Owner → ℤ) := .empty _
  calls : List Invocation := []
  reader : Reader := .idle
  issued : List (ℤ × Owner) := []
  frames : List String := []

inductive CallAction
  | take
  | register
  | send (ok : Bool)
  | forget
  | wake (expired : Bool)
  | finish
  deriving DecidableEq, Repr

inductive ReaderAction
  | publish
  | connect (ok : Bool)
  | syncTake
  | syncSend (ok : Bool)
  | syncRead (message : Option String)
  | subscribeTake
  | subscribeRegister
  | subscribeSend (ok : Bool)
  | read (message : String)
  | store
  | leave
  | eraseSubscription
  | reset
  | collect
  | fail
  deriving DecidableEq, Repr

inductive Action
  | begin (method : String)
  | caller (i : ℕ) (action : CallAction)
  | reader (action : ReaderAction)
  deriving DecidableEq, Repr

namespace WsClient

/-- `next_id_++`. -/
def issue (s : WsClient) (owner : Owner) : WsClient :=
  { s with nextId := s.nextId + 1, issued := s.issued ++ [(s.nextId, owner)] }

/-- One step of `call`, with what it does to the shared state. A send needs `client_`, and the wait
ends with a response, a failure or the deadline. -/
def callStep (s : WsClient) (i : ℕ) (c : Invocation) :
    CallAction → Phase → Option (WsClient × Invocation)
  | .take, .begun => some (s.issue (.call i), { c with phase := .numbered s.nextId })
  | .register, .numbered id =>
    some ({ s with pending := s.pending.set (id, .call i) }, { c with phase := .registered id })
  | .send false, .registered id => some (s, { c with phase := .unsent id })
  | .send true, .registered id =>
    if s.reader.published then some (s, { c with phase := .sent id }) else none
  | .forget, .unsent id =>
    some ({ s with pending := s.pending.erase id }, { c with phase := .done id .unsent })
  | .wake expired, .sent id =>
    if c.response.isSome ∨ c.failed ∨ expired then
      some (s, { c with phase := .woken id (!(c.response.isSome || c.failed)) })
    else none
  | .finish, .woken id timedOut =>
    (c.outcome? timedOut).map fun outcome =>
      ({ s with pending := s.pending.erase id }, { c with phase := .done id outcome })
  | _, _ => none

/-- Note a frame that was read. -/
def log (s : WsClient) (message : String) : WsClient :=
  { s with frames := s.frames ++ [message] }

/-- The first critical section of `dispatch_message`. -/
def dispatch (s : WsClient) (id : ℤ) (message : String) : WsClient :=
  match (requestIdOf library message).bind s.pending.find? with
  | none => { s.log message with reader := .reading id }
  | some (requestId, owner) =>
    { s.log message with
      pending := s.pending.erase requestId
      reader := .storing id owner ⟨s.frames.length, message⟩ }

/-- Change the `Pending` of a waiter. That of the subscription is the session's own. -/
def notify (s : WsClient) (f : Invocation → Invocation) : Owner → WsClient
  | .call i => { s with calls := s.calls.modify i f }
  | .session => s

/-- One step of the session thread. `inline_time_sync` reads one frame and keeps nothing of it but
the time. The read loop ends with the connection, on request, and on what the venue says. -/
def readerStep (s : WsClient) : ReaderAction → Reader → Option WsClient
  | .publish, .idle => some { s with reader := .connecting }
  | .connect ok, .connecting => some { s with reader := if ok then .syncing else .resetting }
  | .syncTake, .syncing => some { s.issue .session with reader := .syncSending s.nextId }
  | .syncSend ok, .syncSending id =>
    some { s with reader := if ok then .syncReading id else .subscribing }
  | .syncRead none, .syncReading _ => some { s with reader := .subscribing }
  | .syncRead (some message), .syncReading _ =>
    some { s.log message with reader := .subscribing }
  | .subscribeTake, .subscribing =>
    some { s.issue .session with reader := .subscribeNumbered s.nextId }
  | .subscribeRegister, .subscribeNumbered id =>
    some { s with pending := s.pending.set (id, .session), reader := .subscribeSending id }
  | .subscribeSend ok, .subscribeSending id =>
    some { s with reader := if ok then .reading id else .leaving id }
  | .read message, .reading id => some (s.dispatch library id message)
  | .store, .storing id owner frame =>
    some { s.notify (fun c => { c with response := some frame }) owner with reader := .reading id }
  | .leave, .reading id => some { s with reader := .leaving id }
  | .eraseSubscription, .leaving id =>
    some { s with pending := s.pending.erase id, reader := .resetting }
  | .reset, .resetting => some { s with reader := .collecting }
  | .collect, .collecting | .collect, .idle =>
    some { s with pending := .empty _, reader := .failing (s.pending.toList.map Prod.snd) }
  | .fail, .failing (owner :: waiters) =>
    some { s.notify (fun c => { c with failed := true }) owner with reader := .failing waiters }
  | .fail, .failing [] => some { s with reader := .idle }
  | _, _ => none

def step (s : WsClient) : Action → Option WsClient
  | .begin method => some { s with calls := s.calls ++ [.of method] }
  | .caller i action => do
    let c ← s.calls[i]?
    let (s, c) ← s.callStep i c action c.phase
    return { s with calls := s.calls.set i c }
  | .reader action => s.readerStep library action s.reader

/-- Before the client is started. -/
def start : WsClient := {}

/-! ### What a step can do -/

/-- The steps of an invocation, with the state and the invocation after them. -/
inductive CallMoves (s : WsClient) (i : ℕ) (c : Invocation) :
    CallAction → WsClient → Invocation → Prop
  | take (h : c.phase = .begun) :
      CallMoves s i c .take (s.issue (.call i)) { c with phase := .numbered s.nextId }
  | register (id : ℤ) (h : c.phase = .numbered id) :
      CallMoves s i c .register { s with pending := s.pending.set (id, .call i) }
        { c with phase := .registered id }
  | unsent (id : ℤ) (h : c.phase = .registered id) :
      CallMoves s i c (.send false) s { c with phase := .unsent id }
  | sent (id : ℤ) (h : c.phase = .registered id) (hpublished : s.reader.published) :
      CallMoves s i c (.send true) s { c with phase := .sent id }
  | forget (id : ℤ) (h : c.phase = .unsent id) :
      CallMoves s i c .forget { s with pending := s.pending.erase id }
        { c with phase := .done id .unsent }
  | wake (expired : Bool) (id : ℤ) (h : c.phase = .sent id)
      (hwake : c.response.isSome ∨ c.failed ∨ expired) :
      CallMoves s i c (.wake expired) s
        { c with phase := .woken id (!(c.response.isSome || c.failed)) }
  | finish (id : ℤ) (timedOut : Bool) (outcome : Outcome) (h : c.phase = .woken id timedOut)
      (houtcome : c.outcome? timedOut = some outcome) :
      CallMoves s i c .finish { s with pending := s.pending.erase id }
        { c with phase := .done id outcome }

inductive ReaderMoves (s : WsClient) : ReaderAction → WsClient → Prop
  | turn (a : ReaderAction) (reader : Reader) (h : s.reader.free) (hnext : reader.free) :
      ReaderMoves s a { s with reader }
  | issue (a : ReaderAction) (reader : Reader) (h : s.reader.free) (hnext : reader.free) :
      ReaderMoves s a { s.issue .session with reader }
  | drop (id : ℤ) (message : String) (h : s.reader = .syncReading id) :
      ReaderMoves s (.syncRead (some message)) { s.log message with reader := .subscribing }
  | subscribe (id : ℤ) (h : s.reader.free) :
      ReaderMoves s .subscribeRegister
        { s with pending := s.pending.set (id, .session), reader := .subscribeSending id }
  | read (id : ℤ) (message : String) (h : s.reader = .reading id) :
      ReaderMoves s (.read message) (s.dispatch library id message)
  | store (id : ℤ) (owner : Owner) (frame : Frame) (h : s.reader = .storing id owner frame) :
      ReaderMoves s .store
        { s.notify (fun c => { c with response := some frame }) owner with reader := .reading id }
  | unsubscribe (id : ℤ) (h : s.reader.free) :
      ReaderMoves s .eraseSubscription
        { s with pending := s.pending.erase id, reader := .resetting }
  | collect (h : s.reader.free) :
      ReaderMoves s .collect
        { s with pending := .empty _, reader := .failing (s.pending.toList.map Prod.snd) }
  | fail (owner : Owner) (waiters : List Owner) (h : s.reader = .failing (owner :: waiters)) :
      ReaderMoves s .fail
        { s.notify (fun c => { c with failed := true }) owner with reader := .failing waiters }
  | failed (h : s.reader = .failing []) : ReaderMoves s .fail { s with reader := .idle }

variable {library} {s t : WsClient}

theorem readerStep_cases {a : ReaderAction} (h : s.readerStep library a s.reader = some t) :
    ReaderMoves library s a t := by
  unfold readerStep at h
  split at h
  next hr => cases h; exact .turn _ _ (by rw [hr]; rfl) rfl
  next ok hr => cases h; exact .turn _ _ (by rw [hr]; rfl) (by cases ok <;> rfl)
  next hr => cases h; exact .issue _ _ (by rw [hr]; rfl) rfl
  next ok id hr => cases h; exact .turn _ _ (by rw [hr]; rfl) (by cases ok <;> rfl)
  next id hr => cases h; exact .turn _ _ (by rw [hr]; rfl) rfl
  next message id hr => cases h; exact .drop id message hr
  next hr => cases h; exact .issue _ _ (by rw [hr]; rfl) rfl
  next id hr => cases h; exact .subscribe id (by rw [hr]; rfl)
  next ok id hr => cases h; exact .turn _ _ (by rw [hr]; rfl) (by cases ok <;> rfl)
  next message id hr => cases h; exact .read id message hr
  next id owner frame hr => cases h; exact .store id owner frame hr
  next id hr => cases h; exact .turn _ _ (by rw [hr]; rfl) rfl
  next id hr => cases h; exact .unsubscribe id (by rw [hr]; rfl)
  next hr => cases h; exact .turn _ _ (by rw [hr]; rfl) rfl
  next hr => cases h; exact .collect (by rw [hr]; rfl)
  next hr => cases h; exact .collect (by rw [hr]; rfl)
  next owner waiters hr => cases h; exact .fail owner waiters hr
  next hr => cases h; exact .failed hr
  next => cases h

theorem callStep_cases {i : ℕ} {c d : Invocation} {a : CallAction}
    (h : s.callStep i c a c.phase = some (t, d)) : CallMoves s i c a t d := by
  unfold callStep at h
  split at h
  · cases h
    exact .take ‹_›
  · cases h
    exact .register _ ‹_›
  · cases h
    exact .unsent _ ‹_›
  · split_ifs at h with hpublished
    cases h
    exact .sent _ ‹_› hpublished
  · cases h
    exact .forget _ ‹_›
  · split_ifs at h with hwake
    cases h
    exact .wake _ _ ‹_› hwake
  · obtain ⟨outcome, houtcome, heq⟩ := Option.map_eq_some_iff.mp h
    cases heq
    exact .finish _ _ outcome ‹_› houtcome
  · cases h

theorem step_caller {i : ℕ} {a : CallAction} (h : s.step library (.caller i a) = some t) :
    ∃ c u d, s.calls[i]? = some c ∧ CallMoves s i c a u d ∧
      t = { u with calls := u.calls.set i d } := by
  obtain ⟨c, hc, h⟩ := Option.bind_eq_some_iff.mp h
  obtain ⟨⟨u, d⟩, hstep, h⟩ := Option.bind_eq_some_iff.mp h
  cases h
  exact ⟨c, u, d, hc, callStep_cases hstep, rfl⟩

theorem step_of_callStep {i : ℕ} {c d : Invocation} {a : CallAction} (hc : s.calls[i]? = some c)
    (h : s.callStep i c a c.phase = some (t, d)) :
    s.step library (.caller i a) = some { t with calls := t.calls.set i d } := by
  simp [WsClient.step, hc, h]

/-! ### The invariant -/

def Answers (library : Json.Library) (frames : List String) (id : ℤ) (frame : Frame) : Prop :=
  requestIdOf library frame.message = some id ∧ frames[frame.number]? = some frame.message

theorem Answers.mono {frames frames' : List String} {id : ℤ} {frame : Frame}
    (h : Answers library frames id frame) (hframes : frames <+: frames') :
    Answers library frames' id frame := by
  obtain ⟨more, rfl⟩ := hframes
  obtain ⟨hn, hmessage⟩ := List.getElem?_eq_some_iff.mp h.2
  exact ⟨h.1, by rw [List.getElem?_append_left hn, h.2]⟩

/-- An invocation against the ids that were given out and the frames that were read. -/
structure SoundCall (library : Json.Library) (issued : List (ℤ × Owner))
    (frames : List String) (i : ℕ) (c : Invocation) : Prop where
  taken : ∀ id, c.phase.id? = some id → (id, .call i) ∈ issued
  answered : ∀ frame, c.response = some frame →
    ∃ id, c.phase.id? = some id ∧ Answers library frames id frame
  completed : ∀ id frame, c.phase = .done id (.response frame) → Answers library frames id frame
  woken : ∀ id, c.phase = .woken id false → c.response.isSome ∨ c.failed

theorem SoundCall.mono {issued issued' : List (ℤ × Owner)} {frames frames' : List String} {i : ℕ}
    {c : Invocation} (h : SoundCall library issued frames i c) (hissued : issued ⊆ issued')
    (hframes : frames <+: frames') : SoundCall library issued' frames' i c where
  taken id hid := hissued (h.taken id hid)
  answered frame hframe := by
    obtain ⟨id, hid, hanswers⟩ := h.answered frame hframe
    exact ⟨id, hid, hanswers.mono hframes⟩
  completed id frame hd := (h.completed id frame hd).mono hframes
  woken := h.woken

theorem SoundCall.phase {issued : List (ℤ × Owner)} {frames : List String} {i : ℕ}
    {c : Invocation} (h : SoundCall library issued frames i c) {phase : Phase}
    (htaken : ∀ id, phase.id? = some id → (id, .call i) ∈ issued)
    (hid : ∀ id, c.phase.id? = some id → phase.id? = some id)
    (hdone : ∀ id frame, phase = .done id (.response frame) → c.response = some frame)
    (hwoken : ∀ id, phase = .woken id false → c.response.isSome ∨ c.failed) :
    SoundCall library issued frames i { c with phase } where
  taken := htaken
  answered frame hframe := by
    obtain ⟨id, hide, hanswers⟩ := h.answered frame hframe
    exact ⟨id, hid id hide, hanswers⟩
  completed id frame hd := by
    obtain ⟨id', hide, hanswers⟩ := h.answered frame (hdone id frame hd)
    have hsame : some id = some id' := (congrArg Phase.id? hd).symm.trans (hid id' hide)
    rwa [Option.some.inj hsame]
  woken := hwoken

structure Sound (library : Json.Library) (s : WsClient) : Prop where
  fresh : ∀ p ∈ s.issued, p.1 < s.nextId
  once : (s.issued.map Prod.fst).Nodup
  calls : ∀ i c, s.calls[i]? = some c → SoundCall library s.issued s.frames i c
  waiting : ∀ id i, s.pending.find? id = some (id, .call i) →
    ∃ c, s.calls[i]? = some c ∧ c.phase.id? = some id
  storing : ∀ sid i frame, s.reader = .storing sid (.call i) frame →
    ∃ c id, s.calls[i]? = some c ∧ c.phase.id? = some id ∧ Answers library s.frames id frame

/-! ### The pieces of a step -/

/-- An id that was given out before is not the next one. -/
theorem Sound.issue (h : s.Sound library) (owner : Owner) : (s.issue owner).Sound library where
  fresh p hp := by
    have hlt : s.nextId < s.nextId + 1 := by omega
    rcases List.mem_append.mp hp with hp | hp
    · exact (h.fresh p hp).trans hlt
    · rw [List.mem_singleton.mp hp]
      exact hlt
  once := by
    have hnew : s.nextId ∉ s.issued.map Prod.fst := by
      intro hmem
      obtain ⟨p, hp, hid⟩ := List.mem_map.mp hmem
      have hlt := h.fresh p hp
      omega
    show ((s.issued ++ [(s.nextId, owner)]).map Prod.fst).Nodup
    rw [List.map_append, List.map_singleton]
    refine List.nodup_append.mpr ⟨h.once, List.nodup_singleton _, fun a ha b hb hab => ?_⟩
    rw [hab, List.mem_singleton.mp hb] at ha
    exact hnew ha
  calls i c hc := (h.calls i c hc).mono (List.subset_append_left _ _) (List.prefix_refl _)
  waiting := h.waiting
  storing := h.storing

theorem Sound.log (h : s.Sound library) (message : String) : (s.log message).Sound library where
  fresh := h.fresh
  once := h.once
  calls i c hc := (h.calls i c hc).mono (List.Subset.refl _) (List.prefix_append _ _)
  waiting := h.waiting
  storing sid i frame hr := by
    obtain ⟨c, id, hc, hid, hanswers⟩ := h.storing sid i frame hr
    exact ⟨c, id, hc, hid, hanswers.mono (List.prefix_append _ _)⟩

theorem Sound.reader (h : s.Sound library) {reader : Reader}
    (hreader : ∀ sid i frame, reader ≠ .storing sid (.call i) frame) :
    { s with reader }.Sound library where
  fresh := h.fresh
  once := h.once
  calls := h.calls
  waiting := h.waiting
  storing sid i frame hr := absurd hr (hreader sid i frame)

/-- No caller is added to the map. -/
theorem Sound.forget (h : s.Sound library) {pending : KeyedList (Prod.fst : ℤ × Owner → ℤ)}
    (hpending : ∀ id i, pending.find? id = some (id, .call i) →
      s.pending.find? id = some (id, .call i)) :
    { s with pending }.Sound library where
  fresh := h.fresh
  once := h.once
  calls := h.calls
  waiting id i hi := h.waiting id i (hpending id i hi)
  storing := h.storing

theorem Sound.erase (h : s.Sound library) (id : ℤ) :
    { s with pending := s.pending.erase id }.Sound library := by
  refine h.forget fun k i hi => ?_
  by_cases hk : k = id
  · rw [hk, KeyedList.find?_erase_self] at hi
    cases hi
  · rwa [KeyedList.find?_erase_of_ne _ hk] at hi

theorem Sound.set (h : s.Sound library) {i : ℕ} {c d : Invocation} (hc : s.calls[i]? = some c)
    (hd : SoundCall library s.issued s.frames i d)
    (hid : ∀ id, c.phase.id? = some id → d.phase.id? = some id) :
    { s with calls := s.calls.set i d }.Sound library := by
  obtain ⟨hi, -⟩ := List.getElem?_eq_some_iff.mp hc
  have hkept (j : ℕ) (e : Invocation) (he : s.calls[j]? = some e) :
      ∃ e', (s.calls.set i d)[j]? = some e' ∧
        ∀ id, e.phase.id? = some id → e'.phase.id? = some id := by
    by_cases hj : i = j
    · subst hj
      rw [hc] at he
      cases he
      exact ⟨d, List.getElem?_set_self hi, hid⟩
    · exact ⟨e, by rw [List.getElem?_set_ne hj, he], fun _ h => h⟩
  refine ⟨h.fresh, h.once, fun j e he => ?_, fun id j hj => ?_, fun sid j frame hr => ?_⟩
  · by_cases hj : i = j
    · subst hj
      rw [List.getElem?_set_self hi] at he
      cases he
      exact hd
    · rw [List.getElem?_set_ne hj] at he
      exact h.calls j e he
  · obtain ⟨e, he, hide⟩ := h.waiting id j hj
    obtain ⟨e', he', hkeeps⟩ := hkept j e he
    exact ⟨e', he', hkeeps id hide⟩
  · obtain ⟨e, id, he, hide, hanswers⟩ := h.storing sid j frame hr
    obtain ⟨e', he', hkeeps⟩ := hkept j e he
    exact ⟨e', id, he', hkeeps id hide, hanswers⟩

/-- An invocation goes on to a phase that reports no response it does not have. -/
theorem Sound.advance (h : s.Sound library) {i : ℕ} {c : Invocation} {phase : Phase}
    (hc : s.calls[i]? = some c) (hid : c.phase.id? = phase.id?)
    (hdone : ∀ id frame, phase = .done id (.response frame) → c.response = some frame)
    (hwoken : ∀ id, phase = .woken id false → c.response.isSome ∨ c.failed) :
    { s with calls := s.calls.set i { c with phase } }.Sound library := by
  have hcall := h.calls i c hc
  have hd := hcall.phase (fun id hk => hcall.taken id (hid.trans hk))
    (fun id hk => hid.symm.trans hk) hdone hwoken
  exact h.set hc hd fun id hk => hid.symm.trans hk

theorem Sound.register (h : s.Sound library) {i : ℕ} {c : Invocation} {id : ℤ}
    (hc : s.calls[i]? = some c) (hid : c.phase.id? = some id) :
    { s with pending := s.pending.set (id, .call i) }.Sound library where
  fresh := h.fresh
  once := h.once
  calls := h.calls
  waiting k j hj := by
    have hfind : (s.pending.set (id, .call i)).find? k = some (k, .call j) := hj
    rw [KeyedList.find?_set] at hfind
    split_ifs at hfind with hk
    · cases hfind
      exact ⟨c, hc, hid⟩
    · exact h.waiting k j hfind
  storing := h.storing

/-- A waiter is told; its id stays. -/
theorem Sound.notify (h : s.Sound library) {f : Invocation → Invocation} {owner : Owner}
    (hphase : ∀ c, (f c).phase = c.phase)
    (hf : ∀ i c, owner = .call i → s.calls[i]? = some c →
      SoundCall library s.issued s.frames i (f c)) : (s.notify f owner).Sound library := by
  cases owner with
  | session => exact h
  | call i =>
    cases hc : s.calls[i]? with
    | none =>
      have hsame : s.calls.modify i f = s.calls := by
        rw [List.modify_eq_set_getElem?, hc]
        rfl
      show { s with calls := s.calls.modify i f }.Sound library
      rw [hsame]
      exact h
    | some c =>
      have hset : s.calls.modify i f = s.calls.set i (f c) := by
        rw [List.modify_eq_set_getElem?, hc]
        rfl
      show { s with calls := s.calls.modify i f }.Sound library
      rw [hset]
      exact h.set hc (hf i c rfl hc) fun id hid => by rw [hphase, hid]

theorem start_sound : start.Sound library := by
  refine ⟨fun p hp => ?_, List.nodup_nil, fun i c hc => ?_, fun id i hi => ?_,
    fun sid i frame hr => ?_⟩
  · cases hp
  · cases hc
  · cases hi
  · cases hr

theorem Sound.caller (h : s.Sound library) {i : ℕ} {c d : Invocation} {a : CallAction}
    (hc : s.calls[i]? = some c) (hm : CallMoves s i c a t d) :
    { t with calls := t.calls.set i d }.Sound library := by
  have hcall := h.calls i c hc
  cases hm with
  | take hphase =>
    have hnone (id : ℤ) : c.phase.id? ≠ some id := by
      rw [hphase]
      exact fun h => by cases h
    have hold := hcall.mono (List.subset_append_left s.issued [(s.nextId, .call i)])
      (List.prefix_refl s.frames)
    refine (h.issue (.call i)).set hc (hold.phase ?_ (fun id hid => absurd hid (hnone id)) ?_ ?_)
      fun id hid => absurd hid (hnone id)
    · intro id hid
      cases hid
      exact List.mem_append_right _ (List.mem_singleton_self _)
    · intro id frame hd
      cases hd
    · intro id hw
      cases hw
  | register id hphase =>
    have hid : c.phase.id? = some id := by rw [hphase]; rfl
    refine (h.register hc hid).advance hc hid (fun id frame hd => ?_) fun id hw => ?_
    · cases hd
    · cases hw
  | unsent id hphase =>
    refine h.advance hc (by rw [hphase]; rfl) (fun id frame hd => ?_) fun id hw => ?_
    · cases hd
    · cases hw
  | sent id hphase hpublished =>
    refine h.advance hc (by rw [hphase]; rfl) (fun id frame hd => ?_) fun id hw => ?_
    · cases hd
    · cases hw
  | forget id hphase =>
    refine (h.erase id).advance hc (by rw [hphase]; rfl) (fun id frame hd => ?_) fun id hw => ?_
    · cases hd
    · cases hw
  | wake expired id hphase hwake =>
    refine h.advance hc (by rw [hphase]; rfl) (fun id frame hd => ?_) fun id hw => ?_
    · cases hd
    · have hflags : (!(c.response.isSome || c.failed)) = false := by
        injection hw
      rw [Bool.not_eq_false', Bool.or_eq_true] at hflags
      exact hflags
  | finish id timedOut outcome hphase houtcome =>
    refine (h.erase id).advance hc (by rw [hphase]; rfl) (fun id frame hd => ?_) fun id hw => ?_
    · have hresponse : outcome = .response frame := by
        injection hd
      rw [hresponse] at houtcome
      exact Invocation.response_of_outcome? houtcome
    · cases hw

/-- The waiter whose entry a frame takes gets a frame with its own id. -/
theorem Sound.dispatch (h : s.Sound library) (id : ℤ) (message : String) :
    (s.dispatch library id message).Sound library := by
  unfold WsClient.dispatch
  cases hfind : (requestIdOf library message).bind s.pending.find? with
  | none =>
    refine (h.log message).reader fun sid i frame hr => ?_
    cases hr
  | some entry =>
    obtain ⟨requestId, owner⟩ := entry
    obtain ⟨key, hkey, hentry⟩ := Option.bind_eq_some_iff.mp hfind
    obtain rfl : requestId = key := KeyedList.key_of_find? hentry
    have herased := (h.log message).erase requestId
    refine ⟨herased.fresh, herased.once, herased.calls, herased.waiting, fun sid i frame hr => ?_⟩
    obtain ⟨-, rfl, rfl⟩ := Reader.storing.inj hr
    obtain ⟨c, hc, hid⟩ := h.waiting requestId i hentry
    refine ⟨c, requestId, hc, hid, hkey, ?_⟩
    simp [WsClient.log]

theorem Sound.session (h : s.Sound library) {a : ReaderAction}
    (hm : ReaderMoves library s a t) : t.Sound library := by
  have hfree {reader : Reader} (hr : reader.free) (sid : ℤ) (i : ℕ) (frame : Frame) :
      reader ≠ .storing sid (.call i) frame := by
    rintro rfl
    cases hr
  cases hm with
  | turn _ reader _ hnext => exact h.reader (hfree hnext)
  | issue _ reader _ hnext => exact (h.issue .session).reader (hfree hnext)
  | drop id message _ => exact (h.log message).reader (hfree rfl)
  | subscribe id _ =>
    have hset : { s with pending := s.pending.set (id, .session) }.Sound library := by
      refine h.forget fun k i hi => ?_
      rw [KeyedList.find?_set] at hi
      split_ifs at hi with hk
      · cases hi
      · exact hi
    exact hset.reader (hfree rfl)
  | read id message _ => exact h.dispatch id message
  | store id owner frame hr =>
    have htold : (s.notify (fun c => { c with response := some frame }) owner).Sound library := by
      refine h.notify (fun _ => rfl) fun i c howner hc => ?_
      obtain ⟨c', id', hc', hid, hanswers⟩ := h.storing id i frame (howner ▸ hr)
      obtain rfl : c' = c := Option.some.inj (hc'.symm.trans hc)
      have hcall := h.calls i c' hc'
      refine ⟨hcall.taken, fun other hother => ?_, hcall.completed, fun _ _ => .inl rfl⟩
      cases hother
      exact ⟨id', hid, hanswers⟩
    exact htold.reader (hfree rfl)
  | unsubscribe id _ => exact (h.erase id).reader (hfree rfl)
  | collect _ =>
    have hempty : { s with pending := .empty _ }.Sound library := by
      refine h.forget fun k i hi => ?_
      cases hi
    refine hempty.reader fun sid i frame hr => ?_
    cases hr
  | fail owner waiters hr =>
    have htold : (s.notify (fun c => { c with failed := true }) owner).Sound library := by
      refine h.notify (fun _ => rfl) fun i c howner hc => ?_
      have hcall := h.calls i c hc
      exact ⟨hcall.taken, hcall.answered, hcall.completed, fun _ _ => .inr rfl⟩
    refine htold.reader fun sid i frame hr => ?_
    cases hr
  | failed hr => exact h.reader (hfree rfl)

theorem begin_get {calls : List Invocation} {method : String} {i : ℕ} {c : Invocation}
    (h : (calls ++ [Invocation.of method])[i]? = some c) :
    calls[i]? = some c ∨ i = calls.length ∧ c = Invocation.of method := by
  rcases Nat.lt_or_ge i calls.length with hi | hi
  · rw [List.getElem?_append_left hi] at h
    exact .inl h
  · rw [List.getElem?_append_right hi, List.getElem?_singleton] at h
    split_ifs at h with hzero
    exact .inr ⟨by omega, (Option.some.inj h).symm⟩

/-- A new invocation has no id yet. -/
theorem Sound.begin (h : s.Sound library) (method : String) :
    { s with calls := s.calls ++ [Invocation.of method] }.Sound library := by
  have hkept {i : ℕ} {c : Invocation} (hc : s.calls[i]? = some c) :
      (s.calls ++ [Invocation.of method])[i]? = some c := by
    obtain ⟨hi, -⟩ := List.getElem?_eq_some_iff.mp hc
    rw [List.getElem?_append_left hi, hc]
  refine ⟨h.fresh, h.once, fun i c hc => ?_, fun id i hi => ?_, fun sid i frame hr => ?_⟩
  · rcases begin_get hc with hold | ⟨-, rfl⟩
    · exact h.calls i c hold
    · refine ⟨fun id hid => ?_, fun frame hframe => ?_, fun id frame hd => ?_, fun id hw => ?_⟩
      · cases hid
      · cases hframe
      · cases hd
      · cases hw
  · obtain ⟨c, hc, hid⟩ := h.waiting id i hi
    exact ⟨c, hkept hc, hid⟩
  · obtain ⟨c, id, hc, hid, hanswers⟩ := h.storing sid i frame hr
    exact ⟨c, id, hkept hc, hid, hanswers⟩

theorem Sound.step (h : s.Sound library) {a : Action} (hs : s.step library a = some t) :
    t.Sound library := by
  cases a with
  | begin method =>
    cases hs
    exact h.begin method
  | caller i a =>
    obtain ⟨c, u, d, hc, hm, rfl⟩ := step_caller hs
    exact h.caller hc hm
  | reader a => exact h.session (readerStep_cases hs)

/-- The runs of the client: any interleaving of the callers and the session thread. -/
abbrev Reaches (library : Json.Library) (s t : WsClient) : Prop :=
  Transition.Reaches (step library) (fun _ _ => True) s t

theorem sound_of_reaches (h : Reaches library start s) : s.Sound library :=
  h.invariant (fun _ _ _ hI _ hs => hI.step hs) start_sound

/-! ### Correlation -/

def Returned (s : WsClient) (i : ℕ) (id : ℤ) (outcome : Outcome) : Prop :=
  ∃ c, s.calls[i]? = some c ∧ c.phase = .done id outcome

/-- Ids are given out once, a response goes to the request with its id, and no frame completes two
invocations or one that timed out. -/
structure Correlated (library : Json.Library) (s : WsClient) : Prop where
  once : (s.issued.map Prod.fst).Nodup
  taken : ∀ i id outcome, s.Returned i id outcome → (id, .call i) ∈ s.issued
  own : ∀ i id frame, s.Returned i id (.response frame) →
    requestIdOf library frame.message = some id ∧ s.frames[frame.number]? = some frame.message
  single : ∀ i j id id' frame frame', s.Returned i id (.response frame) →
    s.Returned j id' (.response frame') → frame.number = frame'.number → i = j
  late : ∀ i j id id' frame, s.Returned i id .timedOut → s.Returned j id' (.response frame) →
    requestIdOf library frame.message ≠ some id

theorem dispatchMessage_of_requestIdOf {id : ℤ} {message : String}
    (h : requestIdOf library message = some id) :
    ∃ response, library.parse message = some response ∧
      dispatchMessage library id message = some response := by
  unfold requestIdOf at h
  cases hparse : library.parse message with
  | none =>
    rw [hparse] at h
    cases h
  | some parsed =>
    rw [hparse] at h
    dsimp only at h
    split_ifs at h with hevent
    refine ⟨parsed, rfl, ?_⟩
    unfold dispatchMessage
    rw [hparse]
    dsimp only
    rw [if_neg hevent, if_pos h]

/-- What `call` makes of the response it gets, see `Binance.call`. -/
theorem Correlated.classify (h : s.Correlated library) {i : ℕ} {id : ℤ} {frame : Frame}
    (hr : s.Returned i id (.response frame)) (method : String) :
    ∃ response, library.parse frame.message = some response ∧
      call library method ⟨id, .frame frame.message⟩ = classify library response := by
  obtain ⟨response, hparse, hdispatch⟩ := dispatchMessage_of_requestIdOf (h.own i id frame hr).1
  exact ⟨response, hparse, by simp [call, hdispatch]⟩

/-! ### One outcome -/

theorem notify_phase {f : Invocation → Invocation} (hphase : ∀ c, (f c).phase = c.phase)
    (owner : Owner) {i : ℕ} {c : Invocation} (hc : s.calls[i]? = some c) :
    ∃ c', (s.notify f owner).calls[i]? = some c' ∧ c'.phase = c.phase := by
  cases owner with
  | session => exact ⟨c, hc, rfl⟩
  | call j =>
    by_cases hj : j = i
    · exact ⟨f c, by simp [notify, hj, hc], hphase c⟩
    · exact ⟨c, by simp [notify, hj, hc], rfl⟩

theorem dispatch_calls (id : ℤ) (message : String) :
    (s.dispatch library id message).calls = s.calls := by
  unfold dispatch
  cases (requestIdOf library message).bind s.pending.find? <;> rfl

/-- The session thread does not move an invocation. -/
theorem ReaderMoves.phase {a : ReaderAction} (hm : ReaderMoves library s a t) {i : ℕ}
    {c : Invocation} (hc : s.calls[i]? = some c) :
    ∃ c', t.calls[i]? = some c' ∧ c'.phase = c.phase := by
  cases hm with
  | turn _ reader _ _ => exact ⟨c, hc, rfl⟩
  | issue _ reader _ _ => exact ⟨c, hc, rfl⟩
  | drop id message _ => exact ⟨c, hc, rfl⟩
  | subscribe id _ => exact ⟨c, hc, rfl⟩
  | read id message _ => exact ⟨c, by rw [dispatch_calls, hc], rfl⟩
  | store id owner frame _ =>
    exact notify_phase (f := fun c => { c with response := some frame }) (fun _ => rfl) owner hc
  | unsubscribe id _ => exact ⟨c, hc, rfl⟩
  | collect _ => exact ⟨c, hc, rfl⟩
  | fail owner waiters _ =>
    exact notify_phase (f := fun c => { c with failed := true }) (fun _ => rfl) owner hc
  | failed _ => exact ⟨c, hc, rfl⟩

theorem CallMoves.calls {i : ℕ} {c d : Invocation} {a : CallAction}
    (hm : CallMoves s i c a t d) : t.calls = s.calls := by
  cases hm <;> rfl

/-- A step of another thread does not move an invocation. -/
theorem step_phase {a : Action} {i : ℕ} {c : Invocation} (hs : s.step library a = some t)
    (hc : s.calls[i]? = some c) (ha : ∀ b, a ≠ .caller i b) :
    ∃ c', t.calls[i]? = some c' ∧ c'.phase = c.phase := by
  cases a with
  | begin method =>
    cases hs
    obtain ⟨hi, -⟩ := List.getElem?_eq_some_iff.mp hc
    exact ⟨c, by rw [List.getElem?_append_left hi, hc], rfl⟩
  | caller j b =>
    obtain ⟨e, u, d, -, hm, rfl⟩ := step_caller hs
    have hj : j ≠ i := fun h => ha b (by rw [h])
    refine ⟨c, ?_, rfl⟩
    show (u.calls.set j d)[i]? = some c
    rw [List.getElem?_set_ne hj, hm.calls, hc]
  | reader b => exact (readerStep_cases hs).phase hc

/-- A step of an invocation brings it nearer to its end. -/
theorem CallMoves.left_lt {i : ℕ} {c d : Invocation} {a : CallAction}
    (hm : CallMoves s i c a t d) : d.phase.left < c.phase.left := by
  cases hm with
  | take h => simp [h, Phase.left]
  | register id h => simp [h, Phase.left]
  | unsent id h => simp [h, Phase.left]
  | sent id h _ => simp [h, Phase.left]
  | forget id h => simp [h, Phase.left]
  | wake _ id h _ => simp [h, Phase.left]
  | finish id _ outcome h _ => simp [h, Phase.left]

/-- An invocation that has returned takes no more steps. -/
theorem Returned.step {a : Action} {i : ℕ} {id : ℤ} {outcome : Outcome}
    (h : s.Returned i id outcome) (hs : s.step library a = some t) : t.Returned i id outcome := by
  obtain ⟨c, hc, hphase⟩ := h
  by_cases ha : ∃ b, a = .caller i b
  · obtain ⟨b, rfl⟩ := ha
    obtain ⟨c', u, d, hc', hm, -⟩ := step_caller hs
    obtain rfl : c = c' := Option.some.inj (hc.symm.trans hc')
    have hleft := hm.left_lt
    rw [hphase] at hleft
    exact absurd hleft (Nat.not_lt_zero _)
  · obtain ⟨c', hc', hsame⟩ := step_phase hs hc fun b hb => ha ⟨b, hb⟩
    exact ⟨c', hc', hsame.trans hphase⟩

/-- Every phase has a step that no other thread can block. -/
theorem SoundCall.enabled {issued : List (ℤ × Owner)} {frames : List String} {i : ℕ}
    {c : Invocation} (h : SoundCall library issued frames i c) (hleft : c.phase.left ≠ 0) :
    ∃ a t d, s.callStep i c a c.phase = some (t, d) := by
  cases hphase : c.phase with
  | begun => exact ⟨.take, _, _, rfl⟩
  | numbered id => exact ⟨.register, _, _, rfl⟩
  | registered id => exact ⟨.send false, _, _, rfl⟩
  | unsent id => exact ⟨.forget, _, _, rfl⟩
  | sent id => exact ⟨.wake true, _, _, if_pos (.inr (.inr rfl))⟩
  | woken id timedOut =>
    obtain ⟨outcome, houtcome⟩ : ∃ outcome, c.outcome? timedOut = some outcome := by
      cases timedOut with
      | true => exact ⟨.timedOut, rfl⟩
      | false =>
        by_cases hfailed : c.failed
        · exact ⟨.connectionLost, by simp [Invocation.outcome?, hfailed]⟩
        · obtain ⟨frame, hframe⟩ :=
            Option.isSome_iff_exists.mp ((h.woken id hphase).resolve_right hfailed)
          exact ⟨.response frame, by simp [Invocation.outcome?, hfailed, hframe]⟩
    refine ⟨.finish, { s with pending := s.pending.erase id },
      { c with phase := .done id outcome }, ?_⟩
    simp only [callStep, houtcome, Option.map_some]
  | done id outcome => exact absurd (by rw [hphase]; rfl) hleft

def timeAnswer : String := "\x7b\"id\":1,\"status\":200,\"result\":\x7b\"serverTime\":5\x7d\x7d"
def firstAnswer : String := "\x7b\"id\":3,\"status\":200,\"result\":\x7b\x7d\x7d"
def secondAnswer : String := "\x7b\"id\":4,\"status\":200,\"result\":\x7b\x7d\x7d"

def answerLibrary : Json.Library where
  parse text :=
    if text = timeAnswer then
      some (.obj [("id", .unsigned 1), ("status", .unsigned 200),
        ("result", .obj [("serverTime", .unsigned 5)])])
    else if text = firstAnswer then
      some (.obj [("id", .unsigned 3), ("status", .unsigned 200), ("result", .obj [])])
    else if text = secondAnswer then
      some (.obj [("id", .unsigned 4), ("status", .unsigned 200), ("result", .obj [])])
    else none
  dump _ := ""
  truncate _ := 0

end WsClient

end ExchangeGateway.Binance
