import ExchangeGateway.Exchange.Frames
import ExchangeGateway.Lib.Progress
import Mathlib.Data.Prod.Lex

/-! The private orders feed of OKX (`exchange/okx/okx_ws_client.cpp`) and the reconnect supervisor
that drives it (`exchange/ws_feed_support.hpp`). The supervisor thread, the pinger and the thread
that starts and stops the feed take turns; what the socket answers is part of the step. -/
namespace ExchangeGateway.Okx

variable (library : Json.Library)

/-- A text field, empty when it is absent or of another type. -/
def checkedString (node : Json) (name : String) : String :=
  ((node.find? name).bind Json.string?).getD ""

def loginAccepted (reply : String) : Bool :=
  match library.parse reply with
  | some ack =>
    ack.isObject && checkedString ack "event" == "login" && checkedString ack "code" == "0"
  | none => false

def subscribeAccepted (reply : String) : Bool :=
  match library.parse reply with
  | some ack => ack.isObject && checkedString ack "event" == "subscribe"
  | none => false

/-- What the read loop makes of a text frame. Events other than errors are informational. -/
def frameEffects (message : String) : List FeedEffect :=
  if message = "pong" ∨ message = "ping" then []
  else
    match library.parse message with
    | none => [.protocolWarning "non-JSON text frame skipped"]
    | some parsed =>
      match (parsed.find? "event").bind Json.string? with
      | some event =>
        if event = "error" then [.protocolWarning ("venue error event: " ++ message)] else []
      | none => dispatchOrdersMessage library parsed

structure SessionOutcome where
  failure : String
  healthy : Bool := false
  deriving DecidableEq, Repr

/-- What the supervisor thread reads, emits and hands on, in order. -/
inductive FeedStep
  | connecting (url : String)
  | read (message : String)
  | connected
  | effect (effect : FeedEffect)
  | disconnected (outcome : SessionOutcome)
  /-- `backoff_for` is asked for this index. -/
  | backoff (index : ℤ)
  | stopped
  deriving DecidableEq, Repr

/-- Where the supervisor thread stands in `run` and `run_session`. -/
inductive Supervisor
  | off
  | polling
  | connecting
  | sendingLogin
  | awaitingLogin
  | sendingSubscribe
  | awaitingSubscribe
  /-- At the head of the read loop; `inbound` is `inbound_after_subscribe`. -/
  | reading (inbound : Bool)
  | blocked (inbound : Bool)
  /-- A frame was read; these effects of it are left. -/
  | delivering (effects : List FeedEffect)
  | ended (outcome : SessionOutcome)
  | sleeping
  | finished
  deriving DecidableEq, Repr

/-- `trace` is the history of the feed. -/
structure OrdersFeed where
  running : Bool := false
  stopping : Bool := false
  watchdogFired : Bool := false
  connectAttempt : ℕ := 0
  supervisor : Supervisor := .off
  trace : List FeedStep := []

inductive FeedAction
  | start
  /-- `request_stop`, which also closes the connection. -/
  | stop
  | join
  /-- The pinger saw no traffic for too long. -/
  | watchdog
  | poll
  | connect (error : Option ℤ)
  | sendLogin (ok : Bool)
  | readLogin (reply : Option String)
  | sendSubscribe (ok : Bool)
  | readSubscribe (reply : Option String)
  /-- `aged`: the session was subscribed for `kHealthySessionSeconds`. -/
  | pollSession (aged : Bool)
  | read (message : Option String) (aged : Bool)
  | deliver
  | finish
  | wake
  deriving DecidableEq, Repr

/-- The steps of the supervisor thread. -/
def FeedAction.supervised : FeedAction → Bool
  | .start | .stop | .join | .watchdog => false
  | _ => true

namespace OrdersFeed

def log (s : OrdersFeed) (steps : List FeedStep) : OrdersFeed :=
  { s with trace := s.trace ++ steps }

/-- The session returns without having subscribed. -/
def fail (s : OrdersFeed) (failure : String) : OrdersFeed :=
  { s with supervisor := .ended { failure } }

/-- Why the read loop ended when a read failed. -/
def lostReason (s : OrdersFeed) : String :=
  if s.stopping then ""
  else if s.watchdogFired then "watchdog closed a silent connection"
  else "connection lost"

/-- `unsigned`, cast to `int` for `backoff_for`. -/
def kUnsignedRange : ℕ := 0x100000000

/-- One session is over: count it, report it and ask for the backoff, unless the feed stops. -/
def conclude (s : OrdersFeed) (outcome : SessionOutcome) : OrdersFeed :=
  if s.stopping then { s.log [.stopped] with supervisor := .finished }
  else
    let attempt := ((if outcome.healthy then 0 else s.connectAttempt) + 1) % kUnsignedRange
    { s.log [.disconnected outcome, .backoff (Json.int32 attempt)] with
      supervisor := .sleeping
      connectAttempt := attempt }

/-- One step of the supervisor thread. Login and subscription take one frame each. -/
def superviseStep (url : String) (s : OrdersFeed) : FeedAction → Supervisor → Option OrdersFeed
  | .poll, .polling =>
    if s.stopping then some { s.log [.stopped] with supervisor := .finished }
    else some { s.log [.connecting url] with supervisor := .connecting }
  | .connect none, .connecting => some { s with supervisor := .sendingLogin }
  | .connect (some error), .connecting =>
    some (s.fail ("connect failed to " ++ url ++ ": error " ++ toString error))
  | .sendLogin true, .sendingLogin => some { s with supervisor := .awaitingLogin }
  | .sendLogin false, .sendingLogin => some (s.fail "failed to send login request")
  | .readLogin none, .awaitingLogin => some (s.fail "connection closed waiting for login ack")
  | .readLogin (some reply), .awaitingLogin =>
    if loginAccepted library reply then
      some { s.log [.read reply] with supervisor := .sendingSubscribe }
    else some ((s.log [.read reply]).fail ("login rejected: " ++ reply))
  | .sendSubscribe true, .sendingSubscribe => some { s with supervisor := .awaitingSubscribe }
  | .sendSubscribe false, .sendingSubscribe => some (s.fail "failed to send subscribe request")
  | .readSubscribe none, .awaitingSubscribe =>
    some (s.fail "connection closed waiting for subscribe ack")
  | .readSubscribe (some reply), .awaitingSubscribe =>
    if subscribeAccepted library reply then
      some { s.log [.read reply, .connected] with
        supervisor := .reading false
        watchdogFired := false }
    else some ((s.log [.read reply]).fail ("subscribe rejected: " ++ reply))
  | .pollSession aged, .reading inbound =>
    if s.stopping then some { s with supervisor := .ended ⟨"", inbound || aged⟩ }
    else some { s with supervisor := .blocked inbound }
  | .read none aged, .blocked inbound =>
    some { s with supervisor := .ended ⟨s.lostReason, inbound || aged⟩ }
  | .read (some message) _, .blocked _ =>
    some { s.log [.read message] with supervisor := .delivering (frameEffects library message) }
  | .deliver, .delivering (effect :: effects) =>
    some { s.log [.effect effect] with supervisor := .delivering effects }
  | .deliver, .delivering [] => some { s with supervisor := .reading true }
  | .finish, .ended outcome => some (s.conclude outcome)
  | .wake, .sleeping => some { s with supervisor := .polling }
  | _, _ => none

def pinging : Supervisor → Bool
  | .reading _ | .blocked _ | .delivering _ => true
  | _ => false

def step (url : String) (s : OrdersFeed) : FeedAction → Option OrdersFeed
  | .start =>
    if s.running then some s
    else
      some { s with
        running := true
        stopping := false
        connectAttempt := 0
        supervisor := .polling }
  | .stop => if s.supervisor = .off then some s else some { s with stopping := true }
  | .join =>
    if s.supervisor = .finished then some { s with supervisor := .off, running := false } else none
  | .watchdog => if pinging s.supervisor then some { s with watchdogFired := true } else none
  | a => s.superviseStep library url a s.supervisor

/-! ### What a step can do -/

/-- The steps of the supervisor thread, by where it stands before and after them, with what they
add to the trace. -/
inductive Turn (url : String) (s : OrdersFeed) : Supervisor → List FeedStep → Supervisor → Prop
  | halt (h : s.stopping) : Turn url s .polling [.stopped] .finished
  | opened (h : ¬ s.stopping) : Turn url s .polling [.connecting url] .connecting
  | established : Turn url s .connecting [] .sendingLogin
  | loginSent : Turn url s .sendingLogin [] .awaitingLogin
  | loggedIn (reply : String) (h : loginAccepted library reply) :
      Turn url s .awaitingLogin [.read reply] .sendingSubscribe
  | loginRefused (reply failure : String) (h : ¬ loginAccepted library reply) :
      Turn url s .awaitingLogin [.read reply] (.ended { failure })
  | subscribeSent : Turn url s .sendingSubscribe [] .awaitingSubscribe
  | subscribed (reply : String) (h : subscribeAccepted library reply) :
      Turn url s .awaitingSubscribe [.read reply, .connected] (.reading false)
  | subscribeRefused (reply failure : String) (h : ¬ subscribeAccepted library reply) :
      Turn url s .awaitingSubscribe [.read reply] (.ended { failure })
  | connectFailed (failure : String) : Turn url s .connecting [] (.ended { failure })
  | loginFailed (phase : Supervisor) (failure : String)
      (h : phase = .sendingLogin ∨ phase = .awaitingLogin) : Turn url s phase [] (.ended { failure })
  | subscribeFailed (phase : Supervisor) (failure : String)
      (h : phase = .sendingSubscribe ∨ phase = .awaitingSubscribe) :
      Turn url s phase [] (.ended { failure })
  | block (inbound : Bool) (h : ¬ s.stopping) : Turn url s (.reading inbound) [] (.blocked inbound)
  | leave (inbound : Bool) (outcome : SessionOutcome) (h : s.stopping)
      (hhealthy : inbound → outcome.healthy) :
      Turn url s (.reading inbound) [] (.ended outcome)
  | lost (inbound : Bool) (outcome : SessionOutcome) (hhealthy : inbound → outcome.healthy) :
      Turn url s (.blocked inbound) [] (.ended outcome)
  | frame (inbound : Bool) (message : String) :
      Turn url s (.blocked inbound) [.read message] (.delivering (frameEffects library message))
  | deliver (effect : FeedEffect) (effects : List FeedEffect) :
      Turn url s (.delivering (effect :: effects)) [.effect effect] (.delivering effects)
  | delivered : Turn url s (.delivering []) [] (.reading true)
  | halted (outcome : SessionOutcome) (h : s.stopping) : Turn url s (.ended outcome) [.stopped] .finished
  | wake : Turn url s .sleeping [] .polling

inductive Moves (url : String) (s : OrdersFeed) : FeedAction → OrdersFeed → Prop
  | aside (a : FeedAction) (t : OrdersFeed) (ha : a.supervised = false)
      (hphase : t.supervisor = s.supervisor) (htrace : t.trace = s.trace)
      (hattempt : t.connectAttempt = s.connectAttempt) (hrunning : t.running = s.running) :
      Moves url s a t
  | started (h : s.running = false) :
      Moves url s .start
        { s with running := true, stopping := false, connectAttempt := 0, supervisor := .polling }
  | joined (h : s.supervisor = .finished) :
      Moves url s .join { s with supervisor := .off, running := false }
  | turned (a : FeedAction) (steps : List FeedStep) (next : Supervisor) (fired : Bool)
      (ha : a.supervised) (h : Turn library url s s.supervisor steps next) :
      Moves url s a { s.log steps with supervisor := next, watchdogFired := fired }
  | gap (outcome : SessionOutcome) (hphase : s.supervisor = .ended outcome) (h : ¬ s.stopping) :
      Moves url s .finish (s.conclude outcome)

variable {library} {url : String} {s t : OrdersFeed} {a : FeedAction}

theorem log_nil (s : OrdersFeed) : s.log [] = s := by simp [log]

theorem turned_nil {next : Supervisor} (ha : a.supervised)
    (h : Turn library url s s.supervisor [] next) :
    Moves library url s a { s with supervisor := next } := by
  have hmoves := Moves.turned a [] next s.watchdogFired ha h
  rwa [log_nil] at hmoves

theorem superviseStep_cases (h : s.superviseStep library url a s.supervisor = some t) :
    Moves library url s a t := by
  generalize hphase : s.supervisor = phase at h
  unfold superviseStep at h
  split at h
  · split_ifs at h with hstop
    · cases h
      exact .turned _ _ _ s.watchdogFired rfl (hphase ▸ .halt hstop)
    · cases h
      exact .turned _ _ _ s.watchdogFired rfl (hphase ▸ .opened hstop)
  · cases h
    exact turned_nil rfl (hphase ▸ .established)
  · cases h
    exact turned_nil rfl (hphase ▸ .connectFailed _)
  · cases h
    exact turned_nil rfl (hphase ▸ .loginSent)
  · cases h
    exact turned_nil rfl (hphase ▸ .loginFailed _ _ (.inl rfl))
  · cases h
    exact turned_nil rfl (hphase ▸ .loginFailed _ _ (.inr rfl))
  · split_ifs at h with haccepted
    · cases h
      exact .turned _ _ _ s.watchdogFired rfl (hphase ▸ .loggedIn _ haccepted)
    · cases h
      exact .turned _ _ _ s.watchdogFired rfl (hphase ▸ .loginRefused _ _ haccepted)
  · cases h
    exact turned_nil rfl (hphase ▸ .subscribeSent)
  · cases h
    exact turned_nil rfl (hphase ▸ .subscribeFailed _ _ (.inl rfl))
  · cases h
    exact turned_nil rfl (hphase ▸ .subscribeFailed _ _ (.inr rfl))
  · split_ifs at h with haccepted
    · cases h
      exact .turned _ _ _ false rfl (hphase ▸ .subscribed _ haccepted)
    · cases h
      exact .turned _ _ _ s.watchdogFired rfl (hphase ▸ .subscribeRefused _ _ haccepted)
  · split_ifs at h with hstop
    · cases h
      exact turned_nil rfl (hphase ▸ .leave _ _ hstop fun hinbound => by simp [hinbound])
    · cases h
      exact turned_nil rfl (hphase ▸ .block _ hstop)
  · cases h
    exact turned_nil rfl (hphase ▸ .lost _ _ fun hinbound => by simp [hinbound])
  · cases h
    exact .turned _ _ _ s.watchdogFired rfl (hphase ▸ .frame _ _)
  · cases h
    exact .turned _ _ _ s.watchdogFired rfl (hphase ▸ .deliver _ _)
  · cases h
    exact turned_nil rfl (hphase ▸ .delivered)
  · cases h
    by_cases hstop : s.stopping
    · unfold conclude
      rw [if_pos hstop]
      exact .turned _ _ _ s.watchdogFired rfl (hphase ▸ .halted _ hstop)
    · exact .gap _ hphase hstop
  · cases h
    exact turned_nil rfl (hphase ▸ .wake)
  · cases h

theorem step_cases (h : s.step library url a = some t) : Moves library url s a t := by
  unfold step at h
  split at h
  · split_ifs at h with hrunning
    · cases h
      exact .aside _ _ rfl rfl rfl rfl rfl
    · cases h
      exact .started (by simpa using hrunning)
  · split_ifs at h
    · cases h
      exact .aside _ _ rfl rfl rfl rfl rfl
    · cases h
      exact .aside _ _ rfl rfl rfl rfl rfl
  · split_ifs at h with hover
    cases h
    exact .joined hover
  · split_ifs at h
    cases h
    exact .aside _ _ rfl rfl rfl rfl rfl
  · exact superviseStep_cases h

end OrdersFeed

/-! ### The contract of the feed -/

/-- The connection as the users of the feed know it. -/
inductive Link
  | down
  /-- The loss was reported and the wait before the next session was not asked for yet. -/
  | lost
  | opened
  | loggedIn
  | refused
  | subscribed
  /-- `inbound` says that something was read, and these effects of it are owed. -/
  | up (inbound : Bool) (owed : List FeedEffect)
  deriving DecidableEq, Repr

/-- What the trace of a feed may go on with: sessions that log in, subscribe and hand on every
effect of every frame in order, and waits whose index is the number of sessions since the last
healthy one. -/
structure Contract where
  link : Link := .down
  failures : ℕ := 0
  deriving DecidableEq, Repr

namespace Contract

variable (library : Json.Library)

def next (failures : ℕ) : Link → FeedStep → Option Contract
  | .down, .connecting _ => some ⟨.opened, failures⟩
  | .opened, .read message =>
    some ⟨if loginAccepted library message then .loggedIn else .refused, failures⟩
  | .loggedIn, .read message =>
    some ⟨if subscribeAccepted library message then .subscribed else .refused, failures⟩
  | .subscribed, .connected => some ⟨.up false [], failures⟩
  | .up _ [], .read message => some ⟨.up true (frameEffects library message), failures⟩
  | .up inbound (owed :: rest), .effect effect =>
    if effect = owed then some ⟨.up inbound rest, failures⟩ else none
  | .opened, .disconnected outcome | .loggedIn, .disconnected outcome
  | .refused, .disconnected outcome =>
    if outcome.healthy then none else some ⟨.lost, failures + 1⟩
  | .up inbound [], .disconnected outcome =>
    if inbound && !outcome.healthy then none
    else some ⟨.lost, (if outcome.healthy then 0 else failures) + 1⟩
  | .lost, .backoff index => if index = Json.int32 failures then some ⟨.down, failures⟩ else none
  | .down, .stopped | .opened, .stopped | .loggedIn, .stopped | .refused, .stopped
  | .up _ [], .stopped => some {}
  | _, _ => none

def run (trace : List FeedStep) : Option Contract :=
  trace.foldlM (fun contract => next library contract.failures contract.link) {}

inductive Allows : Contract → FeedStep → Contract → Prop
  | connecting (url : String) (n : ℕ) : Allows ⟨.down, n⟩ (.connecting url) ⟨.opened, n⟩
  | loggedIn (message : String) (n : ℕ) (h : loginAccepted library message) :
      Allows ⟨.opened, n⟩ (.read message) ⟨.loggedIn, n⟩
  | subscribed (message : String) (n : ℕ) (h : subscribeAccepted library message) :
      Allows ⟨.loggedIn, n⟩ (.read message) ⟨.subscribed, n⟩
  | refused (link : Link) (message : String) (n : ℕ) (h : link = .opened ∨ link = .loggedIn) :
      Allows ⟨link, n⟩ (.read message) ⟨.refused, n⟩
  | connected (n : ℕ) : Allows ⟨.subscribed, n⟩ .connected ⟨.up false [], n⟩
  | frame (inbound : Bool) (message : String) (n : ℕ) :
      Allows ⟨.up inbound [], n⟩ (.read message) ⟨.up true (frameEffects library message), n⟩
  | effect (inbound : Bool) (effect : FeedEffect) (owed : List FeedEffect) (n : ℕ) :
      Allows ⟨.up inbound (effect :: owed), n⟩ (.effect effect) ⟨.up inbound owed, n⟩
  | disconnected (link : Link) (outcome : SessionOutcome) (n : ℕ)
      (hlink : link ≠ .down ∧ link ≠ .lost ∧ link ≠ .subscribed)
      (howed : ∀ inbound owed, link = .up inbound owed → owed = []) :
      Allows ⟨link, n⟩ (.disconnected outcome)
        ⟨.lost, (if outcome.healthy then 0 else n) + 1⟩
  | backoff (index : ℤ) (n : ℕ) (h : index = Json.int32 n) :
      Allows ⟨.lost, n⟩ (.backoff index) ⟨.down, n⟩
  | stopped (link : Link) (n : ℕ) (hlink : link ≠ .lost ∧ link ≠ .subscribed)
      (howed : ∀ inbound owed, link = .up inbound owed → owed = []) :
      Allows ⟨link, n⟩ .stopped {}

variable {library}

theorem run_append {trace : List FeedStep} {contract : Contract} (h : run library trace = some contract)
    (steps : List FeedStep) :
    run library (trace ++ steps) =
      steps.foldlM (fun contract => next library contract.failures contract.link) contract := by
  unfold run at h ⊢
  rw [List.foldlM_append, h]
  rfl

theorem next_backoff (failures : ℕ) :
    next library failures .lost (.backoff (Json.int32 failures)) = some ⟨.down, failures⟩ := by
  generalize hindex : Json.int32 failures = index
  simp only [next, hindex, if_true]

theorem run_gap {contract : Contract} {outcome : SessionOutcome} {failures : ℕ}
    (h : next library contract.failures contract.link (.disconnected outcome) =
      some ⟨.lost, failures⟩) :
    [FeedStep.disconnected outcome, .backoff (Json.int32 failures)].foldlM
        (fun contract => next library contract.failures contract.link) contract =
      some ⟨.down, failures⟩ := by
  rw [List.foldlM_cons, h, Option.bind_eq_bind, Option.bind_some, List.foldlM_cons, next_backoff]
  rfl

theorem next_cases {link : Link} {n : ℕ} {step : FeedStep} {after : Contract}
    (h : next library n link step = some after) : Allows library ⟨link, n⟩ step after := by
  have hlost (outcome : SessionOutcome) (link : Link)
      (hlink : link = .opened ∨ link = .loggedIn ∨ link = .refused)
      (hhealthy : ¬ outcome.healthy) :
      Allows library ⟨link, n⟩ (.disconnected outcome) ⟨.lost, n + 1⟩ := by
    have hallows : Allows library ⟨link, n⟩ (.disconnected outcome)
        ⟨.lost, (if outcome.healthy then 0 else n) + 1⟩ := by
      apply Allows.disconnected
      · rcases hlink with rfl | rfl | rfl <;> simp
      · rcases hlink with rfl | rfl | rfl <;> simp
    rwa [if_neg hhealthy] at hallows
  unfold next at h
  split at h
  next => cases h; exact .connecting _ _
  next =>
    split_ifs at h with haccepted
    · cases h
      exact .loggedIn _ _ haccepted
    · cases h
      exact .refused _ _ _ (.inl rfl)
  next =>
    split_ifs at h with haccepted
    · cases h
      exact .subscribed _ _ haccepted
    · cases h
      exact .refused _ _ _ (.inr rfl)
  next => cases h; exact .connected _
  next => cases h; exact .frame _ _ _
  next =>
    split_ifs at h with hsame
    cases h
    subst hsame
    exact .effect _ _ _ _
  next outcome =>
    split_ifs at h with hhealthy
    cases h
    exact hlost outcome _ (by simp) hhealthy
  next outcome =>
    split_ifs at h with hhealthy
    cases h
    exact hlost outcome _ (by simp) hhealthy
  next outcome =>
    split_ifs at h with hhealthy
    cases h
    exact hlost outcome _ (by simp) hhealthy
  next inbound outcome =>
    split at h
    · cases h
    · cases h
      exact .disconnected (.up inbound []) outcome n (by simp) (by simp)
  next index =>
    split at h
    next hindex =>
      cases h
      exact .backoff index n hindex
    next => cases h
  next => cases h; exact .stopped _ _ (by simp) (by simp)
  next => cases h; exact .stopped _ _ (by simp) (by simp)
  next => cases h; exact .stopped _ _ (by simp) (by simp)
  next => cases h; exact .stopped _ _ (by simp) (by simp)
  next => cases h; exact .stopped _ _ (by simp) (by simp)
  next => cases h

theorem run_induction {P : List FeedStep → Contract → Prop} (hnil : P [] {})
    (hstep : ∀ trace contract step after, run library trace = some contract → P trace contract →
      Allows library contract step after → P (trace ++ [step]) after)
    {trace : List FeedStep} {contract : Contract} (h : run library trace = some contract) :
    P trace contract := by
  induction trace using List.reverseRecOn generalizing contract with
  | nil =>
    cases h
    exact hnil
  | append_singleton trace step ih =>
    cases hbefore : run library trace with
    | none =>
      unfold run at h hbefore
      rw [List.foldlM_append, hbefore] at h
      cases h
    | some before =>
      rw [run_append hbefore, List.foldlM_cons] at h
      obtain ⟨after, hafter, hsame⟩ := Option.bind_eq_some_iff.mp h
      cases hsame
      exact hstep trace before step _ hbefore (ih hbefore) (next_cases hafter)

end Contract

/-! ### What the contract says -/

def effects (trace : List FeedStep) : List FeedEffect :=
  trace.filterMap fun step =>
    match step with
    | .effect effect => some effect
    | _ => none

/-- One step for `heard`: whether the feed is subscribed, and the frames heard so far. -/
def listen (state : Bool × List String) : FeedStep → Bool × List String
  | .connected => (true, state.2)
  | .disconnected _ | .stopped => (false, state.2)
  | .read message => (state.1, if state.1 then state.2 ++ [message] else state.2)
  | _ => state

def heard (trace : List FeedStep) : List String := (trace.foldl listen (false, [])).2

def tally (outcomes : List SessionOutcome) : FeedStep → List SessionOutcome
  | .disconnected outcome => outcome :: outcomes
  | .stopped => []
  | _ => outcomes

def sessions (trace : List FeedStep) : List SessionOutcome := trace.foldl tally []

/-- The sessions since the last healthy one, which counts. -/
def sinceHealthy : List SessionOutcome → ℕ
  | [] => 0
  | outcome :: earlier => if outcome.healthy then 1 else sinceHealthy earlier + 1

def connectivity (trace : List FeedStep) : List Bool :=
  trace.filterMap fun step =>
    match step with
    | .connected => some true
    | .disconnected _ | .stopped => some false
    | _ => none

/-- The subscription of this connection was acknowledged, after its login. -/
def Vouched (library : Json.Library) (before : List FeedStep) : Prop :=
  ∃ earlier url login subscription,
    before = earlier ++ [.connecting url, .read login, .read subscription] ∧
      loginAccepted library login ∧ subscribeAccepted library subscription

/-- The effects of the last frame that are still to be handed on. -/
def Supervisor.pending : Supervisor → List FeedEffect
  | .delivering effects => effects
  | _ => []

/-- The feed is subscribed as far as the connectivity handler can know, or it is not. -/
def Supervisor.told : Supervisor → Option Bool
  | .reading _ | .blocked _ | .delivering _ => some true
  | .off | .finished | .polling | .sleeping => some false
  | _ => none

/-- What the users of a feed rely on. -/
structure Follows (library : Json.Library) (s : OrdersFeed) : Prop where
  /-- Connected is only reported for a session that logged in and subscribed. -/
  vouched : ∀ before after, s.trace = before ++ .connected :: after → Vouched library before
  /-- Every effect of every frame is handed on once, in order. -/
  delivered :
    effects s.trace ++ s.supervisor.pending = (heard s.trace).flatMap (frameEffects library)
  waits : ∀ before index after, s.trace = before ++ .backoff index :: after →
    index = Json.int32 (sinceHealthy (sessions before))
  alternating : (connectivity s.trace).IsChain fun earlier later => earlier = true → later = false
  told : ∀ up, s.supervisor.told = some up →
    ((connectivity s.trace).getLast? = some true ↔ up = true)

theorem snoc_split {trace before after : List FeedStep} {last step : FeedStep}
    (h : trace ++ [last] = before ++ step :: after) :
    (trace = before ∧ last = step) ∨ ∃ rest, trace = before ++ step :: rest := by
  induction after using List.reverseRecOn with
  | nil =>
    obtain ⟨hbefore, hlast⟩ := List.append_inj' h rfl
    exact .inl ⟨hbefore, List.singleton_inj.mp hlast⟩
  | append_singleton rest _ _ =>
    rw [← List.cons_append, ← List.append_assoc] at h
    exact .inr ⟨rest, (List.append_inj' h rfl).1⟩

def Link.owed : Link → List FeedEffect
  | .up _ owed => owed
  | _ => []

def Link.isUp : Link → Bool
  | .up _ _ => true
  | _ => false

namespace Contract

variable {library : Json.Library} {trace : List FeedStep} {contract : Contract}

/-- Every effect of every frame is handed on or owed. -/
theorem effects_owed (h : run library trace = some contract) :
    (trace.foldl listen (false, [])).1 = contract.link.isUp ∧
      effects trace ++ contract.link.owed = (heard trace).flatMap (frameEffects library) := by
  refine run_induction (P := fun trace contract =>
    (trace.foldl listen (false, [])).1 = contract.link.isUp ∧
      effects trace ++ contract.link.owed = (heard trace).flatMap (frameEffects library))
    ⟨rfl, rfl⟩ ?_ h
  intro trace contract step after _ ⟨hup, heffects⟩ hallows
  unfold heard effects at *
  rw [List.foldl_append, List.filterMap_append]
  cases hallows with
  | connecting url n =>
    have hdown : (trace.foldl listen (false, [])).1 = false := hup
    simpa [listen, Link.isUp, Link.owed, hdown] using heffects
  | loggedIn message n _ =>
    have hdown : (trace.foldl listen (false, [])).1 = false := hup
    simpa [listen, Link.isUp, Link.owed, hdown] using heffects
  | subscribed message n _ =>
    have hdown : (trace.foldl listen (false, [])).1 = false := hup
    simpa [listen, Link.isUp, Link.owed, hdown] using heffects
  | refused link message n h =>
    have hdown : (trace.foldl listen (false, [])).1 = false := by
      rcases h with rfl | rfl
      · exact hup
      · exact hup
    have howed : link.owed = [] := by
      rcases h with rfl | rfl
      · rfl
      · rfl
    simp only [howed, List.append_nil] at heffects
    simpa [listen, Link.isUp, Link.owed, hdown] using heffects
  | connected n => simpa [listen, Link.isUp, Link.owed] using heffects
  | frame inbound message n =>
    have hup' : (trace.foldl listen (false, [])).1 = true := hup
    simpa [listen, Link.isUp, Link.owed, hup'] using heffects
  | effect inbound effect owed n =>
    have hup' : (trace.foldl listen (false, [])).1 = true := hup
    simpa [listen, Link.isUp, Link.owed, hup'] using heffects
  | disconnected link outcome n hlink howed =>
    have hnone : link.owed = [] := by
      cases link with
      | up inbound owed => exact howed inbound owed rfl
      | _ => rfl
    simp only [hnone, List.append_nil] at heffects
    simpa [listen, Link.isUp, Link.owed] using heffects
  | backoff index n _ =>
    have hdown : (trace.foldl listen (false, [])).1 = false := hup
    simpa [listen, Link.isUp, Link.owed, hdown] using heffects
  | stopped link n hlink howed =>
    have hnone : link.owed = [] := by
      cases link with
      | up inbound owed => exact howed inbound owed rfl
      | _ => rfl
    simp only [hnone, List.append_nil] at heffects
    simpa [listen, Link.isUp, Link.owed] using heffects

theorem failures_eq (h : run library trace = some contract) :
    contract.failures = sinceHealthy (sessions trace) := by
  refine run_induction (P := fun trace contract =>
    contract.failures = sinceHealthy (sessions trace)) rfl ?_ h
  intro trace contract step after _ hcount hallows
  unfold sessions at *
  rw [List.foldl_append]
  cases hallows with
  | disconnected link outcome n _ _ =>
    simp only at hcount
    simp only [List.foldl_cons, List.foldl_nil, tally, sinceHealthy, ← hcount]
    split_ifs
    · rfl
    · rfl
  | stopped link n _ _ => rfl
  | _ => exact hcount

/-- What the trace ends with while a session is opened. -/
def Tail (library : Json.Library) (trace : List FeedStep) : Link → Prop
  | .opened => ∃ earlier url, trace = earlier ++ [.connecting url]
  | .loggedIn => ∃ earlier url login, trace = earlier ++ [.connecting url, .read login] ∧
      loginAccepted library login
  | .subscribed => Vouched library trace
  | _ => True

theorem tail_of_run (h : run library trace = some contract) : Tail library trace contract.link := by
  refine run_induction (P := fun trace contract => Tail library trace contract.link) trivial ?_ h
  intro trace contract step after _ htail hallows
  cases hallows with
  | connecting url n => exact ⟨trace, url, rfl⟩
  | loggedIn message n haccepted =>
    obtain ⟨earlier, url, htrace⟩ := htail
    exact ⟨earlier, url, message, by simp [htrace], haccepted⟩
  | subscribed message n haccepted =>
    obtain ⟨earlier, url, login, htrace, hlogin⟩ := htail
    exact ⟨earlier, url, login, message, by simp [htrace], hlogin, haccepted⟩
  | _ => trivial

theorem vouched_of_run (h : run library trace = some contract) :
    ∀ before after, trace = before ++ .connected :: after → Vouched library before := by
  refine run_induction (P := fun trace _ =>
    ∀ before after, trace = before ++ .connected :: after → Vouched library before) ?_ ?_ h
  · intro before after hsplit
    simp at hsplit
  · intro trace contract step after hrun hvouched hallows before rest hsplit
    rcases snoc_split hsplit with ⟨rfl, rfl⟩ | ⟨rest, hearlier⟩
    · cases hallows
      exact tail_of_run hrun
    · exact hvouched before rest hearlier

theorem waits_of_run (h : run library trace = some contract) :
    ∀ before index after, trace = before ++ .backoff index :: after →
      index = Json.int32 (sinceHealthy (sessions before)) := by
  refine run_induction (P := fun trace _ =>
    ∀ before index after, trace = before ++ .backoff index :: after →
      index = Json.int32 (sinceHealthy (sessions before))) ?_ ?_ h
  · intro before index after hsplit
    simp at hsplit
  · intro trace contract step after hrun hwaits hallows before index rest hsplit
    rcases snoc_split hsplit with ⟨rfl, rfl⟩ | ⟨rest, hearlier⟩
    · have hcount := failures_eq hrun
      cases hallows with
      | backoff _ n hindex => rw [← hcount, hindex]
    · exact hwaits before index rest hearlier

theorem connectivity_append (trace steps : List FeedStep) :
    connectivity (trace ++ steps) = connectivity trace ++ connectivity steps :=
  List.filterMap_append

/-- The connectivity handler was last told that the feed is up when it is. -/
theorem alternating_of_run (h : run library trace = some contract) :
    ((connectivity trace).IsChain fun earlier later => earlier = true → later = false) ∧
      ((connectivity trace).getLast? = some true ↔ contract.link.isUp) := by
  refine run_induction (P := fun trace contract =>
    ((connectivity trace).IsChain fun earlier later => earlier = true → later = false) ∧
      ((connectivity trace).getLast? = some true ↔ contract.link.isUp)) ?_ ?_ h
  · simp [connectivity, Link.isUp]
  · intro trace contract step after _ ⟨hchain, hlast⟩ hallows
    rw [connectivity_append]
    cases hallows with
    | connected n =>
      have hdown : (connectivity trace).getLast? ≠ some true := by
        simpa [Link.isUp] using hlast
      refine ⟨List.isChain_append.mpr ⟨hchain, by simp [connectivity], ?_⟩, ?_⟩
      · intro earlier hearlier later _ htrue
        rw [htrue] at hearlier
        exact absurd hearlier hdown
      · simp [connectivity, Link.isUp]
    | disconnected link outcome n _ _ =>
      refine ⟨List.isChain_append.mpr ⟨hchain, by simp [connectivity], ?_⟩, ?_⟩
      · intro earlier _ later hlater _
        simpa [connectivity] using hlater.symm
      · simp [connectivity, Link.isUp]
    | stopped link n _ _ =>
      refine ⟨List.isChain_append.mpr ⟨hchain, by simp [connectivity], ?_⟩, ?_⟩
      · intro earlier _ later hlater _
        simpa [connectivity] using hlater.symm
      · simp [connectivity, Link.isUp]
    | refused link message n h =>
      have hdown : link.isUp = false := by
        rcases h with rfl | rfl
        · rfl
        · rfl
      rw [hdown] at hlast
      rw [show connectivity [.read message] = [] from rfl, List.append_nil]
      exact ⟨hchain, hlast⟩
    | _ =>
      rw [show connectivity [_] = [] from rfl, List.append_nil]
      exact ⟨hchain, hlast⟩

end Contract

namespace OrdersFeed

/-- Where the supervisor stands while the contract stands here. -/
inductive Stands : Supervisor → Link → Prop
  | off : Stands .off .down
  | polling : Stands .polling .down
  | sleeping : Stands .sleeping .down
  | finished : Stands .finished .down
  | connecting : Stands .connecting .opened
  | sendingLogin : Stands .sendingLogin .opened
  | awaitingLogin : Stands .awaitingLogin .opened
  | sendingSubscribe : Stands .sendingSubscribe .loggedIn
  | awaitingSubscribe : Stands .awaitingSubscribe .loggedIn
  | reading (inbound : Bool) : Stands (.reading inbound) (.up inbound [])
  | blocked (inbound : Bool) : Stands (.blocked inbound) (.up inbound [])
  | delivering (owed : List FeedEffect) : Stands (.delivering owed) (.up true owed)
  | unsubscribed (outcome : SessionOutcome) (link : Link) (h : outcome.healthy = false)
      (hlink : link = .opened ∨ link = .loggedIn ∨ link = .refused) : Stands (.ended outcome) link
  | left (outcome : SessionOutcome) (inbound : Bool) (h : inbound → outcome.healthy) :
      Stands (.ended outcome) (.up inbound [])

structure Keeps (library : Json.Library) (s : OrdersFeed) (contract : Contract) : Prop where
  trace : Contract.run library s.trace = some contract
  stands : Stands s.supervisor contract.link
  attempt : s.supervisor ≠ .off → s.supervisor ≠ .finished →
    s.connectAttempt = contract.failures % kUnsignedRange
  idle : s.running = false → s.supervisor = .off
  ended : s.supervisor = .off ∨ s.supervisor = .finished → contract.failures = 0

variable {library : Json.Library} {url : String} {s t : OrdersFeed} {a : FeedAction}
  {contract : Contract}

theorem Turn.allowed {phase next : Supervisor} {steps : List FeedStep}
    (h : Turn library url s phase steps next) (hstands : Stands phase contract.link) :
    ∃ after : Contract, steps.foldlM
        (fun contract => Contract.next library contract.failures contract.link) contract = some after ∧
      Stands next after.link ∧
      (next ≠ .finished → after.failures = contract.failures) ∧ (next = .finished → after.failures = 0) := by
  obtain ⟨link, failures⟩ := contract
  cases h with
  | halt h =>
    cases hstands
    exact ⟨_, rfl, .finished, by simp, by simp⟩
  | opened h =>
    cases hstands
    exact ⟨_, rfl, .connecting, by simp, by simp⟩
  | established =>
    cases hstands
    exact ⟨_, rfl, .sendingLogin, by simp, by simp⟩
  | loginSent =>
    cases hstands
    exact ⟨_, rfl, .awaitingLogin, by simp, by simp⟩
  | loggedIn reply h =>
    cases hstands
    refine ⟨⟨.loggedIn, failures⟩, ?_, .sendingSubscribe, by simp, by simp⟩
    simp [Contract.next, h]
  | loginRefused reply failure h =>
    cases hstands
    refine ⟨⟨.refused, failures⟩, ?_, .unsubscribed _ _ rfl (by simp), by simp, by simp⟩
    simp [Contract.next, h]
  | subscribeSent =>
    cases hstands
    exact ⟨_, rfl, .awaitingSubscribe, by simp, by simp⟩
  | subscribed reply h =>
    cases hstands
    refine ⟨⟨.up false [], failures⟩, ?_, .reading false, by simp, by simp⟩
    simp [Contract.next, h]
  | subscribeRefused reply failure h =>
    cases hstands
    refine ⟨⟨.refused, failures⟩, ?_, .unsubscribed _ _ rfl (by simp), by simp, by simp⟩
    simp [Contract.next, h]
  | connectFailed failure =>
    cases hstands
    exact ⟨_, rfl, .unsubscribed _ _ rfl (by simp), by simp, by simp⟩
  | loginFailed _ failure h =>
    rcases h with rfl | rfl
    · cases hstands
      exact ⟨_, rfl, .unsubscribed _ _ rfl (by simp), by simp, by simp⟩
    · cases hstands
      exact ⟨_, rfl, .unsubscribed _ _ rfl (by simp), by simp, by simp⟩
  | subscribeFailed _ failure h =>
    rcases h with rfl | rfl
    · cases hstands
      exact ⟨_, rfl, .unsubscribed _ _ rfl (by simp), by simp, by simp⟩
    · cases hstands
      exact ⟨_, rfl, .unsubscribed _ _ rfl (by simp), by simp, by simp⟩
  | block inbound h =>
    cases hstands
    exact ⟨_, rfl, .blocked inbound, by simp, by simp⟩
  | leave inbound outcome h hhealthy =>
    cases hstands
    exact ⟨_, rfl, .left outcome inbound hhealthy, by simp, by simp⟩
  | lost inbound outcome hhealthy =>
    cases hstands
    exact ⟨_, rfl, .left outcome inbound hhealthy, by simp, by simp⟩
  | frame inbound message =>
    cases hstands
    exact ⟨_, rfl, .delivering _, by simp, by simp⟩
  | deliver effect effects =>
    cases hstands
    refine ⟨⟨.up true effects, failures⟩, ?_, .delivering effects, by simp, by simp⟩
    simp [Contract.next]
  | delivered =>
    cases hstands
    exact ⟨_, rfl, .reading true, by simp, by simp⟩
  | halted outcome h =>
    cases hstands with
    | unsubscribed _ _ _ hlink =>
      refine ⟨{}, ?_, .finished, by simp, by simp⟩
      rcases hlink with hlink | hlink | hlink
      · simp only at hlink
        subst hlink
        rfl
      · simp only at hlink
        subst hlink
        rfl
      · simp only at hlink
        subst hlink
        rfl
    | left _ inbound _ => exact ⟨{}, rfl, .finished, by simp, by simp⟩
  | wake =>
    cases hstands
    exact ⟨_, rfl, .polling, by simp, by simp⟩

theorem Turn.awake {phase next : Supervisor} {steps : List FeedStep}
    (h : Turn library url s phase steps next) :
    phase ≠ .off ∧ phase ≠ .finished ∧ next ≠ .off := by
  cases h with
  | loginFailed _ _ h =>
    rcases h with rfl | rfl
    · simp
    · simp
  | subscribeFailed _ _ h =>
    rcases h with rfl | rfl
    · simp
    · simp
  | _ => simp

/-- The sessions since the last healthy one, after one more. -/
def countSession (outcome : SessionOutcome) (failures : ℕ) : ℕ :=
  (if outcome.healthy then 0 else failures) + 1

/-- The counter wraps around as the cast does. -/
theorem int32_mod (n : ℕ) : Json.int32 ((n % kUnsignedRange : ℕ) : ℤ) = Json.int32 n := by
  have hmod := Int.emod_bmod n kUnsignedRange
  rw [← Int.natCast_mod] at hmod
  exact hmod

theorem attempt_eq (outcome : SessionOutcome) {attempt failures : ℕ}
    (h : attempt = failures % kUnsignedRange) :
    ((if outcome.healthy then 0 else attempt) + 1) % kUnsignedRange =
      countSession outcome failures % kUnsignedRange := by
  unfold countSession
  split_ifs
  · rfl
  · rw [h, Nat.mod_add_mod]

theorem conclude_gap (outcome : SessionOutcome) (hstop : ¬ s.stopping) {failures : ℕ}
    (h : s.connectAttempt = failures % kUnsignedRange) :
    s.conclude outcome =
      { s.log [.disconnected outcome, .backoff (Json.int32 (countSession outcome failures))] with
        supervisor := .sleeping
        connectAttempt := countSession outcome failures % kUnsignedRange } := by
  unfold conclude
  rw [if_neg hstop]
  simp only [attempt_eq outcome h, int32_mod]

/-- The gap after a session is one that the contract allows. -/
theorem gap_allowed {outcome : SessionOutcome} (hstands : Stands (.ended outcome) contract.link) :
    [FeedStep.disconnected outcome,
        .backoff (Json.int32 (countSession outcome contract.failures))].foldlM
        (fun contract => Contract.next library contract.failures contract.link) contract =
      some ⟨.down, countSession outcome contract.failures⟩ := by
  apply Contract.run_gap
  obtain ⟨link, failures⟩ := contract
  cases hstands with
  | unsubscribed _ _ hunhealthy hlink =>
    simp only at hlink
    rcases hlink with rfl | rfl | rfl
    · simp [Contract.next, countSession, hunhealthy]
    · simp [Contract.next, countSession, hunhealthy]
    · simp [Contract.next, countSession, hunhealthy]
  | left _ inbound hhealthy =>
    have hfair : (inbound && !outcome.healthy) = false := by
      cases inbound with
      | false => rfl
      | true => simp [hhealthy rfl]
    simp [Contract.next, hfair, countSession]

theorem Keeps.step (h : s.Keeps library contract) (hs : s.step library url a = some t) :
    ∃ after, t.Keeps library after := by
  obtain ⟨htrace, hstands, hattempt, hidle, hended⟩ := h
  cases step_cases hs with
  | aside _ _ _ hphase htrace' hattempt' hrunning =>
    refine ⟨contract, by rwa [htrace'], by rwa [hphase], ?_, ?_, ?_⟩
    · rwa [hphase, hattempt']
    · rwa [hrunning, hphase]
    · rwa [hphase]
  | started hrunning =>
    have hoff := hidle hrunning
    have hzero := hended (.inl hoff)
    rw [hoff] at hstands
    have hdown : contract.link = .down := by
      generalize contract.link = link at hstands
      cases hstands
      rfl
    refine ⟨contract, htrace, ?_, ?_, by simp, by simp⟩
    · rw [hdown]
      exact .polling
    · intro _ _
      rw [hzero]
      rfl
  | joined hover =>
    have hzero := hended (.inr hover)
    rw [hover] at hstands
    have hdown : contract.link = .down := by
      generalize contract.link = link at hstands
      cases hstands
      rfl
    refine ⟨contract, htrace, ?_, by simp, fun _ => rfl, fun _ => hzero⟩
    rw [hdown]
    exact .off
  | turned _ steps next fired _ hturn =>
    obtain ⟨after, hsteps, hnext, hsame, hzero⟩ := hturn.allowed hstands
    have hbefore := hturn.awake
    refine ⟨after, (Contract.run_append htrace steps).trans hsteps, hnext, ?_, ?_, ?_⟩
    · intro _ hover
      rw [hsame hover]
      exact hattempt hbefore.1 hbefore.2.1
    · intro hrunning
      exact absurd (hidle hrunning) hbefore.1
    · intro hphase
      exact hzero (hphase.resolve_left hbefore.2.2)
  | gap outcome hphase hstop =>
    have hcounter := hattempt (by simp [hphase]) (by simp [hphase])
    rw [hphase] at hstands
    rw [conclude_gap outcome hstop hcounter]
    refine ⟨⟨.down, countSession outcome contract.failures⟩, ?_, .sleeping, fun _ _ => rfl, ?_, ?_⟩
    · exact (Contract.run_append htrace _).trans (gap_allowed hstands)
    · intro hrunning
      have hoff := hidle hrunning
      rw [hphase] at hoff
      cases hoff
    · simp

theorem keeps_of_reaches
    (h : Transition.Reaches (step library url) (fun _ _ => True) ({} : OrdersFeed) s) :
    ∃ contract, s.Keeps library contract := by
  apply h.invariant (I := fun s => ∃ contract, s.Keeps library contract)
  · intro s a t ⟨contract, hkeeps⟩ _ hs
    exact hkeeps.step hs
  · exact ⟨{}, rfl, .off, by simp, by simp, by simp⟩

theorem Stands.pending {phase : Supervisor} {link : Link} (h : Stands phase link) :
    phase.pending = link.owed := by
  cases h with
  | unsubscribed _ _ _ hlink => rcases hlink with rfl | rfl | rfl <;> rfl
  | _ => rfl

theorem Stands.told {phase : Supervisor} {link : Link} (h : Stands phase link) {up : Bool}
    (hup : phase.told = some up) : link.isUp = up := by
  cases h with
  | _ => simp_all [Supervisor.told, Link.isUp]

/-- Whatever the venue sends and whenever the feed is stopped and started again. -/
theorem follows_of_reaches
    (h : Transition.Reaches (step library url) (fun _ _ => True) ({} : OrdersFeed) s) :
    Follows library s := by
  obtain ⟨contract, hkeeps⟩ := keeps_of_reaches h
  have halternating := Contract.alternating_of_run hkeeps.trace
  constructor
  · exact Contract.vouched_of_run hkeeps.trace
  · rw [hkeeps.stands.pending]
    exact (Contract.effects_owed hkeeps.trace).2
  · exact Contract.waits_of_run hkeeps.trace
  · exact halternating.1
  · intro up hup
    rw [halternating.2, hkeeps.stands.told hup]

def loginAck : String := "\x7b\"event\":\"login\",\"code\":\"0\"\x7d"

def subscribeAck : String := "\x7b\"event\":\"subscribe\"\x7d"

/-- The library, on the two acknowledgements. -/
def ackLibrary : Json.Library where
  parse text := if text = loginAck then some (.obj [("event", .str "login"), ("code", .str "0")])
    else if text = subscribeAck then some (.obj [("event", .str "subscribe")]) else none
  dump _ := ""
  truncate _ := 0

/-- A session that is stopped after its second frame, while the third is awaited. -/
def stoppedSession : Option OrdersFeed :=
  Transition.exec (step ackLibrary "wss://venue") (fun _ _ => True) {}
    [.start, .poll, .connect none, .sendLogin true, .readLogin (some loginAck),
      .sendSubscribe true, .readSubscribe (some subscribeAck), .pollSession false,
      .read (some "pong") false, .deliver, .pollSession false, .read (some "garbage") false,
      .deliver, .deliver, .pollSession false, .stop]

theorem follows_stoppedSession :
    ∃ s, stoppedSession = some s ∧ s.supervisor = .blocked true ∧
      effects s.trace = [.protocolWarning "non-JSON text frame skipped"] ∧
      Follows ackLibrary s := by
  refine ⟨_, rfl, rfl, rfl, ?_⟩
  exact follows_of_reaches (Transition.reaches_of_exec (show stoppedSession = some _ from rfl))

/-! ### Stopping -/

/-- How far the supervisor is from its end once the feed stops. -/
def rank : Supervisor → ℕ ×ₗ ℕ
  | .connecting => toLex (10, 0)
  | .sendingLogin => toLex (9, 0)
  | .awaitingLogin => toLex (8, 0)
  | .sendingSubscribe => toLex (7, 0)
  | .awaitingSubscribe => toLex (6, 0)
  | .blocked _ => toLex (5, 0)
  -- one frame can carry any number of orders
  | .delivering effects => toLex (4, effects.length)
  | .reading _ => toLex (3, 0)
  | .ended _ | .sleeping => toLex (2, 0)
  | .polling => toLex (1, 0)
  | .finished | .off => toLex (0, 0)

/-- A stopping feed opens no connection and waits for nothing. -/
structure Ends (before : List FeedStep) (s : OrdersFeed) : Prop where
  stopping : s.stopping
  running : s.running
  awake : s.supervisor ≠ .off
  rest : ∃ steps, s.trace = before ++ steps ∧
    (∀ step ∈ steps, (∀ url, step ≠ .connecting url) ∧ ∀ index, step ≠ .backoff index) ∧
    (s.supervisor = .finished → ∃ earlier, steps = earlier ++ [.stopped])

theorem Turn.descends {phase next : Supervisor} {steps : List FeedStep}
    (h : Turn library url s phase steps next) (hstop : s.stopping) :
    rank next < rank phase ∧
      (∀ step ∈ steps, (∀ url, step ≠ .connecting url) ∧ ∀ index, step ≠ .backoff index) ∧
      (next = .finished → steps = [.stopped]) := by
  cases h with
  | opened h => exact absurd hstop h
  | block inbound h => exact absurd hstop h
  | loginFailed _ _ h =>
    rcases h with rfl | rfl
    · simp [rank, Prod.Lex.toLex_lt_toLex]
    · simp [rank, Prod.Lex.toLex_lt_toLex]
  | subscribeFailed _ _ h =>
    rcases h with rfl | rfl
    · simp [rank, Prod.Lex.toLex_lt_toLex]
    · simp [rank, Prod.Lex.toLex_lt_toLex]
  | _ => simp [rank, Prod.Lex.toLex_lt_toLex]

theorem exists_turn (s : OrdersFeed) (hoff : s.supervisor ≠ .off) (hover : s.supervisor ≠ .finished) :
    ∃ a t, a.supervised ∧ s.step library url a = some t := by
  have hturn (a : FeedAction) (ha : a.supervised)
      (hs : (s.superviseStep library url a s.supervisor).isSome) :
      ∃ a t, a.supervised ∧ s.step library url a = some t := by
    obtain ⟨t, ht⟩ := Option.isSome_iff_exists.mp hs
    refine ⟨a, t, ha, ?_⟩
    cases a with
    | start => cases ha
    | stop => cases ha
    | join => cases ha
    | watchdog => cases ha
    | _ => exact ht
  cases hphase : s.supervisor with
  | off => exact absurd hphase hoff
  | finished => exact absurd hphase hover
  | polling =>
    apply hturn .poll rfl
    rw [hphase]
    unfold superviseStep
    split_ifs <;> rfl
  | connecting => exact hturn (.connect none) rfl (by rw [hphase]; rfl)
  | sendingLogin => exact hturn (.sendLogin true) rfl (by rw [hphase]; rfl)
  | awaitingLogin => exact hturn (.readLogin none) rfl (by rw [hphase]; rfl)
  | sendingSubscribe => exact hturn (.sendSubscribe true) rfl (by rw [hphase]; rfl)
  | awaitingSubscribe => exact hturn (.readSubscribe none) rfl (by rw [hphase]; rfl)
  | reading inbound =>
    apply hturn (.pollSession false) rfl
    rw [hphase]
    unfold superviseStep
    split_ifs <;> rfl
  | blocked inbound => exact hturn (.read none false) rfl (by rw [hphase]; rfl)
  | delivering effects =>
    apply hturn .deliver rfl
    rw [hphase]
    cases effects with
    | nil => rfl
    | cons _ _ => rfl
  | ended outcome => exact hturn .finish rfl (by rw [hphase]; rfl)
  | sleeping => exact hturn .wake rfl (by rw [hphase]; rfl)

theorem Ends.others {before : List FeedStep} (h : Ends before s) (hover : s.supervisor ≠ .finished)
    (ha : ¬ a.supervised) (hs : s.step library url a = some t) :
    Ends before t ∧ t.supervisor ≠ .finished ∧ rank t.supervisor = rank s.supervisor := by
  have hrunning := h.running
  have hsame : t.supervisor = s.supervisor ∧ t.trace = s.trace ∧ t.stopping ∧ t.running := by
    cases a with
    | start =>
      simp only [step, hrunning, if_true, Option.some.injEq] at hs
      exact hs ▸ ⟨rfl, rfl, h.stopping, h.running⟩
    | stop =>
      simp only [step, h.awake, if_false, Option.some.injEq] at hs
      exact hs ▸ ⟨rfl, rfl, rfl, h.running⟩
    | join => simp [step, hover] at hs
    | watchdog =>
      simp only [step] at hs
      split_ifs at hs
      cases hs
      exact ⟨rfl, rfl, h.stopping, h.running⟩
    | _ => exact absurd rfl ha
  obtain ⟨hphase, htrace, hstop, hrunning⟩ := hsame
  refine ⟨⟨hstop, hrunning, hphase ▸ h.awake, ?_⟩, hphase ▸ hover, by rw [hphase]⟩
  rw [htrace, hphase]
  exact h.rest

theorem Ends.descends {before : List FeedStep} (h : Ends before s) (ha : a.supervised)
    (hs : s.step library url a = some t) :
    Ends before t ∧ rank t.supervisor < rank s.supervisor := by
  obtain ⟨steps, htrace, hquiet, _⟩ := h.rest
  cases step_cases hs with
  | aside _ _ hothers => rw [hothers] at ha; cases ha
  | started => cases ha
  | joined => cases ha
  | gap outcome _ hstop => exact absurd h.stopping hstop
  | turned _ added next fired _ hturn =>
    obtain ⟨hlower, hquiet', hlast⟩ := hturn.descends h.stopping
    refine ⟨⟨h.stopping, h.running, hturn.awake.2.2, steps ++ added, ?_, ?_, ?_⟩, hlower⟩
    · show s.trace ++ added = before ++ (steps ++ added)
      rw [htrace, List.append_assoc]
    · intro step hstep
      rcases List.mem_append.mp hstep with hstep | hstep
      · exact hquiet step hstep
      · exact hquiet' step hstep
    · intro hnext
      exact ⟨steps, by rw [hlast hnext]⟩

/-- Once a stop is requested the supervisor comes to its end, whatever the socket answers and
however the other threads are interleaved, without another connection or another wait. -/
theorem stop_ends
    (h : Transition.Reaches (step library url) (fun _ _ => True) ({} : OrdersFeed) s)
    (hstop : s.stopping) (hoff : s.supervisor ≠ .off) (hover : s.supervisor ≠ .finished) :
    Transition.Inevitable (Transition.Round (step library url) fun a => a.supervised)
      (fun t => t.supervisor = .finished ∧ ∃ steps, t.trace = s.trace ++ steps ++ [.stopped] ∧
        ∀ step ∈ steps, (∀ url, step ≠ .connecting url) ∧ ∀ index, step ≠ .backoff index) s := by
  obtain ⟨contract, hkeeps⟩ := keeps_of_reaches h
  have hrunning : s.running := by
    by_contra hidle
    exact hoff (hkeeps.idle (by simpa using hidle))
  have hends : Ends s.trace s :=
    ⟨hstop, hrunning, hoff, [], by simp, by simp, fun h => absurd h hover⟩
  have hover_end : Transition.Inevitable (Transition.Round (step library url) fun a => a.supervised)
      (fun t => Ends s.trace t ∧ t.supervisor = .finished) s := by
    apply Transition.Inevitable.of_rounds (I := Ends s.trace) (wellFounded_lt (α := ℕ ×ₗ ℕ))
      (fun t => rank t.supervisor) _ _ _ hends
    · intro t a u ht hgoal ha hu
      obtain ⟨hends', hover', hrank⟩ := ht.others (fun hover => hgoal ⟨ht, hover⟩) ha hu
      exact ⟨hends', fun hgoal' => hover' hgoal'.2, hrank⟩
    · intro t ht hgoal
      obtain ⟨a, u, ha, hu⟩ := exists_turn t ht.awake fun hover => hgoal ⟨ht, hover⟩
      exact ⟨u, .single ha hu⟩
    · intro t a u ht _ ha hu
      exact ht.descends ha hu
  apply hover_end.mono
  intro t ⟨ht, hover⟩
  obtain ⟨steps, htrace, hquiet, hlast⟩ := ht.rest
  obtain ⟨earlier, hsteps⟩ := hlast hover
  refine ⟨hover, earlier, by rw [htrace, hsteps, List.append_assoc], ?_⟩
  intro step hstep
  exact hquiet step (hsteps ▸ List.mem_append_left _ hstep)

theorem stop_ends_stoppedSession :
    ∃ s, stoppedSession = some s ∧ s.stopping ∧
      Transition.Inevitable (Transition.Round (step ackLibrary "wss://venue") fun a => a.supervised)
        (fun t => t.supervisor = .finished ∧ ∃ steps, t.trace = s.trace ++ steps ++ [.stopped] ∧
          ∀ step ∈ steps, (∀ url, step ≠ .connecting url) ∧ ∀ index, step ≠ .backoff index) s := by
  refine ⟨_, rfl, rfl, ?_⟩
  apply stop_ends (Transition.reaches_of_exec (show stoppedSession = some _ from rfl)) rfl
  · decide
  · decide

end OrdersFeed

end ExchangeGateway.Okx
