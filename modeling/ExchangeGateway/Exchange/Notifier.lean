import ExchangeGateway.Lib.Progress
import Mathlib.Data.List.Basic

/-! How `BinanceWsClient` (`exchange/binance/binance_ws_client.cpp`) hands its feed events on. The
session thread emits them, the notifier thread runs `pump_events`, and a third thread starts and
stops the two. Each step is one critical section under `event_mutex_`, or one access to what the
lock does not guard. -/
namespace ExchangeGateway.Binance

inductive FeedEventType
  | connecting
  | connected
  | disconnected
  | protocolWarning
  | stopped
  deriving DecidableEq, Repr

structure FeedEvent where
  type : FeedEventType
  detail : String := ""
  deriving DecidableEq, Repr

/-- Where the session thread stands, as far as its events go. -/
inductive Emitter
  | off
  | active
  /-- The event is in the queue, and `notify_all` is to follow; `last` marks the final one. -/
  | notifying (last : Bool)
  | finished
  deriving DecidableEq, Repr

/-- Where the notifier thread stands in `pump_events`. -/
inductive Pump
  | off
  /-- It needs the lock, at first or after a wake-up. -/
  | entering
  /-- It holds the lock and reads the condition of `wait`. -/
  | testing
  /-- It holds the lock and the condition was false. -/
  | parking
  | waiting
  /-- It holds the lock and is at the head of the inner loop. -/
  | draining
  /-- The handler, as it was when the event was taken, is called without the lock. -/
  | delivering (event : FeedEvent) (handler : Option ℕ)
  | relocking
  | finished
  deriving DecidableEq, Repr

/-- Where the thread that runs `stop` stands. -/
inductive Stopper
  | idle
  | joiningEmitter
  | requesting
  | flagged
  | joiningPump
  deriving DecidableEq, Repr

/-- `emitted` and `handled` are histories. Handlers are numbered. -/
structure EventPump where
  running : Bool := false
  emitterStop : Bool := false
  pumpStop : Bool := false
  handler : Option ℕ := none
  queue : List FeedEvent := []
  emitter : Emitter := .off
  pump : Pump := .off
  stopper : Stopper := .idle
  emitted : List FeedEvent := []
  handled : List (FeedEvent × Option ℕ) := []

inductive PumpAction
  | start
  | setEventHandler (handler : Option ℕ)
  | stop
  | joinEmitter
  | requestPumpStop
  | notifyPump
  | joinPump
  /-- `finished`: `run` has left its loop. -/
  | emit (event : FeedEvent) (finished : Bool)
  | notify
  | lock
  | test
  | park
  | spurious
  | drain
  | deliver
  | relock
  deriving DecidableEq, Repr

/-- The steps of the thread that runs `stop`, once it has begun. -/
def PumpAction.stopping : PumpAction → Bool
  | .joinEmitter | .requestPumpStop | .notifyPump | .joinPump => true
  | _ => false

def PumpAction.pumping : PumpAction → Bool
  | .lock | .test | .park | .spurious | .drain | .deliver | .relock => true
  | _ => false

/-- `event_mutex_` is held between two steps of the notifier only. -/
def Pump.locked : Pump → Bool
  | .testing | .parking | .draining => true
  | _ => false

/-- `notify_all`. -/
def Pump.wake : Pump → Pump
  | .waiting => .entering
  | pump => pump

namespace EventPump

def push (s : EventPump) (event : FeedEvent) (finished : Bool) : EventPump :=
  { s with
    queue := s.queue ++ [event]
    emitted := s.emitted ++ [event]
    emitter := .notifying finished }

/-- `run` leaves its loop when its stop is requested, and then emits Stopped. -/
def emits (s : EventPump) (event : FeedEvent) (finished : Bool) : Bool :=
  if finished then s.emitterStop && event == ⟨.stopped, "feed stopped"⟩ else event.type != .stopped

/-- The steps of `pump_events`. -/
def pumpStep (s : EventPump) : PumpAction → Pump → Option EventPump
  | .lock, .entering => some { s with pump := .testing }
  | .test, .testing =>
    if s.pumpStop || !s.queue.isEmpty then some { s with pump := .draining }
    else some { s with pump := .parking }
  | .park, .parking => some { s with pump := .waiting }
  | .spurious, .waiting => some { s with pump := .entering }
  | .drain, .draining =>
    match s.queue with
    | event :: queue => some { s with queue := queue, pump := .delivering event s.handler }
    | [] =>
      if s.pumpStop then some { s with pump := .finished } else some { s with pump := .testing }
  | .deliver, .delivering event handler =>
    some { s with handled := s.handled ++ [(event, handler)], pump := .relocking }
  | .relock, .relocking => some { s with pump := .draining }
  | _, _ => none

/-- The steps of `stop`. The notifier is joined last, and its stop is requested without the lock. -/
def stopStep (s : EventPump) : PumpAction → Stopper → Option EventPump
  | .stop, .idle =>
    if s.emitter = .off then some { s with running := false }
    else some { s with emitterStop := true, stopper := .joiningEmitter }
  | .joinEmitter, .joiningEmitter =>
    if s.emitter = .finished then some { s with emitter := .off, stopper := .requesting } else none
  | .requestPumpStop, .requesting => some { s with pumpStop := true, stopper := .flagged }
  | .notifyPump, .flagged =>
    if s.pump.locked then none
    else some { s with pump := s.pump.wake, stopper := .joiningPump }
  | .joinPump, .joiningPump =>
    if s.pump = .finished then some { s with pump := .off, stopper := .idle, running := false }
    else none
  | _, _ => none

def step (s : EventPump) : PumpAction → Option EventPump
  | .start =>
    if s.running then some s
    else
      some { s with
        running := true
        emitterStop := false
        pumpStop := false
        emitter := .active
        pump := .entering }
  | .setEventHandler handler => if s.pump.locked then none else some { s with handler := handler }
  | .emit event finished =>
    if s.emitter = .active ∧ !s.pump.locked ∧ s.emits event finished then
      some (s.push event finished)
    else none
  | .notify =>
    match s.emitter with
    | .notifying last =>
      some { s with pump := s.pump.wake, emitter := if last then .finished else .active }
    | _ => none
  | .stop => s.stopStep .stop s.stopper
  | .joinEmitter => s.stopStep .joinEmitter s.stopper
  | .requestPumpStop => s.stopStep .requestPumpStop s.stopper
  | .notifyPump => s.stopStep .notifyPump s.stopper
  | .joinPump => s.stopStep .joinPump s.stopper
  | a => s.pumpStep a s.pump

/-! ### What a step can do -/

/-- The steps of `pump_events`, by where it stands before and after them. -/
inductive PumpMoves (s : EventPump) : Pump → EventPump → Prop
  | lock : PumpMoves s .entering { s with pump := .testing }
  | pass (h : s.pumpStop ∨ s.queue ≠ []) : PumpMoves s .testing { s with pump := .draining }
  | hold (h : ¬ s.pumpStop) (hqueue : s.queue = []) : PumpMoves s .testing { s with pump := .parking }
  | park : PumpMoves s .parking { s with pump := .waiting }
  | spurious : PumpMoves s .waiting { s with pump := .entering }
  | take (event : FeedEvent) (queue : List FeedEvent) (h : s.queue = event :: queue) :
      PumpMoves s .draining { s with queue := queue, pump := .delivering event s.handler }
  | finish (h : s.pumpStop) (hqueue : s.queue = []) : PumpMoves s .draining { s with pump := .finished }
  | again (h : ¬ s.pumpStop) (hqueue : s.queue = []) :
      PumpMoves s .draining { s with pump := .testing }
  | deliver (event : FeedEvent) (handler : Option ℕ) :
      PumpMoves s (.delivering event handler)
        { s with handled := s.handled ++ [(event, handler)], pump := .relocking }
  | relock : PumpMoves s .relocking { s with pump := .draining }

inductive Moves (s : EventPump) : PumpAction → EventPump → Prop
  | started (h : s.running = false) :
      Moves s .start
        { s with
          running := true
          emitterStop := false
          pumpStop := false
          emitter := .active
          pump := .entering }
  | alreadyStarted (h : s.running) : Moves s .start s
  | setEventHandler (handler : Option ℕ) : Moves s (.setEventHandler handler)
      { s with handler := handler }
  | emitted (event : FeedEvent) (finished : Bool) (hemitter : s.emitter = .active)
      (hfree : s.pump.locked = false) (h : finished → event.type = .stopped) :
      Moves s (.emit event finished) (s.push event finished)
  | notified (last : Bool) (h : s.emitter = .notifying last) :
      Moves s .notify
        { s with pump := s.pump.wake, emitter := if last then .finished else .active }
  | neverStarted (hstopper : s.stopper = .idle) (h : s.emitter = .off) :
      Moves s .stop { s with running := false }
  | requested (hstopper : s.stopper = .idle) (h : s.emitter ≠ .off) :
      Moves s .stop { s with emitterStop := true, stopper := .joiningEmitter }
  | joinedEmitter (hstopper : s.stopper = .joiningEmitter) (h : s.emitter = .finished) :
      Moves s .joinEmitter { s with emitter := .off, stopper := .requesting }
  | flagged (hstopper : s.stopper = .requesting) :
      Moves s .requestPumpStop { s with pumpStop := true, stopper := .flagged }
  | notifiedPump (hstopper : s.stopper = .flagged) (hfree : s.pump.locked = false) :
      Moves s .notifyPump { s with pump := s.pump.wake, stopper := .joiningPump }
  | joinedPump (hstopper : s.stopper = .joiningPump) (h : s.pump = .finished) :
      Moves s .joinPump { s with pump := .off, stopper := .idle, running := false }
  | pumped (a : PumpAction) (t : EventPump) (ha : a.pumping) (h : PumpMoves s s.pump t) :
      Moves s a t

variable {s t : EventPump} {a : PumpAction}

theorem pumpStep_cases (h : s.pumpStep a s.pump = some t) : PumpMoves s s.pump t := by
  generalize hpump : s.pump = pump at h
  unfold pumpStep at h
  split at h
  · cases h
    exact .lock
  · split_ifs at h with hpass
    · cases h
      exact .pass (by simpa using hpass)
    · cases h
      simp only [Bool.or_eq_true, Bool.not_eq_true', not_or] at hpass
      exact .hold hpass.1 (by simpa using hpass.2)
  · cases h
    exact .park
  · cases h
    exact .spurious
  · split at h
    next event queue hqueue =>
      cases h
      exact .take event queue hqueue
    next hqueue =>
      split_ifs at h with hstop
      · cases h
        exact .finish hstop hqueue
      · cases h
        exact .again hstop hqueue
  · cases h
    exact .deliver _ _
  · cases h
    exact .relock
  · cases h

theorem stopStep_cases (h : s.stopStep a s.stopper = some t) : Moves s a t := by
  generalize hstopper : s.stopper = stopper at h
  unfold stopStep at h
  split at h
  · split_ifs at h with hoff
    · cases h
      exact .neverStarted hstopper hoff
    · cases h
      exact .requested hstopper hoff
  · split_ifs at h with hover
    cases h
    exact .joinedEmitter hstopper hover
  · cases h
    exact .flagged hstopper
  · split_ifs at h with hlocked
    cases h
    exact .notifiedPump hstopper (by simpa using hlocked)
  · split_ifs at h with hover
    cases h
    exact .joinedPump hstopper hover
  · cases h

theorem step_cases (h : s.step a = some t) : Moves s a t := by
  cases a with
  | start =>
    simp only [step] at h
    split_ifs at h with hrunning
    · cases h
      exact .alreadyStarted hrunning
    · cases h
      exact .started (by simpa using hrunning)
  | setEventHandler handler =>
    simp only [step] at h
    split_ifs at h
    cases h
    exact .setEventHandler handler
  | emit event finished =>
    simp only [step] at h
    split_ifs at h with hemits
    cases h
    obtain ⟨hemitter, hfree, hemits⟩ := hemits
    refine .emitted event finished hemitter (by simpa using hfree) fun hfinished => ?_
    simp only [emits, hfinished, if_true, Bool.and_eq_true, beq_iff_eq] at hemits
    rw [hemits.2]
  | notify =>
    simp only [step] at h
    split at h
    next last hemitter =>
      cases h
      exact .notified last hemitter
    next => cases h
  | stop => exact stopStep_cases h
  | joinEmitter => exact stopStep_cases h
  | requestPumpStop => exact stopStep_cases h
  | notifyPump => exact stopStep_cases h
  | joinPump => exact stopStep_cases h
  | _ => exact .pumped _ _ rfl (pumpStep_cases h)

end EventPump

/-! ### The invariant -/

/-- The event that the notifier has taken and not handed on yet. -/
def Pump.inHand : Pump → List FeedEvent
  | .delivering event _ => [event]
  | _ => []

def Emitter.isNotifying : Emitter → Bool
  | .notifying _ => true
  | _ => false

/-- The session thread will emit nothing more. -/
def Emitter.silent : Emitter → Bool
  | .off | .finished | .notifying true => true
  | _ => false

namespace EventPump

structure Sound (s : EventPump) : Prop where
  fifo : s.emitted = s.handled.map Prod.fst ++ s.pump.inHand ++ s.queue
  /-- Whoever made the condition true has still to notify. -/
  unheard : s.pump = .waiting ∨ s.pump = .parking →
    (s.queue ≠ [] → s.emitter.isNotifying ∧ s.pump = .waiting) ∧ (s.pumpStop → s.stopper = .flagged)
  drained : s.pump = .finished ∨ s.pump = .off → s.queue = []
  ending : s.emitter.silent → s.emitted = [] ∨ ∃ last, s.emitted.getLast? = some last ∧
    last.type = .stopped
  flag : s.pumpStop → s.emitter = .off
  flags : s.pump = .finished → s.pumpStop
  joining : s.stopper = .joiningPump ∨ s.stopper = .flagged → s.pumpStop ∧ s.running
  requesting : s.stopper = .requesting → s.emitter = .off ∧ s.running
  joiningEmitter : s.stopper = .joiningEmitter → s.running
  idle : s.running = false → s.emitter = .off ∧ s.pump = .off ∧ s.stopper = .idle
  busy : s.running → s.pump ≠ .off
  awake : s.running → s.stopper = .idle → s.emitter ≠ .off

variable {s t : EventPump} {a : PumpAction}

theorem Sound.move (h : s.Sound) {pump : Pump} {queue : List FeedEvent}
    {handled : List (FeedEvent × Option ℕ)}
    (hfifo : s.emitted = handled.map Prod.fst ++ pump.inHand ++ queue)
    (hbefore : s.pump ≠ .off) (hafter : pump ≠ .off)
    (hunheard : pump = .waiting ∨ pump = .parking →
      (queue ≠ [] → s.emitter.isNotifying ∧ pump = .waiting) ∧ (s.pumpStop → s.stopper = .flagged))
    (hover : pump = .finished → queue = [] ∧ s.pumpStop) :
    Sound { s with pump := pump, queue := queue, handled := handled } where
  fifo := hfifo
  unheard := hunheard
  drained hend := (hover (hend.resolve_right hafter)).1
  ending := h.ending
  flag := h.flag
  flags hend := (hover hend).2
  joining := h.joining
  requesting := h.requesting
  joiningEmitter := h.joiningEmitter
  idle hrunning := absurd (h.idle hrunning).2.1 hbefore
  busy _ := hafter
  awake := h.awake

theorem Sound.pumped (h : s.Sound) (hm : PumpMoves s s.pump t) : t.Sound := by
  have hfifo := h.fifo
  generalize hpump : s.pump = pump at hm
  rw [hpump] at hfifo
  cases hm with
  | lock => exact h.move hfifo (by simp [hpump]) (by simp) (by simp) (by simp)
  | pass hpass => exact h.move hfifo (by simp [hpump]) (by simp) (by simp) (by simp)
  | hold hstop hqueue =>
    refine h.move hfifo (by simp [hpump]) (by simp) ?_ (by simp)
    intro _
    exact ⟨fun hne => absurd hqueue hne, fun hflag => absurd hflag hstop⟩
  | park =>
    refine h.move hfifo (by simp [hpump]) (by simp) ?_ (by simp)
    intro _
    obtain ⟨hempty, hflag⟩ := h.unheard (.inr hpump)
    refine ⟨fun hne => ?_, hflag⟩
    have hwaiting := (hempty hne).2
    rw [hpump] at hwaiting
    cases hwaiting
  | spurious => exact h.move hfifo (by simp [hpump]) (by simp) (by simp) (by simp)
  | take event queue hqueue =>
    rw [hqueue] at hfifo
    apply h.move _ (by simp [hpump]) (by simp) (by simp) (by simp)
    simpa [Pump.inHand] using hfifo
  | finish hstop hqueue =>
    exact h.move hfifo (by simp [hpump]) (by simp) (by simp) fun _ => ⟨hqueue, hstop⟩
  | again hstop hqueue => exact h.move hfifo (by simp [hpump]) (by simp) (by simp) (by simp)
  | deliver event handler =>
    apply h.move _ (by simp [hpump]) (by simp) (by simp) (by simp)
    simpa [Pump.inHand] using hfifo
  | relock => exact h.move hfifo (by simp [hpump]) (by simp) (by simp) (by simp)

theorem wake_inHand (pump : Pump) : pump.wake.inHand = pump.inHand := by
  cases pump with
  | _ => rfl

theorem wake_ne {pump : Pump} : pump.wake ≠ .waiting := by
  cases pump with
  | _ => simp [Pump.wake]

theorem of_wake {pump awake : Pump} (h : pump.wake = awake) (hne : awake ≠ .entering) :
    pump = awake := by
  cases pump with
  | waiting => exact absurd h.symm hne
  | _ => exact h

/-- While a feed thread is there, the notifier is not asked to stop. -/
theorem Sound.not_flagged (h : s.Sound) (hemitter : s.emitter ≠ .off) : s.pumpStop = false := by
  by_contra hflag
  exact hemitter (h.flag (by simpa using hflag))

theorem Sound.is_running (h : s.Sound) (hemitter : s.emitter ≠ .off) : s.running := by
  by_contra hrunning
  exact hemitter (h.idle (by simpa using hrunning)).1

theorem Sound.pushed (h : s.Sound) {event : FeedEvent} {finished : Bool}
    (hemitter : s.emitter = .active) (hfree : s.pump.locked = false)
    (hstopped : finished → event.type = .stopped) : (s.push event finished).Sound := by
  have hactive : s.emitter ≠ .off := by simp [hemitter]
  have hflag := h.not_flagged hactive
  have hrunning := h.is_running hactive
  exact {
    fifo := by
      show s.emitted ++ [event] = _
      rw [h.fifo]
      simp [push]
    unheard := by
      intro hwaiting
      refine ⟨fun _ => ⟨rfl, hwaiting.resolve_right ?_⟩, (h.unheard hwaiting).2⟩
      intro hparking
      rw [show s.pump = .parking from hparking] at hfree
      cases hfree
    drained := by
      intro hend
      rcases hend with hover | hoff
      · have hflag' := h.flags hover
        rw [hflag] at hflag'
        cases hflag'
      · exact absurd hoff (h.busy hrunning)
    ending := by
      intro hsilent
      cases finished with
      | false => cases hsilent
      | true => exact .inr ⟨event, by simp [push], hstopped rfl⟩
    flag := by
      intro hflag'
      rw [show s.pumpStop = true from hflag'] at hflag
      cases hflag
    flags := h.flags
    joining := h.joining
    requesting := fun hrequesting => absurd (h.requesting hrequesting).1 hactive
    joiningEmitter := h.joiningEmitter
    idle := by
      intro hidle
      rw [show s.running = false from hidle] at hrunning
      cases hrunning
    busy := h.busy
    awake := by simp [push] }

theorem Sound.handled (h : s.Sound) (handler : Option ℕ) :
    Sound { s with handler := handler } where
  fifo := h.fifo
  unheard := h.unheard
  drained := h.drained
  ending := h.ending
  flag := h.flag
  flags := h.flags
  joining := h.joining
  requesting := h.requesting
  joiningEmitter := h.joiningEmitter
  idle := h.idle
  busy := h.busy
  awake := h.awake

theorem Sound.started (h : s.Sound) (hrunning : s.running = false) :
    Sound { s with
      running := true
      emitterStop := false
      pumpStop := false
      emitter := .active
      pump := .entering } := by
  obtain ⟨-, hpump, hstopper⟩ := h.idle hrunning
  have hfifo := h.fifo
  rw [hpump] at hfifo
  exact {
    fifo := hfifo
    unheard := by simp
    drained := by simp
    ending := by simp [Emitter.silent]
    flag := by simp
    flags := by simp
    joining := by simp [hstopper]
    requesting := by simp [hstopper]
    joiningEmitter := by simp
    idle := by simp
    busy := by simp
    awake := by simp }

/-- Waking the notifier neither ends it nor starts it. -/
theorem Sound.drained_wake (h : s.Sound) (hend : s.pump.wake = .finished ∨ s.pump.wake = .off) :
    s.queue = [] := by
  rcases hend with hover | hoff
  · exact h.drained (.inl (of_wake hover (by simp)))
  · exact h.drained (.inr (of_wake hoff (by simp)))

theorem Sound.notified (h : s.Sound) {last : Bool} (hemitter : s.emitter = .notifying last) :
    Sound { s with pump := s.pump.wake, emitter := if last then .finished else .active } := by
  have hactive : s.emitter ≠ .off := by simp [hemitter]
  have hflag := h.not_flagged hactive
  exact {
    fifo := by
      rw [wake_inHand]
      exact h.fifo
    unheard := by
      intro hwaiting
      have hbefore := of_wake (hwaiting.resolve_left wake_ne) (by simp)
      refine ⟨fun hne => ?_, fun hflag' => by simp [hflag] at hflag'⟩
      have hpump := ((h.unheard (.inr hbefore)).1 hne).2
      rw [hbefore] at hpump
      cases hpump
    drained := h.drained_wake
    ending := by
      intro hsilent
      cases last with
      | false => cases hsilent
      | true => exact h.ending (by rw [hemitter]; rfl)
    flag := fun hflag' => by simp [hflag] at hflag'
    flags := fun hover => h.flags (of_wake hover (by simp))
    joining := h.joining
    requesting := fun hrequesting => absurd (h.requesting hrequesting).1 hactive
    joiningEmitter := h.joiningEmitter
    idle := fun hrunning => absurd (h.idle hrunning).1 hactive
    busy := fun hrunning hoff => h.busy hrunning (of_wake hoff (by simp))
    awake := by
      intro _ _
      cases last with
      | _ => simp }

theorem Sound.neverStarted (h : s.Sound) (hstopper : s.stopper = .idle)
    (hoff : s.emitter = .off) : Sound { s with running := false } := by
  have hrunning : s.running = false := by
    by_contra hrunning
    exact h.awake (by simpa using hrunning) hstopper hoff
  rw [show { s with running := false } = s by rw [← hrunning]]
  exact h

theorem Sound.requested (h : s.Sound) (hactive : s.emitter ≠ .off) :
    Sound { s with emitterStop := true, stopper := .joiningEmitter } := by
  have hflag := h.not_flagged hactive
  have hrunning := h.is_running hactive
  exact {
    fifo := h.fifo
    unheard := by
      intro hwaiting
      exact ⟨(h.unheard hwaiting).1, fun hflag' => by simp [hflag] at hflag'⟩
    drained := h.drained
    ending := h.ending
    flag := h.flag
    flags := h.flags
    joining := by simp
    requesting := by simp
    joiningEmitter := fun _ => hrunning
    idle := by simp [hrunning]
    busy := h.busy
    awake := by simp }

theorem Sound.joinedEmitter (h : s.Sound) (hstopper : s.stopper = .joiningEmitter)
    (hover : s.emitter = .finished) :
    Sound { s with emitter := .off, stopper := .requesting } := by
  have hrunning := h.joiningEmitter hstopper
  have hflag := h.not_flagged (by simp [hover])
  exact {
    fifo := h.fifo
    unheard := by
      intro hwaiting
      refine ⟨fun hne => ?_, fun hflag' => by simp [hflag] at hflag'⟩
      have hnotifying := ((h.unheard hwaiting).1 hne).1
      rw [hover] at hnotifying
      cases hnotifying
    drained := h.drained
    ending := fun _ => h.ending (by rw [hover]; rfl)
    flag := by simp
    flags := h.flags
    joining := by simp
    requesting := fun _ => ⟨rfl, hrunning⟩
    joiningEmitter := by simp
    idle := by simp [hrunning]
    busy := h.busy
    awake := by simp }

theorem Sound.flagged (h : s.Sound) (hstopper : s.stopper = .requesting) :
    Sound { s with pumpStop := true, stopper := .flagged } := by
  obtain ⟨hoff, hrunning⟩ := h.requesting hstopper
  exact {
    fifo := h.fifo
    unheard := fun hwaiting => ⟨(h.unheard hwaiting).1, fun _ => rfl⟩
    drained := h.drained
    ending := h.ending
    flag := fun _ => hoff
    flags := fun _ => rfl
    joining := fun _ => ⟨rfl, hrunning⟩
    requesting := by simp
    joiningEmitter := by simp
    idle := by simp [hrunning]
    busy := h.busy
    awake := by simp }

theorem Sound.notifiedPump (h : s.Sound) (hstopper : s.stopper = .flagged)
    (hfree : s.pump.locked = false) :
    Sound { s with pump := s.pump.wake, stopper := .joiningPump } := by
  obtain ⟨hflag, hrunning⟩ := h.joining (.inr hstopper)
  exact {
    fifo := by
      rw [wake_inHand]
      exact h.fifo
    unheard := by
      intro hwaiting
      have hbefore := of_wake (hwaiting.resolve_left wake_ne) (by simp)
      rw [hbefore] at hfree
      cases hfree
    drained := h.drained_wake
    ending := h.ending
    flag := h.flag
    flags := fun _ => hflag
    joining := fun _ => ⟨hflag, hrunning⟩
    requesting := by simp
    joiningEmitter := by simp
    idle := by simp [hrunning]
    busy := fun _ hoff => h.busy hrunning (of_wake hoff (by simp))
    awake := by simp }

theorem Sound.joinedPump (h : s.Sound) (hstopper : s.stopper = .joiningPump)
    (hover : s.pump = .finished) :
    Sound { s with pump := .off, stopper := .idle, running := false } := by
  obtain ⟨hflag, -⟩ := h.joining (.inl hstopper)
  have hfifo := h.fifo
  rw [hover] at hfifo
  exact {
    fifo := hfifo
    unheard := by simp
    drained := fun _ => h.drained (.inl hover)
    ending := h.ending
    flag := h.flag
    flags := by simp
    joining := by simp
    requesting := by simp
    joiningEmitter := by simp
    idle := fun _ => ⟨h.flag hflag, rfl, rfl⟩
    busy := by simp
    awake := by simp }

theorem Sound.step (h : s.Sound) (hs : s.step a = some t) : t.Sound := by
  cases step_cases hs with
  | pumped _ _ _ hm => exact h.pumped hm
  | alreadyStarted _ => exact h
  | setEventHandler handler => exact h.handled handler
  | started hrunning => exact h.started hrunning
  | emitted event finished hemitter hfree hstopped => exact h.pushed hemitter hfree hstopped
  | notified last hemitter => exact h.notified hemitter
  | neverStarted hstopper hoff => exact h.neverStarted hstopper hoff
  | requested hstopper hactive => exact h.requested hactive
  | joinedEmitter hstopper hover => exact h.joinedEmitter hstopper hover
  | flagged hstopper => exact h.flagged hstopper
  | notifiedPump hstopper hfree => exact h.notifiedPump hstopper hfree
  | joinedPump hstopper hover => exact h.joinedPump hstopper hover

theorem sound_of_reaches
    (h : Transition.Reaches step (fun _ _ => True) ({} : EventPump) s) : s.Sound := by
  apply h.invariant (I := Sound)
  · intro s a t hsound _ hs
    exact hsound.step hs
  · constructor <;> simp [Pump.inHand, Emitter.silent]

/-- Every event is handed on once, in the order of the emissions. The notifier never sleeps on an
event or a stop that nobody will wake it for, and when `stop` has returned nothing is left. -/
theorem events_handed_on
    (h : Transition.Reaches step (fun _ _ => True) ({} : EventPump) s) :
    s.emitted = s.handled.map Prod.fst ++ s.pump.inHand ++ s.queue ∧
      (s.pump = .waiting → (s.queue ≠ [] → s.emitter.isNotifying) ∧
        (s.pumpStop → s.stopper = .flagged)) ∧
      (s.running = false → s.handled.map Prod.fst = s.emitted ∧
        ∀ last, s.emitted.getLast? = some last → last.type = .stopped) := by
  have hsound := sound_of_reaches h
  refine ⟨hsound.fifo, fun hwaiting => ?_, fun hrunning => ?_⟩
  · obtain ⟨hqueue, hflag⟩ := hsound.unheard (.inl hwaiting)
    exact ⟨fun hne => (hqueue hne).1, hflag⟩
  · obtain ⟨hemitter, hpump, _⟩ := hsound.idle hrunning
    have hfifo := hsound.fifo
    rw [hpump, hsound.drained (.inr hpump)] at hfifo
    refine ⟨by simpa [Pump.inHand] using hfifo.symm, fun last hlast => ?_⟩
    rcases hsound.ending (by rw [hemitter]; rfl) with hnone | ⟨final, hfinal, htype⟩
    · rw [hnone] at hlast
      cases hlast
    · rw [hlast] at hfinal
      cases hfinal
      exact htype

end EventPump

/-! ### Stopping -/

/-- How far `stop` is from waiting for the notifier. -/
def Stopper.left : Stopper → ℕ
  | .idle => 4
  | .joiningEmitter => 3
  | .requesting => 2
  | .flagged => 1
  | .joiningPump => 0

/-- How far the notifier is from its end once its stop is requested, with an empty queue. -/
def Pump.left : Pump → ℕ
  | .delivering _ _ => 5
  | .relocking => 4
  | .waiting | .parking | .entering => 3
  | .testing => 2
  | .draining => 1
  | .finished | .off => 0

namespace EventPump

/-- Every event takes at most five steps. -/
def rank (s : EventPump) : ℕ := 5 * s.queue.length + s.pump.left

variable {s t : EventPump} {a : PumpAction}

/-- While `stop` waits for the notifier, the others change neither. -/
theorem Sound.others_wait (h : s.Sound) (hstopper : s.stopper = .joiningPump)
    (hover : s.pump ≠ .finished) (ha : ¬ a.pumping) (hs : s.step a = some t) :
    t.stopper = .joiningPump ∧ t.pump = s.pump ∧ t.queue = s.queue := by
  obtain ⟨hflag, hrunning⟩ := h.joining (.inl hstopper)
  have hoff := h.flag hflag
  cases step_cases hs with
  | started hidle => rw [hidle] at hrunning; cases hrunning
  | alreadyStarted _ => exact ⟨hstopper, rfl, rfl⟩
  | setEventHandler handler => exact ⟨hstopper, rfl, rfl⟩
  | emitted event finished hemitter => rw [hoff] at hemitter; cases hemitter
  | notified last hemitter => rw [hoff] at hemitter; cases hemitter
  | joinedPump _ hover' => exact absurd hover' hover
  | pumped _ _ hpumping => exact absurd hpumping ha
  | neverStarted hother => rw [hstopper] at hother; cases hother
  | requested hother => rw [hstopper] at hother; cases hother
  | joinedEmitter hother => rw [hstopper] at hother; cases hother
  | flagged hother => rw [hstopper] at hother; cases hother
  | notifiedPump hother => rw [hstopper] at hother; cases hother

theorem PumpMoves.stopper {pump : Pump} (hm : PumpMoves s pump t) :
    t.stopper = s.stopper ∧ t.pumpStop = s.pumpStop := by
  cases hm with
  | _ => exact ⟨rfl, rfl⟩

/-- A notifier that was told to stop does not wait again. -/
theorem PumpMoves.descends (hm : PumpMoves s s.pump t) (hflag : s.pumpStop)
    (hwaiting : s.pump ≠ .waiting) (hparking : s.pump ≠ .parking) : t.rank < s.rank := by
  unfold rank
  generalize hpump : s.pump = pump at hm hwaiting hparking
  cases hm with
  | lock => simp [Pump.left]
  | pass _ => simp [Pump.left]
  | hold hstop _ => exact absurd hflag hstop
  | park => exact absurd rfl hparking
  | spurious => exact absurd rfl hwaiting
  | take event queue hqueue =>
    simp only [hqueue, List.length_cons, Pump.left]
    omega
  | finish _ _ => simp [Pump.left]
  | again hstop _ => exact absurd hflag hstop
  | deliver event handler => simp [Pump.left]
  | relock => simp [Pump.left]

/-- The notifier has a step unless it waits or is over. -/
theorem exists_pumping (s : EventPump) (hoff : s.pump ≠ .off) (hover : s.pump ≠ .finished)
    (hwaiting : s.pump ≠ .waiting) : ∃ a t, a.pumping ∧ s.step a = some t := by
  cases hpump : s.pump with
  | off => exact absurd hpump hoff
  | finished => exact absurd hpump hover
  | waiting => exact absurd hpump hwaiting
  | entering => exact ⟨.lock, _, rfl, by simp only [step, pumpStep, hpump]; rfl⟩
  | parking => exact ⟨.park, _, rfl, by simp only [step, pumpStep, hpump]; rfl⟩
  | delivering event handler =>
    exact ⟨.deliver, _, rfl, by simp only [step, pumpStep, hpump]; rfl⟩
  | relocking => exact ⟨.relock, _, rfl, by simp only [step, pumpStep, hpump]; rfl⟩
  | testing =>
    by_cases hpass : (s.pumpStop || !s.queue.isEmpty) = true
    · exact ⟨.test, _, rfl, by simp only [step, pumpStep, hpump, hpass]; rfl⟩
    · exact ⟨.test, _, rfl, by simp only [step, pumpStep, hpump, hpass]; rfl⟩
  | draining =>
    cases hqueue : s.queue with
    | cons event queue => exact ⟨.drain, _, rfl, by simp only [step, pumpStep, hpump, hqueue]; rfl⟩
    | nil =>
      by_cases hstop : s.pumpStop = true
      · exact ⟨.drain, _, rfl, by simp only [step, pumpStep, hpump, hqueue, hstop]; rfl⟩
      · exact ⟨.drain, _, rfl, by simp only [step, pumpStep, hpump, hqueue, hstop]; rfl⟩

/-- Once `stop` has notified, the notifier is not asleep. -/
theorem Sound.woken (h : s.Sound) (hstopper : s.stopper = .joiningPump)
    (hwaiting : s.pump = .waiting ∨ s.pump = .parking) : False := by
  have hflagged := (h.unheard hwaiting).2 (h.joining (.inl hstopper)).1
  rw [hstopper] at hflagged
  cases hflagged

theorem Sound.pump_ends (h : s.Sound) (hstopper : s.stopper = .joiningPump) :
    Transition.Inevitable (Transition.Round EventPump.step fun a => a.pumping)
      (fun t => t.Sound ∧ t.stopper = .joiningPump ∧ t.pump = .finished) s := by
  apply Transition.Inevitable.of_rounds (I := fun t => t.Sound ∧ t.stopper = .joiningPump)
    (wellFounded_lt (α := ℕ)) rank _ _ _ ⟨h, hstopper⟩
  · intro s a t ⟨hs, hstopper⟩ hgoal ha hst
    have hover : s.pump ≠ .finished := fun hover => hgoal ⟨hs, hstopper, hover⟩
    obtain ⟨hstopper', hpump, hqueue⟩ := hs.others_wait hstopper hover ha hst
    refine ⟨⟨hs.step hst, hstopper'⟩, fun hgoal' => hover (hpump ▸ hgoal'.2.2), ?_⟩
    unfold rank
    rw [hpump, hqueue]
  · intro s ⟨hs, hstopper⟩ hgoal
    have hrunning := (hs.joining (.inl hstopper)).2
    obtain ⟨a, t, ha, hst⟩ := exists_pumping s (hs.busy hrunning)
      (fun hover => hgoal ⟨hs, hstopper, hover⟩) fun hwaiting => hs.woken hstopper (.inl hwaiting)
    exact ⟨t, .single ha hst⟩
  · intro s a t ⟨hs, hstopper⟩ _ ha hst
    have hflag := (hs.joining (.inl hstopper)).1
    cases step_cases hst with
    | pumped _ _ _ hm =>
      refine ⟨⟨hs.pumped hm, hm.stopper.1.trans hstopper⟩, hm.descends hflag ?_ ?_⟩
      · exact fun hwaiting => hs.woken hstopper (.inl hwaiting)
      · exact fun hparking => hs.woken hstopper (.inr hparking)
    | _ => cases ha

/-- The notifier gives the lock back within two steps of its own. -/
theorem exists_unlocked (s : EventPump) (hflag : s.pumpStop) :
    ∃ t, Transition.Reaches EventPump.step (fun _ a => ¬ a.stopping) s t ∧
      t.stopper = s.stopper ∧ t.pump.locked = false := by
  have hdrain (s : EventPump) (hpump : s.pump = .draining) (hflag : s.pumpStop) :
      ∃ t, s.step .drain = some t ∧ t.stopper = s.stopper ∧ t.pump.locked = false := by
    cases hqueue : s.queue with
    | nil =>
      refine ⟨{ s with pump := .finished }, ?_, rfl, rfl⟩
      simp only [step, pumpStep, hpump, hqueue, hflag, if_true]
    | cons event queue =>
      refine ⟨{ s with queue := queue, pump := .delivering event s.handler }, ?_, rfl, rfl⟩
      simp only [step, pumpStep, hpump, hqueue]
  cases hpump : s.pump with
  | testing =>
    have htest : s.step .test = some { s with pump := .draining } := by
      simp only [step, pumpStep, hpump, hflag, Bool.true_or, if_true]
    obtain ⟨t, ht, hstopper, hfree⟩ := hdrain { s with pump := .draining } rfl hflag
    exact ⟨t, ((Transition.Reaches.refl s).snoc (by decide) htest).snoc (by decide) ht, hstopper,
      hfree⟩
  | draining =>
    obtain ⟨t, ht, hstopper, hfree⟩ := hdrain s hpump hflag
    exact ⟨t, (Transition.Reaches.refl s).snoc (by decide) ht, hstopper, hfree⟩
  | parking =>
    have hpark : s.step .park = some { s with pump := .waiting } := by
      simp only [step, pumpStep, hpump]
    exact ⟨_, (Transition.Reaches.refl s).snoc (by decide) hpark, rfl, rfl⟩
  | _ => exact ⟨s, .refl s, rfl, by rw [hpump]; rfl⟩

/-- `stop` is past its first join, or has nothing to wait for there. -/
def Joins (s : EventPump) : Prop :=
  s.stopper ≠ .idle ∧ (s.stopper = .joiningEmitter → s.emitter = .finished)

/-- The others do not move `stop`, and nothing is emitted behind it. -/
theorem Joins.others (h : s.Joins) (hsound : s.Sound) (ha : ¬ a.stopping)
    (hs : s.step a = some t) : t.Joins ∧ t.stopper = s.stopper := by
  obtain ⟨hbusy, hjoins⟩ := h
  have hrunning : s.running := by
    by_contra hrunning
    exact hbusy (hsound.idle (by simpa using hrunning)).2.2
  have hsilent : s.emitter = .off ∨ s.emitter = .finished := by
    cases hstopper : s.stopper with
    | idle => exact absurd hstopper hbusy
    | joiningEmitter => exact .inr (hjoins hstopper)
    | requesting => exact .inl (hsound.requesting hstopper).1
    | flagged => exact .inl (hsound.flag (hsound.joining (.inr hstopper)).1)
    | joiningPump => exact .inl (hsound.flag (hsound.joining (.inl hstopper)).1)
  cases step_cases hs with
  | started hidle => rw [hidle] at hrunning; cases hrunning
  | alreadyStarted _ => exact ⟨⟨hbusy, hjoins⟩, rfl⟩
  | setEventHandler handler => exact ⟨⟨hbusy, hjoins⟩, rfl⟩
  | emitted event finished hemitter => simp [hemitter] at hsilent
  | notified last hemitter => simp [hemitter] at hsilent
  | neverStarted hidle => exact absurd hidle hbusy
  | requested hidle => exact absurd hidle hbusy
  | pumped _ _ _ hm =>
    have hemitter : t.emitter = s.emitter := by
      generalize s.pump = pump at hm
      cases hm with
      | _ => rfl
    have hstopper := hm.stopper.1
    refine ⟨⟨hstopper ▸ hbusy, fun hjoining => ?_⟩, hstopper⟩
    rw [hemitter]
    exact hjoins (hstopper ▸ hjoining)
  | _ => exact absurd rfl ha

theorem Joins.descends (hjoining : s.stopper ≠ .joiningPump) (ha : a.stopping)
    (hs : s.step a = some t) : t.Joins ∧ t.stopper.left < s.stopper.left := by
  cases step_cases hs with
  | joinedEmitter hstopper _ => simp [Joins, hstopper, Stopper.left]
  | flagged hstopper => simp [Joins, hstopper, Stopper.left]
  | notifiedPump hstopper _ => simp [Joins, hstopper, Stopper.left]
  | joinedPump hstopper _ => exact absurd hstopper hjoining
  | pumped _ _ hpumping _ =>
    cases a with
    | _ => simp_all [PumpAction.stopping, PumpAction.pumping]
  | _ => cases ha

theorem Joins.exists_round (h : s.Joins) (hsound : s.Sound) (hjoining : s.stopper ≠ .joiningPump) :
    ∃ t, Transition.Round EventPump.step (fun a => a.stopping) s t := by
  cases hstopper : s.stopper with
  | idle => exact absurd hstopper h.1
  | joiningEmitter =>
    have hover := h.2 hstopper
    refine ⟨{ s with emitter := .off, stopper := .requesting }, .single (a := .joinEmitter) rfl ?_⟩
    simp only [EventPump.step, stopStep, hstopper, hover, if_true]
  | requesting =>
    refine ⟨{ s with pumpStop := true, stopper := .flagged }, .single (a := .requestPumpStop) rfl ?_⟩
    simp only [EventPump.step, stopStep, hstopper]
  | flagged =>
    obtain ⟨t, hreach, hstopper', hfree⟩ :=
      exists_unlocked s (hsound.joining (.inr hstopper)).1
    rw [hstopper] at hstopper'
    refine ⟨{ t with pump := t.pump.wake, stopper := .joiningPump }, t, hreach, .notifyPump, rfl, ?_⟩
    simp [EventPump.step, stopStep, hstopper', hfree]
  | joiningPump => exact absurd hstopper hjoining

/-- Once the session thread has ended, `stop` comes to its return: it gets to wait for the notifier
however the threads are interleaved, and then the notifier hands everything on and ends. -/
theorem stop_returns
    (h : Transition.Reaches step (fun _ _ => True) ({} : EventPump) s) (hjoins : s.Joins) :
    Transition.Inevitable (Transition.Round step fun a => a.stopping)
      (fun t => t.stopper = .joiningPump ∧
        Transition.Inevitable (Transition.Round step fun a => a.pumping)
          (fun u => ∃ v, u.step .joinPump = some v ∧ v.running = false ∧
            v.handled.map Prod.fst = v.emitted) t) s := by
  have hsound := sound_of_reaches h
  have hfirst : Transition.Inevitable (Transition.Round step fun a => a.stopping)
      (fun t => t.Sound ∧ t.stopper = .joiningPump) s := by
    apply Transition.Inevitable.of_rounds (I := fun t => t.Sound ∧ t.Joins)
      (wellFounded_lt (α := ℕ)) (fun t => t.stopper.left) _ _ _ ⟨hsound, hjoins⟩
    · intro s a t ⟨hsound, hjoins⟩ hgoal ha hs
      obtain ⟨hjoins', hstopper⟩ := hjoins.others hsound ha hs
      refine ⟨⟨hsound.step hs, hjoins'⟩, fun hgoal' => hgoal ⟨hsound, ?_⟩, by rw [hstopper]⟩
      exact hstopper ▸ hgoal'.2
    · intro s ⟨hsound, hjoins⟩ hgoal
      exact hjoins.exists_round hsound fun hjoining => hgoal ⟨hsound, hjoining⟩
    · intro s a t ⟨hsound, hjoins⟩ hgoal ha hs
      obtain ⟨hjoins', hlower⟩ :=
        Joins.descends (fun hjoining => hgoal ⟨hsound, hjoining⟩) ha hs
      exact ⟨⟨hsound.step hs, hjoins'⟩, hlower⟩
  apply hfirst.mono
  intro t ⟨ht, hjoining⟩
  refine ⟨hjoining, (ht.pump_ends hjoining).mono ?_⟩
  intro u ⟨hu, hjoining, hover⟩
  have hfifo := hu.fifo
  rw [hover, hu.drained (.inl hover)] at hfifo
  refine ⟨{ u with pump := .off, stopper := .idle, running := false }, ?_, rfl, ?_⟩
  · simp only [step, stopStep, hjoining, hover, if_true]
  · simpa [Pump.inHand] using hfifo.symm

/-- A run of the three threads: the stop is requested while an event is in the queue, and the
notifier was last seen before it went to sleep. -/
def stoppedRun : Option EventPump :=
  Transition.exec step (fun _ _ => True) {}
    [.setEventHandler (some 1), .start, .lock, .test, .park, .emit ⟨.connecting, "wss://venue"⟩ false,
      .notify, .lock, .test, .drain, .deliver, .relock, .drain, .test, .park, .stop,
      .emit ⟨.stopped, "feed stopped"⟩ true, .notify]

theorem events_handed_on_stoppedRun :
    ∃ s, stoppedRun = some s ∧ s.handled = [(⟨.connecting, "wss://venue"⟩, some 1)] ∧
      s.emitted = s.handled.map Prod.fst ++ s.pump.inHand ++ s.queue := by
  refine ⟨_, rfl, rfl, ?_⟩
  exact (events_handed_on (Transition.reaches_of_exec (show stoppedRun = some _ from rfl))).1

theorem stop_returns_stoppedRun :
    ∃ s, stoppedRun = some s ∧ s.queue = [⟨.stopped, "feed stopped"⟩] ∧
      Transition.Inevitable (Transition.Round step fun a => a.stopping)
        (fun t => t.stopper = .joiningPump ∧
          Transition.Inevitable (Transition.Round step fun a => a.pumping)
            (fun u => ∃ v, u.step .joinPump = some v ∧ v.running = false ∧
              v.handled.map Prod.fst = v.emitted) t) s := by
  refine ⟨_, rfl, rfl, ?_⟩
  apply stop_returns (Transition.reaches_of_exec (show stoppedRun = some _ from rfl))
  exact ⟨by decide, fun _ => rfl⟩

end EventPump

end ExchangeGateway.Binance
