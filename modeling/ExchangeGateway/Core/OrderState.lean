import ExchangeGateway.Connector

/-! The explicit legal-transition table of the order lifecycle (`core/order_state.hpp`). -/
namespace ExchangeGateway

def kLegalTransitions : List (OrderState × OrderState) :=
  [(.pending, .pending), (.pending, .live), (.pending, .partiallyFilled), (.pending, .filled),
   (.pending, .rejected),
   (.live, .live), (.live, .partiallyFilled), (.live, .filled), (.live, .canceled),
   (.live, .rejected),
   (.partiallyFilled, .partiallyFilled), (.partiallyFilled, .filled),
   (.partiallyFilled, .canceled), (.partiallyFilled, .rejected)]

def isTerminal (state : OrderState) : Bool :=
  state = .filled || state = .canceled || state = .rejected

def canTransition (src dst : OrderState) : Bool :=
  kLegalTransitions.any fun transition => transition.1 = src && transition.2 = dst

inductive TransitionResult
  | applied | rejected
  deriving DecidableEq, Repr

/-- Attempt to move `state` to `next`: the new state and whether the table allowed it. -/
def applyTransition (state next : OrderState) : OrderState × TransitionResult :=
  if !canTransition state next then (state, .rejected) else (next, .applied)

theorem canTransition_iff {src dst : OrderState} :
    canTransition src dst ↔ (src, dst) ∈ kLegalTransitions := by
  cases src <;> cases dst <;> decide

theorem applyTransition_eq (state next : OrderState) :
    applyTransition state next =
      if canTransition state next then (next, .applied) else (state, .rejected) := by
  cases h : canTransition state next <;> simp [applyTransition, h]

/-- A terminal state has no outgoing edge. -/
theorem not_canTransition_of_terminal {src dst : OrderState} (h : isTerminal src) :
    canTransition src dst = false := by
  cases src <;> cases dst <;> first | rfl | cases h

theorem applyTransition_of_terminal {state : OrderState} (h : isTerminal state)
    (next : OrderState) : applyTransition state next = (state, .rejected) := by
  simp [applyTransition, not_canTransition_of_terminal h]

/-- Pending is entered from Pending only. -/
theorem eq_pending_of_canTransition {src : OrderState} (h : canTransition src .pending) :
    src = .pending := by
  cases src <;> first | rfl | cases h

theorem canTransition_rejected_iff {src : OrderState} :
    canTransition src .rejected ↔ ¬ isTerminal src := by
  cases src <;> decide

end ExchangeGateway
