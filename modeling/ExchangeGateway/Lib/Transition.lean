import Mathlib.Logic.Relation
import Mathlib.Tactic.Common

/-! Guarded runs of a partial step function, with the induction rules used for
invariants and for relations between two states of one run. -/
namespace Transition

variable {σ α : Type*} {step : σ → α → Option σ} {ok : σ → α → Prop}

/-- One step whose action satisfies the guard `ok` in the state it is taken from. -/
def Step (step : σ → α → Option σ) (ok : σ → α → Prop) (s t : σ) : Prop :=
  ∃ a, ok s a ∧ step s a = some t

/-- Any finite number of guarded steps. -/
def Reaches (step : σ → α → Option σ) (ok : σ → α → Prop) : σ → σ → Prop :=
  Relation.ReflTransGen (Step step ok)

theorem Reaches.refl (s : σ) : Reaches step ok s s := Relation.ReflTransGen.refl

theorem Reaches.snoc {s t u : σ} {a : α} (h : Reaches step ok s t) (ha : ok t a)
    (hs : step t a = some u) : Reaches step ok s u :=
  Relation.ReflTransGen.tail h ⟨a, ha, hs⟩

theorem Reaches.trans {s t u : σ} (h : Reaches step ok s t) (h' : Reaches step ok t u) :
    Reaches step ok s u := Relation.ReflTransGen.trans h h'

/-- Weakening the guard keeps every run. -/
theorem Reaches.mono {ok' : σ → α → Prop} (hok : ∀ s a, ok s a → ok' s a) {s t : σ}
    (h : Reaches step ok s t) : Reaches step ok' s t := by
  induction h with
  | refl => exact .refl s
  | tail _ hs ih =>
    obtain ⟨a, ha, hst⟩ := hs
    exact ih.snoc (hok _ _ ha) hst

/-- The invariant rule. -/
theorem Reaches.invariant {I : σ → Prop}
    (hstep : ∀ s a t, I s → ok s a → step s a = some t → I t)
    {s t : σ} (h : Reaches step ok s t) (h0 : I s) : I t := by
  induction h with
  | refl => exact h0
  | tail _ hs ih =>
    obtain ⟨a, ha, hst⟩ := hs
    exact hstep _ a _ ih ha hst

/-- A reflexive and transitive relation that every step from a state with the invariant
satisfies relates the two ends of a run. -/
theorem Reaches.relates {I : σ → Prop} {R : σ → σ → Prop} (hrefl : ∀ s, R s s)
    (htrans : ∀ s t u, R s t → R t u → R s u)
    (hinv : ∀ s a t, I s → ok s a → step s a = some t → I t)
    (hstep : ∀ s a t, I s → ok s a → step s a = some t → R s t)
    {s t : σ} (h : Reaches step ok s t) (h0 : I s) : R s t := by
  induction h with
  | refl => exact hrefl s
  | tail hr hs ih =>
    obtain ⟨a, ha, hst⟩ := hs
    have hI := Reaches.invariant hinv hr h0
    exact htrans _ _ _ ih (hstep _ a _ hI ha hst)

/-- Execute a list of actions, refusing the first one whose guard fails. -/
def exec (step : σ → α → Option σ) (ok : σ → α → Prop) [∀ s a, Decidable (ok s a)] :
    σ → List α → Option σ
  | s, [] => some s
  | s, a :: as => if ok s a then (step s a).bind fun t => exec step ok t as else none

/-- An executed list of actions is a guarded run. -/
theorem reaches_of_exec [∀ s a, Decidable (ok s a)] {s t : σ} {as : List α}
    (h : exec step ok s as = some t) : Reaches step ok s t := by
  induction as generalizing s with
  | nil =>
    obtain rfl : s = t := Option.some.inj h
    exact .refl s
  | cons a as ih =>
    simp only [exec] at h
    split_ifs at h with ha
    obtain ⟨u, hu, ht⟩ := Option.bind_eq_some_iff.mp h
    exact Relation.ReflTransGen.head ⟨a, ha, hu⟩ (ih ht)

/-- The state an execution ends in is reached by a guarded run. -/
theorem reaches_get_exec [∀ s a, Decidable (ok s a)] {s : σ} {as : List α}
    (h : (exec step ok s as).isSome) : Reaches step ok s ((exec step ok s as).get h) :=
  reaches_of_exec (Option.some_get h).symm

end Transition
