import ExchangeGateway.Lib.Transition
import Mathlib.Order.WellFounded

/-! What a run must come to, however its steps are chosen. -/
namespace Transition

variable {σ α β : Type*}

/-- Every run meets the goal: it can go on until then, and it does not go on forever. -/
inductive Inevitable (next : σ → σ → Prop) (goal : σ → Prop) : σ → Prop
  | reached {s : σ} (h : goal s) : Inevitable next goal s
  | later {s : σ} (hcan : ∃ t, next s t) (hnext : ∀ t, next s t → Inevitable next goal t) :
      Inevitable next goal s

theorem Inevitable.mono {next : σ → σ → Prop} {goal goal' : σ → Prop}
    (hgoal : ∀ s, goal s → goal' s) {s : σ} (h : Inevitable next goal s) :
    Inevitable next goal' s := by
  induction h with
  | reached h => exact .reached (hgoal _ h)
  | later hcan _ ih => exact .later hcan ih

/-- The rank rule: short of the goal there is a step, and every step descends. -/
theorem Inevitable.of_rank {next : σ → σ → Prop} {goal I : σ → Prop} {r : β → β → Prop}
    (hr : WellFounded r) (rank : σ → β)
    (hcan : ∀ s, I s → ¬ goal s → ∃ t, next s t)
    (hdown : ∀ s t, I s → ¬ goal s → next s t → I t ∧ r (rank t) (rank s))
    {s : σ} (h : I s) : Inevitable next goal s := by
  have hall : ∀ n s, rank s = n → I s → Inevitable next goal s := by
    intro n
    induction n using hr.induction with
    | _ n ih =>
      intro s hrank hs
      by_cases hgoal : goal s
      · exact .reached hgoal
      · refine .later (hcan s hs hgoal) fun t ht => ?_
        obtain ⟨hI, hlower⟩ := hdown s t hs hgoal ht
        rw [hrank] at hlower
        exact ih (rank t) hlower t rfl hI
  exact hall (rank s) s rfl h

/-- One step of a thread, after any number of steps of the others. -/
def Round (step : σ → α → Option σ) (mine : α → Prop) (s t : σ) : Prop :=
  ∃ u, Reaches step (fun _ a => ¬ mine a) s u ∧ Step step (fun _ a => mine a) u t

theorem Round.single {step : σ → α → Option σ} {mine : α → Prop} {s t : σ} {a : α} (ha : mine a)
    (h : step s a = some t) : Round step mine s t :=
  ⟨s, .refl s, a, ha, h⟩

/-- The rank rule for one thread: the others keep the invariant and the rank, and short of the
goal the thread comes to a step and descends with each of them. -/
theorem Inevitable.of_rounds {step : σ → α → Option σ} {mine : α → Prop} {goal I : σ → Prop}
    {r : β → β → Prop} (hr : WellFounded r) (rank : σ → β)
    (hothers : ∀ s a t, I s → ¬ goal s → ¬ mine a → step s a = some t →
      I t ∧ ¬ goal t ∧ rank t = rank s)
    (hcan : ∀ s, I s → ¬ goal s → ∃ t, Round step mine s t)
    (hmine : ∀ s a t, I s → ¬ goal s → mine a → step s a = some t → I t ∧ r (rank t) (rank s))
    {s : σ} (h : I s) : Inevitable (Round step mine) goal s := by
  apply Inevitable.of_rank hr rank hcan _ h
  intro s t hs hgoal ⟨u, hsu, a, ha, hut⟩
  have hu : I u ∧ ¬ goal u ∧ rank u = rank s := by
    apply hsu.invariant (I := fun u => I u ∧ ¬ goal u ∧ rank u = rank s)
    · intro u a v ⟨hu, hshort, hrank⟩ ha huv
      obtain ⟨hv, hshort', hrank'⟩ := hothers u a v hu hshort ha huv
      exact ⟨hv, hshort', hrank'.trans hrank⟩
    · exact ⟨hs, hgoal, rfl⟩
  obtain ⟨ht, hlower⟩ := hmine u a t hu.1 hu.2.1 ha hut
  exact ⟨ht, hu.2.2 ▸ hlower⟩

end Transition
