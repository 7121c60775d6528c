import ExchangeGateway.Connector
import Mathlib.Data.Int.Basic

/-! The venue-agnostic retry driver (`core/retry.hpp`). What an attempt, the clock and the venue do
is state passing over an arbitrary world `W`. -/
namespace ExchangeGateway

/-- Durations in milliseconds. `backoff` stands for `backoff_for` followed by `apply_jitter`, whose
floating-point arithmetic decides only how long to sleep: any function of the retry index and of
the draw. -/
structure RetryPolicy (ρ : Type) where
  /-- Total attempts including the first one. -/
  maxAttempts : ℤ
  budget : ℤ
  backoff : ℕ → ρ → ℤ

/-- Injectable time, sleep and randomness. Time points are in nanoseconds. -/
structure RetryClock (ρ W : Type) where
  now : W → ℤ × W
  sleep : ℤ → W → W
  random01 : W → ρ × W

/-- The clock next to a variable of the caller. -/
def RetryClock.beside {ρ W : Type} (clock : RetryClock ρ W) (σ : Type) :
    RetryClock ρ (W × σ) where
  now w := ((clock.now w.1).1, (clock.now w.1).2, w.2)
  sleep delay w := (clock.sleep delay w.1, w.2)
  random01 w := ((clock.random01 w.1).1, (clock.random01 w.1).2, w.2)

def kNanosPerMilli : ℤ := 1000000

section

variable {ρ W α : Type} (policy : RetryPolicy ρ) (clock : RetryClock ρ W)
  (attempt : W → Result α × W) (retryable : Error → W → Bool)

/-- The sleep before the next attempt, cut off at the deadline. -/
def retryDelay (index : ℕ) (draw : ρ) (remaining : ℤ) : ℤ :=
  let delay := policy.backoff (index + 1) draw
  if delay * kNanosPerMilli > remaining then remaining.tdiv kNanosPerMilli else delay

/-- The loop of `with_retries`: `left` attempts are left, `index` were made. -/
def retryLoop (deadline : ℤ) : (left index : ℕ) → W → Result α × W
  | 0, _, w => (.error ⟨"protocol", "retry driver exhausted attempts"⟩, w)
  | left + 1, index, w =>
    match attempt w with
    | (.ok value, w) => (.ok value, w)
    | (.error error, w) =>
      if left = 0 ∨ !retryable error w then (.error error, w)
      else
        let (failedAt, w) := clock.now w
        if failedAt ≥ deadline then (.error error, w)
        else
          let (draw, w) := clock.random01 w
          let w := clock.sleep (retryDelay policy index draw (deadline - failedAt)) w
          retryLoop deadline left (index + 1) w

def withRetries (w : W) : Result α × W :=
  let (start, w) := clock.now w
  retryLoop policy clock attempt retryable (start + policy.budget * kNanosPerMilli)
    policy.maxAttempts.toNat 0 w

/-! ### Rules for the driver -/

/-- What the clock does not touch. -/
def RetryClock.Keeps (clock : RetryClock ρ W) (I : W → Prop) : Prop :=
  ∀ w, I w → I (clock.now w).2 ∧ I (clock.random01 w).2 ∧ ∀ delay, I (clock.sleep delay w)

/-- `I n` holds before an attempt when `n` were made, `Q n` of the outcome of the `n`-th. -/
theorem retryLoop_rule {I : ℕ → W → Prop} {Q : ℕ → Result α → W → Prop}
    (hI : ∀ n, clock.Keeps (I n)) (hQ : ∀ n result w, Q n result w → Q n result (clock.now w).2)
    (hattempt : ∀ n w, I n w → Q (n + 1) (attempt w).1 (attempt w).2 ∧
      ∀ error, (attempt w).1 = .error error → retryable error (attempt w).2 →
        I (n + 1) (attempt w).2)
    (deadline : ℤ) (left n : ℕ) {w : W} (hw : I n w) :
    ∃ m ≤ left, ((m = 0 ∧ left = 0 ∧
        (retryLoop policy clock attempt retryable deadline left n w).1 =
          .error ⟨"protocol", "retry driver exhausted attempts"⟩ ∧
        (retryLoop policy clock attempt retryable deadline left n w).2 = w) ∨
      0 < m ∧ Q (n + m) (retryLoop policy clock attempt retryable deadline left n w).1
        (retryLoop policy clock attempt retryable deadline left n w).2) := by
  induction left generalizing n w with
  | zero => exact ⟨0, le_rfl, .inl ⟨rfl, rfl, rfl, rfl⟩⟩
  | succ left ih =>
    obtain ⟨hfirst, hnext⟩ := hattempt n w hw
    rcases hr : attempt w with ⟨result, w'⟩
    rw [hr] at hfirst hnext
    cases result with
    | ok value =>
      simp only [retryLoop, hr]
      exact ⟨1, by omega, .inr ⟨by omega, hfirst⟩⟩
    | error error =>
      by_cases hlast : left = 0 ∨ !retryable error w'
      · simp only [retryLoop, hr, hlast, if_true]
        exact ⟨1, by omega, .inr ⟨by omega, hfirst⟩⟩
      · obtain ⟨hleft, hretry⟩ := not_or.mp hlast
        have hretryable : retryable error w' := by simpa using hretry
        have hI' := hnext error rfl hretryable
        by_cases hlate : (clock.now w').1 ≥ deadline
        · simp only [retryLoop, hr, hlast, hlate, if_true, if_false]
          exact ⟨1, by omega, .inr ⟨by omega, hQ _ _ _ hfirst⟩⟩
        · simp only [retryLoop, hr, hlast, hlate, if_false]
          have hnow := (hI (n + 1) w' hI').1
          have hdraw := (hI (n + 1) _ hnow).2.1
          have hslept := (hI (n + 1) _ hdraw).2.2
            (retryDelay policy n (clock.random01 (clock.now w').2).1
              (deadline - (clock.now w').1))
          obtain ⟨m, hm, hrest⟩ := ih (n + 1) hslept
          refine ⟨m + 1, by omega, .inr ⟨by omega, ?_⟩⟩
          rcases hrest with ⟨-, hzero, -⟩ | ⟨-, hq⟩
          · exact absurd hzero hleft
          · rwa [show n + (m + 1) = n + 1 + m by omega]

theorem withRetries_rule {I : ℕ → W → Prop} {Q : ℕ → Result α → W → Prop}
    (hI : ∀ n, clock.Keeps (I n)) (hQ : ∀ n result w, Q n result w → Q n result (clock.now w).2)
    (hattempt : ∀ n w, I n w → Q (n + 1) (attempt w).1 (attempt w).2 ∧
      ∀ error, (attempt w).1 = .error error → retryable error (attempt w).2 →
        I (n + 1) (attempt w).2)
    {w : W} (hw : I 0 w) :
    (policy.maxAttempts ≤ 0 ∧ withRetries policy clock attempt retryable w =
        (.error ⟨"protocol", "retry driver exhausted attempts"⟩, (clock.now w).2)) ∨
      ∃ m : ℕ, 0 < m ∧ (m : ℤ) ≤ policy.maxAttempts ∧
        Q m (withRetries policy clock attempt retryable w).1
          (withRetries policy clock attempt retryable w).2 := by
  obtain ⟨m, hm, h⟩ := retryLoop_rule policy clock attempt retryable hI hQ hattempt
    ((clock.now w).1 + policy.budget * kNanosPerMilli) policy.maxAttempts.toNat 0 (hI 0 w hw).1
  rcases h with ⟨-, hzero, herror, hworld⟩ | ⟨hpos, hq⟩
  · exact .inl ⟨by omega, Prod.ext herror hworld⟩
  · rw [Nat.zero_add] at hq
    exact .inr ⟨m, hpos, by omega, hq⟩

/-! ### The attempts of a run -/

/-- Attempts in a row, from the world of the first one: after all but the last, which failed
retryably, the driver reads the clock, draws and sleeps. The result is that of the last one. -/
inductive Tries : ℕ → W → Result α × W → Prop
  | last (w : W) : Tries 1 w (attempt w)
  | late {w failed : W} {error : Error} (hfailed : attempt w = (.error error, failed))
      (hretry : retryable error failed) : Tries 1 w (.error error, (clock.now failed).2)
  | retry {n : ℕ} {w failed : W} {error : Error} {delay : ℤ} {outcome : Result α × W}
      (hfailed : attempt w = (.error error, failed)) (hretry : retryable error failed)
      (hnext : Tries n (clock.sleep delay (clock.random01 (clock.now failed).2).2) outcome) :
      Tries (n + 1) w outcome

variable {clock attempt retryable} in
theorem Tries.pos {n : ℕ} {w : W} {outcome : Result α × W}
    (h : Tries clock attempt retryable n w outcome) : 0 < n := by
  cases h with
  | last => exact Nat.one_pos
  | late => exact Nat.one_pos
  | retry => exact Nat.succ_pos _

theorem retryLoop_tries (deadline : ℤ) (left index : ℕ) (w : W) :
    ∃ n ≤ left + 1, Tries clock attempt retryable n w
      (retryLoop policy clock attempt retryable deadline (left + 1) index w) := by
  induction left generalizing index w with
  | zero =>
    refine ⟨1, le_rfl, ?_⟩
    have hlast : retryLoop policy clock attempt retryable deadline 1 index w = attempt w := by
      rcases hr : attempt w with ⟨result, failed⟩
      cases result <;> simp [retryLoop, hr]
    rw [hlast]
    exact .last w
  | succ left ih =>
    rcases hr : attempt w with ⟨result, failed⟩
    cases result with
    | ok value =>
      have hsuccess : retryLoop policy clock attempt retryable deadline (left + 1 + 1) index w =
          attempt w := by
        simp [retryLoop, hr]
      rw [hsuccess]
      exact ⟨1, by omega, .last w⟩
    | error error =>
      by_cases hretry : retryable error failed
      · by_cases hlate : (clock.now failed).1 ≥ deadline
        · have hover : retryLoop policy clock attempt retryable deadline (left + 1 + 1) index w =
              (.error error, (clock.now failed).2) := by
            rw [retryLoop, hr]
            simp [hretry, hlate]
          rw [hover]
          exact ⟨1, by omega, .late hr hretry⟩
        · have hround : retryLoop policy clock attempt retryable deadline (left + 1 + 1) index w =
              retryLoop policy clock attempt retryable deadline (left + 1) (index + 1)
                (clock.sleep (retryDelay policy index (clock.random01 (clock.now failed).2).1
                  (deadline - (clock.now failed).1)) (clock.random01 (clock.now failed).2).2) := by
            rw [retryLoop, hr]
            simp [hretry, hlate]
          rw [hround]
          obtain ⟨n, hn, hnext⟩ := ih (index + 1) _
          exact ⟨n + 1, by omega, .retry hr hretry hnext⟩
      · have hrefused : retryLoop policy clock attempt retryable deadline (left + 1 + 1) index w =
            attempt w := by
          rw [retryLoop, hr]
          simp [hretry]
        rw [hrefused]
        exact ⟨1, by omega, .last w⟩

/-- The driver makes at least one attempt and at most `max_attempts`. -/
theorem withRetries_tries (hmax : 1 ≤ policy.maxAttempts) (w : W) :
    ∃ n : ℕ, n ≤ policy.maxAttempts ∧
      Tries clock attempt retryable n (clock.now w).2
        (withRetries policy clock attempt retryable w) := by
  obtain ⟨left, hleft⟩ : ∃ left, policy.maxAttempts.toNat = left + 1 :=
    ⟨policy.maxAttempts.toNat - 1, by omega⟩
  obtain ⟨n, hn, htries⟩ := retryLoop_tries policy clock attempt retryable
    ((clock.now w).1 + policy.budget * kNanosPerMilli) left 0 (clock.now w).2
  refine ⟨n, by omega, ?_⟩
  unfold withRetries
  rw [hleft]
  exact htries

/-- The worlds in which the attempts of a run are made, from that of the first one. -/
inductive Begins : W → W → Prop
  | first (w : W) : Begins w w
  | retry {w failed v : W} {error : Error} {delay : ℤ}
      (hfailed : attempt w = (.error error, failed)) (hretry : retryable error failed)
      (hnext : Begins (clock.sleep delay (clock.random01 (clock.now failed).2).2) v) : Begins w v

variable {clock attempt retryable} in
/-- What an attempt that is retried and the clock keep holds at every attempt. -/
theorem Begins.keeps {I : ℕ → W → Prop} (hI : ∀ n, clock.Keeps (I n))
    (hattempt : ∀ n w, I n w → ∀ error, (attempt w).1 = .error error →
      retryable error (attempt w).2 → I (n + 1) (attempt w).2)
    {w v : W} (h : Begins clock attempt retryable w v) {n : ℕ} (hw : I n w) : ∃ m, I m v := by
  induction h generalizing n with
  | first w => exact ⟨n, hw⟩
  | retry hfailed hretry _ ih =>
    have hfinal := hattempt n _ hw _ (congrArg Prod.fst hfailed) (by rw [hfailed]; exact hretry)
    rw [hfailed] at hfinal
    have hnow := (hI (n + 1) _ hfinal).1
    have hdraw := (hI (n + 1) _ hnow).2.1
    exact ih ((hI (n + 1) _ hdraw).2.2 _)

variable {clock attempt retryable} in
theorem Tries.begins {n : ℕ} {w : W} {outcome : Result α × W}
    (h : Tries clock attempt retryable n w outcome) :
    ∃ v, Begins clock attempt retryable w v ∧ outcome.1 = (attempt v).1 := by
  induction h with
  | last w => exact ⟨w, .first w, rfl⟩
  | @late w failed error hfailed hretry => exact ⟨w, .first w, by rw [hfailed]⟩
  | retry hfailed hretry _ ih =>
    obtain ⟨v, hbegins, hresult⟩ := ih
    exact ⟨v, .retry hfailed hretry hbegins, hresult⟩

/-- A first attempt that succeeds or may not be retried is the outcome. -/
theorem withRetries_of_first {w : W} (hmax : 1 ≤ policy.maxAttempts)
    (hfinal : ∀ error, (attempt (clock.now w).2).1 = .error error →
      retryable error (attempt (clock.now w).2).2 = false) :
    withRetries policy clock attempt retryable w = attempt (clock.now w).2 := by
  obtain ⟨left, hleft⟩ : ∃ left, policy.maxAttempts.toNat = left + 1 :=
    ⟨policy.maxAttempts.toNat - 1, by omega⟩
  simp only [withRetries, hleft, retryLoop]
  rcases hr : attempt (clock.now w).2 with ⟨result, w'⟩
  rw [hr] at hfinal
  cases result with
  | ok value => rfl
  | error error =>
    have hno : retryable error w' = false := hfinal error rfl
    simp [hno]

end

end ExchangeGateway
