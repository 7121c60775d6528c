import ExchangeGateway.Core.Retry
import Mathlib.Algebra.BigOperators.Group.List.Basic
import Mathlib.Tactic.Linarith

/-! How often and how long the retry driver of `core/retry.hpp` tries. A run is observed through a
log that its clock, its attempts and its predicate write and nothing reads. -/
namespace ExchangeGateway

section

variable {ρ W α : Type} (policy : RetryPolicy ρ) (clock : RetryClock ρ W)
  (attempt : W → Result α × W) (retryable : Error → W → Bool × W)

/-- The loop of `with_retries` with a predicate that may keep a state of its own. It is not asked
about the last attempt. -/
def retryLoopBy (deadline : ℤ) : (left index : ℕ) → W → Result α × W
  | 0, _, w => (.error ⟨"protocol", "retry driver exhausted attempts"⟩, w)
  | left + 1, index, w =>
    match attempt w with
    | (.ok value, w) => (.ok value, w)
    | (.error error, w) =>
      if left = 0 then (.error error, w)
      else
        match retryable error w with
        | (false, w) => (.error error, w)
        | (true, w) =>
          let (failedAt, w) := clock.now w
          if failedAt ≥ deadline then (.error error, w)
          else
            let (draw, w) := clock.random01 w
            let w := clock.sleep (retryDelay policy index draw (deadline - failedAt)) w
            retryLoopBy deadline left (index + 1) w

def withRetriesBy (w : W) : Result α × W :=
  let (start, w) := clock.now w
  retryLoopBy policy clock attempt retryable (start + policy.budget * kNanosPerMilli)
    policy.maxAttempts.toNat 0 w

/-! ### One round of the loop -/

variable {policy clock attempt retryable} {deadline : ℤ} {left index : ℕ} {w : W} {error : Error}

theorem retryLoopBy_of_final (h : left = 0 ∨ ∃ value, (attempt w).1 = .ok value) :
    retryLoopBy policy clock attempt retryable deadline (left + 1) index w = attempt w := by
  rw [retryLoopBy]
  rcases hr : attempt w with ⟨result, w'⟩
  rw [hr] at h
  cases result with
  | ok value => rfl
  | error error =>
    have hlast : left = 0 := by simpa using h
    simp only [if_pos hlast]

section

variable (h : (attempt w).1 = .error error) (hleft : left ≠ 0)

include h hleft

theorem retryLoopBy_of_refused (hverdict : (retryable error (attempt w).2).1 = false) :
    retryLoopBy policy clock attempt retryable deadline (left + 1) index w =
      (.error error, (retryable error (attempt w).2).2) := by
  rw [retryLoopBy]
  rcases hr : attempt w with ⟨result, w'⟩
  rw [hr] at h hverdict
  cases h
  rcases hv : retryable error w' with ⟨verdict, w₁⟩
  rw [hv] at hverdict
  cases hverdict
  simp only [if_neg hleft, hv]

theorem retryLoopBy_of_retryable (hverdict : (retryable error (attempt w).2).1 = true) {w₂ : W}
    (hw₂ : (clock.now (retryable error (attempt w).2).2).2 = w₂) {failedAt : ℤ}
    (hfailedAt : (clock.now (retryable error (attempt w).2).2).1 = failedAt) :
    retryLoopBy policy clock attempt retryable deadline (left + 1) index w =
      if deadline ≤ failedAt then (.error error, w₂)
      else
        retryLoopBy policy clock attempt retryable deadline left (index + 1)
          (clock.sleep (retryDelay policy index (clock.random01 w₂).1 (deadline - failedAt))
            (clock.random01 w₂).2) := by
  rw [retryLoopBy]
  rcases hr : attempt w with ⟨result, w'⟩
  rw [hr] at h hverdict hw₂ hfailedAt
  cases h
  rcases hv : retryable error w' with ⟨verdict, w₁⟩
  rw [hv] at hverdict hw₂ hfailedAt
  cases hverdict
  cases hw₂
  cases hfailedAt
  simp only [if_neg hleft, hv, ge_iff_le]

end

theorem retryLoop_eq (judge : Error → W → Bool) (left index : ℕ) (w : W) :
    retryLoop policy clock attempt judge deadline left index w =
      retryLoopBy policy clock attempt (fun error w => (judge error w, w)) deadline left index w := by
  induction left generalizing index w with
  | zero => rfl
  | succ left ih =>
    simp only [retryLoop, retryLoopBy]
    rcases attempt w with ⟨result, w'⟩
    cases result with
    | ok value => rfl
    | error error =>
      by_cases hlast : left = 0
      · simp [hlast]
      · cases hjudge : judge error w' with
        | false => simp [hlast, hjudge]
        | true => simp [hlast, hjudge, ih]

theorem withRetries_eq (judge : Error → W → Bool) (w : W) :
    withRetries policy clock attempt judge w =
      withRetriesBy policy clock attempt (fun error w => (judge error w, w)) w := by
  unfold withRetries withRetriesBy
  exact retryLoop_eq judge _ _ _

end

/-! ### The log of a run -/

inductive RetryEvent (α : Type)
  | read (time : ℤ)
  | attempted (startedAt : ℤ) (result : Result α)
  | judged (error : Error) (retryable : Bool)
  | slept (delay : ℤ)

namespace RetryEvent

variable {α : Type}

def attempts : List (RetryEvent α) → List (ℤ × Result α)
  | [] => []
  | .attempted startedAt result :: log => (startedAt, result) :: attempts log
  | _ :: log => attempts log

def sleeps : List (RetryEvent α) → List ℤ
  | [] => []
  | .slept delay :: log => delay :: sleeps log
  | _ :: log => sleeps log

end RetryEvent

section

variable {ρ W α : Type}

def RetryClock.logged (clock : RetryClock ρ W) (α : Type) :
    RetryClock ρ (W × List (RetryEvent α)) where
  now w := ((clock.now w.1).1, (clock.now w.1).2, w.2 ++ [.read (clock.now w.1).1])
  sleep delay w := (clock.sleep delay w.1, w.2 ++ [.slept delay])
  random01 w := ((clock.random01 w.1).1, (clock.random01 w.1).2, w.2)

/-- `time` is the time that the clock would read. -/
def loggedAttempt (time : W → ℤ) (attempt : W → Result α × W) (w : W × List (RetryEvent α)) :
    Result α × W × List (RetryEvent α) :=
  ((attempt w.1).1, (attempt w.1).2, w.2 ++ [.attempted (time w.1) (attempt w.1).1])

def loggedRetryable (retryable : Error → W → Bool × W) (error : Error)
    (w : W × List (RetryEvent α)) : Bool × W × List (RetryEvent α) :=
  ((retryable error w.1).1, (retryable error w.1).2,
    w.2 ++ [.judged error (retryable error w.1).1])

variable (policy : RetryPolicy ρ) (clock : RetryClock ρ W) (time : W → ℤ)
  (attempt : W → Result α × W) (retryable : Error → W → Bool × W)

def loggedRetryLoop (deadline : ℤ) (left index : ℕ) (w : W × List (RetryEvent α)) :
    Result α × W × List (RetryEvent α) :=
  retryLoopBy policy (clock.logged α) (loggedAttempt time attempt) (loggedRetryable retryable)
    deadline left index w

def loggedRetries (w : W) : Result α × W × List (RetryEvent α) :=
  withRetriesBy policy (clock.logged α) (loggedAttempt time attempt) (loggedRetryable retryable)
    (w, [])

/-- The log changes nothing. -/
theorem loggedRetryLoop_erase (deadline : ℤ) (left index : ℕ) (w : W × List (RetryEvent α)) :
    (loggedRetryLoop policy clock time attempt retryable deadline left index w).1 =
        (retryLoopBy policy clock attempt retryable deadline left index w.1).1 ∧
      (loggedRetryLoop policy clock time attempt retryable deadline left index w).2.1 =
        (retryLoopBy policy clock attempt retryable deadline left index w.1).2 := by
  unfold loggedRetryLoop
  induction left generalizing index w with
  | zero => exact ⟨rfl, rfl⟩
  | succ left ih =>
    by_cases hfinal : left = 0 ∨ ∃ value, (attempt w.1).1 = .ok value
    · have hlogged : left = 0 ∨ ∃ value, (loggedAttempt time attempt w).1 = .ok value := hfinal
      rw [retryLoopBy_of_final hlogged, retryLoopBy_of_final hfinal]
      exact ⟨rfl, rfl⟩
    · obtain ⟨hleft, hfailed⟩ := not_or.mp hfinal
      cases hresult : (attempt w.1).1 with
      | ok value => exact absurd ⟨value, hresult⟩ hfailed
      | error error =>
        have hlogged : (loggedAttempt time attempt w).1 = .error error := hresult
        cases hverdict : (retryable error (attempt w.1).2).1 with
        | false =>
          rw [retryLoopBy_of_refused hlogged hleft hverdict,
            retryLoopBy_of_refused hresult hleft hverdict]
          exact ⟨rfl, rfl⟩
        | true =>
          rw [retryLoopBy_of_retryable hlogged hleft hverdict rfl rfl,
            retryLoopBy_of_retryable hresult hleft hverdict rfl rfl]
          by_cases hlate : deadline ≤ (clock.now (retryable error (attempt w.1).2).2).1
          · have hloggedLate : deadline ≤ ((clock.logged α).now
                (loggedRetryable retryable error (loggedAttempt time attempt w).2).2).1 := hlate
            rw [if_pos hlate, if_pos hloggedLate]
            exact ⟨rfl, rfl⟩
          · have hloggedEarly : ¬ deadline ≤ ((clock.logged α).now
                (loggedRetryable retryable error (loggedAttempt time attempt w).2).2).1 := hlate
            rw [if_neg hlate, if_neg hloggedEarly]
            exact ih _ _

theorem loggedRetries_erase (w : W) :
    (loggedRetries policy clock time attempt retryable w).1 =
        (withRetriesBy policy clock attempt retryable w).1 ∧
      (loggedRetries policy clock time attempt retryable w).2.1 =
        (withRetriesBy policy clock attempt retryable w).2 :=
  loggedRetryLoop_erase policy clock time attempt retryable _ _ _ _

end

/-! ### The rounds of a run -/

/-- Time stands while the clock is read or the jitter drawn; a sleep takes exactly its delay. -/
structure RetryClock.Exact {ρ W : Type} (clock : RetryClock ρ W) (time : W → ℤ) : Prop where
  now : ∀ w, (clock.now w).1 = time w ∧ time (clock.now w).2 = time w
  random01 : ∀ w, time (clock.random01 w).2 = time w
  sleep : ∀ delay w, 0 ≤ delay → time (clock.sleep delay w) = time w + delay * kNanosPerMilli

/-- Between two attempts only the sleep takes time. -/
theorem RetryClock.Exact.time_woken {ρ W : Type} {clock : RetryClock ρ W} {time : W → ℤ}
    (h : clock.Exact time) {delay : ℤ} (hdelay : 0 ≤ delay) (w : W) :
    time (clock.sleep delay (clock.random01 (clock.now w).2).2) =
      time w + delay * kNanosPerMilli := by
  rw [h.sleep _ _ hdelay, h.random01, (h.now w).2]

namespace RetryEvent

variable {α : Type} {deadline : ℤ}

/-- What the log of a loop with `left` attempts looks like that starts at `start`: rounds that fail
in time and sleep, and an attempt after which nothing is tried. -/
inductive Rounds (deadline : ℤ) : ℕ → ℤ → List (RetryEvent α) → Result α → Prop
  | last {left : ℕ} {start : ℤ} {result : Result α} {rest : List (RetryEvent α)}
      (hattempts : attempts rest = []) (hsleeps : sleeps rest = []) :
      Rounds deadline (left + 1) start (.attempted start result :: rest) result
  | retry {left : ℕ} {start failedAt delay : ℤ} {error : Error} {log : List (RetryEvent α)}
      {result : Result α} (hstart : start ≤ failedAt) (hearly : failedAt < deadline)
      (hdelay : 0 ≤ delay) (hwake : failedAt + delay * kNanosPerMilli ≤ deadline)
      (hnext : Rounds deadline left (failedAt + delay * kNanosPerMilli) log result) :
      Rounds deadline (left + 1) start
        (.attempted start (.error error) :: .judged error true :: .read failedAt ::
          .slept delay :: log) result

theorem attempts_append (log log' : List (RetryEvent α)) :
    attempts (log ++ log') = attempts log ++ attempts log' := by
  induction log with
  | nil => rfl
  | cons event log ih => cases event <;> simp [attempts, ih]

namespace Rounds

variable {left : ℕ} {start : ℤ} {log : List (RetryEvent α)} {result : Result α}

theorem length_attempts (h : Rounds deadline left start log result) :
    1 ≤ (attempts log).length ∧ (attempts log).length ≤ left := by
  induction h with
  | last hattempts hsleeps => simp [attempts, hattempts]
  | retry hstart hearly hdelay hwake hnext ih =>
    simp only [attempts, List.length_cons]
    omega

theorem getLast?_attempts (h : Rounds deadline left start log result) :
    (attempts log).getLast?.map Prod.snd = some result := by
  induction h with
  | last hattempts hsleeps => simp [attempts, hattempts]
  | retry hstart hearly hdelay hwake hnext ih =>
    have hne := List.ne_nil_of_length_pos hnext.length_attempts.1
    simp only [attempts]
    rw [List.getLast?_cons_of_ne_nil hne]
    exact ih

/-- The sleeps lie between the start and the deadline, one after the other. -/
theorem sum_sleeps (h : Rounds deadline left start log result) (hstart : start ≤ deadline) :
    (sleeps log).sum * kNanosPerMilli ≤ deadline - start := by
  induction h with
  | last hattempts hsleeps =>
    simp only [sleeps, hsleeps, List.sum_nil, zero_mul]
    linarith
  | retry hfailed hearly hdelay hwake hnext ih =>
    have hrest := ih hwake
    simp only [sleeps, List.sum_cons, add_mul]
    linarith

theorem head (h : Rounds deadline left start log result) :
    ∃ first rest, log = .attempted start first :: rest := by
  cases h with
  | last => exact ⟨_, _, rfl⟩
  | retry => exact ⟨_, _, rfl⟩

end Rounds

/-- The attempt before failed, was judged retryable and was seen to fail before the deadline, and
the driver slept. -/
def Retried (deadline : ℤ) (pre : List (RetryEvent α)) : Prop :=
  ∃ earlier startedAt error observedAt delay,
    pre = earlier ++ [.attempted startedAt (.error error), .judged error true, .read observedAt,
      .slept delay] ∧ observedAt < deadline

theorem Retried.append {pre : List (RetryEvent α)} (h : Retried deadline pre)
    (events : List (RetryEvent α)) : Retried deadline (events ++ pre) := by
  obtain ⟨earlier, startedAt, error, observedAt, delay, hpre, hobserved⟩ := h
  refine ⟨events ++ earlier, startedAt, error, observedAt, delay, ?_, hobserved⟩
  rw [hpre, List.append_assoc]

theorem Rounds.retried {left : ℕ} {start startedAt : ℤ} {log pre post : List (RetryEvent α)}
    {result next : Result α} (h : Rounds deadline left start log result)
    (hsplit : log = pre ++ .attempted startedAt next :: post) (hpre : pre ≠ []) :
    Retried deadline pre ∧ startedAt ≤ deadline := by
  induction h generalizing pre with
  | @last left start result rest hattempts hsleeps =>
    obtain ⟨first, pre, rfl⟩ := List.exists_cons_of_ne_nil hpre
    rw [List.cons_append] at hsplit
    obtain ⟨-, hrest⟩ := List.cons.inj hsplit
    rw [hrest, attempts_append] at hattempts
    simp [attempts] at hattempts
  | @retry left start failedAt delay error log result hstart hearly hdelay hwake hnext ih =>
    -- an attempt is not among the four events of the round, so they come before it
    have hfour : ∃ pre', pre = [.attempted start (.error error), .judged error true,
        .read failedAt, .slept delay] ++ pre' ∧ log = pre' ++ .attempted startedAt next :: post := by
      match pre, hpre, hsplit with
      | [_], _, hsplit => simp at hsplit
      | [_, _], _, hsplit => simp at hsplit
      | [_, _, _], _, hsplit => simp at hsplit
      | _ :: _ :: _ :: _ :: pre', _, hsplit =>
        simp only [List.cons_append, List.cons.injEq] at hsplit
        obtain ⟨rfl, rfl, rfl, rfl, hlog⟩ := hsplit
        exact ⟨pre', rfl, hlog⟩
    obtain ⟨pre', rfl, hlog⟩ := hfour
    by_cases hempty : pre' = []
    · subst hempty
      obtain ⟨first, rest, hfirst⟩ := hnext.head
      rw [hlog] at hfirst
      obtain ⟨hevent, -⟩ := List.cons.inj hfirst
      cases hevent
      exact ⟨⟨[], start, error, failedAt, delay, by simp, hearly⟩, hwake⟩
    · obtain ⟨hretried, hbound⟩ := ih hlog hempty
      exact ⟨hretried.append _, hbound⟩

end RetryEvent

section

variable {ρ W α : Type} {policy : RetryPolicy ρ} {clock : RetryClock ρ W} {time : W → ℤ}
  {attempt : W → Result α × W} {retryable : Error → W → Bool × W}

/-- The delay fits into what remains, which is cut off to whole milliseconds. -/
theorem retryDelay_bounds (hbackoff : ∀ k draw, 0 ≤ policy.backoff k draw) (index : ℕ) (draw : ρ)
    {remaining : ℤ} (hremaining : 0 < remaining) :
    0 ≤ retryDelay policy index draw remaining ∧
      retryDelay policy index draw remaining * kNanosPerMilli ≤ remaining := by
  unfold retryDelay
  dsimp only
  split_ifs with hlong
  · rw [Int.tdiv_eq_ediv_of_nonneg hremaining.le]
    have hnanos : (0 : ℤ) < kNanosPerMilli := by decide
    constructor
    · exact Int.ediv_nonneg hremaining.le hnanos.le
    · exact Int.ediv_mul_le _ hnanos.ne'
  · exact ⟨hbackoff _ _, not_lt.mp hlong⟩

/-! The events of a round, by how it ends. -/

section

variable {deadline : ℤ} {left index : ℕ} {w : W × List (RetryEvent α)} {error : Error}
  (hresult : (attempt w.1).1 = .error error)

include hresult

theorem log_judged {verdict : Bool} (hverdict : (retryable error (attempt w.1).2).1 = verdict) :
    (loggedRetryable retryable error (loggedAttempt time attempt w).2).2 =
      ((retryable error (attempt w.1).2).2,
        w.2 ++ [.attempted (time w.1) (.error error), .judged error verdict]) := by
  simp [loggedAttempt, loggedRetryable, hresult, hverdict]

variable (hleft : left ≠ 0)

include hleft

theorem loggedRetryLoop_of_refused (hverdict : (retryable error (attempt w.1).2).1 = false) :
    loggedRetryLoop policy clock time attempt retryable deadline (left + 1) index w =
      (.error error, (retryable error (attempt w.1).2).2,
        w.2 ++ [.attempted (time w.1) (.error error), .judged error false]) := by
  have hlogged : (loggedAttempt time attempt w).1 = .error error := hresult
  unfold loggedRetryLoop
  rw [retryLoopBy_of_refused hlogged hleft hverdict, log_judged hresult hverdict]

variable (hverdict : (retryable error (attempt w.1).2).1 = true) {failedAt : ℤ}
  (hfailedAt : (clock.now (retryable error (attempt w.1).2).2).1 = failedAt)

include hverdict hfailedAt

theorem loggedRetryLoop_of_late (hlate : deadline ≤ failedAt) :
    loggedRetryLoop policy clock time attempt retryable deadline (left + 1) index w =
      (.error error, (clock.now (retryable error (attempt w.1).2).2).2,
        w.2 ++ [.attempted (time w.1) (.error error), .judged error true, .read failedAt]) := by
  have hlogged : (loggedAttempt time attempt w).1 = .error error := hresult
  subst hfailedAt
  unfold loggedRetryLoop
  rw [retryLoopBy_of_retryable hlogged hleft hverdict rfl rfl, log_judged hresult hverdict]
  simp [RetryClock.logged, hlate]

theorem loggedRetryLoop_of_retry {w₂ : W}
    (hw₂ : (clock.now (retryable error (attempt w.1).2).2).2 = w₂) (hearly : failedAt < deadline)
    {delay : ℤ}
    (hdelay : retryDelay policy index (clock.random01 w₂).1 (deadline - failedAt) = delay) :
    loggedRetryLoop policy clock time attempt retryable deadline (left + 1) index w =
      loggedRetryLoop policy clock time attempt retryable deadline left (index + 1)
        (clock.sleep delay (clock.random01 w₂).2,
          w.2 ++ [.attempted (time w.1) (.error error), .judged error true, .read failedAt,
            .slept delay]) := by
  have hlogged : (loggedAttempt time attempt w).1 = .error error := hresult
  subst hw₂ hfailedAt hdelay
  unfold loggedRetryLoop
  rw [retryLoopBy_of_retryable hlogged hleft hverdict rfl rfl, log_judged hresult hverdict]
  simp [RetryClock.logged, not_le.mpr hearly]

end

theorem loggedRetryLoop_rounds (hclock : clock.Exact time)
    (hattempt : ∀ w, time w ≤ time (attempt w).2)
    (hretryable : ∀ error w, time w ≤ time (retryable error w).2)
    (hbackoff : ∀ k draw, 0 ≤ policy.backoff k draw) (deadline : ℤ) (left index : ℕ)
    (w : W × List (RetryEvent α)) :
    ∃ log, (loggedRetryLoop policy clock time attempt retryable deadline (left + 1) index w).2.2 =
        w.2 ++ log ∧
      RetryEvent.Rounds deadline (left + 1) (time w.1) log
        (loggedRetryLoop policy clock time attempt retryable deadline (left + 1) index w).1 := by
  induction left generalizing index w with
  | zero =>
    have hround : loggedRetryLoop policy clock time attempt retryable deadline 1 index w =
        loggedAttempt time attempt w := retryLoopBy_of_final (.inl rfl)
    rw [hround]
    exact ⟨_, rfl, .last rfl rfl⟩
  | succ left ih =>
    cases hresult : (attempt w.1).1 with
    | ok value =>
      have hlogged : (loggedAttempt time attempt w).1 = .ok value := hresult
      have hround : loggedRetryLoop policy clock time attempt retryable deadline (left + 1 + 1)
          index w = loggedAttempt time attempt w := retryLoopBy_of_final (.inr ⟨value, hlogged⟩)
      rw [hround]
      exact ⟨_, rfl, .last rfl rfl⟩
    | error error =>
      have hleft : left + 1 ≠ 0 := by omega
      cases hverdict : (retryable error (attempt w.1).2).1 with
      | false =>
        rw [loggedRetryLoop_of_refused hresult hleft hverdict]
        exact ⟨_, rfl, .last rfl rfl⟩
      | true =>
        generalize hw₁ : (retryable error (attempt w.1).2).2 = w₁
        have hstart : time w.1 ≤ time w₁ := by
          rw [← hw₁]
          exact (hattempt w.1).trans (hretryable error _)
        have hfailedAt : (clock.now (retryable error (attempt w.1).2).2).1 = time w₁ := by
          rw [hw₁, (hclock.now w₁).1]
        by_cases hearly : time w₁ < deadline
        · generalize hdelay : retryDelay policy index (clock.random01 (clock.now w₁).2).1
            (deadline - time w₁) = delay
          obtain ⟨hnonneg, hfits⟩ := retryDelay_bounds hbackoff index
            (clock.random01 (clock.now w₁).2).1 (sub_pos.mpr hearly)
          rw [hdelay] at hnonneg hfits
          rw [loggedRetryLoop_of_retry hresult hleft hverdict hfailedAt (by rw [hw₁]) hearly hdelay]
          -- the next round starts when the sleep ends, in time
          obtain ⟨log, hlog, hrounds⟩ := ih (index + 1)
            (clock.sleep delay (clock.random01 (clock.now w₁).2).2,
              w.2 ++ [.attempted (time w.1) (.error error), .judged error true, .read (time w₁),
                .slept delay])
          rw [hclock.time_woken hnonneg w₁] at hrounds
          refine ⟨.attempted (time w.1) (.error error) :: .judged error true :: .read (time w₁) ::
            .slept delay :: log, ?_, .retry hstart hearly hnonneg (by linarith) hrounds⟩
          rw [hlog]
          simp
        · rw [loggedRetryLoop_of_late hresult hleft hverdict hfailedAt (not_lt.mp hearly)]
          exact ⟨_, rfl, .last rfl rfl⟩

structure RetryBounds (policy : RetryPolicy ρ) (start : ℤ) (log : List (RetryEvent α))
    (result : Result α) : Prop where
  attempts : 1 ≤ (RetryEvent.attempts log).length ∧
    ((RetryEvent.attempts log).length : ℤ) ≤ policy.maxAttempts
  retried : ∀ pre startedAt next post, log = pre ++ .attempted startedAt next :: post →
    RetryEvent.attempts pre ≠ [] →
      RetryEvent.Retried (start + policy.budget * kNanosPerMilli) pre ∧
        startedAt ≤ start + policy.budget * kNanosPerMilli
  sleeps : (RetryEvent.sleeps log).sum ≤ policy.budget
  result : (RetryEvent.attempts log).getLast?.map Prod.snd = some result

/-- The deadline is read before the first round. -/
theorem RetryEvent.Rounds.bounds {start : ℤ} {left : ℕ} {log : List (RetryEvent α)}
    {result : Result α}
    (h : RetryEvent.Rounds (start + policy.budget * kNanosPerMilli) (left + 1) start log result)
    (hmax : 1 ≤ policy.maxAttempts) (hbudget : 0 ≤ policy.budget)
    (hleft : policy.maxAttempts.toNat = left + 1) :
    RetryBounds policy start (.read start :: log) result where
  attempts := by
    have hlength := h.length_attempts
    simp only [RetryEvent.attempts]
    omega
  retried := by
    intro pre startedAt next post hsplit hpre
    cases pre with
    | nil => exact absurd rfl hpre
    | cons event pre =>
      rw [List.cons_append] at hsplit
      obtain ⟨hevent, hlog⟩ := List.cons.inj hsplit
      subst hevent
      have hne : pre ≠ [] := by
        intro hempty
        rw [hempty] at hpre
        exact hpre rfl
      obtain ⟨hretried, hbound⟩ := h.retried hlog hne
      exact ⟨hretried.append [.read start], hbound⟩
  sleeps := by
    have hnanos : (0 : ℤ) < kNanosPerMilli := by decide
    have hwindow : 0 ≤ policy.budget * kNanosPerMilli := mul_nonneg hbudget hnanos.le
    have hsum := h.sum_sleeps (by linarith)
    simp only [RetryEvent.sleeps]
    apply le_of_mul_le_mul_right _ hnanos
    linarith
  result := by
    simp only [RetryEvent.attempts]
    exact h.getLast?_attempts

/-- The driver makes between one and `max_attempts` attempts, starts one after the first only in
time and after a retryable failure in time, sleeps within the budget, and returns the result of the
last attempt. -/
theorem withRetries_bounds (hclock : clock.Exact time)
    (hattempt : ∀ w, time w ≤ time (attempt w).2)
    (hretryable : ∀ error w, time w ≤ time (retryable error w).2)
    (hbackoff : ∀ k draw, 0 ≤ policy.backoff k draw) (hmax : 1 ≤ policy.maxAttempts)
    (hbudget : 0 ≤ policy.budget) (w : W) :
    ((loggedRetries policy clock time attempt retryable w).1,
        (loggedRetries policy clock time attempt retryable w).2.1) =
          withRetriesBy policy clock attempt retryable w ∧
      RetryBounds policy (time w) (loggedRetries policy clock time attempt retryable w).2.2
        (withRetriesBy policy clock attempt retryable w).1 := by
  obtain ⟨hresult, hworld⟩ := loggedRetries_erase policy clock time attempt retryable w
  obtain ⟨left, hleft⟩ : ∃ left, policy.maxAttempts.toNat = left + 1 :=
    ⟨policy.maxAttempts.toNat - 1, by omega⟩
  obtain ⟨hread, hstands⟩ := hclock.now w
  have hrun : loggedRetries policy clock time attempt retryable w =
      loggedRetryLoop policy clock time attempt retryable
        (time w + policy.budget * kNanosPerMilli) (left + 1) 0 ((clock.now w).2, [.read (time w)]) := by
    simp only [loggedRetries, withRetriesBy, RetryClock.logged, hread, hleft]
    rfl
  obtain ⟨log, hlog, hrounds⟩ := loggedRetryLoop_rounds hclock hattempt hretryable hbackoff
    (time w + policy.budget * kNanosPerMilli) left 0 ((clock.now w).2, [.read (time w)])
  rw [← hrun] at hlog hrounds
  rw [hstands, hresult] at hrounds
  constructor
  · rw [hresult, hworld]
  · rw [hlog]
    exact hrounds.bounds hmax hbudget hleft

end

/-- The clock of the tests: the time moves when it sleeps. -/
def fakeClock : RetryClock Unit ℤ where
  now time := (time, time)
  sleep delay time := time + delay * kNanosPerMilli
  random01 time := ((), time)

theorem fakeClock_exact : fakeClock.Exact id where
  now _ := ⟨rfl, rfl⟩
  random01 _ := rfl
  sleep _ _ _ := rfl

/-- Ten attempts with a backoff of a second, within 300 milliseconds. -/
def tightPolicy : RetryPolicy Unit := ⟨10, 300, fun _ _ => 1000⟩

def failingAttempt (time : ℤ) : Result Unit × ℤ :=
  (.error ⟨"transport", "network failure"⟩, time + 10 * kNanosPerMilli)

/-- A predicate that takes a millisecond. -/
def slowRetryable (_ : Error) (time : ℤ) : Bool × ℤ :=
  (true, time + kNanosPerMilli)

/-- The first sleep is cut off to the 289 milliseconds that remain, and the second attempt starts at
the deadline. -/
theorem withRetries_bounds_truncated :
    RetryEvent.attempts
        (loggedRetries tightPolicy fakeClock id failingAttempt slowRetryable 0).2.2 =
      [(0, .error ⟨"transport", "network failure"⟩),
        (300 * kNanosPerMilli, .error ⟨"transport", "network failure"⟩)] ∧
    RetryEvent.sleeps
        (loggedRetries tightPolicy fakeClock id failingAttempt slowRetryable 0).2.2 = [289] ∧
    RetryBounds tightPolicy 0
      (loggedRetries tightPolicy fakeClock id failingAttempt slowRetryable 0).2.2
      (withRetriesBy tightPolicy fakeClock failingAttempt slowRetryable 0).1 := by
  have hnanos : (0 : ℤ) < kNanosPerMilli := by decide
  have hattempt : ∀ time, id time ≤ id (failingAttempt time).2 := by
    intro time
    simp only [id, failingAttempt]
    linarith
  have hretryable : ∀ error time, id time ≤ id (slowRetryable error time).2 := by
    intro error time
    simp only [id, slowRetryable]
    linarith
  have hbackoff : ∀ k draw, 0 ≤ tightPolicy.backoff k draw := by
    intro k draw
    simp [tightPolicy]
  have hbounds := withRetries_bounds fakeClock_exact hattempt hretryable hbackoff (by decide)
    (by decide) 0
  exact ⟨by decide, by decide, hbounds.2⟩

end ExchangeGateway
