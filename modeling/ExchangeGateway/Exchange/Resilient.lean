import ExchangeGateway.Core.Decimal
import ExchangeGateway.Core.Retry
import Mathlib.Data.List.Infix

/-! The resolve-then-retry engines (`exchange/okx/okx_resilient.hpp`,
`exchange/binance/binance_resilient.hpp`). Both venues place in the same way: one engine with the
venue's own codes, texts and acks. Cancels and amends share a second one. -/
namespace ExchangeGateway

/-- Outcome of an order lookup that resolves an unknown outcome. -/
inductive Lookup (ι : Type)
  | found (info : ι)
  | absent
  | inconclusive (error : Error)

section

variable {ρ W ι α : Type} (policy : RetryPolicy ρ) (clock : RetryClock ρ W)

/-- One lookup: a conclusive answer, or a transport error to retry. -/
def lookupAttempt (absent : Error → Bool) (getOrder : W → Result (Option ι) × W) (w : W) :
    Result (Lookup ι) × W :=
  match getOrder w with
  | (.ok (some info), w) => (.ok (.found info), w)
  | (.ok none, w) => (.ok .absent, w)
  | (.error error, w) =>
    if absent error then (.ok .absent, w)
    else if error.code = "transport" then (.error error, w)
    else (.ok (.inconclusive error), w)

/-- Retry the lookup until it is conclusive; `absent` are the errors that say so. -/
def lookupWith (absent : Error → Bool) (getOrder : W → Result (Option ι) × W) (w : W) :
    Lookup ι × W :=
  match withRetries policy clock (lookupAttempt absent getOrder)
    (fun error _ => error.code = "transport") w with
  | (.ok lookup, w) => (lookup, w)
  | (.error error, w) => (.inconclusive error, w)

/-- One place. The flag next to the world is `safe_to_resend`: set when the outcome was unknown
and the order is conclusively absent. -/
def placeAttempt (duplicate : Error → Bool) (label : String) (place : W → Result α × W)
    (lookup : W → Lookup ι × W) (ack : ι → α) (w : W × Bool) : Result α × W × Bool :=
  match place w.1 with
  | (.ok value, w) => (.ok value, w, false)
  | (.error error, w) =>
    if error.code = "transport" ∨ duplicate error then
      match lookup w with
      | (.found info, w) => (.ok (ack info), w, false)
      | (.absent, w) => (.error error, w, !duplicate error)
      | (.inconclusive reason, w) =>
        if duplicate error then (.error error, w, false)
        else
          (.error ⟨"transport",
            "place outcome unresolved for " ++ label ++ ": " ++ reason.message⟩, w, false)
    else (.error error, w, false)

/-- Place with resolve-then-retry semantics. -/
def placeWith (duplicate : Error → Bool) (label : String) (place : W → Result α × W)
    (lookup : W → Lookup ι × W) (ack : ι → α) (w : W) : Result α × W :=
  let (result, w, _) := withRetries policy (clock.beside Bool)
    (placeAttempt duplicate label place lookup ack) (fun _ w => w.2) (w, false)
  (result, w)

/-- What an order that the lookup found says about a cancel or an amend without an answer. -/
inductive Verdict (α : Type)
  | landed (value : α)
  | untouched
  | over (error : Error)

/-- One cancel or amend of an order. The flag is `safe_to_resend`: set when the order that the
request is about is untouched. `done` are the rejections of an order that is over. -/
def resolveAttempt (operation label : String) (done : Error → Bool) (absence : Error)
    (send : W → Result α × W) (lookup : W → Lookup ι × W) (verdict : ι → Verdict α)
    (w : W × Bool) : Result α × W × Bool :=
  match send w.1 with
  | (.ok value, w) => (.ok value, w, false)
  | (.error error, w) =>
    if error.code = "transport" then
      match lookup w with
      | (.found info, w) =>
        match verdict info with
        | .landed value => (.ok value, w, false)
        | .untouched => (.error error, w, true)
        | .over reason => (.error reason, w, false)
      | (.absent, w) => (.error absence, w, false)
      | (.inconclusive reason, w) =>
        (.error ⟨"transport",
          operation ++ " outcome unresolved for " ++ label ++ ": " ++ reason.message⟩, w, false)
    else if done error then
      match lookup w with
      | (.found info, w) =>
        match verdict info with
        | .landed value => (.ok value, w, false)
        | _ => (.error error, w, false)
      | (_, w) => (.error error, w, false)
    else (.error error, w, false)

/-- Cancel or amend with resolve-then-retry semantics. -/
def resolveWith (operation label : String) (done : Error → Bool) (absence : Error)
    (send : W → Result α × W) (lookup : W → Lookup ι × W) (verdict : ι → Verdict α) (w : W) :
    Result α × W :=
  let (result, w, _) := withRetries policy (clock.beside Bool)
    (resolveAttempt operation label done absence send lookup verdict) (fun _ w => w.2) (w, false)
  (result, w)

end

/-! ### Rules for the engines -/

section

variable {ρ W ι α : Type} (policy : RetryPolicy ρ) (clock : RetryClock ρ W)

/-- `I` is kept by every lookup, and `P` holds of a conclusive one. -/
theorem lookupWith_rule (absent : Error → Bool) (getOrder : W → Result (Option ι) × W)
    {I : W → Prop} {P : Lookup ι → W → Prop} (hI : clock.Keeps I)
    (hP : ∀ lookup w, P lookup w → P lookup (clock.now w).2)
    (hattempt : ∀ w, I w → I (lookupAttempt absent getOrder w).2 ∧
      ∀ lookup, (lookupAttempt absent getOrder w).1 = .ok lookup →
        P lookup (lookupAttempt absent getOrder w).2)
    (hinconclusive : ∀ error w, P (.inconclusive error) w) {w : W} (hw : I w) :
    I (lookupWith policy clock absent getOrder w).2 ∧
      P (lookupWith policy clock absent getOrder w).1
        (lookupWith policy clock absent getOrder w).2 := by
  have hrule := withRetries_rule policy clock (lookupAttempt absent getOrder)
    (fun error _ => error.code = "transport") (I := fun _ => I)
    (Q := fun _ result v => I v ∧ ∀ lookup, result = .ok lookup → P lookup v)
    (fun _ => hI) (fun _ _ v h => ⟨(hI v h.1).1, fun lookup hl => hP lookup v (h.2 lookup hl)⟩)
    (fun _ v hv => ⟨hattempt v hv, fun _ _ _ => (hattempt v hv).1⟩) hw
  unfold lookupWith
  rcases hrule with ⟨-, heq⟩ | ⟨-, -, -, hkept, hconclusive⟩
  · rw [heq]
    exact ⟨(hI w hw).1, hinconclusive _ _⟩
  · rcases hr : withRetries policy clock (lookupAttempt absent getOrder)
      (fun error _ => error.code = "transport") w with ⟨result, v⟩
    rw [hr] at hkept hconclusive
    cases result with
    | error error => exact ⟨hkept, hinconclusive _ _⟩
    | ok lookup => exact ⟨hkept, hconclusive lookup rfl⟩

section

variable (operation label : String) (done : Error → Bool) (absence : Error)
  (send : W → Result α × W) (lookup : W → Lookup ι × W) (verdict : ι → Verdict α)

/-- An attempt passes the answer on, or it looks the order up and reports a value only when the
order says that the request landed. -/
theorem resolveAttempt_cases (w : W × Bool) :
    ((resolveAttempt operation label done absence send lookup verdict w).1 = (send w.1).1 ∧
        (resolveAttempt operation label done absence send lookup verdict w).2.1 = (send w.1).2) ∨
      (resolveAttempt operation label done absence send lookup verdict w).2.1 =
          (lookup (send w.1).2).2 ∧
        ∀ value, (resolveAttempt operation label done absence send lookup verdict w).1 =
            .ok value →
          ∃ info, (lookup (send w.1).2).1 = .found info ∧ verdict info = .landed value := by
  unfold resolveAttempt
  rcases hs : send w.1 with ⟨result, v⟩
  cases result with
  | ok value => exact .inl ⟨rfl, rfl⟩
  | error error =>
    dsimp only
    rcases hl : lookup v with ⟨found, v'⟩
    by_cases ht : error.code = "transport"
    · rw [if_pos ht]
      right
      cases found with
      | found info => cases hverdict : verdict info <;> simp [hverdict]
      | absent => simp
      | inconclusive reason => simp
    · rw [if_neg ht]
      by_cases hd : done error
      · rw [if_pos hd]
        right
        cases found with
        | found info => cases hverdict : verdict info <;> simp [hverdict]
        | absent => simp
        | inconclusive reason => simp
      · rw [if_neg hd]
        exact .inl ⟨rfl, rfl⟩

section

variable {operation label done absence send lookup verdict} {w : W × Bool} {error : Error} {v v' : W}

theorem resolveAttempt_of_definitive (hs : send w.1 = (.error error, v))
    (ht : error.code ≠ "transport") (hd : done error = false) :
    resolveAttempt operation label done absence send lookup verdict w = (.error error, v, false) := by
  simp [resolveAttempt, hs, ht, hd]

theorem resolveAttempt_of_landed {info : ι} {value : α} (hs : send w.1 = (.error error, v))
    (ht : error.code = "transport") (hl : lookup v = (.found info, v'))
    (hverdict : verdict info = .landed value) :
    resolveAttempt operation label done absence send lookup verdict w = (.ok value, v', false) := by
  simp [resolveAttempt, hs, ht, hl, hverdict]

/-- Without an order to look at, the attempt fails and is not repeated. -/
theorem resolveAttempt_of_not_found {found : Lookup ι} (hs : send w.1 = (.error error, v))
    (ht : error.code = "transport") (hl : lookup v = (found, v'))
    (hnot : ∀ info, found ≠ .found info) :
    ∃ reason, resolveAttempt operation label done absence send lookup verdict w =
      (.error reason, v', false) := by
  cases found with
  | found info => exact absurd rfl (hnot info)
  | absent => exact ⟨absence, by simp [resolveAttempt, hs, ht, hl]⟩
  | inconclusive reason => exact ⟨_, by simp only [resolveAttempt, hs, ht, hl, if_true]; rfl⟩

end

/-- `I n` holds when `n` requests were sent, `K n` before the lookup that follows one, and `G` of
a value that is reported. -/
theorem resolveWith_rule {I K : ℕ → W → Prop} {G : α → W → Prop} (hI : ∀ n, clock.Keeps (I n))
    (hG : ∀ value w, G value w → G value (clock.now w).2) (hK : ∀ n w, K n w → I n w)
    (hsend : ∀ n w, I n w → K (n + 1) (send w).2 ∧
      ∀ value, (send w).1 = .ok value → G value (send w).2)
    (hlookup : ∀ n w, K n w → I n (lookup w).2 ∧
      ∀ info value, (lookup w).1 = .found info → verdict info = .landed value →
        G value (lookup w).2) {w : W} (hw : I 0 w) :
    ∃ n ≤ policy.maxAttempts.toNat,
      I n (resolveWith policy clock operation label done absence send lookup verdict w).2 ∧
      ∀ value, (resolveWith policy clock operation label done absence send lookup verdict w).1 =
          .ok value →
        G value (resolveWith policy clock operation label done absence send lookup verdict w).2 := by
  have hattempt (n : ℕ) (v : W × Bool) (hv : I n v.1) :
      I (n + 1) (resolveAttempt operation label done absence send lookup verdict v).2.1 ∧
        ∀ value, (resolveAttempt operation label done absence send lookup verdict v).1 =
            .ok value →
          G value (resolveAttempt operation label done absence send lookup verdict v).2.1 := by
    obtain ⟨hsent, hacked⟩ := hsend n v.1 hv
    rcases resolveAttempt_cases operation label done absence send lookup verdict v with
      ⟨hresult, hworld⟩ | ⟨hworld, hresult⟩
    · rw [hresult, hworld]
      exact ⟨hK _ _ hsent, hacked⟩
    · rw [hworld]
      obtain ⟨hlooked, hlanded⟩ := hlookup _ _ hsent
      refine ⟨hlooked, fun value h => ?_⟩
      obtain ⟨info, hinfo, hverdict⟩ := hresult value h
      exact hlanded info value hinfo hverdict
  have hrule := withRetries_rule policy (clock.beside Bool)
    (resolveAttempt operation label done absence send lookup verdict) (fun _ v => v.2)
    (I := fun n v => I n v.1)
    (Q := fun n result v => I n v.1 ∧ ∀ value, result = .ok value → G value v.1)
    (fun n v h => hI n v.1 h)
    (fun n _ v h => ⟨(hI n v.1 h.1).1, fun value hv => hG value v.1 (h.2 value hv)⟩)
    (fun n v hv => ⟨hattempt n v hv, fun _ _ _ => (hattempt n v hv).1⟩) (w := (w, false)) hw
  unfold resolveWith
  rcases hrule with ⟨-, heq⟩ | ⟨m, -, hm, hkept, hvalue⟩
  · rw [heq]
    refine ⟨0, Nat.zero_le _, (hI 0 w hw).1, fun _ h => ?_⟩
    cases h
  · exact ⟨m, by omega, hkept, hvalue⟩

/-- A first attempt that may not be sent again is the outcome. -/
theorem resolveWith_of_first {w : W} (hmax : 1 ≤ policy.maxAttempts)
    (hfinal : (resolveAttempt operation label done absence send lookup verdict
      ((clock.now w).2, false)).2.2 = false) :
    resolveWith policy clock operation label done absence send lookup verdict w =
      ((resolveAttempt operation label done absence send lookup verdict
          ((clock.now w).2, false)).1,
        (resolveAttempt operation label done absence send lookup verdict
          ((clock.now w).2, false)).2.1) := by
  have hdriver := withRetries_of_first policy (clock.beside Bool)
    (resolveAttempt operation label done absence send lookup verdict) (fun _ v => v.2)
    (w := (w, false)) hmax fun _ _ => hfinal
  unfold resolveWith
  rw [hdriver]
  rfl

theorem resolveWith_of_no_attempt (w : W) (hmax : ¬ 1 ≤ policy.maxAttempts) :
    resolveWith policy clock operation label done absence send lookup verdict w =
      (.error ⟨"protocol", "retry driver exhausted attempts"⟩, (clock.now w).2) := by
  have hnone : policy.maxAttempts.toNat = 0 := by omega
  simp [resolveWith, withRetries, hnone, retryLoop, RetryClock.beside]

end

end

/-! ### A lookup whose answers are given in advance -/

/-- What the next lookup gets: a truthful answer, or a failure that says nothing. `info` are the
other fields of an order that is there, `absence` the error a venue may use for one that is not. -/
inductive LookupAnswer (absent : Error → Bool) (ι : Type)
  | answered (info : ι) (absence : Option { error : Error // absent error })
  | failed (error : Error) (h : absent error = false)

/-- One of the next `left` lookups is answered, and every earlier one failed in transport, before
the deadline. -/
def ResolvedWithin {absent : Error → Bool} {ι : Type} (lookup : ℕ → LookupAnswer absent ι)
    (now : ℕ → ℤ) (deadline : ℤ) (left lookups reads : ℕ) : Prop :=
  ∃ n < left, (∃ info absence, lookup (lookups + n) = .answered info absence) ∧
    ∀ m < n, (∃ error h, lookup (lookups + m) = .failed error h ∧ error.code = "transport") ∧
      now (reads + m) < deadline

section

variable {ρ W ι : Type} (policy : RetryPolicy ρ) {clock : RetryClock ρ W} {absent : Error → Bool}
  {lookup : ℕ → LookupAnswer absent ι} {now : ℕ → ℤ}

theorem resolvedWithin_succ_iff (deadline : ℤ) (left lookups reads : ℕ) :
    ResolvedWithin lookup now deadline (left + 1) lookups reads ↔
      (∃ info absence, lookup lookups = .answered info absence) ∨
        (∃ error h, lookup lookups = .failed error h ∧ error.code = "transport") ∧
          now reads < deadline ∧
          ResolvedWithin lookup now deadline left (lookups + 1) (reads + 1) := by
  constructor
  · rintro ⟨n, hn, hanswered, hbefore⟩
    rcases Nat.eq_zero_or_pos n with rfl | hpos
    · exact .inl hanswered
    · obtain ⟨hfailed, hearly⟩ := hbefore 0 hpos
      refine .inr ⟨hfailed, hearly, n - 1, by omega, ?_, fun m hm => ?_⟩
      · rwa [show lookups + 1 + (n - 1) = lookups + n by omega]
      · have hm' := hbefore (m + 1) (by omega)
        rwa [show lookups + (m + 1) = lookups + 1 + m by omega,
          show reads + (m + 1) = reads + 1 + m by omega] at hm'
  · rintro (hanswered | ⟨hfailed, hearly, n, hn, hanswered, hbefore⟩)
    · exact ⟨0, by omega, hanswered, fun m hm => by omega⟩
    · refine ⟨n + 1, by omega, ?_, fun m hm => ?_⟩
      · rwa [show lookups + (n + 1) = lookups + 1 + n by omega]
      · rcases Nat.eq_zero_or_pos m with rfl | hpos
        · exact ⟨hfailed, hearly⟩
        · have hm' := hbefore (m - 1) (by omega)
          rwa [show lookups + 1 + (m - 1) = lookups + m by omega,
            show reads + 1 + (m - 1) = reads + m by omega] at hm'

/-- A world that has the order and gives the answers in advance: `At n m` holds after `n` lookups
and `m` readings of the clock. -/
structure Scripted (clock : RetryClock ρ W) (getOrder : W → Result (Option ι) × W)
    (lookup : ℕ → LookupAnswer absent ι) (now : ℕ → ℤ) (At : ℕ → ℕ → W → Prop) : Prop where
  read : ∀ n m w, At n m w → (clock.now w).1 = now m ∧ At n (m + 1) (clock.now w).2
  draw : ∀ n m w, At n m w → At n m (clock.random01 w).2
  sleep : ∀ n m w delay, At n m w → At n m (clock.sleep delay w)
  looked : ∀ n m w, At n m w → At (n + 1) m (getOrder w).2
  failed : ∀ n m w error h, At n m w → lookup n = .failed error h → (getOrder w).1 = .error error
  answered : ∀ n m w info absence, At n m w → lookup n = .answered info absence →
    ∃ found, (getOrder w).1 = .ok (some found)

variable {getOrder : W → Result (Option ι) × W} {At : ℕ → ℕ → W → Prop}

private def lookupLoop (policy : RetryPolicy ρ) (clock : RetryClock ρ W) (absent : Error → Bool)
    (getOrder : W → Result (Option ι) × W) (deadline : ℤ) (left index : ℕ) (w : W) :
    Result (Lookup ι) × W :=
  retryLoop policy clock (lookupAttempt absent getOrder) (fun error _ => error.code = "transport")
    deadline left index w

private theorem lookupLoop_of_answer {w : W} {found : ι} (h : (getOrder w).1 = .ok (some found))
    (deadline : ℤ) (left index : ℕ) :
    (lookupLoop policy clock absent getOrder deadline (left + 1) index w).1 =
      .ok (.found found) := by
  rcases hg : getOrder w with ⟨result, v⟩
  rw [hg] at h
  simp only at h
  simp [lookupLoop, retryLoop, lookupAttempt, hg, h]

private theorem lookupLoop_of_inconclusive {w : W} {error : Error}
    (h : (getOrder w).1 = .error error) (habsent : absent error = false)
    (ht : error.code ≠ "transport") (deadline : ℤ) (left index : ℕ) :
    (lookupLoop policy clock absent getOrder deadline (left + 1) index w).1 =
      .ok (.inconclusive error) := by
  rcases hg : getOrder w with ⟨result, v⟩
  rw [hg] at h
  simp only at h
  simp [lookupLoop, retryLoop, lookupAttempt, hg, h, habsent, ht]

/-- After a failure in transport the loop gives up, or waits and goes on. -/
private theorem lookupLoop_of_transport (clock : RetryClock ρ W) {w : W} {error : Error}
    (h : (getOrder w).1 = .error error) (habsent : absent error = false)
    (ht : error.code = "transport") (deadline : ℤ) (left index : ℕ) :
    ((left = 0 ∨ deadline ≤ (clock.now (getOrder w).2).1) ∧
        (lookupLoop policy clock absent getOrder deadline (left + 1) index w).1 = .error error) ∨
      (clock.now (getOrder w).2).1 < deadline ∧ ∃ delay,
        (lookupLoop policy clock absent getOrder deadline (left + 1) index w).1 =
          (lookupLoop policy clock absent getOrder deadline left (index + 1)
            (clock.sleep delay (clock.random01 (clock.now (getOrder w).2).2).2)).1 := by
  rcases hg : getOrder w with ⟨result, v⟩
  rw [hg] at h
  simp only at h ⊢
  by_cases hlast : left = 0
  · refine .inl ⟨.inl hlast, ?_⟩
    simp [lookupLoop, retryLoop, lookupAttempt, hg, h, habsent, ht, hlast]
  by_cases hlate : deadline ≤ (clock.now v).1
  · refine .inl ⟨.inr hlate, ?_⟩
    simp [lookupLoop, retryLoop, lookupAttempt, hg, h, habsent, ht, hlast, hlate]
  · refine .inr ⟨Int.not_le.mp hlate, retryDelay policy index
      (clock.random01 (clock.now v).2).1 (deadline - (clock.now v).1), ?_⟩
    simp [lookupLoop, retryLoop, lookupAttempt, hg, h, habsent, ht, hlast, hlate]

private theorem lookupLoop_found_iff (hscript : Scripted clock getOrder lookup now At)
    (deadline : ℤ) (left index n m : ℕ) {w : W} (hw : At n m w) :
    (∃ info, (lookupLoop policy clock absent getOrder deadline left index w).1 =
        .ok (.found info)) ↔ ResolvedWithin lookup now deadline left n m := by
  induction left generalizing index n m w with
  | zero =>
    constructor
    · rintro ⟨info, h⟩
      cases h
    · rintro ⟨k, hk, -⟩
      omega
  | succ left ih =>
    rw [resolvedWithin_succ_iff]
    cases ha : lookup n with
    | answered info absence =>
      obtain ⟨found, hfound⟩ := hscript.answered n m w info absence hw ha
      rw [lookupLoop_of_answer policy hfound]
      exact ⟨fun _ => .inl ⟨info, absence, rfl⟩, fun _ => ⟨found, rfl⟩⟩
    | failed error h =>
      have herror := hscript.failed n m w error h hw ha
      by_cases ht : error.code = "transport"
      · obtain ⟨hread, hnow⟩ := hscript.read _ _ _ (hscript.looked n m w hw)
        have hloop := lookupLoop_of_transport policy clock herror h ht deadline left index
        rw [hread] at hloop
        obtain ⟨hstop, heq⟩ | ⟨hearly, delay, heq⟩ := hloop
        · rw [heq]
          constructor
          · rintro ⟨info, h⟩
            cases h
          · rintro (⟨info, absence, h⟩ | ⟨-, hearly, k, hk, -⟩)
            · cases h
            · omega
        · have hslept := hscript.sleep _ _ _ delay (hscript.draw _ _ _ hnow)
          rw [heq, ih (index + 1) (n + 1) (m + 1) hslept]
          constructor
          · intro hrest
            exact .inr ⟨⟨error, h, rfl, ht⟩, hearly, hrest⟩
          · rintro (⟨info, absence, h⟩ | ⟨-, -, hrest⟩)
            · cases h
            · exact hrest
      · rw [lookupLoop_of_inconclusive policy herror h ht]
        constructor
        · rintro ⟨info, h⟩
          cases h
        · rintro (⟨info, absence, h⟩ | ⟨⟨other, _, h', hcode⟩, -⟩)
          · cases h
          · cases h'
            exact absurd hcode ht

/-- An order that is there is found exactly when a lookup gets an answer. -/
theorem Scripted.lookupWith_found_iff (hscript : Scripted clock getOrder lookup now At)
    {n m : ℕ} {w : W} (hw : At n m w) :
    (∃ info, (lookupWith policy clock absent getOrder w).1 = .found info) ↔
      ResolvedWithin lookup now (now m + policy.budget * kNanosPerMilli)
        policy.maxAttempts.toNat n (m + 1) := by
  obtain ⟨hread, hnow⟩ := hscript.read n m w hw
  have hloop := lookupLoop_found_iff policy hscript
    (now m + policy.budget * kNanosPerMilli) policy.maxAttempts.toNat 0 n (m + 1) hnow
  unfold lookupWith
  rcases hr : withRetries policy clock (lookupAttempt absent getOrder)
    (fun error _ => error.code = "transport") w with ⟨result, v⟩
  have hresult : (lookupLoop policy clock absent getOrder
      (now m + policy.budget * kNanosPerMilli) policy.maxAttempts.toNat 0 (clock.now w).2).1 =
        result := by
    rw [← hread]
    exact congrArg Prod.fst hr
  rw [hresult] at hloop
  rw [← hloop]
  cases result with
  | ok found => simp
  | error error => simp

end

/-! ### OKX -/

namespace Okx

structure PlaceRequest where
  clOrdId : String
  instId : String
  side : String
  ordType : String
  px : String
  sz : String
  tdIf : String
  tdMode : String
  deriving DecidableEq, Repr

structure Query where
  instId : String
  clOrdId : String
  deriving DecidableEq, Repr

structure CxlRequest where
  instId : String
  clOrdId : String
  deriving DecidableEq, Repr

structure OrderAck where
  ordId : String
  clOrdId : String
  sCode : String
  sMsg : String
  deriving DecidableEq, Repr

structure OrderInfo where
  ordId : String
  clOrdId : String
  instId : String
  state : String
  side : String
  ordType : String
  px : String
  sz : String
  avgPx : String
  accFillSz : String
  deriving DecidableEq, Repr

structure Client (W : Type) where
  placeOrder : PlaceRequest → W → Result OrderAck × W
  getOrder : Query → W → Result (Option OrderInfo) × W

structure CancelClient (W : Type) extends Client W where
  cancelOrder : CxlRequest → W → Result OrderAck × W

section

variable {ρ W : Type} (client : Client W) (policy : RetryPolicy ρ) (clock : RetryClock ρ W)

def lookupOrder (query : Query) : W → Lookup OrderInfo × W :=
  lookupWith policy clock (fun error => error.code = "venue:51603") (client.getOrder query)

def synthesizedAck (info : OrderInfo) : OrderAck := ⟨info.ordId, info.clOrdId, "0", ""⟩

def resilientPlace (request : PlaceRequest) : W → Result OrderAck × W :=
  placeWith policy clock (fun error => error.code = "venue:51000")
    ("clOrdId " ++ request.clOrdId) (client.placeOrder request)
    (lookupOrder client policy clock ⟨request.instId, request.clOrdId⟩) synthesizedAck

/-- Any state but `canceled` counts as a live order that the cancel did not reach. -/
def cancelVerdict (info : OrderInfo) : Verdict OrderAck :=
  if info.state = "canceled" then .landed (synthesizedAck info) else .untouched

def resilientCancel (client : CancelClient W) (request : CxlRequest) : W → Result OrderAck × W :=
  resolveWith policy clock "cancel" ("clOrdId " ++ request.clOrdId)
    (fun error => error.code = "venue:51017")
    ⟨"venue:51603", "cancel target not found on the venue"⟩ (client.cancelOrder request)
    (lookupOrder client.toClient policy clock ⟨request.instId, request.clOrdId⟩) cancelVerdict

end

end Okx

/-! ### Binance -/

namespace Binance

structure PlaceRequest where
  clientOrderId : String
  symbol : String
  side : Side
  type : OrderType
  price : String
  quantity : String
  timeInForce : String
  deriving DecidableEq, Repr

structure CancelRequest where
  clientOrderId : String
  symbol : String
  deriving DecidableEq, Repr

structure OrderQuery where
  clientOrderId : String
  symbol : String
  deriving DecidableEq, Repr

structure OrderAck where
  orderId : String
  clientOrderId : String
  status : String
  executedQty : String
  deriving DecidableEq, Repr

structure OrderInfo where
  orderId : String
  clientOrderId : String
  symbol : String
  status : String
  side : String
  type : String
  price : String
  origQty : String
  executedQty : String
  cummulativeQuoteQty : String
  deriving DecidableEq, Repr

structure ReplaceResult where
  cancelResult : String
  newOrderResult : String
  canceled : OrderInfo
  replacement : OrderAck
  deriving DecidableEq, Repr

/-- Numeric equality of a gateway decimal text and the venue's one. An empty text is not part of
the comparison. -/
def valueMatches (requested reported : String) : Bool :=
  requested = "" || requested = reported ||
    match parseDecimal requested, parseDecimal reported with
    | .ok lhs, .ok rhs => lhs.compare rhs = 0
    | _, _ => false

/-- `std::tolower` and `std::string::find` on an error text. -/
def mentions (message text : String) : Bool :=
  text.toList <:+: message.toList.map Char.toLower

/-- The rejection means that the client order id already has an order. -/
def isDuplicateReject (error : Error) : Bool :=
  error.code = "venue:-4116" || error.code = "venue:-2010" ||
    mentions error.message "duplicat" || mentions error.message "already exist"

structure Api (W : Type) where
  place : PlaceRequest → W → Result OrderAck × W
  getOrder : OrderQuery → W → Result (Option OrderInfo) × W

structure CancelApi (W : Type) extends Api W where
  cancel : CancelRequest → W → Result OrderInfo × W

structure AmendApi (W : Type) extends Api W where
  cancelReplace : PlaceRequest → W → Result ReplaceResult × W

section

variable {ρ W : Type} (api : Api W) (policy : RetryPolicy ρ) (clock : RetryClock ρ W)

/-- An unknown order is `nullopt` already, see `BinanceApi::get_order`. -/
def lookup (query : OrderQuery) : W → Lookup OrderInfo × W :=
  lookupWith policy clock (fun _ => false) (api.getOrder query)

def ackOf (info : OrderInfo) : OrderAck :=
  ⟨info.orderId, info.clientOrderId, info.status, info.executedQty⟩

def resilientPlace (request : PlaceRequest) : W → Result OrderAck × W :=
  placeWith policy clock isDuplicateReject ("clientOrderId " ++ request.clientOrderId)
    (api.place request) (lookup api policy clock ⟨request.clientOrderId, request.symbol⟩) ackOf

def working (status : String) : Bool :=
  status = "NEW" || status = "PARTIALLY_FILLED" || status = "PENDING_CANCEL"

def cancelVerdict (request : CancelRequest) (info : OrderInfo) : Verdict OrderInfo :=
  if info.status = "CANCELED" then .landed info
  else if working info.status then .untouched
  else .over ⟨"venue:-2011", "order " ++ request.clientOrderId ++ " is already " ++ info.status⟩

def resilientCancel (api : CancelApi W) (request : CancelRequest) : W → Result OrderInfo × W :=
  resolveWith policy clock "cancel" ("clientOrderId " ++ request.clientOrderId)
    (fun error => error.code = "venue:-2011")
    ⟨"venue:-2013", "cancel target not found on the venue"⟩ (api.cancel request)
    (lookup api.toApi policy clock ⟨request.clientOrderId, request.symbol⟩)
    (cancelVerdict request)

/-- The order carries every requested value. -/
def matchesRequest (request : PlaceRequest) (info : OrderInfo) : Bool :=
  valueMatches request.price info.price && valueMatches request.quantity info.origQty

def amendVerdict (request : PlaceRequest) (info : OrderInfo) : Verdict OrderAck :=
  if matchesRequest request info then .landed (ackOf info)
  else if working info.status then .untouched
  else
    .over ⟨"venue:-2011", "amend outcome partially unknown for clientOrderId " ++
      request.clientOrderId ++ ": original order is " ++ info.status ++
      " and no replacement is live; re-issue as a new order if needed"⟩

def replaceAck (api : AmendApi W) (request : PlaceRequest) (w : W) : Result OrderAck × W :=
  let (result, w) := api.cancelReplace request w
  (result.map ReplaceResult.replacement, w)

/-- The fields of `BinanceAmendRequest` are those of a place. No rejection is looked into. -/
def resilientAmend (api : AmendApi W) (request : PlaceRequest) : W → Result OrderAck × W :=
  resolveWith policy clock "amend" ("clientOrderId " ++ request.clientOrderId) (fun _ => false)
    ⟨"venue:-2013", "amend target not found on the venue"⟩ (replaceAck api request)
    (lookup api.toApi policy clock ⟨request.clientOrderId, request.symbol⟩)
    (amendVerdict request)

end

end Binance

end ExchangeGateway
