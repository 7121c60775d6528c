import ExchangeGateway.Exchange.Session

/-! Whether the responses that are read from the shared socket reach the calls that wait for them
(`exchange/binance/binance_ws_client.cpp`). -/
namespace ExchangeGateway.Binance

/-- The invocation is, or was, in the map. -/
def Phase.entered : Phase → Bool
  | .begun | .numbered _ => false
  | _ => true

/-- Not a read of `inline_time_sync`, and no end of a wait or of a send. -/
def Action.plain : Action → Bool
  | .reader (.syncRead (some _)) | .caller _ (.wake _) | .caller _ (.send false) => false
  | _ => true

namespace WsClient

variable {library : Json.Library} {s t : WsClient}

/-! ### Who holds a `Pending` -/

section

variable {pending pending' : KeyedList (Prod.fst : ℤ × Owner → ℤ)} {reader reader' : Reader}
  {i : ℕ} {c : Invocation}

/-- An entry in the map has not failed, and a waiter that is about to fail has no entry. -/
structure Held (pending : KeyedList (Prod.fst : ℤ × Owner → ℤ)) (reader : Reader) (i : ℕ)
    (c : Invocation) : Prop where
  listed : ∀ id, pending.find? id = some (id, .call i) → c.phase.entered ∧ c.failed = false
  failing : ∀ waiters, reader = .failing waiters → .call i ∈ waiters →
    c.phase.entered ∧ ∀ id, pending.find? id ≠ some (id, .call i)
  early : c.phase.entered = false → c.failed = false

theorem Held.forget (h : Held pending reader i c)
    (hpending : ∀ id, pending'.find? id = some (id, .call i) →
      pending.find? id = some (id, .call i)) : Held pending' reader i c where
  listed id hid := h.listed id (hpending id hid)
  failing waiters hr hw := by
    obtain ⟨hentered, hnone⟩ := h.failing waiters hr hw
    exact ⟨hentered, fun id hid => hnone id (hpending id hid)⟩
  early := h.early

theorem Held.erase (h : Held pending reader i c) (id : ℤ) : Held (pending.erase id) reader i c := by
  refine h.forget fun k hk => ?_
  by_cases hne : k = id
  · rw [hne, KeyedList.find?_erase_self] at hk
    cases hk
  · rwa [KeyedList.find?_erase_of_ne _ hne] at hk

theorem Held.set (h : Held pending reader i c) {id : ℤ} {owner : Owner}
    (howner : owner ≠ .call i) : Held (pending.set (id, owner)) reader i c := by
  refine h.forget fun k hk => ?_
  rw [KeyedList.find?_set] at hk
  split_ifs at hk with hne
  · cases hk
    exact absurd rfl howner
  · exact hk

theorem Held.turn (h : Held pending reader i c) (hreader : ∀ waiters, reader' ≠ .failing waiters) :
    Held pending reader' i c where
  listed := h.listed
  failing waiters hr := absurd hr (hreader waiters)
  early := h.early

theorem Held.phase (h : Held pending reader i c) {phase : Phase}
    (hphase : c.phase.entered → phase.entered) : Held pending reader i { c with phase } where
  listed id hid := ⟨hphase (h.listed id hid).1, (h.listed id hid).2⟩
  failing waiters hr hw := ⟨hphase (h.failing waiters hr hw).1, (h.failing waiters hr hw).2⟩
  early hnot := by
    refine h.early (Bool.eq_false_iff.mpr fun hentered => ?_)
    exact Bool.false_ne_true (hnot.symm.trans (hphase hentered))

end

/-- What holds of every invocation; the waiters that are about to fail are among them. -/
structure Custody (s : WsClient) : Prop where
  calls : ∀ i c, s.calls[i]? = some c → Held s.pending s.reader i c
  failing : ∀ waiters i, s.reader = .failing waiters → .call i ∈ waiters → i < s.calls.length

theorem start_custody : start.Custody := by
  refine ⟨fun i c h => ?_, fun waiters i h => ?_⟩
  · cases h
  · cases h

theorem Custody.caller (h : s.Custody) {i : ℕ} {c d : Invocation} {a : CallAction}
    (hc : s.calls[i]? = some c) (hm : CallMoves s i c a t d) :
    { t with calls := t.calls.set i d }.Custody := by
  obtain ⟨hi, -⟩ := List.getElem?_eq_some_iff.mp hc
  have hheld := h.calls i c hc
  have hcalls := hm.calls
  have hreader : t.reader = s.reader := by cases hm <;> rfl
  -- the own invocation, and what the step does to the entries of the others
  have hsteps : Held t.pending s.reader i d ∧
      ∀ j e, j ≠ i → Held s.pending s.reader j e → Held t.pending s.reader j e := by
    cases hm with
    | take hphase =>
      refine ⟨hheld.phase fun hentered => ?_, fun _ _ _ h => h⟩
      rw [hphase] at hentered
      cases hentered
    | register id hphase =>
      have hnot : c.phase.entered = false := by rw [hphase]; rfl
      refine ⟨⟨fun k hk => ⟨rfl, hheld.early hnot⟩, fun waiters hr hw => ?_, fun h => by cases h⟩,
        fun j e hj he => he.set fun h => hj (Owner.call.inj h).symm⟩
      rw [(hheld.failing waiters hr hw).1] at hnot
      cases hnot
    | unsent id hphase => exact ⟨hheld.phase fun _ => rfl, fun _ _ _ h => h⟩
    | sent id hphase _ => exact ⟨hheld.phase fun _ => rfl, fun _ _ _ h => h⟩
    | forget id hphase => exact ⟨(hheld.erase id).phase fun _ => rfl, fun _ _ _ h => h.erase id⟩
    | wake _ id hphase _ => exact ⟨hheld.phase fun _ => rfl, fun _ _ _ h => h⟩
    | finish id _ outcome hphase _ =>
      exact ⟨(hheld.erase id).phase fun _ => rfl, fun _ _ _ h => h.erase id⟩
  refine ⟨fun j e he => ?_, fun waiters j hr hw => ?_⟩
  · show Held t.pending t.reader j e
    rw [hreader]
    have hget : (s.calls.set i d)[j]? = some e := by rw [← hcalls]; exact he
    by_cases hj : i = j
    · subst hj
      rw [List.getElem?_set_self hi] at hget
      cases hget
      exact hsteps.1
    · rw [List.getElem?_set_ne hj] at hget
      exact hsteps.2 j e (Ne.symm hj) (h.calls j e hget)
  · have hlt := h.failing waiters j (hreader.symm.trans hr) hw
    show j < (t.calls.set i d).length
    rw [List.length_set, hcalls]
    exact hlt

theorem notify_get {f : Invocation → Invocation} {owner : Owner} {j : ℕ} {e : Invocation}
    (he : (s.notify f owner).calls[j]? = some e) :
    (owner = .call j ∧ ∃ c, s.calls[j]? = some c ∧ e = f c) ∨
      owner ≠ .call j ∧ s.calls[j]? = some e := by
  cases owner with
  | session => exact .inr ⟨nofun, he⟩
  | call i =>
    by_cases hj : i = j
    · subst hj
      have hget : s.calls[i]?.map f = some e := by simpa [notify] using he
      obtain ⟨c, hc, rfl⟩ := Option.map_eq_some_iff.mp hget
      exact .inl ⟨rfl, c, hc, rfl⟩
    · refine .inr ⟨fun h => hj (Owner.call.inj h), ?_⟩
      simpa [notify, hj] using he

theorem notify_length (f : Invocation → Invocation) (owner : Owner) :
    (s.notify f owner).calls.length = s.calls.length := by
  cases owner with
  | session => rfl
  | call i => exact List.length_modify ..

theorem notify_pending (f : Invocation → Invocation) (owner : Owner) :
    (s.notify f owner).pending = s.pending := by
  cases owner with
  | session => rfl
  | call i => rfl

/-- The session thread moves on, outside of `fail_all_pending`. -/
theorem Custody.turn (h : s.Custody) (hreader : ∀ waiters, t.reader ≠ .failing waiters)
    (hcalls : t.calls = s.calls)
    (hpending : ∀ i c, Held s.pending s.reader i c → Held t.pending s.reader i c) : t.Custody := by
  refine ⟨fun i c hc => ?_, fun waiters i hr => absurd hr (hreader waiters)⟩
  rw [hcalls] at hc
  exact (hpending i c (h.calls i c hc)).turn hreader

theorem Custody.dispatch (h : s.Custody) (id : ℤ) (message : String) :
    (s.dispatch library id message).Custody := by
  unfold WsClient.dispatch
  cases hfind : (requestIdOf library message).bind s.pending.find? with
  | none => exact h.turn (fun _ hr => by cases hr) rfl fun _ _ hi => hi
  | some entry =>
    obtain ⟨requestId, owner⟩ := entry
    exact h.turn (fun _ hr => by cases hr) rfl fun _ _ hi => hi.erase requestId

theorem Custody.collect (h : s.Custody) (hs : s.Sound library) :
    { s with
      pending := .empty _
      reader := .failing (s.pending.toList.map Prod.snd) }.Custody := by
  have hlisted (i : ℕ) (hi : Owner.call i ∈ s.pending.toList.map Prod.snd) :
      ∃ id, s.pending.find? id = some (id, .call i) := by
    obtain ⟨⟨id, owner⟩, hmem, rfl⟩ := List.mem_map.mp hi
    exact ⟨id, KeyedList.find?_of_mem_toList hmem⟩
  refine ⟨fun i c hc => ⟨fun id hid => ?_, fun waiters hr hw => ?_, (h.calls i c hc).early⟩,
    fun waiters i hr hw => ?_⟩
  · cases hid
  · cases hr
    obtain ⟨id, hid⟩ := hlisted i hw
    refine ⟨((h.calls i c hc).listed id hid).1, fun k hk => ?_⟩
    cases hk
  · cases hr
    obtain ⟨id, hid⟩ := hlisted i hw
    obtain ⟨c, hc, -⟩ := hs.waiting id i hid
    exact (List.getElem?_eq_some_iff.mp hc).1

theorem Custody.fail (h : s.Custody) {owner : Owner} {waiters : List Owner}
    (hreader : s.reader = .failing (owner :: waiters)) :
    { s.notify (fun c => { c with failed := true }) owner with
      reader := .failing waiters }.Custody := by
  refine ⟨fun i e he => ?_, fun rest i hr hw => ?_⟩
  · show Held (s.notify (fun c => { c with failed := true }) owner).pending (.failing waiters) i e
    rw [notify_pending]
    have hrest {c : Invocation} (hc : Held s.pending s.reader i c) :
        ∀ rest, Reader.failing waiters = .failing rest → .call i ∈ rest →
          c.phase.entered ∧ ∀ id, s.pending.find? id ≠ some (id, .call i) := by
      rintro rest hr hw
      cases hr
      exact hc.failing _ hreader (List.mem_cons_of_mem _ hw)
    rcases notify_get he with ⟨rfl, c, hc, rfl⟩ | ⟨-, hc⟩
    · have hheld := h.calls i c hc
      obtain ⟨hentered, hnone⟩ := hheld.failing _ hreader List.mem_cons_self
      refine ⟨fun id hid => absurd hid (hnone id), hrest (c := c) hheld, fun hnot => ?_⟩
      rw [hentered] at hnot
      cases hnot
    · have hheld := h.calls i e hc
      exact ⟨hheld.listed, hrest hheld, hheld.early⟩
  · cases hr
    show i < (s.notify (fun c => { c with failed := true }) owner).calls.length
    rw [notify_length]
    exact h.failing _ i hreader (List.mem_cons_of_mem _ hw)

theorem Custody.session (h : s.Custody) (hs : s.Sound library) {a : ReaderAction}
    (hm : ReaderMoves library s a t) : t.Custody := by
  have hfree {reader : Reader} (hr : reader.free) (waiters : List Owner) :
      reader ≠ .failing waiters := by
    rintro rfl
    cases hr
  cases hm with
  | turn _ reader _ hnext => exact h.turn (hfree hnext) rfl fun _ _ hi => hi
  | issue _ reader _ hnext => exact h.turn (hfree hnext) rfl fun _ _ hi => hi
  | drop id message _ => exact h.turn (hfree rfl) rfl fun _ _ hi => hi
  | subscribe id _ => exact h.turn (hfree rfl) rfl fun _ _ hi => hi.set nofun
  | read id message _ => exact h.dispatch id message
  | store id owner frame hr =>
    refine ⟨fun i e he => ?_, fun waiters i hr => by cases hr⟩
    show Held (s.notify (fun c => { c with response := some frame }) owner).pending (.reading id) i e
    rw [notify_pending]
    rcases notify_get he with ⟨-, c, hc, rfl⟩ | ⟨-, hc⟩
    · have hheld : Held s.pending (.reading id) i c := (h.calls i c hc).turn (hfree rfl)
      exact ⟨hheld.listed, hheld.failing, hheld.early⟩
    · exact (h.calls i e hc).turn (hfree rfl)
  | unsubscribe id _ => exact h.turn (hfree rfl) rfl fun _ _ hi => hi.erase id
  | collect _ => exact h.collect hs
  | fail owner waiters hr => exact h.fail hr
  | failed _ => exact h.turn (hfree rfl) rfl fun _ _ hi => hi

theorem Custody.step (h : s.Custody) (hs : s.Sound library) {a : Action}
    (hstep : s.step library a = some t) : t.Custody := by
  cases a with
  | begin method =>
    cases hstep
    refine ⟨fun i c hc => ?_, fun waiters i hr hw => ?_⟩
    · rcases begin_get hc with hold | ⟨rfl, rfl⟩
      · exact h.calls i c hold
      · refine ⟨fun id hid => ?_, fun waiters hr hw => ?_, fun _ => rfl⟩
        · obtain ⟨c, hc, -⟩ := hs.waiting id _ hid
          exact absurd (List.getElem?_eq_some_iff.mp hc).1 (Nat.lt_irrefl _)
        · exact absurd (h.failing waiters _ hr hw) (Nat.lt_irrefl _)
    · have hlt := h.failing waiters i hr hw
      show i < (s.calls ++ [Invocation.of method]).length
      rw [List.length_append]
      omega
  | caller i a =>
    obtain ⟨c, u, d, hc, hm, rfl⟩ := step_caller hstep
    exact h.caller hc hm
  | reader a => exact h.session hs (readerStep_cases hstep)

theorem custody_of_reaches {ok : WsClient → Action → Prop}
    (h : Transition.Reaches (step library) ok start s) : s.Sound library ∧ s.Custody :=
  h.invariant (I := fun s => s.Sound library ∧ s.Custody)
    (fun _ _ _ hI _ hs => ⟨hI.1.step hs, hI.2.step hI.1 hs⟩) ⟨start_sound, start_custody⟩

/-! ### A response on its way -/

def Waits (s : WsClient) (i : ℕ) (id : ℤ) : Prop :=
  s.pending.find? id = some (id, .call i) ∧
    ∃ c, s.calls[i]? = some c ∧ (c.phase = .registered id ∨ c.phase = .sent id)

/-- The session thread has taken the entry of the invocation and not stored the response yet. -/
def Carries (s : WsClient) (i : ℕ) : Prop :=
  ∃ sid frame, s.reader = .storing sid (.call i) frame

/-- What a step must not do for a response to arrive: `inline_time_sync` does not read a response
that a call waits for, a call does not give up while the session thread holds its response, and a
send does not fail after the response was read. -/
def Heeds (library : Json.Library) (s : WsClient) : Action → Prop
  | .reader (.syncRead (some message)) =>
    ∀ i id, requestIdOf library message = some id → ¬ s.Waits i id
  | .caller i (.wake _) => ¬ s.Carries i
  | .caller i (.send false) => ¬ s.Carries i ∧ ∀ c, s.calls[i]? = some c → c.response = none
  | _ => True

/-- The response is about to be stored, or it is stored, and the invocation returns it. -/
inductive Stands (s : WsClient) (i : ℕ) (id : ℤ) (frame : Frame) (c : Invocation) : Prop
  | carried (sid : ℤ) (hreader : s.reader = .storing sid (.call i) frame)
      (hphase : c.phase = .registered id ∨ c.phase = .sent id)
  | stored (hcarries : ¬ s.Carries i) (hresponse : c.response = some frame)
      (hphase : c.phase = .registered id ∨ c.phase = .sent id ∨ c.phase = .woken id false ∨
        c.phase = .done id (.response frame))

theorem Stands.phase {i : ℕ} {id : ℤ} {frame : Frame} {c : Invocation}
    (h : s.Stands i id frame c) :
    c.phase = .registered id ∨ c.phase = .sent id ∨ c.phase = .woken id false ∨
      c.phase = .done id (.response frame) := by
  cases h with
  | carried _ _ hphase => exact hphase.imp_right .inl
  | stored _ _ hphase => exact hphase

/-- Nothing but the response can become of the invocation. -/
structure Served (i : ℕ) (id : ℤ) (frame : Frame) (s : WsClient) : Prop where
  unlisted : ∀ k, s.pending.find? k ≠ some (k, .call i)
  spared : ∀ waiters, s.reader = .failing waiters → .call i ∉ waiters
  stands : ∃ c, s.calls[i]? = some c ∧ c.failed = false ∧ s.Stands i id frame c

theorem Served.returned {i : ℕ} {id id' : ℤ} {frame : Frame} {outcome : Outcome}
    (h : s.Served i id frame) (hr : s.Returned i id' outcome) : outcome = .response frame := by
  obtain ⟨c, hc, -, hstands⟩ := h.stands
  obtain ⟨c', hc', hphase⟩ := hr
  obtain rfl : c = c' := Option.some.inj (hc.symm.trans hc')
  rcases hstands.phase with h | h | h | h
  · cases h.symm.trans hphase
  · cases h.symm.trans hphase
  · cases h.symm.trans hphase
  · cases h.symm.trans hphase
    rfl

section

variable {i : ℕ} {id : ℤ} {frame : Frame}

theorem unlisted_erase {pending : KeyedList (Prod.fst : ℤ × Owner → ℤ)}
    (h : ∀ k, pending.find? k ≠ some (k, .call i)) (key k : ℤ) :
    (pending.erase key).find? k ≠ some (k, .call i) := by
  by_cases hk : k = key
  · rw [hk, KeyedList.find?_erase_self]
    exact nofun
  · rw [KeyedList.find?_erase_of_ne _ hk]
    exact h k

theorem unlisted_set {pending : KeyedList (Prod.fst : ℤ × Owner → ℤ)}
    (h : ∀ k, pending.find? k ≠ some (k, .call i)) (key : ℤ) {owner : Owner}
    (howner : owner ≠ .call i) (k : ℤ) :
    (pending.set (key, owner)).find? k ≠ some (k, .call i) := by
  rw [KeyedList.find?_set]
  split_ifs
  · intro hset
    cases hset
    exact howner rfl
  · exact h k

/-- The caller itself: it is sent, wakes up with the response and returns it. -/
theorem Served.own (h : s.Served i id frame) {a : CallAction} {c d : Invocation}
    (hok : Heeds library s (.caller i a)) (hc : s.calls[i]? = some c)
    (hm : CallMoves s i c a t d) : { t with calls := t.calls.set i d }.Served i id frame := by
  have hd : (t.calls.set i d)[i]? = some d := by
    obtain ⟨hi, -⟩ := List.getElem?_eq_some_iff.mp hc
    rw [hm.calls, List.getElem?_set_self hi]
  obtain ⟨c', hc', hfailed, hstands⟩ := h.stands
  obtain rfl : c = c' := Option.some.inj (hc.symm.trans hc')
  have hphases := hstands.phase
  cases hm with
  | take hphase => rcases hphases with h | h | h | h <;> cases h.symm.trans hphase
  | register key hphase => rcases hphases with h | h | h | h <;> cases h.symm.trans hphase
  | forget key hphase => rcases hphases with h | h | h | h <;> cases h.symm.trans hphase
  | unsent key hphase =>
    obtain ⟨hcarries, hnone⟩ := hok
    cases hstands with
    | carried sid hreader _ => exact absurd ⟨sid, frame, hreader⟩ hcarries
    | stored _ hresponse _ => cases (hnone c hc).symm.trans hresponse
  | sent key hphase _ =>
    obtain rfl : key = id := by
      rcases hphases with h | h | h | h <;> cases h.symm.trans hphase
      rfl
    refine ⟨h.unlisted, h.spared, _, hd, hfailed, ?_⟩
    cases hstands with
    | carried sid hreader _ => exact .carried sid hreader (.inr rfl)
    | stored hcarries hresponse _ => exact .stored hcarries hresponse (.inr (.inl rfl))
  | wake expired key hphase _ =>
    obtain rfl : key = id := by
      rcases hphases with h | h | h | h <;> cases h.symm.trans hphase
      rfl
    refine ⟨h.unlisted, h.spared, _, hd, hfailed, ?_⟩
    cases hstands with
    | carried sid hreader _ => exact absurd ⟨sid, frame, hreader⟩ hok
    | stored hcarries hresponse _ =>
      refine .stored hcarries hresponse (.inr (.inr (.inl ?_)))
      simp [hresponse]
  | finish key timedOut outcome hphase houtcome =>
    obtain ⟨rfl, rfl⟩ : key = id ∧ timedOut = false := by
      rcases hphases with h | h | h | h <;> cases h.symm.trans hphase
      exact ⟨rfl, rfl⟩
    refine ⟨unlisted_erase h.unlisted key, h.spared, _, hd, hfailed, ?_⟩
    cases hstands with
    | carried sid hreader hearly => rcases hearly with h | h <;> cases h.symm.trans hphase
    | stored hcarries hresponse _ =>
      have hresult : outcome = .response frame := by
        have hsome : c.outcome? false = some (.response frame) := by
          simp [Invocation.outcome?, hfailed, hresponse]
        exact Option.some.inj (houtcome.symm.trans hsome)
      exact .stored hcarries hresponse (.inr (.inr (.inr (by rw [hresult]))))

theorem Served.other (h : s.Served i id frame) {j : ℕ} {a : CallAction} {c d : Invocation}
    (hj : j ≠ i) (hm : CallMoves s j c a t d) :
    { t with calls := t.calls.set j d }.Served i id frame := by
  have hreader : t.reader = s.reader := by cases hm <;> rfl
  have hunlisted : ∀ k, t.pending.find? k ≠ some (k, .call i) := by
    cases hm with
    | register key _ => exact unlisted_set h.unlisted key fun h => hj (Owner.call.inj h)
    | forget key _ => exact unlisted_erase h.unlisted key
    | finish key _ _ _ _ => exact unlisted_erase h.unlisted key
    | _ => exact h.unlisted
  obtain ⟨e, he, hfailed, hstands⟩ := h.stands
  refine ⟨hunlisted, fun waiters hr => h.spared waiters (hreader.symm.trans hr), e, ?_, hfailed, ?_⟩
  · show (t.calls.set j d)[i]? = some e
    rw [List.getElem?_set_ne hj, hm.calls, he]
  · cases hstands with
    | carried sid hr hphase => exact .carried sid (hreader.trans hr) hphase
    | stored hcarries hresponse hphase =>
      refine .stored (fun hc => hcarries ?_) hresponse hphase
      obtain ⟨sid, other, hr⟩ := hc
      exact ⟨sid, other, hreader.symm.trans hr⟩

theorem Served.turn (h : s.Served i id frame) (hcalls : t.calls[i]? = s.calls[i]?)
    (hbefore : ¬ s.Carries i) (hafter : ¬ t.Carries i)
    (hspared : ∀ waiters, t.reader = .failing waiters → .call i ∉ waiters)
    (hunlisted : ∀ k, t.pending.find? k ≠ some (k, .call i)) : t.Served i id frame := by
  obtain ⟨c, hc, hfailed, hstands⟩ := h.stands
  refine ⟨hunlisted, hspared, c, hcalls.trans hc, hfailed, ?_⟩
  cases hstands with
  | carried sid hr _ => exact absurd ⟨sid, frame, hr⟩ hbefore
  | stored _ hresponse hphase => exact .stored hafter hresponse hphase

theorem notify_other {f : Invocation → Invocation} {owner : Owner} (h : owner ≠ .call i) :
    (s.notify f owner).calls[i]? = s.calls[i]? := by
  cases owner with
  | session => rfl
  | call j =>
    have hj : j ≠ i := fun hj => h (by rw [hj])
    simp [notify, hj]

theorem Served.dispatch (h : s.Served i id frame) {sid : ℤ} (hreader : s.reader = .reading sid)
    (message : String) : (s.dispatch library sid message).Served i id frame := by
  have hbefore : ¬ s.Carries i := by
    rintro ⟨_, _, hr⟩
    cases hreader.symm.trans hr
  unfold WsClient.dispatch
  cases hfind : (requestIdOf library message).bind s.pending.find? with
  | none =>
    refine h.turn rfl hbefore ?_ (fun _ hr => by cases hr) h.unlisted
    rintro ⟨_, _, hr⟩
    cases hr
  | some entry =>
    obtain ⟨requestId, owner⟩ := entry
    obtain ⟨key, -, hentry⟩ := Option.bind_eq_some_iff.mp hfind
    obtain rfl : requestId = key := KeyedList.key_of_find? hentry
    refine h.turn rfl hbefore ?_ (fun _ hr => by cases hr) (unlisted_erase h.unlisted requestId)
    rintro ⟨_, _, hr⟩
    obtain ⟨-, rfl, -⟩ := Reader.storing.inj hr
    exact h.unlisted requestId hentry

theorem Served.store (h : s.Served i id frame) {sid : ℤ} {owner : Owner} {stored : Frame}
    (hreader : s.reader = .storing sid owner stored) :
    { s.notify (fun c => { c with response := some stored }) owner with
      reader := .reading sid }.Served i id frame := by
  have hunlisted (k : ℤ) :
      (s.notify (fun c => { c with response := some stored }) owner).pending.find? k ≠
        some (k, .call i) := by
    rw [notify_pending]
    exact h.unlisted k
  have hafter : ¬ { s.notify (fun c => { c with response := some stored }) owner with
      reader := .reading sid }.Carries i := by
    rintro ⟨_, _, hr⟩
    cases hr
  by_cases howner : owner = .call i
  · subst howner
    obtain ⟨c, hc, hfailed, hstands⟩ := h.stands
    refine ⟨hunlisted, nofun, { c with response := some stored }, ?_, hfailed, ?_⟩
    · show (s.calls.modify i fun c => { c with response := some stored })[i]? = _
      simp [hc]
    · cases hstands with
      | carried _ hr hphase =>
        cases hreader.symm.trans hr
        exact .stored hafter rfl (hphase.imp_right .inl)
      | stored hcarries _ _ => exact absurd ⟨sid, stored, hreader⟩ hcarries
  · refine h.turn (notify_other howner) ?_ hafter (fun _ hr => by cases hr) hunlisted
    rintro ⟨_, _, hr⟩
    cases hreader.symm.trans hr
    exact howner rfl

/-- The session thread stores the response it carries, and fails nobody who has one. -/
theorem Served.session (h : s.Served i id frame) {a : ReaderAction}
    (hm : ReaderMoves library s a t) : t.Served i id frame := by
  have hidle {u : WsClient} (hu : u.reader.free) : ¬ u.Carries i := by
    rintro ⟨_, _, hr⟩
    rw [hr] at hu
    cases hu
  have hspared {u : WsClient} (hu : u.reader.free) (waiters : List Owner)
      (hr : u.reader = .failing waiters) : .call i ∉ waiters := by
    rw [hr] at hu
    cases hu
  cases hm with
  | turn _ reader hr hnext => exact h.turn rfl (hidle hr) (hidle hnext) (hspared hnext) h.unlisted
  | issue _ reader hr hnext => exact h.turn rfl (hidle hr) (hidle hnext) (hspared hnext) h.unlisted
  | drop sid message hr =>
    exact h.turn rfl (hidle (by rw [hr]; rfl)) (hidle rfl) (hspared rfl) h.unlisted
  | subscribe key hr =>
    exact h.turn rfl (hidle hr) (hidle rfl) (hspared rfl) (unlisted_set h.unlisted key nofun)
  | read sid message hr => exact h.dispatch hr message
  | unsubscribe key hr =>
    exact h.turn rfl (hidle hr) (hidle rfl) (hspared rfl) (unlisted_erase h.unlisted key)
  | collect hr =>
    refine h.turn rfl (hidle hr) ?_ (fun waiters hw hmem => ?_) fun k hk => by cases hk
    · rintro ⟨_, _, hr⟩
      cases hr
    · cases hw
      obtain ⟨⟨key, owner⟩, hentry, rfl⟩ := List.mem_map.mp hmem
      exact h.unlisted key (KeyedList.find?_of_mem_toList hentry)
  | failed hr =>
    refine h.turn rfl ?_ (hidle rfl) (hspared rfl) h.unlisted
    rintro ⟨_, _, hr'⟩
    cases hr.symm.trans hr'
  | fail owner waiters hr =>
    have howner : owner ≠ .call i := by
      rintro rfl
      exact h.spared _ hr List.mem_cons_self
    refine h.turn (notify_other howner) ?_ ?_ (fun rest hrest hmem => ?_) ?_
    · rintro ⟨_, _, hr'⟩
      cases hr.symm.trans hr'
    · rintro ⟨_, _, hr'⟩
      cases hr'
    · cases hrest
      exact h.spared _ hr (List.mem_cons_of_mem _ hmem)
    · intro k
      show (s.notify _ owner).pending.find? k ≠ some (k, .call i)
      rw [notify_pending]
      exact h.unlisted k
  | store sid owner stored hr => exact h.store hr

theorem Served.step (h : s.Served i id frame) {a : Action} (hok : Heeds library s a)
    (hs : s.step library a = some t) : t.Served i id frame := by
  cases a with
  | begin method =>
    cases hs
    obtain ⟨c, hc, hfailed, hstands⟩ := h.stands
    obtain ⟨hi, -⟩ := List.getElem?_eq_some_iff.mp hc
    refine ⟨h.unlisted, h.spared, c, ?_, hfailed, ?_⟩
    · show (s.calls ++ [Invocation.of method])[i]? = some c
      rw [List.getElem?_append_left hi, hc]
    · cases hstands with
      | carried sid hr hphase => exact .carried sid hr hphase
      | stored hcarries hresponse hphase => exact .stored hcarries hresponse hphase
  | caller j a =>
    obtain ⟨c, u, d, hc, hm, rfl⟩ := step_caller hs
    by_cases hj : j = i
    · subst hj
      exact h.own hok hc hm
    · exact h.other hj hm
  | reader a => exact h.session (readerStep_cases hs)

theorem step_read {message : String} (h : s.step library (.reader (.read message)) = some t) :
    ∃ sid, s.reader = .reading sid ∧ t = s.dispatch library sid message := by
  change s.readerStep library (.read message) s.reader = some t at h
  cases hr : s.reader with
  | reading sid =>
    rw [hr] at h
    exact ⟨sid, rfl, (Option.some.inj h).symm⟩
  | _ =>
    rw [hr] at h
    cases h

/-- The read loop takes the entry of a call that waits. -/
theorem served_read (hsound : s.Sound library) (hcustody : s.Custody) {message : String}
    (hs : s.step library (.reader (.read message)) = some t)
    (hid : requestIdOf library message = some id) (hwaits : s.Waits i id) :
    t.Carries i ∧ t.Served i id ⟨s.frames.length, message⟩ := by
  obtain ⟨hentry, c, hc, hphase⟩ := hwaits
  obtain ⟨sid, -, rfl⟩ := step_read hs
  have hfound : (requestIdOf library message).bind s.pending.find? = some (id, .call i) := by
    rw [hid]
    exact hentry
  have hcid : c.phase.id? = some id := by
    rcases hphase with h | h
    · rw [h]
      rfl
    · rw [h]
      rfl
  unfold WsClient.dispatch
  rw [hfound]
  refine ⟨⟨sid, _, rfl⟩, fun k hk => ?_, nofun, c, hc,
    ((hcustody.calls i c hc).listed id hentry).2, .carried sid rfl hphase⟩
  by_cases hkey : k = id
  · rw [hkey, KeyedList.find?_erase_self] at hk
    cases hk
  · rw [KeyedList.find?_erase_of_ne _ hkey] at hk
    obtain ⟨c', hc', hk'⟩ := hsound.waiting k i hk
    obtain rfl : c = c' := Option.some.inj (hc.symm.trans hc')
    exact hkey (Option.some.inj (hk'.symm.trans hcid))

abbrev HeedfulReaches (library : Json.Library) (s t : WsClient) : Prop :=
  Transition.Reaches (step library) (Heeds library) s t

theorem HeedfulReaches.caller {r : WsClient} {c d : Invocation} {a : CallAction}
    (h : HeedfulReaches library r s) (hc : s.calls[i]? = some c)
    (hstep : s.callStep i c a c.phase = some (t, d)) (hok : Heeds library s (.caller i a)) :
    HeedfulReaches library r { t with calls := t.calls.set i d } :=
  h.snoc hok (step_of_callStep hc hstep)

/-- A caller that is sent and has its response wakes up and returns it. -/
theorem returns_of_sent {r : WsClient} {c : Invocation} (hrun : HeedfulReaches library r s)
    (hc : s.calls[i]? = some c) (hphase : c.phase = .sent id) (hresponse : c.response = some frame)
    (hfailed : c.failed = false) (hcarries : ¬ s.Carries i) :
    ∃ u, HeedfulReaches library r u ∧ u.Returned i id (.response frame) := by
  obtain ⟨hi, -⟩ := List.getElem?_eq_some_iff.mp hc
  have hwake : s.callStep i c (.wake false) c.phase =
      some (s, { c with phase := .woken id false }) := by
    simp [callStep, hphase, hresponse]
  have hget : (s.calls.set i { c with phase := .woken id false })[i]? =
      some { c with phase := .woken id false } := List.getElem?_set_self hi
  have houtcome : ({ c with phase := .woken id false } : Invocation).outcome? false =
      some (.response frame) := by
    simp [Invocation.outcome?, hfailed, hresponse]
  have hfinish (u : WsClient) :
      u.callStep i { c with phase := .woken id false } .finish (.woken id false) =
        some ({ u with pending := u.pending.erase id },
          { c with phase := .done id (.response frame) }) := by
    simp only [callStep, houtcome, Option.map_some]
  have hwoken : HeedfulReaches library r _ := hrun.caller hc hwake hcarries
  have hdone : HeedfulReaches library r _ := hwoken.caller hget (hfinish _) trivial
  refine ⟨_, hdone, { c with phase := .done id (.response frame) }, ?_, rfl⟩
  exact List.getElem?_set_self (by rwa [List.length_set])

/-- A response that the session thread carries can be stored and returned. -/
theorem returns_of_carried {c : Invocation} {sid : ℤ} (hc : s.calls[i]? = some c)
    (hreader : s.reader = .storing sid (.call i) frame)
    (hphase : c.phase = .registered id ∨ c.phase = .sent id) (hfailed : c.failed = false) :
    ∃ u, HeedfulReaches library s u ∧ u.Returned i id (.response frame) := by
  obtain ⟨hi, -⟩ := List.getElem?_eq_some_iff.mp hc
  have hstore : s.step library (.reader .store) =
      some { s.notify (fun c => { c with response := some frame }) (.call i) with
        reader := .reading sid } := by
    simp [WsClient.step, hreader, readerStep]
  have hget : (s.calls.modify i fun c => { c with response := some frame })[i]? =
      some { c with response := some frame } := by
    simp [hc]
  have hok : Heeds library s (.reader .store) := trivial
  have hrun : HeedfulReaches library s _ := (Transition.Reaches.refl s).snoc hok hstore
  have hcarries {u : WsClient} (hu : u.reader = .reading sid) : ¬ u.Carries i := by
    rintro ⟨_, _, hr⟩
    cases hu.symm.trans hr
  rcases hphase with hphase | hphase
  · have hsend (u : WsClient) (hpublished : u.reader.published) :
        u.callStep i { c with response := some frame } (.send true) c.phase =
          some (u, { c with response := some frame, phase := .sent id }) := by
      rw [hphase]
      exact if_pos hpublished
    have hlt : i < (s.calls.modify i fun c => { c with response := some frame }).length := by
      rwa [List.length_modify]
    have hsent : HeedfulReaches library s _ := hrun.caller hget (hsend _ rfl) trivial
    exact returns_of_sent hsent (List.getElem?_set_self hlt) rfl rfl hfailed (hcarries rfl)
  · exact returns_of_sent hrun hget hphase rfl hfailed (hcarries rfl)

end

/-- Every response that is read while its call waits completes the call: the call can return it,
and it can return nothing else. -/
def Completes (library : Json.Library) (ok : WsClient → Action → Prop) : Prop :=
  ∀ s a t message i id, Transition.Reaches (step library) ok start s → ok s a →
    (a = .reader (.read message) ∨ a = .reader (.syncRead (some message))) →
    s.step library a = some t → requestIdOf library message = some id → s.Waits i id →
    (∃ u, Transition.Reaches (step library) ok t u ∧
        u.Returned i id (.response ⟨s.frames.length, message⟩)) ∧
      ∀ u id' outcome, Transition.Reaches (step library) ok t u → u.Returned i id' outcome →
        outcome = .response ⟨s.frames.length, message⟩

/-- In every run whose steps heed them, no response is swallowed. -/
theorem completes_of_heeds (library : Json.Library) : Completes library (Heeds library) := by
  intro s a t message i id hrun hok hread hs hid hwaits
  obtain ⟨hsound, hcustody⟩ := custody_of_reaches hrun
  rcases hread with rfl | rfl
  · obtain ⟨hcarries, hserved⟩ := served_read hsound hcustody hs hid hwaits
    constructor
    · obtain ⟨c, hc, hfailed, hstands⟩ := hserved.stands
      cases hstands with
      | carried sid hreader hphase => exact returns_of_carried hc hreader hphase hfailed
      | stored hnot _ _ => exact absurd hcarries hnot
    · intro u id' outcome hmore hreturned
      have hlast : u.Served i id ⟨s.frames.length, message⟩ :=
        hmore.invariant (I := fun u => u.Served i id ⟨s.frames.length, message⟩)
          (fun _ _ _ h hok hs => h.step hok hs) hserved
      exact hlast.returned hreturned
  · exact absurd hwaits (hok i id hid)

/-! ### A response that arrives, and one that does not -/

theorem heeds_of_plain {a : Action} (h : a.plain) : Heeds library s a := by
  cases a with
  | begin method => trivial
  | caller i a =>
    cases a with
    | wake expired => cases h
    | send ok =>
      cases ok with
      | false => cases h
      | true => trivial
    | _ => trivial
  | reader a =>
    cases a with
    | syncRead message =>
      cases message with
      | none => trivial
      | some message => cases h
    | _ => trivial

def sentActions : List Action :=
  [.reader .publish, .reader (.connect true), .reader .syncTake, .reader (.syncSend true),
    .reader (.syncRead none), .reader .subscribeTake, .reader .subscribeRegister,
    .reader (.subscribeSend true), .begin "order.place", .caller 0 .take, .caller 0 .register,
    .caller 0 (.send true)]

def sent : WsClient :=
  (Transition.exec (step answerLibrary) (fun _ a => a.plain) start sentActions).get rfl

theorem completes_of_heeds_sent :
    ∃ u, HeedfulReaches answerLibrary (sent.dispatch answerLibrary 2 firstAnswer) u ∧
      u.Returned 0 3 (.response ⟨0, firstAnswer⟩) :=
  (completes_of_heeds answerLibrary sent (.reader (.read firstAnswer)) _ firstAnswer 0 3
    ((Transition.reaches_get_exec rfl).mono fun _ _ h => heeds_of_plain h) trivial (.inl rfl) rfl
    rfl ⟨rfl, _, rfl, .inr rfl⟩).1

def placeAnswer : String := "\x7b\"id\":1,\"status\":200,\"result\":\x7b\"orderId\":7\x7d\x7d"

def placeLibrary : Json.Library where
  parse text :=
    if text = placeAnswer then
      some (.obj [("id", .unsigned 1), ("status", .unsigned 200),
        ("result", .obj [("orderId", .unsigned 7)])])
    else none
  dump _ := ""
  truncate _ := 0

def startupActions : List Action :=
  [.reader .publish, .reader (.connect true), .begin "order.place", .caller 0 .take,
    .caller 0 .register, .caller 0 (.send true), .reader .syncTake, .reader (.syncSend true)]

def startup : WsClient :=
  (Transition.exec (step placeLibrary) (fun _ _ => True) start startupActions).get rfl

def swallowed : WsClient :=
  (startup.step placeLibrary (.reader (.syncRead (some placeAnswer)))).get rfl

def expired : WsClient :=
  (Transition.exec (step placeLibrary) (fun _ _ => True) swallowed
    [.caller 0 (.wake true), .caller 0 .finish]).get rfl

theorem response_swallowed : ¬ Completes placeLibrary fun _ _ => True := by
  intro h
  have hread : startup.step placeLibrary (.reader (.syncRead (some placeAnswer))) =
      some swallowed := rfl
  have hwaits : startup.Waits 0 1 := ⟨rfl, _, rfl, .inr rfl⟩
  have hreturned : expired.Returned 0 1 .timedOut := ⟨_, rfl, rfl⟩
  have hresponse := (h startup _ swallowed placeAnswer 0 1 (Transition.reaches_get_exec rfl) trivial
    (.inr rfl) hread rfl hwaits).2 expired 1 .timedOut (Transition.reaches_get_exec rfl) hreturned
  cases hresponse

end WsClient

end ExchangeGateway.Binance
