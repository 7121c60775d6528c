import ExchangeGateway.Connector
import ExchangeGateway.Json

/-! The append-only event log as the order management system sees it, line by line. A failed append
clears the error of the stream only: a line that is in the stream's buffer stays there, and the
next write that succeeds takes it along. -/
namespace ExchangeGateway

/-- What becomes of a write: of an append, or of the buffer when the stream is closed. -/
inductive Fate
  | written
  /-- Nothing of the line is left, in the file or in the buffer. -/
  | lost
  /-- The buffer keeps its lines. The file has taken `whole` of them and, if `torn`, a part of the
  next. -/
  | held (whole : ℕ) (torn : Bool)
  deriving DecidableEq, Repr

/-- The lines that reach the file. -/
def Fate.carried : Fate → List Json → List Json
  | .written, lines => lines
  | .lost, _ => []
  | .held whole _, lines => lines.take whole

/-- `fate n` is that of the `n`-th write, chosen by the environment. -/
structure EventLog where
  path : String
  isOpen : Bool
  /-- The readable lines of the file. -/
  events : List Json
  fate : ℕ → Fate
  attempts : ℕ := 0
  /-- The lines that the stream still holds. -/
  buffer : List Json := []
  /-- The file ends in a part of the first of them. -/
  torn : Bool := false
  /-- A line of the file is unreadable. -/
  corrupt : Bool := false
  buffer_of_torn : torn = true → buffer ≠ [] := by decide

namespace EventLog

def ready (log : EventLog) : Bool := log.isOpen && log.fate log.attempts = .written

/-- The file after whole lines: a part of a line makes the first of them unreadable. -/
def receive (log : EventLog) (lines : List Json) : EventLog :=
  { log with
    events := log.events ++ if log.torn then lines.tail else lines
    corrupt := log.corrupt || (log.torn && !lines.isEmpty)
    attempts := log.attempts + 1 }

def append (log : EventLog) (event : Json) : EventLog × Option Error :=
  if !log.isOpen then (log, some ⟨"io", "event log is not open: " ++ log.path⟩)
  else
    let failed : Error := ⟨"io", "failed to append to event log: " ++ log.path⟩
    let lines := log.buffer ++ [event]
    let received := log.receive ((log.fate log.attempts).carried lines)
    match log.fate log.attempts with
    | .written => ({ received with buffer := [], torn := false, buffer_of_torn := nofun }, none)
    | .lost => (received, some failed)
    | .held whole torn =>
      ({ received with
          buffer := lines
          torn := torn || (log.torn && whole = 0)
          buffer_of_torn := fun _ => List.concat_ne_nil _ _ }, some failed)

/-- The end of the process: a close flushes the buffer, a crash loses it. -/
def close (log : EventLog) : EventLog :=
  if log.isOpen then log.receive ((log.fate log.attempts).carried log.buffer) else log

/-- A new stream on the file, whose torn tail the replay cuts off. -/
def reopen (log : EventLog) : EventLog :=
  { log with buffer := [], torn := false, buffer_of_torn := nofun }

/-! ### What a write adds -/

variable {log : EventLog}

theorem append_of_closed (h : ¬ log.isOpen) (event : Json) : (log.append event).1 = log := by
  simp [append, h]

theorem events_receive (log : EventLog) (lines : List Json) :
    (log.receive lines).events = log.events ++ if log.torn then lines.tail else lines := rfl

/-- The readable lines that an append brings to the file. -/
def brought (log : EventLog) (event : Json) : List Json :=
  let lines := (log.fate log.attempts).carried (log.buffer ++ [event])
  if !log.isOpen then [] else if log.torn then lines.tail else lines

theorem events_append (log : EventLog) (event : Json) :
    (log.append event).1.events = log.events ++ log.brought event := by
  unfold append brought
  cases hopen : log.isOpen
  · simp
  · cases hfate : log.fate log.attempts <;> simp [receive]

theorem mem_carried {fate : Fate} {lines : List Json} {e : Json} (h : e ∈ fate.carried lines) :
    e ∈ lines := by
  cases fate with
  | written => exact h
  | lost => cases h
  | held whole torn => exact List.mem_of_mem_take h

@[simp] theorem isOpen_append (log : EventLog) (event : Json) :
    (log.append event).1.isOpen = log.isOpen := by
  unfold append
  split_ifs
  · rfl
  · dsimp only
    split <;> rfl

@[simp] theorem fate_append (log : EventLog) (event : Json) :
    (log.append event).1.fate = log.fate := by
  unfold append
  split_ifs
  · rfl
  · dsimp only
    split <;> rfl

theorem attempts_append_of_open (h : log.isOpen) (event : Json) :
    (log.append event).1.attempts = log.attempts + 1 := by
  unfold append
  cases hfate : log.fate log.attempts <;> simp [h, receive]

theorem mem_brought {event e : Json} (h : e ∈ log.brought event) : e ∈ log.buffer ++ [event] := by
  unfold brought at h
  split_ifs at h
  · cases h
  · exact mem_carried (List.mem_of_mem_tail h)
  · exact mem_carried h

theorem mem_buffer_append {event e : Json} (h : e ∈ (log.append event).1.buffer) :
    e ∈ log.buffer ++ [event] := by
  unfold append at h
  split_ifs at h
  · exact List.mem_append_left _ h
  · dsimp only at h
    split at h
    · cases h
    · exact List.mem_append_left _ h
    · exact h

/-- An append that succeeds brings its own line last. -/
theorem brought_of_ready (h : log.ready) (event : Json) :
    ∃ before, log.brought event = before ++ [event] := by
  obtain ⟨hopen, hfate⟩ : log.isOpen ∧ log.fate log.attempts = .written := by
    simpa [ready] using h
  unfold brought
  rw [hfate]
  by_cases htorn : log.torn
  · obtain ⟨first, rest, hbuffer⟩ := List.exists_cons_of_ne_nil (log.buffer_of_torn htorn)
    exact ⟨rest, by simp [Fate.carried, hopen, htorn, hbuffer]⟩
  · exact ⟨log.buffer, by simp [Fate.carried, hopen, htorn]⟩

/-- The readable lines that a close brings to the file. -/
def flushed (log : EventLog) : List Json :=
  let lines := (log.fate log.attempts).carried log.buffer
  if !log.isOpen then [] else if log.torn then lines.tail else lines

theorem events_close (log : EventLog) : log.close.events = log.events ++ log.flushed := by
  unfold close flushed
  cases log.isOpen with
  | false => simp
  | true => rfl

theorem mem_flushed {e : Json} (h : e ∈ log.flushed) : e ∈ log.buffer := by
  unfold flushed at h
  split_ifs at h
  · cases h
  · exact mem_carried (List.mem_of_mem_tail h)
  · exact mem_carried h

end EventLog

end ExchangeGateway
