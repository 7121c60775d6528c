import ExchangeGateway.Core.Ledger
import ExchangeGateway.Core.LogFile

/-! Appends that fail. A failed append leaves bytes in the file and in the buffer of the stream, and
the next successful one writes what is in the buffer before its own line. -/
namespace ExchangeGateway

namespace LogFile

variable {library : Json.Library}

/-! ### Lines of a text -/

/-- The whole lines of a text that continues a part of a line, and the part of a line after them. -/
def cut (left : List Char) : List Char → List (List Char) × List Char
  | [] => ([], left)
  | c :: rest =>
    if c = '\n' then (left :: (cut [] rest).1, (cut [] rest).2) else cut (left ++ [c]) rest

theorem cut_append (left text text' : List Char) :
    cut left (text ++ text') =
      ((cut left text).1 ++ (cut (cut left text).2 text').1, (cut (cut left text).2 text').2) := by
  induction text generalizing left with
  | nil => rfl
  | cons c rest ih =>
    simp only [List.cons_append, cut]
    split_ifs
    · rw [ih]
      rfl
    · exact ih _

theorem cut_of_not_mem {text : List Char} (h : '\n' ∉ text) (left : List Char) :
    cut left text = ([], left ++ text) := by
  induction text generalizing left with
  | nil => simp [cut]
  | cons c rest ih =>
    obtain ⟨hc, hrest⟩ := not_or.mp (mt List.mem_cons.mpr h)
    rw [cut, if_neg (Ne.symm hc), ih hrest, List.append_assoc, List.singleton_append]

theorem cut_line {text : List Char} (h : '\n' ∉ text) (left rest : List Char) :
    cut left (text ++ '\n' :: rest) = ((left ++ text) :: (cut [] rest).1, (cut [] rest).2) := by
  rw [cut_append, cut_of_not_mem h]
  simp [cut]

theorem cut_eq (left text : List Char) :
    left ++ text = terminated (cut left text).1 ++ (cut left text).2 := by
  induction text generalizing left with
  | nil => simp [cut, terminated]
  | cons c rest ih =>
    simp only [cut]
    split_ifs with hc
    · have hrest := ih []
      rw [List.nil_append] at hrest
      rw [hc, terminated, List.flatMap_cons, ← terminated, List.append_assoc, List.append_assoc,
        ← hrest]
      rfl
    · rw [← ih]
      simp

theorem not_mem_cut {left : List Char} (h : '\n' ∉ left) (text : List Char) :
    (∀ line ∈ (cut left text).1, '\n' ∉ line) ∧ '\n' ∉ (cut left text).2 := by
  induction text generalizing left with
  | nil => exact ⟨fun _ hm => (by cases hm), h⟩
  | cons c rest ih =>
    simp only [cut]
    split_ifs with hc
    · obtain ⟨hlines, htail⟩ := ih (List.not_mem_nil (a := '\n'))
      refine ⟨fun line hm => ?_, htail⟩
      rcases List.mem_cons.mp hm with rfl | hm
      · exact h
      · exact hlines line hm
    · apply ih
      rw [List.mem_append, List.mem_singleton, not_or]
      exact ⟨h, Ne.symm hc⟩

/-- A line comes with its line break. -/
theorem cut_fst_eq_nil_iff (left text : List Char) : (cut left text).1 = [] ↔ '\n' ∉ text := by
  constructor
  · intro hnone
    induction text generalizing left with
    | nil => exact List.not_mem_nil
    | cons c rest ih =>
      simp only [cut] at hnone
      split_ifs at hnone with hc
      rw [List.mem_cons, not_or]
      exact ⟨Ne.symm hc, ih _ hnone⟩
  · intro htext
    rw [cut_of_not_mem htext]

/-! ### Runs of appends -/

/-- A sequence of append calls, each with its fault, if any: the file, and the events whose append
returned success. -/
def appendRun (library : Json.Library) :
    LogFile → List (Json × Option Fault) → LogFile × List Json
  | file, [] => (file, [])
  | file, (event, fault) :: calls =>
    let (file, error) := append library file event fault
    let (file, written) := appendRun library file calls
    (file, if error.isNone then event :: written else written)

/-- No successful append finds anything left over, neither a part of a line in the file nor bytes in
the buffer, and no failed one carries a line break into the file, nor does the close. -/
def recoverable (library : Json.Library) (closing : ℕ) :
    List Char → List Char → List (Json × Option Fault) → Bool
  | _, buffer, [] => '\n' ∉ buffer.take closing
  | left, buffer, (_, none) :: calls =>
    left = [] && buffer = [] && recoverable library closing [] [] calls
  | left, buffer, (event, some fault) :: calls =>
    let sent := (buffer ++ line library event).take fault.written
    '\n' ∉ sent && recoverable library closing (left ++ sent)
      (buffer ++ (line library event).take fault.kept) calls

/-- Nothing, or a text that starts with a brace. -/
def Starts (text : List Char) : Prop := ∀ c ∈ text.head?, c = '\x7b'

/-- Moreover, an object starts with a brace, and with a part of another one in front of it the text
of an object is none. -/
structure Unglued (library : Json.Library) (event : Json) : Prop extends
    RoundTrips library event where
  brace : (library.dump event).toList.head? = some '\x7b'
  unglued : ∀ left : List Char, left.head? = some '\x7b' →
    readLine library (left ++ (library.dump event).toList) = none

/-- What a run of calls adds to the file, the close included. -/
def written (library : Json.Library) (closing : ℕ) :
    List Char → List (Json × Option Fault) → List Char
  | buffer, [] => buffer.take closing
  | buffer, (event, none) :: calls =>
    buffer ++ line library event ++ written library closing [] calls
  | buffer, (event, some fault) :: calls =>
    (buffer ++ line library event).take fault.written ++
      written library closing (buffer ++ (line library event).take fault.kept) calls

def succeeded (calls : List (Json × Option Fault)) : List Json :=
  (calls.filter (·.2.isNone)).map Prod.fst

theorem appendRun_spec (library : Json.Library) (closing : ℕ) {file : LogFile}
    (hopen : file.isOpen) (calls : List (Json × Option Fault)) :
    ((appendRun library file calls).1.close closing).content =
        file.content ++ written library closing file.buffer calls ∧
      (appendRun library file calls).2 = succeeded calls := by
  induction calls generalizing file with
  | nil => exact ⟨rfl, rfl⟩
  | cons call calls ih =>
    obtain ⟨event, fault⟩ := call
    simp only [appendRun]
    cases fault with
    | none =>
      have happend : append library file event none = ({ file with
          content := file.content ++ (file.buffer ++ line library event)
          buffer := [] }, none) := by
        simp [append, hopen]
      rw [happend]
      have hopen' : LogFile.isOpen { file with
          content := file.content ++ (file.buffer ++ line library event)
          buffer := [] } := hopen
      obtain ⟨hcontent, hwritten⟩ := ih hopen'
      refine ⟨hcontent.trans ?_, ?_⟩
      · simp [written]
      · rw [hwritten]
        rfl
    | some fault =>
      have happend : append library file event (some fault) = ({ file with
          content := file.content ++ (file.buffer ++ line library event).take fault.written
          buffer := file.buffer ++ (line library event).take fault.kept },
            some ⟨"io", "failed to append to event log: " ++ file.path⟩) := by
        simp [append, hopen]
      rw [happend]
      have hopen' : LogFile.isOpen { file with
          content := file.content ++ (file.buffer ++ line library event).take fault.written
          buffer := file.buffer ++ (line library event).take fault.kept } := hopen
      obtain ⟨hcontent, hwritten⟩ := ih hopen'
      refine ⟨hcontent.trans ?_, ?_⟩
      · simp [written]
      · rw [hwritten]
        rfl

/-- Every successful append adds a line. -/
theorem length_succeeded_le (library : Json.Library) (closing : ℕ) (left buffer : List Char)
    (calls : List (Json × Option Fault)) :
    (succeeded calls).length ≤ (cut left (written library closing buffer calls)).1.length := by
  induction calls generalizing left buffer with
  | nil => exact Nat.zero_le _
  | cons call calls ih =>
    obtain ⟨event, fault⟩ := call
    cases fault with
    | none =>
      have hline : 1 ≤ (cut left (buffer ++ line library event)).1.length := by
        rw [Nat.one_le_iff_ne_zero, ne_eq, List.length_eq_zero_iff, cut_fst_eq_nil_iff, not_not]
        simp [line]
      have hrest := ih (cut left (buffer ++ line library event)).2 []
      rw [written, cut_append, List.length_append]
      have hsucceeded : succeeded ((event, none) :: calls) = event :: succeeded calls := rfl
      rw [hsucceeded, List.length_cons]
      omega
    | some fault =>
      have hsucceeded : succeeded ((event, some fault) :: calls) = succeeded calls := rfl
      rw [hsucceeded, written, cut_append, List.length_append]
      exact Nat.le_add_left_of_le (ih _ _)

/-! ### What is left over -/

theorem Starts.nil : Starts [] := fun _ hm => by cases hm

theorem Starts.head {text : List Char} (h : Starts text) (hne : text ≠ []) :
    text.head? = some '\x7b' := by
  obtain ⟨c, rest, rfl⟩ := List.exists_cons_of_ne_nil hne
  rw [List.head?_cons, h c rfl]

theorem Starts.append {text text' : List Char} (h : Starts text) (h' : Starts text') :
    Starts (text ++ text') := by
  cases text with
  | nil => exact h'
  | cons c rest => exact h

theorem Starts.take {text : List Char} (h : Starts text) (n : ℕ) : Starts (text.take n) := by
  cases n with
  | zero => exact .nil
  | succ n =>
    cases text with
    | nil => exact h
    | cons c rest => exact h

theorem Unglued.starts_dump {event : Json} (h : Unglued library event) :
    Starts (library.dump event).toList := by
  intro c hc
  rw [h.brace] at hc
  exact (Option.some.inj hc).symm

theorem Unglued.starts_line {event : Json} (h : Unglued library event) :
    Starts (line library event) := by
  intro c hc
  rw [line, List.head?_append, h.brace] at hc
  exact (Option.some.inj hc).symm

theorem Unglued.readLine_append {event : Json} (h : Unglued library event) {left : List Char}
    (hleft : Starts left) :
    readLine library (left ++ (library.dump event).toList) =
      if left = [] then some event else none := by
  split_ifs with hempty
  · rw [hempty]
    exact h.readLine
  · exact h.unglued left (hleft.head hempty)

theorem mapM_readLine_cons_iff {text : List Char} {lines : List (List Char)} {event : Json}
    {events : List Json} :
    (text :: lines).mapM (readLine library) = some (event :: events) ↔
      readLine library text = some event ∧ lines.mapM (readLine library) = some events := by
  rw [List.mapM_cons]
  cases readLine library text with
  | none => simp
  | some first =>
    cases lines.mapM (readLine library) with
    | none => simp
    | some rest => simp

theorem length_of_mapM {lines : List (List Char)} {events : List Json}
    (h : lines.mapM (readLine library) = some events) : lines.length = events.length := by
  induction lines generalizing events with
  | nil =>
    obtain rfl := Option.some.inj h
    rfl
  | cons text lines ih =>
    cases events with
    | nil =>
      rw [List.mapM_cons] at h
      cases hread : readLine library text with
      | none => simp [hread] at h
      | some event => cases hrest : lines.mapM (readLine library) <;> simp [hread, hrest] at h
    | cons event events =>
      obtain ⟨-, hrest⟩ := mapM_readLine_cons_iff.mp h
      rw [List.length_cons, List.length_cons, ih hrest]

/-- A chunk with a line break in it is a line too many. -/
theorem not_mem_of_mapM {closing : ℕ} {left chunk buffer : List Char}
    {calls : List (Json × Option Fault)}
    (h : (cut left (chunk ++ written library closing buffer calls)).1.mapM (readLine library) =
      some (succeeded calls)) : '\n' ∉ chunk := by
  have hlength := length_of_mapM h
  have hle := length_succeeded_le library closing (cut left chunk).2 buffer calls
  rw [cut_append, List.length_append] at hlength
  rw [← cut_fst_eq_nil_iff left, ← List.length_eq_zero_iff]
  omega

/-- Of the lines that a successful append finishes, its own is the only one. -/
theorem not_mem_buffer_of_mapM {closing : ℕ} {left buffer : List Char} {event : Json}
    (hline : '\n' ∉ (library.dump event).toList) {calls : List (Json × Option Fault)}
    (h : (cut left (buffer ++ line library event ++ written library closing [] calls)).1.mapM
      (readLine library) = some (event :: succeeded calls)) : '\n' ∉ buffer := by
  have hlength := length_of_mapM h
  have hle := length_succeeded_le library closing [] [] calls
  rw [List.append_assoc, cut_append, line, List.append_assoc, List.singleton_append, cut_line hline,
    List.length_append, List.length_cons, List.length_cons] at hlength
  rw [← cut_fst_eq_nil_iff left, ← List.length_eq_zero_iff]
  omega

/-- The lines of a run read back as the successful events exactly when nothing left over joins
them. -/
theorem mapM_readLine_written_iff {closing : ℕ} {calls : List (Json × Option Fault)}
    (hcalls : ∀ call ∈ calls, Unglued library call.1) {left buffer : List Char}
    (hleft : Starts left) (hbuffer : Starts buffer) :
    (cut left (written library closing buffer calls)).1.mapM (readLine library) =
        some (succeeded calls) ↔
      recoverable library closing left buffer calls := by
  induction calls generalizing left buffer with
  | nil =>
    simp only [recoverable, decide_eq_true_eq]
    rw [← cut_fst_eq_nil_iff left, written]
    constructor
    · intro h
      exact List.length_eq_zero_iff.mp (length_of_mapM h)
    · intro h
      rw [h]
      rfl
  | cons call calls ih =>
    obtain ⟨event, fault⟩ := call
    have hevent : Unglued library event := hcalls (event, fault) List.mem_cons_self
    have hrest : ∀ call ∈ calls, Unglued library call.1 :=
      fun call hm => hcalls call (List.mem_cons_of_mem _ hm)
    cases fault with
    | none =>
      have hih := ih hrest .nil .nil
      have hsucceeded : succeeded ((event, none) :: calls) = event :: succeeded calls := rfl
      rw [hsucceeded, written]
      simp only [recoverable, Bool.and_eq_true, decide_eq_true_eq]
      rw [← hih]
      have hcut (hnone : '\n' ∉ buffer) :
          (cut left (buffer ++ line library event ++ written library closing [] calls)).1 =
            (left ++ buffer ++ (library.dump event).toList) ::
              (cut [] (written library closing [] calls)).1 := by
        have hjoined : buffer ++ line library event ++ written library closing [] calls =
            (buffer ++ (library.dump event).toList) ++
              '\n' :: written library closing [] calls := by
          simp [line]
        have hline : '\n' ∉ buffer ++ (library.dump event).toList := by
          rw [List.mem_append, not_or]
          exact ⟨hnone, hevent.oneLine⟩
        rw [hjoined, cut_line hline, List.append_assoc]
      constructor
      · intro hread
        rw [hcut (not_mem_buffer_of_mapM hevent.oneLine hread), mapM_readLine_cons_iff,
          hevent.readLine_append (hleft.append hbuffer)] at hread
        obtain ⟨hfirst, hothers⟩ := hread
        split_ifs at hfirst with hempty
        exact ⟨List.append_eq_nil_iff.mp hempty, hothers⟩
      · rintro ⟨⟨rfl, rfl⟩, hothers⟩
        rw [hcut List.not_mem_nil, mapM_readLine_cons_iff]
        exact ⟨hevent.readLine, hothers⟩
    | some fault =>
      have hsent := (hbuffer.append hevent.starts_line).take fault.written
      have hkept := hbuffer.append (hevent.starts_line.take fault.kept)
      have hih := ih hrest (hleft.append hsent) hkept
      have hsucceeded : succeeded ((event, some fault) :: calls) = succeeded calls := rfl
      rw [hsucceeded, written]
      simp only [recoverable, Bool.and_eq_true, decide_eq_true_eq]
      rw [← hih]
      have hcut (hnone : '\n' ∉ (buffer ++ line library event).take fault.written)
          (rest : List Char) :
          cut left ((buffer ++ line library event).take fault.written ++ rest) =
            cut (left ++ (buffer ++ line library event).take fault.written) rest := by
        rw [cut_append, cut_of_not_mem hnone]
        rfl
      constructor
      · intro hread
        have hnone := not_mem_of_mapM hread
        rw [hcut hnone] at hread
        exact ⟨hnone, hread⟩
      · rintro ⟨hnone, hread⟩
        rw [hcut hnone]
        exact hread

/-- A sequence of appends stays replayable, with exactly the events whose append returned success,
if and only if no successful append finds a part of a line in the file or bytes in the buffer, and
no line break is carried into the file by a failed append or by the close. -/
theorem replay_appendRun_iff (library : Json.Library) (path : String) (closing : ℕ)
    {calls : List (Json × Option Fault)} (hcalls : ∀ call ∈ calls, Unglued library call.1) :
    (∃ stats file, replay library path {}
        (some ((appendRun library (opened path) calls).1.close closing).content) =
          ⟨(appendRun library (opened path) calls).2, .ok stats, file⟩) ↔
      recoverable library closing [] [] calls := by
  obtain ⟨hcontent, hwritten⟩ := appendRun_spec library closing (isOpen_opened path) calls
  have hnone : '\n' ∉ ([] : List Char) := List.not_mem_nil
  obtain ⟨hlines, htail⟩ := not_mem_cut hnone (written library closing [] calls)
  have hreplay := replay_lines library path hlines htail
  have hsame := cut_eq [] (written library closing [] calls)
  rw [← hsame, List.nil_append] at hreplay
  have hfile : ((appendRun library (opened path) calls).1.close closing).content =
      written library closing [] calls := hcontent
  rw [hfile, hwritten, ← mapM_readLine_written_iff hcalls .nil .nil]
  cases hall : (cut [] (written library closing [] calls)).1.mapM (readLine library) with
  | none =>
    rw [hall] at hreplay
    obtain ⟨delivered, lineNumber, heq⟩ := hreplay
    rw [heq]
    simp
  | some events =>
    rw [hall] at hreplay
    rw [hreplay]
    simp

theorem unglued_of_length {event : Json} (h : RoundTrips pairLibrary event)
    (hbrace : (pairLibrary.dump event).toList.head? = some '\x7b')
    (hlength : (pairLibrary.dump event).toList.length = 12) : Unglued pairLibrary event where
  toRoundTrips := h
  brace := hbrace
  unglued left hleft := by
    have hlonger : (left ++ (pairLibrary.dump event).toList).length ≠ 12 := by
      obtain ⟨rest, rfl⟩ := List.head?_eq_some_iff.mp hleft
      rw [List.length_append, hlength]
      simp
    have hne (text : String) (htext : text.toList.length = 12) :
        String.ofList (left ++ (pairLibrary.dump event).toList) ≠ text := by
      rintro rfl
      rw [String.toList_ofList] at htext
      exact hlonger htext
    have hparse : pairLibrary.parse (String.ofList (left ++ (pairLibrary.dump event).toList)) =
        none := (if_neg (hne textA rfl)).trans (if_neg (hne textB rfl))
    rw [readLine, hparse]
    rfl

private theorem unglued_pair {calls : List (Json × Option Fault)}
    (h : ∀ call ∈ calls, call.1 = eventA ∨ call.1 = eventB) :
    ∀ call ∈ calls, Unglued pairLibrary call.1 := by
  intro call hm
  rcases h call hm with he | he
  · rw [he]
    exact unglued_of_length roundTrips_eventA rfl rfl
  · rw [he]
    exact unglued_of_length roundTrips_eventB rfl rfl

/-- The disk is full from the second append on, and still when the log is closed. -/
def fullDisk : List (Json × Option Fault) :=
  [(eventA, none), (eventB, some ⟨5, 13⟩), (eventA, some ⟨0, 13⟩)]

theorem replay_appendRun_iff_fullDisk : ∃ stats file, replay pairLibrary "log" {}
    (some ((appendRun pairLibrary (opened "log") fullDisk).1.close 3).content) =
      ⟨[eventA], .ok stats, file⟩ := by
  refine (replay_appendRun_iff pairLibrary "log" 3 (unglued_pair fun call hm => ?_)).mpr (by decide)
  simp only [fullDisk, List.mem_cons, List.not_mem_nil, or_false] at hm
  rcases hm with rfl | rfl | rfl
  · exact .inl rfl
  · exact .inr rfl
  · exact .inl rfl

/-- One append fails after some bytes of its line, and the next one finds room again. -/
def roomAgain (written : ℕ) : List (Json × Option Fault) :=
  [(eventA, none), (eventB, some ⟨written, 13⟩), (eventA, none)]

/-- Both appends of the first event returned success. After five bytes of the failed line the log
cannot be replayed; after none of them the replay delivers the event whose append failed. -/
theorem replay_corrupt_after_failed_append :
    (∀ written, (appendRun pairLibrary (opened "log") (roomAgain written)).2 = [eventA, eventA]) ∧
      (∃ delivered lineNumber file, replay pairLibrary "log" {}
        (some ((appendRun pairLibrary (opened "log") (roomAgain 5)).1.close 0).content) =
          ⟨delivered, .error (corruptError "log" lineNumber), file⟩) ∧
      (∃ stats file, replay pairLibrary "log" {}
        (some ((appendRun pairLibrary (opened "log") (roomAgain 0)).1.close 0).content) =
          ⟨[eventA, eventB, eventA], .ok stats, file⟩) ∧
      ¬ ∃ stats file, replay pairLibrary "log" {}
        (some ((appendRun pairLibrary (opened "log") (roomAgain 5)).1.close 0).content) =
          ⟨[eventA, eventA], .ok stats, file⟩ := by
  have hnone : '\n' ∉ ([] : List Char) := List.not_mem_nil
  have hglued : ∀ text ∈ [textA.toList, textB.toList.take 5 ++ textB.toList, textA.toList],
      '\n' ∉ text := by decide
  have hreplay := replay_lines pairLibrary "log" hglued hnone
  have hcorrupt : [textA.toList, textB.toList.take 5 ++ textB.toList, textA.toList].mapM
      (readLine pairLibrary) = none := rfl
  rw [hcorrupt] at hreplay
  obtain ⟨delivered, lineNumber, heq⟩ := hreplay
  have hwhole : ∀ text ∈ [textA.toList, textB.toList, textA.toList], '\n' ∉ text := by decide
  have hlate := replay_lines pairLibrary "log" hwhole hnone
  refine ⟨fun _ => rfl, ⟨delivered, lineNumber, _, heq⟩, ⟨_, _, hlate⟩, ?_⟩
  rintro ⟨stats, file, hok⟩
  have hboth := heq.symm.trans hok
  cases congrArg Replayed.result hboth

/-! ### The log as the order management system sees it -/

def fateOf (bytes : List Char) : Option Fault → Fate
  | none => .written
  | some ⟨0, 0⟩ => .lost
  | some fault => .held (cut [] (bytes.take fault.written)).1.length
      ((cut [] (bytes.take fault.written)).2 ≠ [])

theorem fateOf_of_ne (bytes : List Char) {failed : Fault} (h : failed ≠ ⟨0, 0⟩) :
    fateOf bytes (some failed) = .held (cut [] (bytes.take failed.written)).1.length
      ((cut [] (bytes.take failed.written)).2 ≠ []) := by
  unfold fateOf
  split
  · rename_i he
    cases he
  · rename_i he
    exact absurd (Option.some.inj he) h
  · rename_i he
    rw [Option.some.inj he]

/-- The buffer had room for the line, or the line is lost. -/
def Buffers (library : Json.Library) (event : Json) (failed : Fault) : Prop :=
  (line library event).length ≤ failed.kept ∨ failed = ⟨0, 0⟩

/-- The text is whole lines and a part of one. The readable lines are the events. -/
def Reads (library : Json.Library) (content : List Char) (events : List Json)
    (torn corrupt : Bool) : Prop :=
  ∃ lines left, content = terminated lines ++ left ∧ (∀ text ∈ lines, '\n' ∉ text) ∧
    '\n' ∉ left ∧ Starts left ∧ (torn ↔ left ≠ []) ∧
    lines.filterMap (readLine library) = events ∧
    (corrupt ↔ ∃ text ∈ lines, readLine library text = none)

structure Refines (library : Json.Library) (file : LogFile) (log : EventLog) : Prop where
  path : file.path = log.path
  isOpen : file.isOpen = log.isOpen
  buffer : file.buffer = terminated (texts library log.buffer)
  unglued : ∀ event ∈ log.buffer, Unglued library event
  content : Reads library file.content log.events log.torn log.corrupt

theorem terminated_texts_cons (library : Json.Library) (event : Json) (events : List Json) :
    terminated (texts library (event :: events)) =
      (library.dump event).toList ++ '\n' :: terminated (texts library events) := by
  simp [terminated, texts]

/-- The first bytes of some lines are whole lines and a part of the next. -/
theorem take_terminated {events : List Json} (h : ∀ event ∈ events, Unglued library event) (n : ℕ) :
    ∃ whole left, whole ≤ events.length ∧ '\n' ∉ left ∧ Starts left ∧
      cut [] ((terminated (texts library events)).take n) =
        (texts library (events.take whole), left) := by
  induction events generalizing n with
  | nil => exact ⟨0, [], Nat.le_refl 0, List.not_mem_nil, .nil, by simp [texts, terminated, cut]⟩
  | cons event events ih =>
    have hevent := h event List.mem_cons_self
    rw [terminated_texts_cons]
    by_cases hpart : n ≤ (library.dump event).toList.length
    · have hline : '\n' ∉ (library.dump event).toList.take n :=
        fun hm => hevent.oneLine (List.mem_of_mem_take hm)
      refine ⟨0, (library.dump event).toList.take n, Nat.zero_le _, hline,
        hevent.starts_dump.take n, ?_⟩
      rw [List.take_append_of_le_length hpart, cut_of_not_mem hline]
      rfl
    · obtain ⟨m, rfl⟩ : ∃ m, n = (library.dump event).toList.length + (m + 1) :=
        ⟨n - (library.dump event).toList.length - 1, by omega⟩
      obtain ⟨whole, left, hwhole, hleft, hstarts, hcut⟩ :=
        ih (fun e hm => h e (List.mem_cons_of_mem event hm)) m
      refine ⟨whole + 1, left, Nat.succ_le_succ hwhole, hleft, hstarts, ?_⟩
      rw [List.take_length_add_append, List.take_succ_cons, cut_line hevent.oneLine, hcut]
      rfl

theorem filterMap_readLine_texts {events : List Json}
    (h : ∀ event ∈ events, RoundTrips library event) :
    (texts library events).filterMap (readLine library) = events := by
  induction events with
  | nil => rfl
  | cons event events ih =>
    have hread := (h event List.mem_cons_self).readLine
    rw [texts, List.map_cons, List.filterMap_cons_some hread, ← texts,
      ih fun e hm => h e (List.mem_cons_of_mem event hm)]

theorem Reads.receive {content : List Char} {log : EventLog}
    (h : Reads library content log.events log.torn log.corrupt) {events : List Json}
    (hevents : ∀ event ∈ events, Unglued library event) {left : List Char} (hleft : '\n' ∉ left)
    (hstarts : Starts left) :
    Reads library (content ++ (terminated (texts library events) ++ left))
      (log.receive events).events (left ≠ [] || (log.torn && events.isEmpty))
      (log.receive events).corrupt := by
  obtain ⟨lines, old, rfl, hlines, hold, holdStarts, htorn, hread, hcorrupt⟩ := h
  cases events with
  | nil =>
    refine ⟨lines, old ++ left, by simp [texts, terminated], hlines, ?_, holdStarts.append hstarts,
      ?_, ?_, ?_⟩
    · rw [List.mem_append, not_or]
      exact ⟨hold, hleft⟩
    · simp only [List.isEmpty_nil, Bool.and_true, Bool.or_eq_true, decide_eq_true_eq, htorn, ne_eq,
        List.append_eq_nil_iff, not_and_or, or_comm]
    · simp [EventLog.receive, hread]
    · simp [EventLog.receive, hcorrupt]
  | cons event events =>
    have hevent := hevents event List.mem_cons_self
    have hrest : ∀ e ∈ events, RoundTrips library e :=
      fun e hm => (hevents e (List.mem_cons_of_mem event hm)).toRoundTrips
    have hglued := hevent.readLine_append holdStarts
    refine ⟨lines ++ (old ++ (library.dump event).toList) :: texts library events, left, ?_, ?_,
      hleft, hstarts, by simp, ?_, ?_⟩
    · rw [terminated_texts_cons, terminated_append]
      simp [terminated]
    · intro text hm
      rcases List.mem_append.mp hm with hm | hm
      · exact hlines text hm
      · rcases List.mem_cons.mp hm with rfl | hm
        · rw [List.mem_append, not_or]
          exact ⟨hold, hevent.oneLine⟩
        · obtain ⟨e, he, rfl⟩ := List.mem_map.mp hm
          exact (hrest e he).oneLine
    · rw [List.filterMap_append, hread, EventLog.events_receive]
      congr 1
      by_cases hempty : old = []
      · have htorn' : log.torn = false := by simpa [hempty] using htorn
        rw [if_pos hempty] at hglued
        rw [List.filterMap_cons_some hglued, filterMap_readLine_texts hrest, htorn']
        rfl
      · have htorn' : log.torn = true := htorn.mpr hempty
        rw [if_neg hempty] at hglued
        rw [List.filterMap_cons_none hglued, filterMap_readLine_texts hrest, htorn']
        rfl
    · have hreadable : ∀ text ∈ texts library events, readLine library text ≠ none := by
        intro text hm
        obtain ⟨e, he, rfl⟩ := List.mem_map.mp hm
        rw [(hrest e he).readLine]
        exact Option.some_ne_none e
      have hnone : readLine library (old ++ (library.dump event).toList) = none ↔ log.torn := by
        rw [hglued, htorn]
        split_ifs with hempty <;> simp [hempty]
      simp only [EventLog.receive, List.isEmpty_cons, Bool.not_false, Bool.and_true,
        Bool.or_eq_true, hcorrupt, List.mem_append, List.mem_cons]
      constructor
      · rintro (⟨text, hm, hn⟩ | ht)
        · exact ⟨text, .inl hm, hn⟩
        · exact ⟨_, .inr (.inl rfl), hnone.mpr ht⟩
      · rintro ⟨text, hm | rfl | hm, hn⟩
        · exact .inl ⟨text, hm, hn⟩
        · exact .inr (hnone.mp hn)
        · exact absurd hn (hreadable text hm)

theorem texts_append (library : Json.Library) (events events' : List Json) :
    texts library (events ++ events') = texts library events ++ texts library events' :=
  List.map_append

theorem Reads.take {content : List Char} {log : EventLog}
    (h : Reads library content log.events log.torn log.corrupt) {events : List Json}
    (hevents : ∀ event ∈ events, Unglued library event) (written : ℕ) :
    ∃ whole left, cut [] ((terminated (texts library events)).take written) =
        (texts library (events.take whole), left) ∧ whole ≤ events.length ∧
      Reads library (content ++ (terminated (texts library events)).take written)
        (log.receive (events.take whole)).events
        (left ≠ [] || (log.torn && (events.take whole).isEmpty))
        (log.receive (events.take whole)).corrupt := by
  obtain ⟨whole, left, hwhole, hleft, hstarts, hcut⟩ := take_terminated hevents written
  have hbytes := cut_eq [] ((terminated (texts library events)).take written)
  rw [List.nil_append, hcut] at hbytes
  refine ⟨whole, left, hcut, hwhole, ?_⟩
  rw [hbytes]
  exact h.receive (fun event hm => hevents event (List.mem_of_mem_take hm)) hleft hstarts

theorem length_fst_cut {events : List Json} {whole : ℕ} {bytes left : List Char}
    (h : cut [] bytes = (texts library (events.take whole), left))
    (hwhole : whole ≤ events.length) :
    (cut [] bytes).1.length = whole := by
  rw [h, texts, List.length_map, List.length_take, Nat.min_eq_left hwhole]

private theorem Refines.append_open {file : LogFile} {log : EventLog} (h : Refines library file log)
    (hopen : log.isOpen) {event : Json} (hevent : Unglued library event) {fault : Option Fault}
    (hbuffers : ∀ failed ∈ fault, Buffers library event failed)
    (hfate : log.fate log.attempts = fateOf (file.buffer ++ line library event) fault) :
    Refines library (LogFile.append library file event fault).1 (log.append event).1 ∧
      (LogFile.append library file event fault).2 = (log.append event).2 := by
  have hopen' : file.isOpen = true := h.isOpen.trans hopen
  have hbytes : file.buffer ++ line library event =
      terminated (texts library (log.buffer ++ [event])) := by
    rw [h.buffer, texts_append, terminated_append]
    simp [line, texts, terminated]
  have hunglued : ∀ e ∈ log.buffer ++ [event], Unglued library e := by
    intro e hm
    rcases List.mem_append.mp hm with hm | hm
    · exact h.unglued e hm
    · rw [List.mem_singleton.mp hm]
      exact hevent
  have hwhole : (log.buffer ++ [event]).isEmpty = false := by simp
  cases fault with
  | none =>
    have hfate : log.fate log.attempts = .written := hfate
    have hreads := h.content.receive hunglued (List.not_mem_nil (a := '\n')) .nil
    rw [List.append_nil, ← hbytes, hwhole, Bool.and_false] at hreads
    simp only [LogFile.append, EventLog.append, hfate, Fate.carried, hopen, hopen',
      Bool.not_true, Bool.false_eq_true, if_false]
    exact ⟨⟨h.path, hopen.symm, rfl, fun _ hm => (by cases hm), hreads⟩, trivial⟩
  | some failed =>
    by_cases hlost : failed = ⟨0, 0⟩
    · rw [hlost] at hfate ⊢
      have hfate : log.fate log.attempts = .lost := hfate
      have hnone : ∀ e ∈ ([] : List Json), Unglued library e := fun _ hm => by cases hm
      have hreads := h.content.receive hnone (List.not_mem_nil (a := '\n')) .nil
      have htorn : (decide (([] : List Char) ≠ []) || (log.torn && ([] : List Json).isEmpty)) =
          log.torn := Bool.and_true _
      rw [htorn, texts, List.map_nil] at hreads
      simp only [LogFile.append, EventLog.append, hfate, Fate.carried, hopen, hopen', h.path,
        Bool.not_true, Bool.false_eq_true, if_false, List.take_zero, List.append_nil]
      refine ⟨⟨rfl, hopen.symm, h.buffer, h.unglued, ?_⟩, trivial⟩
      rw [terminated, List.flatMap_nil, List.append_nil, List.append_nil] at hreads
      exact hreads
    · obtain ⟨whole, left, hcut, hle, hreads⟩ := h.content.take hunglued failed.written
      rw [← hbytes] at hcut hreads
      have hkept : (line library event).take failed.kept = line library event :=
        List.take_of_length_le ((hbuffers failed rfl).resolve_right hlost)
      rw [fateOf_of_ne _ hlost, length_fst_cut hcut hle, hcut] at hfate
      have hempty : ((log.buffer ++ [event]).take whole).isEmpty = decide (whole = 0) := by
        rw [Bool.eq_iff_iff, List.isEmpty_iff, decide_eq_true_iff]
        simp [List.take_eq_nil_iff]
      rw [hempty] at hreads
      simp only [LogFile.append, EventLog.append, hfate, Fate.carried, hopen, hopen', hkept, h.path,
        Bool.not_true, Bool.false_eq_true, if_false]
      exact ⟨⟨rfl, hopen.symm, hbytes, hunglued, hreads⟩, trivial⟩

theorem Refines.append {file : LogFile} {log : EventLog} (h : Refines library file log)
    {event : Json} (hevent : Unglued library event) {fault : Option Fault}
    (hbuffers : ∀ failed ∈ fault, Buffers library event failed)
    (hfate : log.fate log.attempts = fateOf (file.buffer ++ line library event) fault) :
    Refines library (LogFile.append library file event fault).1 (log.append event).1 ∧
      (LogFile.append library file event fault).2 = (log.append event).2 := by
  by_cases hopen : log.isOpen
  · exact h.append_open hopen hevent hbuffers hfate
  · have hclosed := Bool.eq_false_iff.mpr hopen
    have hclosed' : file.isOpen = false := h.isOpen.trans hclosed
    simp only [LogFile.append, EventLog.append, hclosed, hclosed', h.path, Bool.not_false, if_true]
    exact ⟨h, trivial⟩

theorem Refines.close {file : LogFile} {log : EventLog} (h : Refines library file log)
    (hopen : log.isOpen) {closing : ℕ}
    (hfate : log.fate log.attempts = fateOf file.buffer (some ⟨closing, 1⟩)) :
    ∃ torn, Reads library (file.close closing).content log.close.events torn log.close.corrupt := by
  obtain ⟨whole, left, hcut, hle, hreads⟩ := h.content.take h.unglued closing
  rw [← h.buffer] at hcut hreads
  have hne : (⟨closing, 1⟩ : Fault) ≠ ⟨0, 0⟩ := by simp
  rw [fateOf_of_ne _ hne, length_fst_cut hcut hle] at hfate
  have hclose : log.close = log.receive (log.buffer.take whole) := by
    simp only [EventLog.close, hopen, if_true, hfate, Fate.carried]
  rw [hclose]
  exact ⟨_, hreads⟩

theorem mapM_readLine_eq {lines : List (List Char)}
    (h : ∀ text ∈ lines, readLine library text ≠ none) :
    lines.mapM (readLine library) = some (lines.filterMap (readLine library)) := by
  induction lines with
  | nil => rfl
  | cons text lines ih =>
    obtain ⟨event, hread⟩ := Option.ne_none_iff_exists'.mp (h text List.mem_cons_self)
    rw [List.mapM_cons, hread, ih fun other hm => h other (List.mem_cons_of_mem text hm),
      List.filterMap_cons_some hread]
    rfl

theorem mapM_readLine_eq_none {lines : List (List Char)} {text : List Char} (hm : text ∈ lines)
    (h : readLine library text = none) : lines.mapM (readLine library) = none := by
  induction lines with
  | nil => cases hm
  | cons first lines ih =>
    rw [List.mapM_cons]
    rcases List.mem_cons.mp hm with rfl | hm
    · rw [h]
      rfl
    · rw [ih hm]
      cases readLine library first <;> rfl

/-- A replay of what the log stands for delivers its events and cuts off a part of a line, unless a
line is unreadable; then it fails. -/
theorem Reads.replay {content : List Char} {events : List Json} {torn corrupt : Bool}
    (h : Reads library content events torn corrupt) (path : String) :
    (corrupt → ∃ delivered lineNumber, replay library path {} (some content) =
      ⟨delivered, .error (corruptError path lineNumber), some content⟩) ∧
    (corrupt = false → ∃ kept, replay library path {} (some content) =
        ⟨events, .ok ⟨events.length, torn⟩, some kept⟩ ∧
      Reads library kept events false false) := by
  obtain ⟨lines, left, rfl, hlines, hleft, hstarts, htorn, rfl, hcorrupt⟩ := h
  have hreplay := replay_lines library path hlines hleft
  constructor
  · intro hc
    obtain ⟨text, hm, hnone⟩ := hcorrupt.mp hc
    rw [mapM_readLine_eq_none hm hnone] at hreplay
    exact hreplay
  · intro hc
    have hreadable : ∀ text ∈ lines, readLine library text ≠ none := by
      intro text hm hnone
      rw [hcorrupt.mpr ⟨text, hm, hnone⟩] at hc
      cases hc
    rw [mapM_readLine_eq hreadable] at hreplay
    have hdecide : decide (left ≠ []) = torn := by
      rw [Bool.eq_iff_iff, decide_eq_true_iff]
      exact htorn.symm
    rw [hdecide] at hreplay
    refine ⟨terminated lines, hreplay, lines, [], (List.append_nil _).symm, hlines,
      List.not_mem_nil, .nil, by simp, rfl, ?_⟩
    simpa using hreadable

def fatesOf (library : Json.Library) : LogFile → List (Json × Option Fault) → List Fate
  | _, [] => []
  | file, (event, fault) :: calls =>
    fateOf (file.buffer ++ line library event) fault ::
      fatesOf library (append library file event fault).1 calls

theorem Refines.run {file : LogFile} {log : EventLog} (h : Refines library file log)
    (hopen : log.isOpen) {calls : List (Json × Option Fault)}
    (hcalls : ∀ call ∈ calls, Unglued library call.1 ∧
      ∀ failed ∈ call.2, Buffers library call.1 failed)
    (hfates : ∀ i fate, (fatesOf library file calls)[i]? = some fate →
      log.fate (log.attempts + i) = fate) :
    Refines library (appendRun library file calls).1 (log.appendAll (calls.map Prod.fst)) := by
  induction calls generalizing file log with
  | nil => exact h
  | cons call calls ih =>
    obtain ⟨event, fault⟩ := call
    obtain ⟨hevent, hbuffers⟩ := hcalls (event, fault) List.mem_cons_self
    obtain ⟨hnext, -⟩ := h.append hevent hbuffers (hfates 0 _ rfl)
    have hopen' : (log.append event).1.isOpen := (log.isOpen_append event).trans hopen
    refine ih hnext hopen' (fun call hm => hcalls call (List.mem_cons_of_mem _ hm)) ?_
    intro i fate hi
    rw [EventLog.fate_append, EventLog.attempts_append_of_open hopen, Nat.add_assoc,
      Nat.add_comm 1 i]
    exact hfates (i + 1) fate hi

/-- On a new file, whatever appends fail: a replay delivers the events of the abstract log, unless
one of its lines is unreadable. -/
theorem replay_refines (library : Json.Library) {log : EventLog} (hopen : log.isOpen)
    (hnew : log.events = [] ∧ log.buffer = [] ∧ log.corrupt = false)
    {calls : List (Json × Option Fault)}
    (hcalls : ∀ call ∈ calls, Unglued library call.1 ∧
      ∀ failed ∈ call.2, Buffers library call.1 failed)
    (hfates : ∀ i fate, (fatesOf library (opened log.path) calls)[i]? = some fate →
      log.fate (log.attempts + i) = fate) :
    let after := log.appendAll (calls.map Prod.fst)
    let content := (appendRun library (opened log.path) calls).1.content
    (after.corrupt → ∃ delivered lineNumber, replay library log.path {} (some content) =
        ⟨delivered, .error (corruptError log.path lineNumber), some content⟩) ∧
      (after.corrupt = false → ∃ kept, replay library log.path {} (some content) =
        ⟨after.events, .ok ⟨after.events.length, after.torn⟩, some kept⟩) := by
  obtain ⟨hevents, hbuffer, hcorrupt⟩ := hnew
  have htorn : log.torn = false := by
    rw [Bool.eq_false_iff]
    exact fun ht => log.buffer_of_torn ht hbuffer
  have hstart : Refines library (opened log.path) log := by
    refine ⟨rfl, hopen.symm, by rw [hbuffer]; rfl, ?_, [], [], rfl, ?_, List.not_mem_nil, .nil, ?_⟩
    · intro event hm
      rw [hbuffer] at hm
      cases hm
    · intro _ hm
      cases hm
    · simp [hevents, htorn, hcorrupt]
  have hreads := (hstart.run hopen hcalls hfates).content
  obtain ⟨hbad, hgood⟩ := hreads.replay log.path
  refine ⟨hbad, fun hreadable => ?_⟩
  obtain ⟨kept, hreplay, -⟩ := hgood hreadable
  exact ⟨kept, hreplay⟩

end LogFile

end ExchangeGateway
