import ExchangeGateway.Core.EventLog

/-! The event log as a file (`core/event_log.cpp`). A string stands for its bytes, one character
each. An append writes one line and what earlier ones left in the buffer of the stream. Replay scans
the file with three cursors and cuts a torn tail off. -/
namespace ExchangeGateway

structure ReplayStats where
  events : ℕ := 0
  /-- A torn tail line was dropped and the file truncated. -/
  tailTruncated : Bool := false
  deriving DecidableEq, Repr

/-- How the file system treats a replay. -/
structure ReplayIo where
  opens : Bool := true
  reads : Bool := true
  /-- The error of `resize_file`. -/
  resizeError : Option String := none
  deriving DecidableEq, Repr

/-- The outcome of a replay: the events handed to the sink, the result, the file afterwards. -/
structure Replayed where
  delivered : List Json
  result : Result ReplayStats
  file : Option (List Char)

structure LogFile where
  path : String
  isOpen : Bool
  content : List Char
  /-- Bytes that the stream has taken and not yet written. -/
  buffer : List Char := []
  deriving DecidableEq, Repr

/-- A write that fails. Of the bytes in the buffer and of the line, `written` reach the file. The
buffer keeps what it had and takes `kept` bytes of the line: all of them, unless it has no room. -/
structure Fault where
  written : ℕ
  kept : ℕ
  deriving DecidableEq, Repr

namespace LogFile

variable (library : Json.Library)

/-! ### Append -/

def line (event : Json) : List Char := (library.dump event).toList ++ ['\n']

/-- `out_.clear()` clears the error of the stream, not its buffer. -/
def append (file : LogFile) (event : Json) (fault : Option Fault) : LogFile × Option Error :=
  if !file.isOpen then (file, some ⟨"io", "event log is not open: " ++ file.path⟩)
  else
    let bytes := file.buffer ++ line library event
    match fault with
    | none => ({ file with content := file.content ++ bytes, buffer := [] }, none)
    | some fault =>
      ({ file with
          content := file.content ++ bytes.take fault.written
          buffer := file.buffer ++ (line library event).take fault.kept },
        some ⟨"io", "failed to append to event log: " ++ file.path⟩)

/-- The stream is closed, which writes bytes of its buffer, or lost in a crash. -/
def close (file : LogFile) (written : ℕ) : LogFile :=
  { file with
    isOpen := false
    content := file.content ++ file.buffer.take written
    buffer := [] }

/-! ### Replay -/

structure Scan where
  stats : ReplayStats := {}
  goodOffset : ℕ := 0
  lineNumber : ℕ := 0
  position : ℕ := 0
  delivered : List Json := []

/-- `content.find('\n', position)` -/
def findNewline (content : List Char) (position : ℕ) : Option ℕ :=
  ((content.drop position).findIdx? (· = '\n')).map (position + ·)

theorem le_findNewline {content : List Char} {position newline : ℕ}
    (h : findNewline content position = some newline) : position ≤ newline := by
  obtain ⟨offset, -, rfl⟩ := Option.map_eq_some_iff.mp h
  omega

def corruptError (path : String) (lineNumber : ℕ) : Error :=
  ⟨"persistence", "corrupt event log: line " ++ toString lineNumber ++ " of " ++ path ++
    " is not a JSON object"⟩

/-- The loop over the lines. -/
def scanLines (path : String) (content : List Char) (scan : Scan) : Scan × Option Error :=
  if _h : scan.position < content.length then
    let scan' := { scan with lineNumber := scan.lineNumber + 1 }
    match _hnewline : findNewline content scan.position with
    | none => ({ scan' with stats.tailTruncated := true }, none)
    | some newline =>
      let text := (content.drop scan.position).take (newline - scan.position)
      match library.parse (String.ofList text) with
      | none => (scan', some (corruptError path scan'.lineNumber))
      | some event =>
        if !event.isObject then (scan', some (corruptError path scan'.lineNumber))
        else
          scanLines path content
            { scan' with
              delivered := scan.delivered ++ [event]
              stats.events := scan.stats.events + 1
              position := newline + 1
              goodOffset := newline + 1 }
  else (scan, none)
termination_by content.length - scan.position
decreasing_by
  have := le_findNewline _hnewline
  omega

def replay (path : String) (io : ReplayIo) : Option (List Char) → Replayed
  | none => ⟨[], .ok {}, none⟩
  | some content =>
    if !io.opens then
      ⟨[], .error ⟨"io", "cannot open event log for replay: " ++ path⟩, some content⟩
    else if !io.reads then
      ⟨[], .error ⟨"io", "failed while reading event log: " ++ path⟩, some content⟩
    else
      match scanLines library path content {} with
      | (scan, some error) => ⟨scan.delivered, .error error, some content⟩
      | (scan, none) =>
        if scan.stats.tailTruncated then
          match io.resizeError with
          | some message =>
            ⟨scan.delivered, .error ⟨"io", "cannot truncate torn event log tail: " ++ message⟩,
              some content⟩
          | none => ⟨scan.delivered, .ok scan.stats, some (content.take scan.goodOffset)⟩
        else ⟨scan.delivered, .ok scan.stats, some content⟩

/-! ### The scan, line by line -/

/-- The text of whole lines. -/
def terminated (lines : List (List Char)) : List Char := lines.flatMap (· ++ ['\n'])

def readLine (text : List Char) : Option Json :=
  (library.parse (String.ofList text)).filter Json.isObject

variable {library} {path : String} {content : List Char} {scan : Scan}

theorem findNewline_of_drop {position : ℕ} {text rest : List Char}
    (hdrop : content.drop position = text ++ '\n' :: rest) (htext : '\n' ∉ text) :
    findNewline content position = some (position + text.length) := by
  have hnone : text.findIdx? (· = '\n') = none := by
    rw [List.findIdx?_eq_none_iff]
    intro c hm
    simp only [decide_eq_false_iff_not]
    rintro rfl
    exact htext hm
  simp [findNewline, hdrop, List.findIdx?_append, hnone, List.findIdx?_cons]

theorem findNewline_of_tail {position : ℕ} (htail : '\n' ∉ content.drop position) :
    findNewline content position = none := by
  rw [findNewline, Option.map_eq_none_iff, List.findIdx?_eq_none_iff]
  intro c hm
  simp only [decide_eq_false_iff_not]
  rintro rfl
  exact htail hm

def Scan.accept (scan : Scan) (event : Json) (length : ℕ) : Scan where
  stats := { scan.stats with events := scan.stats.events + 1 }
  goodOffset := scan.position + length + 1
  lineNumber := scan.lineNumber + 1
  position := scan.position + length + 1
  delivered := scan.delivered ++ [event]

theorem scanLines_line {text rest : List Char}
    (hdrop : content.drop scan.position = text ++ '\n' :: rest) (htext : '\n' ∉ text) :
    scanLines library path content scan =
      match readLine library text with
      | none => ({ scan with lineNumber := scan.lineNumber + 1 },
          some (corruptError path (scan.lineNumber + 1)))
      | some event => scanLines library path content (scan.accept event text.length) := by
  have hlt : scan.position < content.length := by
    by_contra hge
    rw [List.drop_eq_nil_of_le (by omega)] at hdrop
    simp at hdrop
  have hnewline := findNewline_of_drop hdrop htext
  have htake : (content.drop scan.position).take (scan.position + text.length - scan.position) =
      text := by
    rw [hdrop, Nat.add_sub_cancel_left, List.take_left]
  rw [scanLines, dif_pos hlt]
  simp only [readLine]
  split
  · rename_i hnone
    rw [hnewline] at hnone
    cases hnone
  · rename_i newline hsome
    obtain rfl := Option.some.inj (hnewline.symm.trans hsome)
    rw [htake]
    cases library.parse (String.ofList text) with
    | none => rfl
    | some event =>
      cases hobject : event.isObject with
      | false => simp [Option.filter, hobject]
      | true => simp [Option.filter, hobject, Scan.accept]

theorem scanLines_tail (htail : '\n' ∉ content.drop scan.position) :
    scanLines library path content scan =
      if content.drop scan.position = [] then (scan, none)
      else ({ scan with
        lineNumber := scan.lineNumber + 1
        stats.tailTruncated := true }, none) := by
  rw [scanLines]
  by_cases hlt : scan.position < content.length
  · have hne : content.drop scan.position ≠ [] := by
      rw [ne_eq, List.drop_eq_nil_iff]
      omega
    rw [dif_pos hlt, if_neg hne]
    split
    · rfl
    · rename_i newline hsome
      rw [findNewline_of_tail htail] at hsome
      cases hsome
  · rw [dif_neg hlt, if_pos (List.drop_eq_nil_of_le (by omega))]

/-- The scan stands right after the first part of the file, all of it accepted. -/
structure Scan.Passed (scan : Scan) (passed : List Char) : Prop where
  position : scan.position = passed.length
  goodOffset : scan.goodOffset = passed.length
  events : scan.stats.events = scan.delivered.length
  tailTruncated : scan.stats.tailTruncated = false

theorem Scan.Passed.eq {passed : List Char} (h : scan.Passed passed) :
    scan = ⟨⟨scan.delivered.length, false⟩, passed.length, scan.lineNumber, passed.length,
      scan.delivered⟩ := by
  calc scan = ⟨⟨scan.stats.events, scan.stats.tailTruncated⟩, scan.goodOffset, scan.lineNumber,
        scan.position, scan.delivered⟩ := rfl
    _ = _ := by rw [h.events, h.tailTruncated, h.goodOffset, h.position]

/-- Whole lines are delivered in order, up to the first one that is no event. -/
theorem scanLines_lines (library : Json.Library) (path : String) {passed tail : List Char}
    {lines : List (List Char)}
    (hcontent : content = passed ++ terminated lines ++ tail) (hscan : scan.Passed passed)
    (hlines : ∀ text ∈ lines, '\n' ∉ text) (htail : '\n' ∉ tail) :
    match lines.mapM (readLine library) with
    | some events => ∃ lineNumber, scanLines library path content scan =
        ({ stats := ⟨scan.delivered.length + events.length, tail ≠ []⟩
           goodOffset := (passed ++ terminated lines).length
           lineNumber := lineNumber
           position := (passed ++ terminated lines).length
           delivered := scan.delivered ++ events }, none)
    | none => ∃ scan' lineNumber, scanLines library path content scan =
        (scan', some (corruptError path lineNumber)) := by
  induction lines generalizing scan passed with
  | nil =>
    have hdrop : content.drop scan.position = tail := by
      rw [hcontent, hscan.position]
      simp [terminated]
    have hend : '\n' ∉ content.drop scan.position := by
      rw [hdrop]
      exact htail
    rw [List.mapM_nil, scanLines_tail hend, hdrop]
    by_cases hempty : tail = []
    · rw [if_pos hempty]
      refine ⟨scan.lineNumber, Prod.ext (hscan.eq.trans ?_) rfl⟩
      simp [terminated, hempty]
    · rw [if_neg hempty]
      refine ⟨scan.lineNumber + 1, ?_⟩
      simp [terminated, hempty, hscan.position, hscan.goodOffset, hscan.events]
  | cons text lines ih =>
    have htext := hlines text List.mem_cons_self
    have hdrop : content.drop scan.position = text ++ '\n' :: (terminated lines ++ tail) := by
      rw [hcontent, hscan.position]
      simp [terminated]
    rw [List.mapM_cons, scanLines_line hdrop htext]
    cases hread : readLine library text with
    | none => exact ⟨_, _, rfl⟩
    | some event =>
      have hnext : (scan.accept event text.length).Passed (passed ++ (text ++ ['\n'])) := by
        constructor
        · simp [Scan.accept, hscan.position, Nat.add_assoc]
        · simp [Scan.accept, hscan.position, Nat.add_assoc]
        · simp [Scan.accept, hscan.events]
        · exact hscan.tailTruncated
      have hcontent' : content = passed ++ (text ++ ['\n']) ++ terminated lines ++ tail := by
        rw [hcontent]
        simp [terminated]
      have hrest := ih hcontent' hnext fun other hm => hlines other (List.mem_cons_of_mem text hm)
      have hlength : (passed ++ terminated (text :: lines)).length =
          (passed ++ (text ++ ['\n']) ++ terminated lines).length := by simp [terminated]
      cases hall : lines.mapM (readLine library) with
      | none =>
        rw [hall] at hrest
        exact hrest
      | some events =>
        rw [hall] at hrest
        obtain ⟨lineNumber, heq⟩ := hrest
        refine ⟨lineNumber, heq.trans ?_⟩
        rw [hlength]
        simp [Scan.accept, Nat.add_assoc, Nat.add_comm 1]

/-- A replay delivers the events of the whole lines and cuts the tail off, unless a whole line is
no event. -/
theorem replay_lines (library : Json.Library) (path : String) {tail : List Char}
    {lines : List (List Char)} (hlines : ∀ text ∈ lines, '\n' ∉ text) (htail : '\n' ∉ tail) :
    match lines.mapM (readLine library) with
    | some events => replay library path {} (some (terminated lines ++ tail)) =
        ⟨events, .ok ⟨events.length, tail ≠ []⟩, some (terminated lines)⟩
    | none => ∃ delivered lineNumber, replay library path {} (some (terminated lines ++ tail)) =
        ⟨delivered, .error (corruptError path lineNumber), some (terminated lines ++ tail)⟩ := by
  have hcontent : terminated lines ++ tail = [] ++ terminated lines ++ tail := rfl
  have hstart : Scan.Passed {} [] := ⟨rfl, rfl, rfl, rfl⟩
  have hscan := scanLines_lines library path hcontent hstart hlines htail
  cases hall : lines.mapM (readLine library) with
  | none =>
    rw [hall] at hscan
    obtain ⟨scan, lineNumber, heq⟩ := hscan
    exact ⟨scan.delivered, lineNumber, by simp [replay, heq]⟩
  | some events =>
    rw [hall] at hscan
    obtain ⟨lineNumber, heq⟩ := hscan
    simp only [replay, heq, List.nil_append, List.length_nil, Nat.zero_add]
    by_cases hempty : tail = []
    · simp [hempty]
    · simp [hempty]

/-! ### Events that were appended -/

def opened (path : String) : LogFile := ⟨path, true, [], []⟩

theorem isOpen_opened (path : String) : (opened path).isOpen := rfl

def appendAll (library : Json.Library) (file : LogFile) (events : List Json) : LogFile :=
  events.foldl (fun file event => (append library file event none).1) file

/-- What the JSON library guarantees of an event: an object, dumped on one line, that parses back
to itself. -/
structure RoundTrips (library : Json.Library) (event : Json) : Prop where
  object : event.isObject
  oneLine : '\n' ∉ (library.dump event).toList
  parse : library.parse (library.dump event) = some event

def texts (library : Json.Library) (events : List Json) : List (List Char) :=
  events.map fun event => (library.dump event).toList

theorem terminated_append (lines lines' : List (List Char)) :
    terminated (lines ++ lines') = terminated lines ++ terminated lines' := List.flatMap_append

theorem content_appendAll (library : Json.Library) {file : LogFile} (hopen : file.isOpen)
    (hbuffer : file.buffer = []) (events : List Json) :
    (appendAll library file events).isOpen ∧ (appendAll library file events).buffer = [] ∧
      (appendAll library file events).content =
        file.content ++ terminated (texts library events) := by
  induction events generalizing file with
  | nil => exact ⟨hopen, hbuffer, by simp [appendAll, texts, terminated]⟩
  | cons event events ih =>
    have happend : append library file event none =
        ({ file with content := file.content ++ line library event, buffer := [] }, none) := by
      simp [append, hopen, hbuffer]
    have hstep : (append library file event none).1.isOpen := by
      rw [happend]
      exact hopen
    have hempty : (append library file event none).1.buffer = [] := by rw [happend]
    obtain ⟨hopen', hbuffer', hcontent⟩ := ih hstep hempty
    refine ⟨hopen', hbuffer', ?_⟩
    have hcontent : (appendAll library file (event :: events)).content =
        (append library file event none).1.content ++ terminated (texts library events) := hcontent
    rw [hcontent, happend]
    simp [line, texts, terminated]

theorem RoundTrips.readLine {event : Json} (h : RoundTrips library event) :
    readLine library (library.dump event).toList = some event := by
  simp [LogFile.readLine, h.parse, Option.filter, h.object]

theorem mapM_readLine_texts {events : List Json}
    (hevents : ∀ event ∈ events, RoundTrips library event) :
    (texts library events).mapM (readLine library) = some events := by
  induction events with
  | nil => rfl
  | cons event events ih =>
    have hrest := ih fun e hm => hevents e (List.mem_cons_of_mem event hm)
    have hread := (hevents event List.mem_cons_self).readLine
    rw [texts, List.map_cons, List.mapM_cons, hread, ← texts, hrest]
    rfl

theorem replay_texts (path : String) {events : List Json}
    (hevents : ∀ event ∈ events, RoundTrips library event) {tail : List Char}
    (htail : '\n' ∉ tail) :
    replay library path {} (some (terminated (texts library events) ++ tail)) =
      ⟨events, .ok ⟨events.length, tail ≠ []⟩, some (terminated (texts library events))⟩ := by
  have hlines : ∀ text ∈ texts library events, '\n' ∉ text := by
    intro text hm
    obtain ⟨event, hevent, rfl⟩ := List.mem_map.mp hm
    exact (hevents event hevent).oneLine
  have hreplay := replay_lines library path hlines htail
  rw [mapM_readLine_texts hevents] at hreplay
  exact hreplay

/-- Whatever torn bytes follow the appended events: a replay delivers exactly these events, reports
their number and whether it cut something off, and leaves the appended lines; the next replay
delivers the same, and events appended then come after them. -/
theorem replay_appended (library : Json.Library) (path : String) {events : List Json}
    (hevents : ∀ event ∈ events, RoundTrips library event) {tail : List Char}
    (htail : '\n' ∉ tail) :
    replay library path {} (some ((appendAll library (opened path) events).content ++ tail)) =
        ⟨events, .ok ⟨events.length, tail ≠ []⟩,
          some (appendAll library (opened path) events).content⟩ ∧
      replay library path {} (some (appendAll library (opened path) events).content) =
        ⟨events, .ok ⟨events.length, false⟩,
          some (appendAll library (opened path) events).content⟩ ∧
      ∀ more, (∀ event ∈ more, RoundTrips library event) →
        replay library path {} (some (appendAll library
            (appendAll library (opened path) events) more).content) =
          ⟨events ++ more, .ok ⟨events.length + more.length, false⟩,
            some (appendAll library (appendAll library (opened path) events) more).content⟩ := by
  obtain ⟨hopen, hbuffer, hcontent⟩ := content_appendAll library (isOpen_opened path) rfl events
  have hlines : (appendAll library (opened path) events).content =
      terminated (texts library events) := by
    rw [hcontent]
    rfl
  have hnone : '\n' ∉ ([] : List Char) := List.not_mem_nil
  refine ⟨?_, ?_, fun more hmore => ?_⟩
  · rw [hlines]
    exact replay_texts path hevents htail
  · have hreplay := replay_texts path hevents hnone
    rw [List.append_nil] at hreplay
    rw [hlines]
    exact hreplay
  · obtain ⟨-, -, hmoreContent⟩ := content_appendAll library hopen hbuffer more
    have hall : ∀ event ∈ events ++ more, RoundTrips library event := by
      intro event hm
      rcases List.mem_append.mp hm with hm | hm
      · exact hevents event hm
      · exact hmore event hm
    have hreplay := replay_texts path hall hnone
    rw [List.append_nil, List.length_append, texts, List.map_append, terminated_append] at hreplay
    rw [hmoreContent, hlines]
    exact hreplay

/-- Two events and how the library writes them; no other text is JSON. -/
def eventA : Json := .obj [("type", .str "a")]

def eventB : Json := .obj [("type", .str "b")]

def textA : String := "\x7b\"type\":\"a\"\x7d"

def textB : String := "\x7b\"type\":\"b\"\x7d"

def pairLibrary : Json.Library where
  parse text := if text = textA then some eventA else if text = textB then some eventB else none
  dump event := if (event.find? "type").bind Json.string? = some "a" then textA else textB
  truncate _ := 0

theorem roundTrips_eventA : RoundTrips pairLibrary eventA :=
  ⟨rfl, by decide, rfl⟩

theorem roundTrips_eventB : RoundTrips pairLibrary eventB :=
  ⟨rfl, by decide, rfl⟩

/-- One event, a line cut in the middle, then a second event after the replay. -/
theorem replay_appended_torn :
    replay pairLibrary "log" {} (some (textA.toList ++ '\n' :: textB.toList.take 7)) =
        ⟨[eventA], .ok ⟨1, true⟩, some (textA.toList ++ ['\n'])⟩ ∧
      replay pairLibrary "log" {} (some (textA.toList ++ '\n' :: textB.toList ++ ['\n'])) =
        ⟨[eventA, eventB], .ok ⟨2, false⟩, some (textA.toList ++ '\n' :: textB.toList ++ ['\n'])⟩ := by
  have hevents : ∀ event ∈ [eventA], RoundTrips pairLibrary event :=
    fun event hm => List.mem_singleton.mp hm ▸ roundTrips_eventA
  have htail : '\n' ∉ textB.toList.take 7 := by decide
  obtain ⟨hfirst, -, hmore⟩ := replay_appended pairLibrary "log" hevents htail
  have hsecond := hmore [eventB] fun event hm => List.mem_singleton.mp hm ▸ roundTrips_eventB
  exact ⟨hfirst, hsecond⟩

end LogFile

end ExchangeGateway
