import ExchangeGateway.Core.Retry
import ExchangeGateway.Core.RiskExact
import ExchangeGateway.Json

/-! The configuration file (`core/config.cpp`) and the two sections that the core reads itself: the
retry policy (`core/retry.cpp`) and the risk limits (`core/risk.cpp`). The sections of the venues
stay raw JSON. -/
namespace ExchangeGateway

namespace Json

def unsigned? : Json → Option ℕ
  | .unsigned value => some value
  | _ => none

def bool? : Json → Option Bool
  | .bool value => some value
  | _ => none

/-- A field that is read when it is present. -/
def readField {α : Type} (node : Json) (name : String) (default : α) (read : Json → Result α) :
    Result α :=
  match node.find? name with
  | none => .ok default
  | some value => read value

end Json

/-- Every check of a section answers with this code. -/
def protocolError {α : Type} (message : String) : Result α := .error ⟨"protocol", message⟩

/-- A value that a check gives, or its message. -/
def orProtocol {α : Type} (value : Option α) (message : String) : Result α :=
  match value with
  | some a => .ok a
  | none => protocolError message

/-! ### The retry section -/

def kMaxAttemptsLimit : ℕ := 100

def kMaxDurationMs : ℕ := 3600000

/-- The `double` arithmetic of the retry policy; the laws hold of IEEE 754. -/
structure Doubles (δ : Type) where
  ofInt : ℤ → δ
  /-- The number a JSON or C++ text denotes. -/
  ofText : String → δ
  ge : δ → δ → Bool
  mul : δ → δ → δ
  sub : δ → δ → δ
  /-- The conversion to `long long`. -/
  truncate : δ → ℤ
  two_ge_one : ge (ofText "2.0") (ofText "1.0")
  half_ge_zero : ge (ofText "0.5") (ofText "0.0")
  one_ge_half : ge (ofText "1.0") (ofText "0.5")

section

variable {δ : Type} (doubles : Doubles δ)

def Doubles.number? : Json → Option δ
  | .unsigned value => some (doubles.ofInt value)
  | .integer value => some (doubles.ofInt value)
  | .float text => some (doubles.ofText text)
  | _ => none

/-- The policy as it is configured, durations in milliseconds. -/
structure RetrySettings (δ : Type) where
  maxAttempts : ℤ
  initialBackoff : ℤ
  maxBackoff : ℤ
  multiplier : δ
  jitter : δ
  budget : ℤ

def RetrySettings.default : RetrySettings δ :=
  ⟨3, 100, 2000, doubles.ofText "2.0", doubles.ofText "0.5", 5000⟩

def unsignedMsField (node : Json) (name : String) (default : ℤ) : Result ℤ :=
  node.readField name default fun value => do
    let ms ← orProtocol value.unsigned?
      ("retry field \"" ++ name ++ "\" must be an unsigned number")
    if ms > kMaxDurationMs then protocolError ("retry field \"" ++ name ++ "\" is out of range")
    else return ms

def maxAttemptsField (node : Json) (default : ℤ) : Result ℤ :=
  node.readField "maxAttempts" default fun value => do
    let attempts ← orProtocol value.unsigned?
      "retry field \"maxAttempts\" must be an unsigned number"
    if attempts < 1 ∨ attempts > kMaxAttemptsLimit then
      protocolError "retry field \"maxAttempts\" must be in [1, 100]"
    else return attempts

def multiplierField (node : Json) (default : δ) : Result δ :=
  node.readField "multiplier" default fun value => do
    let multiplier ← orProtocol (doubles.number? value)
      "retry field \"multiplier\" must be a number"
    if !doubles.ge multiplier (doubles.ofText "1.0") then
      protocolError "retry field \"multiplier\" must be >= 1.0"
    else return multiplier

def jitterField (node : Json) (default : δ) : Result δ :=
  node.readField "jitter" default fun value => do
    let jitter ← orProtocol (doubles.number? value) "retry field \"jitter\" must be a number"
    if !(doubles.ge jitter (doubles.ofText "0.0") && doubles.ge (doubles.ofText "1.0") jitter) then
      protocolError "retry field \"jitter\" must be in [0, 1]"
    else return jitter

def retryPolicyFromJson (node : Json) (defaults : RetrySettings δ) : Result (RetrySettings δ) := do
  if !node.isObject then protocolError "retry config must be a JSON object"
  else
    let maxAttempts ← maxAttemptsField node defaults.maxAttempts
    let initial ← unsignedMsField node "initialBackoffMs" defaults.initialBackoff
    let maxBackoff ← unsignedMsField node "maxBackoffMs" defaults.maxBackoff
    let budget ← unsignedMsField node "budgetMs" defaults.budget
    if maxBackoff < initial then
      protocolError "retry maxBackoffMs must be >= initialBackoffMs"
    else
      let multiplier ← multiplierField doubles node defaults.multiplier
      let jitter ← jitterField doubles node defaults.jitter
      return ⟨maxAttempts, initial, maxBackoff, multiplier, jitter, budget⟩

/-- The loop of `backoff_for`; `none` when it returns `max_backoff`. -/
def backoffLoop (settings : RetrySettings δ) : ℕ → δ → Option δ
  | 0, raw => some raw
  | left + 1, raw =>
    let raw := doubles.mul raw settings.multiplier
    if doubles.ge raw (doubles.ofInt settings.maxBackoff) then none
    else backoffLoop settings left raw

def backoffFor (settings : RetrySettings δ) (retryIndex : ℕ) : ℤ :=
  match backoffLoop doubles settings (max retryIndex 1 - 1)
      (doubles.ofInt settings.initialBackoff) with
  | none => settings.maxBackoff
  | some raw => max (min (doubles.truncate raw) settings.maxBackoff) 0

def applyJitter (settings : RetrySettings δ) (raw : ℤ) (u01 : δ) : ℤ :=
  let clamped := if !doubles.ge u01 (doubles.ofText "0.0") then doubles.ofText "0.0"
    else if !doubles.ge (doubles.ofText "0.999999") u01 then doubles.ofText "0.999999" else u01
  let factor := doubles.sub (doubles.ofText "1.0") (doubles.mul settings.jitter clamped)
  max (doubles.truncate (doubles.mul (doubles.ofInt raw) factor)) 0

/-- What the driver takes from the settings. -/
def RetrySettings.policy (settings : RetrySettings δ) : RetryPolicy δ where
  maxAttempts := settings.maxAttempts
  budget := settings.budget
  backoff index draw := applyJitter doubles settings (backoffFor doubles settings index) draw

end

/-! ### The risk section -/

/-- Absent, null and empty disable the check. -/
def limitField (node : Json) (name : String) : Result String :=
  match node.find? name with
  | none => .ok ""
  | some .null => .ok ""
  | some (.str text) =>
    if text = "" then .ok ""
    else
      match parseDecimal text with
      | .ok _ => .ok text
      | .error _ => protocolError ("risk field " ++ name ++ " is not a decimal: " ++ text)
  | some _ => protocolError ("risk field " ++ name ++ " must be a string")

def limitsFromJson (node : Json) : Result InstrumentRiskLimits := do
  if !node.isObject then protocolError "risk limits block must be a JSON object"
  else
    let maxQty ← limitField node "maxQty"
    let maxNotional ← limitField node "maxNotional"
    let maxPosition ← limitField node "maxPosition"
    return ⟨maxQty, maxNotional, maxPosition⟩

/-- The keys of an object are distinct, so the map holds one entry for each. -/
def instrumentsFromJson : Json → Result (List (String × InstrumentRiskLimits))
  | .obj fields => fields.mapM fun field => do return (field.1, ← limitsFromJson field.2)
  | _ => protocolError "risk.instruments must be a JSON object"

def riskConfigFromJson (node : Json) : Result RiskConfig := do
  if !node.isObject then protocolError "risk section must be a JSON object"
  else
    let defaults ← node.readField "default" none fun block => do return some (← limitsFromJson block)
    let instruments ← node.readField "instruments" [] instrumentsFromJson
    return ⟨defaults, instruments⟩

/-! ### The file -/

structure GatewayConfig where
  restPort : ℕ
  persistenceLog : Option String
  latencyLog : Option String
  risk : RiskConfig
  defaultVenue : String
  auditIntervalMs : ℕ
  okx : Json
  binance : Json

def kMinPort : ℕ := 1
def kMaxPort : ℕ := 65535

def kMaxAuditIntervalMs : ℕ := 86400000

def restSection (rest : Json) : Result ℕ := do
  let port ← orProtocol ((rest.find? "port").bind Json.unsigned?)
    "rest section must be an object with unsigned numeric \"port\""
  if port < kMinPort ∨ port > kMaxPort then protocolError "rest.port is out of range [1, 65535]"
  else return port

/-- The two sections that name a log file. -/
def logSection (name : String) (node : Json) : Result (Option String) := do
  let path ← orProtocol ((node.find? "logPath").bind Json.string?)
    (name ++ " section must be an object with string \"logPath\"")
  return some path

def venueSection (name : String) (node : Json) : Result Json :=
  if node.isObject then .ok node else protocolError (name ++ " section must be a JSON object")

def auditSection (audit : Json) : Result ℕ := do
  let interval ← orProtocol ((audit.find? "intervalMs").bind Json.unsigned?)
    "audit section must be an object with unsigned numeric \"intervalMs\""
  if interval > kMaxAuditIntervalMs then
    protocolError "audit.intervalMs is out of range [0, 86400000]"
  else return interval

def configFromJson (root : Json) : Result GatewayConfig := do
  if !root.isObject then protocolError "config root must be a JSON object"
  else
    let restPort ← root.readField "rest" 8080 restSection
    let persistenceLog ← root.readField "persistence" none (logSection "persistence")
    let latencyLog ← root.readField "latency" none (logSection "latency")
    let risk ← root.readField "risk" ⟨none, []⟩ riskConfigFromJson
    let okx ← root.readField "okx" (.obj []) (venueSection "okx")
    let binance ← root.readField "binance" (.obj []) (venueSection "binance")
    let defaultVenue ← root.readField "defaultVenue" "okx" fun venue =>
      orProtocol venue.string? "defaultVenue must be a string"
    let auditIntervalMs ← root.readField "audit" 30000 auditSection
    return ⟨restPort, persistenceLog, latencyLog, risk, defaultVenue, auditIntervalMs, okx, binance⟩

/-- `file` is the content of the file, `none` when it cannot be opened. -/
def loadConfig (library : Json.Library) (path : String) (file : Option String) :
    Result GatewayConfig :=
  match file with
  | none => .error ⟨"io", "cannot open config file: " ++ path⟩
  | some text =>
    match library.parse text with
    | none => protocolError ("config file is not valid JSON: " ++ path)
    | some root => configFromJson root

/-! ### Acceptance

Each reader is described by what it accepts and, separately, by the value it gives. -/

namespace Json

def Allows (node : Json) (name : String) (accepts : Json → Prop) : Prop :=
  ∀ value, node.find? name = some value → accepts value

def Needs (node : Json) (name : String) (accepts : Json → Prop) : Prop :=
  ∃ value, node.find? name = some value ∧ accepts value

def Unsigned (low high : ℕ) (value : Json) : Prop := ∃ n, value = .unsigned n ∧ low ≤ n ∧ n ≤ high

def Text (value : Json) : Prop := ∃ text, value = .str text

theorem Allows.congr {node : Json} {name : String} {p q : Json → Prop} (h : ∀ value, p value ↔ q value) :
    node.Allows name p ↔ node.Allows name q :=
  forall_congr' fun value => imp_congr_right fun _ => h value

end Json

section

variable {α β : Type}

@[simp] theorem isOk_ok (a : α) : (Except.ok a : Result α).isOk = true := rfl

@[simp] theorem isOk_error (error : Error) : (Except.error error : Result α).isOk = false := rfl

@[simp] theorem isOk_protocolError (message : String) :
    (protocolError message : Result α).isOk = false := rfl

theorem isOk_iff {result : Result α} : result.isOk ↔ ∃ a, result = .ok a := by
  cases result <;> simp [Except.isOk, Except.toBool]

theorem isOk_bind {first : Result α} {next : α → Result β} :
    (first >>= next).isOk ↔ ∃ a, first = .ok a ∧ (next a).isOk := by
  cases first <;> simp [bind, Except.bind]

theorem isOk_pure (a : α) : (pure a : Result α).isOk = true := rfl

theorem isOk_object {node : Json} {message : String} {rest : Result α} :
    (if !node.isObject then protocolError message else rest).isOk ↔ node.isObject ∧ rest.isOk := by
  cases node.isObject <;> simp

theorem readField_isOk {node : Json} {name : String} {default : α} {read : Json → Result α} :
    (node.readField name default read).isOk ↔ node.Allows name fun value => (read value).isOk := by
  unfold Json.readField Json.Allows
  cases node.find? name <;> simp

theorem orProtocol_ok {value : Option α} {message : String} {a : α} :
    orProtocol value message = .ok a ↔ value = some a := by
  cases value <;> simp [orProtocol, protocolError]

theorem checked_isOk {value : Option α} {message message' : String} {bad : α → Prop}
    [DecidablePred bad] {f : α → β} :
    (do let a ← orProtocol value message
        if bad a then protocolError message' else return f a : Result β).isOk ↔
      ∃ a, value = some a ∧ ¬ bad a := by
  rw [isOk_bind]
  constructor
  · rintro ⟨a, ha, hok⟩
    refine ⟨a, orProtocol_ok.mp ha, fun hbad => ?_⟩
    rw [if_pos hbad] at hok
    cases hok
  · rintro ⟨a, ha, hgood⟩
    refine ⟨a, orProtocol_ok.mpr ha, ?_⟩
    rw [if_neg hgood]
    rfl

end

theorem Json.unsigned?_eq_some {value : Json} {n : ℕ} :
    value.unsigned? = some n ↔ value = .unsigned n := by
  cases value <;> simp [unsigned?]

/-! ### The retry section -/

section

variable {δ : Type} {doubles : Doubles δ} {node : Json}

def msOf (node : Json) (name : String) (default : ℤ) : ℤ :=
  match (node.find? name).bind Json.unsigned? with
  | some ms => ms
  | none => default

theorem unsignedMsField_isOk {name : String} {d : ℤ} :
    (unsignedMsField node name d).isOk ↔ node.Allows name (Json.Unsigned 0 kMaxDurationMs) := by
  refine readField_isOk.trans (Json.Allows.congr fun value => checked_isOk.trans ?_)
  simp [Json.Unsigned, Json.unsigned?_eq_some]

theorem unsignedMsField_ok {name : String} {default ms : ℤ} :
    unsignedMsField node name default = .ok ms ↔
      node.Allows name (Json.Unsigned 0 kMaxDurationMs) ∧ ms = msOf node name default := by
  rw [← unsignedMsField_isOk (d := default)]
  unfold unsignedMsField msOf Json.readField
  cases node.find? name with
  | none => simp [eq_comm]
  | some value =>
    cases hn : value.unsigned? with
    | none => simp [orProtocol, hn, protocolError, bind, Except.bind]
    | some n =>
      by_cases hrange : n > kMaxDurationMs
      · simp [orProtocol, hn, hrange, bind, Except.bind, protocolError]
      · simp [orProtocol, hn, hrange, bind, Except.bind, pure, Except.pure, eq_comm]

structure RetrySchema (doubles : Doubles δ) (defaults : RetrySettings δ) (node : Json) : Prop where
  object : node.isObject
  maxAttempts : node.Allows "maxAttempts" (Json.Unsigned 1 kMaxAttemptsLimit)
  initialBackoff : node.Allows "initialBackoffMs" (Json.Unsigned 0 kMaxDurationMs)
  maxBackoff : node.Allows "maxBackoffMs" (Json.Unsigned 0 kMaxDurationMs)
  budget : node.Allows "budgetMs" (Json.Unsigned 0 kMaxDurationMs)
  ordered : msOf node "initialBackoffMs" defaults.initialBackoff ≤
    msOf node "maxBackoffMs" defaults.maxBackoff
  multiplier : node.Allows "multiplier" fun value =>
    ∃ x, doubles.number? value = some x ∧ doubles.ge x (doubles.ofText "1.0")
  jitter : node.Allows "jitter" fun value => ∃ x, doubles.number? value = some x ∧
    doubles.ge x (doubles.ofText "0.0") ∧ doubles.ge (doubles.ofText "1.0") x

theorem maxAttemptsField_isOk {default : ℤ} :
    (maxAttemptsField node default).isOk ↔
      node.Allows "maxAttempts" (Json.Unsigned 1 kMaxAttemptsLimit) := by
  refine readField_isOk.trans (Json.Allows.congr fun value => checked_isOk.trans ?_)
  simp [Json.Unsigned, Json.unsigned?_eq_some, Nat.one_le_iff_ne_zero]

theorem multiplierField_isOk {default : δ} :
    (multiplierField doubles node default).isOk ↔ node.Allows "multiplier" fun value =>
      ∃ x, doubles.number? value = some x ∧ doubles.ge x (doubles.ofText "1.0") := by
  refine readField_isOk.trans (Json.Allows.congr fun value => checked_isOk.trans ?_)
  simp

theorem jitterField_isOk {default : δ} :
    (jitterField doubles node default).isOk ↔ node.Allows "jitter" fun value =>
      ∃ x, doubles.number? value = some x ∧ doubles.ge x (doubles.ofText "0.0") ∧
        doubles.ge (doubles.ofText "1.0") x := by
  refine readField_isOk.trans (Json.Allows.congr fun value => checked_isOk.trans ?_)
  simp

theorem retryPolicyFromJson_isOk {defaults : RetrySettings δ} :
    (retryPolicyFromJson doubles node defaults).isOk ↔ RetrySchema doubles defaults node := by
  unfold retryPolicyFromJson
  by_cases hobject : node.isObject
  · simp only [hobject, Bool.not_true, Bool.false_eq_true, if_false, isOk_bind, unsignedMsField_ok]
    constructor
    · rintro ⟨_, hattempts, _, ⟨hinitial, rfl⟩, _, ⟨hmax, rfl⟩, _, ⟨hbudget, rfl⟩, h⟩
      split_ifs at h with horder
      · cases h
      · obtain ⟨_, hmultiplier, h⟩ := isOk_bind.mp h
        obtain ⟨_, hjitter, -⟩ := isOk_bind.mp h
        exact ⟨hobject, maxAttemptsField_isOk.mp (isOk_iff.mpr ⟨_, hattempts⟩), hinitial, hmax,
          hbudget, not_lt.mp horder, multiplierField_isOk.mp (isOk_iff.mpr ⟨_, hmultiplier⟩),
          jitterField_isOk.mp (isOk_iff.mpr ⟨_, hjitter⟩)⟩
    · intro h
      obtain ⟨attempts, hattempts⟩ := isOk_iff.mp (maxAttemptsField_isOk.mpr h.maxAttempts)
      refine ⟨attempts, hattempts, _, ⟨h.initialBackoff, rfl⟩, _, ⟨h.maxBackoff, rfl⟩, _,
        ⟨h.budget, rfl⟩, ?_⟩
      obtain ⟨multiplier, hmultiplier⟩ := isOk_iff.mp (multiplierField_isOk.mpr h.multiplier)
      obtain ⟨jitter, hjitter⟩ := isOk_iff.mp (jitterField_isOk.mpr h.jitter)
      rw [if_neg (not_lt.mpr h.ordered), isOk_bind]
      exact ⟨multiplier, hmultiplier, isOk_bind.mpr ⟨jitter, hjitter, rfl⟩⟩
  · have hfalse : node.isObject = false := by simpa using hobject
    simp only [hfalse, Bool.not_false, if_true, isOk_protocolError, Bool.false_eq_true, false_iff]
    intro h
    exact hobject h.object

structure RetrySettings.Sound (doubles : Doubles δ) (settings : RetrySettings δ) : Prop where
  maxAttempts : 1 ≤ settings.maxAttempts ∧ settings.maxAttempts ≤ kMaxAttemptsLimit
  initialBackoff : 0 ≤ settings.initialBackoff ∧ settings.initialBackoff ≤ settings.maxBackoff
  maxBackoff : settings.maxBackoff ≤ kMaxDurationMs
  budget : 0 ≤ settings.budget ∧ settings.budget ≤ kMaxDurationMs
  multiplier : doubles.ge settings.multiplier (doubles.ofText "1.0")
  jitter : doubles.ge settings.jitter (doubles.ofText "0.0") ∧
    doubles.ge (doubles.ofText "1.0") settings.jitter

theorem RetrySettings.sound_default : (RetrySettings.default doubles).Sound doubles :=
  ⟨by simp [default, kMaxAttemptsLimit], by simp [default], by simp [default, kMaxDurationMs],
    by simp [default, kMaxDurationMs], doubles.two_ge_one, doubles.half_ge_zero,
    doubles.one_ge_half⟩

/-- A field that a check lets through satisfies what the default and the check give. -/
theorem readField_rule {α : Type} {name : String} {default a : α} {read : Json → Result α}
    {P : α → Prop} (hdefault : P default) (hread : ∀ value a, read value = .ok a → P a)
    (h : node.readField name default read = .ok a) : P a := by
  unfold Json.readField at h
  cases hv : node.find? name with
  | none =>
    rw [hv] at h
    rw [← Except.ok.inj h]
    exact hdefault
  | some value =>
    rw [hv] at h
    exact hread value a h

theorem checked_rule {α β : Type} {value : Option α} {message message' : String} {bad : α → Prop}
    [DecidablePred bad] {f : α → β} {b : β} {P : β → Prop}
    (hgood : ∀ a, ¬ bad a → P (f a))
    (h : (do let a ← orProtocol value message
             if bad a then protocolError message' else return f a : Result β) = .ok b) : P b := by
  cases value with
  | none => cases h
  | some a =>
    have hbranch : (if bad a then protocolError message' else pure (f a) : Result β) = .ok b := h
    split_ifs at hbranch with hbad
    · cases hbranch
    · rw [← Except.ok.inj hbranch]
      exact hgood a hbad

theorem unsignedMsField_range {name : String} {default ms : ℤ}
    (hdefault : 0 ≤ default ∧ default ≤ kMaxDurationMs)
    (h : unsignedMsField node name default = .ok ms) : 0 ≤ ms ∧ ms ≤ kMaxDurationMs := by
  unfold unsignedMsField at h
  apply readField_rule (P := fun ms : ℤ => 0 ≤ ms ∧ ms ≤ kMaxDurationMs) hdefault _ h
  intro value ms hread
  apply checked_rule (P := fun ms : ℤ => 0 ≤ ms ∧ ms ≤ kMaxDurationMs) _ hread
  intro n hn
  omega

theorem maxAttemptsField_range {default attempts : ℤ}
    (hdefault : 1 ≤ default ∧ default ≤ kMaxAttemptsLimit)
    (h : maxAttemptsField node default = .ok attempts) :
    1 ≤ attempts ∧ attempts ≤ kMaxAttemptsLimit := by
  unfold maxAttemptsField at h
  apply readField_rule (P := fun n : ℤ => 1 ≤ n ∧ n ≤ kMaxAttemptsLimit) hdefault _ h
  intro value attempts hread
  apply checked_rule (P := fun n : ℤ => 1 ≤ n ∧ n ≤ kMaxAttemptsLimit) _ hread
  intro n hn
  omega

theorem multiplierField_range {default multiplier : δ}
    (hdefault : doubles.ge default (doubles.ofText "1.0"))
    (h : multiplierField doubles node default = .ok multiplier) :
    doubles.ge multiplier (doubles.ofText "1.0") := by
  unfold multiplierField at h
  apply readField_rule (P := fun x => doubles.ge x (doubles.ofText "1.0")) hdefault _ h
  intro value multiplier hread
  apply checked_rule (P := fun x => doubles.ge x (doubles.ofText "1.0")) _ hread
  intro x hx
  simpa using hx

theorem jitterField_range {default jitter : δ}
    (hdefault : doubles.ge default (doubles.ofText "0.0") ∧
      doubles.ge (doubles.ofText "1.0") default)
    (h : jitterField doubles node default = .ok jitter) :
    doubles.ge jitter (doubles.ofText "0.0") ∧ doubles.ge (doubles.ofText "1.0") jitter := by
  unfold jitterField at h
  apply readField_rule (P := fun x => doubles.ge x (doubles.ofText "0.0") ∧
    doubles.ge (doubles.ofText "1.0") x) hdefault _ h
  intro value jitter hread
  apply checked_rule (P := fun x => doubles.ge x (doubles.ofText "0.0") ∧
    doubles.ge (doubles.ofText "1.0") x) _ hread
  intro x hx
  simpa using hx

theorem retryPolicyFromJson_sound {defaults settings : RetrySettings δ}
    (hdefaults : defaults.Sound doubles)
    (h : retryPolicyFromJson doubles node defaults = .ok settings) : settings.Sound doubles := by
  unfold retryPolicyFromJson at h
  split_ifs at h with hobject
  · cases h
  · simp only [bind_eq_ok] at h
    obtain ⟨attempts, hattempts, initial, hinitial, maxBackoff, hmax, budget, hbudget, h⟩ := h
    split_ifs at h with horder
    · cases h
    · simp only [bind_eq_ok] at h
      obtain ⟨multiplier, hmultiplier, jitter, hjitter, h⟩ := h
      rw [← Except.ok.inj h]
      have hbound := hdefaults.maxBackoff
      have hlow := hdefaults.initialBackoff
      have hinitial := unsignedMsField_range ⟨hlow.1, by omega⟩ hinitial
      have hmax := unsignedMsField_range ⟨by omega, hbound⟩ hmax
      exact ⟨maxAttemptsField_range hdefaults.maxAttempts hattempts, ⟨hinitial.1, not_lt.mp horder⟩,
        hmax.2, unsignedMsField_range hdefaults.budget hbudget,
        multiplierField_range hdefaults.multiplier hmultiplier,
        jitterField_range hdefaults.jitter hjitter⟩

/-- Under accepted settings the driver answers with the result of the last of at least one and at
most a hundred attempts. -/
theorem RetrySettings.Sound.withRetries {settings : RetrySettings δ} (h : settings.Sound doubles)
    {W α : Type} (clock : RetryClock δ W) (attempt : W → Result α × W)
    (retryable : Error → W → Bool) (w : W) :
    ∃ n ≤ kMaxAttemptsLimit, 0 < n ∧ Tries clock attempt retryable n (clock.now w).2
      (withRetries (settings.policy doubles) clock attempt retryable w) := by
  obtain ⟨hlow, hhigh⟩ := h.maxAttempts
  obtain ⟨n, hn, htries⟩ :=
    withRetries_tries (settings.policy doubles) clock attempt retryable hlow w
  have hattempts : (settings.policy doubles).maxAttempts = settings.maxAttempts := rfl
  exact ⟨n, by omega, htries.pos, htries⟩

end

/-! ### The risk section -/

section

variable {node : Json}

/-- A limit: nothing, or a text that the checks can read. -/
def LimitText (value : Json) : Prop :=
  value = .null ∨ ∃ text, value = .str text ∧ (text = "" ∨ ∃ d, parseDecimal text = .ok d)

theorem limitField_isOk {name : String} :
    (limitField node name).isOk ↔ node.Allows name LimitText := by
  unfold limitField Json.Allows LimitText
  cases node.find? name with
  | none => simp
  | some value =>
    cases value with
    | str text =>
      by_cases hempty : text = ""
      · simp [hempty]
      · cases hparse : parseDecimal text <;> simp [hempty, hparse]
    | _ => simp

theorem limitField_readable {name text : String} (h : limitField node name = .ok text)
    (hset : text ≠ "") : ∃ d, parseDecimal text = .ok d := by
  unfold limitField at h
  split at h
  · exact absurd (Except.ok.inj h).symm hset
  · exact absurd (Except.ok.inj h).symm hset
  · split_ifs at h with hempty
    · exact absurd (Except.ok.inj h).symm hset
    · split at h
      · rename_i d hparse
        rw [← Except.ok.inj h]
        exact ⟨d, hparse⟩
      · cases h
  · cases h

structure LimitsSchema (node : Json) : Prop where
  object : node.isObject
  maxQty : node.Allows "maxQty" LimitText
  maxNotional : node.Allows "maxNotional" LimitText
  maxPosition : node.Allows "maxPosition" LimitText

theorem limitsFromJson_isOk : (limitsFromJson node).isOk ↔ LimitsSchema node := by
  unfold limitsFromJson
  simp only [isOk_object, isOk_bind, isOk_pure, and_true, exists_and_right, ← isOk_iff,
    limitField_isOk]
  constructor
  · rintro ⟨hobject, hqty, hnotional, hposition⟩
    exact ⟨hobject, hqty, hnotional, hposition⟩
  · rintro ⟨hobject, hqty, hnotional, hposition⟩
    exact ⟨hobject, hqty, hnotional, hposition⟩

theorem limitsFromJson_readable {limits : InstrumentRiskLimits}
    (h : limitsFromJson node = .ok limits) : limits.Readable := by
  unfold limitsFromJson at h
  split_ifs at h with hobject
  · cases h
  · simp only [bind_eq_ok] at h
    obtain ⟨qty, hqty, notional, hnotional, position, hposition, h⟩ := h
    rw [← Except.ok.inj h]
    exact ⟨limitField_readable hqty, limitField_readable hnotional, limitField_readable hposition⟩

/-- A loop over the entries of an object stops at the first that is refused. -/
theorem mapM_isOk {α β : Type} {f : α → Result β} {items : List α} :
    (items.mapM f).isOk ↔ ∀ item ∈ items, (f item).isOk := by
  induction items with
  | nil => simp [pure, Except.pure]
  | cons item items ih =>
    rw [List.mapM_cons, isOk_bind, List.forall_mem_cons, ← ih]
    constructor
    · rintro ⟨b, hb, hrest⟩
      obtain ⟨bs, hbs, -⟩ := isOk_bind.mp hrest
      exact ⟨isOk_iff.mpr ⟨b, hb⟩, isOk_iff.mpr ⟨bs, hbs⟩⟩
    · rintro ⟨hfirst, hrest⟩
      obtain ⟨b, hb⟩ := isOk_iff.mp hfirst
      obtain ⟨bs, hbs⟩ := isOk_iff.mp hrest
      exact ⟨b, hb, isOk_bind.mpr ⟨bs, hbs, rfl⟩⟩

theorem mem_mapM {α β : Type} {f : α → Result β} {items : List α} {bs : List β}
    (h : items.mapM f = .ok bs) {b : β} (hb : b ∈ bs) : ∃ item ∈ items, f item = .ok b := by
  induction items generalizing bs with
  | nil =>
    rw [← Except.ok.inj h] at hb
    cases hb
  | cons item items ih =>
    rw [List.mapM_cons] at h
    obtain ⟨first, hfirst, h⟩ := bind_eq_ok.mp h
    obtain ⟨rest, hrest, h⟩ := bind_eq_ok.mp h
    rw [← Except.ok.inj h] at hb
    rcases List.mem_cons.mp hb with rfl | hmem
    · exact ⟨item, List.mem_cons_self, hfirst⟩
    · obtain ⟨other, hother, heq⟩ := ih hrest hmem
      exact ⟨other, List.mem_cons_of_mem item hother, heq⟩

structure RiskSchema (node : Json) : Prop where
  object : node.isObject
  default : node.Allows "default" LimitsSchema
  instruments : node.Allows "instruments" fun value =>
    ∃ fields, value = .obj fields ∧ ∀ field ∈ fields, LimitsSchema field.2

theorem instrumentsFromJson_isOk : (instrumentsFromJson node).isOk ↔
    ∃ fields, node = .obj fields ∧ ∀ field ∈ fields, LimitsSchema field.2 := by
  unfold instrumentsFromJson
  cases node with
  | obj fields =>
    simp only [mapM_isOk, isOk_bind, isOk_pure, and_true, ← isOk_iff, limitsFromJson_isOk,
      Json.obj.injEq, exists_eq_left']
  | _ => simp

theorem riskConfigFromJson_isOk : (riskConfigFromJson node).isOk ↔ RiskSchema node := by
  unfold riskConfigFromJson
  simp only [isOk_object, isOk_bind, isOk_pure, and_true, exists_and_right, ← isOk_iff,
    readField_isOk, limitsFromJson_isOk, instrumentsFromJson_isOk]
  constructor
  · rintro ⟨hobject, hdefault, hinstruments⟩
    exact ⟨hobject, hdefault, hinstruments⟩
  · rintro ⟨hobject, hdefault, hinstruments⟩
    exact ⟨hobject, hdefault, hinstruments⟩

def RiskConfig.Readable (risk : RiskConfig) : Prop :=
  ∀ symbol limits, risk.limitsFor symbol = some limits → limits.Readable

theorem riskConfigFromJson_readable {risk : RiskConfig} (h : riskConfigFromJson node = .ok risk) :
    risk.Readable := by
  unfold riskConfigFromJson at h
  split_ifs at h with hobject
  · cases h
  · simp only [bind_eq_ok] at h
    obtain ⟨defaults, hdefaults, instruments, hinstruments, h⟩ := h
    have hdefault : ∀ limits ∈ defaults, limits.Readable := by
      apply readField_rule (P := fun defaults : Option InstrumentRiskLimits =>
        ∀ limits ∈ defaults, limits.Readable) (fun _ hnone => by cases hnone) _ hdefaults
      intro value defaults hread limits hlimits
      obtain ⟨parsed, hparsed, hsome⟩ := bind_eq_ok.mp hread
      rw [← Except.ok.inj hsome] at hlimits
      rw [← Option.some.inj hlimits]
      exact limitsFromJson_readable hparsed
    have hinstrument : ∀ entry ∈ instruments, entry.2.Readable := by
      apply readField_rule (P := fun instruments : List (String × InstrumentRiskLimits) =>
        ∀ entry ∈ instruments, entry.2.Readable) (fun _ hnil => by cases hnil) _ hinstruments
      intro value instruments hread entry hentry
      cases value with
      | obj fields =>
        obtain ⟨field, -, hfield⟩ := mem_mapM hread hentry
        obtain ⟨limits, hlimits, heq⟩ := bind_eq_ok.mp hfield
        rw [← Except.ok.inj heq]
        exact limitsFromJson_readable hlimits
      | _ => cases hread
    intro symbol limits hlimits
    rw [← Except.ok.inj h] at hlimits
    unfold RiskConfig.limitsFor at hlimits
    split at hlimits
    · rename_i found hfound
      obtain ⟨before, after, hsplit, -⟩ := List.lookup_eq_some_iff.mp hfound
      have hmem : (symbol, found) ∈ instruments := by
        rw [show instruments = before ++ (symbol, found) :: after from hsplit]
        exact List.mem_append_right before List.mem_cons_self
      rw [← Option.some.inj hlimits]
      exact hinstrument _ hmem
    · exact hdefault limits hlimits

end

/-! ### The file -/

structure ConfigSchema (root : Json) : Prop where
  object : root.isObject
  rest : root.Allows "rest" (Json.Needs · "port" (Json.Unsigned kMinPort kMaxPort))
  persistence : root.Allows "persistence" (Json.Needs · "logPath" Json.Text)
  latency : root.Allows "latency" (Json.Needs · "logPath" Json.Text)
  risk : root.Allows "risk" RiskSchema
  okx : root.Allows "okx" (·.isObject)
  binance : root.Allows "binance" (·.isObject)
  defaultVenue : root.Allows "defaultVenue" Json.Text
  audit : root.Allows "audit" (Json.Needs · "intervalMs" (Json.Unsigned 0 kMaxAuditIntervalMs))

section

variable {node root : Json}

theorem Json.string?_eq_some {value : Json} {text : String} :
    value.string? = some text ↔ value = .str text := by
  cases value <;> simp [string?]

theorem restSection_isOk :
    (restSection node).isOk ↔ node.Needs "port" (Json.Unsigned kMinPort kMaxPort) := by
  refine checked_isOk.trans ?_
  simp only [Option.bind_eq_some_iff, Json.unsigned?_eq_some, Json.Needs, Json.Unsigned]
  constructor
  · rintro ⟨port, ⟨value, hvalue, hport⟩, hrange⟩
    exact ⟨value, hvalue, port, hport, by omega, by omega⟩
  · rintro ⟨value, hvalue, port, hport, hlow, hhigh⟩
    exact ⟨port, ⟨value, hvalue, hport⟩, by omega⟩

theorem auditSection_isOk :
    (auditSection node).isOk ↔ node.Needs "intervalMs" (Json.Unsigned 0 kMaxAuditIntervalMs) := by
  refine checked_isOk.trans ?_
  simp only [Option.bind_eq_some_iff, Json.unsigned?_eq_some, Json.Needs, Json.Unsigned]
  constructor
  · rintro ⟨interval, ⟨value, hvalue, hinterval⟩, hrange⟩
    exact ⟨value, hvalue, interval, hinterval, by omega, by omega⟩
  · rintro ⟨value, hvalue, interval, hinterval, -, hhigh⟩
    exact ⟨interval, ⟨value, hvalue, hinterval⟩, by omega⟩

theorem orProtocol_isOk {α : Type} {value : Option α} {message : String} :
    (orProtocol value message).isOk ↔ ∃ a, value = some a := by
  rw [isOk_iff]
  simp only [orProtocol_ok]

theorem logSection_isOk {name : String} :
    (logSection name node).isOk ↔ node.Needs "logPath" Json.Text := by
  unfold logSection
  simp only [isOk_bind, isOk_pure, and_true, ← isOk_iff, orProtocol_isOk,
    Option.bind_eq_some_iff, Json.string?_eq_some, Json.Needs, Json.Text]
  exact ⟨fun ⟨text, value, hvalue, htext⟩ => ⟨value, hvalue, text, htext⟩,
    fun ⟨value, hvalue, text, htext⟩ => ⟨text, value, hvalue, htext⟩⟩

theorem venueSection_isOk {name : String} : (venueSection name node).isOk ↔ node.isObject := by
  unfold venueSection
  cases node.isObject <;> simp

theorem configFromJson_isOk : (configFromJson root).isOk ↔ ConfigSchema root := by
  unfold configFromJson
  simp only [isOk_object, isOk_bind, isOk_pure, and_true, exists_and_right, ← isOk_iff,
    readField_isOk, restSection_isOk, logSection_isOk, riskConfigFromJson_isOk, venueSection_isOk,
    auditSection_isOk, orProtocol_isOk, Json.string?_eq_some]
  constructor
  · rintro ⟨hobject, hrest, hpersistence, hlatency, hrisk, hokx, hbinance, hvenue, haudit⟩
    exact ⟨hobject, hrest, hpersistence, hlatency, hrisk, hokx, hbinance, hvenue, haudit⟩
  · rintro ⟨hobject, hrest, hpersistence, hlatency, hrisk, hokx, hbinance, hvenue, haudit⟩
    exact ⟨hobject, hrest, hpersistence, hlatency, hrisk, hokx, hbinance, hvenue, haudit⟩

end

end ExchangeGateway
