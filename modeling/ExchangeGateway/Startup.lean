import ExchangeGateway.Core.Settings
import ExchangeGateway.Core.Ownership
import ExchangeGateway.Exchange.Okx
import ExchangeGateway.Rest.Orders

/-! The start of the gateway (`apps/gateway_main.cpp`): the configuration file, the sections of the
venues (`okx_config_from_json`, `binance_config_from_json`), and the connectors and limits that the
order management system is built with. -/
namespace ExchangeGateway

section

variable {δ : Type} (doubles : Doubles δ)

/-! ### The OKX section -/

namespace Okx

structure WsConfig where
  enabled : Bool
  host : String
  port : ℤ
  useTls : Bool
  path : String
  pingIntervalMs : ℤ
  maxMissedPongs : ℤ

def WsConfig.default : WsConfig := ⟨true, "ws.okx.com", 8443, true, "/ws/v5/private", 20000, 2⟩

structure Config (δ : Type) where
  apiKey : String
  secretKey : String
  passphrase : String
  host : String
  port : ℤ
  useTls : Bool
  demoTrading : Bool
  restConnectTimeoutMs : ℤ
  restReadTimeoutMs : ℤ
  retry : RetrySettings δ
  ws : WsConfig

def boolField (node : Json) (name message : String) (default : Bool) : Result Bool :=
  node.readField name default fun value => orProtocol value.bool? message

def rangeField (node : Json) (name message : String) (low high : ℕ) (default : ℤ) : Result ℤ :=
  node.readField name default fun value =>
    match value.unsigned? with
    | some n => if n < low ∨ n > high then protocolError message else .ok n
    | none => protocolError message

def wsConfigFromJson (node : Json) (defaults : WsConfig) : Result WsConfig := do
  if !node.isObject then protocolError "okx ws config must be a JSON object"
  else
    let enabled ← boolField node "enabled" "okx ws enabled must be a boolean" defaults.enabled
    let port ← rangeField node "port" "okx ws port must be an unsigned number in [1, 65535]" 1 65535
      defaults.port
    let useTls ← boolField node "useTls" "okx ws useTls must be a boolean" defaults.useTls
    let pingIntervalMs ← rangeField node "pingIntervalMs"
      "okx ws pingIntervalMs must be in [1, 600000]" 1 600000 defaults.pingIntervalMs
    let maxMissedPongs ← rangeField node "maxMissedPongs"
      "okx ws maxMissedPongs must be in [1, 100]" 1 100 defaults.maxMissedPongs
    return ⟨enabled, (stringField node "host").getD defaults.host, port, useTls,
      (stringField node "path").getD defaults.path, pingIntervalMs, maxMissedPongs⟩

/-- The port keeps its low 32 bits only. -/
def portField (node : Json) : Result ℤ :=
  node.readField "port" 443 fun value => do
    let port ← orProtocol value.unsigned? "okx port must be an unsigned number"
    return Json.int32 port

def credentials : List String := ["apiKey", "secretKey", "passphrase"]

def configFromJson (node : Json) : Result (Config δ) := do
  if !node.isObject then protocolError "okx config section must be a JSON object"
  else
    match stringField node "apiKey", stringField node "secretKey",
        stringField node "passphrase" with
    | some apiKey, some secretKey, some passphrase =>
      let port ← portField node
      let useTls ← boolField node "useTls" "okx useTls must be a boolean" true
      let demoTrading ← boolField node "demoTrading" "okx demoTrading must be a boolean" false
      let restConnectTimeoutMs ← rangeField node "restConnectTimeoutMs"
        "okx restConnectTimeoutMs must be in [1, 600000]" 1 600000 5000
      let restReadTimeoutMs ← rangeField node "restReadTimeoutMs"
        "okx restReadTimeoutMs must be in [1, 600000]" 1 600000 5000
      let retry ← node.readField "retry" (.default doubles) fun retry =>
        retryPolicyFromJson doubles retry (.default doubles)
      let ws ← node.readField "ws" .default fun ws => wsConfigFromJson ws .default
      return ⟨apiKey, secretKey, passphrase, (stringField node "host").getD "www.okx.com", port,
        useTls, demoTrading, restConnectTimeoutMs, restReadTimeoutMs, retry, ws⟩
    | _, _, _ =>
      protocolError ("okx config missing or non-string field(s): " ++
        ", ".intercalate (credentials.filter fun name => (stringField node name).isNone))

end Okx

/-! ### The Binance section -/

namespace Binance

structure Settings (δ : Type) where
  apiKey : String
  secretKey : String
  host : String
  port : ℤ
  useTls : Bool
  path : String
  recvWindowMs : ℤ
  requestTimeoutMs : ℤ
  wsPingIntervalS : ℤ
  wsMaxMissedPongs : ℤ
  retry : RetrySettings δ

/-- Null counts as absent. -/
def present? (node : Json) (name : String) : Option Json :=
  match node.find? name with
  | some .null => none
  | value => value

/-- A value of the section, and what is wrong with it. -/
def readString (node : Json) (name default : String) (required : Bool) : String × List String :=
  match present? node name with
  | none => (default, if required then ["missing " ++ name] else [])
  | some (.str text) => (text, [])
  | some _ => (default, [name ++ " must be a string"])

/-- `get<long long>`. -/
def int64 (x : ℤ) : ℤ := x.bmod 0x10000000000000000

def readInteger (node : Json) (name problem : String) (admits : ℤ → Bool) (default : ℤ) :
    ℤ × List String :=
  match present? node name with
  | none => (default, [])
  | some value =>
    match value.integer? with
    | some x => if admits (int64 x) then (int64 x, []) else (default, [problem])
    | none => (default, [problem])

def readBool (node : Json) (name problem : String) (default : Bool) : Bool × List String :=
  match present? node name with
  | none => (default, [])
  | some (.bool value) => (value, [])
  | some _ => (default, [problem])

def within (low high : ℤ) (x : ℤ) : Bool := low ≤ x && x ≤ high

def retryField (node : Json) : Result (RetrySettings δ) :=
  match present? node "retry" with
  | none => .ok (.default doubles)
  | some retry => retryPolicyFromJson doubles retry (.default doubles)

/-- A broken retry section is reported before the problems of the other fields. -/
def configFromJson (node : Json) : Result (Settings δ) := do
  if !node.isObject then protocolError "binance section must be a JSON object"
  else
    let apiKey := readString node "apiKey" "" true
    let secretKey := readString node "secretKey" "" true
    let host := readString node "host" "ws-api.testnet.binance.vision" false
    let path := readString node "path" "/ws-api/v3" false
    let port := readInteger node "port" "port must be an integer in [1, 65535]" (within 1 65535) 443
    let useTls := readBool node "useTls" "useTls must be a boolean" true
    let recvWindowMs := readInteger node "recvWindowMs"
      "recvWindowMs must be an integer in [0, 60000]" (within 0 60000) 5000
    let requestTimeoutMs := readInteger node "requestTimeoutMs"
      "requestTimeoutMs must be a positive integer" (0 < ·) 12000
    let wsPingIntervalS := readInteger node "wsPingIntervalSec"
      "wsPingIntervalSec must be an integer in [1, 300]" (within 1 300) 20
    let wsMaxMissedPongs := readInteger node "wsMaxMissedPongs"
      "wsMaxMissedPongs must be an integer in [1, 100]" (within 1 100) 2
    let retry ← retryField doubles node
    let problems := apiKey.2 ++ secretKey.2 ++ host.2 ++ path.2 ++ port.2 ++ useTls.2 ++
      recvWindowMs.2 ++ requestTimeoutMs.2 ++ wsPingIntervalS.2 ++ wsMaxMissedPongs.2
    if problems ≠ [] then
      protocolError (problems.foldl (fun message problem => message ++ " " ++ problem ++ ";")
        "invalid binance config:")
    else
      return ⟨apiKey.1, secretKey.1, host.1, port.1, useTls.1, path.1, recvWindowMs.1,
        requestTimeoutMs.1, wsPingIntervalS.1, wsMaxMissedPongs.1, retry⟩

end Binance

/-! ### The composition root -/

structure Started (δ : Type) where
  config : GatewayConfig
  okx : Option (Okx.Config δ)
  binance : Option (Binance.Settings δ)
  defaultVenue : String

def Started.connectors (started : Started δ) : List String :=
  (if started.binance.isSome then ["binance"] else []) ++
    if started.okx.isSome then ["okx"] else []

def Started.oms (started : Started δ) : Config :=
  ⟨started.connectors, started.defaultVenue, started.config.risk⟩

def Started.retries (started : Started δ) : List (RetrySettings δ) :=
  started.okx.toList.map (·.retry) ++ started.binance.toList.map (·.retry)

/-- The sections of the venues. A venue is left out when its section has no API key; an empty OKX
section counts as one that has. -/
def okxSection (config : GatewayConfig) : Result (Option (Okx.Config δ)) := do
  if (config.okx.find? "apiKey").isSome || config.okx matches .obj [] then
    return some (← Okx.configFromJson doubles config.okx)
  else return none

def binanceSection (config : GatewayConfig) : Result (Option (Binance.Settings δ)) := do
  if (config.binance.find? "apiKey").isSome then
    return some (← Binance.configFromJson doubles config.binance)
  else return none

/-- The line that `main` prints before it gives up. -/
def orExit {α : Type} (what : String) : Result α → Except String α
  | .ok value => .ok value
  | .error error => .error (what ++ ": [" ++ error.code ++ "] " ++ error.message)

/-- `main` up to the construction of the order management system; an error is an exit with the line
printed. -/
def startup (library : Json.Library) (path : String) (file : Option String) :
    Except String (Started δ) := do
  let config ← orExit ("failed to load config " ++ path) (loadConfig library path file)
  let okx ← orExit "invalid okx config" (okxSection doubles config)
  let binance ← orExit "invalid binance config" (binanceSection doubles config)
  let started : Started δ := ⟨config, okx, binance, config.defaultVenue⟩
  match started.connectors with
  | [] => .error "error: no venue is configured (need an okx or binance section)"
  | first :: _ =>
    if config.defaultVenue ∈ started.connectors then return started
    else return { started with defaultVenue := first }

end

/-! ### The sections of the venues -/

namespace Json

def Boolean (value : Json) : Prop := ∃ b, value = .bool b

theorem bool?_eq_some {value : Json} {b : Bool} : value.bool? = some b ↔ value = .bool b := by
  cases value <;> simp [bool?]

end Json

section

variable {δ : Type} {doubles : Doubles δ} {node : Json}

namespace Okx

structure WsSchema (node : Json) : Prop where
  object : node.isObject
  enabled : node.Allows "enabled" Json.Boolean
  port : node.Allows "port" (Json.Unsigned 1 65535)
  useTls : node.Allows "useTls" Json.Boolean
  pingIntervalMs : node.Allows "pingIntervalMs" (Json.Unsigned 1 600000)
  maxMissedPongs : node.Allows "maxMissedPongs" (Json.Unsigned 1 100)

/-- What the OKX section has to satisfy; host and path are free. -/
structure Schema (doubles : Doubles δ) (node : Json) : Prop where
  object : node.isObject
  credentials : ∀ name ∈ credentials, node.Needs name Json.Text
  port : node.Allows "port" fun value => ∃ n, value = .unsigned n
  useTls : node.Allows "useTls" Json.Boolean
  demoTrading : node.Allows "demoTrading" Json.Boolean
  restConnectTimeoutMs : node.Allows "restConnectTimeoutMs" (Json.Unsigned 1 600000)
  restReadTimeoutMs : node.Allows "restReadTimeoutMs" (Json.Unsigned 1 600000)
  retry : node.Allows "retry" (RetrySchema doubles (.default doubles))
  ws : node.Allows "ws" WsSchema

theorem boolField_isOk {name message : String} {b : Bool} :
    (boolField node name message b).isOk ↔ node.Allows name Json.Boolean := by
  refine readField_isOk.trans (Json.Allows.congr fun value => ?_)
  simp only [orProtocol_isOk, Json.bool?_eq_some, Json.Boolean]

theorem rangeField_isOk {name message : String} {low high : ℕ} {d : ℤ} :
    (rangeField node name message low high d).isOk ↔
      node.Allows name (Json.Unsigned low high) := by
  refine readField_isOk.trans (Json.Allows.congr fun value => ?_)
  cases hn : value.unsigned? with
  | none =>
    simp only [isOk_protocolError, Bool.false_eq_true, false_iff]
    rintro ⟨n, rfl, -⟩
    cases hn
  | some n =>
    obtain rfl := Json.unsigned?_eq_some.mp hn
    simp only [Json.Unsigned, Json.unsigned.injEq, exists_eq_left']
    split_ifs with hrange
    · simp only [isOk_protocolError, Bool.false_eq_true, false_iff]
      omega
    · simp only [isOk_ok, true_iff]
      omega

theorem portField_isOk :
    (portField node).isOk ↔ node.Allows "port" fun value => ∃ n, value = .unsigned n := by
  refine readField_isOk.trans (Json.Allows.congr fun value => ?_)
  simp only [isOk_bind, isOk_pure, and_true, ← isOk_iff, orProtocol_isOk,
    Json.unsigned?_eq_some]

theorem wsConfigFromJson_isOk {defaults : WsConfig} :
    (wsConfigFromJson node defaults).isOk ↔ WsSchema node := by
  unfold wsConfigFromJson
  simp only [isOk_object, isOk_bind, isOk_pure, and_true, exists_and_right, ← isOk_iff,
    boolField_isOk, rangeField_isOk]
  constructor
  · rintro ⟨hobject, henabled, hport, htls, hping, hmissed⟩
    exact ⟨hobject, henabled, hport, htls, hping, hmissed⟩
  · rintro ⟨hobject, henabled, hport, htls, hping, hmissed⟩
    exact ⟨hobject, henabled, hport, htls, hping, hmissed⟩

theorem stringField_isSome {name : String} :
    (stringField node name).isSome ↔ node.Needs name Json.Text := by
  unfold stringField Json.Needs Json.Text
  cases node.find? name with
  | none => simp
  | some value => cases value <;> simp [Json.string?]

theorem configFromJson_isOk : (configFromJson doubles node).isOk ↔ Schema doubles node := by
  have hcredentials : (∀ name ∈ credentials, node.Needs name Json.Text) ↔
      (stringField node "apiKey").isSome ∧ (stringField node "secretKey").isSome ∧
        (stringField node "passphrase").isSome := by
    simp only [credentials, stringField_isSome, List.forall_mem_cons, List.not_mem_nil,
      false_implies, implies_true, and_true]
  unfold configFromJson
  rw [isOk_object]
  constructor
  · rintro ⟨hobject, h⟩
    split at h
    · rename_i hkey hsecret hpassphrase
      simp only [isOk_bind, isOk_pure, and_true, exists_and_right, ← isOk_iff, portField_isOk,
        boolField_isOk, rangeField_isOk, readField_isOk, retryPolicyFromJson_isOk,
        wsConfigFromJson_isOk] at h
      obtain ⟨hport, htls, hdemo, hconnect, hread, hretry, hws⟩ := h
      exact ⟨hobject, hcredentials.mpr (by simp [hkey, hsecret, hpassphrase]), hport, htls, hdemo,
        hconnect, hread, hretry, hws⟩
    · cases h
  · intro h
    obtain ⟨hkey, hsecret, hpassphrase⟩ := hcredentials.mp h.credentials
    obtain ⟨apiKey, hkey⟩ := Option.isSome_iff_exists.mp hkey
    obtain ⟨secretKey, hsecret⟩ := Option.isSome_iff_exists.mp hsecret
    obtain ⟨passphrase, hpassphrase⟩ := Option.isSome_iff_exists.mp hpassphrase
    refine ⟨h.object, ?_⟩
    simp only [hkey, hsecret, hpassphrase, isOk_bind, isOk_pure, and_true, exists_and_right,
      ← isOk_iff, portField_isOk, boolField_isOk, rangeField_isOk, readField_isOk,
      retryPolicyFromJson_isOk, wsConfigFromJson_isOk]
    exact ⟨h.port, h.useTls, h.demoTrading, h.restConnectTimeoutMs, h.restReadTimeoutMs, h.retry,
      h.ws⟩

end Okx

namespace Binance

/-- An optional field that may also be null. -/
def Tolerates (node : Json) (name : String) (accepts : Json → Prop) : Prop :=
  ∀ value, present? node name = some value → accepts value

/-- A number as `get<long long>` reads it. -/
def Integer (admits : ℤ → Bool) (value : Json) : Prop :=
  ∃ x, value.integer? = some x ∧ admits (int64 x)

structure Schema (doubles : Doubles δ) (node : Json) : Prop where
  object : node.isObject
  apiKey : node.Needs "apiKey" Json.Text
  secretKey : node.Needs "secretKey" Json.Text
  host : Tolerates node "host" Json.Text
  path : Tolerates node "path" Json.Text
  port : Tolerates node "port" (Integer (within 1 65535))
  useTls : Tolerates node "useTls" Json.Boolean
  recvWindowMs : Tolerates node "recvWindowMs" (Integer (within 0 60000))
  requestTimeoutMs : Tolerates node "requestTimeoutMs" (Integer (0 < ·))
  wsPingIntervalSec : Tolerates node "wsPingIntervalSec" (Integer (within 1 300))
  wsMaxMissedPongs : Tolerates node "wsMaxMissedPongs" (Integer (within 1 100))
  retry : Tolerates node "retry" (RetrySchema doubles (.default doubles))

theorem readString_clean {name d : String} :
    (readString node name d false).2 = [] ↔ Tolerates node name Json.Text := by
  unfold readString Tolerates Json.Text
  cases present? node name with
  | none => simp
  | some value => cases value <;> simp

theorem readString_required_clean {name d : String} :
    (readString node name d true).2 = [] ↔ node.Needs name Json.Text := by
  unfold readString present? Json.Needs Json.Text
  cases node.find? name with
  | none => simp
  | some value => cases value <;> simp

theorem readInteger_clean {name problem : String} {admits : ℤ → Bool} {d : ℤ} :
    (readInteger node name problem admits d).2 = [] ↔ Tolerates node name (Integer admits) := by
  unfold readInteger Tolerates Integer
  cases present? node name with
  | none => simp
  | some value =>
    cases hx : value.integer? with
    | none => simp [hx]
    | some x =>
      by_cases hadmits : admits (int64 x)
      · simp [hx, hadmits]
      · simp [hx, hadmits]

theorem readBool_clean {name problem : String} {b : Bool} :
    (readBool node name problem b).2 = [] ↔ Tolerates node name Json.Boolean := by
  unfold readBool Tolerates Json.Boolean
  cases present? node name with
  | none => simp
  | some value => cases value <;> simp

theorem retryField_isOk : (retryField doubles node).isOk ↔
    Tolerates node "retry" (RetrySchema doubles (.default doubles)) := by
  unfold retryField Tolerates
  cases present? node "retry" with
  | none => simp
  | some retry => simp [retryPolicyFromJson_isOk]

theorem configFromJson_isOk : (configFromJson doubles node).isOk ↔ Schema doubles node := by
  have hproblems {problems : List String} {message : String} {settings : Settings δ} :
      (if problems ≠ [] then protocolError message else pure settings : Result _).isOk ↔
        problems = [] := by
    by_cases hnil : problems = []
    · simp [hnil, isOk_pure]
    · simp [hnil]
  unfold configFromJson
  rw [isOk_object]
  dsimp only
  rw [isOk_bind]
  simp only [hproblems, exists_and_right, ← isOk_iff, retryField_isOk, List.append_eq_nil_iff,
    readString_clean, readString_required_clean, readInteger_clean, readBool_clean]
  constructor
  · rintro ⟨hobject, hretry, ⟨⟨⟨⟨⟨⟨⟨⟨⟨hkey, hsecret⟩, hhost⟩, hpath⟩, hport⟩, htls⟩, hwindow⟩,
      htimeout⟩, hping⟩, hmissed⟩⟩
    exact ⟨hobject, hkey, hsecret, hhost, hpath, hport, htls, hwindow, htimeout, hping, hmissed,
      hretry⟩
  · intro h
    exact ⟨h.object, h.retry, ⟨⟨⟨⟨⟨⟨⟨⟨⟨h.apiKey, h.secretKey⟩, h.host⟩, h.path⟩, h.port⟩,
      h.useTls⟩, h.recvWindowMs⟩, h.requestTimeoutMs⟩, h.wsPingIntervalSec⟩, h.wsMaxMissedPongs⟩⟩

end Binance

end

/-! ### What the gateway starts from -/

section

variable {δ : Type} {doubles : Doubles δ} {library : Json.Library}

/-- The section a venue is configured with; an absent one counts as empty. -/
def venueNode (root : Json) (name : String) : Json := (root.find? name).getD (.obj [])

/-- A file that the gateway starts from. The OKX section may lack its API key, which leaves the
venue out, but it may be neither absent nor empty. -/
structure StartSchema (doubles : Doubles δ) (root : Json) : Prop where
  config : ConfigSchema root
  okxNonempty : venueNode root "okx" ≠ .obj []
  okx : ((venueNode root "okx").find? "apiKey").isSome → Okx.Schema doubles (venueNode root "okx")
  binance : ((venueNode root "binance").find? "apiKey").isSome →
    Binance.Schema doubles (venueNode root "binance")
  venue : ((venueNode root "okx").find? "apiKey").isSome ∨
    ((venueNode root "binance").find? "apiKey").isSome

theorem configFromJson_venues {root : Json} {config : GatewayConfig}
    (h : configFromJson root = .ok config) :
    config.okx = venueNode root "okx" ∧ config.binance = venueNode root "binance" := by
  unfold configFromJson at h
  split_ifs at h
  · cases h
  · simp only [bind_eq_ok] at h
    obtain ⟨_, -, _, -, _, -, _, -, okx, hokx, binance, hbinance, _, -, _, -, h⟩ := h
    have hsection {name : String} {node : Json}
        (hnode : root.readField name (.obj []) (venueSection name) = .ok node) :
        node = venueNode root name := by
      unfold Json.readField at hnode
      unfold venueNode
      cases hv : root.find? name with
      | none =>
        rw [hv] at hnode
        exact (Except.ok.inj hnode).symm
      | some value =>
        rw [hv] at hnode
        unfold venueSection at hnode
        dsimp only at hnode
        split_ifs at hnode
        · exact (Except.ok.inj hnode).symm
        · cases hnode
    rw [← Except.ok.inj h]
    exact ⟨hsection hokx, hsection hbinance⟩

/-- The OKX section is read when it has an API key, or is empty and then refused. -/
theorem okxSection_cases (doubles : Doubles δ) (config : GatewayConfig) :
    (config.okx = .obj [] ∧ (okxSection doubles config).isOk = false) ∨
      (config.okx ≠ .obj [] ∧ (config.okx.find? "apiKey").isSome ∧
        okxSection doubles config = (Okx.configFromJson doubles config.okx).map some) ∨
      (config.okx ≠ .obj [] ∧ (config.okx.find? "apiKey").isSome = false ∧
        okxSection doubles config = .ok none) := by
  by_cases hempty : config.okx = .obj []
  · left
    refine ⟨hempty, ?_⟩
    unfold okxSection
    rw [hempty]
    rfl
  · right
    have hmatches : (config.okx matches .obj []) = false := by
      cases hnode : config.okx with
      | obj fields =>
        cases fields with
        | nil => exact absurd hnode hempty
        | cons _ _ => rfl
      | _ => rfl
    unfold okxSection
    rw [hmatches, Bool.or_false]
    cases hkey : (config.okx.find? "apiKey").isSome with
    | false => exact .inr ⟨hempty, rfl, rfl⟩
    | true =>
      refine .inl ⟨hempty, rfl, ?_⟩
      cases Okx.configFromJson doubles config.okx <;> rfl

theorem binanceSection_cases (doubles : Doubles δ) (config : GatewayConfig) :
    ((config.binance.find? "apiKey").isSome ∧
        binanceSection doubles config = (Binance.configFromJson doubles config.binance).map some) ∨
      ((config.binance.find? "apiKey").isSome = false ∧ binanceSection doubles config = .ok none) := by
  unfold binanceSection
  cases hkey : (config.binance.find? "apiKey").isSome with
  | false => exact .inr ⟨rfl, rfl⟩
  | true =>
    refine .inl ⟨rfl, ?_⟩
    cases Binance.configFromJson doubles config.binance <;> rfl

theorem orExit_ok {α : Type} {what : String} {result : Result α} {a : α} :
    orExit what result = .ok a ↔ result = .ok a := by
  cases result <;> simp [orExit]

theorem loadConfig_ok {path : String} {file : Option String} {config : GatewayConfig} :
    loadConfig library path file = .ok config ↔
      ∃ text root, file = some text ∧ library.parse text = some root ∧
        configFromJson root = .ok config := by
  unfold loadConfig
  cases file with
  | none => simp
  | some text =>
    cases hparse : library.parse text with
    | none => simp [protocolError, hparse]
    | some root => simp [hparse]

theorem map_some_ok {α : Type} {result : Result α} {a : Option α} :
    result.map some = .ok a ↔ ∃ value, result = .ok value ∧ a = some value := by
  cases result <;> simp [Except.map, eq_comm]

/-- The venue that orders without one go to: the configured one when it is connected, else the
first connector. -/
def Started.defaultOf (started : Started δ) : Option String :=
  if started.config.defaultVenue ∈ started.connectors then some started.config.defaultVenue
  else started.connectors.head?

/-- What `main` has when it constructs the order management system. -/
theorem startup_ok {path : String} {file : Option String} {started : Started δ} :
    startup doubles library path file = .ok started ↔
      loadConfig library path file = .ok started.config ∧
      okxSection doubles started.config = .ok started.okx ∧
      binanceSection doubles started.config = .ok started.binance ∧
      started.defaultOf = some started.defaultVenue := by
  unfold startup Started.defaultOf
  simp only [bind_eq_ok, orExit_ok]
  constructor
  · rintro ⟨config, hconfig, okx, hokx, binance, hbinance, h⟩
    split at h
    · cases h
    · rename_i first rest hconnectors
      split_ifs at h with hdefault
      · obtain rfl := Except.ok.inj h
        exact ⟨hconfig, hokx, hbinance, if_pos hdefault⟩
      · obtain rfl := Except.ok.inj h
        refine ⟨hconfig, hokx, hbinance, (if_neg hdefault).trans ?_⟩
        exact congrArg List.head? hconnectors
  · rintro ⟨hconfig, hokx, hbinance, h⟩
    refine ⟨started.config, hconfig, started.okx, hokx, started.binance, hbinance, ?_⟩
    have hsame : (⟨started.config, started.okx, started.binance, started.config.defaultVenue⟩ :
        Started δ).connectors = started.connectors := rfl
    rw [hsame]
    split_ifs at h ⊢ with hdefault
    · split
      · rename_i hnil
        rw [hnil] at hdefault
        cases hdefault
      · cases started
        rw [Option.some.inj h]
        rfl
    · split
      · rename_i hnil
        rw [hnil] at h
        cases h
      · rename_i hcons
        rw [hcons] at h
        cases started
        rw [Option.some.inj h]
        rfl

theorem okxSection_isOk {config : GatewayConfig} :
    (okxSection doubles config).isOk ↔ config.okx ≠ .obj [] ∧
      ((config.okx.find? "apiKey").isSome → Okx.Schema doubles config.okx) := by
  rcases okxSection_cases doubles config with
    ⟨hempty, hrefused⟩ | ⟨hnonempty, hkey, heq⟩ | ⟨hnonempty, hkey, heq⟩
  · simp [hrefused, hempty]
  · rw [heq, ← Okx.configFromJson_isOk, isOk_iff, isOk_iff]
    simp [map_some_ok, hnonempty, hkey]
  · simp [heq, hnonempty, hkey]

theorem okxSection_isSome {config : GatewayConfig} {okx : Option (Okx.Config δ)}
    (h : okxSection doubles config = .ok okx) :
    okx.isSome = (config.okx.find? "apiKey").isSome := by
  rcases okxSection_cases doubles config with
    ⟨-, hrefused⟩ | ⟨-, hkey, heq⟩ | ⟨-, hkey, heq⟩
  · rw [h] at hrefused
    cases hrefused
  · obtain ⟨value, -, rfl⟩ := map_some_ok.mp (heq.symm.trans h)
    exact hkey.symm
  · rw [← Except.ok.inj (heq.symm.trans h)]
    exact hkey.symm

theorem binanceSection_isOk {config : GatewayConfig} :
    (binanceSection doubles config).isOk ↔
      ((config.binance.find? "apiKey").isSome → Binance.Schema doubles config.binance) := by
  rcases binanceSection_cases doubles config with ⟨hkey, heq⟩ | ⟨hkey, heq⟩
  · rw [heq, ← Binance.configFromJson_isOk, isOk_iff, isOk_iff]
    simp [map_some_ok, hkey]
  · simp [heq, hkey]

theorem binanceSection_isSome {config : GatewayConfig} {binance : Option (Binance.Settings δ)}
    (h : binanceSection doubles config = .ok binance) :
    binance.isSome = (config.binance.find? "apiKey").isSome := by
  rcases binanceSection_cases doubles config with ⟨hkey, heq⟩ | ⟨hkey, heq⟩
  · obtain ⟨value, -, rfl⟩ := map_some_ok.mp (heq.symm.trans h)
    exact hkey.symm
  · rw [← Except.ok.inj (heq.symm.trans h)]
    exact hkey.symm

/-- There is a default venue as soon as there is a venue. -/
theorem Started.defaultOf_isSome {started : Started δ} :
    started.defaultOf.isSome ↔ started.okx.isSome ∨ started.binance.isSome := by
  unfold defaultOf connectors
  split_ifs with hdefault hbinance hokx
  all_goals simp_all

/-- `main` starts the gateway from exactly the files of this form. -/
theorem startup_iff (path : String) (file : Option String) :
    (∃ started, startup doubles library path file = .ok started) ↔
      ∃ text root, file = some text ∧ library.parse text = some root ∧
        StartSchema doubles root := by
  simp only [startup_ok, loadConfig_ok]
  constructor
  · rintro ⟨started, ⟨text, root, hfile, hparse, hconfig⟩, hokx, hbinance, hdefault⟩
    obtain ⟨hokxNode, hbinanceNode⟩ := configFromJson_venues hconfig
    obtain ⟨hnonempty, hokxSchema⟩ := okxSection_isOk.mp (isOk_iff.mpr ⟨_, hokx⟩)
    have hbinanceSchema := binanceSection_isOk.mp (isOk_iff.mpr ⟨_, hbinance⟩)
    have hvenue := Started.defaultOf_isSome.mp (Option.isSome_iff_exists.mpr ⟨_, hdefault⟩)
    rw [okxSection_isSome hokx, binanceSection_isSome hbinance] at hvenue
    rw [hokxNode] at hnonempty hokxSchema hvenue
    rw [hbinanceNode] at hbinanceSchema hvenue
    exact ⟨text, root, hfile, hparse, configFromJson_isOk.mp (isOk_iff.mpr ⟨_, hconfig⟩),
      hnonempty, hokxSchema, hbinanceSchema, hvenue⟩
  · rintro ⟨text, root, hfile, hparse, h⟩
    obtain ⟨config, hconfig⟩ := isOk_iff.mp (configFromJson_isOk.mpr h.config)
    obtain ⟨hokxNode, hbinanceNode⟩ := configFromJson_venues hconfig
    have hokxOk : (okxSection doubles config).isOk := by
      rw [okxSection_isOk, hokxNode]
      exact ⟨h.okxNonempty, h.okx⟩
    have hbinanceOk : (binanceSection doubles config).isOk := by
      rw [binanceSection_isOk, hbinanceNode]
      exact h.binance
    obtain ⟨okx, hokx⟩ := isOk_iff.mp hokxOk
    obtain ⟨binance, hbinance⟩ := isOk_iff.mp hbinanceOk
    have hvenue := h.venue
    rw [← hokxNode, ← hbinanceNode, ← okxSection_isSome hokx,
      ← binanceSection_isSome hbinance] at hvenue
    obtain ⟨venue, hdefault⟩ := Option.isSome_iff_exists.mp
      (Started.defaultOf_isSome.mpr hvenue : (⟨config, okx, binance, ""⟩ : Started δ).defaultOf.isSome)
    exact ⟨⟨config, okx, binance, venue⟩, ⟨text, root, hfile, hparse, hconfig⟩, hokx, hbinance,
      hdefault⟩

/-! ### What a started gateway can rely on -/

theorem Okx.rangeField_range {node : Json} {name message : String} {low high : ℕ} {d x : ℤ}
    (hdefault : low ≤ d ∧ d ≤ high) (h : Okx.rangeField node name message low high d = .ok x) :
    low ≤ x ∧ x ≤ high := by
  unfold Okx.rangeField at h
  apply readField_rule (P := fun x : ℤ => low ≤ x ∧ x ≤ high) hdefault _ h
  intro value x hread
  cases hn : value.unsigned? with
  | none =>
    rw [hn] at hread
    cases hread
  | some n =>
    rw [hn] at hread
    dsimp only at hread
    split_ifs at hread with hrange
    · cases hread
    · have hx := Except.ok.inj hread
      omega

/-- The keepalive of the OKX feed: the pinger sleeps, and its patience does not overflow. -/
structure Okx.WsConfig.Sound (ws : Okx.WsConfig) : Prop where
  pingIntervalMs : 1 ≤ ws.pingIntervalMs ∧ ws.pingIntervalMs ≤ 600000
  maxMissedPongs : 1 ≤ ws.maxMissedPongs ∧ ws.maxMissedPongs ≤ 100

theorem Okx.wsConfigFromJson_sound {node : Json} {defaults ws : Okx.WsConfig}
    (hdefaults : defaults.Sound) (h : Okx.wsConfigFromJson node defaults = .ok ws) : ws.Sound := by
  unfold Okx.wsConfigFromJson at h
  split_ifs at h
  · cases h
  · simp only [bind_eq_ok] at h
    obtain ⟨_, -, _, -, _, -, ping, hping, missed, hmissed, h⟩ := h
    rw [← Except.ok.inj h]
    exact ⟨Okx.rangeField_range hdefaults.pingIntervalMs hping,
      Okx.rangeField_range hdefaults.maxMissedPongs hmissed⟩

theorem Okx.configFromJson_sound {node : Json} {config : Okx.Config δ}
    (h : Okx.configFromJson doubles node = .ok config) :
    config.retry.Sound doubles ∧ config.ws.Sound := by
  unfold Okx.configFromJson at h
  split_ifs at h
  · cases h
  · split at h
    · simp only [bind_eq_ok] at h
      obtain ⟨_, -, _, -, _, -, _, -, _, -, retry, hretry, ws, hws, h⟩ := h
      rw [← Except.ok.inj h]
      constructor
      · exact readField_rule (P := RetrySettings.Sound doubles) RetrySettings.sound_default
          (fun _ _ hread => retryPolicyFromJson_sound RetrySettings.sound_default hread) hretry
      · have hdefault : Okx.WsConfig.default.Sound := ⟨by decide, by decide⟩
        exact readField_rule (P := Okx.WsConfig.Sound) hdefault
          (fun _ _ hread => Okx.wsConfigFromJson_sound hdefault hread) hws
    · cases h

theorem Binance.readInteger_admits (admits : ℤ → Bool) {node : Json} {name problem : String}
    {d : ℤ} (hdefault : admits d) : admits (Binance.readInteger node name problem admits d).1 := by
  unfold Binance.readInteger
  split
  · exact hdefault
  · split
    · split_ifs with hadmits
      · exact hadmits
      · exact hdefault
    · exact hdefault

/-- The receive window is one that the venue takes, and every wait is positive. -/
structure Binance.Settings.Sound (doubles : Doubles δ) (settings : Binance.Settings δ) :
    Prop where
  retry : settings.retry.Sound doubles
  recvWindowMs : 0 ≤ settings.recvWindowMs ∧ settings.recvWindowMs ≤ 60000
  requestTimeoutMs : 0 < settings.requestTimeoutMs
  wsPingIntervalS : 1 ≤ settings.wsPingIntervalS ∧ settings.wsPingIntervalS ≤ 300
  wsMaxMissedPongs : 1 ≤ settings.wsMaxMissedPongs ∧ settings.wsMaxMissedPongs ≤ 100

theorem Binance.configFromJson_sound {node : Json} {settings : Binance.Settings δ}
    (h : Binance.configFromJson doubles node = .ok settings) : settings.Sound doubles := by
  have hwithin {low high x : ℤ} (hx : Binance.within low high x) : low ≤ x ∧ x ≤ high := by
    simpa [Binance.within] using hx
  unfold Binance.configFromJson at h
  split_ifs at h
  · cases h
  · obtain ⟨retry, hretry, h⟩ := bind_eq_ok.mp h
    dsimp only at h
    split_ifs at h
    · cases h
    · have hsettings := Except.ok.inj h
      rw [← hsettings]
      refine ⟨?_, hwithin (Binance.readInteger_admits _ rfl), ?_,
        hwithin (Binance.readInteger_admits _ rfl), hwithin (Binance.readInteger_admits _ rfl)⟩
      · unfold Binance.retryField at hretry
        split at hretry
        · rw [← Except.ok.inj hretry]
          exact RetrySettings.sound_default
        · exact retryPolicyFromJson_sound RetrySettings.sound_default hretry
      · exact of_decide_eq_true (Binance.readInteger_admits (fun x => decide (0 < x)) rfl)

/-- What the gateway runs with, however the file was written. -/
structure Started.Sound (doubles : Doubles δ) (started : Started δ) : Prop where
  defaultVenue : started.defaultVenue ∈ started.connectors
  risk : started.config.risk.Readable
  okx : ∀ config ∈ started.okx, config.retry.Sound doubles ∧ config.ws.Sound
  binance : ∀ settings ∈ started.binance, settings.Sound doubles

theorem configFromJson_readable {root : Json} {config : GatewayConfig}
    (h : configFromJson root = .ok config) : config.risk.Readable := by
  unfold configFromJson at h
  split_ifs at h
  · cases h
  · simp only [bind_eq_ok] at h
    obtain ⟨_, -, _, -, _, -, risk, hrisk, _, -, _, -, _, -, _, -, h⟩ := h
    rw [← Except.ok.inj h]
    apply readField_rule (P := RiskConfig.Readable) _ _ hrisk
    · intro symbol limits hnone
      cases hnone
    · intro value risk hread
      exact riskConfigFromJson_readable hread

theorem Started.defaultOf_mem {started : Started δ} {venue : String}
    (h : started.defaultOf = some venue) : venue ∈ started.connectors := by
  unfold defaultOf at h
  split_ifs at h with hdefault
  · rwa [← Option.some.inj h]
  · exact List.mem_of_mem_head? h

theorem startup_sound {path : String} {file : Option String} {started : Started δ}
    (h : startup doubles library path file = .ok started) : started.Sound doubles := by
  obtain ⟨hload, hokx, hbinance, hdefault⟩ := startup_ok.mp h
  obtain ⟨_, _, -, -, hconfig⟩ := loadConfig_ok.mp hload
  refine ⟨Started.defaultOf_mem hdefault, configFromJson_readable hconfig, ?_, ?_⟩
  · intro config hmem
    rcases okxSection_cases doubles started.config with
      ⟨-, hrefused⟩ | ⟨-, -, heq⟩ | ⟨-, -, heq⟩
    · rw [hokx] at hrefused
      cases hrefused
    · obtain ⟨parsed, hparsed, hsome⟩ := map_some_ok.mp (heq.symm.trans hokx)
      rw [hsome] at hmem
      rw [← Option.some.inj hmem]
      exact Okx.configFromJson_sound hparsed
    · rw [← Except.ok.inj (heq.symm.trans hokx)] at hmem
      cases hmem
  · intro settings hmem
    rcases binanceSection_cases doubles started.config with ⟨-, heq⟩ | ⟨-, heq⟩
    · obtain ⟨parsed, hparsed, hsome⟩ := map_some_ok.mp (heq.symm.trans hbinance)
      rw [hsome] at hmem
      rw [← Option.some.inj hmem]
      exact Binance.configFromJson_sound hparsed
    · rw [← Except.ok.inj (heq.symm.trans hbinance)] at hmem
      cases hmem

end

/-! ### What its runs never answer -/

/-- A refusal that blames the limits, not the order. -/
def Error.BlamesLimit (error : Error) : Prop :=
  ∃ limit ∈ ["maxQty", "maxNotional", "maxPosition"], ∃ value, error = riskInvalid limit value

theorem Error.blamesLimit_code {error : Error} (h : error.BlamesLimit) :
    error.code = "risk_invalid_value" := by
  obtain ⟨limit, -, value, rfl⟩ := h
  rfl

/-- The names of the limits, and nothing else that a refusal may start with, have an initial m. -/
theorem Error.blamesLimit_head {error : Error} (h : error.BlamesLimit) :
    error.message.toList.head? = some 'm' := by
  obtain ⟨limit, hlimit, value, rfl⟩ := h
  simp only [riskInvalid, String.toList_append]
  simp only [List.mem_cons, List.not_mem_nil, or_false] at hlimit
  rcases hlimit with rfl | rfl | rfl
  all_goals rfl

section

variable {limits : InstrumentRiskLimits} {symbol : String} {order : RiskOrder}

theorem checkMaxQty_blames {quantity : Decimal} {error : Error} (hlimits : limits.Readable)
    (h : checkMaxQty limits symbol order quantity = some error) : ¬ error.BlamesLimit := by
  unfold checkMaxQty at h
  split_ifs at h with hset
  obtain ⟨d, hd⟩ := hlimits.maxQty hset
  rw [hd] at h
  dsimp only at h
  split_ifs at h
  obtain rfl := Option.some.inj h
  exact fun hblames => absurd (Error.blamesLimit_code hblames) (by simp)

theorem checkMaxNotional_blames {quantity : Decimal} {error : Error} (hlimits : limits.Readable)
    (h : checkMaxNotional limits symbol order quantity = some error) : ¬ error.BlamesLimit := by
  unfold checkMaxNotional at h
  split_ifs at h with hset
  obtain ⟨hset, -⟩ := not_or.mp (by simpa using hset)
  obtain ⟨d, hd⟩ := hlimits.maxNotional hset
  rw [hd] at h
  split at h
  · obtain rfl := Option.some.inj h
    exact fun hblames => absurd (Error.blamesLimit_head hblames) (by simp [riskInvalid])
  · dsimp only at h
    split at h
    · obtain rfl := Option.some.inj h
      exact fun hblames => absurd (Error.blamesLimit_head hblames) (by decide)
    · split_ifs at h
      obtain rfl := Option.some.inj h
      exact fun hblames => absurd (Error.blamesLimit_code hblames) (by simp)

theorem checkMaxPosition_blames {error : Error} (hlimits : limits.Readable)
    (h : checkMaxPosition limits symbol order = some error) : ¬ error.BlamesLimit := by
  unfold checkMaxPosition at h
  split_ifs at h with hset
  obtain ⟨d, hd⟩ := hlimits.maxPosition hset
  rw [hd] at h
  split at h
  · obtain rfl := Option.some.inj h
    exact fun hblames => absurd (Error.blamesLimit_head hblames) (by simp [riskInvalid])
  · dsimp only at h
    split_ifs at h
    all_goals
      obtain rfl := Option.some.inj h
      exact fun hblames => absurd (Error.blamesLimit_code hblames) (by simp)

theorem checkRisk_blames {error : Error} (hlimits : limits.Readable)
    (h : checkRisk (some limits) symbol order = some error) : ¬ error.BlamesLimit := by
  unfold checkRisk at h
  dsimp only at h
  split at h
  · obtain rfl := Option.some.inj h
    exact fun hblames => absurd (Error.blamesLimit_head hblames) (by simp [riskInvalid])
  · rename_i quantity hquantity
    cases hqty : checkMaxQty limits symbol order quantity with
    | some refusal =>
      rw [hqty] at h
      rw [← Option.some.inj h]
      exact checkMaxQty_blames hlimits hqty
    | none =>
      rw [hqty] at h
      cases hnotional : checkMaxNotional limits symbol order quantity with
      | some refusal =>
        rw [hnotional] at h
        rw [← Option.some.inj h]
        exact checkMaxNotional_blames hlimits hnotional
      | none =>
        rw [hnotional] at h
        exact checkMaxPosition_blames hlimits h

end

theorem Oms.riskCheck_blames {oms : Oms} (hrisk : oms.risk.Readable) {symbol : String}
    {replace : Option OrderRecord} {side : Side} {price quantity : String} {error : Error}
    (h : oms.riskCheck symbol replace side price quantity = .rejected error) :
    ¬ error.BlamesLimit := by
  unfold riskCheck at h
  split at h
  · cases h
  · rename_i limits hlimits
    split at h
    · cases h
    · split at h
      · rename_i refusal hrefusal
        rw [← RiskOutcome.rejected.inj h]
        exact checkRisk_blames (hrisk symbol limits hlimits) hrefusal
      · cases h

namespace System

/-- Every action but a restart from another configuration. -/
def Keeps (config : Config) : Action → Prop
  | .restart other _ => other = config
  | _ => True

theorem start_config (config : Config) (log : Option EventLog) :
    (Oms.start config log).config = config := by
  cases log <;> rfl

theorem config_run {config : Config} {s t : System}
    (h : Transition.Reaches step (fun _ a => Keeps config a) s t) (hs : s.oms.config = config) :
    t.oms.config = config := by
  apply Transition.Reaches.invariant (I := fun t => t.oms.config = config) _ h hs
  intro t a u ht ha hs
  by_cases hlive : a.live
  · exact (config_step hs hlive).trans ht
  · cases a with
    | restart other logOpen =>
      obtain rfl := restart_cases hs
      exact (start_config other _).trans ha
    | _ => exact absurd rfl hlive

/-- From whatever file the gateway was started, in every state of every run of it, restarts on the
same file included: the limits are those of the file and no refusal blames them, an order that the
REST handler lets through is never refused for its venue, and a retried request is answered by the
last of at least one and at most a hundred attempts. -/
theorem started_serves {δ : Type} {doubles : Doubles δ} {library : Json.Library} {path : String}
    {file : Option String} {started : Started δ}
    (h : startup doubles library path file = .ok started) (log : Option EventLog) {s : System}
    (hrun : Transition.Reaches step (fun _ a => Keeps started.oms a) (boot started.oms log) s) :
    started.Sound doubles ∧ s.oms.risk = started.config.risk ∧
      (∀ symbol replace side price quantity error,
        s.oms.riskCheck symbol replace side price quantity = .rejected error →
          ¬ error.BlamesLimit) ∧
      (∀ body request venue, Rest.placeRequest s.oms.connectors body = .ok (request, venue) →
        (s.oms.connectorFor (if venue = "" then s.oms.defaultVenue else venue)).isSome) ∧
      ∀ settings ∈ started.retries, ∀ {W α : Type} (clock : RetryClock δ W)
        (attempt : W → Result α × W) (retryable : Error → W → Bool) (w : W),
        ∃ n ≤ kMaxAttemptsLimit, 0 < n ∧ Tries clock attempt retryable n (clock.now w).2
          (withRetries (settings.policy doubles) clock attempt retryable w) := by
  have hsound := startup_sound h
  have hconfig : s.oms.config = started.oms := config_run hrun (start_config _ log)
  have hrisk : s.oms.risk = started.config.risk := congrArg Config.risk hconfig
  have hconnectors : s.oms.connectors = started.connectors := congrArg Config.connectors hconfig
  have hdefault : s.oms.defaultVenue = started.defaultVenue := congrArg Config.defaultVenue hconfig
  refine ⟨hsound, hrisk, ?_, ?_, ?_⟩
  · intro symbol replace side price quantity error hrejected
    exact Oms.riskCheck_blames (hrisk ▸ hsound.risk) hrejected
  · intro body request venue hbody
    obtain ⟨-, -, -, hvenue, -⟩ := Rest.placeRequest_ok_iff.mp hbody
    have hmem : (if venue = "" then s.oms.defaultVenue else venue) ∈ s.oms.connectors := by
      rcases Rest.venueOf_ok.mp hvenue with ⟨-, hempty⟩ | ⟨text, -, hsupported, hlower⟩
      · rw [if_pos hempty, hdefault, hconnectors]
        exact hsound.defaultVenue
      · split_ifs
        · rw [hdefault, hconnectors]
          exact hsound.defaultVenue
        · rw [hlower]
          exact hsupported
    simp [Oms.connectorFor, hmem]
  · intro settings hsettings
    rcases List.mem_append.mp hsettings with hokx | hbinance
    · obtain ⟨config, hconfig, rfl⟩ := List.mem_map.mp hokx
      exact (hsound.okx config (Option.mem_toList.mp hconfig)).1.withRetries
    · obtain ⟨config, hconfig, rfl⟩ := List.mem_map.mp hbinance
      exact (hsound.binance config (Option.mem_toList.mp hconfig)).retry.withRetries

end System

/-! ### A file with one venue -/

/-- Exact arithmetic on the numbers of the defaults. -/
def Doubles.exact : Doubles ℚ where
  ofInt n := n
  ofText text :=
    if text = "2.0" then 2 else if text = "1.0" then 1 else if text = "0.5" then 1 / 2
    else if text = "0.999999" then 999999 / 1000000 else 0
  ge x y := y ≤ x
  mul x y := x * y
  sub x y := x - y
  truncate x := x.num.tdiv x.den
  two_ge_one := by decide +kernel
  half_ge_zero := by decide +kernel
  one_ge_half := by decide +kernel

/-- The default venue is not configured. -/
def okxOnlyText : String :=
  "\x7b\"defaultVenue\":\"kraken\",\"okx\":\x7b\"apiKey\":\"k\",\"secretKey\":\"s\"," ++
    "\"passphrase\":\"p\"\x7d,\"risk\":\x7b\"default\":\x7b\"maxQty\":\"5\"\x7d\x7d\x7d"

def okxOnlyFile : Json :=
  .obj [("defaultVenue", .str "kraken"),
    ("okx", .obj [("apiKey", .str "k"), ("secretKey", .str "s"), ("passphrase", .str "p")]),
    ("risk", .obj [("default", .obj [("maxQty", .str "5")])])]

/-- Parses that file. -/
def okxOnlyLibrary : Json.Library where
  parse text := if text = okxOnlyText then some okxOnlyFile else none
  dump _ := ""
  truncate _ := 0

namespace System

/-- Orders without a venue go to the only one there is, and an order above its limit is refused for
that alone. -/
theorem started_serves_okxOnly : ∃ started : Started ℚ,
    startup Doubles.exact okxOnlyLibrary "gateway.json" (some okxOnlyText) = .ok started ∧
    started.defaultVenue = "okx" ∧ started.Sound Doubles.exact ∧
    ∃ error, (boot started.oms (some .fresh)).oms.riskCheck "BTC-USDT" none .buy "100" "50" =
      .rejected error ∧ error.code = "risk_max_qty" ∧ ¬ error.BlamesLimit := by
  have hstart : startup Doubles.exact okxOnlyLibrary "gateway.json" (some okxOnlyText) =
      .ok ⟨⟨8080, none, none, ⟨some ⟨"5", "", ""⟩, []⟩, "kraken", 30000, .obj [("apiKey", .str "k"),
        ("secretKey", .str "s"), ("passphrase", .str "p")], .obj []⟩, some ⟨"k", "s", "p",
          "www.okx.com", 443, true, false, 5000, 5000, .default .exact, .default⟩, none, "okx"⟩ := rfl
  have hserves := started_serves hstart (some .fresh) (Transition.Reaches.refl _)
  refine ⟨_, hstart, rfl, hserves.1, _, rfl, rfl, ?_⟩
  exact hserves.2.2.1 "BTC-USDT" none .buy "100" "50" _ rfl

end System

end ExchangeGateway
