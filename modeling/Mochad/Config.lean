import Mochad.Bytes

/-!
# Runtime configuration

The configuration record that the rest of the daemon reads, and
`mochadConfigValidate`, the last step of loading it: the bind address must be
numeric, the ports of the enabled listeners must differ, and the log level must be
one that syslog has.

Every writer of a port field – the defaults and `parse_port` – stores a number from
1 to 65535, so a port is a number with that bound.
-/

namespace Mochad

/-- A TCP port, as `parse_port` admits them. -/
abbrev Port := {p : ℕ // 1 ≤ p ∧ p ≤ 65535}

/-- `mochad_dual_stack_policy`. -/
inductive DualStackPolicy
  | auto
  | enable
  | disable
  deriving DecidableEq, Repr

/-- The fields of `mochad_config` that the running daemon reads. -/
structure MochadConfig where
  bindAddress : Bytes
  serverPort : Port
  xmlPort : Port
  openremotePort : Port
  xmlEnabled : Bool
  openremoteEnabled : Bool
  foreground : Bool
  rawData : Bool
  dualStack : DualStackPolicy
  logLevel : ℤ

/-- `LOG_EMERG`. -/
def logEmerg : ℤ := 0

/-- `LOG_DEBUG`. -/
def logDebug : ℤ := 7

/-- `mochad_config_defaults`. -/
def mochadConfigDefaults : MochadConfig where
  bindAddress := ascii "0.0.0.0"
  serverPort := ⟨1099, by decide⟩
  xmlPort := ⟨1100, by decide⟩
  openremotePort := ⟨1101, by decide⟩
  xmlEnabled := true
  openremoteEnabled := true
  foreground := false
  rawData := false
  dualStack := .auto
  logLevel := logDebug

/-- `mochad_config_validate`. Whether `getaddrinfo` takes an address for a numeric
one is the resolver's business. -/
def mochadConfigValidate (getaddrinfo : Bytes → Port → Bool) (config : MochadConfig) :
    Except Bytes Unit :=
  if config.bindAddress = [] then
    .error (ascii "bind address cannot be empty")
  else if !getaddrinfo config.bindAddress config.serverPort then
    .error (ascii "bind address must be a numeric IPv4 or IPv6 address: " ++ config.bindAddress)
  else if (config.xmlEnabled && config.serverPort == config.xmlPort) ||
      (config.openremoteEnabled && config.serverPort == config.openremotePort) ||
      (config.xmlEnabled && config.openremoteEnabled &&
        config.xmlPort == config.openremotePort) then
    .error (ascii "enabled listener ports must be distinct")
  else if config.logLevel < logEmerg ∨ logDebug < config.logLevel then
    .error (ascii "log_level is out of syslog range")
  else .ok ()

/-- **What validation says about ports**: those of the enabled listeners differ – and
nothing about the port of a listener that is disabled. -/
theorem ports_of_validate {getaddrinfo : Bytes → Port → Bool} {config : MochadConfig}
    (h : mochadConfigValidate getaddrinfo config = .ok ()) :
    (config.xmlEnabled = true → config.serverPort ≠ config.xmlPort) ∧
      (config.openremoteEnabled = true → config.serverPort ≠ config.openremotePort) ∧
      (config.xmlEnabled = true → config.openremoteEnabled = true →
        config.xmlPort ≠ config.openremotePort) := by
  simp only [mochadConfigValidate] at h
  split at h
  · cases h
  split at h
  · cases h
  split at h
  · cases h
  next hports =>
    simp only [Bool.or_eq_true, Bool.and_eq_true, beq_iff_eq, not_or, not_and] at hports
    exact ⟨hports.1.1, hports.1.2, fun hx ho => hports.2 ⟨hx, ho⟩⟩

/-- `mochad_config_dual_stack_name`. -/
def mochadConfigDualStackName : DualStackPolicy → Bytes
  | .auto => ascii "auto"
  | .enable => ascii "enable"
  | .disable => ascii "disable"

/-- `mochad_config_log_level_name`. -/
def mochadConfigLogLevelName (level : ℤ) : Bytes :=
  if level = 0 then ascii "emergency"
  else if level = 1 then ascii "alert"
  else if level = 2 then ascii "critical"
  else if level = 3 then ascii "error"
  else if level = 4 then ascii "warning"
  else if level = 5 then ascii "notice"
  else if level = 6 then ascii "info"
  else if level = 7 then ascii "debug"
  else ascii "unknown"

/-- `json_bool`. -/
def jsonBool (b : Bool) : Bytes := if b then ascii "true" else ascii "false"

/-- What `snprintf` leaves in a buffer, for a caller that takes truncation for an
error (`checked_snprintf`). -/
def checkedSnprintf (size : ℕ) (text : Bytes) : Option Bytes :=
  if text.length < size then some text else none

/-- A JSON string of a text that needs no escapes. -/
def jsonString (text : Bytes) : Bytes := 0x22 :: text ++ [0x22]

/-- A JSON object on one line, its members in the order given. -/
def jsonObject (members : List (String × Bytes)) : Bytes :=
  0x7b :: List.intercalate [0x2c] (members.map fun m => jsonString (ascii m.1) ++ 0x3a :: m.2)
    ++ [0x7d]

/-- The member of the JSON outputs that lists the listeners. -/
def jsonListeners (config : MochadConfig) : Bytes :=
  jsonObject [
    ("main", jsonObject [("enabled", jsonBool true), ("port", fmtNat config.serverPort)]),
    ("xml", jsonObject [("enabled", jsonBool config.xmlEnabled),
      ("port", fmtNat config.xmlPort)]),
    ("openremote", jsonObject [("enabled", jsonBool config.openremoteEnabled),
      ("port", fmtNat config.openremotePort)])]

/-- `mochad_config_snprint_json`. -/
def mochadConfigSnprintJson (size : ℕ) (config : MochadConfig) : Option Bytes :=
  checkedSnprintf size (jsonObject [
    ("ok", jsonBool true),
    ("bind_address", jsonString config.bindAddress),
    ("foreground", jsonBool config.foreground),
    ("raw_data", jsonBool config.rawData),
    ("dual_stack", jsonString (mochadConfigDualStackName config.dualStack)),
    ("log_level", jsonString (mochadConfigLogLevelName config.logLevel)),
    ("listeners", jsonListeners config)])

end Mochad
