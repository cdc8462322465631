import Mochad.Library.Assignment
import Mochad.X10.Encode

/-!
# Keys and values

A configuration key and its value, wherever they come from, go through `apply_key_value`: it knows
the names of each field, and reads the value as the field wants it.

`keyField` says which field a key names, under which spellings; `fieldValue` which texts a field
takes. `applyKeyValue_assigns` is that the function does what the two say.
-/

namespace Mochad

/-! ### The configuration and its fields -/

/-- `mochad_config`, with the fields that only `main` reads. -/
structure LoadedConfig extends MochadConfig where
  checkConfig : Bool
  printConfig : Bool
  showHelp : Bool
  showVersion : Bool
  configFile : Bytes

/-- The fields of `mochad_config`. -/
inductive ConfigField
  | bindAddress
  | serverPort
  | xmlPort
  | openremotePort
  | xmlEnabled
  | openremoteEnabled
  | foreground
  | rawData
  | dualStack
  | logLevel
  | checkConfig
  | printConfig
  | showHelp
  | showVersion
  | configFile
  deriving DecidableEq, Repr

/-- What a field holds. -/
abbrev ConfigField.Value : ConfigField → Type
  | .bindAddress | .configFile => Bytes
  | .serverPort | .xmlPort | .openremotePort => Port
  | .dualStack => DualStackPolicy
  | .logLevel => ℤ
  | _ => Bool

/-- An assignment to a field. -/
abbrev Setting := Sigma ConfigField.Value

namespace LoadedConfig

/-- The value of a field. -/
def get (config : LoadedConfig) : (f : ConfigField) → f.Value
  | .bindAddress => config.bindAddress
  | .serverPort => config.serverPort
  | .xmlPort => config.xmlPort
  | .openremotePort => config.openremotePort
  | .xmlEnabled => config.xmlEnabled
  | .openremoteEnabled => config.openremoteEnabled
  | .foreground => config.foreground
  | .rawData => config.rawData
  | .dualStack => config.dualStack
  | .logLevel => config.logLevel
  | .checkConfig => config.checkConfig
  | .printConfig => config.printConfig
  | .showHelp => config.showHelp
  | .showVersion => config.showVersion
  | .configFile => config.configFile

/-- The configuration with the given values in its fields. -/
def ofFields (v : (f : ConfigField) → f.Value) : LoadedConfig where
  bindAddress := v .bindAddress
  serverPort := v .serverPort
  xmlPort := v .xmlPort
  openremotePort := v .openremotePort
  xmlEnabled := v .xmlEnabled
  openremoteEnabled := v .openremoteEnabled
  foreground := v .foreground
  rawData := v .rawData
  dualStack := v .dualStack
  logLevel := v .logLevel
  checkConfig := v .checkConfig
  printConfig := v .printConfig
  showHelp := v .showHelp
  showVersion := v .showVersion
  configFile := v .configFile

/-- The configuration with another value in a field. -/
def set (config : LoadedConfig) (a : Setting) : LoadedConfig :=
  ofFields (Function.update config.get a.1 a.2)

@[simp] theorem ofFields_get (config : LoadedConfig) : ofFields config.get = config := rfl

@[simp] theorem get_ofFields (v : (f : ConfigField) → f.Value) : (ofFields v).get = v := by
  funext f
  cases f <;> rfl

@[simp] theorem get_set (config : LoadedConfig) (a : Setting) :
    (config.set a).get = Function.update config.get a.1 a.2 :=
  get_ofFields _

end LoadedConfig

/-! ### Texts -/

/-- `tolower`, in the C locale. -/
def tolower (b : UInt8) : UInt8 := if 0x41 ≤ b && b ≤ 0x5a then b + 0x20 else b

/-- `trim`: a text without the white space at its ends. -/
def trim (value : Bytes) : Bytes := (value.dropWhile isspace).rdropWhile isspace

/-- `strip_optional_quotes`. -/
def stripOptionalQuotes (value : Bytes) : Bytes :=
  if value.length < 2 then value
  else if (value.head? = some 0x22 ∧ value.getLast? = some 0x22) ∨
      (value.head? = some 0x27 ∧ value.getLast? = some 0x27) then
    value.tail.dropLast
  else value

/-- A character of a key, whose dashes are underscores. -/
def keyChar (ch : UInt8) : UInt8 := tolower (if ch = 0x2d then 0x5f else ch)

/-- `normalize_key`. -/
def normalizeKey (key : Bytes) : Bytes :=
  let key := key.map keyChar
  if ascii "mochad_" <+: key then key.drop 7 else key

/-- `copy_string`, into a buffer of a size. -/
def copyString (size : ℕ) (value : Bytes) : Except Bytes Bytes :=
  if value = [] then .error (ascii "value cannot be empty")
  else if size ≤ value.length then .error (ascii "value is too long")
  else .ok value

/-- The words for `true` in `parse_bool` and for `enable` in `parse_dual_stack`. -/
def trueWords : List Bytes :=
  [ascii "1", ascii "true", ascii "yes", ascii "on", ascii "enable", ascii "enabled"]

/-- The words for `false` in `parse_bool` and for `disable` in `parse_dual_stack`. -/
def falseWords : List Bytes :=
  [ascii "0", ascii "false", ascii "no", ascii "off", ascii "disable", ascii "disabled"]

/-- `parse_bool`. -/
def parseBool (value : Bytes) : Option Bool :=
  let normalized := value.map tolower
  if 16 ≤ value.length then none
  else if normalized ∈ trueWords then some true
  else if normalized ∈ falseWords then some false
  else none

/-- The ports that `parse_port` admits. A number too large for a `long` is out of range in any
case. -/
def portOf (value : Bytes) : Option Port :=
  (strtol value).bind fun parsed =>
    if h : 1 ≤ parsed ∧ parsed ≤ 65535 then some ⟨parsed.toNat, by omega⟩ else none

/-- `parse_port`. -/
def parsePort (name value : Bytes) : Except Bytes Port :=
  match portOf value with
  | none => .error (name ++ ascii " must be a TCP port from 1 to 65535: " ++ value)
  | some port => .ok port

/-- `parse_dual_stack`. -/
def parseDualStack (value : Bytes) : Option DualStackPolicy :=
  let normalized := value.map keyChar
  if 24 ≤ value.length then none
  else if normalized = ascii "auto" then some .auto
  else if normalized ∈ trueWords then some .enable
  else if normalized ∈ falseWords ∨ normalized = ascii "ipv6_only" then some .disable
  else none

/-- The numbers that `parse_log_level` admits. -/
def logLevelNumber (value : Bytes) : Option ℤ :=
  (strtol value).bind fun parsed =>
    if logEmerg ≤ parsed ∧ parsed ≤ logDebug then some parsed else none

/-- The names that `parse_log_level` admits. -/
def logLevelNamed (normalized : Bytes) : Option ℤ :=
  if normalized = ascii "emerg" ∨ normalized = ascii "emergency" then some 0
  else if normalized = ascii "alert" then some 1
  else if normalized = ascii "crit" ∨ normalized = ascii "critical" then some 2
  else if normalized = ascii "err" ∨ normalized = ascii "error" then some 3
  else if normalized = ascii "warning" ∨ normalized = ascii "warn" then some 4
  else if normalized = ascii "notice" then some 5
  else if normalized = ascii "info" then some 6
  else if normalized = ascii "debug" then some 7
  else none

/-- `parse_log_level`. -/
def parseLogLevel (value : Bytes) : Option ℤ :=
  match logLevelNumber value with
  | some parsed => some parsed
  | none => if 16 ≤ value.length then none else logLevelNamed (value.map tolower)

/-! ### One key and its value -/

/-- A boolean key of `apply_key_value`. -/
def applyBool (rawKey value : Bytes) (store : Bool → LoadedConfig) : Except Bytes LoadedConfig :=
  match parseBool value with
  | none => .error (ascii "invalid boolean for " ++ rawKey)
  | some boolValue => .ok (store boolValue)

/-- What `apply_key_value` does with a normalized key and an unquoted value. -/
def applyNormalized (rawKey key value : Bytes) (config : LoadedConfig) :
    Except Bytes LoadedConfig :=
  if key = ascii "bind" ∨ key = ascii "bind_address" then
    (copyString 128 value).map fun text => { config with bindAddress := text }
  else if key = ascii "port" ∨ key = ascii "server_port" ∨ key = ascii "main_port" then
    (parsePort rawKey value).map fun port => { config with serverPort := port }
  else if key = ascii "xml_port" then
    (parsePort rawKey value).map fun port => { config with xmlPort := port }
  else if key = ascii "openremote_port" then
    (parsePort rawKey value).map fun port => { config with openremotePort := port }
  else if key = ascii "xml_enabled" ∨ key = ascii "enable_xml" then
    applyBool rawKey value fun b => { config with xmlEnabled := b }
  else if key = ascii "openremote_enabled" ∨ key = ascii "enable_openremote" then
    applyBool rawKey value fun b => { config with openremoteEnabled := b }
  else if key = ascii "foreground" then
    applyBool rawKey value fun b => { config with foreground := b }
  else if key = ascii "raw_data" then
    applyBool rawKey value fun b => { config with rawData := b }
  else if key = ascii "dual_stack" then
    match parseDualStack value with
    | none => .error (ascii "dual_stack must be auto, enable, or disable: " ++ value)
    | some policy => .ok { config with dualStack := policy }
  else if key = ascii "log_level" then
    match parseLogLevel value with
    | none => .error (ascii "invalid log_level: " ++ value)
    | some level => .ok { config with logLevel := level }
  else .error (ascii "unknown configuration key: " ++ rawKey)

/-- `apply_key_value`. The errors are the texts before the caller's buffer cuts them. -/
def applyKeyValue (rawKey rawValue : Bytes) (config : LoadedConfig) :
    Except Bytes LoadedConfig :=
  if 64 ≤ rawKey.length then .error (ascii "configuration key too long: " ++ rawKey)
  else if 256 ≤ rawValue.length then
    .error (ascii "configuration value too long for key: " ++ rawKey)
  else applyNormalized rawKey (normalizeKey rawKey) (stripOptionalQuotes rawValue) config

/-! ### What keys and values mean -/

/-- **The names of the fields.** -/
def keyNames : List (Bytes × ConfigField) :=
  [(ascii "bind", .bindAddress), (ascii "bind_address", .bindAddress),
    (ascii "port", .serverPort), (ascii "server_port", .serverPort),
    (ascii "main_port", .serverPort), (ascii "xml_port", .xmlPort),
    (ascii "openremote_port", .openremotePort), (ascii "xml_enabled", .xmlEnabled),
    (ascii "enable_xml", .xmlEnabled), (ascii "openremote_enabled", .openremoteEnabled),
    (ascii "enable_openremote", .openremoteEnabled), (ascii "foreground", .foreground),
    (ascii "raw_data", .rawData), (ascii "dual_stack", .dualStack),
    (ascii "log_level", .logLevel)]

/-- **A key spells a name**, in letters of either case, with dashes or underscores, and with the
prefix of the environment variables or without it. -/
def Spells (key name : Bytes) : Prop :=
  key.map keyChar = name ∨ key.map keyChar = ascii "mochad_" ++ name

instance (key name : Bytes) : Decidable (Spells key name) := inferInstanceAs (Decidable (_ ∨ _))

/-- The field that a name is for. -/
def namedField (name : Bytes) : Option ConfigField :=
  (keyNames.find? fun row => name = row.1).map (·.2)

/-- **The field that a key names.** -/
def keyField (key : Bytes) : Option ConfigField :=
  (keyNames.find? fun row => Spells key row.1).map (·.2)

/-- **The value that a text gives a field**, if the field takes the text. No text is for the fields
that have no key. -/
def fieldValue (text : Bytes) : (f : ConfigField) → Option f.Value
  | .bindAddress => (copyString 128 text).toOption
  | .serverPort | .xmlPort | .openremotePort => portOf text
  | .xmlEnabled | .openremoteEnabled | .foreground | .rawData => parseBool text
  | .dualStack => parseDualStack text
  | .logLevel => parseLogLevel text
  | .checkConfig | .printConfig | .showHelp | .showVersion | .configFile => none

/-- **What a key and its value assign**: the value, with or without quotes, to the field that the
key names. -/
def entry (rawKey rawValue : Bytes) : Option (List Setting) :=
  if rawKey.length < 64 ∧ rawValue.length < 256 then
    (keyField rawKey).bind fun f =>
      (fieldValue (stripOptionalQuotes rawValue) f).map fun v => [⟨f, v⟩]
  else none

/-! ### The function does what they say -/

open Layers

/-- A key spells a name exactly if it is normalized to the name. -/
theorem normalizeKey_eq_iff {key name : Bytes} (hname : ¬ascii "mochad_" <+: name) :
    normalizeKey key = name ↔ Spells key name := by
  rw [Spells, normalizeKey]
  by_cases hmochad : ascii "mochad_" <+: key.map keyChar
  · obtain ⟨rest, hrest⟩ := hmochad
    have hne : key.map keyChar ≠ name := fun h => hname (h ▸ ⟨rest, hrest⟩)
    rw [← hrest] at hne ⊢
    have hdrop : (ascii "mochad_" ++ rest).drop 7 = rest := List.drop_left' (by decide)
    simp [hne, hdrop]
  · have hne : key.map keyChar ≠ ascii "mochad_" ++ name := fun h => hmochad ⟨name, h.symm⟩
    simp [hmochad, hne]

/-- The field of a key is found by its normalized name. -/
theorem keyField_eq (key : Bytes) : keyField key = namedField (normalizeKey key) := by
  have hnames : ∀ row ∈ keyNames, ¬ascii "mochad_" <+: row.1 := by decide +kernel
  rw [keyField, namedField]
  congr 1
  exact List.find?_congr fun row hrow => decide_eq_decide.mpr
    (normalizeKey_eq_iff (hnames row hrow)).symm

/-- A field that is stored where its value is read is assigned that value. -/
theorem get_stored {f : ConfigField} {value : Option f.Value} {config : LoadedConfig}
    {result : Except Bytes LoadedConfig}
    (h : result.toOption = value.map fun v => config.set ⟨f, v⟩) :
    result.toOption.map LoadedConfig.get =
      (value.map fun v => [(⟨f, v⟩ : Setting)]).map fun as => assign as config.get := by
  rw [h]
  cases value with
  | none => rfl
  | some v => exact congrArg some (LoadedConfig.get_set config ⟨f, v⟩)

theorem toOption_copyString (size : ℕ) (text : Bytes) (store : Bytes → LoadedConfig) :
    ((copyString size text).map store).toOption = (copyString size text).toOption.map store := by
  cases copyString size text <;> rfl

theorem toOption_parsePort (name value : Bytes) (store : Port → LoadedConfig) :
    ((parsePort name value).map store).toOption = (portOf value).map store := by
  rw [parsePort]
  cases portOf value <;> rfl

theorem toOption_applyBool (rawKey value : Bytes) (store : Bool → LoadedConfig) :
    (applyBool rawKey value store).toOption = (parseBool value).map store := by
  rw [applyBool]
  cases parseBool value <;> rfl

/-- What is stored for a normalized key is the value of the field that it names. -/
theorem applyNormalized_assigns (rawKey key value : Bytes) :
    Assigns LoadedConfig.get (applyNormalized rawKey key value)
      ((namedField key).bind fun f => (fieldValue value f).map fun v => [⟨f, v⟩]) := by
  intro config
  have hfield : ∀ f, namedField key = some f →
      ((namedField key).bind fun f => (fieldValue value f).map fun v => [(⟨f, v⟩ : Setting)]) =
        (fieldValue value f).map fun v => [⟨f, v⟩] := by
    intro f hname
    rw [hname]
    rfl
  rw [applyNormalized]
  by_cases hbind : key = ascii "bind" ∨ key = ascii "bind_address"
  · rw [if_pos hbind, hfield .bindAddress (by rcases hbind with rfl | rfl <;> decide +kernel)]
    exact get_stored (toOption_copyString ..)
  by_cases hport : key = ascii "port" ∨ key = ascii "server_port" ∨ key = ascii "main_port"
  · rw [if_neg hbind, if_pos hport,
      hfield .serverPort (by rcases hport with rfl | rfl | rfl <;> decide +kernel)]
    exact get_stored (toOption_parsePort ..)
  by_cases hxmlPort : key = ascii "xml_port"
  · rw [if_neg hbind, if_neg hport, if_pos hxmlPort,
      hfield .xmlPort (by rw [hxmlPort]; decide +kernel)]
    exact get_stored (toOption_parsePort ..)
  rw [if_neg hbind, if_neg hport, if_neg hxmlPort]
  by_cases horPort : key = ascii "openremote_port"
  · rw [if_pos horPort, hfield .openremotePort (by rw [horPort]; decide +kernel)]
    exact get_stored (toOption_parsePort ..)
  by_cases hxml : key = ascii "xml_enabled" ∨ key = ascii "enable_xml"
  · rw [if_neg horPort, if_pos hxml,
      hfield .xmlEnabled (by rcases hxml with rfl | rfl <;> decide +kernel)]
    exact get_stored (toOption_applyBool ..)
  by_cases hor : key = ascii "openremote_enabled" ∨ key = ascii "enable_openremote"
  · rw [if_neg horPort, if_neg hxml, if_pos hor,
      hfield .openremoteEnabled (by rcases hor with rfl | rfl <;> decide +kernel)]
    exact get_stored (toOption_applyBool ..)
  rw [if_neg horPort, if_neg hxml, if_neg hor]
  by_cases hforeground : key = ascii "foreground"
  · rw [if_pos hforeground, hfield .foreground (by rw [hforeground]; decide +kernel)]
    exact get_stored (toOption_applyBool ..)
  by_cases hraw : key = ascii "raw_data"
  · rw [if_neg hforeground, if_pos hraw, hfield .rawData (by rw [hraw]; decide +kernel)]
    exact get_stored (toOption_applyBool ..)
  rw [if_neg hforeground, if_neg hraw]
  by_cases hdual : key = ascii "dual_stack"
  · rw [if_pos hdual, hfield .dualStack (by rw [hdual]; decide +kernel)]
    refine get_stored ?_
    cases hvalue : parseDualStack value <;> simp only [fieldValue, hvalue] <;> rfl
  by_cases hlevel : key = ascii "log_level"
  · rw [if_neg hdual, if_pos hlevel, hfield .logLevel (by rw [hlevel]; decide +kernel)]
    refine get_stored ?_
    cases hvalue : parseLogLevel value <;> simp only [fieldValue, hvalue] <;> rfl
  rw [if_neg hdual, if_neg hlevel]
  have hunknown : namedField key = none := by
    rw [namedField, Option.map_eq_none_iff, List.find?_eq_none]
    simp only [keyNames, List.forall_mem_cons, decide_eq_true_eq]
    simp only [not_or] at hbind hport hxml hor
    exact ⟨hbind.1, hbind.2, hport.1, hport.2.1, hport.2.2, hxmlPort, horPort, hxml.1, hxml.2,
      hor.1, hor.2, hforeground, hraw, hdual, hlevel, nofun⟩
  rw [hunknown]
  rfl

/-- **`apply_key_value` makes the assignment that its key and value are for**, and fails if they
are for none. -/
theorem applyKeyValue_assigns (rawKey rawValue : Bytes) :
    Assigns LoadedConfig.get (applyKeyValue rawKey rawValue) (entry rawKey rawValue) := by
  intro config
  rw [applyKeyValue, entry]
  by_cases hkey : 64 ≤ rawKey.length
  · rw [if_pos hkey, if_neg fun h => Nat.not_lt.mpr hkey h.1]
    rfl
  by_cases hvalue : 256 ≤ rawValue.length
  · rw [if_neg hkey, if_pos hvalue, if_neg fun h => Nat.not_lt.mpr hvalue h.2]
    rfl
  rw [if_neg hkey, if_neg hvalue, if_pos ⟨Nat.not_le.mp hkey, Nat.not_le.mp hvalue⟩, keyField_eq]
  exact applyNormalized_assigns _ _ _ config

end Mochad
