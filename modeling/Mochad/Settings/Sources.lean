import Mochad.Settings.Values

/-!
# Loading the configuration

`mochad_config_load` starts from the defaults and applies, one after the other, the lines of the
config file, the environment variables and the options of the command line. What it asks of the
system – the environment, the files and the resolver – is gathered in `ConfigSources`.

The file that is read is chosen before anything else is applied, by a first pass over the
arguments (`find_config_file_arg`).
-/

namespace Mochad

open Layers

/-! ### What is loaded from -/

/-- An open config file: the bytes that are read from it, and whether reading ended with an
error. -/
structure ConfigStream where
  content : Bytes
  ferror : Bool

/-- What the configuration is loaded from. -/
structure ConfigSources where
  /-- The arguments after the name of the program. -/
  argv : List Bytes
  /-- `getenv`. -/
  getenv : Bytes → Option Bytes
  /-- `fopen` for reading: the stream, or the text of the error. -/
  fopen : Bytes → Except Bytes ConfigStream
  /-- `getaddrinfo`, for a numeric address. -/
  getaddrinfo : Bytes → Port → Bool

/-- `mochad_config_defaults`, with the fields that only `main` reads. -/
def loadedConfigDefaults : LoadedConfig where
  toMochadConfig := mochadConfigDefaults
  checkConfig := false
  printConfig := false
  showHelp := false
  showVersion := false
  configFile := []

/-! ### The config file -/

/-- What one call of `fgets` after the other reads into a buffer of a size, when `taken` is in
the buffer: up to and with a newline, or as much as fits. -/
def fgetsPieces (size : ℕ) (taken : Bytes) : Bytes → List Bytes
  | [] => if taken = [] then [] else [taken]
  | b :: rest =>
      let taken := taken ++ [b]
      if b = 0x0a ∨ size ≤ taken.length + 1 then taken :: fgetsPieces size [] rest
      else fgetsPieces size taken rest

/-- A piece of the config file up to a `#`, without the white space at its ends. -/
def lineText (line : Bytes) : Bytes := trim ((cstring line).takeWhile (· ≠ 0x23))

/-- The loop of `load_config_file` over what `fgets` reads; `errorLen` is the size of the caller's
buffer for the error. -/
def loadLines (errorLen : ℕ) : ℕ → List Bytes → LoadedConfig → Except Bytes LoadedConfig
  | _, [], config => .ok config
  | lineNumber, line :: lines, config =>
      let text := lineText line
      if text = [] then loadLines errorLen (lineNumber + 1) lines config
      else if 0x3d ∉ text then
        .error (ascii "invalid config file line " ++ fmtNat lineNumber ++
          ascii ": expected key=value")
      else
        let value := trim (text.dropWhile (· ≠ 0x3d)).tail
        let key := trim (text.takeWhile (· ≠ 0x3d))
        ((applyKeyValue key value config).mapError fun error =>
            formatBounded 256 (ascii "invalid config file line " ++ fmtNat lineNumber ++
              ascii ": " ++ formatBounded errorLen error))
          >>= loadLines errorLen (lineNumber + 1) lines

/-- `load_config_file`. -/
def loadConfigFile (errorLen : ℕ) (fopen : Bytes → Except Bytes ConfigStream) (path : Bytes)
    (config : LoadedConfig) : Except Bytes LoadedConfig :=
  if path = [] then .ok config
  else
    match fopen path with
    | .error strerror =>
        .error (ascii "could not open config file " ++ path ++ ascii ": " ++ strerror)
    | .ok file =>
        loadLines errorLen 1 (fgetsPieces 512 [] file.content) config >>= fun config =>
          if file.ferror then .error (ascii "error reading config file " ++ path) else .ok config

/-! ### The environment -/

/-- `apply_env_value`. -/
def applyEnvValue (errorLen : ℕ) (getenv : Bytes → Option Bytes) (envName key : Bytes)
    (config : LoadedConfig) : Except Bytes LoadedConfig :=
  match getenv envName with
  | none | some [] => .ok config
  | some value =>
      (applyKeyValue key value config).mapError fun error =>
        formatBounded 256 (ascii "invalid " ++ envName ++ ascii ": " ++
          formatBounded errorLen error)

/-- The variables that `apply_environment` reads, in its order, each with its key. -/
def environmentVariables : List (Bytes × Bytes) :=
  [(ascii "MOCHAD_BIND", ascii "bind"), (ascii "MOCHAD_BIND_ADDRESS", ascii "bind"),
    (ascii "MOCHAD_PORT", ascii "port"), (ascii "MOCHAD_SERVER_PORT", ascii "port"),
    (ascii "MOCHAD_XML_ENABLED", ascii "xml_enabled"), (ascii "MOCHAD_XML_PORT", ascii "xml_port"),
    (ascii "MOCHAD_OPENREMOTE_ENABLED", ascii "openremote_enabled"),
    (ascii "MOCHAD_OPENREMOTE_PORT", ascii "openremote_port"),
    (ascii "MOCHAD_FOREGROUND", ascii "foreground"), (ascii "MOCHAD_RAW_DATA", ascii "raw_data"),
    (ascii "MOCHAD_DUAL_STACK", ascii "dual_stack"), (ascii "MOCHAD_LOG_LEVEL", ascii "log_level")]

/-- `apply_environment`. -/
def applyEnvironment (errorLen : ℕ) (getenv : Bytes → Option Bytes) (config : LoadedConfig) :
    Except Bytes LoadedConfig :=
  environmentVariables.foldlM
    (fun config row => applyEnvValue errorLen getenv row.1 row.2 config) config

/-! ### The command line -/

/-- What an option of the command line does. -/
inductive CliOption
  /-- `--config`, whose argument `apply_cli` skips. -/
  | config
  /-- An option that sets a field by itself. -/
  | flag (setting : Setting)
  /-- An option whose argument is the value of a key. -/
  | keyed (key : Bytes)

/-- The options that `apply_cli` knows, in its order. -/
def cliOptions : List (Bytes × CliOption) :=
  [(ascii "--config", .config),
    (ascii "-d", .flag ⟨.foreground, true⟩), (ascii "--foreground", .flag ⟨.foreground, true⟩),
    (ascii "--background", .flag ⟨.foreground, false⟩),
    (ascii "--raw-data", .flag ⟨.rawData, true⟩), (ascii "--no-raw-data", .flag ⟨.rawData, false⟩),
    (ascii "--bind", .keyed (ascii "bind")), (ascii "--port", .keyed (ascii "port")),
    (ascii "--enable-xml", .flag ⟨.xmlEnabled, true⟩),
    (ascii "--disable-xml", .flag ⟨.xmlEnabled, false⟩),
    (ascii "--xml-port", .keyed (ascii "xml_port")),
    (ascii "--enable-openremote", .flag ⟨.openremoteEnabled, true⟩),
    (ascii "--disable-openremote", .flag ⟨.openremoteEnabled, false⟩),
    (ascii "--openremote-port", .keyed (ascii "openremote_port")),
    (ascii "--dual-stack", .keyed (ascii "dual_stack")),
    (ascii "--log-level", .keyed (ascii "log_level")),
    (ascii "--check-config", .flag ⟨.checkConfig, true⟩),
    (ascii "--print-config", .flag ⟨.printConfig, true⟩),
    (ascii "--version", .flag ⟨.showVersion, true⟩),
    (ascii "-h", .flag ⟨.showHelp, true⟩), (ascii "--help", .flag ⟨.showHelp, true⟩)]

/-- The option that an argument is. -/
def cliOption (arg : Bytes) : Option CliOption :=
  (cliOptions.find? fun row => arg = row.1).map (·.2)

/-- The error of `require_arg`. -/
def requiresArgument (arg : Bytes) : Bytes := arg ++ ascii " requires an argument"

/-- The loop of `find_config_file_arg` over the arguments. -/
def findConfigArgs (path : Bytes) : List Bytes → Except Bytes Bytes
  | [] => .ok path
  | [arg] => if arg = ascii "--config" then .error (requiresArgument arg) else .ok path
  | arg :: value :: args =>
      if arg = ascii "--config" then
        copyString 512 value >>= fun path => findConfigArgs path args
      else findConfigArgs path (value :: args)

/-- `find_config_file_arg`. -/
def findConfigFileArg (sources : ConfigSources) : Except Bytes Bytes :=
  match sources.getenv (ascii "MOCHAD_CONFIG") with
  | none | some [] => findConfigArgs [] sources.argv
  | some envPath => copyString 512 envPath >>= fun path => findConfigArgs path sources.argv

/-- `apply_cli`. -/
def applyCli : List Bytes → LoadedConfig → Except Bytes LoadedConfig
  | [], config => .ok config
  | [arg], config =>
      match cliOption arg with
      | none => .error (ascii "unknown option " ++ arg)
      | some (.flag setting) => .ok (config.set setting)
      | some .config | some (.keyed _) => .error (requiresArgument arg)
  | arg :: value :: args, config =>
      match cliOption arg with
      | none => .error (ascii "unknown option " ++ arg)
      | some (.flag setting) => applyCli (value :: args) (config.set setting)
      | some .config => applyCli args config
      | some (.keyed key) => applyKeyValue key value config >>= applyCli args

/-! ### All of it -/

/-- The file layer of `mochad_config_load`, with the path that it has found. -/
def loadFile (errorLen : ℕ) (sources : ConfigSources) (path : Bytes) (config : LoadedConfig) :
    Except Bytes LoadedConfig :=
  if path = [] then .ok config
  else
    copyString 512 path >>= fun file =>
      loadConfigFile errorLen sources.fopen path { config with configFile := file }

/-- What `mochad_config_load` does once it has found the path. -/
def loadFound (errorLen : ℕ) (sources : ConfigSources) (path : Bytes) :
    Except Bytes LoadedConfig := do
  let config ← loadFile errorLen sources path loadedConfigDefaults
  let config ← applyEnvironment errorLen sources.getenv config
  let config ← applyCli sources.argv config
  mochadConfigValidate sources.getaddrinfo config.toMochadConfig
  return config

/-- `mochad_config_load`: the configuration, or the text that it leaves in the caller's buffer of
`errorLen` bytes. -/
def mochadConfigLoad (errorLen : ℕ) (sources : ConfigSources) : Except Bytes LoadedConfig :=
  (findConfigFileArg sources >>= loadFound errorLen sources).mapError (formatBounded errorLen)

end Mochad
