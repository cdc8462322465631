import Mochad.Setup.Shell

/-!
# The setup tool

`mochad-redux-setup` installs and removes the systemd unit and the udev rule, and keeps a record of
what it has put there: a line for each file, with its name and its checksum, in the state file. A
file that stands under one of these names without a record of it is not to be touched without
`--force`.

The script is read function by function. Its variables are global, but each function sets the ones
it uses, so they are arguments and local here.
-/

namespace Mochad

namespace Setup

open Script (subshell)

/-! ### Options -/

/-- The commands. -/
inductive Command
  | install
  | verify
  | status
  | remove
  | purge
  deriving DecidableEq

/-- The variables that the options set. -/
structure Options where
  PREFIX : Bytes
  ROOT : Bytes := ascii "/"
  SERVICE_USER : Bytes := ascii "mochad"
  SERVICE_GROUP : Bytes := ascii "mochad"
  USB_GROUP : Bytes := ascii "x10"
  WITH_SYSTEMD : Bool := true
  WITH_UDEV : Bool := true
  ENABLE : Bool := false
  ENABLE_NOW : Bool := false
  RESTART : Bool := false
  DRY_RUN : Bool := false
  FORCE : Bool := false
  PURGE_ACCOUNTS : Bool := false

/-- The variables that `resolve_paths` sets. -/
structure Paths where
  TEMPLATE_DIR : Path
  BINARY : Path
  ETC_DIR : Path
  STATE_DIR : Path
  STATE_FILE : Path
  SYSTEMD_DEST : Path
  UDEV_DEST : Path
  CONFIG_DEST : Path

/-- A step that is left out under a condition: `[ b ] && step`. -/
def when (b : Bool) (step : Shell Unit) : Shell Unit := if b then step else pure ()

/-- The text of `usage`. -/
def usageText : Bytes := ascii "Usage: mochad-redux-setup <install|verify|status|remove|purge> [options]

Commands:
  install  Create the service identities and render managed host integration.
  verify   Verify managed integration files and current service settings.
  status   Show resolved paths and integration status.
  remove   Remove managed systemd/udev files; preserve config and identities.
  purge    Explicitly remove managed state; --purge-accounts is additionally
           required before any account removal is considered.

Options:
  --enable                 Enable mochad.service after installation.
  --enable-now             Enable and start mochad.service.
  --restart                Restart mochad.service after installation.
  --no-systemd             Do not manage the systemd unit.
  --no-udev                Do not manage the udev rule.
  --service-user NAME      Service user (default: mochad).
  --service-group NAME     Primary service group (default: mochad).
  --usb-group NAME         Supplementary USB group (default: x10).
  --prefix PATH            Installed prefix used for binary and templates.
  --root PATH              Alternate filesystem root for package testing.
  --dry-run                Print operations without changing anything.
  --force                  Replace modified or unmanaged integration files.
  --purge-accounts         With purge only, attempt account cleanup when safe.
  --help                   Show this help."

/-- `usage`. -/
def usage : Shell Unit := print usageText

/-- The options without a value. -/
def Options.flag (o : Options) (arg : Bytes) : Option Options :=
  if arg = ascii "--enable" then some { o with ENABLE := true }
  else if arg = ascii "--enable-now" then some { o with ENABLE_NOW := true }
  else if arg = ascii "--restart" then some { o with RESTART := true }
  else if arg = ascii "--no-systemd" then some { o with WITH_SYSTEMD := false }
  else if arg = ascii "--no-udev" then some { o with WITH_UDEV := false }
  else if arg = ascii "--dry-run" then some { o with DRY_RUN := true }
  else if arg = ascii "--force" then some { o with FORCE := true }
  else if arg = ascii "--purge-accounts" then some { o with PURGE_ACCOUNTS := true }
  else none

/-- The options with a value. -/
def Options.valued (o : Options) (arg : Bytes) : Option (Bytes → Options) :=
  if arg = ascii "--service-user" then some fun value => { o with SERVICE_USER := value }
  else if arg = ascii "--service-group" then some fun value => { o with SERVICE_GROUP := value }
  else if arg = ascii "--usb-group" then some fun value => { o with USB_GROUP := value }
  else if arg = ascii "--prefix" then some fun value => { o with PREFIX := value }
  else if arg = ascii "--root" then some fun value => { o with ROOT := value }
  else none

/-- The loop over the options. -/
def readOptions : Options → List Bytes → Shell Options
  | o, [] => pure o
  | o, arg :: rest =>
      match o.flag arg with
      | some o => readOptions o rest
      | none =>
          match o.valued arg with
          | some set =>
              match rest with
              | [] => die (ascii "missing value for " ++ arg)
              | value :: rest => readOptions (set value) rest
          | none =>
              if arg = ascii "--help" ∨ arg = ascii "-h" then do
                usage
                throw .help
              else die (ascii "unknown option: " ++ arg)

/-- The command of a name. -/
def command (arg : Bytes) : Option Command :=
  if arg = ascii "install" then some .install
  else if arg = ascii "verify" then some .verify
  else if arg = ascii "status" then some .status
  else if arg = ascii "remove" then some .remove
  else if arg = ascii "purge" then some .purge
  else none

/-- The command and the options that the tool is called with. -/
def readArguments (t : Tools) : List Bytes → Shell (Command × Options)
  | [] => do
      usage
      throw .usage
  | arg :: rest =>
      match command arg with
      | none => do
          usage
          throw .usage
      | some c => do
          let o ← readOptions { PREFIX := t.configuredPrefix } rest
          pure (c, o)

/-- The characters of a name. -/
def isNameChar (b : UInt8) : Bool :=
  isdigit b || (0x41 ≤ b && b ≤ 0x5a) || islower b || b = 0x5f || b = 0x2e || b = 0x2d

/-- `validate_name`. -/
def validateName (what name : Bytes) : Shell Unit :=
  if name = [] ∨ name.any (fun b => !isNameChar b) then
    die (what ++ ascii " must contain only letters, digits, dot, underscore, or dash")
  else pure ()

/-- `validate_options`. -/
def validateOptions (o : Options) : Shell Unit := do
  validateName (ascii "service user") o.SERVICE_USER
  validateName (ascii "service group") o.SERVICE_GROUP
  validateName (ascii "USB group") o.USB_GROUP
  when (o.PREFIX.head? ≠ some 0x2f) (die (ascii "--prefix must be absolute"))
  when (o.ROOT.head? ≠ some 0x2f) (die (ascii "--root must be absolute"))
  when ((o.ENABLE_NOW || o.ENABLE || o.RESTART) && !o.WITH_SYSTEMD)
    (die (ascii "service activation options require systemd"))

/-- `root_path`. -/
def rootPath (o : Options) (path : Path) : Path :=
  if o.ROOT = ascii "/" then path
  else (if o.ROOT.getLast? = some 0x2f then o.ROOT.dropLast else o.ROOT) ++ path

/-- What is left of a configured directory once the configured prefix is taken off, or a default
where it does not stand there. -/
def suffixOf (configuredPrefix configured default : Bytes) : Bytes :=
  let rest := if configuredPrefix.isPrefixOf configured then
    configured.drop configuredPrefix.length else configured
  if rest = configured then default else rest

/-- `resolve_paths`. -/
def resolvePaths (t : Tools) (o : Options) : Paths where
  TEMPLATE_DIR := rootPath o (o.PREFIX ++
    suffixOf t.configuredPrefix t.configuredPkgdatadir (ascii "/share/mochad-redux") ++
    ascii "/templates")
  BINARY := rootPath o (o.PREFIX ++
    suffixOf t.configuredPrefix t.configuredBindir (ascii "/bin") ++ ascii "/mochad")
  ETC_DIR := rootPath o (ascii "/etc/mochad-redux")
  STATE_DIR := rootPath o (ascii "/var/lib/mochad-redux")
  STATE_FILE := rootPath o (ascii "/var/lib/mochad-redux") ++ ascii "/managed-files"
  SYSTEMD_DEST := rootPath o (ascii "/etc/systemd/system/mochad.service")
  UDEV_DEST := rootPath o (ascii "/etc/udev/rules.d/91-usb-x10-controllers.rules")
  CONFIG_DEST := rootPath o (ascii "/etc/mochad-redux") ++ ascii "/mochad.conf"

/-- `require_privileges`. -/
def requirePrivileges (t : Tools) (o : Options) : Shell Unit :=
  if o.DRY_RUN || o.ROOT ≠ ascii "/" then pure ()
  else when (t.uid ≠ 0) (die (ascii "run as root or use --dry-run"))

/-- `run`: a command that a dry run only prints. -/
def run (o : Options) (words : List Bytes) (command : Shell Bool) : Shell Unit := do
  log (ascii "+ " ++ (ascii " ").intercalate words)
  when (!o.DRY_RUN) (check command)

/-! ### The state file -/

section State

variable (t : Tools) (p : Paths)

/-- The program that `sha256` calls. -/
def Tools.hashTool : Option Bytes :=
  if t.commandV (ascii "sha256sum") then some (ascii "sha256sum")
  else if t.commandV (ascii "shasum") then some (ascii "shasum")
  else none

/-- `sha256`. A file that cannot be read fails, and so does the subshell that asks for it. -/
def sha256 (path : Path) : Shell Bytes := do
  let w ← get
  match t.hashTool with
  | none => die (ascii "sha256sum or shasum is required")
  | some tool =>
      match w.content path with
      | some content => pure (t.checksum tool path content)
      | none => throw .failed

/-- The checksum in the first record of a file, as `state_hash` prints it. -/
def recordedIn (target : Path) (text : Bytes) : Bytes :=
  match (awkRecords text).find? fun r => firstField r = t.awkValue target with
  | some r => (secondField r).filter (· ≠ 0)
  | none => []

/-- `$(state_hash path || true)`. -/
def stateHash (path : Path) : Shell Bytes := do
  let w ← get
  match w.content p.STATE_FILE with
  | some text => pure (recordedIn t path text)
  | none => pure []

/-- The records of all files but one. -/
def otherRecords (target : Path) (text : Bytes) : Bytes :=
  ((awkRecords text).filter fun r => firstField r ≠ t.awkValue target).flatMap (· ++ [0x0a])

/-- The file that the state is written to before it takes the place of the old one. -/
def stateTmp : Path := p.STATE_FILE ++ ascii ".tmp." ++ fmtNat t.pid

/-- `write_state`. -/
def writeState (path : Path) (hash : Bytes) : Shell Unit := do
  check (mkdirP p.STATE_DIR)
  let w ← get
  let old := match w.content p.STATE_FILE with
    | some text => otherRecords t path text
    | none => []
  check (redirect (stateTmp t p) (old ++ path ++ ascii "|" ++ hash ++ ascii "\n"))
  check (mv (stateTmp t p) p.STATE_FILE)

/-- `remove_state`. Without a state file it fails. -/
def removeState (path : Path) : Shell Bool := do
  let w ← get
  match w.content p.STATE_FILE with
  | none => pure false
  | some text => do
      check (redirect (stateTmp t p) (otherRecords t path text))
      check (mv (stateTmp t p) p.STATE_FILE)
      pure true

end State

/-! ### Files -/

section Files

variable (t : Tools) (o : Options) (p : Paths)

/-- The commands that `render` gives to `sed`. -/
def sedCommands : List Bytes :=
  [ascii "s|@MOCHAD_BINARY@|" ++ p.BINARY ++ ascii "|g",
    ascii "s|@SERVICE_USER@|" ++ o.SERVICE_USER ++ ascii "|g",
    ascii "s|@SERVICE_GROUP@|" ++ o.SERVICE_GROUP ++ ascii "|g",
    ascii "s|@USB_GROUP@|" ++ o.USB_GROUP ++ ascii "|g"]

/-- The last line of a file that the tool manages. -/
def managedLine : Bytes :=
  ascii "# Managed by mochad-redux-setup; local edits require --force to replace.\n"

/-- `render`: it runs in a subshell. -/
def render (source : Path) : Shell Path := do
  let tmp ← mktemp t
  let w ← get
  match w.content source with
  | none => die (ascii "template not found: " ++ source)
  | some text => do
      let _ ← redirect tmp (t.sed (sedCommands o p) text)
      let _ ← append tmp managedLine
      pure tmp

/-- A part whose failure in a subshell stops the script. -/
def orFail {α : Type} : Option α → Shell α
  | some a => pure a
  | none => throw .failed

/-- The check of `install_managed` that a file may be replaced. -/
def mayReplace (rendered destination : Path) (recorded : Bytes) : Shell Unit := do
  let w ← get
  if w.node destination = none then pure ()
  else do
    let actual ← subshell (sha256 t destination)
    let actual ← orFail actual
    if recorded = [] ∨ actual ≠ recorded then
      if o.FORCE then pure ()
      else do
        check (rm rendered)
        die (ascii "refusing to replace unmanaged or modified file: " ++ destination)
    else pure ()

/-- `install_managed`. -/
def installManaged (source destination : Path) : Shell Unit := do
  let rendered ← subshell (render t o p source)
  let rendered ← orFail rendered
  -- the status of this assignment is the one of its last part, which does not fail
  let desired ← subshell (sha256 t rendered)
  let recorded ← stateHash t p destination
  mayReplace t o rendered destination recorded
  if o.DRY_RUN then do
    log (ascii "+ install -m 0644 " ++ rendered ++ ascii " " ++ destination)
    check (rm rendered)
  else do
    check (mkdirP (dirname destination))
    check (install0644 rendered destination)
    check (rm rendered)
    writeState t p destination (desired.getD [])

/-- The check of `remove_managed` that a file may be removed. -/
def mayRemove (destination : Path) (recorded : Bytes) : Shell Unit := do
  let actual ← subshell (sha256 t destination)
  let actual ← orFail actual
  if recorded = [] ∨ actual ≠ recorded then
    if o.FORCE then pure ()
    else die (ascii "refusing to remove unmanaged or modified file: " ++ destination)
  else pure ()

/-- `remove_managed`. -/
def removeManaged (destination : Path) : Shell Unit := do
  let recorded ← stateHash t p destination
  let w ← get
  if w.node destination = none then check (removeState t p destination)
  else do
    mayRemove t o destination recorded
    run o [ascii "rm", ascii "-f", destination] (rm destination)
    when (!o.DRY_RUN) (check (removeState t p destination))

/-- `install_config`. -/
def installConfig : Shell Unit := do
  let w ← get
  if w.node p.CONFIG_DEST ≠ none then
    log (ascii "[INFO] preserving configuration: " ++ p.CONFIG_DEST)
  else if o.DRY_RUN then
    log (ascii "+ install -m 0644 " ++ p.TEMPLATE_DIR ++ ascii "/mochad.conf.example " ++
      p.CONFIG_DEST)
  else do
    check (mkdirP p.ETC_DIR)
    check (install0644 (p.TEMPLATE_DIR ++ ascii "/mochad.conf.example") p.CONFIG_DEST)

end Files

/-! ### Commands -/

section Commands

variable (t : Tools) (o : Options) (p : Paths)

/-- A command of the host that `run` runs. -/
def runHost (words : List Bytes) : Shell Unit := run o words (host t words)

/-- `ensure_identities`. -/
def ensureIdentities : Shell Unit :=
  if o.ROOT ≠ ascii "/" then
    log (ascii "[INFO] alternate root: account creation is not performed")
  else do
    let known ← host t [ascii "getent", ascii "group", o.SERVICE_GROUP]
    when (!known) (runHost t o [ascii "groupadd", ascii "--system", o.SERVICE_GROUP])
    let known ← host t [ascii "getent", ascii "group", o.USB_GROUP]
    when (!known) (runHost t o [ascii "groupadd", ascii "--system", o.USB_GROUP])
    let known ← host t [ascii "id", ascii "-u", o.SERVICE_USER]
    if known then
      runHost t o [ascii "usermod", ascii "-g", o.SERVICE_GROUP, ascii "-a", ascii "-G",
        o.USB_GROUP, o.SERVICE_USER]
    else
      runHost t o [ascii "useradd", ascii "--system", ascii "--no-create-home",
        ascii "--home-dir", ascii "/nonexistent", ascii "--shell", ascii "/usr/sbin/nologin",
        ascii "--gid", o.SERVICE_GROUP, ascii "--groups", o.USB_GROUP, o.SERVICE_USER]

/-- `systemctl_host` and `udevadm_host`. -/
def onHost (program : Bytes) : Bool := o.ROOT = ascii "/" && t.commandV program

/-- `reload_services`. -/
def reloadServices : Shell Unit := do
  when (o.WITH_SYSTEMD && onHost t o (ascii "systemctl")) do
    runHost t o [ascii "systemctl", ascii "daemon-reload"]
    when o.ENABLE (runHost t o [ascii "systemctl", ascii "enable", ascii "mochad.service"])
    when o.ENABLE_NOW
      (runHost t o [ascii "systemctl", ascii "enable", ascii "--now", ascii "mochad.service"])
    when o.RESTART (runHost t o [ascii "systemctl", ascii "restart", ascii "mochad.service"])
  when (o.WITH_UDEV && onHost t o (ascii "udevadm"))
    (runHost t o [ascii "udevadm", ascii "control", ascii "--reload-rules"])

/-- `cmd_install`. -/
def cmdInstall : Shell Unit := do
  ensureIdentities t o
  when o.WITH_SYSTEMD
    (installManaged t o p (p.TEMPLATE_DIR ++ ascii "/mochad.service.in") p.SYSTEMD_DEST)
  when o.WITH_UDEV
    (installManaged t o p (p.TEMPLATE_DIR ++ ascii "/91-usb-x10-controllers.rules.in") p.UDEV_DEST)
  installConfig o p
  reloadServices t o

/-- The report of `cmd_verify` on one file. -/
def verifyFile (destination : Path) : Shell Unit := do
  let w ← get
  if w.node destination = none then log (ascii "MISSING " ++ destination)
  else do
    let recorded ← stateHash t p destination
    if recorded = [] then log (ascii "MODIFIED " ++ destination)
    else do
      let actual ← subshell (sha256 t destination)
      if actual.getD [] = recorded then log (ascii "OK " ++ destination)
      else log (ascii "MODIFIED " ++ destination)

/-- `cmd_verify`. -/
def cmdVerify : Shell Unit := do
  verifyFile t p p.SYSTEMD_DEST
  verifyFile t p p.UDEV_DEST
  let w ← get
  if w.node p.CONFIG_DEST ≠ none then
    log (ascii "OK configuration preserved at " ++ p.CONFIG_DEST)
  else log (ascii "MISSING " ++ p.CONFIG_DEST)

/-- `cmd_status`. -/
def cmdStatus : Shell Unit := do
  log (ascii "prefix=" ++ o.PREFIX)
  log (ascii "binary=" ++ p.BINARY)
  log (ascii "templates=" ++ p.TEMPLATE_DIR)
  log (ascii "service_user=" ++ o.SERVICE_USER ++ ascii " service_group=" ++ o.SERVICE_GROUP ++
    ascii " usb_group=" ++ o.USB_GROUP)
  when (onHost t o (ascii "systemctl")) do
    let _ ← host t [ascii "systemctl", ascii "is-enabled", ascii "mochad.service"]
    pure ()

/-- `cmd_remove`. -/
def cmdRemove : Shell Unit := do
  when o.WITH_SYSTEMD (removeManaged t o p p.SYSTEMD_DEST)
  when o.WITH_UDEV (removeManaged t o p p.UDEV_DEST)
  reloadServices t o
  log (ascii "[INFO] configuration and identities were preserved")

/-- `cmd_purge`. -/
def cmdPurge : Shell Unit := do
  cmdRemove t o p
  when (!o.FORCE) (die (ascii "purge requires --force"))
  let w ← get
  when (w.node p.CONFIG_DEST ≠ none)
    (run o [ascii "rm", ascii "-f", p.CONFIG_DEST] (rm p.CONFIG_DEST))
  when o.PURGE_ACCOUNTS do
    when (o.ROOT ≠ ascii "/") (die (ascii "account purge is only supported on the host root"))
    die (ascii "account purge is intentionally refused until local account usage is reviewed")

/-- The command of the tool. -/
def runCommand : Command → Shell Unit
  | .install => cmdInstall t o p
  | .verify => cmdVerify t p
  | .status => cmdStatus t o p
  | .remove => cmdRemove t o p
  | .purge => cmdPurge t o p

end Commands

/-- What the script does before its command. -/
def prepare (t : Tools) (args : List Bytes) : Shell (Command × Options) := do
  let given ← readArguments t args
  validateOptions given.2
  requirePrivileges t given.2
  pure given

/-- **The script**, with its arguments. -/
def setupTool (t : Tools) (args : List Bytes) : Shell Unit := do
  let given ← prepare t args
  runCommand t given.2 (resolvePaths t given.2) given.1

end Setup

end Mochad
