import Mochad.Bytes
import Mochad.Library.Script

/-!
# The shell of the setup tool

The setup tool is a shell script that works on files. A `World` is what it works on: the files, the
lines that it has printed, and the commands of the host that it has run. Of a file only the content
counts, not its mode, its owner or its times. A command of the shell returns whether it has
succeeded; `check` is what `set -e` makes of it, and is left out in a subshell, where `set -e` is
off.

Files stand under absolute names, without links, and every command may do to them what it asks for.
A command that makes a file is not asked for the directory, which the script makes first. The other
programs that the script calls are a parameter (`Tools`). The commands of the host (`getent`,
`systemctl` and the like) leave the files of the script alone.
-/

namespace Mochad

namespace Setup

/-- The name of a file. -/
abbrev Path := Bytes

/-- What stands under a name. -/
inductive Node
  | dir
  | file (content : Bytes)
  deriving DecidableEq

/-- All the files. -/
abbrev Files := Path → Option Node

/-- What the script works on. -/
structure World where
  files : Files
  printed : List Bytes
  ran : List (List Bytes)

/-- Why the script exits before its end. -/
inductive Exit
  | usage
  | help
  | died (message : Bytes)
  | failed
  deriving DecidableEq

/-- A part of the script. -/
abbrev Shell := EStateM Exit World

/-- The last component of a name. -/
def basename (path : Path) : Bytes := path.rtakeWhile (· ≠ 0x2f)

/-- `dirname`. -/
def dirname (path : Path) : Path :=
  let dir := (path.rdropWhile (· ≠ 0x2f)).rdropWhile (· = 0x2f)
  if dir = [] then ascii "/" else dir

/-- **The name of a file that `render` makes.** -/
def RenderName (path : Path) : Prop := ascii "mochad-redux-render." <+: basename path

instance (path : Path) : Decidable (RenderName path) :=
  inferInstanceAs (Decidable (ascii "mochad-redux-render." <+: basename path))

/-- The programs that the script calls, and what it reads of its surroundings. -/
structure Tools where
  /-- Where `configure` has put the tool. -/
  configuredPrefix : Bytes
  configuredBindir : Bytes
  configuredPkgdatadir : Bytes
  /-- `command -v`. -/
  commandV : Bytes → Bool
  /-- The first field of what a tool for checksums prints of a file. -/
  checksum : (tool : Bytes) → Path → (content : Bytes) → Bytes
  /-- What `sed` prints of a text. -/
  sed : (commands : List Bytes) → (content : Bytes) → Bytes
  /-- How `awk -v` reads a value. -/
  awkValue : Bytes → Bytes
  /-- The name that `mktemp` chooses, after the template that it is given. -/
  mktemp : Files → Option Path
  mktemp_name : ∀ files path, mktemp files = some path → RenderName path
  /-- Whether a command of the host succeeds, after the ones that have run. -/
  succeeds : (ran : List (List Bytes)) → (command : List Bytes) → Bool
  uid : ℕ
  pid : ℕ

/-- What stands under a name. The empty name is no name. -/
def World.node (w : World) (path : Path) : Option Node := if path = [] then none else w.files path

/-- `[ -f path ]`, with the content. -/
def World.content (w : World) (path : Path) : Option Bytes :=
  match w.node path with
  | some (.file content) => some content
  | _ => none

/-- The files after a name is given to something, or taken. -/
def World.put (w : World) (path : Path) (node : Option Node) : World :=
  { w with files := fun q => if q = path then node else w.files q }

/-- `printf`, by lines. -/
def World.print (w : World) (line : Bytes) : World := { w with printed := w.printed ++ [line] }

section Lookups

variable {w : World} {p : Path} {node : Option Node} {line : Bytes}

@[simp] theorem files_put (q : Path) :
    (w.put p node).files q = if q = p then node else w.files q := rfl

@[simp] theorem files_print : (w.print line).files = w.files := rfl

@[simp] theorem node_print (q : Path) : (w.print line).node q = w.node q := rfl

@[simp] theorem content_print (q : Path) : (w.print line).content q = w.content q := rfl

theorem node_of_ne_nil (h : p ≠ []) : w.node p = w.files p := if_neg h

end Lookups

/-! ### Commands -/

/-- A command that `set -e` stops the script at, if it fails. -/
def check (command : Shell Bool) : Shell Unit := do
  if ← command then pure () else throw .failed

/-- `printf`. -/
def print (line : Bytes) : Shell Unit := modify (·.print line)

/-- `die`. -/
def die {α : Type} (message : Bytes) : Shell α := do
  print (ascii "mochad-redux-setup: " ++ message)
  throw (.died message)

/-- `log`. -/
def log (message : Bytes) : Shell Unit := print message

/-- `>path`, of a command that prints a text. -/
def redirect (path : Path) (text : Bytes) : Shell Bool := do
  let w ← get
  if path = [] ∨ w.node path = some .dir then pure false
  else do
    modify (·.put path (some (.file text)))
    pure true

/-- `>>path`. -/
def append (path : Path) (text : Bytes) : Shell Bool := do
  let w ← get
  redirect path ((w.content path).getD [] ++ text)

/-- `rm -f`. -/
def rm (path : Path) : Shell Bool := do
  let w ← get
  match w.node path with
  | none => pure true
  | some .dir => pure false
  | some (.file _) => do
      modify (·.put path none)
      pure true

/-- Where `mv` and `install` put a file: under the name, or into the directory of that name. -/
def target (w : World) (source destination : Path) : Path :=
  if w.node destination = some .dir then destination ++ ascii "/" ++ basename source
  else destination

/-- `mv`, of a file. -/
def mv (source destination : Path) : Shell Bool := do
  let w ← get
  let path := target w source destination
  match w.node source with
  | some (.file content) =>
      if path = source ∨ w.node path = some .dir then pure false
      else do
        modify fun w => (w.put source none).put path (some (.file content))
        pure true
  | _ => pure false

/-- `install -m 0644`. -/
def install0644 (source destination : Path) : Shell Bool := do
  let w ← get
  let path := target w source destination
  match w.content source with
  | none => pure false
  | some content =>
      if path = source ∨ w.node path = some .dir then pure false
      else do
        modify (·.put path (some (.file content)))
        pure true

/-- The names of a directory and of those that it stands in, from the outermost. -/
def directories (read : Bytes) : Bytes → List Path
  | [] => if read = [] ∨ read.getLast? = some 0x2f then [] else [read]
  | b :: rest =>
      if b = 0x2f ∧ read ≠ [] ∧ read.getLast? ≠ some 0x2f then
        read :: directories (read ++ [b]) rest
      else directories (read ++ [b]) rest

/-- The directories of `mkdir -p`, one after the other. -/
def makeDirectories : List Path → Shell Bool
  | [] => pure true
  | path :: paths => do
      let w ← get
      match w.node path with
      | some (.file _) => pure false
      | some .dir => makeDirectories paths
      | none => do
          modify (·.put path (some .dir))
          makeDirectories paths

/-- `mkdir -p`. -/
def mkdirP (path : Path) : Shell Bool := makeDirectories (directories [] path)

section Programs

variable (t : Tools)

/-- `mktemp`: the name of the file that it has made, or nothing. -/
def mktemp : Shell Path := do
  let w ← get
  match t.mktemp w.files with
  | none => pure []
  | some path => do
      modify (·.put path (some (.file [])))
      pure path

/-- A command of the host. -/
def host (command : List Bytes) : Shell Bool := do
  let w ← get
  modify fun w => { w with ran := w.ran ++ [command] }
  pure (t.succeeds w.ran command)

end Programs

/-! ### Records -/

/-- The records that `awk` reads. -/
def awkRecords : Bytes → List Bytes
  | [] => []
  | b :: rest =>
      if b = 0x0a then [] :: awkRecords rest
      else
        match awkRecords rest with
        | [] => [[b]]
        | record :: records => (b :: record) :: records

/-- `$1`, where `-F '|'` separates the fields. -/
def firstField (record : Bytes) : Bytes := record.takeWhile (· ≠ 0x7c)

/-- `$2`. -/
def secondField (record : Bytes) : Bytes :=
  ((record.dropWhile (· ≠ 0x7c)).drop 1).takeWhile (· ≠ 0x7c)

end Setup

end Mochad
