import NetReactor.Error

/-!
# Trees of directories

Which directories and files there are, and how a directory is made. A way is walked name by name from
the top, and the first name that cannot be gone through tells why: **what it reaches is no directory,
the name is too long, or nothing is there**. `makeAll` makes a directory with everything above it, and
is content with one that is there already.
-/

namespace NetReactor

/-- A place in a tree: the names on the way from it to the top. -/
abbrev Place := List String

/-- What stands at a place. -/
inductive FileKind
  | directory
  /-- A file or a device: nothing is below it. -/
  | file
  /-- A directory that takes no new name, and the error number that says so. -/
  | fixed (code : Int)
deriving DecidableEq, Repr

/-- A part of a path that leads on: a name, and the length of the path's text up to its end. -/
structure PathStep where
  name : String
  length : Nat
deriving DecidableEq, Repr

namespace PathStep

/-- The parts of a text of `offset` octets that lead on; `.` and empty parts do not. -/
def ofParts (offset : Nat) : List String → List PathStep
  | [] => []
  | part :: rest =>
    let reached := offset + part.utf8ByteSize
    let later := ofParts (reached + 1) rest
    if part = "" || part = "." then later else ⟨part, reached⟩ :: later

/-- The steps of a path that is written behind `offset` octets. -/
def ofPath (offset : Nat) (path : String) : List PathStep :=
  ofParts offset (path.splitToList (· = '/'))

/-- The name of a step upwards. -/
def up : String := ".."

end PathStep

/-- What stands where; the top is always a directory. -/
abbrev FileTree := List (Place × FileKind)

namespace FileTree

/-- The longest name. -/
def nameLimit : Nat := 255

/-- The length from which on a path is refused unseen. -/
def pathLimit : Nat := 4096

def kind? (t : FileTree) (p : Place) : Option FileKind :=
  if p.isEmpty then some .directory else t.lookup p

/-- The place of a name in a directory, and what is there. -/
def enter (t : FileTree) (here : Place) (name : String) : Except IoError (Place × Option FileKind) :=
  if name = PathStep.up then .ok (here.tail, t.kind? here.tail)
  else if nameLimit < name.utf8ByteSize then .error (.os OsError.nameTooLong)
  else .ok (name :: here, t.kind? (name :: here))

/-- The directory at the end of a way. -/
def walk (t : FileTree) (here : Place) : List PathStep → Except IoError Place
  | [] => .ok here
  | s :: rest => do
    match ← t.enter here s.name with
    | (_, none) => .error (.os OsError.noEntry)
    | (_, some .file) => .error (.os OsError.notDirectory)
    | (there, some _) => t.walk there rest

/-- Whether the text of a way's path is too long to be looked at. -/
def isOverlong (way : List PathStep) : Bool := way.getLast?.any fun s => pathLimit ≤ s.length

/-- Makes one directory in one that is there. -/
def make (t : FileTree) (way : List PathStep) : Except IoError FileTree :=
  if isOverlong way then .error (.os OsError.nameTooLong)
  else
    match way.getLast? with
    | none => .error (.os OsError.fileExists)
    | some s => do
      let here ← t.walk [] way.dropLast
      match ← t.enter here s.name, t.kind? here with
      | (_, some _), _ => .error (.os OsError.fileExists)
      | (_, none), some (.fixed code) => .error (.os code)
      | (there, none), _ => .ok ((there, .directory) :: t)

/-- Whether a way ends at a directory. -/
def isDirectory (t : FileTree) (way : List PathStep) : Bool :=
  !isOverlong way && (t.walk [] way).isOk

/-- Makes a directory, or finds it made. -/
def provide (t : FileTree) (way : List PathStep) : Except IoError FileTree :=
  match t.make way with
  | .error e => if t.isDirectory way then .ok t else .error e
  | made => made

/-- Makes a directory and, where they are missing, those above it. -/
def makeAll (t : FileTree) (way : List PathStep) : Except IoError FileTree :=
  match t.provide way with
  | .error (.os code) =>
    if code = OsError.noEntry then
      if _ : way = [] then .error (.os code)
      else do (← t.makeAll way.dropLast).provide way
    else .error (.os code)
  | answer => answer
termination_by way.length
decreasing_by
  have := List.length_pos_iff.2 ‹way ≠ []›
  simp only [List.length_dropLast]
  omega

/-- A directory at the top and the files in it. -/
def folder (name : String) (kind : FileKind) (files : List String) : FileTree :=
  ([name], kind) :: files.map fun file => ([file, name], .file)

/-- The places that are there on every host: devices, settings, programs, and two directories that
show the system itself. -/
def standard : FileTree :=
  folder "dev" .directory ["null", "zero", "full", "random", "urandom", "tty", "ptmx", "stdin",
    "stdout", "stderr"] ++
  folder "etc" .directory ["passwd", "group", "shadow", "hosts", "hostname", "resolv.conf", "fstab",
    "os-release"] ++
  folder "bin" .directory ["sh", "bash", "ls", "cat", "true", "false"] ++
  folder "proc" (.fixed OsError.noEntry) ["version", "cpuinfo", "meminfo", "uptime", "stat", "mounts",
    "loadavg", "filesystems", "cmdline"] ++
  folder "sys" (.fixed OsError.readOnly) []

end FileTree

end NetReactor
