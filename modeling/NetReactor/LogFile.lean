import NetReactor.FileTree

/-!
# Where a log file goes

The path of a log file names a directory, which is made with everything above it, and a file in it.
**Only when the directory is there is it asked whether there is a name for the file**: a path that ends
in a step upwards, or leads nowhere at all, names none.
-/

namespace NetReactor.LogFile

def noFileName : IoError := .custom .invalidInput "log path has no file name"

def nulInPath : IoError := .custom .invalidInput "file name contained an unexpected NUL byte"

/-- Why no log file can be opened at the end of a path that starts where a way ends, if so. -/
def failure? (t : FileTree) (start path : List PathStep) : Option Failure :=
  let folder := start ++ path.dropLast
  if folder.any (·.name.contains '\x00') then some (.io nulInPath)
  else
    match t.makeAll folder, path.getLast? with
    | .error e, _ => some (.io e)
    | .ok _, none => some (.io noFileName)
    | .ok _, some s => if s.name = PathStep.up then some (.io noFileName) else none

/-- A directory to work in, and the files in it. -/
structure Workplace where
  path : String
  files : List String
deriving Repr

namespace Workplace

/-- The way to the directory. -/
def way (w : Workplace) : List PathStep := PathStep.ofPath 0 w.path

/-- The tree with the directory and its files. -/
def tree (w : Workplace) : FileTree :=
  let here := (w.way.map (·.name)).reverse
  (w.files.map fun file => (file :: here, FileKind.file)) ++
    ((FileTree.standard.makeAll w.way).toOption.getD .standard)

/-- Why no log file can be opened at a path, if so; one that does not start at the top starts here. -/
def failure? (w : Workplace) (path : String) : Option Failure :=
  LogFile.failure? w.tree (if path.startsWith "/" then [] else w.way) (PathStep.ofPath 0 path)

/-- The same for a path that is first written behind the directory's own. -/
def failureBehind? (w : Workplace) (path : String) : Option Failure :=
  w.failure? (if path.startsWith "/" then path else w.path ++ "/" ++ path)

end Workplace

end NetReactor.LogFile
