import ApiDoc.FileTree
import ApiDoc.FileName
import ApiDoc.Survey.Basic

/-!
# Projects

The source files below a folder, in the order of their names at each level. Names
that start with a dot and the folder of build results are passed over, but for the
root itself. A file that cannot be read or parsed is left out and remembered as a
failure.
-/

set_option autoImplicit false

namespace ApiDoc

structure Project where
  files : List (String × Source.File) := []
  failures : List Failure := []

namespace Project

/-! ## Finding sources -/

def isPassedOver (name : List Char) : Bool := name.head? = some '.' || name = "target".toList

def isSource (name : List Char) : Bool := FileName.extension? name = some "rs".toList

def below (path name : List Char) : List Char :=
  if path.getLast? = some '/' then path ++ name else path ++ '/' :: name

mutual
def pathsOf (path name : List Char) : FileTree → List (List Char)
  | .file _ => if isSource name then [path] else []
  | .folder rows => pathsIn path rows
def pathsIn (path : List Char) : List (List Char × FileTree) → List (List Char)
  | [] => []
  | (name, t) :: rows =>
    (if isPassedOver name then [] else pathsOf (below path name) name t) ++ pathsIn path rows
end

def paths (t : FileTree) (root : String) : Except Failure (List String) :=
  match t.find? root with
  | some (.folder rows) => .ok ((pathsIn root.toList rows).map String.ofList)
  | _ => .error (.notADirectory root)

/-! ## Parsing them -/

def parseFile (t : FileTree) (path : String) : Except Failure Source.File :=
  match t.read? path with
  | some text => Survey.parse path text
  | none => .error (.unreadable path)

def add (t : FileTree) (p : Project) (path : String) : Project :=
  match parseFile t path with
  | .ok file => { p with files := p.files ++ [(path, file)] }
  | .error f => { p with failures := p.failures ++ [f] }

def ofPaths (t : FileTree) (paths : List String) : Project := paths.foldl (add t) {}

def ofFolder (t : FileTree) (root : String) : Except Failure Project :=
  (paths t root).map (ofPaths t)

def inventory (p : Project) : Except Failure Inventory := Survey.ofParsed p.files

end Project

end ApiDoc
