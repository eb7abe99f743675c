import ApiDoc.Text.Split

/-!
# Trees of files

Files and the folders they stand in. The rows of a folder are sorted by name. A
path is followed piece by piece, and whatever it passes through must be a folder.
-/

set_option autoImplicit false

namespace ApiDoc

inductive FileTree where
  | file (text : String)
  | folder (rows : List (List Char × FileTree))

namespace FileTree

def empty : FileTree := .folder []

instance : Inhabited FileTree := ⟨empty⟩

def rows : FileTree → List (List Char × FileTree)
  | .file _ => []
  | .folder rows => rows

def isFolder : FileTree → Bool
  | .file _ => false
  | .folder _ => true

def text? : FileTree → Option String
  | .file text => some text
  | .folder _ => none

/-! ## Paths -/

/-- The pieces of a path between its slashes. The top of absolute paths is a piece of
its own, whose name no file has. -/
def pieces : List Char → List (List Char)
  | '/' :: path => ['/'] :: Text.cut '/' path
  | path => Text.cut '/' path

def isHere (piece : List Char) : Bool := piece = [] || piece = ['.']

def isUpwards (piece : List Char) : Bool := piece = ['.', '.']

/-- Follows pieces from a place; `above` are the folders around it, the innermost
first. -/
def walk : List FileTree → FileTree → List (List Char) → Option FileTree
  | _, t, [] => some t
  | _, .file _, _ :: _ => none
  | above, .folder rows, piece :: rest =>
    if isHere piece then walk above (.folder rows) rest
    else if isUpwards piece then
      match above with
      | t :: above => walk above t rest
      | [] => none
    else
      match rows.lookup piece with
      | some t => walk (.folder rows :: above) t rest
      | none => none

def find? (t : FileTree) (path : String) : Option FileTree :=
  if path.isEmpty then none else walk [] t (pieces path.toList)

def read? (t : FileTree) (path : String) : Option String := (t.find? path).bind text?

def hasFolder (t : FileTree) (path : String) : Bool := (t.find? path).any isFolder

/-! ## Growth -/

def changeRow (name : List Char) (change : FileTree → FileTree) :
    List (List Char × FileTree) → List (List Char × FileTree)
  | [] => [(name, change empty)]
  | (other, t) :: rows =>
    if name = other then (other, change t) :: rows
    else if name < other then (name, change empty) :: (other, t) :: rows
    else (other, t) :: changeRow name change rows

def change (f : FileTree → FileTree) : List (List Char) → FileTree → FileTree
  | [], t => f t
  | name :: steps, t => .folder (changeRow name (change f steps) t.rows)

def steps (path : String) : List (List Char) :=
  (pieces path.toList).filter fun piece => !isHere piece

def putFile (t : FileTree) (path text : String) : FileTree :=
  change (fun _ => .file text) (steps path) t

def putFolder (t : FileTree) (path : String) : FileTree := change id (steps path) t

def ofFiles (files : List (String × String)) : FileTree :=
  files.foldl (fun t row => t.putFile row.1 row.2) empty

end FileTree

end ApiDoc
