import ApiDoc.CommandLine.Arguments
import ApiDoc.Assembly.Basic
import ApiDoc.Pruning.Builtin
import ApiDoc.Project
import ApiDoc.Settings.Text

/-!
# Runs

A run takes its settings from defaults, a file and the options, each over the one
before. It then surveys the project, builds the document on the base document,
prunes it and writes it as text. The files around a run are a tree, and so is what
it leaves.
-/

set_option autoImplicit false

namespace ApiDoc.CommandLine

inductive Trouble where
  | noProject (path : String)
  | projectIsNoFolder (path : String)
  | nothingParsed
  | folderNotMade (path : String)
  | fileNotWritten (path : String)
  | settingsNotLoaded (path : String) (cause : Failure)
  | baseNotLoaded (cause : Failure)
  | failure (cause : Failure)
  deriving Repr

namespace Trouble

def message : Trouble → String
  | .noProject path => "Project path does not exist: " ++ path
  | .projectIsNoFolder path => "Project path is not a directory: " ++ path
  | .nothingParsed => "No Rust files could be parsed in the project directory"
  | .folderNotMade path => "Failed to create directory: " ++ path
  | .fileNotWritten path => "Failed to write to file: " ++ path
  | .settingsNotLoaded path _ => "Failed to load configuration: " ++ path
  | .baseNotLoaded _ => "Failed to load base document"
  | .failure cause => cause.message

def cause? : Trouble → Option Failure
  | .settingsNotLoaded _ cause | .baseNotLoaded cause | .failure cause => some cause
  | _ => none

end Trouble

def text (t : FileTree) (path : String) : Except Failure String :=
  match t.read? path with
  | some text => .ok text
  | none => .error (.unreadable path)

namespace Options

def check (o : Options) (t : FileTree) : Except Trouble Unit :=
  match t.find? o.project with
  | none => .error (.noProject o.project)
  | some (.file _) => .error (.projectIsNoFolder o.project)
  | some (.folder _) => .ok ()

def settingsFile (t : FileTree) (path : String) : Except Failure Settings := do
  Settings.withFile (Settings.withDefaults {}) path (← text t path)

def override (key : String) (value : Option String) (s : Settings) : Settings :=
  match value with
  | some value => s.set key value
  | none => s

def allSettings (o : Options) (t : FileTree) : Except Trouble Settings := do
  let s ← match o.settings with
    | some path => (settingsFile t path).mapError (Trouble.settingsNotLoaded path)
    | none => pure (Settings.withDefaults {})
  return override Settings.baseDocumentKey o.base
    (override Settings.filterKey o.pruning (override Settings.strategyKey o.strategy s))

def baseDocument (t : FileTree) (s : Settings) : Except Failure OpenApi :=
  match s.get? Settings.baseDocumentKey with
  | some path => do OpenApi.ofFile path.toList (← text t path)
  | none => .ok {}

def inventory (o : Options) (t : FileTree) : Except Trouble Inventory := do
  let p ← (Project.ofFolder t o.project).mapError Trouble.failure
  if p.files.isEmpty then throw .nothingParsed
  p.inventory.mapError Trouble.failure

def assembled (s : Settings) (base : OpenApi) (i : Inventory) : Except Failure OpenApi := do
  let d ← Assembly.build s (← Assembly.strategyOf s) base i
  match s.get? Settings.filterKey with
  | some name => return d.prune (← Policy.ofName name)
  | none => return d

def document (o : Options) (t : FileTree) : Except Trouble OpenApi := do
  let s ← o.allSettings t
  let i ← o.inventory t
  let base ← (baseDocument t s).mapError Trouble.baseNotLoaded
  (assembled s base i).mapError Trouble.failure

def generate (o : Options) (t : FileTree) : Except Trouble String :=
  (o.document t).map (OpenApi.toText o.format)

end Options

/-! ## Writing -/

def folderOf (path : List Char) : List Char :=
  let back (p : List Char) : List Char := (p.reverse.dropWhile (· = '/')).reverse
  let lastStep (p : List Char) : List Char := (p.reverse.dropWhile (· ≠ '/')).reverse
  back (lastStep (back path))

def isBlocked (t : FileTree) : List (List Char) → Bool
  | [] => !t.isFolder
  | piece :: pieces => !t.isFolder || (t.rows.lookup piece).any (isBlocked · pieces)

def write (path : String) (text : String) (t : FileTree) : Except Trouble FileTree :=
  let folder := String.ofList (folderOf path.toList)
  if isBlocked t (FileTree.steps folder) then .error (.folderNotMade folder)
  else if path.endsWith "/" || t.hasFolder path then .error (.fileNotWritten path)
  else .ok (t.putFile path text)

inductive Outcome where
  | shown (text : String)
  | written (path : String) (t : FileTree)

def Options.run (o : Options) (t : FileTree) : Except Trouble Outcome := do
  o.check t
  let text ← o.generate t
  match o.output with
  | none => return .shown text
  | some path => return .written path (← write path text t)

end ApiDoc.CommandLine
