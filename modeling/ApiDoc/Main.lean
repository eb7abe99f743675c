import ApiDoc.CommandLine.Run

/-!
# The program

Collects the files that a run may read, runs it and puts out what it leaves.
-/

set_option autoImplicit false

namespace ApiDoc.CommandLine

def helpText : String :=
  "Generates an API document from annotated endpoint declarations\n\n" ++
  "Usage: apidoc [OPTIONS] <PROJECT_PATH>\n\n" ++
  "Options:\n" ++
  "  -f, --format <FORMAT>               yaml or json\n" ++
  "  -o, --output <FILE>                 file to write\n" ++
  "  -c, --config <CONFIG>               settings, as YAML or JSON\n" ++
  "  -b, --base <BASE_DOC>               document to extend\n" ++
  "      --filter <NAME>                 drop-deprecated or strip-extensions\n" ++
  "      --operation-id-strategy <NAME>  method, type-method or verb-path\n" ++
  "  -v, --verbose                       name the files that were left out\n" ++
  "  -h, --help                          show this text\n" ++
  "  -V, --version                       show the version"

def versionText : String := "apidoc 0.1.0"

def Usage.message : Usage → String
  | .unknownArgument => "error: unexpected argument found"
  | .invalidValue => "error: invalid or missing value for an argument"
  | .missingProject => "error: the project path was not provided"
  | .repeatedArgument => "error: an argument cannot be used multiple times"
  | .unexpectedValue => "error: unexpected value for an argument"
  | .helpWanted => helpText
  | .versionWanted => versionText

def collectFile (path : String) (t : FileTree) : IO FileTree := do
  try return t.putFile path (← IO.FS.readFile path)
  catch _ => return t

/-- Adds the sources in a folder under the path that leads there. -/
partial def collectFolder (path : String) (t : FileTree) : IO FileTree := do
  let mut t := t.putFolder path
  for entry in ← (← IO.FS.realPath path).readDir do
    let name := entry.fileName.toList
    let child := String.ofList (Project.below path.toList name)
    if !Project.isPassedOver name then
      match (← entry.path.symlinkMetadata).type with
      | .dir => t ← collectFolder child t
      | _ => if Project.isSource name then t ← collectFile child t
  return t

def collectPlace (path : String) (t : FileTree) : IO FileTree := do
  try
    if ← (← IO.FS.realPath path).isDir then collectFolder path t else collectFile path t
  catch _ => return t

def collectAll (paths : List String) (t : FileTree) : IO FileTree :=
  paths.foldlM (fun t path => collectFile path t) t

def surroundings (o : Options) : IO FileTree := do
  let t ← collectPlace o.project FileTree.empty
  let t ← collectAll o.settings.toList t
  match o.allSettings t with
  | .ok s => collectAll (s.get? Settings.baseDocumentKey).toList t
  | .error _ => return t

def putOut : Outcome → IO Unit
  | .shown text => IO.println text
  | .written path t => do
    let folder := String.ofList (folderOf path.toList)
    if !folder.isEmpty then IO.FS.createDirAll folder
    IO.FS.writeFile path ((t.read? path).getD "")

def nameFailures (o : Options) (t : FileTree) : IO Unit := do
  if o.verbose then
    match Project.ofFolder t o.project with
    | .ok p => p.failures.forM fun f => IO.eprintln f.message
    | .error _ => return ()

end ApiDoc.CommandLine

open ApiDoc.CommandLine in
def main (args : List String) : IO UInt32 := do
  match Options.ofWords args with
  | .error usage =>
    if usage = .helpWanted || usage = .versionWanted then
      IO.println usage.message
      return 0
    else
      IO.eprintln usage.message
      return 2
  | .ok o =>
    let t ← surroundings o
    nameFailures o t
    match o.run t with
    | .ok outcome =>
      putOut outcome
      return 0
    | .error trouble =>
      IO.eprintln ("Error: " ++ trouble.message)
      return 1
