import ApiDoc.Form.Text

/-!
# Arguments of the command line

Options take a value, which is attached to them or is the next word; switches take
none. An option that waits for its value is settled when the next option, switch or
place comes, so of two faults the earlier one is reported, unless a word is met that
means nothing at all.
-/

set_option autoImplicit false

namespace ApiDoc.CommandLine

inductive Usage where
  | unknownArgument
  | invalidValue
  | missingProject
  | repeatedArgument
  | unexpectedValue
  | helpWanted
  | versionWanted
  deriving DecidableEq, Repr

inductive Slot where
  | project
  | format
  | output
  | settings
  | base
  | pruning
  | strategy
  deriving DecidableEq, Repr

inductive Switch where
  | verbose
  | help
  | version
  deriving DecidableEq, Repr

inductive Flag where
  | slot (s : Slot)
  | switch (s : Switch)
  deriving DecidableEq, Repr

namespace Flag

def ofLetter? : Char → Option Flag
  | 'f' => some (.slot .format)
  | 'o' => some (.slot .output)
  | 'c' => some (.slot .settings)
  | 'b' => some (.slot .base)
  | 'v' => some (.switch .verbose)
  | 'h' => some (.switch .help)
  | 'V' => some (.switch .version)
  | _ => none

def ofName? : String → Option Flag
  | "format" => some (.slot .format)
  | "output" => some (.slot .output)
  | "config" => some (.slot .settings)
  | "base" => some (.slot .base)
  | "filter" => some (.slot .pruning)
  | "operation-id-strategy" => some (.slot .strategy)
  | "verbose" => some (.switch .verbose)
  | "help" => some (.switch .help)
  | "version" => some (.switch .version)
  | _ => none

end Flag

def formatOfName? : String → Option TextFormat
  | "yaml" => some .yaml
  | "json" => some .json
  | _ => none

def Slot.accepts (s : Slot) (value : String) : Bool :=
  match s with
  | .project | .output | .settings | .base => !value.isEmpty
  | .format => (formatOfName? value).isSome
  | .pruning | .strategy => true

structure Pending where
  slot : Slot
  value : Option String := none

structure Given where
  values : List (Slot × String) := []
  verbose : Bool := false
  pending : Option Pending := none
  /-- The word for the project was met. -/
  placed : Bool := false
  /-- Only places follow. -/
  placesOnly : Bool := false

namespace Given

def fill (s : Slot) (value : String) (g : Given) : Except Usage Given :=
  if (g.values.lookup s).isSome then .error .repeatedArgument
  else if s.accepts value then .ok { g with values := g.values ++ [(s, value)] }
  else .error .invalidValue

def settle (g : Given) : Except Usage Given :=
  match g.pending with
  | none => .ok g
  | some ⟨_, none⟩ => .error .invalidValue
  | some ⟨s, some value⟩ => { g with pending := none }.fill s value

def wait (s : Slot) (value : Option String) (g : Given) : Except Usage Given := do
  return { (← g.settle) with pending := some ⟨s, value⟩ }

def attach (s : Slot) (value : String) (g : Given) : Except Usage Given := do
  (← g.settle).fill s value

def throwSwitch (s : Switch) (g : Given) : Except Usage Given := do
  let g ← g.settle
  match s with
  | .help => .error .helpWanted
  | .version => .error .versionWanted
  | .verbose => if g.verbose then .error .repeatedArgument else .ok { g with verbose := true }

def long (name : List Char) (value : Option String) (g : Given) : Except Usage Given :=
  match Flag.ofName? (String.ofList name), value with
  | some (.slot s), some value => g.attach s value
  | some (.slot s), none => g.wait s none
  | some (.switch _), some _ => .error .unexpectedValue
  | some (.switch s), none => g.throwSwitch s
  | none, _ => .error .unknownArgument

def short : List Char → Given → Except Usage Given
  | [], g => .ok g
  | c :: cs, g =>
    match Flag.ofLetter? c, cs with
    | some (.switch s), _ => do short cs (← g.throwSwitch s)
    | some (.slot s), [] => g.wait s none
    | some (.slot s), '=' :: value => g.attach s (String.ofList value)
    | some (.slot s), value => g.attach s (String.ofList value)
    | none, _ => .error .unknownArgument

def place (word : List Char) (g : Given) : Except Usage Given :=
  if g.placed then .error .unknownArgument
  else do return { (← g.wait .project (some (String.ofList word))) with placed := true }

def plain (word : List Char) (g : Given) : Except Usage Given :=
  match g.pending with
  | some ⟨s, none⟩ => .ok { g with pending := some ⟨s, some (String.ofList word)⟩ }
  | _ => g.place word

def beforeEquals (cs : List Char) : List Char := cs.takeWhile (· ≠ '=')

def behindEquals? (cs : List Char) : Option String :=
  match cs.dropWhile (· ≠ '=') with
  | _ :: value => some (String.ofList value)
  | [] => none

def word (g : Given) (w : List Char) : Except Usage Given :=
  if g.placesOnly then g.place w
  else
    match w with
    | ['-', '-'] => .ok { g with placesOnly := true }
    | '-' :: '-' :: cs => g.long (beforeEquals cs) (behindEquals? cs)
    | '-' :: c :: cs => g.short (c :: cs)
    | _ => g.plain w

end Given

structure Options where
  project : String
  format : TextFormat := .yaml
  output : Option String := none
  settings : Option String := none
  base : Option String := none
  pruning : Option String := none
  strategy : Option String := none
  verbose : Bool := false
  deriving Repr

namespace Options

def ofGiven (g : Given) : Except Usage Options :=
  match g.values.lookup .project with
  | none => .error .missingProject
  | some project => .ok {
    project
    format := ((g.values.lookup .format).bind formatOfName?).getD .yaml
    output := g.values.lookup .output
    settings := g.values.lookup .settings
    base := g.values.lookup .base
    pruning := g.values.lookup .pruning
    strategy := g.values.lookup .strategy
    verbose := g.verbose }

def ofWords (words : List String) : Except Usage Options := do
  let g ← words.foldlM (fun g w => g.word w.toList) ({} : Given)
  ofGiven (← g.settle)

end Options

end ApiDoc.CommandLine
