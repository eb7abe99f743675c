import ApiDoc.Yaml.Spot

/-!
# The texts of YAML scalars

Plain, quoted and block scalars. Between two words of a flow scalar a single
break counts as a blank, and further breaks are kept; a folded block treats
breaks between lines that do not start with a blank in the same way.
-/

set_option autoImplicit false

namespace ApiDoc.Yaml

/-- White space that has been read and not yet used: blanks on one line, or
breaks, of which the first may be missing when it was escaped. -/
inductive Gap where
  | blanks (read : List Char)
  | breaks (first : Option Char) (more : List Char)

namespace Gap

def crossesLines : Gap → Bool
  | .blanks _ => false
  | .breaks _ _ => true

def text : Gap → List Char
  | .blanks read => read
  | .breaks none more => more
  | .breaks (some c) more =>
    if c = '\n' then if more.isEmpty then [' '] else more else c :: more

def addBlank (c : Char) : Gap → Gap
  | .blanks read => .blanks (read ++ [c])
  | g => g

def addBreak (c : Char) : Gap → Gap
  | .blanks _ => .breaks (some c) []
  | .breaks first more => .breaks first (more ++ [c])

end Gap

def gap? (indent : Option Nat) (g : Gap) : List Spot → Option (Gap × List Spot)
  | [] => some (g, [])
  | s :: rest =>
    if s.isBlank then
      if s.char = '\t' && g.crossesLines && indent.any (s.column < ·) then none
      else gap? indent (g.addBlank s.char) rest
    else if s.isBreak then gap? indent (g.addBreak s.char) rest
    else some (g, s :: rest)

def flowEnders : List Char := [',', '[', ']', '\x7b', '\x7d']

/-- A word of a plain scalar. Within flow collections the indicators of these
end it, and a colon directly before one of them is an error. -/
def plainWord? (inFlow : Bool) : List Spot → Option (List Char × List Spot)
  | [] => some ([], [])
  | s :: rest =>
    if s.isSpace then some ([], s :: rest)
    else if inFlow && s.char = ':' && (charAt 0 rest = '?' || flowEnders.contains (charAt 0 rest))
    then none
    else if (s.char = ':' && spaceAt 0 rest) || (inFlow && flowEnders.contains s.char) then
      some ([], s :: rest)
    else (plainWord? inFlow rest).map fun (word, rest) => (s.char :: word, rest)

structure PlainText where
  text : List Char
  /-- The scalar ended after a line break. -/
  crossed : Bool
  rest : List Spot

def plain? (inFlow : Bool) (indent : Nat) : Nat → List Char → Gap → List Spot → Option PlainText
  | 0, _, _, _ => none
  | fuel + 1, read, g, rest =>
    let stop := some (PlainText.mk read g.crossesLines rest)
    if atDocumentMarker rest || charAt 0 rest = '#' then stop
    else
      match plainWord? inFlow rest with
      | none => none
      | some (word, rest) =>
        let read := if word.isEmpty then read else read ++ g.text ++ word
        let g := if word.isEmpty then g else .blanks []
        if !(spaceAt 0 rest) || charAt 0 rest = '\x00' then some ⟨read, g.crossesLines, rest⟩
        else
          match gap? (some indent) g rest with
          | none => none
          | some (g, rest) =>
            if !inFlow && columnOf rest < indent then some ⟨read, g.crossesLines, rest⟩
            else plain? inFlow indent fuel read g rest

def hexDigit? (c : Char) : Option Nat :=
  if '0' ≤ c ∧ c ≤ '9' then some (c.toNat - '0'.toNat)
  else if 'a' ≤ c ∧ c ≤ 'f' then some (c.toNat - 'a'.toNat + 10)
  else if 'A' ≤ c ∧ c ≤ 'F' then some (c.toNat - 'A'.toNat + 10)
  else none

def hexValue? (cs : List Char) : Option Nat :=
  cs.foldl (fun n c => do pure ((← n) * 16 + (← hexDigit? c))) (some 0)

def numbered? (digits : List Char) : Option Char :=
  (hexValue? digits).bind fun n => if n.isValidChar then some (Char.ofNat n) else none

def escapes : List (Char × Char) :=
  [('0', '\x00'), ('a', '\x07'), ('b', '\x08'), ('t', '\t'), ('\t', '\t'), ('n', '\n'),
    ('v', '\x0b'), ('f', '\x0c'), ('r', '\r'), ('e', '\x1b'), (' ', ' '), ('"', '"'),
    ('/', '/'), ('\\', '\\'), ('N', '\x85'), ('_', '\xa0'), ('L', '\u2028'), ('P', '\u2029')]

def numericEscapes : List (Char × Nat) := [('x', 2), ('u', 4), ('U', 8)]

def escaped? : List Spot → Option (Char × List Spot)
  | [] => none
  | s :: rest =>
    match escapes.lookup s.char, numericEscapes.lookup s.char with
    | some c, _ => some (c, rest)
    | none, some n =>
      (numbered? ((rest.take n).map (·.char))).map fun c => (c, rest.drop n)
    | none, none => none

inductive QuotedWord where
  | closed (word : List Char) (rest : List Spot)
  | space (word : List Char) (rest : List Spot)
  | escapedBreak (word : List Char) (rest : List Spot)

def QuotedWord.cons (c : Char) : QuotedWord → QuotedWord
  | .closed word rest => .closed (c :: word) rest
  | .space word rest => .space (c :: word) rest
  | .escapedBreak word rest => .escapedBreak (c :: word) rest

def singleWord : List Spot → QuotedWord
  | [] => .space [] []
  | s :: rest =>
    if s.isSpace then .space [] (s :: rest)
    else if s.char = '\'' then
      match rest with
      | t :: rest => if t.char = '\'' then (singleWord rest).cons '\'' else .closed [] (t :: rest)
      | [] => .closed [] []
    else (singleWord rest).cons s.char

def doubleWord? : Nat → List Spot → Option QuotedWord
  | 0, _ => none
  | _ + 1, [] => some (.space [] [])
  | fuel + 1, s :: rest =>
    if s.isSpace then some (.space [] (s :: rest))
    else if s.char = '"' then some (.closed [] rest)
    else if s.char = '\\' then
      match rest with
      | t :: after =>
        if t.isBreak then some (.escapedBreak [] after)
        else
          match escaped? (t :: after) with
          | some (c, rest) => (doubleWord? fuel rest).map (·.cons c)
          | none => none
      | [] => none
    else (doubleWord? fuel rest).map (·.cons s.char)

def quoted? (double : Bool) : Nat → List Char → List Spot → Option (List Char × List Spot)
  | 0, _, _ => none
  | fuel + 1, read, rest =>
    if atDocumentMarker rest || charAt 0 rest = '\x00' then none
    else
      let word := if double then doubleWord? (rest.length + 1) rest else some (singleWord rest)
      match word with
      | none => none
      | some (.closed word rest) => some (read ++ word, rest)
      | some (.space word rest) =>
        match gap? none (.blanks []) rest with
        | some (g, rest) => quoted? double fuel (read ++ word ++ g.text) rest
        | none => none
      | some (.escapedBreak word rest) =>
        match gap? none (.breaks none []) rest with
        | some (g, rest) => quoted? double fuel (read ++ word ++ g.text) rest
        | none => none

inductive Chomping where
  | clip
  | strip
  | keep

structure BlockHeader where
  chomping : Chomping := .clip
  increment : Option Nat := none

def chompingOf? (c : Char) : Option Chomping :=
  if c = '+' then some .keep else if c = '-' then some .strip else none

def incrementOf? (c : Char) : Option Nat :=
  if c.isDigit then some (c.toNat - '0'.toNat) else none

def blockHeader? (rest : List Spot) : Option (BlockHeader × List Spot) :=
  let a := charAt 0 rest
  let b := charAt 1 rest
  let found := match chompingOf? a, incrementOf? a with
    | some chomping, _ =>
      match incrementOf? b with
      | some n => (BlockHeader.mk chomping (some n), rest.drop 2)
      | none => (BlockHeader.mk chomping none, rest.drop 1)
    | none, some n =>
      match chompingOf? b with
      | some chomping => (BlockHeader.mk chomping (some n), rest.drop 2)
      | none => (BlockHeader.mk .clip (some n), rest.drop 1)
    | none, none => (BlockHeader.mk .clip none, rest)
  if found.1.increment = some 0 then none else some found

def restOfLine? (rest : List Spot) : Option (List Spot) :=
  let rest := rest.dropWhile (·.isBlank)
  let rest := if charAt 0 rest = '#' then rest.dropWhile fun s => !s.isBreakOrEnd else rest
  match rest with
  | [] => some []
  | s :: after =>
    if s.isBreak then some after else if s.isEnd then some (s :: after) else none

structure BlockGap where
  breaks : List Char
  widest : Nat
  rest : List Spot

/-- Indentation and empty lines. Without a known indent every blank column
counts as indentation; no tab may stand in it. -/
def blockGap? (indent : Option Nat) (breaks : List Char) (widest : Nat) :
    List Spot → Option BlockGap
  | [] => some ⟨breaks, widest, []⟩
  | s :: rest =>
    let widest := max widest s.column
    let indenting := indent.all (s.column < ·)
    if indenting && s.char = ' ' then blockGap? indent breaks widest rest
    else if indenting && s.char = '\t' then none
    else if s.isBreak then blockGap? indent (breaks ++ [s.char]) widest rest
    else some ⟨breaks, widest, s :: rest⟩

/-- What has been read of a block: its text, the break after its last line, the
empty lines since, and whether the last line started with a blank. -/
structure BlockText where
  text : List Char := []
  lastBreak : List Char := []
  empty : List Char := []
  blankLine : Bool := false

def BlockText.between (literal : Bool) (b : BlockText) (nextBlank : Bool) : List Char :=
  if !literal && b.lastBreak = ['\n'] && !b.blankLine && !nextBlank then
    (if b.empty.isEmpty then [' '] else []) ++ b.empty
  else b.lastBreak ++ b.empty

def blockLines? (literal : Bool) (indent : Nat) :
    Nat → BlockText → List Spot → Option (BlockText × List Spot)
  | 0, _, _ => none
  | fuel + 1, b, rest =>
    if columnOf rest = indent && charAt 0 rest ≠ '\x00' then
      let blank := (rest.head?.map (·.isBlank)).getD false
      let line := (rest.takeWhile fun s => !s.isBreakOrEnd).map (·.char)
      let rest := rest.dropWhile fun s => !s.isBreakOrEnd
      let (ended, rest) := match rest with
        | s :: after => if s.isBreak then ([s.char], after) else ([], s :: after)
        | [] => ([], [])
      match blockGap? (some indent) [] 0 rest with
      | none => none
      | some g =>
        blockLines? literal indent fuel
          { text := b.text ++ b.between literal blank ++ line
            lastBreak := ended
            empty := g.breaks
            blankLine := blank } g.rest
    else some (b, rest)

def block? (literal : Bool) (parent : Nat) (rest : List Spot) :
    Option (List Char × List Spot) := do
  let (header, rest) ← blockHeader? rest
  let rest ← restOfLine? rest
  let known := header.increment.map fun n => if parent = 0 then n else parent - 1 + n
  let g ← blockGap? known [] 0 rest
  let indent := known.getD (max (max g.widest parent) 1)
  let (b, rest) ← blockLines? literal indent (rest.length + 1) { empty := g.breaks } g.rest
  let ending := match header.chomping with
    | .strip => []
    | .clip => b.lastBreak
    | .keep => b.lastBreak ++ b.empty
  pure (b.text ++ ending, rest)

end ApiDoc.Yaml
