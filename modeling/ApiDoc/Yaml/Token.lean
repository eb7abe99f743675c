import ApiDoc.Yaml.Text

/-!
# Tokens of YAML text

`tokens?` turns a text into its tokens. The columns at which blocks open are
kept on a stack. A mapping key is only known as one by the colon behind it: the
place before each possible key is remembered, one for each flow collection that
is open, and the key's tokens are put in there when the colon comes.
-/

set_option autoImplicit false

namespace ApiDoc.Yaml

inductive Token where
  | documentStart
  | documentEnd
  | version (major minor : Nat)
  | tagPrefix (handle text : String)
  | blockSequence
  | blockMapping
  | blockEnd
  | flowSequence
  | flowSequenceEnd
  | flowMapping
  | flowMappingEnd
  | blockEntry
  | flowEntry
  | key
  | value
  | alias (name : String)
  | anchor (name : String)
  | tag (handle suffix : String)
  | scalar (plain : Bool) (text : String)
  deriving DecidableEq

structure KeyPlace where
  required : Bool
  tokens : Nat
  line : Nat
  column : Nat
  index : Nat

/-- `indents` holds the columns of the open blocks, innermost first; `keys` has
the possible key of each open flow collection, innermost first, and last that of
the block. -/
structure Scan where
  rest : List Spot
  read : List Token := []
  indents : List Nat := []
  keys : List (Option KeyPlace) := [none]
  keyAllowed : Bool := true

namespace Scan

def inFlow (s : Scan) : Bool := 1 < s.keys.length

def push (s : Scan) (t : Token) : Scan := { s with read := t :: s.read }

def pushAt (s : Scan) (n : Nat) (t : Token) : Scan :=
  let later := s.read.length - n
  { s with read := s.read.take later ++ t :: s.read.drop later }

def skip (s : Scan) (n : Nat) : Scan := { s with rest := s.rest.drop n }

def column (s : Scan) : Nat := columnOf s.rest

def closeBlocks (column : Option Nat) : List Nat → List Nat × List Token
  | [] => ([], [])
  | indent :: indents =>
    if column.any (indent ≤ ·) then (indent :: indents, [])
    else
      let (open_, ends) := closeBlocks column indents
      (open_, .blockEnd :: ends)

def unroll (column : Option Nat) (s : Scan) : Scan :=
  if s.inFlow then s
  else
    let (indents, ends) := closeBlocks column s.indents
    { s with indents, read := ends ++ s.read }

def roll (column : Nat) (place : Nat) (t : Token) (s : Scan) : Scan :=
  if s.inFlow || s.indents.head?.any (column ≤ ·) then s
  else { s.pushAt place t with indents := column :: s.indents }

def forgetKey? (s : Scan) : Option Scan :=
  match s.keys with
  | some k :: keys => if k.required then none else some { s with keys := none :: keys }
  | _ => some s

def saveKey? (s : Scan) : Option Scan :=
  if s.keyAllowed then
    match s.forgetKey?, s.rest with
    | some s, here :: _ =>
      let place : KeyPlace := {
        required := !s.inFlow && s.indents.head? == some here.column
        tokens := s.read.length
        line := here.line
        column := here.column
        index := here.index }
      some { s with keys := some place :: s.keys.tail }
    | _, _ => none
  else some s

def isStale (here : Spot) (k : KeyPlace) : Bool :=
  k.line < here.line || k.index + 1024 < here.index

def dropStale (here : Spot) : List (Option KeyPlace) → Option (List (Option KeyPlace))
  | [] => some []
  | some k :: keys =>
    if isStale here k then
      if k.required then none else (dropStale here keys).map (none :: ·)
    else (dropStale here keys).map (some k :: ·)
  | none :: keys => (dropStale here keys).map (none :: ·)

def skipSpace (flow : Bool) : Bool → Bool → List Spot → Bool × List Spot
  | allowed, _, [] => (allowed, [])
  | allowed, comment, s :: rest =>
    if s.isBreak then skipSpace flow (allowed || !flow) false rest
    else if s.isEnd then (allowed, s :: rest)
    else if comment then skipSpace flow allowed true rest
    else if s.char = ' ' || (s.char = '\t' && (flow || !allowed)) then
      skipSpace flow allowed false rest
    else if s.char = '#' then skipSpace flow allowed true rest
    else (allowed, s :: rest)

def isNameChar (c : Char) : Bool := c.isAlphanum || c = '-' || c = '_'

def name (rest : List Spot) : List Char := (rest.takeWhile fun s => isNameChar s.char).map (·.char)

def anchorName? (rest : List Spot) : Option (String × List Spot) :=
  let cs := name rest
  let after := rest.drop cs.length
  if cs.isEmpty then none
  else if spaceAt 0 after || "?:,]\x7d%@`".toList.contains (charAt 0 after) then
    some (String.ofList cs, after)
  else none

def uriChars : List Char := ";/?:@&=+$.%!~*'()".toList

def percentBytes : Nat → List Spot → List UInt8 × List Spot
  | 0, rest => ([], rest)
  | fuel + 1, rest =>
    match charAt 0 rest, hexValue? ((rest.drop 1).take 2 |>.map (·.char)) with
    | '%', some n =>
      let (bytes, after) := percentBytes fuel (rest.drop 3)
      (n.toUInt8 :: bytes, after)
    | _, _ => ([], rest)

def uri? (listed : Bool) : Nat → List Spot → Option (List Char × List Spot)
  | 0, _ => none
  | fuel + 1, rest =>
    let c := charAt 0 rest
    if c = '%' then
      let (bytes, after) := percentBytes rest.length rest
      if bytes.isEmpty then none
      else
        match String.fromUTF8? (ByteArray.mk bytes.toArray), uri? listed fuel after with
        | some s, some (cs, after) => some (s.toList ++ cs, after)
        | _, _ => none
    else if isNameChar c || uriChars.contains c || (listed && [',', '[', ']'].contains c) then
      (uri? listed fuel (rest.drop 1)).map fun (cs, after) => (c :: cs, after)
    else some ([], rest)

/-- `!`, `!!` or `!name!`; what is no handle is the start of a suffix. -/
def handle (rest : List Spot) : List Char × List Spot :=
  let cs := name (rest.drop 1)
  let after := rest.drop (1 + cs.length)
  if charAt 0 after = '!' then ('!' :: (cs ++ ['!']), after.drop 1) else ('!' :: cs, after)

def tagText? (rest : List Spot) : Option (Token × List Spot) :=
  let fuel := rest.length + 1
  if charAt 1 rest = '<' then
    match uri? true fuel (rest.drop 2) with
    | some (suffix, after) =>
      if suffix.isEmpty || charAt 0 after ≠ '>' then none
      else some (.tag "" (String.ofList suffix), after.drop 1)
    | none => none
  else
    let (cs, after) := handle rest
    match uri? false fuel after with
    | none => none
    | some (suffix, rest) =>
      if 1 < cs.length && cs.getLast? = some '!' then
        if suffix.isEmpty then none
        else some (.tag (String.ofList cs) (String.ofList suffix), rest)
      else
        let suffix := cs.drop 1 ++ suffix
        some (if suffix.isEmpty then .tag "" "!" else .tag "!" (String.ofList suffix), rest)

def tag? (inFlow : Bool) (rest : List Spot) : Option (Token × List Spot) :=
  (tagText? rest).bind fun (t, after) =>
    if spaceAt 0 after || (inFlow && charAt 0 after = ',') then some (t, after) else none

def digits (rest : List Spot) : List Char := (rest.takeWhile (·.char.isDigit)).map (·.char)

def smallNumber? (cs : List Char) : Option Nat :=
  if cs.isEmpty || 9 < cs.length then none
  else some (cs.foldl (fun n c => n * 10 + (c.toNat - '0'.toNat)) 0)

def skipBlanks (rest : List Spot) : List Spot := rest.dropWhile (·.isBlank)

def version? (rest : List Spot) : Option (Token × List Spot) := do
  let rest := skipBlanks rest
  let major := digits rest
  let rest := rest.drop major.length
  if charAt 0 rest ≠ '.' then none
  let minor := digits (rest.drop 1)
  pure (.version (← smallNumber? major) (← smallNumber? minor), rest.drop (1 + minor.length))

def tagPrefix? (rest : List Spot) : Option (Token × List Spot) := do
  let rest := skipBlanks rest
  if charAt 0 rest ≠ '!' then none
  let (cs, after) := handle rest
  if cs ≠ ['!'] && cs.getLast? ≠ some '!' then none
  if !((after.head?.map (·.isBlank)).getD false) then none
  let (text, after) ← uri? true (rest.length + 1) (skipBlanks after)
  if text.isEmpty || !(spaceAt 0 after) then none
  pure (.tagPrefix (String.ofList cs) (String.ofList text), after)

def directive? (rest : List Spot) : Option (Token × List Spot) := do
  let cs := name (rest.drop 1)
  let after := rest.drop (1 + cs.length)
  if !(spaceAt 0 after) then none
  let (t, after) ← if cs = "YAML".toList then version? after
    else if cs = "TAG".toList then tagPrefix? after
    else none
  pure (t, ← restOfLine? after)

def put (found : Option (Token × List Spot)) (allowed : Bool) (s : Scan) : Option Scan :=
  found.map fun (t, rest) => { s.push t with rest, keyAllowed := allowed }

def quotedToken (double : Bool) (s : Scan) : Option Scan :=
  (s.saveKey?).bind (put ((quoted? double (s.rest.length + 1) [] (s.rest.drop 1)).map
    fun (cs, rest) => (.scalar false (String.ofList cs), rest)) false)

def blockToken (literal : Bool) (s : Scan) : Option Scan :=
  let parent := (s.indents.head?.map (· + 1)).getD 0
  (s.forgetKey?).bind (put ((block? literal parent (s.rest.drop 1)).map
    fun (cs, rest) => (.scalar false (String.ofList cs), rest)) true)

def plainToken (s : Scan) : Option Scan :=
  let indent := (s.indents.head?.map (· + 1)).getD 0
  match s.saveKey?, plain? s.inFlow indent (s.rest.length + 1) [] (.blanks []) s.rest with
  | some s, some p => s.put (some (.scalar true (String.ofList p.text), p.rest)) p.crossed
  | _, _ => none

def documentToken (t : Token) (s : Scan) : Option Scan :=
  ((s.unroll none).forgetKey?).map fun s => { (s.push t).skip 3 with keyAllowed := false }

def flowOpen (t : Token) (s : Scan) : Option Scan :=
  (s.saveKey?).map fun s => { (s.push t).skip 1 with keys := none :: s.keys, keyAllowed := true }

def flowClose (t : Token) (s : Scan) : Option Scan :=
  (s.forgetKey?).map fun s =>
    { (s.push t).skip 1 with
      keys := if s.inFlow then s.keys.tail else s.keys
      keyAllowed := false }

def blockHere (t : Token) (s : Scan) : Option Scan :=
  if s.inFlow then some s
  else if s.keyAllowed then some (s.roll s.column s.read.length t)
  else none

def indicator (t : Token) (allowed : Bool) (s : Scan) : Option Scan :=
  (s.forgetKey?).map fun s => { (s.push t).skip 1 with keyAllowed := allowed }

def keyToken (s : Scan) : Option Scan :=
  (s.blockHere .blockMapping).bind fun s => s.indicator .key (!s.inFlow)

def valueToken (s : Scan) : Option Scan :=
  match s.keys with
  | some k :: keys =>
    let s := ({ s with keys := none :: keys }.pushAt k.tokens .key).roll k.column k.tokens
      .blockMapping
    some { (s.push .value).skip 1 with keyAllowed := false }
  | _ => (s.blockHere .blockMapping).map fun s =>
    { (s.push .value).skip 1 with keyAllowed := !s.inFlow }

def directiveToken (s : Scan) : Option Scan :=
  ((s.unroll none).forgetKey?).bind fun s => s.put (directive? s.rest) false

def indicators : List Char := "-?:,[]\x7b\x7d#&*!|>'\"%@`".toList

def startsPlain (inFlow : Bool) (rest : List Spot) : Bool :=
  let c := charAt 0 rest
  (!spaceAt 0 rest && !indicators.contains c)
    || (c = '-' && charAt 1 rest ≠ ' ' && charAt 1 rest ≠ '\t')
    || (!inFlow && (c = '?' || c = ':') && !spaceAt 1 rest)

def token? (s : Scan) : Option Scan :=
  let spaceNext := spaceAt 1 s.rest
  if s.column = 0 && charAt 0 s.rest = '%' then s.directiveToken
  else if atMarker '-' s.rest then s.documentToken .documentStart
  else if atMarker '.' s.rest then s.documentToken .documentEnd
  else
    match charAt 0 s.rest with
    | '[' => s.flowOpen .flowSequence
    | '\x7b' => s.flowOpen .flowMapping
    | ']' => s.flowClose .flowSequenceEnd
    | '\x7d' => s.flowClose .flowMappingEnd
    | ',' => s.indicator .flowEntry true
    | '*' => (s.saveKey?).bind
      (put ((anchorName? (s.rest.drop 1)).map fun (n, r) => (.alias n, r)) false)
    | '&' => (s.saveKey?).bind
      (put ((anchorName? (s.rest.drop 1)).map fun (n, r) => (.anchor n, r)) false)
    | '!' => (s.saveKey?).bind (put (tag? s.inFlow s.rest) false)
    | '\'' => s.quotedToken false
    | '"' => s.quotedToken true
    | c =>
      if c = '-' && spaceNext then
        (s.blockHere .blockSequence).bind fun s => s.indicator .blockEntry true
      else if c = '?' && (s.inFlow || spaceNext) then s.keyToken
      else if c = ':' && (s.inFlow || spaceNext) then s.valueToken
      else if c = '|' && !s.inFlow then s.blockToken true
      else if c = '>' && !s.inFlow then s.blockToken false
      else if startsPlain s.inFlow s.rest then s.plainToken
      else none

def run : Nat → Scan → Option (List Token)
  | 0, _ => none
  | fuel + 1, s =>
    let (allowed, rest) := skipSpace s.inFlow s.keyAllowed false s.rest
    match rest with
    | [] => none
    | here :: _ =>
      match dropStale here s.keys with
      | none => none
      | some keys =>
        let s := { s with rest, keys, keyAllowed := allowed }
        if here.isEnd then
          ((s.unroll none).forgetKey?).map fun s => s.read.reverse
        else ((s.unroll (some here.column)).token?).bind (run fuel)

end Scan

def tokens? (text : String) : Option (List Token) :=
  (spots? text).bind fun spots => Scan.run (spots.length + 1) { rest := spots }

end ApiDoc.Yaml
