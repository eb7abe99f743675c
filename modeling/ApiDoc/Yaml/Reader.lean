import ApiDoc.Yaml.Token
import ApiDoc.Datum

/-!
# Reading YAML text

One document, as a datum. An alias stands for the node that last took its
name; a node has taken its name once it is complete. Collections may nest as
deep as in JSON text, plus one.
-/

set_option autoImplicit false

namespace ApiDoc.Yaml

/-- The node that a name stands for, and how many tokens were left where that
node began. -/
structure Anchored where
  left : Nat
  node : Datum

abbrev Anchors := Ordered Anchored

structure Input where
  tokens : List Token
  anchors : Anchors := {}
  prefixes : Ordered String := {}

namespace Input

def skip (i : Input) : Input := { i with tokens := i.tokens.tail }

def register (i : Input) (name : String) (left : Nat) (d : Datum) : Input :=
  if (i.anchors.get? name).any (·.left < left) then i
  else { i with anchors := i.anchors.put name ⟨left, d⟩ }

end Input

structure Properties where
  anchor : Option String := none
  tag : Option String := none

def fullTag? (prefixes : Ordered String) (handle suffix : String) : Option String :=
  if handle = "" then some suffix
  else (prefixes.get? handle).map fun text => text ++ suffix

def properties? (i : Input) : Option (Properties × Input) :=
  match i.tokens with
  | .anchor a :: .tag h s :: rest =>
    (fullTag? i.prefixes h s).map fun t => (⟨some a, some t⟩, { i with tokens := rest })
  | .tag h s :: .anchor a :: rest =>
    (fullTag? i.prefixes h s).map fun t => (⟨some a, some t⟩, { i with tokens := rest })
  | .anchor a :: rest => some (⟨some a, none⟩, { i with tokens := rest })
  | .tag h s :: rest =>
    (fullTag? i.prefixes h s).map fun t => (⟨none, some t⟩, { i with tokens := rest })
  | _ => some ({}, i)

/-- A scalar with its tag. The tag `!` only says that there is none. -/
def scalarDatum (tag : Option String) (plain : Bool) (text : String) : Datum :=
  match tag with
  | some t => if t = "!" then .scalar (if plain then .plain else .quoted) text
    else .scalar (.tagged t) text
  | none => .scalar (if plain then .plain else .quoted) text

def collectionDatum (tag : Option String) (d : Datum) : Datum :=
  match tag with
  | some t => if t.startsWith "!" then .tagged d else d
  | none => d

def blank : Datum := .scalar .plain ""

def endsEntry : Option Token → Bool
  | none | some .key | some .value | some .blockEnd => true
  | _ => false

def endsListEntry : Option Token → Bool
  | none | some .blockEntry | some .blockEnd => true
  | _ => false

def endsPair (close : Token) (t : Option Token) : Bool := t = some .flowEntry || t = some close

mutual
/-- A node; in a block it may be a block itself, and as the value of a mapping
a list in the mapping's own column. -/
def node : Nat → Bool → Bool → Input → Option (Datum × Input)
  | 0, _, _, _ => none
  | fuel + 1, block, indentless, i =>
    match i.tokens with
    | .alias name :: _ => (i.anchors.get? name).map fun a => (a.node, i.skip)
    | _ =>
      match properties? i with
      | none => none
      | some (p, body) =>
        match content fuel block indentless p body with
        | none => none
        | some (d, rest) =>
          some (d, match p.anchor with
            | some name => rest.register name i.tokens.length d
            | none => rest)
def content : Nat → Bool → Bool → Properties → Input → Option (Datum × Input)
  | 0, _, _, _, _ => none
  | fuel + 1, block, indentless, p, i =>
    match i.tokens with
    | .scalar plain text :: _ => some (scalarDatum p.tag plain text, i.skip)
    | .flowSequence :: _ =>
      (flowItems fuel true i.skip).map fun (ds, i) => (collectionDatum p.tag (.list ds), i)
    | .flowMapping :: _ =>
      (flowRows fuel true i.skip).map fun (rs, i) => (collectionDatum p.tag (.table rs), i)
    | t :: _ =>
      if indentless && t = .blockEntry then
        (indentlessItems fuel i).map fun (ds, i) => (collectionDatum p.tag (.list ds), i)
      else if block && t = .blockSequence then
        (blockItems fuel i.skip).map fun (ds, i) => (collectionDatum p.tag (.list ds), i)
      else if block && t = .blockMapping then
        (blockRows fuel i.skip).map fun (rs, i) => (collectionDatum p.tag (.table rs), i)
      else if p.anchor.isSome || p.tag.isSome then some (scalarDatum p.tag true "", i)
      else none
    | [] =>
      if p.anchor.isSome || p.tag.isSome then some (scalarDatum p.tag true "", i) else none
def blockItems : Nat → Input → Option (List Datum × Input)
  | 0, _ => none
  | fuel + 1, i =>
    match i.tokens with
    | .blockEnd :: _ => some ([], i.skip)
    | .blockEntry :: rest =>
      let item := if endsListEntry rest.head? then some (blank, i.skip)
        else node fuel true false i.skip
      match item with
      | none => none
      | some (d, i) => (blockItems fuel i).map fun (ds, i) => (d :: ds, i)
    | _ => none
def indentlessItems : Nat → Input → Option (List Datum × Input)
  | 0, _ => none
  | fuel + 1, i =>
    match i.tokens with
    | .blockEntry :: rest =>
      let item := if endsListEntry rest.head? || endsEntry rest.head? then some (blank, i.skip)
        else node fuel true false i.skip
      match item with
      | none => none
      | some (d, i) => (indentlessItems fuel i).map fun (ds, i) => (d :: ds, i)
    | _ => some ([], i)
def blockRows : Nat → Input → Option (List (Datum × Datum) × Input)
  | 0, _ => none
  | fuel + 1, i =>
    match i.tokens with
    | .blockEnd :: _ => some ([], i.skip)
    | .key :: rest =>
      let key := if endsEntry rest.head? then some (blank, i.skip) else node fuel true true i.skip
      match key with
      | none => none
      | some (k, i) =>
        match blockValue fuel i with
        | none => none
        | some (v, i) => (blockRows fuel i).map fun (rs, i) => ((k, v) :: rs, i)
    | _ => none
def blockValue : Nat → Input → Option (Datum × Input)
  | 0, _ => none
  | fuel + 1, i =>
    match i.tokens with
    | .value :: rest =>
      if endsEntry rest.head? then some (blank, i.skip) else node fuel true true i.skip
    | _ => some (blank, i)
def flowItems : Nat → Bool → Input → Option (List Datum × Input)
  | 0, _, _ => none
  | fuel + 1, first, i =>
    match i.tokens, first with
    | .flowSequenceEnd :: _, _ => some ([], i.skip)
    | .flowEntry :: .flowSequenceEnd :: _, false => some ([], i.skip.skip)
    | .flowEntry :: _, false => flowItem fuel i.skip
    | _, false => none
    | _, true => flowItem fuel i
def flowItem : Nat → Input → Option (List Datum × Input)
  | 0, _ => none
  | fuel + 1, i =>
    let item := match i.tokens with
      | .key :: _ => (flowPair fuel i.skip).map fun (row, i) => (Datum.table [row], i)
      | _ => node fuel false false i
    match item with
    | none => none
    | some (d, i) => (flowItems fuel false i).map fun (ds, i) => (d :: ds, i)
def flowPair : Nat → Input → Option ((Datum × Datum) × Input)
  | 0, _ => none
  | fuel + 1, i =>
    let key :=
      if i.tokens.head? = some .value || endsPair .flowSequenceEnd i.tokens.head? then
        some (blank, i.skip)
      else node fuel false false i
    match key with
    | none => none
    | some (k, i) => (flowValue fuel .flowSequenceEnd i).map fun (v, i) => ((k, v), i)
def flowRows : Nat → Bool → Input → Option (List (Datum × Datum) × Input)
  | 0, _, _ => none
  | fuel + 1, first, i =>
    match i.tokens, first with
    | .flowMappingEnd :: _, _ => some ([], i.skip)
    | .flowEntry :: .flowMappingEnd :: _, false => some ([], i.skip.skip)
    | .flowEntry :: _, false => flowRow fuel i.skip
    | _, false => none
    | _, true => flowRow fuel i
def flowRow : Nat → Input → Option (List (Datum × Datum) × Input)
  | 0, _ => none
  | fuel + 1, i =>
    let row := match i.tokens with
      | .key :: rest =>
        let key :=
          if rest.head? = some .value || endsPair .flowMappingEnd rest.head? then
            some (blank, i.skip)
          else node fuel false false i.skip
        match key with
        | none => none
        | some (k, i) => (flowValue fuel .flowMappingEnd i).map fun (v, i) => ((k, v), i)
      | _ => (node fuel false false i).map fun (k, i) => ((k, blank), i)
    match row with
    | none => none
    | some (r, i) => (flowRows fuel false i).map fun (rs, i) => (r :: rs, i)
def flowValue : Nat → Token → Input → Option (Datum × Input)
  | 0, _, _ => none
  | fuel + 1, close, i =>
    match i.tokens with
    | .value :: rest =>
      if endsPair close rest.head? then some (blank, i.skip) else node fuel false false i.skip
    | _ => some (blank, i)
end

def usualPrefixes : Ordered String := Ordered.ofRows [("!", "!"), ("!!", "tag:yaml.org,2002:")]

def directives? (versioned : Bool) (declared : Ordered String) :
    List Token → Option (Ordered String × List Token)
  | .version major minor :: rest =>
    if versioned || major ≠ 1 || (minor ≠ 1 && minor ≠ 2) then none
    else directives? true declared rest
  | .tagPrefix handle text :: rest =>
    if declared.contains handle then none
    else directives? versioned (declared.put handle text) rest
  | .documentStart :: rest => some (usualPrefixes.putAll declared.entries, rest)
  | _ => none

def root? (marked : Bool) (i : Input) : Option (Datum × List Token) :=
  match i.tokens, marked with
  | [], true => some (blank, [])
  | .documentEnd :: _, true | .documentStart :: _, true => some (blank, i.tokens)
  | .version _ _ :: _, true | .tagPrefix _ _ :: _, true => some (blank, i.tokens)
  | _, _ => (node (8 * i.tokens.length + 8) true false i).map fun (d, i) => (d, i.tokens)

def document? (tokens : List Token) : Option Datum :=
  let parsed := match tokens with
    | [] => some (blank, [])
    | .version _ _ :: _ | .tagPrefix _ _ :: _ | .documentStart :: _ =>
      match directives? false {} tokens with
      | some (prefixes, rest) => root? true { tokens := rest, prefixes }
      | none => none
    | _ => root? false { tokens, prefixes := usualPrefixes }
  parsed.bind fun (d, rest) =>
    if (rest.dropWhile (· = .documentEnd)).isEmpty then some d else none

def maxLevels : Nat := 128

def parse? (text : String) : Option Datum :=
  ((tokens? text).bind document?).filter fun d => d.height ≤ maxLevels

end ApiDoc.Yaml
