import ApiDoc.Source.Comment
import ApiDoc.Source.Tree

/-!
# Reading token trees

`trees?` turns a text into token trees. The groups that are open are kept on a
stack with the trees that were read before each.
-/

set_option autoImplicit false

namespace ApiDoc.Source

namespace Tree

def signs : List Char := "~!@#$%^&*-=+|;:,<.>/?'".toList

def sign? : List Char → Option (Char × List Char)
  | '/' :: '/' :: _ => none
  | '/' :: '*' :: _ => none
  | c :: cs => if signs.contains c then some (c, cs) else none
  | [] => none

def startsWith (start cs : List Char) : Bool := start.isPrefixOf cs

def quoteStarts : List (List Char) :=
  ["r\"", "r#\"", "r##", "b\"", "b'", "br\"", "br#", "c\"", "cr\"", "cr#"].map String.toList

def plainOnly : List String := ["_", "super", "self", "Self", "crate"]

def word? (cs : List Char) : Option (String × List Char) :=
  match cs with
  | 'r' :: '#' :: rest => do
    let (name, rest) ← Literal.name? rest
    guard (!plainOnly.contains (String.ofList name))
    pure ("r#" ++ String.ofList name, rest)
  | _ => (Literal.name? cs).map fun (name, rest) => (String.ofList name, rest)

def lifetime? (cs : List Char) : Option (Tree × List Char) := do
  let (name, rest) ← word? cs
  guard (!(startsWith ['\''] rest))
  guard (!(startsWith ['#'] rest) || startsWith ['r', '#'] cs)
  pure (.lifetime name, rest)

def mark? (cs : List Char) : Option (Tree × List Char) := do
  let (sign, rest) ← sign? cs
  if sign = '\'' then lifetime? rest
  else pure (.mark sign (sign? rest).isSome, rest)

def wordTree? (cs : List Char) : Option (Tree × List Char) :=
  if quoteStarts.any fun start => startsWith start cs then none
  else (word? cs).map fun (name, rest) => (.word name, rest)

def leaf? (fuel : Nat) (cs : List Char) : Option (Tree × List Char) :=
  (((Literal.ofChars? fuel cs).map fun (l, rest) => (.literal l, rest)).orElse fun _ =>
    mark? cs).orElse fun _ => wordTree? cs

def doc (inner : Bool) (text : List Char) : List Tree :=
  .mark '#' false :: (if inner then [.mark '!' false] else []) ++
    [.group .bracket [.word "doc", .mark '=' false, .literal (.text (String.ofList text) false)]]

def opening? : Char → Option Delimiter
  | '(' => some .parenthesis
  | '[' => some .bracket
  | '\x7b' => some .brace
  | _ => none

def closing? : Char → Option Delimiter
  | ')' => some .parenthesis
  | ']' => some .bracket
  | '\x7d' => some .brace
  | _ => none

structure Frame where
  delimiter : Delimiter
  before : List Tree

/-- Trees of the rest of a text. `read` holds those of the innermost open group,
newest first. -/
def readFrom : Nat → List Frame → List Tree → List Char → Option (List Tree)
  | 0, _, _, _ => none
  | fuel + 1, frames, read, cs =>
    match skipGaps fuel cs with
    | [] => if frames.isEmpty then some read.reverse else none
    | c :: rest =>
      match docComment? (c :: rest) with
      | some (inner, text, rest) =>
        if hasNoBareReturn text then
          readFrom fuel frames ((doc inner text).reverse ++ read) rest
        else none
      | none =>
        match opening? c, closing? c with
        | some d, _ => readFrom fuel (⟨d, read⟩ :: frames) [] rest
        | _, some d =>
          match frames with
          | frame :: frames =>
            if frame.delimiter = d then
              readFrom fuel frames (.group d read.reverse :: frame.before) rest
            else none
          | [] => none
        | none, none =>
          match leaf? fuel (c :: rest) with
          | some (t, rest) => readFrom fuel frames (t :: read) rest
          | none => none

end Tree

def dropOrderMark : List Char → List Char
  | '\ufeff' :: cs => cs
  | cs => cs

def treesOfChars? (cs : List Char) : Option Trees :=
  Tree.readFrom (cs.length + 2) [] [] (dropOrderMark cs)

def trees? (text : String) : Option Trees := treesOfChars? text.toList

end ApiDoc.Source
