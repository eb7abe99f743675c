import ApiDoc.Text.Split

/-!
# Names of files

The steps of a path stand between slashes; empty steps and single dots count for
nothing. A name ends in an extension behind its last dot, unless that dot is its
first character.
-/

set_option autoImplicit false

namespace ApiDoc.FileName

def steps (path : List Char) : List (List Char) :=
  (Text.cut '/' path).filter fun s => !s.isEmpty && s ≠ ['.']

def ofPath? (path : List Char) : Option (List Char) :=
  (steps path).getLast?.filter (· ≠ ['.', '.'])

def extension? (name : List Char) : Option (List Char) :=
  let behind := (name.reverse.takeWhile (· ≠ '.')).reverse
  if behind.length + 1 < name.length then some behind else none

def stem (name : List Char) : List Char :=
  match extension? name with
  | some e => name.take (name.length - (e.length + 1))
  | none => name

end ApiDoc.FileName
