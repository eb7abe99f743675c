import ApiDoc.Text.Case
import ApiDoc.Text.Split

/-!
# Rules for names in the described data

A rule takes the name of a field or a variant apart into words in small letters
and puts the words together in its own way. A field is written with underscores
between its words, a variant with a capital letter at the head of each.
-/

set_option autoImplicit false

namespace ApiDoc

inductive RenameRule where
  | lowercase
  | uppercase
  | pascalCase
  | camelCase
  | snakeCase
  | screamingSnakeCase
  | kebabCase
  | screamingKebabCase
  deriving DecidableEq, Repr

namespace RenameRule

def ofName? (name : String) : Option RenameRule :=
  match name with
  | "lowercase" => some .lowercase
  | "UPPERCASE" => some .uppercase
  | "PascalCase" => some .pascalCase
  | "camelCase" => some .camelCase
  | "snake_case" => some .snakeCase
  | "SCREAMING_SNAKE_CASE" => some .screamingSnakeCase
  | "kebab-case" => some .kebabCase
  | "SCREAMING-KEBAB-CASE" => some .screamingKebabCase
  | _ => none

def fieldWords (name : List Char) : List (List Char) :=
  ((Text.cut '_' name).filter fun w => !w.isEmpty).map Text.toLower

/-- A name cut before each capital letter but the first character; the first
argument is the word so far, last character first. -/
def capitalised : List Char → List Char → List (List Char)
  | [], [] => []
  | word, [] => [word.reverse]
  | word, c :: cs =>
    if Text.isUppercase c && !word.isEmpty then word.reverse :: capitalised [c] cs
    else capitalised (c :: word) cs

def variantWords (name : List Char) : List (List Char) :=
  (capitalised [] name).map Text.toLower

def capitalise : List Char → List Char
  | [] => []
  | c :: cs => Text.upperChar c ++ cs

def assemble : RenameRule → List (List Char) → List Char
  | .lowercase, words => words.flatten
  | .uppercase, words => Text.toUpper words.flatten
  | .pascalCase, words => (words.map capitalise).flatten
  | .camelCase, [] => []
  | .camelCase, word :: words => word ++ (words.map capitalise).flatten
  | .snakeCase, words => Text.join ['_'] words
  | .screamingSnakeCase, words => Text.toUpper (Text.join ['_'] words)
  | .kebabCase, words => Text.join ['-'] words
  | .screamingKebabCase, words => Text.toUpper (Text.join ['-'] words)

def renameField (r : RenameRule) (name : String) : String :=
  String.ofList (r.assemble (fieldWords name.toList))

def renameVariant (r : RenameRule) (name : String) : String :=
  String.ofList (r.assemble (variantWords name.toList))

def applyTo (rule : String) (rename : RenameRule → String → String) (name : String) : String :=
  ((ofName? rule).map fun r => rename r name).getD name

end RenameRule

end ApiDoc
