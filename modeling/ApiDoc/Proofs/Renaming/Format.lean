import ApiDoc.Proofs.LetterCase
import ApiDoc.RenameRule
import ApiDoc.Text.Ident

/-!
# Names in the data format

The data format renames a name character by character, and changes the letters of ASCII
only. A name that is put together of words in small letters is the same exactly where taking
it apart loses nothing: underscores stand alone between words, and capitals stand where the
rule puts them. Letters with case beyond ASCII are left out; the format leaves them as they
are, and the tables of letter case do not.
-/

set_option autoImplicit false

namespace ApiDoc.RenameRule

open Text (cut IsPlain)

def remarked (mark : Char) (name : List Char) : List Char :=
  name.map fun c => if c = '_' then mark else c

def headUpper : List Char → List Char
  | [] => []
  | c :: cs => c.toUpper :: cs

def headLower : List Char → List Char
  | [] => []
  | c :: cs => c.toLower :: cs

@[simp]
theorem headUpper_nil : headUpper [] = [] := rfl

@[simp]
theorem headUpper_cons (c : Char) (cs : List Char) : headUpper (c :: cs) = c.toUpper :: cs := rfl

@[simp]
theorem headLower_cons (c : Char) (cs : List Char) : headLower (c :: cs) = c.toLower :: cs := rfl

/-- The name without its underscores, with a capital after each; the flag says that one is
due. -/
def pascal : Bool → List Char → List Char
  | _, [] => []
  | due, c :: cs =>
    if c = '_' then pascal true cs else (if due then c.toUpper else c) :: pascal false cs

def marked (mark : Char) : List Char → List Char
  | [] => []
  | c :: cs =>
    c.toLower :: cs.flatMap fun d => if d.isUpper then [mark, d.toLower] else [d.toLower]

def fieldName : RenameRule → List Char → List Char
  | .lowercase, name | .snakeCase, name => name
  | .uppercase, name | .screamingSnakeCase, name => name.map Char.toUpper
  | .pascalCase, name => pascal true name
  | .camelCase, name => headLower (pascal true name)
  | .kebabCase, name => remarked '-' name
  | .screamingKebabCase, name => remarked '-' (name.map Char.toUpper)

def variantName : RenameRule → List Char → List Char
  | .lowercase, name => name.map Char.toLower
  | .uppercase, name => name.map Char.toUpper
  | .pascalCase, name => name
  | .camelCase, name => headLower name
  | .snakeCase, name => marked '_' name
  | .screamingSnakeCase, name => (marked '_' name).map Char.toUpper
  | .kebabCase, name => remarked '-' (marked '_' name)
  | .screamingKebabCase, name => remarked '-' ((marked '_' name).map Char.toUpper)

structure IsWord (name : List Char) : Prop where
  filled : name ≠ []
  continued : ∀ c ∈ name, Text.isIdentContinue c
  plain : ∀ c ∈ name, IsPlain c

/-- Nothing of the field's name that the rule keeps gets lost when the name is taken apart
into words in small letters. -/
def SuitsField : RenameRule → List Char → Prop
  | .lowercase, name => '_' ∉ name ∧ ∀ c ∈ name, c.isUpper = false
  | .uppercase, name => '_' ∉ name
  | .pascalCase, name | .camelCase, name =>
    ∀ word ∈ cut '_' name, ∀ c ∈ word.tail, c.isUpper = false
  | .snakeCase, name | .kebabCase, name =>
    ∀ word ∈ cut '_' name, word ≠ [] ∧ ∀ c ∈ word, c.isUpper = false
  | .screamingSnakeCase, name | .screamingKebabCase, name => ∀ word ∈ cut '_' name, word ≠ []

def SuitsVariant : RenameRule → List Char → Prop
  | .pascalCase, name => ∀ c ∈ name.head?, c.isLower = false
  | .kebabCase, name | .screamingKebabCase, name => '_' ∉ name
  | _, _ => True

variable {name : List Char} {words : List (List Char)}

/-! ### Marks in place of underscores -/

theorem remarked_underscore (name : List Char) : remarked '_' name = name := by
  have hself : ∀ c : Char, (if c = '_' then '_' else c) = c := fun c => by
    split <;> simp_all
  simp only [remarked, hself, List.map_id_fun', id_eq]

theorem remarked_map {g : Char → Char} (hg : ∀ c, g c = '_' ↔ c = '_') (mark : Char)
    (name : List Char) :
    remarked mark (name.map g) = name.map fun c => if c = '_' then mark else g c := by
  simp [remarked, hg]

theorem toUpper_eq_underscore_iff {c : Char} : c.toUpper = '_' ↔ c = '_' :=
  ⟨Text.eq_of_toUpper_eq rfl, fun hc => by rw [hc]; rfl⟩

/-! ### Words in small letters -/

theorem toUpper_small {word : List Char} (hw : ∀ c ∈ word, IsPlain c) :
    Text.toUpper (word.map Char.toLower) = word.map Char.toUpper := by
  rw [Text.toUpper_plain (List.forall_mem_map.mpr fun c hc => (hw c hc).toLower), List.map_map]
  exact List.map_congr_left fun c _ => Text.toUpper_toLower c

def titled (words : List (List Char)) : List Char :=
  words.flatMap fun word => headUpper (word.map Char.toLower)

theorem titled_cons (word : List Char) (words : List (List Char)) :
    titled (word :: words) = headUpper (word.map Char.toLower) ++ titled words := rfl

theorem capitalise_small {word : List Char} (hw : ∀ c ∈ word, IsPlain c) :
    capitalise (word.map Char.toLower) = headUpper (word.map Char.toLower) := by
  cases word with
  | nil => rfl
  | cons c cs =>
    rw [List.map_cons, capitalise, (hw c List.mem_cons_self).toLower.upperChar_eq]
    rfl

theorem flatten_capitalise (hwords : ∀ word ∈ words, ∀ c ∈ word, IsPlain c) :
    ((words.map (List.map Char.toLower)).map capitalise).flatten = titled words := by
  rw [← List.flatMap_def, List.flatMap_map, titled]
  exact List.flatMap_congr fun word hw => capitalise_small (hwords word hw)

theorem assemble_camel (hfilled : ∀ word ∈ words, word ≠ [])
    (hwords : ∀ word ∈ words, ∀ c ∈ word, IsPlain c) :
    RenameRule.camelCase.assemble (words.map (List.map Char.toLower)) =
      headLower (titled words) := by
  cases words with
  | nil => rfl
  | cons word words =>
    obtain ⟨c, cs, rfl⟩ := List.exists_cons_of_ne_nil (hfilled word List.mem_cons_self)
    rw [List.map_cons, assemble,
      flatten_capitalise fun w hw => hwords w (List.mem_cons_of_mem _ hw), titled_cons]
    simp

end ApiDoc.RenameRule
