import ApiDoc.Attribute.Arguments

/-!
# Vocabularies

A vocabulary says which keys an attribute has and what each puts into a note.
-/

set_option autoImplicit false

namespace ApiDoc.Attribute

abbrev Entry (ρ : Type) := String × (ρ → Arguments ρ)

structure Vocabulary (ρ : Type) where
  /-- What the vocabulary is about, for messages. -/
  context : String
  blank : ρ
  entries : List (Entry ρ)

namespace Entry

variable {ρ α : Type}

def of (read : Arguments α) (name : String) (put : ρ → α → ρ) : Entry ρ :=
  (name, fun r => do return put r (← read))

def text : String → (ρ → String → ρ) → Entry ρ := of Arguments.text

def anyText : String → (ρ → String → ρ) → Entry ρ := of Arguments.anyText

def texts : String → (ρ → List String → ρ) → Entry ρ := of Arguments.texts

def flag : String → (ρ → Bool → ρ) → Entry ρ := of Arguments.flag

def natural : String → (ρ → Nat → ρ) → Entry ρ := of Arguments.natural

def type : String → (ρ → TypeExpr → ρ) → Entry ρ := of Arguments.type

def types : String → (ρ → List TypeExpr → ρ) → Entry ρ := of Arguments.types

def word (read : String → Option α) (fault : String → Fault) :
    String → (ρ → α → ρ) → Entry ρ :=
  of do
    let s ← Arguments.text
    match read s with
    | some a => return a
    | none => throw (fault s)

end Entry

namespace Vocabulary

variable {ρ σ : Type}

def entry (v : Vocabulary ρ) (r : ρ) (key : Arguments.Key) : Arguments ρ :=
  match v.entries.lookup key.name with
  | some change => change r
  | none => throw (.unsupportedKey v.context key.name)

def nested (v : Vocabulary ρ) : Arguments ρ := Arguments.nested v.entry v.blank

def extend (v : Vocabulary ρ) (r : ρ) (a : Attribute) : Except Fault ρ := withEntries a v.entry r

def ofAttribute (v : Vocabulary ρ) (a : Attribute) : Except Fault ρ := v.extend v.blank a

def under (v : Vocabulary σ) (name : String) (put : ρ → σ → ρ) : Entry ρ :=
  Entry.of v.nested name put

end Vocabulary

end ApiDoc.Attribute
