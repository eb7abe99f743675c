import ApiDoc.Proofs.Outcome
import ApiDoc.Proofs.Renaming.Fields
import ApiDoc.Proofs.Renaming.Variants
import ApiDoc.Survey.Declared

/-!
# Names that the survey reads

A field or a variant that has no name of its own is named by the rule of its container.
-/

set_option autoImplicit false

namespace ApiDoc.RenameRule

theorem givenName_getD (own rule : Option String) (rename : RenameRule → String → String)
    (name : String) : (Survey.givenName own rule rename name).getD name =
      (own.orElse fun _ => rule.map fun r => applyTo r rename name).getD name := by
  rw [Survey.givenName]
  cases own.orElse fun _ => rule.map fun r => applyTo r rename name with
  | none => rfl
  | some given =>
    rw [Option.filter_some]
    split
    · rfl
    · simp_all

/-- Without a name of its own, what is declared is named by the rule of what contains it. -/
theorem named_by_rule {rule : String} {r : RenameRule} (hr : ofName? rule = some r)
    (rename : RenameRule → String → String) (name : String) :
    (Survey.givenName none (some rule) rename name).getD name = rename r name := by
  rw [givenName_getD, Option.orElse_none, Option.map_some, Option.getD_some, applyTo, hr]
  rfl

theorem field_name {rule : Option String} {f : Source.NamedField} {wire : Attribute.Wire}
    {d : FieldDecl} (hwire : Attribute.Wire.ofAttributes f.attributes = .ok wire)
    (hd : Survey.field rule f = .ok d) :
    d.rename.getD d.name = (Survey.givenName wire.rename rule renameField f.name).getD f.name := by
  obtain ⟨w, hw, hd⟩ := Except.bind_eq_ok hd
  obtain ⟨schema, -, hd⟩ := Except.bind_eq_ok hd
  obtain rfl := Except.ok.inj (hw.symm.trans hwire)
  obtain rfl := Except.ok.inj hd
  rfl

theorem variant_name {rule : Option String} {v : Source.Variant} {wire : Attribute.Wire}
    {d : VariantDecl} (hwire : Attribute.Wire.ofAttributes v.attributes = .ok wire)
    (hd : Survey.variant? rule v = .ok (some d)) :
    d.wireName = (Survey.givenName wire.rename rule renameVariant v.name).getD v.name := by
  obtain ⟨w, hw, hd⟩ := Except.bind_eq_ok hd
  obtain rfl := Except.ok.inj (hw.symm.trans hwire)
  split at hd
  · cases hd
  · obtain ⟨payload, -, hd⟩ := Except.bind_eq_ok hd
    obtain rfl := Option.some.inj (Except.ok.inj hd)
    rfl

/-- A field or a variant without a name of its own has the name that the rule of its
container gives, if and only if the words of its declared name are all that the rule looks
at. -/
theorem wire_name_by_rule_iff {rule : String} {r : RenameRule} (hr : ofName? rule = some r) :
    (∀ (f : Source.NamedField) (wire : Attribute.Wire) (d : FieldDecl),
      Attribute.Wire.ofAttributes f.attributes = .ok wire → wire.rename = none →
      IsWord f.name.toList → Survey.field (some rule) f = .ok d →
      ((d.rename.getD d.name).toList = fieldName r f.name.toList ↔
        SuitsField r f.name.toList)) ∧
    ∀ (v : Source.Variant) (wire : Attribute.Wire) (d : VariantDecl),
      Attribute.Wire.ofAttributes v.attributes = .ok wire → wire.rename = none →
      IsWord v.name.toList → Survey.variant? (some rule) v = .ok (some d) →
      (d.wireName.toList = variantName r v.name.toList ↔ SuitsVariant r v.name.toList) := by
  constructor
  · intro f wire d hwire hown hword hd
    rw [field_name hwire hd, hown, named_by_rule hr, renameField, String.toList_ofList]
    exact assemble_field_eq_iff r hword
  · intro v wire d hwire hown hword hd
    rw [variant_name hwire hd, hown, named_by_rule hr, renameVariant, String.toList_ofList]
    exact assemble_variant_eq_iff r hword

section Witness

def defaulted : List Attribute :=
  [{ absolute := false, path := ["serde"], form := .list [.word "default"] }]

def createdField : Source.NamedField where
  attributes := defaulted
  name := "created_at"
  type := { name := "u64" }

def createdDecl (wireName : String) : FieldDecl where
  name := "created_at"
  type := { name := "u64" }
  rename := some wireName

def onHold : Source.Variant where
  attributes := defaulted
  name := "OnHold"
  fields := .unit

def onHoldDecl : VariantDecl where
  name := "OnHold"
  rename := some "on-hold"

theorem isWord_of_ascii {name : List Char} (hn : name ≠ [])
    (hall : name.all fun c => Text.isIdentContinue c && Text.isAscii c) : IsWord name := by
  have heach : ∀ c ∈ name, Text.isIdentContinue c = true ∧ Text.isAscii c = true := by
    simpa [List.all_eq_true] using hall
  exact ⟨hn, fun c h => (heach c h).1, fun c h => Or.inl (heach c h).2⟩

theorem createdField_isWord : IsWord createdField.name.toList :=
  isWord_of_ascii (by decide) rfl

theorem onHold_isWord : IsWord onHold.name.toList :=
  isWord_of_ascii (by decide) rfl

theorem wire_name_by_rule_iff_kebab :
    ofName? "kebab-case" = some .kebabCase ∧
    Attribute.Wire.ofAttributes defaulted = .ok {} ∧
    Survey.field (some "kebab-case") createdField = .ok (createdDecl "created-at") ∧
    Survey.variant? (some "kebab-case") onHold = .ok (some onHoldDecl) ∧
    ("created-at".toList = fieldName .kebabCase createdField.name.toList ↔
      SuitsField .kebabCase createdField.name.toList) ∧
    ("on-hold".toList = variantName .kebabCase onHold.name.toList ↔
      SuitsVariant .kebabCase onHold.name.toList) :=
  have hrule : ofName? "kebab-case" = some .kebabCase := rfl
  have hnames := wire_name_by_rule_iff hrule
  ⟨hrule, rfl, rfl, rfl, hnames.1 createdField {} _ rfl rfl createdField_isWord rfl,
    hnames.2 onHold {} _ rfl rfl onHold_isWord rfl⟩

end Witness

section Counterexample

def streetField : Source.NamedField where
  attributes := defaulted
  name := "straße"
  type := { name := "String" }

def streetDecl : FieldDecl where
  name := "straße"
  type := { name := "String" }
  rename := some "STRASSE"

/-- The format keeps the underscore under the one rule, and the letter that ASCII does not
have under the other. -/
theorem lowercase_field_loses_underscore :
    ofName? "lowercase" = some .lowercase ∧ ofName? "UPPERCASE" = some .uppercase ∧
    Attribute.Wire.ofAttributes defaulted = .ok {} ∧
    IsWord createdField.name.toList ∧
    Survey.field (some "lowercase") createdField = .ok (createdDecl "createdat") ∧
    fieldName .lowercase createdField.name.toList = "created_at".toList ∧
    Survey.field (some "UPPERCASE") streetField = .ok streetDecl ∧
    fieldName .uppercase streetField.name.toList = "STRAßE".toList :=
  ⟨rfl, rfl, rfl, createdField_isWord, rfl, rfl, rfl, rfl⟩

end Counterexample

end ApiDoc.RenameRule
