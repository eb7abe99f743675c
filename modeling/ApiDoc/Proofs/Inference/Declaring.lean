import ApiDoc.Proofs.Inference.Handles

/-!
# What a note leaves of a schema

A note that is laid over a schema decides each keyword by itself: what it declares
is what the schema says afterwards, and about the rest the schema says what it said
before. Only to `allOf` and to the extensions something is added. A reference says
nothing but itself, so whatever a note declares is laid over a blank schema that
demands it.
-/

set_option autoImplicit false

namespace ApiDoc

/-! ### Keywords and what is said under them -/

inductive Keyword where
  | title
  | type
  | format
  | description
  | multipleOf
  | maximum
  | exclusiveMaximum
  | minimum
  | exclusiveMinimum
  | maxLength
  | minLength
  | pattern
  | maxItems
  | minItems
  | uniqueItems
  | maxProperties
  | minProperties
  | enumeration
  | discriminator
  | nullable
  | readOnly
  | writeOnly
  | deprecated
  | default
  | sample
  | externalDocs
  | negated
  | anyOf
  | oneOf

def Keyword.Value : Keyword → Type
  | .title | .format | .description | .pattern => String
  | .type => SchemaType
  | .multipleOf | .maximum | .minimum => JsonNumber
  | .maxLength | .minLength | .maxItems | .minItems | .maxProperties | .minProperties => Nat
  | .exclusiveMaximum | .exclusiveMinimum | .uniqueItems | .nullable | .readOnly | .writeOnly
  | .deprecated => Bool
  | .enumeration => List Json
  | .default | .sample => Json
  | .discriminator => Discriminator
  | .externalDocs => ExternalDocs
  | .negated => Schema
  | .anyOf | .oneOf => List Schema

def listed {α : Type} (xs : List α) : Option (List α) := if xs.isEmpty then none else some xs

theorem listed_orList {α : Type} (xs ys : List α) :
    listed (orList xs ys) = (listed xs).or (listed ys) := by
  cases xs with
  | nil => rfl
  | cons x xs => rfl

def Schema.under (s : Schema) : (k : Keyword) → Option k.Value
  | .title => s.keywords.title
  | .type => s.keywords.type
  | .format => s.keywords.format
  | .description => s.keywords.description
  | .multipleOf => s.keywords.multipleOf
  | .maximum => s.keywords.maximum
  | .exclusiveMaximum => s.keywords.exclusiveMaximum
  | .minimum => s.keywords.minimum
  | .exclusiveMinimum => s.keywords.exclusiveMinimum
  | .maxLength => s.keywords.maxLength
  | .minLength => s.keywords.minLength
  | .pattern => s.keywords.pattern
  | .maxItems => s.keywords.maxItems
  | .minItems => s.keywords.minItems
  | .uniqueItems => s.keywords.uniqueItems
  | .maxProperties => s.keywords.maxProperties
  | .minProperties => s.keywords.minProperties
  | .enumeration => listed s.keywords.enumeration
  | .discriminator => s.keywords.discriminator
  | .nullable => s.keywords.nullable
  | .readOnly => s.keywords.readOnly
  | .writeOnly => s.keywords.writeOnly
  | .deprecated => s.keywords.deprecated
  | .default => s.keywords.default
  | .sample => s.keywords.sample
  | .externalDocs => s.keywords.externalDocs
  | .negated => s.negated
  | .anyOf => listed s.anyOf
  | .oneOf => listed s.oneOf

theorem Schema.under_overlay (lower upper : Schema) (k : Keyword) :
    (lower.overlay upper).under k = (upper.under k).or (lower.under k) := by
  cases k with
  | enumeration | anyOf | oneOf => exact listed_orList _ _
  | _ => rfl

/-! ### What a note declares -/

structure NamedSchemas where
  oneOf : List Schema := []
  anyOf : List Schema := []
  allOf : List Schema := []
  negated : Option Schema := none
  /-- Those of the types that a discriminator selects. -/
  selected : List Schema := []

def ExtensionNote.under (n : ExtensionNote) (key : String) : Option Json :=
  if Literal.extensionKey n.name = key then (Literal.extension n).toOption.map (·.2) else none

namespace SchemaNote

def numberOf? (text : String) : Option JsonNumber := (Literal.bound "" text).toOption

def selection (n : MappingNote) (s : Schema) : String × String :=
  (n.value, s.reference.getD (ComponentKind.schemas.pointer n.type.flatName))

def declares (n : SchemaNote) (hint : Option SchemaType) (named : NamedSchemas) :
    (k : Keyword) → Option k.Value
  | .title => n.title
  | .type => n.type.bind SchemaType.ofName?
  | .format => n.format
  | .description => n.description
  | .multipleOf => n.multipleOf.bind numberOf?
  | .maximum => n.maximum.bind numberOf?
  | .exclusiveMaximum => n.exclusiveMaximum
  | .minimum => n.minimum.bind numberOf?
  | .exclusiveMinimum => n.exclusiveMinimum
  | .maxLength => n.maxLength
  | .minLength => n.minLength
  | .pattern => n.pattern
  | .maxItems => n.maxItems
  | .minItems => n.minItems
  | .uniqueItems => n.uniqueItems
  | .maxProperties => n.maxProperties
  | .minProperties => n.minProperties
  | .enumeration => listed (n.enumeration.map (Literal.value hint))
  | .discriminator => n.discriminator.map fun propertyName =>
    { propertyName, mapping := Ordered.ofRows (List.zipWith selection n.mapping named.selected) }
  | .nullable => n.nullable
  | .readOnly => n.readOnly
  | .writeOnly => n.writeOnly
  | .deprecated => n.deprecated
  | .default => n.default.map (Literal.value hint)
  | .sample => n.sample.map (Literal.value hint)
  | .externalDocs => n.externalDocs.map fun d => { url := d.url, description := d.description }
  | .negated => named.negated
  | .anyOf => listed named.anyOf
  | .oneOf => listed named.oneOf

def declaresExtension (n : SchemaNote) (key : String) : Option Json :=
  n.extensions.reverse.findSome? (·.under key)

/-- The note declares nothing: where its schema stands and where it comes from is no
keyword, and the types of a discriminator count only with its property. -/
def Silent (n : SchemaNote) : Prop :=
  { n with name := none, implementation := none, required := none, hidden := false
           mapping := [] } = ({} : SchemaNote)

def readFor (n : SchemaNote) (s : Schema) : Option SchemaType :=
  (n.type.bind SchemaType.ofName?).or s.keywords.type

end SchemaNote

def NamedSchemas.schema (named : NamedSchemas) (n : SchemaNote) (k : Keywords) : Schema where
  keywords := { k with discriminator := n.discriminator.map fun propertyName => {
    propertyName
    mapping := Ordered.ofRows (List.zipWith SchemaNote.selection n.mapping named.selected) } }
  oneOf := named.oneOf
  anyOf := named.anyOf
  allOf := named.allOf
  negated := named.negated

namespace Inference

inductive Described (infer : TypeExpr → Gen Schema) :
    Arena → List TypeExpr → List Schema → Arena → Prop where
  | nil (a : Arena) : Described infer a [] [] a
  | cons {a b c : Arena} {t : TypeExpr} {s : Schema} {ts : List TypeExpr} {ss : List Schema}
    (head : (infer t).outcome a = (.ok s, b)) (tail : Described infer b ts ss c) :
    Described infer a (t :: ts) (s :: ss) c

def Naming (infer : TypeExpr → Gen Schema) (n : SchemaNote) (a : Arena) (named : NamedSchemas)
    (b : Arena) : Prop :=
  ∃ a₁ a₂ a₃ a₄, Described infer a n.oneOf named.oneOf a₁ ∧
    Described infer a₁ n.anyOf named.anyOf a₂ ∧ Described infer a₂ n.allOf named.allOf a₃ ∧
    Described infer a₃ n.negated.toList named.negated.toList a₄ ∧
    Described infer a₄ (if n.discriminator.isSome then n.mapping.map (·.type) else [])
      named.selected b

/-- A schema with everything laid over it that a note declares. -/
structure LaidOver (n : SchemaNote) (hint : Option SchemaType) (named : NamedSchemas)
    (lower result : Schema) : Prop where
  keyword : ∀ k, result.under k = (n.declares hint named k).or (lower.under k)
  allOf : result.allOf = lower.allOf ++ named.allOf
  extension : ∀ key, result.keywords.extensions.get? key =
    (n.declaresExtension key).or (lower.keywords.extensions.get? key)
  extensionOrder : lower.keywords.extensions.keys <+: result.keywords.extensions.keys
  reference : result.reference = lower.reference
  required : result.keywords.required = lower.keywords.required
  properties : result.properties = lower.properties
  items : result.items = lower.items
  additional : result.additional = lower.additional

/-! ### Types that a note names -/

section Named

variable {infer : TypeExpr → Gen Schema} {a b : Arena}

theorem described_of_each {ts : List TypeExpr} {ss : List Schema}
    (h : (each infer ts).outcome a = (.ok ss, b)) : Described infer a ts ss b := by
  induction ts generalizing a ss with
  | nil =>
    cases h
    exact .nil _
  | cons t ts ih =>
    obtain ⟨s, c, hs, h⟩ := ExceptT.outcome_bind_eq_ok h
    obtain ⟨rest, d, hrest, h⟩ := ExceptT.outcome_bind_eq_ok h
    cases h
    exact .cons hs (ih hrest)

theorem described_of_whereNamed {t : Option TypeExpr} {s : Option Schema}
    (h : (whereNamed infer t).outcome a = (.ok s, b)) :
    Described infer a t.toList s.toList b := by
  cases t with
  | none =>
    cases h
    exact .nil _
  | some t =>
    obtain ⟨s, c, hs, h⟩ := ExceptT.outcome_bind_eq_ok h
    cases h
    exact .cons hs (.nil _)

theorem described_of_mapping {m r : Ordered String} {ns : List MappingNote}
    (h : (mapping infer m ns).outcome a = (.ok r, b)) :
    ∃ ss, Described infer a (ns.map (·.type)) ss b ∧
      r = m.putAll (List.zipWith SchemaNote.selection ns ss) := by
  induction ns generalizing a m with
  | nil =>
    cases h
    exact ⟨[], .nil _, rfl⟩
  | cons n ns ih =>
    obtain ⟨s, c, hs, h⟩ := ExceptT.outcome_bind_eq_ok h
    obtain ⟨ss, hss, hr⟩ := ih h
    exact ⟨s :: ss, .cons hs hss, hr⟩

theorem described_of_discriminator {n : SchemaNote} {d : Option Discriminator}
    (h : (discriminator infer n).outcome a = (.ok d, b)) :
    ∃ ss, Described infer a (if n.discriminator.isSome then n.mapping.map (·.type) else []) ss b ∧
      d = n.discriminator.map fun propertyName => {
        propertyName
        mapping := Ordered.ofRows (List.zipWith SchemaNote.selection n.mapping ss) } := by
  unfold discriminator at h
  cases hd : n.discriminator with
  | none =>
    rw [hd] at h
    cases h
    exact ⟨[], .nil _, rfl⟩
  | some propertyName =>
    rw [hd] at h
    obtain ⟨m, c, hm, h⟩ := ExceptT.outcome_bind_eq_ok h
    cases h
    obtain ⟨ss, hss, rfl⟩ := described_of_mapping hm
    exact ⟨ss, hss, rfl⟩

theorem Described.eq_nil_iff {ts : List TypeExpr} {ss : List Schema}
    (h : Described infer a ts ss b) : ss = [] ↔ ts = [] := by
  cases h <;> simp

end Named

/-! ### Values that a note writes -/

theorem bound_toOption (field text : String) :
    (Literal.bound field text).toOption = SchemaNote.numberOf? text := by
  unfold SchemaNote.numberOf? Literal.bound
  split <;> rfl

theorem bound?_eq_ok {field : String} {text : Option String} {x : Option JsonNumber}
    (h : Literal.bound? field text = .ok x) :
    x = text.bind SchemaNote.numberOf? ∧ (x = none ↔ text = none) := by
  cases text with
  | none =>
    cases h
    simp
  | some text =>
    have hx := bound_toOption field text
    rw [Literal.bound?] at h
    cases hb : Literal.bound field text with
    | error f =>
      rw [hb] at h
      cases h
    | ok y =>
      rw [hb] at h hx
      cases h
      simp [← hx, Except.toOption]

/-- The values of a note are read for its own type, else for the schema's. -/
theorem typeHint_eq_ok {s : Schema} {n : SchemaNote} {hint : Option SchemaType}
    (h : typeHint s n = .ok hint) :
    hint = n.readFor s ∧ n.type.bind SchemaType.ofName? = (if n.type.isSome then hint else none) ∧
      (n.type.bind SchemaType.ofName? = none ↔ n.type = none) := by
  unfold typeHint at h
  unfold SchemaNote.readFor
  cases hn : n.type with
  | none =>
    rw [hn] at h
    cases h
    simp
  | some word =>
    rw [hn] at h
    cases hw : SchemaType.ofName? word with
    | none =>
      simp only [SchemaType.ofWord, hw] at h
      cases h
    | some t =>
      simp only [SchemaType.ofWord, hw] at h
      cases h
      simp [hw]

/-- The extensions of a note, each with the row that it gives. -/
theorem mapM_extension_eq_ok {ns : List ExtensionNote} {rows : List (String × Json)}
    (h : ns.mapM Literal.extension = .ok rows) :
    List.Forall₂ (fun n row => Literal.extension n = .ok row) ns rows := by
  induction ns generalizing rows with
  | nil =>
    cases h
    exact .nil
  | cons n ns ih =>
    rw [List.mapM_cons] at h
    obtain ⟨row, hrow, h⟩ := Except.bind_eq_ok h
    obtain ⟨rest, hrest, h⟩ := Except.bind_eq_ok h
    cases h
    exact .cons hrow (ih hrest)

theorem extension_fst {n : ExtensionNote} {row : String × Json}
    (h : Literal.extension n = .ok row) : row.1 = Literal.extensionKey n.name := by
  unfold Literal.extension at h
  dsimp only at h
  split at h
  · cases hj : Literal.json (Literal.extensionKey n.name) n.value with
    | error f =>
      rw [hj] at h
      cases h
    | ok j =>
      rw [hj] at h
      cases h
      rfl
  · cases h
    rfl

theorem lookup_extensions {ns : List ExtensionNote} {rows : List (String × Json)}
    (h : List.Forall₂ (fun n row => Literal.extension n = .ok row) ns rows) (key : String) :
    rows.lookup key = ns.findSome? (·.under key) := by
  induction h with
  | nil => rfl
  | @cons n row ns rows hrow _ ih =>
    obtain ⟨k, j⟩ := row
    have hk : k = Literal.extensionKey n.name := extension_fst hrow
    rw [List.findSome?_cons, ExtensionNote.under, ← hk, hrow]
    by_cases he : k = key
    · simp [he, Except.toOption]
    · have hne : (key == k) = false := by simpa using fun e => he e.symm
      simp [he, List.lookup_cons, hne, ih]

theorem extensions_eq_ok {n : SchemaNote} {e : Extensions}
    (h : Literal.extensions n.extensions = .ok e) :
    (∀ key, e.get? key = n.declaresExtension key) ∧
      (e.isEmpty = true ↔ n.extensions = []) := by
  unfold Literal.extensions at h
  cases hm : n.extensions.mapM Literal.extension with
  | error f =>
    rw [hm] at h
    cases h
  | ok rows =>
    rw [hm] at h
    cases h
    have hrows := mapM_extension_eq_ok hm
    refine ⟨fun key => ?_, ?_⟩
    · rw [Ordered.get?_ofRows]
      exact lookup_extensions (List.rel_reverse hrows) key
    · rw [Ordered.isEmpty_ofRows, List.isEmpty_iff, ← List.length_eq_zero_iff, ← hrows.length_eq,
        List.length_eq_zero_iff]

/-! ### What a note declares is what is laid over -/

structure Declares (n : SchemaNote) (hint : Option SchemaType) (named : NamedSchemas)
    (upper : Schema) : Prop where
  keyword : ∀ k, upper.under k = n.declares hint named k
  allOf : upper.allOf = named.allOf
  extension : ∀ key, upper.keywords.extensions.get? key = n.declaresExtension key
  required : upper.keywords.required = []
  silent : upper.isBlank = true ↔ n.Silent

theorem Declares.laidOver {n : SchemaNote} {hint : Option SchemaType} {named : NamedSchemas}
    {upper : Schema} (h : Declares n hint named upper) (lower : Schema) :
    LaidOver n hint named lower (lower.overlay upper) where
  keyword k := by rw [Schema.under_overlay, h.keyword]
  allOf := congrArg (lower.allOf ++ ·) h.allOf
  extension key := by
    show (lower.keywords.extensions.putAll upper.keywords.extensions.entries).get? key = _
    rw [Ordered.get?_putAll_entries, h.extension]
  extensionOrder := Ordered.prefix_keys_putAll _ _
  required := by
    show orList upper.keywords.required lower.keywords.required = _
    rw [h.required]
    rfl
  reference := rfl
  properties := rfl
  items := rfl
  additional := rfl

theorem declares_schema {infer : TypeExpr → Gen Schema} {a b : Arena} {s : Schema}
    {n : SchemaNote} {hint : Option SchemaType} {k : Keywords} {named : NamedSchemas}
    (hr : n.reference = none) (hhint : typeHint s n = .ok hint) (hkeys : keywords n hint = .ok k)
    (hnaming : Naming infer n a named b) : Declares n hint named (named.schema n k) := by
  obtain ⟨a₁, a₂, a₃, a₄, hone, hany, hall, hnot, -⟩ := hnaming
  obtain ⟨-, htype, htypes⟩ := typeHint_eq_ok hhint
  obtain ⟨multipleOf, hmultiple, hkeys⟩ := Except.bind_eq_ok hkeys
  obtain ⟨maximum, hmaximum, hkeys⟩ := Except.bind_eq_ok hkeys
  obtain ⟨minimum, hminimum, hkeys⟩ := Except.bind_eq_ok hkeys
  obtain ⟨extensions, hextensions, hkeys⟩ := Except.bind_eq_ok hkeys
  cases hkeys
  obtain ⟨rfl, hmultiple⟩ := bound?_eq_ok hmultiple
  obtain ⟨rfl, hmaximum⟩ := bound?_eq_ok hmaximum
  obtain ⟨rfl, hminimum⟩ := bound?_eq_ok hminimum
  obtain ⟨hextension, hempty⟩ := extensions_eq_ok hextensions
  constructor
  case keyword =>
    intro k
    cases k with
    | type => exact htype.symm
    | _ => rfl
  case allOf => rfl
  case extension => exact hextension
  case required => rfl
  case silent =>
    have hnegated : named.negated = none ↔ n.negated = none := by
      have htoList := hnot.eq_nil_iff
      rwa [Option.toList_eq_nil_iff, Option.toList_eq_nil_iff] at htoList
    rw [htype] at htypes
    -- each part of the schema is blank just when the note says nothing of it
    simp only [NamedSchemas.schema, Schema.isBlank, Keywords.isBlank, Schema.isLeaf,
      Bool.and_eq_true, Option.isNone_iff_eq_none, List.isEmpty_iff, hone.eq_nil_iff,
      hany.eq_nil_iff, hall.eq_nil_iff, hnegated, hempty, hmultiple, hmaximum, hminimum, htypes,
      Option.map_eq_none_iff, List.map_eq_nil_iff, SchemaNote.Silent, SchemaNote.mk.injEq, hr]
    constructor
    · intro h
      simp [h]
    · intro h
      simp [h, Ordered.isEmpty]

theorem declared_eq_ok {infer : TypeExpr → Gen Schema} {a b : Arena} {upper : Schema}
    {n : SchemaNote} {hint : Option SchemaType}
    (h : (declared infer n hint).outcome a = (.ok upper, b)) :
    ∃ k named, keywords n hint = .ok k ∧ Naming infer n a named b ∧ upper = named.schema n k := by
  obtain ⟨k, a₀, hk, h⟩ := ExceptT.outcome_bind_eq_ok h
  obtain ⟨oneOf, a₁, hone, h⟩ := ExceptT.outcome_bind_eq_ok h
  obtain ⟨anyOf, a₂, hany, h⟩ := ExceptT.outcome_bind_eq_ok h
  obtain ⟨allOf, a₃, hall, h⟩ := ExceptT.outcome_bind_eq_ok h
  obtain ⟨negated, a₄, hnot, h⟩ := ExceptT.outcome_bind_eq_ok h
  obtain ⟨d, a₅, hd, h⟩ := ExceptT.outcome_bind_eq_ok h
  cases h
  obtain ⟨hkeys, rfl⟩ := check_eq_ok hk
  obtain ⟨selected, hselected, rfl⟩ := described_of_discriminator hd
  refine ⟨k, ⟨oneOf, anyOf, allOf, negated, selected⟩, hkeys, ⟨a₁, a₂, a₃, a₄, ?_⟩, rfl⟩
  exact ⟨described_of_each hone, described_of_each hany, described_of_each hall,
    described_of_whereNamed hnot, hselected⟩

/-- A note without a reference, laid over a schema, declares each keyword by itself and
leaves the rest as it was. -/
theorem merge_laidOver (catalog : Catalog) (depth : Nat) {a b : Arena} {s r : Schema}
    {n : SchemaNote} (hn : n.reference = none)
    (h : (merge (schemaOf catalog depth) s n).outcome a = (.ok r, b)) :
    ∃ named, Naming (schemaOf catalog depth) n a named b ∧
      (n.Silent → r = s) ∧
      (¬ n.Silent → s.reference = none → LaidOver n (n.readFor s) named s r) ∧
      (¬ n.Silent → s.reference ≠ none → LaidOver n (n.readFor s) named { allOf := [s] } r) := by
  unfold merge at h
  rw [hn] at h
  obtain ⟨hint, a', hcheck, h⟩ := ExceptT.outcome_bind_eq_ok h
  obtain ⟨upper, b', hupper, h⟩ := ExceptT.outcome_bind_eq_ok h
  cases h
  obtain ⟨hhint, rfl⟩ := check_eq_ok hcheck
  obtain ⟨k, named, hkeys, hnaming, rfl⟩ := declared_eq_ok hupper
  have hdeclares := declares_schema hn hhint hkeys hnaming
  obtain ⟨rfl, -, -⟩ := typeHint_eq_ok hhint
  refine ⟨named, hnaming, fun hsilent => ?_, fun hsilent hs => ?_, fun hsilent hs => ?_⟩
  · rw [Schema.declare, if_pos (hdeclares.silent.mpr hsilent)]
  · rw [Schema.declare, if_neg fun hb => hsilent (hdeclares.silent.mp hb), hs]
    exact hdeclares.laidOver s
  · rw [Schema.declare, if_neg fun hb => hsilent (hdeclares.silent.mp hb),
      if_pos (Option.isSome_iff_ne_none.mpr hs)]
    exact hdeclares.laidOver { allOf := [s] }

section Witness

def itemNote : SchemaNote where
  description := some "what is shown"
  maximum := some " 10 "
  default := some "7"
  oneOf := [itemType, pageType itemType]
  discriminator := some "kind"
  mapping := [⟨"item", itemType⟩]

def itemSchema : Schema :=
  { allOf := [.refTo "Item"]
    oneOf := [.refTo "Item", .refTo "PageItem"]
    keywords := {
      description := some "what is shown"
      maximum := some (.whole 10)
      default := some (.number (.whole 7))
      discriminator := some {
        propertyName := "kind"
        mapping := .ofRows [("item", ComponentKind.schemas.pointer "Item")] } } }

def itemArena : Arena := afterRequest pageCatalog 9 {} (.schemaOf itemType)

theorem merge_laidOver_item :
    itemNote.reference = none ∧
    (merge (schemaOf pageCatalog 9) (.refTo "Item") itemNote).outcome {} =
      (.ok itemSchema, itemArena) ∧
    ∃ named, Naming (schemaOf pageCatalog 9) itemNote {} named itemArena ∧
      (itemNote.Silent → itemSchema = .refTo "Item") ∧
      (¬ itemNote.Silent → (Schema.refTo "Item").reference = none →
        LaidOver itemNote (itemNote.readFor (.refTo "Item")) named (.refTo "Item") itemSchema) ∧
      (¬ itemNote.Silent → (Schema.refTo "Item").reference ≠ none →
        LaidOver itemNote (itemNote.readFor (.refTo "Item")) named { allOf := [.refTo "Item"] }
          itemSchema) :=
  have hmerge : (merge (schemaOf pageCatalog 9) (.refTo "Item") itemNote).outcome {} =
      (.ok itemSchema, itemArena) :=
    Prod.ext (by rfl) (by rfl)
  ⟨rfl, hmerge, merge_laidOver pageCatalog 9 rfl hmerge⟩

end Witness

end Inference

end ApiDoc
