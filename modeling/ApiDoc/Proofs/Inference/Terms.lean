import ApiDoc.Proofs.Inference.Demands

/-!
# Terms of inference

Terms say what the schemas are like that inference answers with, and in which ways it may
fail. Every way in which inference makes a schema of others suits them; what a note refers
to, and what a declaration marks, is up to the catalog.
-/

set_option autoImplicit false

namespace ApiDoc.Inference

/-- An object under construction is no reference, and neither is what a struct or an enum is
described by. Where nothing is asked of schemas, nothing is left to show. -/
structure Terms where
  schema : Schema → Prop
  failure : Failure → Prop
  declaration : TypeDecl → Prop
  notASchema : ∀ r, failure (.notASchema r) := by intros; trivial
  typeHint : ∀ s n f, typeHint s n = .error f → failure f := by intros; trivial
  keywords : ∀ n hint f, keywords n hint = .error f → failure f := by intros; trivial
  blank : schema {} := by trivial
  scalar : ∀ t s, scalar? t = some s → schema s := by intros; trivial
  nullable : ∀ t s, scalar? t = some s → schema (setNullable s) := by intros; trivial
  ofType : ∀ type, schema (.ofType type) := by intros; trivial
  ofFormat : ∀ type format, schema (.ofFormat type format) := by intros; trivial
  words : ∀ ws, schema (words ws) := by intros; trivial
  mapOf : ∀ s, schema s → schema { Schema.ofType .object with additional := some (.schema s) } := by
    intros; trivial
  arrayOf : ∀ s, schema s → schema (.arrayOf s) := by intros; trivial
  unique : ∀ s, schema s → schema (setUnique (.arrayOf s)) := by intros; trivial
  oneOf : ∀ ss, (∀ s ∈ ss, schema s) → schema { oneOf := ss } := by intros; trivial
  tagged : ∀ name s, schema s → schema (tagged name s) := by intros; trivial
  property : ∀ o name s, schema o → o.reference = none → schema s →
    schema { o with properties := o.properties.put name s } := by intros; trivial
  required : ∀ o name s, schema o → o.reference = none → schema s →
    schema { o.require name with properties := (o.require name).properties.put name s } := by
    intros; trivial
  part : ∀ o s, schema o → o.reference = none → schema s →
    schema { o with allOf := o.allOf ++ [s] } := by intros; trivial
  absorb : ∀ o i, schema o → o.reference = none → schema i →
    schema { i.keywords.required.foldl Schema.require o with
      properties := (i.keywords.required.foldl Schema.require o).properties.putAll
        i.properties.entries } := by intros; trivial
  declare : ∀ s n hint k discriminator ones anys alls negated, schema s →
    Inference.keywords n hint = .ok k → (∀ c ∈ ones, schema c) → (∀ c ∈ anys, schema c) →
    (∀ c ∈ alls, schema c) → (∀ c, negated = some c → schema c) →
    schema (s.declare {
      keywords := { k with discriminator := discriminator }
      oneOf := ones, anyOf := anys, allOf := alls, negated := negated }) := by intros; trivial
  deprecated : ∀ d s, declaration d → d.deprecated = true → schema s →
    ((∀ inner, d.shape ≠ .newtype inner) → s.reference = none) →
    schema { s with keywords := { s.keywords with deprecated := some true } } := by
    intros; trivial

namespace Terms

def any : Terms where
  schema _ := True
  failure _ := True
  declaration _ := True

variable (T : Terms)

def Describes (t : TypeExpr) (s : Schema) : Prop := T.schema s ∧ ∀ c, scalar? t = some c → s = c

def Object (s : Schema) : Prop := T.schema s ∧ s.reference = none

def AdmitsNote (n : SchemaNote) : Prop := ∀ r, n.reference = some r → T.schema (Schema.refTo r)

structure Admits (d : TypeDecl) : Prop where
  declaration : T.declaration d
  notes : ∀ n ∈ d.schemaNotes, T.AdmitsNote n

/-- A field whose demands are in a set and whose note is admitted. -/
structure Ready (S : Demand → Prop) (bindings : TypeExpr.Bindings) (f : FieldDecl) : Prop where
  demands : ∀ x ∈ f.demands bindings, S x
  note : ∀ n ∈ f.schema, T.AdmitsNote n

variable {T}

theorem admits_any (d : TypeDecl) : any.Admits d := ⟨trivial, fun _ _ _ _ => trivial⟩

theorem ready_any {S : Demand → Prop} {bindings : TypeExpr.Bindings} {f : FieldDecl}
    (h : ∀ x ∈ f.demands bindings, S x) : any.Ready S bindings f :=
  ⟨h, fun _ _ _ _ => trivial⟩

theorem Admits.ready {d : TypeDecl} (hd : T.Admits d) {S : Demand → Prop} {args : List TypeExpr}
    (h : ∀ x ∈ d.demands args, S x) {fields : List FieldDecl} (hf : fields ∈ d.fieldLists) :
    ∀ f ∈ fields, T.Ready S (d.bindings args) f := fun _ hm =>
  ⟨fun x hx => h x (TypeDecl.demands_of_fieldLists hf hm x hx),
    fun n hn => hd.notes n (TypeDecl.schemaNotes_of_fieldLists hf hm n hn)⟩

end Terms

end ApiDoc.Inference
