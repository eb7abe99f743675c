import ApiDoc.Proofs.Inference.Depth
import ApiDoc.Proofs.Inference.Instances

/-!
# Structs that are flattened and structs that are spliced

The object of a list of fields is put together from the objects of its parts. So a
struct that is flattened comes to the same as its own fields in the place of the
flattened member, but for one thing: of what the struct demands through `allOf`,
because it flattens types that are no structs, nothing is taken over.
-/

set_option autoImplicit false

namespace ApiDoc

/-! ### Objects put together -/

namespace Schema

def absorb (o inner : Schema) : Schema :=
  { o with
    keywords := { o.keywords with
      required := inner.keywords.required.foldl withName o.keywords.required }
    properties := o.properties.putAll inner.properties.entries }

def extend (o inner : Schema) : Schema :=
  { o.absorb inner with allOf := o.allOf ++ inner.allOf }

def lacking (start count : Nat) (s : Schema) : Schema :=
  { s with allOf := s.allOf.take start ++ s.allOf.drop (start + count) }

/-- Names may be collected in a list of their own before they are added. -/
theorem foldl_withName_withName (names others : List String) (name : String) :
    (withName others name).foldl withName names =
      withName (others.foldl withName names) name := by
  by_cases h : name ∈ others
  · have hin : name ∈ others.foldl withName names := mem_foldl_withName.mpr (Or.inr h)
    have hothers : withName others name = others := by simp [withName, h]
    rw [hothers, withName, if_pos (by simpa using hin)]
  · have hothers : withName others name = others ++ [name] := by simp [withName, h]
    rw [hothers, List.foldl_append]
    rfl

theorem foldl_withName_foldl (names others added : List String) :
    (added.foldl withName others).foldl withName names =
      added.foldl withName (others.foldl withName names) := by
  induction added generalizing others with
  | nil => rfl
  | cons name added ih => rw [List.foldl_cons, List.foldl_cons, ih, foldl_withName_withName]

theorem extend_blank (o : Schema) : o.extend (.ofType .object) = o := by
  cases o
  simp [extend, absorb, ofType, Ordered.putAll]

theorem extend_require (o inner : Schema) (name : String) :
    o.extend (inner.require name) = (o.extend inner).require name := by
  rw [require_eq, require_eq]
  simp only [extend, absorb, foldl_withName_withName]

theorem extend_put (o inner : Schema) (name : String) (s : Schema) :
    o.extend { inner with properties := inner.properties.put name s } =
      { o.extend inner with properties := (o.extend inner).properties.put name s } := by
  simp only [extend, absorb, Ordered.putAll_put]

theorem extend_absorb (o inner more : Schema) :
    o.extend (inner.absorb more) = (o.extend inner).absorb more := by
  simp only [extend, absorb, foldl_withName_foldl, Ordered.putAll_putAll]

theorem extend_part (o inner part : Schema) :
    o.extend { inner with allOf := inner.allOf ++ [part] } =
      { o.extend inner with allOf := (o.extend inner).allOf ++ [part] } := by
  simp only [extend, absorb, List.append_assoc]

end Schema

/-! ### Fields one after another -/

def FieldDecl.isDemanded (catalog : Catalog) (bindings : TypeExpr.Bindings) (f : FieldDecl) :
    Bool :=
  !f.isAbsent && f.flattened &&
    ((catalog.get? (f.type.substitute bindings).name).bind (·.fields?)).isNone

namespace Inference

variable {catalog : Catalog} {below : Level} {bindings : TypeExpr.Bindings}

theorem flatten_struct {t : TypeExpr} {d : TypeDecl} {own : List FieldDecl}
    (hd : catalog.get? t.name = some d) (hown : d.fields? = some own) (o : Schema) :
    flatten catalog below o t =
      below.fieldsOf own (d.bindings t.args) >>= fun inner => pure (o.absorb inner) := by
  unfold flatten
  simp only [hd, hown, Option.bind_some, Option.map_some, Schema.requireAll_eq, Schema.absorb]

theorem flatten_other {t : TypeExpr} (h : (catalog.get? t.name).bind (·.fields?) = none)
    (o : Schema) : flatten catalog below o t =
      below.schemaOf t >>= fun part => pure { o with allOf := o.allOf ++ [part] } := by
  unfold flatten
  cases hd : catalog.get? t.name with
  | none => rfl
  | some d =>
    rw [hd] at h
    have hnone : d.fields? = none := h
    simp only [Option.bind_some, hnone, Option.map_none]

def marked (f : FieldDecl) (s : Schema) : Schema :=
  if f.deprecated && s.keywords.deprecated.isNone then
    s.declare { keywords := { deprecated := some true } }
  else s

theorem markField_eq (infer : TypeExpr → Gen Schema) (f : FieldDecl) (s : Schema) :
    markField infer f s = pure (marked f s) := by
  unfold markField marked
  split <;> rfl

def withProperty (o : Schema) (f : FieldDecl) (s : Schema) : Schema :=
  let o := if f.schema.any (·.required = some true) then o.require f.wireName else o
  { o with properties := o.properties.put f.wireName (marked f s) }

theorem property_eq (o : Schema) (f : FieldDecl) (t : TypeExpr) :
    property below o f t =
      member below.schemaOf t f.schema >>= fun s => pure (withProperty o f s) := by
  unfold property
  simp only [markField_eq, pure_bind]
  rfl

theorem extend_withProperty (o inner : Schema) (f : FieldDecl) (s : Schema) :
    o.extend (withProperty inner f s) = withProperty (o.extend inner) f s := by
  unfold withProperty
  dsimp only
  split
  · rw [← Schema.extend_require, ← Schema.extend_put]
  · rw [Schema.extend_put]

inductive FieldStep (catalog : Catalog) (below : Level) (bindings : TypeExpr.Bindings) (o : Schema)
    (f : FieldDecl) (a : Arena) : Schema → Arena → Prop
  | absent (ha : f.isAbsent = true) : FieldStep catalog below bindings o f a o a
  | own {described : Schema} {b : Arena} (ha : f.isAbsent = false) (hf : f.flattened = false)
      (h : (member below.schemaOf (f.type.substitute bindings) f.schema).outcome a =
        (.ok described, b)) : FieldStep catalog below bindings o f a (withProperty o f described) b
  | struct {d : TypeDecl} {own : List FieldDecl} {inner : Schema} {b : Arena}
      (ha : f.isAbsent = false) (hf : f.flattened = true)
      (hd : catalog.get? (f.type.substitute bindings).name = some d) (hown : d.fields? = some own)
      (h : (below.fieldsOf own (d.bindings (f.type.substitute bindings).args)).outcome a =
        (.ok inner, b)) : FieldStep catalog below bindings o f a (o.absorb inner) b
  | other {part : Schema} {b : Arena} (ha : f.isAbsent = false) (hf : f.flattened = true)
      (hd : (catalog.get? (f.type.substitute bindings).name).bind (·.fields?) = none)
      (h : (below.schemaOf (f.type.substitute bindings)).outcome a = (.ok part, b)) :
      FieldStep catalog below bindings o f a { o with allOf := o.allOf ++ [part] } b

theorem fieldStep_of_outcome {o s : Schema} {f : FieldDecl} {a b : Arena}
    (h : (field catalog below bindings o f).outcome a = (.ok s, b)) :
    FieldStep catalog below bindings o f a s b := by
  unfold field at h
  cases ha : f.isAbsent with
  | true =>
    rw [ha] at h
    cases h
    exact .absent ha
  | false =>
    rw [ha] at h
    cases hf : f.flattened with
    | false =>
      simp only [hf, Bool.false_eq_true, ↓reduceIte, property_eq] at h
      obtain ⟨described, c, hmember, h⟩ := ExceptT.outcome_bind_eq_ok h
      cases h
      exact .own ha hf hmember
    | true =>
      simp only [hf, Bool.false_eq_true, ↓reduceIte] at h
      cases hd : (catalog.get? (f.type.substitute bindings).name).bind (·.fields?) with
      | none =>
        rw [flatten_other hd] at h
        obtain ⟨part, c, hpart, h⟩ := ExceptT.outcome_bind_eq_ok h
        cases h
        exact .other ha hf hd hpart
      | some own =>
        obtain ⟨d, hd, hown⟩ := Option.bind_eq_some_iff.mp hd
        rw [flatten_struct hd hown] at h
        obtain ⟨inner, c, hinner, h⟩ := ExceptT.outcome_bind_eq_ok h
        cases h
        exact .struct ha hf hd hown hinner

/-- What a field comes to is added to the object that is there. -/
theorem field_extend (o inner : Schema) (f : FieldDecl) :
    field catalog below bindings (o.extend inner) f =
      field catalog below bindings inner f >>= fun s => pure (o.extend s) := by
  unfold field
  cases f.isAbsent with
  | true => rfl
  | false =>
    cases f.flattened with
    | true =>
      simp only [Bool.false_eq_true, ↓reduceIte]
      cases hd : (catalog.get? (f.type.substitute bindings).name).bind (·.fields?) with
      | none =>
        simp only [flatten_other hd, bind_assoc, pure_bind, Schema.extend_part]
      | some own =>
        obtain ⟨d, hd, hown⟩ := Option.bind_eq_some_iff.mp hd
        simp only [flatten_struct hd hown, bind_assoc, pure_bind, Schema.extend_absorb]
    | false =>
      simp only [Bool.false_eq_true, ↓reduceIte, property_eq, bind_assoc, pure_bind,
        extend_withProperty]

theorem field_adds {o s : Schema} {f : FieldDecl} {a b : Arena}
    (h : (field catalog below bindings o f).outcome a = (.ok s, b)) :
    s.allOf.length = o.allOf.length + if f.isDemanded catalog bindings then 1 else 0 := by
  unfold FieldDecl.isDemanded
  cases fieldStep_of_outcome h with
  | absent ha => simp [ha]
  | own ha hf _ =>
    unfold withProperty
    dsimp only
    split
    · simp [Schema.require_eq, hf]
    · simp [hf]
  | struct ha hf hd hown _ => simp [Schema.absorb, hd, hown]
  | other ha hf hd _ => simp [ha, hf, hd]

theorem fields_add {fields : List FieldDecl} {o s : Schema} {a b : Arena}
    (h : (fields.foldlM (field catalog below bindings) o).outcome a = (.ok s, b)) :
    s.allOf.length = o.allOf.length + fields.countP (·.isDemanded catalog bindings) := by
  induction fields generalizing o a with
  | nil =>
    cases h
    rfl
  | cons f fs ih =>
    rw [List.foldlM_cons] at h
    obtain ⟨o', c, hf, h⟩ := ExceptT.outcome_bind_eq_ok h
    rw [ih h, field_adds hf, List.countP_cons]
    omega

theorem fields_extend (o inner : Schema) (fields : List FieldDecl) :
    fields.foldlM (field catalog below bindings) (o.extend inner) =
      fields.foldlM (field catalog below bindings) inner >>= fun s => pure (o.extend s) := by
  induction fields generalizing inner with
  | nil => rfl
  | cons f fs ih =>
    rw [List.foldlM_cons, List.foldlM_cons, field_extend, bind_assoc, bind_assoc]
    refine bind_congr fun s => ?_
    rw [pure_bind, ih]

/-- The object of two lists of fields is made of the objects of the two. -/
theorem object_append (fields others : List FieldDecl) :
    object catalog below (fields ++ others) bindings =
      object catalog below fields bindings >>= fun s =>
        object catalog below others bindings >>= fun s' => pure (s.extend s') := by
  unfold object
  rw [List.foldlM_append]
  refine bind_congr fun s => ?_
  rw [← fields_extend, Schema.extend_blank]

theorem length_allOf_object {fields : List FieldDecl} {s : Schema} {a b : Arena}
    (h : (object catalog below fields bindings).outcome a = (.ok s, b)) :
    s.allOf.length = fields.countP (·.isDemanded catalog bindings) := by
  simpa [Schema.ofType] using fields_add h

/-! ### A flattened struct among other fields -/

def ComesTo (catalog : Catalog) (fields : List FieldDecl) (bindings : TypeExpr.Bindings)
    (a : Arena) (r : Except Failure Schema) (b : Arena) : Prop :=
  r ≠ .error .tooDeep ∧ ∃ n, ((level catalog n).fieldsOf fields bindings).outcome a = (r, b)

theorem ComesTo.deeper {fields : List FieldDecl} {a b : Arena} {r : Except Failure Schema} {n : Nat}
    (hr : r ≠ .error .tooDeep)
    (h : ((level catalog n).fieldsOf fields bindings).outcome a = (r, b)) :
    (object catalog (level catalog n) fields bindings).outcome a = (r, b) := by
  have hne : (((level catalog n).fieldsOf fields bindings).outcome a).1 ≠ .error .tooDeep := by
    rw [h]
    exact hr
  rw [← h]
  exact fieldsOf_deepens catalog n fields bindings a hne

def spliced (before after own : List FieldDecl) (bindings : TypeExpr.Bindings) (d : TypeDecl)
    (args : List TypeExpr) : List FieldDecl :=
  before.map (·.retyped (TypeExpr.substitute bindings)) ++
    own.map (·.retyped (TypeExpr.replace (d.argumentFor args))) ++
    after.map (·.retyped (TypeExpr.substitute bindings))

/-- The objects of the fields before, of the struct, which is left to a level of its own,
and of the fields after. -/
def joined (catalog : Catalog) (combine : Schema → Schema → Schema → Schema)
    (before after own : List FieldDecl) (bindings inner : TypeExpr.Bindings)
    (below within : Level) : Gen Schema := do
  let s ← object catalog below before bindings
  let i ← within.fieldsOf own inner
  let s' ← object catalog below after bindings
  pure (combine s i s')

def absorbing (s i s' : Schema) : Schema := (s.absorb i).extend s'

def extending (s i s' : Schema) : Schema := (s.extend i).extend s'

section Flattened

variable (before after own : List FieldDecl)

theorem object_flattened {f : FieldDecl} {d : TypeDecl} (ha : f.isAbsent = false)
    (hf : f.flattened = true) (hd : catalog.get? (f.type.substitute bindings).name = some d)
    (hown : d.fields? = some own) : object catalog below (before ++ f :: after) bindings =
      joined catalog absorbing before after own bindings
        (d.bindings (f.type.substitute bindings).args) below below := by
  have hsplit : before ++ f :: after = before ++ [f] ++ after := by simp
  have hfield : object catalog below (before ++ [f]) bindings =
      object catalog below before bindings >>= fun s =>
        flatten catalog below s (f.type.substitute bindings) := by
    simp [object, field, ha, hf]
  rw [hsplit, object_append, hfield]
  simp only [flatten_struct hd hown, bind_assoc, pure_bind]
  rfl

theorem object_spliced (n : Nat) (d : TypeDecl) (args : List TypeExpr) :
    object catalog (level catalog n) (spliced before after own bindings d args) {} =
      joined catalog extending before after own bindings (d.bindings args) (level catalog n)
        (level catalog (n + 1)) := by
  rw [spliced, object_append, object_append, TypeDecl.replace_argumentFor, object_retyped,
    object_retyped, object_retyped]
  simp only [bind_assoc, pure_bind]
  rfl

/-- What the struct demands stands behind what the fields before it demand. -/
theorem joined_lacking (n : Nat) (inner : TypeExpr.Bindings) :
    joined catalog absorbing before after own bindings inner (level catalog n)
        (level catalog (n + 1)) =
      joined catalog extending before after own bindings inner (level catalog n)
          (level catalog (n + 1)) >>= fun s =>
        pure (s.lacking (before.countP (·.isDemanded catalog bindings))
          (own.countP (·.isDemanded catalog inner))) := by
  simp only [joined, bind_assoc, pure_bind]
  refine ExceptT.bind_congr_ok fun a s b hs =>
    ExceptT.bind_congr_ok fun b i c hi => bind_congr fun s' => ?_
  rw [← length_allOf_object hs, ← length_allOf_object hi]
  simp [absorbing, extending, Schema.extend, Schema.absorb, Schema.lacking]

theorem joined_deepens (combine : Schema → Schema → Schema → Schema) (inner : TypeExpr.Bindings)
    {below' within within' : Level}
    (hb : deepening.rel (object catalog below before bindings)
      (object catalog below' before bindings))
    (hi : deepening.rel (within.fieldsOf own inner) (within'.fieldsOf own inner))
    (ha : deepening.rel (object catalog below after bindings)
      (object catalog below' after bindings)) :
    deepening.rel (joined catalog combine before after own bindings inner below within)
      (joined catalog combine before after own bindings inner below' within') :=
  deepening.bind hb fun _ => deepening.bind hi fun _ => deepening.bind ha fun _ =>
    deepening.pure _

end Flattened

/-- A flattened struct comes to the same as its own fields in its place, less what these
demand through `allOf`. -/
theorem flattened_as_spliced (catalog : Catalog) {bindings : TypeExpr.Bindings} {f : FieldDecl}
    {d : TypeDecl} {own : List FieldDecl} (hpresent : f.isAbsent = false)
    (hf : f.flattened = true) (hd : catalog.get? (f.type.substitute bindings).name = some d)
    (hown : d.fields? = some own) (before after : List FieldDecl) (a b : Arena)
    (r : Except Failure Schema) :
    ComesTo catalog (before ++ f :: after) bindings a r b ↔
      ∃ r', ComesTo catalog
          (spliced before after own bindings d (f.type.substitute bindings).args) {} a r' b ∧
        r = r'.map (Schema.lacking (before.countP (·.isDemanded catalog bindings))
          (own.countP (·.isDemanded catalog (d.bindings (f.type.substitute bindings).args)))) := by
  generalize hargs : (f.type.substitute bindings).args = args
  have hflat : ∀ n, object catalog (level catalog n) (before ++ f :: after) bindings =
      joined catalog absorbing before after own bindings (d.bindings args) (level catalog n)
        (level catalog n) := by
    intro n
    rw [← hargs]
    exact object_flattened before after own hpresent hf hd hown
  have hobject : ∀ n fields, deepening.rel (object catalog (level catalog n) fields bindings)
      (object catalog (level catalog (n + 1)) fields bindings) := fun n fields =>
    fieldsOf_deepens catalog (n + 1) fields bindings
  have hlacking : ∀ n, (joined catalog absorbing before after own bindings (d.bindings args)
      (level catalog n) (level catalog (n + 1))).outcome a = Prod.map (Except.map (Schema.lacking
        (before.countP (·.isDemanded catalog bindings))
        (own.countP (·.isDemanded catalog (d.bindings args))))) id
        ((object catalog (level catalog n) (spliced before after own bindings d args) {}).outcome
          a) := by
    intro n
    rw [joined_lacking, ExceptT.outcome_bind_pure, object_spliced]
  constructor
  · rintro ⟨hr, n, hn⟩
    have hjoined := ComesTo.deeper hr hn
    rw [hflat] at hjoined
    -- the struct is given the level that its fields have when they are spliced
    have hsame : ∀ fields, deepening.rel (object catalog (level catalog n) fields bindings)
        (object catalog (level catalog n) fields bindings) := fun _ _ _ => rfl
    have hmore := joined_deepens before after own absorbing (d.bindings args) (hsame before)
      (fieldsOf_deepens catalog n own _) (hsame after) a
      (by rw [hjoined]; exact hr)
    rw [hlacking, hjoined] at hmore
    cases hs : (object catalog (level catalog n) (spliced before after own bindings d args)
        {}).outcome a with
    | mk r' b' =>
      rw [hs] at hmore
      cases hmore
      exact ⟨r', ⟨fun he => hr (by rw [he]; rfl), n + 1, hs⟩, rfl⟩
  · rintro ⟨r', ⟨hr', n, hn⟩, rfl⟩
    have hspliced := ComesTo.deeper hr' hn
    have hjoined := hlacking n
    rw [hspliced] at hjoined
    have hmore := joined_deepens before after own absorbing (d.bindings args)
      (hobject n before) (fun _ _ => rfl) (hobject n after) a
      (by rw [hjoined]; exact map_ne_error hr')
    -- one level more, for the flattened struct takes one for itself
    rw [← hflat (n + 1), hjoined] at hmore
    exact ⟨map_ne_error hr', n + 2, hmore⟩

section Witness

def kindField : FieldDecl := { name := "kind", type := ⟨"Kind", []⟩, flattened := true }

def labelFields : List FieldDecl := [{ name := "id", type := ⟨"T", []⟩ }, kindField]

def labelDecl : TypeDecl := { name := "Label", generics := ["T"], shape := .struct labelFields }

def labelCatalog : Catalog := Catalog.ofList [
  labelDecl,
  { name := "Kind"
    shape := .enum [
      { name := "A", payload := .struct [{ name := "x", type := ⟨"u8", []⟩ }] }, { name := "B" }] },
  { name := "Mode", shape := .enum [{ name := "On" }, { name := "Off" }] }]

def modeField : FieldDecl := { name := "mode", type := ⟨"Mode", []⟩, flattened := true }
def labelField : FieldDecl :=
  { name := "label", type := ⟨"Label", [⟨"u64", []⟩]⟩, flattened := true }
def noteField : FieldDecl := { name := "note", type := ⟨"String", []⟩ }

def labelOutcome : Except Failure Schema × Arena :=
  ((level labelCatalog 9).fieldsOf [modeField, labelField, noteField] {}).outcome {}

theorem flattened_as_spliced_label :
    labelField.isAbsent = false ∧ labelField.flattened = true ∧
    labelCatalog.get? (labelField.type.substitute {}).name = some labelDecl ∧
    labelDecl.fields? = some labelFields ∧
    (ComesTo labelCatalog ([modeField] ++ labelField :: [noteField]) {} {} labelOutcome.1
        labelOutcome.2 ↔
      ∃ r', ComesTo labelCatalog
          (spliced [modeField] [noteField] labelFields {} labelDecl
            (labelField.type.substitute {}).args) {} {} r' labelOutcome.2 ∧
        labelOutcome.1 = r'.map (Schema.lacking
          ([modeField].countP (·.isDemanded labelCatalog {}))
          (labelFields.countP (·.isDemanded labelCatalog
            (labelDecl.bindings (labelField.type.substitute {}).args))))) :=
  ⟨rfl, rfl, rfl, rfl,
    flattened_as_spliced labelCatalog rfl rfl rfl rfl [modeField] [noteField] {} labelOutcome.2
      labelOutcome.1⟩

end Witness

section Counterexample

/-- The kind that a label demands is lost when the label is flattened. -/
theorem flattened_demand_lost :
    (((level labelCatalog 9).fieldsOf [labelField] {}).outcome {}).1.map (·.allOf) = .ok [] ∧
    (((level labelCatalog 9).fieldsOf (spliced [] [] labelFields {} labelDecl [⟨"u64", []⟩])
      {}).outcome {}).1.map (·.allOf) = .ok [.refTo "Kind"] :=
  ⟨rfl, rfl⟩

end Counterexample

end Inference

end ApiDoc
