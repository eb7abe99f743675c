import ApiDoc.Proofs.Document.References
import ApiDoc.Proofs.Inference.Outcome

/-!
# References of inferred schemas

A reference is handed out before its component has any content, so what can be
said of a schema depends on names that the arena has by then. Here the names are
those of the arena at the end: whatever is inferred on the way, and whatever is
stored, refers to one of them.
-/

set_option autoImplicit false

namespace ApiDoc.Inference

variable {names : List String} {α β : Type}

/-! ### Schemas made of others -/

section Known

variable {known : String → Prop} {o s : Schema}

theorem within_scalar {t : TypeExpr} (h : scalar? t = some s) : Within known s.references := by
  obtain ⟨_, _, rfl⟩ := scalar?_eq_some h
  exact within_nil

theorem within_put (ho : Within known o.references) (name : String)
    (hs : Within known s.references) :
    Within known { o with properties := o.properties.put name s }.references :=
  Schema.within_properties ho ((Schema.within_iff.mp ho).properties.put name hs)

theorem within_absorb (ho : Within known o.references) (hs : Within known s.references) :
    Within known { s.keywords.required.foldl Schema.require o with
      properties := (s.keywords.required.foldl Schema.require o).properties.putAll
        s.properties.entries }.references := by
  have hrun : ∀ (required : List String) (u : Schema), Within known u.references →
      Within known (required.foldl Schema.require u).references := by
    intro required
    induction required with
    | nil => exact fun u hu => hu
    | cons name required ih => exact fun u hu => ih _ (Schema.within_require hu name)
  have hr := hrun s.keywords.required o ho
  exact Schema.within_properties hr
    ((Schema.within_iff.mp hr).properties.putAll (Schema.within_iff.mp hs).properties)

end Known

def resolving (known : String → Prop) : Terms where
  schema s := Within known s.references
  failure _ := True
  declaration _ := True
  blank := Schema.within_blank
  scalar _ _ := within_scalar
  nullable _ _ h := Schema.within_keywords (within_scalar h) _
  ofType := Schema.within_ofType
  ofFormat _ _ := within_nil
  words _ := within_nil
  mapOf s h := Schema.within_iff.mpr { Schema.within_iff.mp (Schema.within_ofType .object) with
    additional := fun c hc => by cases hc; exact h }
  arrayOf _ h := Schema.within_arrayOf h
  unique _ h := Schema.within_keywords (Schema.within_arrayOf h) _
  oneOf ss h := Schema.within_iff.mpr { Schema.within_iff.mp Schema.within_blank with oneOf := h }
  tagged name s h :=
    within_put (Schema.within_require (Schema.within_ofType .object) name) name h
  property o name s ho _ hs := within_put ho name hs
  required o name s ho _ hs := within_put (Schema.within_require ho name) name hs
  part o s ho _ hs := Schema.within_iff.mpr { Schema.within_iff.mp ho with
    allOf := List.forall_mem_append.mpr
      ⟨(Schema.within_iff.mp ho).allOf, List.forall_mem_singleton.mpr hs⟩ }
  absorb o i ho _ hi := within_absorb ho hi
  declare s n hint k d ones anys alls negated hs _ h₁ h₂ h₃ h₄ := Schema.within_declare hs
    (Schema.within_iff.mpr { Schema.within_iff.mp Schema.within_blank with
      oneOf := h₁, anyOf := h₂, allOf := h₃, negated := h₄ })
  deprecated d s _ _ hs _ := Schema.within_keywords hs _

/-! ### Names at the end -/

abbrev Resolves (names : List String) (s : Schema) : Prop := Within (PointsTo names) s.references

def Arena.Resolved (names : List String) (a : Arena) : Prop :=
  ∀ c ∈ a.components, Within (PointsTo names) c.schema.references

/-- What holds of the answer when all components at the end have one of the names. -/
structure Gives (names : List String) (Q : α → Prop) (g : Gen α) : Prop where
  steps : stepping.rel g g
  result : ∀ a x b, a.Sound → g.outcome a = (.ok x, b) → b.names ⊆ names → a.Resolved names →
    b.Resolved names ∧ Q x

theorem Gives.bind {Q : α → Prop} {R : β → Prop} {g : Gen α} {k : α → Gen β}
    (hg : Gives names Q g) (hk : ∀ x, Gives names (fun y => Q x → R y) (k x)) :
    Gives names R (g >>= k) where
  steps := stepping.bind hg.steps fun x => (hk x).steps
  result := fun a y b hs ho hb ha => by
    obtain ⟨x, e, h₁, h₂⟩ := ExceptT.outcome_bind_eq_ok ho
    have hae := steps_of_outcome hg.steps hs h₁
    have heb := steps_of_outcome (hk x).steps hae.2 h₂
    have he : e.names ⊆ names := fun name hn => hb (heb.1.names_subset hn)
    obtain ⟨her, hx⟩ := hg.result a x e hs h₁ he ha
    obtain ⟨hbr, hy⟩ := (hk x).result e y b hae.2 h₂ hb her
    exact ⟨hbr, hy hx⟩

abbrev giving (names : List String) : Logic (resolving (PointsTo names)) where
  rel Q g _ := Gives names Q g
  pure h := ⟨stepping.pure _, fun a y b _ ho _ ha => by cases ho; exact ⟨ha, h⟩⟩
  fail _ := ⟨stepping.fail _, fun a y b _ ho => by cases ho⟩
  bind := Gives.bind
  mono hg h :=
    ⟨hg.steps, fun a x b hs ho hb ha => (hg.result a x b hs ho hb ha).imp_right (h x)⟩

/-! ### Components -/

theorem resolved_allot {a : Arena} (ha : a.Resolved names) (key base : String) :
    (a.allot key base).2.Resolved names := by
  intro c hc
  rcases List.mem_append.mp hc with hc | hc
  · exact ha c hc
  · rw [List.mem_singleton.mp hc]
    exact Schema.within_blank

theorem resolved_fill {a : Arena} (ha : a.Resolved names) (place : Nat) {s : Schema}
    (hs : Resolves names s) : (a.fill place s).Resolved names := by
  intro c hc
  rcases Arena.mem_components_fill hc with hc | hc
  · exact ha c hc
  · rw [hc]
    exact hs

theorem resolves_refTo {name : String} (h : name ∈ names) : Resolves names (Schema.refTo name) := by
  refine Schema.within_iff.mpr { Schema.within_iff.mp Schema.within_blank with reference := ?_ }
  intro r hr
  exact ⟨name, h, (Option.some.inj hr).symm⟩

theorem gives_component {below : Level} {d : TypeDecl} {t : TypeExpr}
    (h : Gives names (Resolves names) (content below d t.args)) :
    Gives names (Resolves names) (component below d t) where
  steps := component_steps d t h.steps
  result := fun a s b hs ho hb ha => by
    rcases component_eq_ok ho with ⟨c, hc, rfl, rfl⟩ | ⟨hnone, inner, b', hin, rfl, rfl⟩
    · exact ⟨ha, resolves_refTo (hb (Arena.name_mem_of_find? hc))⟩
    · rw [Arena.names_fill] at hb
      have hopen := (steps_allot hs hnone (wantedName d t)).2
      have hgrow := (steps_of_outcome h.steps hopen hin).1
      have hname := hgrow.names_subset
        (Arena.name_mem_of_find? (a.find?_allot_self t.text (wantedName d t)))
      obtain ⟨hb', hinner⟩ := h.result _ inner b' hopen hin hb (resolved_allot ha _ _)
      exact ⟨resolved_fill hb' a.size hinner, resolves_refTo (hb hname)⟩

theorem admitsNote_of_unreferenced {T : Terms} {n : SchemaNote} (h : n.reference = none) :
    T.AdmitsNote n := by
  intro r hr
  rw [h] at hr
  cases hr

theorem level_resolves {catalog : Catalog} (hc : Unreferenced (Catalog.schemaNotes catalog))
    (depth : Nat) :
    (giving names).Linked (fun _ => True) (level catalog depth) (level catalog depth) :=
  Logic.level_linked (fun _ _ _ _ => trivial)
    (fun _ _ hd => ⟨trivial, fun n hn =>
      admitsNote_of_unreferenced (hc n (Catalog.mem_schemaNotes_of_get? hd hn))⟩)
    trivial (fun _ _ _ _ _ h => gives_component h) depth

end ApiDoc.Inference
