import ApiDoc.Proofs.Inference.Logic

/-!
# From level to level

A level asks the level below for what a demand leads to. So what a logic says of the levels
passes from one to the next where a set of demands is closed under what they lead to, once
it holds of opening components. A relation between computations alone, without terms for
the answers, is the logic of a link.
-/

set_option autoImplicit false

namespace ApiDoc.Inference

namespace Logic

variable {T : Terms}

/-- Two levels that are related wherever the demands of a set are asked. -/
structure Linked (L : Logic T) (S : Demand → Prop) (l l' : Level) : Prop where
  schemaOf : ∀ t, S (.schema t) → L.rel (T.Describes t) (l.schemaOf t) (l'.schemaOf t)
  fieldsOf : ∀ fields bindings, (∀ f ∈ fields, T.Ready S bindings f) →
    L.rel T.Object (l.fieldsOf fields bindings) (l'.fieldsOf fields bindings)

section Levels

variable {L : Logic T} {catalog catalog' : Catalog} {S : Demand → Prop}
  {below below' : Level}
variable (hl : L.Linked S below below')

include hl

theorem Linked.content {d : TypeDecl} (hd : T.Admits d) {args : List TypeExpr}
    (h : ∀ x ∈ d.demands args, S x) :
    L.rel T.schema (Inference.content below d args) (Inference.content below' d args) :=
  Logic.content hl.schemaOf hd <| alike_self (fun t ht => h (.schema t) ht) fun _ hf =>
    hl.fieldsOf _ _ (hd.ready h hf)

variable (hS : ∀ x, S x → ∀ y ∈ catalog.demands x, S y)

include hS

/-- From one level to the next only what is looked up is left to show: components that are
opened, and structs that are flattened. -/
theorem Linked.over
    (hopen : ∀ t, S (.schema t) → (Demand.schema t).opens = true →
      Option.Rel (fun d d' => L.rel T.schema (component below d t) (component below' d' t))
        (catalog.get? t.name) (catalog'.get? t.name))
    (hsplice : ∀ t, S (.flattened t) →
      Option.Rel (L.rel T.Object) (splice? catalog below t) (splice? catalog' below' t)) :
    L.Linked S ⟨Inference.describe catalog below, Inference.object catalog below⟩
      ⟨Inference.describe catalog' below', Inference.object catalog' below'⟩ where
  schemaOf t ht := by
    refine Logic.describe hl.schemaOf (fun _ u hu => hS _ ht (.schema u) hu) fun hs hh => ?_
    exact hopen t ht (by simp [Demand.opens, hs, hh])
  fieldsOf _ _ h := by
    refine object ⟨hl.schemaOf, hsplice, fun t ht hnone => ?_⟩ h
    have hother : ∀ d, catalog.get? t.name = some d → d.fields? = none := fun d hd => by
      simpa [splice?, hd] using hnone
    have hdemands := hS _ ht
    rw [Catalog.demands, Catalog.flattenedDemands_other hother] at hdemands
    exact hdemands _ List.mem_cons_self

variable (hT : ∀ name d, catalog.get? name = some d → T.Admits d)

include hT

theorem Linked.opened {t : TypeExpr} (ht : S (.schema t)) (ho : (Demand.schema t).opens = true)
    {d : TypeDecl} (hd : catalog.get? t.name = some d) :
    L.rel T.schema (Inference.content below d t.args) (Inference.content below' d t.args) := by
  have hdemands := hS _ ht
  simp only [Demand.opens, Bool.and_eq_true, Option.isNone_iff_eq_none, decide_eq_true_eq] at ho
  rw [Catalog.demands, Catalog.schemaDemands_named ho.1 ho.2 hd] at hdemands
  exact hl.content (hT _ d hd) hdemands

theorem Linked.spliced {t : TypeExpr} (ht : S (.flattened t)) :
    Option.Rel (L.rel T.Object) (splice? catalog below t) (splice? catalog below' t) := by
  refine splices fun d fields hd hf => hl.fieldsOf fields _ fun f hm => ?_
  have hdemands := hS _ ht
  rw [Catalog.demands, Catalog.flattenedDemands_struct hd hf] at hdemands
  have hlist := TypeDecl.mem_fieldLists_of_fields? hf
  exact ⟨fun x hx => hdemands x (List.mem_flatMap.mpr ⟨f, hm, hx⟩), fun n hn =>
    (hT _ d hd).notes n (TypeDecl.schemaNotes_of_fieldLists hlist hm n hn)⟩

/-- Under one catalog only opening components is left to show. -/
theorem Linked.next
    (hopen : ∀ t d, S (.schema t) → catalog.get? t.name = some d →
      L.rel T.schema (Inference.content below d t.args) (Inference.content below' d t.args) →
      L.rel T.schema (component below d t) (component below' d t)) :
    L.Linked S ⟨Inference.describe catalog below, Inference.object catalog below⟩
      ⟨Inference.describe catalog below', Inference.object catalog below'⟩ := by
  refine hl.over hS (fun t ht ho => ?_) fun t ht => hl.spliced hS hT ht
  cases hd : catalog.get? t.name with
  | none => exact .none
  | some d => exact .some (hopen t d ht hd (hl.opened hS hT ht ho hd))

omit hl in
/-- A logic that allows running out of levels relates each level to itself. -/
theorem level_linked (hdeep : T.failure .tooDeep)
    (hopen : ∀ n t d, S (.schema t) → catalog.get? t.name = some d →
      L.rel T.schema (Inference.content (level catalog n) d t.args)
        (Inference.content (level catalog n) d t.args) →
      L.rel T.schema (component (level catalog n) d t) (component (level catalog n) d t))
    (depth : Nat) : L.Linked S (level catalog depth) (level catalog depth) := by
  induction depth with
  | zero => exact ⟨fun _ _ => L.fail hdeep, fun _ _ _ => L.fail hdeep⟩
  | succ n ih => exact ih.next hS hT (hopen n)

end Levels

end Logic

/-! ### Relations alone -/

/-- A relation between computations that respects how they are put together. -/
structure Link where
  rel : ∀ {α : Type}, Gen α → Gen α → Prop
  pure : ∀ {α : Type} (x : α), rel (Pure.pure x) (Pure.pure x)
  fail : ∀ {α : Type} (f : Failure), rel (Gen.fail f : Gen α) (Gen.fail f)
  bind : ∀ {α β : Type} {g g' : Gen α} {k k' : α → Gen β},
    rel g g' → (∀ x, rel (k x) (k' x)) → rel (g >>= k) (g' >>= k')

/-- It says nothing of the answers, whatever terms there are. -/
abbrev Link.over (L : Link) (T : Terms) : Logic T where
  rel _ g g' := L.rel g g'
  pure _ := L.pure _
  fail _ := L.fail _
  bind := L.bind
  mono h _ := h

abbrev Link.logic (L : Link) : Logic Terms.any := L.over .any

def equating : Link where
  rel g g' := g = g'
  pure _ := rfl
  fail _ := rfl
  bind hg hk := by rw [hg, funext hk]

theorem component_eq_of_content {below below' : Level} {d d' : TypeDecl} {t : TypeExpr}
    (hn : d.componentName = d'.componentName)
    (h : content below d t.args = content below' d' t.args) :
    component below d t = component below' d' t := by
  unfold component
  rw [h, hn]

theorem Link.level_linked (L : Link) {catalog : Catalog} {S : Demand → Prop}
    (hS : ∀ x, S x → ∀ y ∈ catalog.demands x, S y)
    (hopen : ∀ n t d, S (.schema t) → catalog.get? t.name = some d →
      L.rel (Inference.content (level catalog n) d t.args)
        (Inference.content (level catalog n) d t.args) →
      L.rel (component (level catalog n) d t) (component (level catalog n) d t))
    (depth : Nat) : L.logic.Linked S (level catalog depth) (level catalog depth) :=
  Logic.level_linked hS (fun _ d _ => Terms.admits_any d) trivial hopen depth

end ApiDoc.Inference
