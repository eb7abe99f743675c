import ApiDoc.Proofs.Inference.Demands
import ApiDoc.Proofs.Inference.Instances
import ApiDoc.Proofs.Outcome

/-!
# Generic types and types written out by hand

In the place of a generic declaration there may be the instance that one use of it
needs, with the arguments written out. That use is described as before, and the same
components are opened for it, provided that nothing it leads to looks at the
declaration with other arguments.
-/

set_option autoImplicit false

namespace ApiDoc.Inference

variable {catalog : Catalog} {d : TypeDecl} {t u : TypeExpr}

/-- The instance is found only where the use is described that it was made for. -/
theorem get?_instance (h : u.name = t.name → u = t) (hd : catalog.get? t.name = some d) :
    u = t ∧ (catalog.put t.name (d.instantiated t.args)).get? u.name =
        some (d.instantiated t.args) ∧ catalog.get? u.name = some d ∨
      (catalog.put t.name (d.instantiated t.args)).get? u.name = catalog.get? u.name := by
  by_cases hn : u.name = t.name
  · obtain rfl := h hn
    exact Or.inl ⟨rfl, Ordered.get?_put_self _ _ _, hd⟩
  · exact Or.inr (Ordered.get?_put_ne _ hn _)

theorem splice?_instance {below : Level} (hb : below.Instantiates)
    (h : u.name = t.name → u = t) (hd : catalog.get? t.name = some d) :
    splice? (catalog.put t.name (d.instantiated t.args)) below u = splice? catalog below u := by
  unfold splice?
  rcases get?_instance h hd with ⟨rfl, hput, hd⟩ | hsame
  · rw [hput, hd]
    simp only [Option.bind_some, TypeDecl.fields?_instantiated, TypeDecl.bindings_instantiated]
    cases d.fields? with
    | none => rfl
    | some fields => exact congrArg some (hb fields _)
  · rw [hsame]

/-- Where a declaration is used with one list of arguments only, its instance may stand in
its place. -/
theorem level_instance {S : Demand → Prop} (hc : ∀ x, S x → ∀ y ∈ catalog.demands x, S y)
    (hd : catalog.get? t.name = some d)
    (hself : ∀ x, S x → x.opens = true → x.type.name = t.name → x.type = t) (n : Nat) :
    equating.logic.Linked S (level catalog n)
      (level (catalog.put t.name (d.instantiated t.args)) n) := by
  induction n with
  | zero => exact ⟨fun _ _ => rfl, fun _ _ _ => rfl⟩
  | succ n ih =>
    have hb := instantiates_level (catalog.put t.name (d.instantiated t.args)) n
    have hany : ∀ name e, catalog.get? name = some e → Terms.any.Admits e := fun _ e _ =>
      Terms.admits_any e
    refine ih.over hc (fun u hu ho => ?_) fun u hu => ?_
    · have honly : u.name = t.name → u = t := hself (.schema u) hu ho
      rcases get?_instance honly hd with ⟨rfl, hput, hd⟩ | hsame
      · rw [hput, hd]
        refine .some (component_eq_of_content rfl ?_)
        exact (ih.opened hc hany hu ho hd).trans (content_instantiated hb d u.args u.args)
      · rw [hsame]
        cases he : catalog.get? u.name with
        | none => exact .none
        | some e => exact .some (component_eq_of_content rfl (ih.opened hc hany hu ho he))
    · have honly : u.name = t.name → u = t := hself (.flattened u) hu rfl
      rw [splice?_instance hb honly hd]
      exact ih.spliced hc hany hu

/-- A generic type is described as if its declaration had no parameters and named the
arguments instead, when it leads to its declaration with these arguments only. -/
theorem instance_described_alike (catalog : Catalog) {t : TypeExpr} {d : TypeDecl}
    (hd : catalog.get? t.name = some d)
    (hself : ∀ x, catalog.LeadsTo (.schema t) x → x.opens = true → x.type.name = t.name →
      x.type = t) (depth : Nat) (a : Arena) :
    (schemaOf (catalog.put t.name (d.instantiated t.args)) depth t).outcome a =
      (schemaOf catalog depth t).outcome a := by
  have hc : ∀ x, catalog.LeadsTo (.schema t) x → ∀ y ∈ catalog.demands x,
      catalog.LeadsTo (.schema t) y := fun _ hx _ hy => hx.tail hy
  have hagree := level_instance hc hd hself depth
  exact congrArg (ExceptT.outcome · a) (hagree.schemaOf t .refl).symm

section Witness

def envelopeOf (t : TypeExpr) : TypeExpr := ⟨"Envelope", [t]⟩
def letterType : TypeExpr := ⟨"Letter", []⟩

def envelopeDecl : TypeDecl :=
  { name := "Envelope", generics := ["T"]
    shape := .struct [
      { name := "stamp", type := ⟨"Stamp", [⟨"T", []⟩]⟩, flattened := true },
      { name := "body", type := ⟨"Body", [⟨"T", []⟩]⟩ },
      { name := "inside", type := ⟨"Option", [⟨"Box", [⟨"Envelope", [⟨"T", []⟩]⟩]⟩]⟩ }] }

def postCatalog : Catalog := Catalog.ofList [
  envelopeDecl,
  { name := "Stamp", generics := ["K"]
    shape := .struct [{ name := "key", type := ⟨"K", []⟩ }] },
  { name := "Body", generics := ["E"]
    shape := .enum [
      { name := "One", payload := .newtype ⟨"E", []⟩ },
      { name := "Many", payload := .struct [{ name := "items", type := ⟨"Vec", [⟨"E", []⟩]⟩ }] },
      { name := "Nothing" }] },
  { name := "Letter", shape := .struct [{ name := "page", type := ⟨"u8", []⟩ }] }]

def envelopeDemands : List Demand := [
  .schema (envelopeOf letterType), .flattened ⟨"Stamp", [letterType]⟩,
  .schema ⟨"Body", [letterType]⟩, .schema ⟨"Option", [⟨"Box", [envelopeOf letterType]⟩]⟩,
  .schema ⟨"Box", [envelopeOf letterType]⟩, .schema ⟨"Vec", [letterType]⟩, .schema letterType,
  .schema ⟨"u8", []⟩]

theorem mem_envelopeDemands {x : Demand}
    (h : postCatalog.LeadsTo (.schema (envelopeOf letterType)) x) : x ∈ envelopeDemands := by
  induction h with
  | refl => exact List.mem_cons_self
  | @tail x y _ hy ih =>
    have hnext : envelopeDemands.flatMap postCatalog.demands = [
        .flattened ⟨"Stamp", [letterType]⟩, .schema ⟨"Body", [letterType]⟩,
        .schema ⟨"Option", [⟨"Box", [envelopeOf letterType]⟩]⟩, .schema letterType,
        .schema letterType, .schema ⟨"Vec", [letterType]⟩,
        .schema ⟨"Box", [envelopeOf letterType]⟩, .schema (envelopeOf letterType),
        .schema letterType, .schema ⟨"u8", []⟩] := rfl
    have hmem : y ∈ envelopeDemands.flatMap postCatalog.demands :=
      List.mem_flatMap.mpr ⟨x, ih, hy⟩
    simp only [hnext, List.mem_cons, List.not_mem_nil, or_false] at hmem
    rcases hmem with rfl | rfl | rfl | rfl | rfl | rfl | rfl | rfl | rfl | rfl
    all_goals simp [envelopeDemands]

theorem instance_described_alike_envelope :
    postCatalog.get? "Envelope" = some envelopeDecl ∧
    (∀ x, postCatalog.LeadsTo (.schema (envelopeOf letterType)) x → x.opens = true →
      x.type.name = "Envelope" → x.type = envelopeOf letterType) ∧
    (schemaOf (postCatalog.put "Envelope" (envelopeDecl.instantiated [letterType])) 9
        (envelopeOf letterType)).outcome {} =
      (schemaOf postCatalog 9 (envelopeOf letterType)).outcome {} :=
  have hself : ∀ x, postCatalog.LeadsTo (.schema (envelopeOf letterType)) x → x.opens = true →
      x.type.name = "Envelope" → x.type = envelopeOf letterType := by
    intro x hx _ hname
    have hmem := mem_envelopeDemands hx
    simp only [envelopeDemands, List.mem_cons, List.not_mem_nil, or_false] at hmem
    rcases hmem with rfl | rfl | rfl | rfl | rfl | rfl | rfl | rfl
    case inl => rfl
    all_goals exact absurd hname (by decide)
  ⟨rfl, hself, instance_described_alike postCatalog (t := envelopeOf letterType) rfl hself 9 {}⟩

end Witness

end ApiDoc.Inference
