import ApiDoc.Proofs.Inference.Link
import ApiDoc.Proofs.TypeText

/-!
# Catalogs over well-named types

When every type that declarations write is well named, so is every type that
description comes to: substitution only puts arguments for parameters.
-/

set_option autoImplicit false

namespace ApiDoc

namespace FieldDecl

def written (f : FieldDecl) : List TypeExpr := f.type :: noteTypes f.schema

end FieldDecl

namespace TypeDecl

def writtenInVariant (v : VariantDecl) : List TypeExpr :=
  match v.payload with
  | .unit => []
  | .newtype inner => [inner]
  | .struct fields => fields.flatMap (·.written)
  | .tuple members => members

def writtenInShape : TypeShape → List TypeExpr
  | .struct fields => fields.flatMap (·.written)
  | .enum variants => variants.flatMap writtenInVariant
  | .newtype inner => [inner]

def written (d : TypeDecl) : List TypeExpr := writtenInShape d.shape ++ noteTypes d.schema

end TypeDecl

def Catalog.wellNamed (catalog : Catalog) : Bool :=
  catalog.entries.all fun row => row.2.written.all (·.wellNamed)

namespace TypeExpr

def Bindings.wellNamed (bindings : Bindings) : Prop :=
  ∀ name t, bindings.get? name = some t → t.wellNamed = true

theorem wellNamedList_iff (ts : List TypeExpr) :
    wellNamedList ts = true ↔ ∀ t ∈ ts, t.wellNamed = true := by
  induction ts with
  | nil => simp [wellNamedList]
  | cons t ts ih => simp [wellNamedList, ih]

theorem wellNamed_args {t : TypeExpr} (h : t.wellNamed = true) :
    ∀ u ∈ t.args, u.wellNamed = true := by
  obtain ⟨name, args⟩ := t
  simp only [wellNamed, Bool.and_eq_true] at h
  exact (wellNamedList_iff args).mp h.2

theorem length_substituteList (bindings : Bindings) (ts : List TypeExpr) :
    (substituteList bindings ts).length = ts.length := by
  induction ts with
  | nil => rfl
  | cons t ts ih => simp [substituteList, ih]

mutual
theorem wellNamed_substitute {bindings : Bindings} (hb : bindings.wellNamed) : ∀ (t : TypeExpr),
    t.wellNamed = true → (t.substitute bindings).wellNamed = true
  | ⟨name, []⟩, h => by
    cases hn : bindings.get? name with
    | none => simpa [substitute, hn] using h
    | some u => simpa [substitute, hn] using hb name u hn
  | ⟨name, arg :: args⟩, h => by
    simp only [wellNamed, wellNamedList, Bool.and_eq_true] at h
    have ha := wellNamed_substitute hb arg h.2.1
    have hs := wellNamed_substituteList hb args h.2.2
    simpa [substitute, wellNamed, wellNamedList, ha, hs, length_substituteList] using h.1
theorem wellNamed_substituteList {bindings : Bindings} (hb : bindings.wellNamed) :
    ∀ (ts : List TypeExpr), wellNamedList ts = true →
      wellNamedList (substituteList bindings ts) = true
  | [], _ => rfl
  | t :: ts, h => by
    simp only [wellNamedList, Bool.and_eq_true] at h
    have ht := wellNamed_substitute hb t h.1
    have hs := wellNamed_substituteList hb ts h.2
    simp [substituteList, wellNamedList, ht, hs]
end

end TypeExpr

theorem TypeDecl.wellNamed_bindings (d : TypeDecl) {args : List TypeExpr}
    (h : ∀ t ∈ args, t.wellNamed = true) : (d.bindings args).wellNamed := by
  intro name t ht
  rcases Ordered.mem_of_get?_putAll {} (d.generics.zip args) ht with hm | hr
  · simp [Ordered.get?] at hm
  · exact h t (List.of_mem_zip hr).2

section

variable {bindings : TypeExpr.Bindings} (hb : bindings.wellNamed)

include hb

theorem FieldDecl.wellNamed_types {fields : List FieldDecl}
    (h : ∀ t ∈ fields.flatMap (·.written), t.wellNamed = true) :
    ∀ u ∈ fields.flatMap (·.types bindings), u.wellNamed = true := by
  intro u hu
  obtain ⟨f, hf, hu⟩ := List.mem_flatMap.mp hu
  have hw : ∀ t ∈ f.written, t.wellNamed = true := fun t ht =>
    h t (List.mem_flatMap.mpr ⟨f, hf, ht⟩)
  unfold FieldDecl.types at hu
  split at hu
  · cases hu
  · rcases List.mem_cons.mp hu with rfl | hu
    · exact TypeExpr.wellNamed_substitute hb f.type (hw _ List.mem_cons_self)
    · exact hw u (List.mem_cons_of_mem _ hu)

theorem VariantDecl.wellNamed_types {v : VariantDecl}
    (h : ∀ t ∈ TypeDecl.writtenInVariant v, t.wellNamed = true) :
    ∀ u ∈ v.types bindings, u.wellNamed = true := by
  unfold TypeDecl.writtenInVariant at h
  unfold VariantDecl.types
  cases hp : v.payload with
  | unit => simp
  | tuple members => simp
  | newtype inner =>
    rw [hp] at h
    simpa using TypeExpr.wellNamed_substitute hb inner (h inner List.mem_cons_self)
  | struct fields =>
    rw [hp] at h
    exact FieldDecl.wellNamed_types hb h

theorem TypeShape.wellNamed_types {s : TypeShape}
    (h : ∀ t ∈ TypeDecl.writtenInShape s, t.wellNamed = true) :
    ∀ u ∈ s.types bindings, u.wellNamed = true := by
  cases s with
  | struct fields => exact FieldDecl.wellNamed_types hb h
  | newtype inner =>
    intro u hu
    rw [List.mem_singleton.mp hu]
    exact TypeExpr.wellNamed_substitute hb inner (h inner List.mem_cons_self)
  | enum variants =>
    intro u hu
    obtain ⟨v, hv, hu⟩ := List.mem_flatMap.mp hu
    exact VariantDecl.wellNamed_types hb (fun t ht => h t (List.mem_flatMap.mpr ⟨v, hv, ht⟩)) u hu

end

theorem Catalog.closed_wellNamed {catalog : Catalog} (h : catalog.wellNamed = true) :
    catalog.Closed fun t => t.wellNamed = true where
  args := fun t ht => TypeExpr.wellNamed_args ht
  declared := fun t d ht hd u hu => by
    have hw : ∀ v ∈ d.written, v.wellNamed = true := by
      have hall := List.all_eq_true.mp h _ (catalog.mem_of_get? hd)
      exact List.all_eq_true.mp hall
    rcases List.mem_append.mp hu with hu | hu
    · exact TypeShape.wellNamed_types (d.wellNamed_bindings (TypeExpr.wellNamed_args ht))
        (fun v hv => hw v (List.mem_append_left _ hv)) u hu
    · exact hw u (List.mem_append_right _ hu)

end ApiDoc
