import Mathlib.Data.Set.Finite.Lemmas
import ApiDoc.Proofs.Inference.Depth

/-!
# Inference terminates

Within a finite set of types that is closed under what its members lead to, and
in which no struct is flattened into itself, there is a depth that every
description gets along with, whatever was described before.
-/

set_option autoImplicit false

namespace ApiDoc

namespace TypeExpr

theorem height_le_heightList {ts : List TypeExpr} {t : TypeExpr} (h : t ∈ ts) :
    t.height ≤ heightList ts := by
  induction ts with
  | nil => cases h
  | cons u us ih =>
    rw [heightList]
    rcases List.mem_cons.mp h with rfl | h
    · exact Nat.le_max_left _ _
    · exact (ih h).trans (Nat.le_max_right _ _)

theorem height_lt {t u : TypeExpr} (h : u ∈ t.args) : u.height < t.height := by
  obtain ⟨name, args⟩ := t
  exact Nat.lt_succ_of_le (height_le_heightList h)

end TypeExpr

namespace Inference

variable (catalog : Catalog) (S : Set TypeExpr)

def ending : Terms where
  schema _ := True
  failure f := f ≠ .tooDeep
  declaration _ := True
  notASchema _ h := by cases h
  typeHint s n f h e := typeHint_ne_tooDeep s n (e ▸ h)
  keywords n hint f h e := keywords_ne_tooDeep n hint (e ▸ h)

theorem admits_ending (d : TypeDecl) : ending.Admits d := ⟨trivial, fun _ _ _ _ => trivial⟩

abbrev finishing (start : Arena) (left : Nat) : Logic ending :=
  ending.keeping (Reaches catalog S start left)

def Ranked (rank : Nat) : Demand → Prop
  | .schema t => t ∈ S
  | .flattened t => t ∈ S ∧ flattenRank catalog t < rank

variable {catalog S}

/-! ### One component less -/

section Component

variable {start : Arena} {left : Nat} {below : Level} {d : TypeDecl} {t : TypeExpr}

theorem component_finishes (hfin : S.Finite) (ht : t ∈ declaredIn catalog S)
    (h : ∀ fewer, left = fewer + 1 → (finishing catalog S start fewer).rel ending.schema
      (content below d t.args) (content below d t.args)) :
    (finishing catalog S start left).rel ending.schema (component below d t)
      (component below d t) := by
  intro a ha
  cases ho : (component below d t).outcome a with
  | mk r b =>
    cases componentStep_of_outcome ho with
    | found _ => exact ⟨ha, trivial⟩
    | filled hf hr =>
      obtain ⟨fewer, rfl, hopen⟩ := Reaches.allot hfin ha ht hf (wantedName d t)
      have hin := h fewer rfl _ hopen
      rw [hr] at hin
      exact ⟨(hin.1.fill a.size _).mono (Nat.le_succ fewer), trivial⟩
    | failed hf hr =>
      obtain ⟨fewer, rfl, hopen⟩ := Reaches.allot hfin ha ht hf (wantedName d t)
      have hin := h fewer rfl _ hopen
      rw [hr] at hin
      exact ⟨hin.1.mono (Nat.le_succ fewer), hin.2⟩

end Component

section Closed

variable (hfin : S.Finite) (hc : catalog.Closed (· ∈ S))
variable (hflat : ∀ t ∈ S, ¬ Relation.TransGen (Flattens catalog) t t)
variable {start : Arena} {left : Nat}

def Enough (catalog : Catalog) (S : Set TypeExpr) (start : Arena) (left n : Nat) : Prop :=
  ∀ t ∈ S, (finishing catalog S start left).rel (ending.Describes t)
    ((level catalog n).schemaOf t) ((level catalog n).schemaOf t)

include hc

/-- What is smaller than a type is described first, then its component is. -/
theorem schemas_finish {M : Nat}
    (hopen : ∀ n ≥ M, ∀ t ∈ S, ∀ d, catalog.get? t.name = some d →
      (finishing catalog S start left).rel ending.schema (component (level catalog n) d t)
        (component (level catalog n) d t))
    (height : Nat) : ∀ n ≥ M + height, ∀ t ∈ S, t.height ≤ height →
      (finishing catalog S start left).rel (ending.Describes t) ((level catalog n).schemaOf t)
        ((level catalog n).schemaOf t) := by
  induction height with
  | zero =>
    intro n _ t _ hh
    obtain ⟨name, args⟩ := t
    simp [TypeExpr.height] at hh
  | succ height ih =>
    intro n hn t ht hh
    obtain ⟨m, rfl⟩ : ∃ m, n = m + 1 := ⟨n - 1, by omega⟩
    have hbelow : ∀ u, u ∈ S ∧ u.height ≤ height → (finishing catalog S start left).rel
        (ending.Describes u) ((level catalog m).schemaOf u) ((level catalog m).schemaOf u) :=
      fun u hu => ih m (by omega) u hu.1 hu.2
    refine Logic.describe hbelow (fun hh u hu => ?_) fun _ _ => ?_
    · obtain ⟨v, hv, he⟩ := Catalog.exists_arg_of_schemaDemands hh hu
      cases he
      have hless := TypeExpr.height_lt hv
      exact ⟨hc.args t ht u hv, by omega⟩
    · cases hd : catalog.get? t.name with
      | none => exact .none
      | some d => exact .some (hopen m (by omega) t ht d hd)

include hfin

theorem ranked_of_demands {t : TypeExpr} (ht : t ∈ S) {d : TypeDecl}
    (hd : catalog.get? t.name = some d) :
    ∀ x ∈ d.demands t.args, Ranked catalog S (S.ncard + 1) x := by
  intro x hx
  have hS := hc.declared t d ht hd _ (TypeDecl.mem_types_of_demands hx)
  cases x with
  | schema u => exact hS
  | flattened u => exact ⟨hS, Nat.lt_succ_of_le (flattenRank_le hfin hc hS)⟩

include hflat

/-- The structs that a struct flattens flatten less than it does. -/
theorem ranked_of_flattened {t : TypeExpr} (ht : t ∈ S) {d : TypeDecl} {fields : List FieldDecl}
    (hd : catalog.get? t.name = some d) (hf : d.fields? = some fields) {f : FieldDecl}
    (hmem : f ∈ fields) :
    ∀ x ∈ f.demands (d.bindings t.args), Ranked catalog S (flattenRank catalog t) x := by
  intro x hx
  have hdemand := TypeDecl.demands_of_fieldLists (TypeDecl.mem_fieldLists_of_fields? hf) hmem x hx
  have hS := hc.declared t d ht hd _ (TypeDecl.mem_types_of_demands hdemand)
  cases x with
  | schema u => exact hS
  | flattened u =>
    have hflattens := FieldDecl.flattened_mem_demands.mp hx
    exact ⟨hS, flattenRank_lt hfin hc hflat ht ⟨d, fields, f, hd, hf, hmem, hflattens⟩⟩

/-- With every level structs are flattened that flatten less. -/
theorem fields_finish {N : Nat} (hN : ∀ n ≥ N, Enough catalog S start left n) (rank : Nat) :
    ∀ n > N + rank, ∀ fields bindings,
      (∀ f ∈ fields, ending.Ready (Ranked catalog S rank) bindings f) →
      (finishing catalog S start left).rel ending.Object
        ((level catalog n).fieldsOf fields bindings)
        ((level catalog n).fieldsOf fields bindings) := by
  induction rank using Nat.strong_induction_on with
  | _ rank ih =>
    intro n hn fields bindings h
    obtain ⟨m, rfl⟩ : ∃ m, n = m + 1 := ⟨n - 1, by omega⟩
    have hbelow : (finishing catalog S start left).Answers catalog catalog
        (Ranked catalog S rank) (level catalog m) (level catalog m) := by
      refine ⟨hN m (by omega), fun t ht => ?_, fun t ht _ => ht.1⟩
      have hless : flattenRank catalog t < rank := ht.2
      refine Logic.splices fun d inner hd hi => ih _ hless m (by omega) inner _ fun f hf => ?_
      exact ⟨ranked_of_flattened hfin hc hflat ht.1 hd hi hf, fun _ _ _ _ => trivial⟩
    exact Logic.object hbelow h

theorem content_finishes {N : Nat} (hN : ∀ n ≥ N, Enough catalog S start left n) {n : Nat}
    (hn : n > N + (S.ncard + 1)) {t : TypeExpr} (ht : t ∈ S) {d : TypeDecl}
    (hd : catalog.get? t.name = some d) :
    (finishing catalog S start left).rel ending.schema (content (level catalog n) d t.args)
      (content (level catalog n) d t.args) := by
  have hranked := ranked_of_demands hfin hc ht hd
  refine Logic.content (hN n (by omega)) (admits_ending d)
    (Logic.alike_self (fun u hu => hranked (.schema u) hu) fun fields hmem => ?_)
  exact fields_finish hfin hc hflat hN _ n hn fields _ ((admits_ending d).ready hranked hmem)

/-- A depth that is enough for any number of components that wait. -/
theorem exists_enough (left : Nat) :
    ∃ N, ∀ n ≥ N, ∀ start, Enough catalog S start left n := by
  obtain ⟨H, hheight⟩ : ∃ H, ∀ t ∈ S, t.height ≤ H := by
    obtain ⟨tallest, h⟩ := Set.exists_upper_bound_image S TypeExpr.height hfin
    exact ⟨tallest.height, h⟩
  induction left with
  | zero =>
    refine ⟨0 + H, fun n hn start t ht =>
      schemas_finish hc (M := 0) (fun n _ t ht d hd => ?_) H n hn t ht (hheight t ht)⟩
    exact component_finishes hfin ⟨ht, by simp [hd]⟩ fun fewer h => by omega
  | succ left ih =>
    obtain ⟨N, hN⟩ := ih
    refine ⟨N + (S.ncard + 1) + 1 + H, fun n hn start t ht =>
      schemas_finish hc (M := N + (S.ncard + 1) + 1) (fun n hn t ht d hd => ?_) H n hn t ht
        (hheight t ht)⟩
    refine component_finishes hfin ⟨ht, by simp [hd]⟩ fun fewer h => ?_
    obtain rfl : left = fewer := by omega
    exact content_finishes hfin hc hflat (fun n hn => hN n hn start) hn ht hd

end Closed

/-! ### Whatever was described before -/

inductive Reachable (catalog : Catalog) : Arena → Prop where
  | start : Reachable catalog {}
  | request {a : Arena} (h : Reachable catalog a) (depth : Nat) (r : Request) :
    Reachable catalog (afterRequest catalog depth a r)

theorem Reachable.sound {a : Arena} (h : Reachable catalog a) : a.Sound := by
  induction h with
  | start => exact Arena.sound_empty
  | request _ depth r ih => exact (request_steps catalog depth r ih).2

/-- From some depth on nothing changes any more: the description of a type of `S`
does not run out of levels, and each new component is that of a declared type of
`S`, with at most one for each of them. -/
theorem inference_terminates (hfin : S.Finite) (hc : catalog.Closed (· ∈ S))
    (hflat : ∀ t ∈ S, ¬ Relation.TransGen (Flattens catalog) t t) :
    ∃ depth, ∀ a, Reachable catalog a → ∀ t ∈ S, ∀ n ≥ depth,
      (schemaOf catalog n t).outcome a = (schemaOf catalog depth t).outcome a ∧
      ((schemaOf catalog n t).outcome a).1 ≠ .error .tooDeep ∧
      (afterRequest catalog n a (.schemaOf t)).size ≤ a.size + (declaredIn catalog S).ncard ∧
      ∀ key place, (afterRequest catalog n a (.schemaOf t)).indexOf? key = some place →
        a.indexOf? key = some place ∨ ∃ u ∈ declaredIn catalog S, u.text = key := by
  obtain ⟨depth, hdepth⟩ := exists_enough hfin hc hflat (declaredIn catalog S).ncard
  refine ⟨depth, fun a ha t ht n hn => ?_⟩
  have hwait : (waiting catalog S a).ncard ≤ (declaredIn catalog S).ncard := waiting_subset hfin a
  have hstart : Reaches catalog S a (declaredIn catalog S).ncard a := Reaches.refl ha.sound hwait
  have hends : ∀ m ≥ depth, ((schemaOf catalog m t).outcome a).1 ≠ .error .tooDeep := by
    intro m hm he
    have hend := (hdepth m hm a t ht a hstart).2
    rw [schemaOf] at he
    rw [he] at hend
    exact hend rfl
  have hreach := (hdepth n hn a t ht a hstart).1
  refine ⟨schemaOf_deeper hn (hends depth (Nat.le_refl _)), hends n hn, ?_, hreach.places⟩
  have hsize := hreach.size
  show ((schemaOf catalog n t).outcome a).2.size ≤ _
  rw [schemaOf]
  omega

section Witness

def nodeType : TypeExpr := ⟨"Node", []⟩
def metaType : TypeExpr := ⟨"Meta", [nodeType]⟩
def ownerType (t : TypeExpr) : TypeExpr := ⟨"Option", [⟨"Box", [t]⟩]⟩

def nodeDecl : TypeDecl :=
  { name := "Node"
    shape := .struct [
      { name := "children", type := ⟨"Vec", [nodeType]⟩ },
      { name := "meta", type := metaType, flattened := true }] }

def metaDecl : TypeDecl :=
  { name := "Meta", generics := ["T"]
    shape := .struct [{ name := "owner", type := ownerType ⟨"T", []⟩ }] }

def nodeCatalog : Catalog := Catalog.ofList [nodeDecl, metaDecl]

def nodeTypes : Set TypeExpr :=
  {nodeType, ⟨"Vec", [nodeType]⟩, metaType, ownerType nodeType, ⟨"Box", [nodeType]⟩}

theorem nodeTypes_closed : nodeCatalog.Closed (· ∈ nodeTypes) where
  args t ht u hu := by
    rcases ht with rfl | rfl | rfl | rfl | rfl <;>
      simp_all [nodeTypes, nodeType, metaType, ownerType]
  declared t d ht hd u hu := by
    rcases ht with rfl | rfl | rfl | rfl | rfl <;> cases hd
    · have hmem : u ∈ [⟨"Vec", [nodeType]⟩, metaType] := hu
      rcases List.mem_pair.mp hmem with rfl | rfl <;> simp [nodeTypes]
    · have hmem : u ∈ [ownerType nodeType] := hu
      rw [List.mem_singleton.mp hmem]
      simp [nodeTypes]

theorem flattens_node {t u : TypeExpr} (h : Flattens nodeCatalog t u) :
    t.name = "Node" ∧ u.name = "Meta" := by
  obtain ⟨d, fields, f, hd, hfields, hf, -, hfl, rfl⟩ := h
  have hmem : (t.name, d) ∈ [("Node", nodeDecl), ("Meta", metaDecl)] := nodeCatalog.mem_of_get? hd
  simp only [List.mem_cons, Prod.mk.injEq, List.not_mem_nil, or_false] at hmem
  rcases hmem with ⟨hname, rfl⟩ | ⟨hname, rfl⟩ <;> cases hfields
  · rcases List.mem_pair.mp hf with rfl | rfl
    · cases hfl
    · exact ⟨hname, rfl⟩
  · rw [List.mem_singleton.mp hf] at hfl
    cases hfl

theorem inference_terminates_nodes :
    nodeTypes.Finite ∧ nodeCatalog.Closed (· ∈ nodeTypes) ∧
    (∀ t ∈ nodeTypes, ¬ Relation.TransGen (Flattens nodeCatalog) t t) ∧
    ∃ depth, ∀ a, Reachable nodeCatalog a → ∀ t ∈ nodeTypes, ∀ n ≥ depth,
      (schemaOf nodeCatalog n t).outcome a = (schemaOf nodeCatalog depth t).outcome a ∧
      ((schemaOf nodeCatalog n t).outcome a).1 ≠ .error .tooDeep ∧
      (afterRequest nodeCatalog n a (.schemaOf t)).size ≤
        a.size + (declaredIn nodeCatalog nodeTypes).ncard ∧
      ∀ key place, (afterRequest nodeCatalog n a (.schemaOf t)).indexOf? key = some place →
        a.indexOf? key = some place ∨ ∃ u ∈ declaredIn nodeCatalog nodeTypes, u.text = key := by
  have hfin : nodeTypes.Finite := by simp [nodeTypes]
  have hflat : ∀ t ∈ nodeTypes, ¬ Relation.TransGen (Flattens nodeCatalog) t t := by
    intro t _ h
    have hends : ∀ u, Relation.TransGen (Flattens nodeCatalog) t u →
        t.name = "Node" ∧ u.name = "Meta" := by
      intro u hu
      induction hu with
      | single h => exact flattens_node h
      | tail _ h ih => exact ⟨ih.1, (flattens_node h).2⟩
    obtain ⟨hnode, hmeta⟩ := hends t h
    rw [hnode] at hmeta
    exact absurd hmeta (by decide)
  exact ⟨hfin, nodeTypes_closed, hflat, inference_terminates hfin nodeTypes_closed hflat⟩

end Witness

end Inference

end ApiDoc
