import Mathlib.Data.Set.Card
import ApiDoc.Proofs.Inference.Handles

/-!
# Depth that suffices

Declared types may lead back to themselves, and only the components that are
already there stop the descent. When a finite set of types is closed under what
its members lead to, and no struct of the set is flattened into itself, every
description within the set ends: each component that is opened leaves one
declared type less to be opened, between two openings structs are flattened at
most once each, and type arguments only become smaller.
-/

set_option autoImplicit false

namespace ApiDoc.Inference

/-! ### More levels -/

/-- The right computation does as the left, unless the left runs out of levels. -/
def deepening : Link where
  rel g g' := ∀ a : Arena, (g.outcome a).1 ≠ .error .tooDeep → g'.outcome a = g.outcome a
  pure _ _ _ := rfl
  fail _ _ _ := rfl
  bind {α β g g' k k'} hg hk a h := by
    cases hr : g.outcome a with
    | mk r b =>
      have hsame := hg a
      rw [hr] at hsame
      cases r with
      | ok x =>
        rw [ExceptT.outcome_bind_ok hr] at h ⊢
        rw [ExceptT.outcome_bind_ok (hsame (by simp))]
        exact hk x b h
      | error f =>
        rw [ExceptT.outcome_bind_error hr] at h ⊢
        rw [ExceptT.outcome_bind_error (hsame fun e => h (by cases e; rfl))]

theorem component_deepens {below below' : Level} (d : TypeDecl) (t : TypeExpr)
    (h : deepening.rel (content below d t.args) (content below' d t.args)) :
    deepening.rel (component below d t) (component below' d t) := by
  intro a hne
  cases hf : a.find? t.text with
  | some c => rw [component_found below d hf, component_found below' d hf]
  | none =>
    rw [component_opened below d hf] at hne ⊢
    rw [component_opened below' d hf]
    have hsame := h (a.allot t.text (wantedName d t)).2
    cases hr : (content below d t.args).outcome (a.allot t.text (wantedName d t)).2 with
    | mk r b =>
      rw [hr] at hne hsame
      cases r with
      | ok s => rw [hsame (by simp)]
      | error f => rw [hsame hne]

theorem level_deepens (catalog : Catalog) (n : Nat) :
    deepening.logic.Linked (fun _ => True) (level catalog n) (level catalog (n + 1)) := by
  induction n with
  | zero => exact ⟨fun _ _ _ h => absurd rfl h, fun _ _ _ _ h => absurd rfl h⟩
  | succ n ih =>
    exact ih.next (fun _ _ _ _ => trivial) (fun _ d _ => Terms.admits_any d)
      fun t d _ _ h => component_deepens d t h

theorem fieldsOf_deepens (catalog : Catalog) (n : Nat) (fields : List FieldDecl)
    (bindings : TypeExpr.Bindings) :
    deepening.rel ((level catalog n).fieldsOf fields bindings)
      ((level catalog (n + 1)).fieldsOf fields bindings) :=
  (level_deepens catalog n).fieldsOf fields bindings fun _ _ => Terms.ready_any fun _ _ => trivial

/-- A description that does not run out of levels is the same with more of them. -/
theorem schemaOf_deeper {catalog : Catalog} {n m : Nat} (hnm : n ≤ m) {t : TypeExpr} {a : Arena}
    (h : ((schemaOf catalog n t).outcome a).1 ≠ .error .tooDeep) :
    (schemaOf catalog m t).outcome a = (schemaOf catalog n t).outcome a := by
  induction m, hnm using Nat.le_induction with
  | base => rfl
  | succ m _ ih =>
    have hstep := (level_deepens catalog m).schemaOf t trivial a (by rw [← schemaOf, ih]; exact h)
    exact hstep.trans ih

/-! ### Failures of other kinds -/

theorem bind_ne_error {α β : Type} {e : Except Failure α} {k : α → Except Failure β} {f : Failure}
    (he : e ≠ .error f) (hk : ∀ x, k x ≠ .error f) : (e >>= k) ≠ .error f := by
  cases e with
  | ok x => exact hk x
  | error g => exact fun h => he (by cases h; rfl)

theorem map_ne_error {α β : Type} {e : Except Failure α} {g : α → β} {f : Failure}
    (he : e ≠ .error f) : e.map g ≠ .error f := by
  cases e with
  | ok x => simp [Except.map]
  | error f' => exact fun h => he (by cases h; rfl)

theorem bound?_ne_tooDeep (field : String) (s : Option String) :
    Literal.bound? field s ≠ .error .tooDeep := by
  cases s with
  | none => simp [Literal.bound?]
  | some s =>
    apply map_ne_error
    unfold Literal.bound
    split <;> simp

theorem extension_ne_tooDeep (n : ExtensionNote) : Literal.extension n ≠ .error .tooDeep := by
  unfold Literal.extension
  dsimp only
  split
  · apply map_ne_error
    unfold Literal.json
    split <;> simp
  · simp

theorem extensions_ne_tooDeep (ns : List ExtensionNote) :
    Literal.extensions ns ≠ .error .tooDeep := by
  apply map_ne_error
  induction ns with
  | nil => simp [List.mapM_nil, pure, Except.pure]
  | cons n ns ih =>
    rw [List.mapM_cons]
    exact bind_ne_error (extension_ne_tooDeep n) fun x => bind_ne_error ih fun xs => by
      simp [pure, Except.pure]

theorem keywords_ne_tooDeep (n : SchemaNote) (hint : Option SchemaType) :
    keywords n hint ≠ .error .tooDeep :=
  bind_ne_error (bound?_ne_tooDeep _ _) fun _ => bind_ne_error (bound?_ne_tooDeep _ _) fun _ =>
    bind_ne_error (bound?_ne_tooDeep _ _) fun _ => bind_ne_error (extensions_ne_tooDeep _)
      fun _ => by simp [pure, Except.pure]

theorem typeHint_ne_tooDeep (s : Schema) (n : SchemaNote) : typeHint s n ≠ .error .tooDeep := by
  unfold typeHint
  split
  · apply map_ne_error
    unfold SchemaType.ofWord
    split <;> simp
  · simp

/-! ### Structs that flatten others -/

def Flattens (catalog : Catalog) (t u : TypeExpr) : Prop :=
  ∃ d fields f, catalog.get? t.name = some d ∧ d.fields? = some fields ∧ f ∈ fields ∧
    f.isAbsent = false ∧ f.flattened = true ∧ u = f.type.substitute (d.bindings t.args)

noncomputable def flattenRank (catalog : Catalog) (t : TypeExpr) : Nat :=
  {u | Relation.TransGen (Flattens catalog) t u}.ncard

section Closed

variable {catalog : Catalog} {S : Set TypeExpr} (hfin : S.Finite) (hc : catalog.Closed (· ∈ S))
variable (hflat : ∀ t ∈ S, ¬ Relation.TransGen (Flattens catalog) t t)

include hc

theorem mem_of_flattens {t u : TypeExpr} (ht : t ∈ S) (h : Flattens catalog t u) : u ∈ S := by
  obtain ⟨d, fields, f, hd, hfields, hf, hflattened⟩ := h
  have hdemand := FieldDecl.flattened_mem_demands.mpr hflattened
  have hlist := TypeDecl.mem_fieldLists_of_fields? hfields
  exact hc.declared t d ht hd _
    (TypeDecl.mem_types_of_demands (TypeDecl.demands_of_fieldLists hlist hf _ hdemand))

theorem flattened_subset {t : TypeExpr} (ht : t ∈ S) :
    {u | Relation.TransGen (Flattens catalog) t u} ⊆ S := by
  intro u hu
  induction hu with
  | single h => exact mem_of_flattens hc ht h
  | tail _ h ih => exact mem_of_flattens hc ih h

include hfin

theorem flattenRank_le {t : TypeExpr} (ht : t ∈ S) : flattenRank catalog t ≤ S.ncard :=
  Set.ncard_le_ncard (flattened_subset hc ht) hfin

include hflat

theorem flattenRank_lt {t u : TypeExpr} (ht : t ∈ S) (h : Flattens catalog t u) :
    flattenRank catalog u < flattenRank catalog t := by
  have hu := mem_of_flattens hc ht h
  apply Set.ncard_lt_ncard _ (hfin.subset (flattened_subset hc ht))
  refine ⟨fun v hv => Relation.TransGen.head h hv, fun hsub => ?_⟩
  exact hflat u hu (hsub (Relation.TransGen.single h))

end Closed

/-! ### Types that wait for their component -/

section Waiting

variable (catalog : Catalog) (S : Set TypeExpr)

def declaredIn : Set TypeExpr := {t ∈ S | (catalog.get? t.name).isSome}

def waiting (a : Arena) : Set TypeExpr := {t ∈ declaredIn catalog S | a.find? t.text = none}

structure Reaches (start : Arena) (left : Nat) (a : Arena) : Prop where
  sound : a.Sound
  left : (waiting catalog S a).ncard ≤ left
  size : a.size + (waiting catalog S a).ncard ≤ start.size + (waiting catalog S start).ncard
  places : ∀ key place, a.indexOf? key = some place →
    start.indexOf? key = some place ∨ ∃ t ∈ declaredIn catalog S, t.text = key

variable {catalog S} {start a b : Arena} {left : Nat}

theorem waiting_subset (hfin : S.Finite) (a : Arena) :
    (waiting catalog S a).ncard ≤ (declaredIn catalog S).ncard :=
  Set.ncard_le_ncard (fun _ ht => ht.1) (hfin.subset fun _ ht => ht.1)

theorem Reaches.refl (hs : start.Sound) (h : (waiting catalog S start).ncard ≤ left) :
    Reaches catalog S start left start :=
  ⟨hs, h, Nat.le_refl _, fun _ _ hp => Or.inl hp⟩

theorem waiting_fill (a : Arena) (place : Nat) (s : Schema) :
    waiting catalog S (a.fill place s) = waiting catalog S a := by
  have hnone : ∀ key, (a.fill place s).find? key = none ↔ a.find? key = none := by
    intro key
    simp only [Option.eq_none_iff_forall_ne_some]
    constructor
    · intro h c hc
      obtain ⟨c', hc', -⟩ := a.find?_fill_name place s hc
      exact h c' hc'
    · intro h c hc
      obtain ⟨c', hc', -⟩ := a.find?_fill place s hc
      exact h c' hc'
  unfold waiting
  simp only [hnone]

theorem Reaches.fill (h : Reaches catalog S start left a) (place : Nat) (s : Schema) :
    Reaches catalog S start left (a.fill place s) where
  sound := h.sound.fill place s
  left := by rw [waiting_fill]; exact h.left
  size := by rw [waiting_fill, Arena.size_fill]; exact h.size
  places := h.places

theorem Reaches.mono {more : Nat} (h : Reaches catalog S start left a) (hle : left ≤ more) :
    Reaches catalog S start more a :=
  ⟨h.sound, h.left.trans hle, h.size, h.places⟩

/-- A type that gets its component waits no longer. -/
theorem waiting_allot (hfin : S.Finite) (ha : a.Sound) {t : TypeExpr}
    (ht : t ∈ declaredIn catalog S) (hn : a.find? t.text = none) (base : String) :
    (waiting catalog S (a.allot t.text base).2).ncard < (waiting catalog S a).ncard := by
  apply Set.ncard_lt_ncard _ (hfin.subset fun _ hu => hu.1.1)
  have hself := a.find?_allot_self t.text base
  constructor
  · rintro u ⟨hu, hnone⟩
    have hne : u.text ≠ t.text := by
      intro he
      rw [he, hself] at hnone
      cases hnone
    exact ⟨hu, by rwa [ha.find?_allot_ne base hne] at hnone⟩
  · intro hsub
    have hwaits := (hsub ⟨ht, hn⟩).2
    rw [hself] at hwaits
    cases hwaits

theorem Reaches.allot (hfin : S.Finite) (h : Reaches catalog S start left a) {t : TypeExpr}
    (ht : t ∈ declaredIn catalog S) (hn : a.find? t.text = none) (base : String) :
    ∃ fewer, left = fewer + 1 ∧ Reaches catalog S start fewer (a.allot t.text base).2 := by
  have hlt := waiting_allot hfin h.sound ht hn base
  have hleft := h.left
  have hsize := h.size
  obtain ⟨fewer, rfl⟩ : ∃ fewer, left = fewer + 1 := ⟨left - 1, by omega⟩
  refine ⟨fewer, rfl, h.sound.allot hn base, by omega, ?_, fun key place hp => ?_⟩
  · rw [Arena.size_allot]
    omega
  · rcases a.indexOf?_allot_eq_some.mp hp with ⟨he, -⟩ | ⟨-, hp⟩
    · exact Or.inr ⟨t, ht, he.symm⟩
    · exact h.places key place hp

end Waiting

end ApiDoc.Inference
