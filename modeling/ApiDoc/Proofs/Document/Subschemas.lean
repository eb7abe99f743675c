import ApiDoc.Document.Overlay

/-!
# Properties of a schema at any depth

`s.Contains u` says that `u` is the schema `s` itself or stands somewhere below
it, and `Everywhere P s` that all of them have the property `P`. How the property
passes through one level is told by the nearest subschemas alone.
-/

set_option autoImplicit false

namespace ApiDoc.Schema

inductive Contains : Schema → Schema → Prop
  | self (s : Schema) : Contains s s
  | child {s c u : Schema} (hc : c ∈ s.children) (hu : Contains c u) : Contains s u

def Everywhere (P : Schema → Prop) (s : Schema) : Prop := ∀ u, s.Contains u → P u

variable {P : Schema → Prop} {s : Schema}

theorem everywhere_iff : s.Everywhere P ↔ P s ∧ ∀ c ∈ s.children, c.Everywhere P := by
  constructor
  · intro h
    exact ⟨h s (.self s), fun c hc u hu => h u (.child hc hu)⟩
  · rintro ⟨hs, hc⟩ u hu
    cases hu with
    | self => exact hs
    | child hm hu => exact hc _ hm u hu

theorem Everywhere.here (h : s.Everywhere P) : P s := (everywhere_iff.mp h).1

theorem mem_children {c : Schema} : c ∈ s.children ↔
    c ∈ s.properties.values ∨ s.items = some c ∨ s.negated = some c ∨ c ∈ s.allOf ∨
      c ∈ s.anyOf ∨ c ∈ s.oneOf ∨ s.additional = some (.schema c) := by
  have hrest : c ∈ (additionalSchema? s.additional).toList ↔ s.additional = some (.schema c) := by
    rcases s.additional with _ | _ | u <;> simp [additionalSchema?, eq_comm]
  simp only [children, List.mem_append, Option.mem_toList, hrest, or_assoc]

structure Below (P : Schema → Prop) (s : Schema) : Prop where
  properties : s.properties.All P
  items : ∀ c, s.items = some c → P c
  negated : ∀ c, s.negated = some c → P c
  allOf : ∀ c ∈ s.allOf, P c
  anyOf : ∀ c ∈ s.anyOf, P c
  oneOf : ∀ c ∈ s.oneOf, P c
  additional : ∀ c, s.additional = some (.schema c) → P c

theorem forall_children : (∀ c ∈ s.children, P c) ↔ s.Below P := by
  have hrows : s.properties.All P ↔ ∀ c ∈ s.properties.values, P c := List.forall_mem_map.symm
  constructor
  · intro h
    constructor
    · exact hrows.mpr fun c hc => h c (mem_children.mpr (by simp [hc]))
    all_goals exact fun c hc => h c (mem_children.mpr (by simp [hc]))
  · intro h c hc
    rcases mem_children.mp hc with hc | hc | hc | hc | hc | hc | hc
    · exact hrows.mp h.properties c hc
    · exact h.items c hc
    · exact h.negated c hc
    · exact h.allOf c hc
    · exact h.anyOf c hc
    · exact h.oneOf c hc
    · exact h.additional c hc

theorem everywhere_of_below (hs : P s) (h : s.Below (Everywhere P)) : s.Everywhere P :=
  everywhere_iff.mpr ⟨hs, forall_children.mpr h⟩

theorem Everywhere.below (h : s.Everywhere P) : s.Below (Everywhere P) :=
  forall_children.mp (everywhere_iff.mp h).2

/-- A schema without subschemas. -/
theorem below_of_leaf (h : s.children = []) : s.Below P :=
  forall_children.mp (by simp [h])

theorem Below.put (h : s.Below P) (name : String) {c : Schema} (hc : P c) :
    Below P { s with properties := s.properties.put name c } :=
  { h with properties := h.properties.put name hc }

theorem Below.require (h : s.Below P) (name : String) : (s.require name).Below P := by
  unfold Schema.require
  split
  · exact h
  · exact { h with }

theorem Below.requireAll (h : s.Below P) (names : List String) :
    (names.foldl Schema.require s).Below P := by
  induction names generalizing s with
  | nil => exact h
  | cons name names ih => exact ih (h.require name)

theorem forall_orList {upper lower : List Schema} (hu : ∀ c ∈ upper, P c) (hl : ∀ c ∈ lower, P c) :
    ∀ c ∈ orList upper lower, P c := by
  unfold orList
  split
  · exact hl
  · exact hu

theorem Below.overlay {lower upper : Schema} (hl : lower.Below P) (hu : upper.Below P) :
    (lower.overlay upper).Below P where
  properties := hl.properties
  items := hl.items
  negated := fun c hc => by
    rcases Option.or_eq_some_iff.mp hc with h | ⟨-, h⟩
    · exact hu.negated c h
    · exact hl.negated c h
  allOf := List.forall_mem_append.mpr ⟨hl.allOf, hu.allOf⟩
  anyOf := forall_orList hu.anyOf hl.anyOf
  oneOf := forall_orList hu.oneOf hl.oneOf
  additional := hl.additional

@[simp] theorem reference_require (s : Schema) (name : String) :
    (s.require name).reference = s.reference := by
  unfold Schema.require
  split <;> rfl

@[simp] theorem reference_requireAll (s : Schema) (names : List String) :
    (names.foldl Schema.require s).reference = s.reference := by
  induction names generalizing s with
  | nil => rfl
  | cons name names ih => rw [List.foldl_cons, ih, reference_require]

/-! ### Required names -/

def RequiresOwn (s : Schema) : Prop :=
  ∀ name ∈ s.keywords.required, name ∈ s.properties.keys

def withName (names : List String) (name : String) : List String :=
  if names.contains name then names else names ++ [name]

theorem require_eq (o : Schema) (name : String) :
    o.require name =
      { o with keywords := { o.keywords with required := withName o.keywords.required name } } := by
  unfold require withName
  split
  · cases o
    rfl
  · rfl

theorem requireAll_eq (o : Schema) (names : List String) :
    names.foldl require o = { o with keywords := { o.keywords with
      required := names.foldl withName o.keywords.required } } := by
  induction names generalizing o with
  | nil =>
    cases o
    rfl
  | cons name names ih =>
    rw [List.foldl_cons, List.foldl_cons, ih, require_eq]

theorem mem_withName {names : List String} {name other : String} :
    other ∈ withName names name ↔ other ∈ names ∨ other = name := by
  unfold withName
  split
  · rename_i h
    have hin : name ∈ names := by simpa using h
    exact ⟨Or.inl, fun h => h.elim id fun he => he ▸ hin⟩
  · simp

theorem mem_foldl_withName {names others : List String} {name : String} :
    name ∈ names.foldl withName others ↔ name ∈ others ∨ name ∈ names := by
  induction names generalizing others with
  | nil => simp
  | cons other names ih => rw [List.foldl_cons, ih, mem_withName, List.mem_cons, or_assoc]

theorem nodup_withName {names : List String} (h : names.Nodup) (name : String) :
    (withName names name).Nodup := by
  unfold withName
  split
  · exact h
  · rename_i hnot
    have hnot : name ∉ names := by simpa using hnot
    refine List.nodup_append.mpr ⟨h, by simp, fun a ha b hb => ?_⟩
    rw [List.mem_singleton.mp hb]
    exact fun he => hnot (he ▸ ha)

theorem nodup_foldl_withName {names others : List String} (h : others.Nodup) :
    (names.foldl withName others).Nodup := by
  induction names generalizing others with
  | nil => exact h
  | cons name names ih => exact ih (nodup_withName h name)

end ApiDoc.Schema
