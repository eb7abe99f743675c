import ApiDoc.Inference.Arena
import ApiDoc.Proofs.FreshName

/-!
# The tables of an arena

Places, components and owners are written one by one. What holds between them
is `Sound`: every type has a place of its own, every place a type, and every
name the one owner that has it. `Grows` is how arenas follow one another while
types are described, whether or not the descriptions succeed.
-/

set_option autoImplicit false

namespace ApiDoc.Inference.Arena

theorem find?_eq_some_iff {a : Arena} {key : String} {c : Component} :
    a.find? key = some c ↔
      ∃ place, a.indexOf? key = some place ∧ a.components[place]? = some c := by
  simp [find?, Option.bind_eq_some_iff]

structure Sound (a : Arena) : Prop where
  valid : ∀ key place, a.indexOf? key = some place → place < a.size
  single : ∀ key other place,
    a.indexOf? key = some place → a.indexOf? other = some place → key = other
  total : ∀ place < a.size, ∃ key, a.indexOf? key = some place
  owned : ∀ key c, a.find? key = some c → a.owners.get? c.name = some key
  named : ∀ name key, a.owners.get? name = some key → ∃ c, a.find? key = some c ∧ c.name = name

theorem sound_empty : Sound {} where
  valid := fun key place h => by simp [indexOf?, Ordered.get?] at h
  single := fun key other place h => by simp [indexOf?, Ordered.get?] at h
  total := fun place h => by simp [size] at h
  owned := fun key c h => by simp [find?, indexOf?, Ordered.get?] at h
  named := fun name key h => by simp [Ordered.get?] at h

theorem Sound.find?_of_indexOf? {a : Arena} (h : a.Sound) {key : String} {place : Nat}
    (hp : a.indexOf? key = some place) :
    ∃ c, a.find? key = some c ∧ a.components[place]? = some c :=
  have hlt := h.valid key place hp
  ⟨_, find?_eq_some_iff.mpr ⟨place, hp, List.getElem?_eq_getElem hlt⟩, List.getElem?_eq_getElem hlt⟩

theorem Sound.indexOf?_eq_none {a : Arena} (h : a.Sound) {key : String}
    (hf : a.find? key = none) : a.indexOf? key = none := by
  by_contra hne
  obtain ⟨place, hp⟩ := Option.ne_none_iff_exists'.mp hne
  obtain ⟨c, hc, -⟩ := h.find?_of_indexOf? hp
  simp [hf] at hc

/-- Two types whose components have one name are one type. -/
theorem Sound.key_unique {a : Arena} (h : a.Sound) {key other : String} {c c' : Component}
    (hc : a.find? key = some c) (hc' : a.find? other = some c') (hn : c.name = c'.name) :
    key = other := by
  have ho := h.owned key c hc
  rw [hn, h.owned other c' hc'] at ho
  exact (Option.some.inj ho).symm

theorem Sound.named?_eq_some_iff {a : Arena} (h : a.Sound) {name : String} {s : Schema} :
    a.named? name = some s ↔ ∃ key c, a.find? key = some c ∧ c.name = name ∧ c.schema = s := by
  -- a component of the list stands at some place, and every place has a key
  have hkey : ∀ c ∈ a.components, ∃ key, a.find? key = some c := fun c hc => by
    obtain ⟨place, hlt, hp⟩ := List.mem_iff_getElem.mp hc
    obtain ⟨key, hk⟩ := h.total place hlt
    exact ⟨key, find?_eq_some_iff.mpr ⟨place, hk, by rw [List.getElem?_eq_getElem hlt, hp]⟩⟩
  constructor
  · intro hs
    obtain ⟨c, hc, rfl⟩ := Option.map_eq_some_iff.mp hs
    obtain ⟨key, hk⟩ := hkey c (List.mem_of_find?_eq_some hc)
    exact ⟨key, c, hk, by simpa using List.find?_some hc, rfl⟩
  · rintro ⟨key, c, hc, rfl, rfl⟩
    obtain ⟨place, -, hp⟩ := find?_eq_some_iff.mp hc
    have hsome : (a.components.find? (·.name = c.name)).isSome := by
      rw [List.find?_isSome]
      exact ⟨c, List.mem_of_getElem? hp, by simp⟩
    obtain ⟨c', hc'⟩ := Option.isSome_iff_exists.mp hsome
    have hn : c'.name = c.name := by simpa using List.find?_some hc'
    obtain ⟨key', hk'⟩ := hkey c' (List.mem_of_find?_eq_some hc')
    have hkk := h.key_unique hk' hc hn
    rw [hkk, hc] at hk'
    exact Option.map_eq_some_iff.mpr ⟨c', hc', by rw [Option.some.inj hk']⟩

/-! ### A new component -/

theorem mem_takenFrom {a : Arena} {key name owner : String} (h : a.owners.get? name = some owner)
    (hne : owner ≠ key) : name ∈ a.takenFrom key :=
  (Ordered.mem_keys_iff _ name).mpr ⟨owner, Ordered.get?_filter h (decide_eq_true hne)⟩

theorem Sound.owner_of_taken {a : Arena} (h : a.Sound) {key name : String}
    (hn : name ∈ a.takenFrom key) :
    ∃ owner c, owner ≠ key ∧ a.find? owner = some c ∧ c.name = name := by
  obtain ⟨⟨name', owner⟩, hrow, rfl⟩ := Ordered.exists_mem_of_mem_keys hn
  have hrow : (name', owner) ∈ a.owners.entries ∧ owner ≠ key := by
    simpa using Ordered.mem_filter.mp hrow
  obtain ⟨c, hc, hname⟩ := h.named _ _ (a.owners.get?_of_mem hrow.1)
  exact ⟨owner, c, hrow.2, hc, hname⟩

theorem allot_name (a : Arena) (key base : String) :
    (a.allot key base).1.name = Naming.fresh (a.takenFrom key) base := rfl

@[simp] theorem size_allot (a : Arena) (key base : String) :
    (a.allot key base).2.size = a.size + 1 := by
  simp [allot, size]

theorem indexOf?_allot_self (a : Arena) (key base : String) :
    (a.allot key base).2.indexOf? key = some a.size :=
  a.places.get?_put_self key a.size

theorem indexOf?_allot_ne (a : Arena) {key other : String} (base : String) (ne : other ≠ key) :
    (a.allot key base).2.indexOf? other = a.indexOf? other :=
  a.places.get?_put_ne ne a.size

/-- The places after an allotment are those from before and the one behind them. -/
theorem indexOf?_allot_eq_some (a : Arena) {key base other : String} {place : Nat} :
    (a.allot key base).2.indexOf? other = some place ↔
      other = key ∧ place = a.size ∨ other ≠ key ∧ a.indexOf? other = some place := by
  by_cases he : other = key
  · simp [he, indexOf?_allot_self, eq_comm]
  · simp [he, indexOf?_allot_ne a base he]

theorem getElem?_allot_size (a : Arena) (key base : String) :
    (a.allot key base).2.components[a.size]? = some (a.allot key base).1 := by
  simp [allot, size]

theorem getElem?_allot_lt (a : Arena) (key base : String) {place : Nat} (h : place < a.size) :
    (a.allot key base).2.components[place]? = a.components[place]? :=
  List.getElem?_append_left h

theorem find?_allot_self (a : Arena) (key base : String) :
    (a.allot key base).2.find? key = some (a.allot key base).1 :=
  find?_eq_some_iff.mpr ⟨a.size, a.indexOf?_allot_self key base, a.getElem?_allot_size key base⟩

theorem Sound.find?_allot_ne {a : Arena} (h : a.Sound) {key other : String} (base : String)
    (ne : other ≠ key) : (a.allot key base).2.find? other = a.find? other := by
  simp only [find?, indexOf?_allot_ne a base ne]
  cases hp : a.indexOf? other with
  | none => rfl
  | some place => exact a.getElem?_allot_lt key base (h.valid other place hp)

/-- Nobody else owns the new name, and the type itself owned nothing yet. -/
theorem Sound.owners_name_allot {a : Arena} (h : a.Sound) {key : String}
    (hk : a.find? key = none) (base : String) :
    a.owners.get? (a.allot key base).1.name = none := by
  have hfree : (a.allot key base).1.name ∉ a.takenFrom key := Naming.fresh_not_mem _ _
  rw [Option.eq_none_iff_forall_ne_some]
  intro owner ho
  by_cases he : owner = key
  · obtain ⟨c, hc, -⟩ := h.named _ _ (he ▸ ho)
    simp [hk] at hc
  · exact hfree (mem_takenFrom ho he)

theorem Sound.allot {a : Arena} (h : a.Sound) {key : String} (hk : a.find? key = none)
    (base : String) : (a.allot key base).2.Sound := by
  have hnone := h.indexOf?_eq_none hk
  have hunowned := h.owners_name_allot hk base
  constructor
  case valid =>
    intro other place hp
    rw [size_allot]
    rcases a.indexOf?_allot_eq_some.mp hp with ⟨-, rfl⟩ | ⟨-, hp⟩
    · exact Nat.lt_succ_self _
    · exact Nat.lt_succ_of_lt (h.valid other place hp)
  case single =>
    intro k₁ k₂ place h₁ h₂
    have hold : ∀ k, a.indexOf? k ≠ some a.size := fun k hp => Nat.lt_irrefl _ (h.valid k _ hp)
    rw [indexOf?_allot_eq_some] at h₁ h₂
    rcases h₁ with ⟨rfl, rfl⟩ | ⟨-, h₁⟩ <;> rcases h₂ with ⟨rfl, hp⟩ | ⟨-, h₂⟩
    · rfl
    · exact absurd h₂ (hold k₂)
    · exact absurd (hp ▸ h₁) (hold k₁)
    · exact h.single k₁ k₂ place h₁ h₂
  case total =>
    intro place hlt
    rw [size_allot] at hlt
    by_cases hp : place = a.size
    · exact ⟨key, by rw [hp, indexOf?_allot_self]⟩
    · obtain ⟨other, ho⟩ := h.total place (by omega)
      have hne : other ≠ key := fun e => by simp [e, hnone] at ho
      exact ⟨other, a.indexOf?_allot_eq_some.mpr (Or.inr ⟨hne, ho⟩)⟩
  case owned =>
    intro other c hc
    by_cases he : other = key
    · rw [he, find?_allot_self] at hc
      rw [← Option.some.inj hc, he]
      exact a.owners.get?_put_self _ key
    · rw [h.find?_allot_ne base he] at hc
      have ho := h.owned other c hc
      have hne : c.name ≠ (a.allot key base).1.name := fun e => by simp [← e, ho] at hunowned
      exact (a.owners.get?_put_ne hne key).trans ho
  case named =>
    intro name owner ho
    by_cases he : name = (a.allot key base).1.name
    · rw [he] at ho
      have hself := a.owners.get?_put_self (a.allot key base).1.name key
      have hkey : owner = key := Option.some.inj (ho.symm.trans hself)
      exact ⟨_, hkey ▸ a.find?_allot_self key base, he.symm⟩
    · have ho' := (a.owners.get?_put_ne he key).symm.trans ho
      obtain ⟨c, hc, hn⟩ := h.named name owner ho'
      have hne : owner ≠ key := fun e => by simp [e, hk] at hc
      exact ⟨c, by rw [h.find?_allot_ne base hne, hc], hn⟩

/-! ### The content of a component -/

theorem fillAt_eq_modify (s : Schema) (place : Nat) (cs : List Component) :
    fillAt s place cs = cs.modify place fun c => { c with schema := s } := by
  induction cs generalizing place with
  | nil => simp [fillAt]
  | cons c cs ih => cases place <;> simp [fillAt, ih]

@[simp] theorem size_fill (a : Arena) (place : Nat) (s : Schema) :
    (a.fill place s).size = a.size := by
  simp [fill, size, fillAt_eq_modify]

@[simp] theorem indexOf?_fill (a : Arena) (place : Nat) (s : Schema) (key : String) :
    (a.fill place s).indexOf? key = a.indexOf? key := rfl

theorem getElem?_fill_self (a : Arena) (place : Nat) (s : Schema) :
    (a.fill place s).components[place]? =
      (a.components[place]?).map fun c => { c with schema := s } := by
  simp [fill, fillAt_eq_modify]

theorem getElem?_fill_ne (a : Arena) {place other : Nat} (s : Schema) (ne : other ≠ place) :
    (a.fill place s).components[other]? = a.components[other]? := by
  simp [fill, fillAt_eq_modify, Ne.symm ne]

theorem find?_fill_self {a : Arena} {key : String} {place : Nat} {c : Component}
    (hp : a.indexOf? key = some place) (hc : a.find? key = some c) (s : Schema) :
    (a.fill place s).find? key = some { c with schema := s } := by
  obtain ⟨place', hp', hc⟩ := find?_eq_some_iff.mp hc
  cases hp.symm.trans hp'
  exact find?_eq_some_iff.mpr ⟨place, hp, by rw [getElem?_fill_self, hc]; rfl⟩

theorem Sound.find?_fill_ne {a : Arena} (h : a.Sound) {key other : String} {place : Nat}
    (hp : a.indexOf? key = some place) (ne : other ≠ key) (s : Schema) :
    (a.fill place s).find? other = a.find? other := by
  simp only [find?, indexOf?_fill]
  cases hp' : a.indexOf? other with
  | none => rfl
  | some place' =>
    exact a.getElem?_fill_ne s fun e => ne (h.single other key place (e ▸ hp') hp)

/-- Filling a component changes nobody's name. -/
theorem find?_fill (a : Arena) (place : Nat) (s : Schema) {key : String} {c : Component}
    (hc : (a.fill place s).find? key = some c) :
    ∃ c', a.find? key = some c' ∧ c'.name = c.name := by
  obtain ⟨p, hp, hc⟩ := find?_eq_some_iff.mp hc
  by_cases he : p = place
  · rw [he, getElem?_fill_self] at hc
    obtain ⟨c', hc', rfl⟩ := Option.map_eq_some_iff.mp hc
    exact ⟨c', find?_eq_some_iff.mpr ⟨p, hp, he ▸ hc'⟩, rfl⟩
  · rw [a.getElem?_fill_ne s he] at hc
    exact ⟨c, find?_eq_some_iff.mpr ⟨p, hp, hc⟩, rfl⟩

theorem find?_fill_name (a : Arena) (place : Nat) (s : Schema) {key : String} {c : Component}
    (hc : a.find? key = some c) :
    ∃ c', (a.fill place s).find? key = some c' ∧ c'.name = c.name := by
  obtain ⟨p, hp, hc⟩ := find?_eq_some_iff.mp hc
  by_cases he : p = place
  · exact ⟨{ c with schema := s }, find?_eq_some_iff.mpr ⟨p, hp, by
      rw [he, getElem?_fill_self, ← he, hc]; rfl⟩, rfl⟩
  · exact ⟨c, find?_eq_some_iff.mpr ⟨p, hp, by rw [a.getElem?_fill_ne s he, hc]⟩, rfl⟩

theorem Sound.fill {a : Arena} (h : a.Sound) (place : Nat) (s : Schema) :
    (a.fill place s).Sound where
  valid := fun key p hp => by simpa using h.valid key p hp
  single := h.single
  total := fun p hp => h.total p (by simpa using hp)
  owned := fun key c hc => by
    obtain ⟨c', hc', hn⟩ := find?_fill a place s hc
    exact hn ▸ h.owned key c' hc'
  named := fun name key ho => by
    obtain ⟨c, hc, hn⟩ := h.named name key ho
    obtain ⟨c', hc', hn'⟩ := find?_fill_name a place s hc
    exact ⟨c', hc', hn'.trans hn⟩

/-! ### Growth -/

structure Grows (a b : Arena) : Prop where
  place : ∀ key (n : Nat), a.indexOf? key = some n → b.indexOf? key = some n
  component : ∀ (n : Nat) c, a.components[n]? = some c → b.components[n]? = some c
  size : a.size ≤ b.size
  quiet : b.size = a.size → b = a

theorem Grows.refl (a : Arena) : a.Grows a :=
  ⟨fun _ _ h => h, fun _ _ h => h, Nat.le_refl _, fun _ => rfl⟩

theorem Grows.trans {a b c : Arena} (h : a.Grows b) (h' : b.Grows c) : a.Grows c where
  place := fun key place hp => h'.place key place (h.place key place hp)
  component := fun place x hx => h'.component place x (h.component place x hx)
  size := Nat.le_trans h.size h'.size
  quiet := fun he => by
    have h₁ := h.size
    have h₂ := h'.size
    rw [h'.quiet (by omega), h.quiet (by omega)]

theorem Grows.find? {a b : Arena} (h : a.Grows b) {key : String} {c : Component}
    (hc : a.find? key = some c) : b.find? key = some c := by
  obtain ⟨place, hp, hc⟩ := find?_eq_some_iff.mp hc
  exact find?_eq_some_iff.mpr ⟨place, h.place key place hp, h.component place c hc⟩

/-- An arena that grows back into itself has not grown. -/
theorem Grows.antisymm {a b : Arena} (h : a.Grows b) (h' : b.Grows a) : b = a :=
  h.quiet (Nat.le_antisymm h'.size h.size)

theorem grows_allot (a : Arena) {key : String} (hk : a.indexOf? key = none) (base : String) :
    a.Grows (a.allot key base).2 where
  place := fun other place hp => by
    rw [indexOf?_allot_ne a base fun e => by simp [e, hk] at hp, hp]
  component := fun place c hc => by
    obtain ⟨hlt, -⟩ := List.getElem?_eq_some_iff.mp hc
    rw [a.getElem?_allot_lt key base hlt, hc]
  size := by simp
  quiet := fun he => by simp at he

/-- A component opened since may be filled. -/
theorem Grows.fill {a b : Arena} (h : a.Grows b) (hlt : a.size < b.size) {place : Nat}
    (hp : a.size ≤ place) (s : Schema) : a.Grows (b.fill place s) where
  place := h.place
  component := fun other c hc => by
    obtain ⟨ho, -⟩ := List.getElem?_eq_some_iff.mp hc
    have hne : other ≠ place := by
      have : other < a.size := ho
      omega
    rw [b.getElem?_fill_ne s hne, h.component other c hc]
  size := by simpa using h.size
  quiet := fun he => by
    rw [size_fill] at he
    omega

/-! ### Names -/

theorem name_mem_of_find? {a : Arena} {key : String} {c : Component} (h : a.find? key = some c) :
    c.name ∈ a.names := by
  obtain ⟨place, -, hc⟩ := find?_eq_some_iff.mp h
  exact List.mem_map_of_mem (List.mem_of_getElem? hc)

theorem Grows.names_subset {a b : Arena} (h : a.Grows b) : a.names ⊆ b.names := by
  intro name hn
  obtain ⟨c, hc, rfl⟩ := List.mem_map.mp hn
  obtain ⟨place, hp⟩ := List.mem_iff_getElem?.mp hc
  exact List.mem_map_of_mem (List.mem_of_getElem? (h.component place c hp))

theorem mem_components_fill {a : Arena} {place : Nat} {s : Schema} {c : Component}
    (h : c ∈ (a.fill place s).components) : c ∈ a.components ∨ c.schema = s := by
  obtain ⟨p, hp⟩ := List.mem_iff_getElem?.mp h
  by_cases he : p = place
  · rw [he, getElem?_fill_self] at hp
    obtain ⟨c', -, rfl⟩ := Option.map_eq_some_iff.mp hp
    exact Or.inr rfl
  · rw [a.getElem?_fill_ne s he] at hp
    exact Or.inl (List.mem_of_getElem? hp)

@[simp] theorem names_fill (a : Arena) (place : Nat) (s : Schema) :
    (a.fill place s).names = a.names := by
  apply List.ext_getElem?
  intro p
  simp only [names, List.getElem?_map]
  by_cases he : p = place
  · rw [he, getElem?_fill_self]
    cases a.components[place]? <;> rfl
  · rw [a.getElem?_fill_ne s he]

/-! ### Agreement -/

def Agrees (a b : Arena) : Prop :=
  ∀ key c, a.find? key = some c → ∃ c', b.find? key = some c' ∧ c'.name = c.name

theorem Agrees.trans {a b c : Arena} (h : a.Agrees b) (h' : b.Agrees c) : a.Agrees c := by
  intro key x hx
  obtain ⟨y, hy, hxy⟩ := h key x hx
  obtain ⟨z, hz, hyz⟩ := h' key y hy
  exact ⟨z, hz, hyz.trans hxy⟩

theorem Grows.agrees {a b : Arena} (h : a.Grows b) : a.Agrees b :=
  fun _ c hc => ⟨c, h.find? hc, rfl⟩

theorem agrees_fill (a : Arena) (place : Nat) (s : Schema) : a.Agrees (a.fill place s) :=
  fun _ _ hc => find?_fill_name a place s hc

theorem fill_agrees (a : Arena) (place : Nat) (s : Schema) : (a.fill place s).Agrees a :=
  fun _ _ hc => find?_fill a place s hc

end ApiDoc.Inference.Arena
