import ApiDoc.Proofs.Document.Written

/-!
# Values with parts left out

A value is thinner than another one if it is that value less some rows of its objects
and some items of its arrays, at any depth. Where no key is written twice and no
reference is hidden, none is in a thinner value.
-/

set_option autoImplicit false

namespace ApiDoc

namespace Json

inductive Thinner : Json → Json → Prop
  | self (j : Json) : Thinner j j
  | dropItem {k : Json} {js ks : List Json} (h : Thinner (.array js) (.array ks)) :
    Thinner (.array js) (.array (k :: ks))
  | keepItem {j k : Json} {js ks : List Json} (hj : Thinner j k)
    (h : Thinner (.array js) (.array ks)) : Thinner (.array (j :: js)) (.array (k :: ks))
  | dropRow {row : String × Json} {rows others : List (String × Json)}
    (h : Thinner (.object rows) (.object others)) : Thinner (.object rows) (.object (row :: others))
  | keepRow {key : String} {j k : Json} {rows others : List (String × Json)} (hj : Thinner j k)
    (h : Thinner (.object rows) (.object others)) :
    Thinner (.object ((key, j) :: rows)) (.object ((key, k) :: others))

def Plain (j : Json) : Prop :=
  ∀ rows, j.Contains (.object rows) →
    (rows.map Prod.fst).Nodup ∧ ∀ k, ("$ref", k) ∈ rows → ∃ pointer, k = .text pointer

mutual
def isPlain : Json → Bool
  | .array js => isPlainList js
  | .object rows => decide (rows.map Prod.fst).Nodup && isPlainTable rows
  | _ => true
def isPlainList : List Json → Bool
  | [] => true
  | j :: js => isPlain j && isPlainList js
def isPlainTable : List (String × Json) → Bool
  | [] => true
  | (key, j) :: rows => (key != "$ref" || j.text?.isSome) && isPlain j && isPlainTable rows
end

theorem isPlain_of_mem {js : List Json} {j : Json} (h : isPlainList js = true) (hj : j ∈ js) :
    isPlain j = true := by
  induction js with
  | nil => cases hj
  | cons k js ih =>
    rw [isPlainList, Bool.and_eq_true] at h
    rcases List.mem_cons.mp hj with rfl | hj
    · exact h.1
    · exact ih h.2 hj

theorem isPlain_of_row {rows : List (String × Json)} {row : String × Json}
    (h : isPlainTable rows = true) (hrow : row ∈ rows) :
    (row.1 = "$ref" → row.2.text?.isSome = true) ∧ isPlain row.2 = true := by
  induction rows with
  | nil => cases hrow
  | cons other rows ih =>
    obtain ⟨key, j⟩ := other
    rw [isPlainTable, Bool.and_eq_true, Bool.and_eq_true, Bool.or_eq_true, bne_iff_ne] at h
    obtain ⟨⟨htext, hj⟩, hrows⟩ := h
    rcases List.mem_cons.mp hrow with rfl | hrow
    · exact ⟨fun hkey => htext.resolve_left (not_not_intro hkey), hj⟩
    · exact ih hrows hrow

/-- A check that finds out whether a value is plain. -/
theorem plain_of_isPlain {j : Json} (h : j.isPlain = true) : j.Plain := by
  intro rows hrows
  generalize ho : Json.object rows = o at hrows
  induction hrows with
  | self =>
    subst ho
    rw [isPlain, Bool.and_eq_true, decide_eq_true_eq] at h
    refine ⟨h.1, fun k hk => ?_⟩
    have htext := (isPlain_of_row h.2 hk).1 rfl
    cases k <;> simp [text?] at htext
    exact ⟨_, rfl⟩
  | item hj _ ih =>
    rw [isPlain] at h
    exact ih (isPlain_of_mem h hj) ho
  | row hrow _ ih =>
    rw [isPlain, Bool.and_eq_true] at h
    exact ih (isPlain_of_row h.2 hrow).2 ho

theorem Plain.within {j k : Json} (h : j.Plain) (hk : j.Contains k) : k.Plain :=
  fun rows hrows => h rows (hk.trans hrows)

namespace Thinner

theorem array_left {js : List Json} {k : Json} (h : Thinner (.array js) k) :
    ∃ ks, k = .array ks := by
  cases h with
  | self => exact ⟨js, rfl⟩
  | dropItem => exact ⟨_, rfl⟩
  | keepItem => exact ⟨_, rfl⟩

theorem object_left {rows : List (String × Json)} {k : Json} (h : Thinner (.object rows) k) :
    ∃ others, k = .object others := by
  cases h with
  | self => exact ⟨rows, rfl⟩
  | dropRow => exact ⟨_, rfl⟩
  | keepRow => exact ⟨_, rfl⟩

theorem dropped_item {a k : Json} {ks : List Json} (h : a.Thinner (.array ks)) :
    a.Thinner (.array (k :: ks)) := by
  cases h with
  | self => exact .dropItem (.self _)
  | dropItem h => exact .dropItem (.dropItem h)
  | keepItem hj h => exact .dropItem (.keepItem hj h)

theorem dropped_row {a : Json} {row : String × Json} {rows : List (String × Json)}
    (h : a.Thinner (.object rows)) : a.Thinner (.object (row :: rows)) := by
  cases h with
  | self => exact .dropRow (.self _)
  | dropRow h => exact .dropRow (.dropRow h)
  | keepRow hj h => exact .dropRow (.keepRow hj h)

theorem trans {a b c : Json} (hab : a.Thinner b) (hbc : b.Thinner c) : a.Thinner c := by
  induction hbc generalizing a with
  | self => exact hab
  | dropItem _ ih => exact dropped_item (ih hab)
  | keepItem hjk htail ihj ih =>
    cases hab with
    | self => exact .keepItem hjk htail
    | dropItem h => exact dropped_item (ih h)
    | keepItem hj h => exact .keepItem (ihj hj) (ih h)
  | dropRow _ ih => exact dropped_row (ih hab)
  | keepRow hjk htail ihj ih =>
    cases hab with
    | self => exact .keepRow hjk htail
    | dropRow h => exact dropped_row (ih h)
    | keepRow hj h => exact .keepRow (ihj hj) (ih h)

theorem item {js ks : List Json} (h : Thinner (.array js) (.array ks)) {j : Json} (hj : j ∈ js) :
    ∃ k ∈ ks, j.Thinner k := by
  generalize ha : Json.array js = a at h
  generalize hb : Json.array ks = b at h
  induction h generalizing js ks with
  | self =>
    cases ha
    cases hb
    exact ⟨j, hj, .self j⟩
  | dropItem h ih =>
    cases ha
    cases hb
    obtain ⟨k, hk, hjk⟩ := ih hj rfl rfl
    exact ⟨k, List.mem_cons_of_mem _ hk, hjk⟩
  | keepItem hfirst h ihj ih =>
    cases ha
    cases hb
    rcases List.mem_cons.mp hj with rfl | hj
    · exact ⟨_, List.mem_cons_self, hfirst⟩
    · obtain ⟨k, hk, hjk⟩ := ih hj rfl rfl
      exact ⟨k, List.mem_cons_of_mem _ hk, hjk⟩
  | dropRow => cases ha
  | keepRow => cases ha

theorem row {rows others : List (String × Json)} (h : Thinner (.object rows) (.object others))
    {key : String} {j : Json} (hj : (key, j) ∈ rows) : ∃ k, (key, k) ∈ others ∧ j.Thinner k := by
  generalize ha : Json.object rows = a at h
  generalize hb : Json.object others = b at h
  induction h generalizing rows others with
  | self =>
    cases ha
    cases hb
    exact ⟨j, hj, .self j⟩
  | dropItem => cases ha
  | keepItem => cases ha
  | dropRow h ih =>
    cases ha
    cases hb
    obtain ⟨k, hk, hjk⟩ := ih hj rfl rfl
    exact ⟨k, List.mem_cons_of_mem _ hk, hjk⟩
  | keepRow hfirst h ihj ih =>
    cases ha
    cases hb
    rcases List.mem_cons.mp hj with he | hj
    · cases he
      exact ⟨_, List.mem_cons_self, hfirst⟩
    · obtain ⟨k, hk, hjk⟩ := ih hj rfl rfl
      exact ⟨k, List.mem_cons_of_mem _ hk, hjk⟩

theorem keys {rows others : List (String × Json)} (h : Thinner (.object rows) (.object others)) :
    (rows.map Prod.fst).Sublist (others.map Prod.fst) := by
  generalize ha : Json.object rows = a at h
  generalize hb : Json.object others = b at h
  induction h generalizing rows others with
  | self =>
    cases ha
    cases hb
    exact List.Sublist.refl _
  | dropItem => cases ha
  | keepItem => cases ha
  | dropRow h ih =>
    cases ha
    cases hb
    exact .cons _ (ih rfl rfl)
  | keepRow hfirst h ihj ih =>
    cases ha
    cases hb
    exact .cons_cons _ (ih rfl rfl)

/-- What stands in a thinner value is thinner than something in the other one. -/
theorem contains {a b j : Json} (hab : a.Thinner b) (h : a.Contains j) :
    ∃ k, b.Contains k ∧ j.Thinner k := by
  induction h generalizing b with
  | self => exact ⟨b, .self b, hab⟩
  | item hj _ ih =>
    obtain ⟨ks, rfl⟩ := hab.array_left
    obtain ⟨k, hk, hjk⟩ := hab.item hj
    obtain ⟨m, hm, hthin⟩ := ih hjk
    exact ⟨m, .item hk hm, hthin⟩
  | row hrow _ ih =>
    obtain ⟨others, rfl⟩ := hab.object_left
    obtain ⟨k, hk, hjk⟩ := hab.row hrow
    obtain ⟨m, hm, hthin⟩ := ih hjk
    exact ⟨m, .row hk hm, hthin⟩

theorem plain {j k : Json} (h : j.Thinner k) (hk : k.Plain) : j.Plain := by
  intro rows hrows
  obtain ⟨m, hm, hthin⟩ := h.contains hrows
  obtain ⟨others, rfl⟩ := hthin.object_left
  obtain ⟨hnodup, htext⟩ := hk others hm
  refine ⟨hnodup.sublist hthin.keys, fun v hv => ?_⟩
  obtain ⟨w, hw, hvw⟩ := hthin.row hv
  obtain ⟨pointer, rfl⟩ := htext w hw
  cases hvw
  exact ⟨pointer, rfl⟩

/-- Rows written from the same source, thinner ones before thinner ones. -/
theorem rows {β : Type*} {xs : List β} {f g : β → Option (String × Json)}
    {rest others : List (String × Json)}
    (h : ∀ x ∈ xs, ∀ row, f x = some row → ∃ k, g x = some (row.1, k) ∧ row.2.Thinner k)
    (hrest : Thinner (.object rest) (.object others)) :
    Thinner (.object (xs.filterMap f ++ rest)) (.object (xs.filterMap g ++ others)) := by
  induction xs with
  | nil => exact hrest
  | cons x xs ih =>
    have ih := ih fun y hy => h y (List.mem_cons_of_mem x hy)
    rw [List.filterMap_cons, List.filterMap_cons]
    cases hf : f x with
    | none =>
      cases g x with
      | none => exact ih
      | some row => exact dropped_row ih
    | some row =>
      obtain ⟨k, hk, hthin⟩ := h x List.mem_cons_self row hf
      rw [hk]
      exact .keepRow hthin ih

theorem items {β : Type} {xs : List β} {f : β → Option Json} {g : β → Json}
    (h : ∀ x ∈ xs, ∀ j, f x = some j → j.Thinner (g x)) :
    Thinner (.array (xs.filterMap f)) (.array (xs.map g)) := by
  induction xs with
  | nil => exact .self _
  | cons x xs ih =>
    have ih := ih fun y hy => h y (List.mem_cons_of_mem x hy)
    rw [List.filterMap_cons, List.map_cons]
    cases hf : f x with
    | none => exact dropped_item ih
    | some j => exact .keepItem (h x List.mem_cons_self j hf) ih

end Thinner

end Json

/-! ### Records with parts left out -/

section

variable {ρ α : Type} {name : String} {c : Codec α} {r' r : ρ}

def Field.Thins (f : Field ρ) (r' r : ρ) : Prop :=
  ∀ j, f.write r' = some j → ∃ k, f.write r = some k ∧ j.Thinner k

theorem Field.thins_same {f : Field ρ} (h : f.write r' = f.write r) : f.Thins r' r :=
  fun j hj => ⟨j, h ▸ hj, .self j⟩

theorem Field.thins_optional {get : ρ → Option α} {set : ρ → Option α → ρ} {f : α → Option α}
    (hget : get r' = (get r).bind f)
    (h : ∀ x, get r = some x → ∀ x', f x = some x' → (c.encode x').Thinner (c.encode x)) :
    (Field.mk name (.optional c) get set).Thins r' r := by
  intro j hj
  rw [Field.write_mk, hget] at hj
  obtain ⟨x', hx', rfl⟩ := Option.map_eq_some_iff.mp hj
  obtain ⟨x, hx, hf⟩ := Option.bind_eq_some_iff.mp hx'
  exact ⟨c.encode x, by simp [hx], h x hx x' hf⟩

theorem Field.thins_map {get : ρ → Option α} {set : ρ → Option α → ρ} {f : α → α}
    (hget : get r' = (get r).map f)
    (h : ∀ x, get r = some x → (c.encode (f x)).Thinner (c.encode x)) :
    (Field.mk name (.optional c) get set).Thins r' r := by
  apply Field.thins_optional (f := some ∘ f) (hget.trans Option.map_eq_bind)
  intro x hx x' hx'
  cases hx'
  exact h x hx

theorem Codec.thinner_list {xs : List α} {f : α → Option α}
    (h : ∀ x ∈ xs, ∀ x', f x = some x' → (c.encode x').Thinner (c.encode x)) :
    (c.list.encode (xs.filterMap f)).Thinner (c.list.encode xs) := by
  simp only [Codec.list, List.map_filterMap]
  apply Json.Thinner.items
  intro x hx k hk
  obtain ⟨x', hx', rfl⟩ := Option.map_eq_some_iff.mp hk
  exact h x hx x' hx'

theorem Codec.thinner_table {t : Ordered α} {f : String → α → Option α}
    (h : ∀ row ∈ t.entries, ∀ x', f row.1 row.2 = some x' →
      (c.encode x').Thinner (c.encode row.2)) :
    (c.table.encode (t.filterMap f)).Thinner (c.table.encode t) := by
  have hrow : ∀ row ∈ t.entries, ∀ new,
      ((f row.1 row.2).map fun x => (row.1, c.encode x)) = some new →
        ∃ k, some (row.1, c.encode row.2) = some (new.1, k) ∧ new.2.Thinner k := by
    intro row hrow new hnew
    obtain ⟨x, hx, rfl⟩ := Option.map_eq_some_iff.mp hnew
    exact ⟨c.encode row.2, rfl, h row hrow x hx⟩
  have hthin := Json.Thinner.rows hrow (.self (.object []))
  simpa [Codec.table, List.map_filterMap, Option.map_map, Function.comp_def] using hthin

theorem Field.thins_list {get : ρ → List α} {set : ρ → List α → ρ} {f : α → Option α}
    (hget : get r' = (get r).filterMap f)
    (h : ∀ x ∈ get r, ∀ x', f x = some x' → (c.encode x').Thinner (c.encode x)) :
    (Field.mk name (.list c) get set).Thins r' r := by
  intro j hj
  have hne : get r ≠ [] := by
    intro he
    simp [hget, he] at hj
  have hj : c.list.encode (get r') = j := by
    simp only [Field.write_mk, Cell.write_list, Option.ite_none_left_eq_some,
      Option.some.injEq] at hj
    exact hj.2
  refine ⟨c.list.encode (get r), by simp [hne], ?_⟩
  rw [← hj, hget]
  exact Codec.thinner_list h

theorem Field.thins_rows {get : ρ → Ordered α} {set : ρ → Ordered α → ρ}
    {f : String → α → Option α}
    (hget : get r' = (get r).filterMap f)
    (h : ∀ row ∈ (get r).entries, ∀ x', f row.1 row.2 = some x' →
      (c.encode x').Thinner (c.encode row.2)) :
    (Field.mk name (.table c) get set).Thins r' r := by
  intro j hj
  have hne : (get r).entries ≠ [] := by
    intro he
    simp [hget, he, Ordered.isEmpty] at hj
  have hj : c.table.encode (get r') = j := by
    simp only [Field.write_mk, Cell.write_table, Option.ite_none_left_eq_some,
      Option.some.injEq] at hj
    exact hj.2
  refine ⟨c.table.encode (get r), by simp [Ordered.isEmpty, hne], ?_⟩
  rw [← hj, hget]
  exact Codec.thinner_table h

theorem Field.thins_table {get : ρ → Ordered α} {set : ρ → Ordered α → ρ} {f : α → Option α}
    (hget : get r' = (get r).filterMap fun _ => f)
    (h : (get r).All fun x => ∀ x', f x = some x' → (c.encode x').Thinner (c.encode x)) :
    (Field.mk name (.table c) get set).Thins r' r :=
  Field.thins_rows (f := fun _ => f) hget h

theorem Field.thins_filterList {get : ρ → List α} {set : ρ → List α → ρ} {keep : α → Bool}
    (hget : get r' = (get r).filter keep) : (Field.mk name (.list c) get set).Thins r' r := by
  rw [← List.filterMap_eq_filter] at hget
  apply Field.thins_list hget
  intro x _ x' hx'
  cases (Option.guard_eq_some_iff.mp hx').1
  exact .self _

theorem Field.thins_filter {get : ρ → Ordered α} {set : ρ → Ordered α → ρ}
    {keep : String → α → Bool} (hget : get r' = (get r).filter keep) :
    (Field.mk name (.table c) get set).Thins r' r := by
  apply Field.thins_rows (hget.trans (Ordered.filter_eq_filterMap keep _))
  intro row _ x' hx'
  cases h : keep row.1 row.2 <;> simp [h] at hx'
  rw [hx']
  exact .self _

theorem Record.thinner_encode {R : Record ρ} (hfields : ∀ f ∈ R.fields, f.Thins r' r)
    (hrest : Json.Thinner (.object (R.rest.write r')) (.object (R.rest.write r))) :
    (R.encode r').Thinner (R.encode r) := by
  apply Json.Thinner.rows _ hrest
  intro f hf row hrow
  obtain ⟨j, hj, rfl⟩ := Option.map_eq_some_iff.mp hrow
  obtain ⟨k, hk, hthin⟩ := hfields f hf j hj
  exact ⟨k, by rw [hk, Option.map_some], hthin⟩

end

end ApiDoc
