/-!
# Tables that remember the order of insertion

A document keeps its paths, components and properties in the order in which
they were first written, each key once. Writing a key again keeps its place
and takes the new value; `putNew` is the other policy, under which the first
writer wins.
-/

set_option autoImplicit false

namespace ApiDoc

/-- One value for each key. The keys are an index and no part of the rows: a table stands
inside the type of its own values, and there its laws may speak of keys alone. -/
inductive Ordered.Rows (α : Type) : List String → Type where
  | nil : Rows α []
  | cons {key : String} {keys : List String} (value : α) (rest : Rows α keys) :
      Rows α (key :: keys)

namespace Ordered.Rows

variable {α β : Type}

def toList : {keys : List String} → Rows α keys → List (String × α)
  | _, .nil => []
  | key :: _, .cons value rest => (key, value) :: rest.toList

def ofList : (rows : List (String × α)) → Rows α (rows.map Prod.fst)
  | [] => .nil
  | row :: rows => .cons row.2 (ofList rows)

def map (f : α → β) : {keys : List String} → Rows α keys → Rows β keys
  | _, .nil => .nil
  | _, .cons value rest => .cons (f value) (rest.map f)

def mapM {m : Type → Type} [Monad m] (f : String → α → m β) :
    {keys : List String} → Rows α keys → m (Rows β keys)
  | _, .nil => pure .nil
  | key :: _, .cons value rest => do
    let value ← f key value
    let rest ← rest.mapM f
    pure (.cons value rest)

theorem map_fst_toList {keys : List String} (rows : Rows α keys) :
    rows.toList.map Prod.fst = keys := by
  induction rows with
  | nil => rfl
  | cons value rest ih => rw [toList, List.map_cons, ih]

theorem toList_ofList (rows : List (String × α)) : (ofList rows).toList = rows := by
  induction rows with
  | nil => rfl
  | cons row rows ih => exact congrArg (row :: ·) ih

theorem toList_map (f : α → β) {keys : List String} (rows : Rows α keys) :
    (rows.map f).toList = rows.toList.map fun row => (row.1, f row.2) := by
  induction rows with
  | nil => rfl
  | cons value rest ih => rw [map, toList, toList, ih, List.map_cons]

theorem eq_of_toList_eq {keys : List String} {rows others : Rows α keys}
    (h : rows.toList = others.toList) : rows = others := by
  induction rows with
  | nil =>
    cases others with
    | nil => rfl
  | cons value rest ih =>
    cases others with
    | cons other left =>
      obtain ⟨hvalue, hrest⟩ := List.cons.inj h
      rw [(Prod.mk.inj hvalue).2, ih hrest]

end Ordered.Rows

structure Ordered (α : Type) where
  keys : List String
  rows : Ordered.Rows α keys
  distinct : keys.Nodup

namespace Ordered

variable {α β : Type}

instance : EmptyCollection (Ordered α) := ⟨⟨[], .nil, List.nodup_nil⟩⟩

instance : Inhabited (Ordered α) := ⟨{}⟩

def ofDistinct (rows : List (String × α)) (distinct : (rows.map Prod.fst).Nodup) : Ordered α :=
  ⟨rows.map Prod.fst, .ofList rows, distinct⟩

def entries (m : Ordered α) : List (String × α) := m.rows.toList

theorem map_fst_entries (m : Ordered α) : m.entries.map Prod.fst = m.keys :=
  m.rows.map_fst_toList

theorem mem_keys_of_mem {m : Ordered α} {row : String × α} (h : row ∈ m.entries) :
    row.1 ∈ m.keys :=
  m.map_fst_entries ▸ List.mem_map_of_mem h

theorem exists_mem_of_mem_keys {m : Ordered α} {key : String} (h : key ∈ m.keys) :
    ∃ row ∈ m.entries, row.1 = key :=
  List.mem_map.mp (m.map_fst_entries.symm ▸ h)

theorem distinct_entries (m : Ordered α) : (m.entries.map Prod.fst).Nodup := by
  rw [map_fst_entries]
  exact m.distinct

@[simp] theorem entries_ofDistinct {rows : List (String × α)} (h : (rows.map Prod.fst).Nodup) :
    (ofDistinct rows h).entries = rows :=
  Rows.toList_ofList rows

@[simp] theorem entries_empty : ({} : Ordered α).entries = [] := rfl

@[ext] theorem ext {m n : Ordered α} (h : m.entries = n.entries) : m = n := by
  have hkeys : m.keys = n.keys := by rw [← map_fst_entries, h, map_fst_entries]
  obtain ⟨keys, rows, hm⟩ := m
  obtain ⟨others, cells, hn⟩ := n
  obtain rfl : keys = others := hkeys
  obtain rfl : rows = cells := Rows.eq_of_toList_eq h
  rfl

def isEmpty (m : Ordered α) : Bool := m.entries.isEmpty

def size (m : Ordered α) : Nat := m.entries.length

def values (m : Ordered α) : List α := m.entries.map Prod.snd

def get? (m : Ordered α) (key : String) : Option α := m.entries.lookup key

def contains (m : Ordered α) (key : String) : Bool := (m.get? key).isSome

theorem mem_keys_iff (m : Ordered α) (key : String) :
    key ∈ m.keys ↔ ∃ value, m.get? key = some value := by
  rw [← map_fst_entries, get?]
  induction m.entries with
  | nil => simp
  | cons row rows ih =>
    rw [List.map_cons, List.mem_cons, List.lookup_cons, ih]
    by_cases h : key = row.1
    · simp [h]
    · simp [h, beq_false_of_ne h]

theorem contains_iff (m : Ordered α) (key : String) : m.contains key = true ↔ key ∈ m.keys := by
  rw [contains, Option.isSome_iff_exists, mem_keys_iff]

def putRow (key : String) (value : α) : List (String × α) → List (String × α)
  | [] => [(key, value)]
  | (k, v) :: rows => if k = key then (k, value) :: rows else (k, v) :: putRow key value rows

theorem map_fst_putRow (key : String) (value : α) (rows : List (String × α)) :
    (putRow key value rows).map Prod.fst =
      if key ∈ rows.map Prod.fst then rows.map Prod.fst else rows.map Prod.fst ++ [key] := by
  induction rows with
  | nil => simp [putRow]
  | cons row rows ih =>
    obtain ⟨k, v⟩ := row
    by_cases h : k = key
    · simp [putRow, h]
    · have h' : key ≠ k := fun e => h e.symm
      by_cases hm : key ∈ rows.map Prod.fst
      · simp only [putRow, h, ↓reduceIte, List.map_cons, ih, hm, List.mem_cons, or_true]
      · simp only [putRow, h, ↓reduceIte, List.map_cons, ih, hm, List.mem_cons, h', or_self,
          List.cons_append]

theorem nodup_concat {keys : List String} (h : keys.Nodup) {key : String} (hk : key ∉ keys) :
    (keys ++ [key]).Nodup :=
  List.nodup_append.mpr ⟨h, by simp, fun a ha b hb => by
    rw [List.mem_singleton.mp hb]
    exact fun e => hk (e ▸ ha)⟩

theorem distinct_putRow (m : Ordered α) (key : String) (value : α) :
    ((putRow key value m.entries).map Prod.fst).Nodup := by
  rw [map_fst_putRow, map_fst_entries]
  split
  · exact m.distinct
  · exact nodup_concat m.distinct ‹_›

theorem distinct_concat (m : Ordered α) {key : String} (h : ¬m.contains key = true) (value : α) :
    ((m.entries ++ [(key, value)]).map Prod.fst).Nodup := by
  rw [List.map_append, map_fst_entries]
  exact nodup_concat m.distinct fun hk => h ((m.contains_iff key).mpr hk)

theorem distinct_filterMap (m : Ordered α) (f : String × α → Option β) :
    ((m.entries.filterMap fun row => (f row).map fun b => (row.1, b)).map Prod.fst).Nodup := by
  refine List.Nodup.sublist ?_ m.distinct_entries
  induction m.entries with
  | nil => exact List.nil_sublist _
  | cons row rows ih =>
    rw [List.filterMap_cons, List.map_cons]
    cases f row with
    | none => exact ih.cons row.1
    | some b => exact ih.cons_cons row.1

def put (m : Ordered α) (key : String) (value : α) : Ordered α :=
  ofDistinct (putRow key value m.entries) (m.distinct_putRow key value)

def putNew (m : Ordered α) (key : String) (value : α) : Ordered α :=
  if h : m.contains key then m
  else ofDistinct (m.entries ++ [(key, value)]) (m.distinct_concat h value)

def putAll (m : Ordered α) (rows : List (String × α)) : Ordered α :=
  rows.foldl (fun m row => m.put row.1 row.2) m

def ofRows (rows : List (String × α)) : Ordered α := putAll {} rows

def filterMap (f : String → α → Option β) (m : Ordered α) : Ordered β :=
  ofDistinct (m.entries.filterMap fun row => (f row.1 row.2).map fun b => (row.1, b))
    (m.distinct_filterMap fun row => f row.1 row.2)

def filter (m : Ordered α) (keep : String → α → Bool) : Ordered α :=
  ofDistinct (m.entries.filter fun row => keep row.1 row.2)
    (m.distinct_entries.sublist (List.filter_sublist.map Prod.fst))

def erase (m : Ordered α) (key : String) : Ordered α := m.filter fun k _ => k ≠ key

def mapValues (f : α → β) (m : Ordered α) : Ordered β := ⟨m.keys, m.rows.map f, m.distinct⟩

def mapM {m : Type → Type} [Monad m] (f : String → α → m β) (t : Ordered α) : m (Ordered β) := do
  let rows ← t.rows.mapM f
  pure ⟨t.keys, rows, t.distinct⟩

@[simp] theorem entries_put (m : Ordered α) (key : String) (value : α) :
    (m.put key value).entries = putRow key value m.entries :=
  entries_ofDistinct _

@[simp] theorem entries_putNew (m : Ordered α) (key : String) (value : α) :
    (m.putNew key value).entries =
      if m.contains key then m.entries else m.entries ++ [(key, value)] := by
  unfold putNew
  split
  · rfl
  · exact entries_ofDistinct _

@[simp] theorem entries_filterMap (f : String → α → Option β) (m : Ordered α) :
    (m.filterMap f).entries =
      m.entries.filterMap fun row => (f row.1 row.2).map fun b => (row.1, b) :=
  entries_ofDistinct _

@[simp] theorem entries_filter (m : Ordered α) (keep : String → α → Bool) :
    (m.filter keep).entries = m.entries.filter fun row => keep row.1 row.2 :=
  entries_ofDistinct _

@[simp] theorem entries_mapValues (f : α → β) (m : Ordered α) :
    (m.mapValues f).entries = m.entries.map fun row => (row.1, f row.2) :=
  m.rows.toList_map f

theorem lookup_putRow_self (key : String) (value : α) (rows : List (String × α)) :
    (putRow key value rows).lookup key = some value := by
  induction rows with
  | nil => simp [putRow]
  | cons row rows ih =>
    obtain ⟨k, v⟩ := row
    by_cases h : k = key
    · simp [putRow, h]
    · have h' : (key == k) = false := by simpa using fun e => h e.symm
      simp [putRow, h, List.lookup_cons, h', ih]

theorem lookup_putRow_ne {key other : String} (ne : other ≠ key) (value : α)
    (rows : List (String × α)) :
    (putRow key value rows).lookup other = rows.lookup other := by
  induction rows with
  | nil => simp [putRow, List.lookup_cons, beq_false_of_ne ne]
  | cons row rows ih =>
    obtain ⟨k, v⟩ := row
    by_cases h : k = key
    · subst h
      simp [putRow, List.lookup_cons, beq_false_of_ne ne]
    · simp [putRow, h, List.lookup_cons, ih]

theorem get?_put_self (m : Ordered α) (key : String) (value : α) :
    (m.put key value).get? key = some value := by
  rw [get?, entries_put]
  exact lookup_putRow_self key value m.entries

theorem get?_put_ne (m : Ordered α) {key other : String} (ne : other ≠ key) (value : α) :
    (m.put key value).get? other = m.get? other := by
  rw [get?, entries_put]
  exact lookup_putRow_ne ne value m.entries

theorem putRow_of_lookup_eq_none (key : String) (value : α) {rows : List (String × α)}
    (h : rows.lookup key = none) : putRow key value rows = rows ++ [(key, value)] := by
  induction rows with
  | nil => rfl
  | cons row rows ih =>
    obtain ⟨k, v⟩ := row
    have hk : ¬ k = key := fun e => by simp [e] at h
    have hr : rows.lookup key = none := by
      rwa [List.lookup_cons, beq_false_of_ne fun e => hk e.symm] at h
    simp [putRow, hk, ih hr]

/-- The row of a key is replaced where it stands. -/
theorem putRow_of_lookup_eq_some {key : String} (value : α) {old : α} {rows : List (String × α)}
    (h : rows.lookup key = some old) :
    ∃ before after, rows = before ++ (key, old) :: after ∧
      putRow key value rows = before ++ (key, value) :: after := by
  induction rows with
  | nil => cases h
  | cons row rows ih =>
    obtain ⟨k, v⟩ := row
    by_cases hk : k = key
    · subst hk
      have hv : v = old := by simpa using h
      exact ⟨[], rows, by simp [hv], by simp [putRow]⟩
    · rw [List.lookup_cons, beq_false_of_ne fun e => hk e.symm] at h
      obtain ⟨before, after, hrows, hput⟩ := ih h
      exact ⟨(k, v) :: before, after, by simp [hrows], by simp [putRow, hk, hput]⟩

theorem keys_put (m : Ordered α) (key : String) (value : α) :
    (m.put key value).keys = if key ∈ m.keys then m.keys else m.keys ++ [key] := by
  rw [← map_fst_entries, entries_put, map_fst_putRow, map_fst_entries]

theorem prefix_keys_put (m : Ordered α) (key : String) (value : α) :
    m.keys <+: (m.put key value).keys := by
  rw [keys_put]
  split
  · exact List.prefix_refl _
  · exact List.prefix_append _ _

theorem prefix_keys_putAll (m : Ordered α) (rows : List (String × α)) :
    m.keys <+: (m.putAll rows).keys := by
  induction rows generalizing m with
  | nil => exact List.prefix_refl _
  | cons row rows ih => exact (m.prefix_keys_put row.1 row.2).trans (ih (m.put row.1 row.2))

theorem mem_of_lookup {rows : List (String × α)} {key : String} {value : α}
    (h : rows.lookup key = some value) : (key, value) ∈ rows := by
  obtain ⟨before, after, hrows, -⟩ := List.lookup_eq_some_iff.mp h
  simp [hrows]

theorem mem_of_get? (m : Ordered α) {key : String} {value : α} (h : m.get? key = some value) :
    (key, value) ∈ m.entries :=
  mem_of_lookup h

theorem lookup_of_mem {rows : List (String × α)} (hn : (rows.map Prod.fst).Nodup) {key : String}
    {value : α} (h : (key, value) ∈ rows) : rows.lookup key = some value := by
  induction rows with
  | nil => cases h
  | cons row rows ih =>
    rw [List.map_cons, List.nodup_cons] at hn
    rcases List.mem_cons.mp h with rfl | h
    · simp
    · have hne : key ≠ row.1 := fun e => hn.1 (e ▸ List.mem_map_of_mem h)
      rw [List.lookup_cons, beq_false_of_ne hne]
      exact ih hn.2 h

theorem get?_of_mem (m : Ordered α) {key : String} {value : α} (h : (key, value) ∈ m.entries) :
    m.get? key = some value :=
  lookup_of_mem m.distinct_entries h

theorem mem_of_get?_putAll (m : Ordered α) (rows : List (String × α)) {key : String} {value : α}
    (h : (m.putAll rows).get? key = some value) :
    m.get? key = some value ∨ (key, value) ∈ rows := by
  induction rows generalizing m with
  | nil => exact Or.inl h
  | cons row rows ih =>
    rcases ih (m.put row.1 row.2) h with hm | hr
    · by_cases he : key = row.1
      · subst he
        rw [get?_put_self] at hm
        exact Or.inr (by simp [← Option.some.inj hm])
      · rw [get?_put_ne m he] at hm
        exact Or.inl hm
    · exact Or.inr (List.mem_cons_of_mem row hr)

/-- Of a key that is written several times the last value is kept. -/
theorem get?_putAll (m : Ordered α) (rows : List (String × α)) (key : String) :
    (m.putAll rows).get? key = (rows.reverse.lookup key).or (m.get? key) := by
  induction rows generalizing m with
  | nil => simp [putAll]
  | cons row rows ih =>
    obtain ⟨k, v⟩ := row
    rw [putAll, List.foldl_cons, ← putAll, ih, List.reverse_cons, List.lookup_append,
      Option.or_assoc]
    congr 1
    by_cases hk : key = k
    · subst hk
      simp [get?_put_self]
    · simp [get?_put_ne m hk, List.lookup_cons, beq_false_of_ne hk]

theorem get?_ofRows (rows : List (String × α)) (key : String) :
    (ofRows rows).get? key = rows.reverse.lookup key := by
  rw [ofRows, get?_putAll]
  simp [get?]

theorem lookup_map (f : α → β) (rows : List (String × α)) (key : String) :
    (rows.map fun row => (row.1, f row.2)).lookup key = (rows.lookup key).map f := by
  induction rows with
  | nil => rfl
  | cons row rows ih =>
    rw [List.map_cons, List.lookup_cons, List.lookup_cons, ih]
    cases key == row.1 <;> rfl

theorem get?_mapValues (f : α → β) (m : Ordered α) (key : String) :
    (m.mapValues f).get? key = (m.get? key).map f := by
  rw [get?, get?, entries_mapValues, lookup_map]

theorem mapValues_id (m : Ordered α) : m.mapValues id = m :=
  ext ((entries_mapValues id m).trans (List.map_id m.entries))

theorem mapValues_mapValues {γ : Type} (g : β → γ) (f : α → β) (m : Ordered α) :
    (m.mapValues f).mapValues g = m.mapValues (g ∘ f) := by
  ext1
  simp only [entries_mapValues, List.map_map, Function.comp_def]

theorem putRow_putRow_self (key : String) (old value : α) (rows : List (String × α)) :
    putRow key value (putRow key old rows) = putRow key value rows := by
  induction rows with
  | nil => simp [putRow]
  | cons row rows ih =>
    obtain ⟨k, v⟩ := row
    by_cases h : k = key
    · simp [putRow, h]
    · simp [putRow, h, ih]

theorem mem_filter {m : Ordered α} {keep : String → α → Bool} {row : String × α} :
    row ∈ (m.filter keep).entries ↔ row ∈ m.entries ∧ keep row.1 row.2 = true := by
  rw [entries_filter, List.mem_filter]

theorem get?_filter {m : Ordered α} {keep : String → α → Bool} {key : String} {value : α}
    (h : m.get? key = some value) (hk : keep key value = true) :
    (m.filter keep).get? key = some value :=
  (m.filter keep).get?_of_mem (mem_filter.mpr ⟨m.mem_of_get? h, hk⟩)

theorem filter_filter (keep also : String → α → Bool) (m : Ordered α) :
    (m.filter keep).filter also = m.filter fun key a => keep key a && also key a := by
  ext1
  simp only [entries_filter, List.filter_filter, Bool.and_comm]

theorem filter_eq_filterMap (keep : String → α → Bool) (m : Ordered α) :
    m.filter keep = m.filterMap fun key a => if keep key a then some a else none := by
  ext1
  rw [entries_filter, entries_filterMap, ← List.filterMap_eq_filter]
  congr 1
  funext row
  cases h : keep row.1 row.2 <;> simp [Option.guard, h]

theorem filterMap_some (f : α → β) (m : Ordered α) :
    m.filterMap (fun _ a => some (f a)) = m.mapValues f := by
  ext1
  simp only [entries_filterMap, entries_mapValues, Option.map_some, List.filterMap_eq_map']

theorem filterMap_mapValues (m : Ordered α) :
    ((m.mapValues some).filterMap fun _ a => a) = m := by
  ext1
  rw [entries_filterMap, entries_mapValues, List.filterMap_map]
  exact List.filterMap_some

/-- A key that is already there keeps its place whatever is written in between. -/
theorem putRow_comm {key other : String} (ne : other ≠ key) (value new : α)
    {rows : List (String × α)} (h : key ∈ rows.map Prod.fst) :
    putRow key value (putRow other new rows) = putRow other new (putRow key value rows) := by
  induction rows with
  | nil => simp at h
  | cons row rows ih =>
    obtain ⟨k, v⟩ := row
    by_cases hk : k = key
    · subst hk
      simp [putRow, ne.symm]
    · have hrows : key ∈ rows.map Prod.fst :=
        (List.mem_cons.mp h).resolve_left fun e => hk e.symm
      by_cases ho : k = other
      · simp [putRow, ho, ne]
      · simp [putRow, hk, ho, ih hrows]

theorem put_putAll {m : Ordered α} {key : String} (hm : key ∈ m.keys) {rows : List (String × α)}
    (hr : key ∉ rows.map Prod.fst) (value : α) :
    (m.putAll rows).put key value = (m.put key value).putAll rows := by
  induction rows generalizing m with
  | nil => rfl
  | cons row rows ih =>
    simp only [List.map_cons, List.mem_cons, not_or] at hr
    have hkey : key ∈ (m.put row.1 row.2).keys := (m.prefix_keys_put row.1 row.2).subset hm
    have hcomm : (m.put row.1 row.2).put key value = (m.put key value).put row.1 row.2 := by
      ext1
      rw [← map_fst_entries] at hm
      simp only [entries_put, putRow_comm (fun e => hr.1 e.symm) value row.2 hm]
    show ((m.put row.1 row.2).putAll rows).put key value =
      ((m.put key value).put row.1 row.2).putAll rows
    rw [ih hkey hr.2, hcomm]

/-- Rows may be collected in a table of their own before they are written, as long as each
key stands there once. -/
theorem putAll_putRow (m : Ordered α) (key : String) (value : α) {rows : List (String × α)}
    (h : (rows.map Prod.fst).Nodup) :
    m.putAll (putRow key value rows) = (m.putAll rows).put key value := by
  induction rows generalizing m with
  | nil => rfl
  | cons row rows ih =>
    obtain ⟨k, v⟩ := row
    rw [List.map_cons, List.nodup_cons] at h
    by_cases hk : k = key
    · subst hk
      have hmem : k ∈ (m.put k v).keys := by
        rw [keys_put]
        split <;> simp_all
      have hself : (m.put k v).put k value = m.put k value := by
        ext1
        simp only [entries_put, putRow_putRow_self]
      rw [putRow, if_pos rfl]
      show (m.put k value).putAll rows = ((m.put k v).putAll rows).put k value
      rw [put_putAll hmem h.1, hself]
    · rw [putRow, if_neg hk]
      exact ih (m.put k v) h.2

theorem putAll_put (m n : Ordered α) (key : String) (value : α) :
    m.putAll (n.put key value).entries = (m.putAll n.entries).put key value := by
  rw [entries_put]
  exact m.putAll_putRow key value n.distinct_entries

theorem putAll_putAll (m n : Ordered α) (rows : List (String × α)) :
    m.putAll (n.putAll rows).entries = (m.putAll n.entries).putAll rows := by
  induction rows generalizing n with
  | nil => rfl
  | cons row rows ih =>
    show m.putAll ((n.put row.1 row.2).putAll rows).entries =
      ((m.putAll n.entries).put row.1 row.2).putAll rows
    rw [ih, putAll_put]

/-- Rows under keys that are all new are added as they are. -/
theorem entries_putAll {m : Ordered α} {rows : List (String × α)}
    (h : (m.keys ++ rows.map Prod.fst).Nodup) : (m.putAll rows).entries = m.entries ++ rows := by
  induction rows generalizing m with
  | nil => exact (List.append_nil _).symm
  | cons row rows ih =>
    have hnew : row.1 ∉ m.keys := fun hmem =>
      (List.nodup_append.mp h).2.2 row.1 hmem row.1 (by simp) rfl
    have hnone : m.entries.lookup row.1 = none :=
      Option.eq_none_iff_forall_ne_some.mpr fun v hv => hnew ((m.mem_keys_iff row.1).mpr ⟨v, hv⟩)
    have hput : (m.put row.1 row.2).entries = m.entries ++ [row] :=
      (entries_put m row.1 row.2).trans (putRow_of_lookup_eq_none row.1 row.2 hnone)
    have hkeys : (m.put row.1 row.2).keys = m.keys ++ [row.1] := by
      rw [keys_put, if_neg hnew]
    have hrest := ih (m := m.put row.1 row.2) (by simpa [hkeys] using h)
    rw [hput, List.append_assoc, List.singleton_append] at hrest
    exact hrest

theorem entries_singleton (key : String) (value : α) :
    (ofRows [(key, value)]).entries = [(key, value)] := rfl

theorem entries_ofRows {rows : List (String × α)} (h : (rows.map Prod.fst).Nodup) :
    (ofRows rows).entries = rows :=
  entries_putAll (m := {}) h

theorem ofRows_entries (t : Ordered α) : ofRows t.entries = t :=
  ext (entries_ofRows t.distinct_entries)

theorem get?_putAll_entries (m t : Ordered α) (key : String) :
    (m.putAll t.entries).get? key = (t.get? key).or (m.get? key) := by
  rw [get?_putAll, ← get?_ofRows, ofRows_entries]

theorem isEmpty_put (m : Ordered α) (key : String) (value : α) :
    (m.put key value).isEmpty = false := by
  rw [isEmpty, entries_put]
  cases m.entries with
  | nil => rfl
  | cons row rows =>
    unfold putRow
    split <;> rfl

theorem isEmpty_putAll (m : Ordered α) (rows : List (String × α)) :
    (m.putAll rows).isEmpty = (m.isEmpty && rows.isEmpty) := by
  induction rows generalizing m with
  | nil => exact (Bool.and_true _).symm
  | cons row rows ih =>
    have hrest := ih (m.put row.1 row.2)
    rw [isEmpty_put, Bool.false_and] at hrest
    rw [List.isEmpty_cons, Bool.and_false]
    exact hrest

theorem isEmpty_ofRows (rows : List (String × α)) : (ofRows rows).isEmpty = rows.isEmpty :=
  isEmpty_putAll {} rows

/-- New keys follow in order of first occurrence. -/
theorem keys_putAll (m : Ordered α) (rows : List (String × α)) :
    (m.putAll rows).keys = m.keys ++ ((rows.map Prod.fst).removeAll m.keys).eraseDups := by
  induction rows generalizing m with
  | nil => exact (List.append_nil _).symm
  | cons row rows ih =>
    have hrest : (m.putAll (row :: rows)).keys = _ := ih (m.put row.1 row.2)
    rw [hrest, keys_put, List.map_cons]
    by_cases hk : row.1 ∈ m.keys
    · have hskip : (row.1 :: rows.map Prod.fst).removeAll m.keys =
          (rows.map Prod.fst).removeAll m.keys := by
        simp [List.removeAll, hk]
      rw [if_pos hk, hskip]
    · have hkeep : (row.1 :: rows.map Prod.fst).removeAll m.keys =
          row.1 :: (rows.map Prod.fst).removeAll m.keys := by
        simp [List.removeAll, hk]
      have hboth : (rows.map Prod.fst).removeAll (m.keys ++ [row.1]) =
          ((rows.map Prod.fst).removeAll m.keys).filter fun b => !b == row.1 := by
        simp only [List.removeAll, List.filter_filter]
        refine List.filter_congr fun key _ => Bool.eq_iff_iff.mpr ?_
        simp [and_comm]
      rw [if_neg hk, hkeep, hboth, List.eraseDups_cons, List.append_assoc, List.singleton_append]

theorem mem_keys_putAll (m : Ordered α) (rows : List (String × α)) {key : String} :
    key ∈ (m.putAll rows).keys ↔ key ∈ m.keys ∨ key ∈ rows.map Prod.fst := by
  rw [keys_putAll, List.mem_append, List.mem_eraseDups, List.removeAll, List.mem_filter]
  by_cases hk : key ∈ m.keys <;> simp [hk]

theorem keys_ofRows (rows : List (String × α)) :
    (ofRows rows).keys = (rows.map Prod.fst).eraseDups := by
  have hnone : (rows.map Prod.fst).removeAll ([] : List String) = rows.map Prod.fst := by
    simp [List.removeAll]
  have h := keys_putAll ({} : Ordered α) rows
  rwa [show ({} : Ordered α).keys = [] from rfl, hnone, List.nil_append] at h

theorem keys_ofRows_subset (rows : List (String × α)) {key : String}
    (h : key ∈ (ofRows rows).keys) : key ∈ rows.map Prod.fst := by
  rw [keys_ofRows] at h
  exact List.mem_eraseDups.mp h

theorem get?_putNew (m : Ordered α) (key : String) (value : α) (other : String) :
    (m.putNew key value).get? other =
      (m.get? other).or (if other = key then some value else none) := by
  unfold putNew
  split
  · rename_i hc
    by_cases he : other = key
    · obtain ⟨old, hold⟩ := Option.isSome_iff_exists.mp hc
      simp [he, hold]
    · simp [he]
  · simp only [get?, entries_ofDistinct, List.lookup_append]
    by_cases he : other = key
    · simp [he]
    · simp [he, List.lookup_cons, beq_false_of_ne he]

def All (P : α → Prop) (m : Ordered α) : Prop := ∀ row ∈ m.entries, P row.2

theorem mapValues_eq_self {f : α → α} {m : Ordered α} (h : m.All fun a => f a = a) :
    m.mapValues f = m := by
  ext1
  rw [entries_mapValues]
  exact (List.map_congr_left fun row hrow => by rw [h row hrow, id]).trans m.entries.map_id

theorem all_empty (P : α → Prop) : ({} : Ordered α).All P :=
  List.forall_mem_nil _

theorem All.put {P : α → Prop} {m : Ordered α} (h : m.All P) (key : String) {value : α}
    (hv : P value) : (m.put key value).All P := by
  unfold All at h ⊢
  rw [entries_put]
  generalize m.entries = rows at h
  induction rows with
  | nil => simpa [putRow] using hv
  | cons row rows ih =>
    obtain ⟨hrow, hrows⟩ := List.forall_mem_cons.mp h
    unfold putRow
    split
    · exact List.forall_mem_cons.mpr ⟨hv, hrows⟩
    · exact List.forall_mem_cons.mpr ⟨hrow, ih hrows⟩

theorem All.putAll {P : α → Prop} {m : Ordered α} (h : m.All P) {rows : List (String × α)}
    (hr : ∀ row ∈ rows, P row.2) : (m.putAll rows).All P := by
  induction rows generalizing m with
  | nil => exact h
  | cons row rows ih =>
    obtain ⟨hrow, hrows⟩ := List.forall_mem_cons.mp hr
    exact ih (h.put row.1 hrow) hrows

theorem all_ofRows {P : α → Prop} {rows : List (String × α)} (h : ∀ row ∈ rows, P row.2) :
    (ofRows rows).All P := (all_empty P).putAll h

end Ordered

end ApiDoc
