import ApiDoc.Datum

/-!
# Values that can be stored

A value comes back from its own text when its numbers are whole ones of 64 bits and no
object of it writes a key twice. Reading free-form data gives such values.
-/

set_option autoImplicit false

namespace ApiDoc

def JsonNumber.least : Int := -9223372036854775808
def JsonNumber.beyond : Int := 18446744073709551616

namespace Json

mutual
def isWhole : Json → Bool
  | .number (.whole n) => decide (JsonNumber.least ≤ n ∧ n < JsonNumber.beyond)
  | .number (.float _) => false
  | .array items => isWholeItems items
  | .object rows => isWholeRows rows
  | _ => true
def isWholeItems : List Json → Bool
  | [] => true
  | j :: js => isWhole j && isWholeItems js
def isWholeRows : List (String × Json) → Bool
  | [] => true
  | (_, j) :: rows => isWhole j && isWholeRows rows
end

mutual
def isDistinct : Json → Bool
  | .array items => isDistinctItems items
  | .object rows => decide (rows.map Prod.fst).Nodup && isDistinctRows rows
  | _ => true
def isDistinctItems : List Json → Bool
  | [] => true
  | j :: js => isDistinct j && isDistinctItems js
def isDistinctRows : List (String × Json) → Bool
  | [] => true
  | (_, j) :: rows => isDistinct j && isDistinctRows rows
end

@[simp] theorem isWholeItems_eq (js : List Json) : isWholeItems js = js.all isWhole := by
  induction js with
  | nil => rfl
  | cons j js ih => rw [isWholeItems, ih, List.all_cons]

@[simp] theorem isWholeRows_eq (rows : List (String × Json)) :
    isWholeRows rows = rows.all fun row => isWhole row.2 := by
  induction rows with
  | nil => rfl
  | cons row rows ih => rw [isWholeRows, ih, List.all_cons]

@[simp] theorem isDistinctItems_eq (js : List Json) : isDistinctItems js = js.all isDistinct := by
  induction js with
  | nil => rfl
  | cons j js ih => rw [isDistinctItems, ih, List.all_cons]

@[simp] theorem isDistinctRows_eq (rows : List (String × Json)) :
    isDistinctRows rows = rows.all fun row => isDistinct row.2 := by
  induction rows with
  | nil => rfl
  | cons row rows ih => rw [isDistinctRows, ih, List.all_cons]

theorem isWhole_number {n : Int} : (number (.whole n)).isWhole = true ↔
    -9223372036854775808 ≤ n ∧ n < 18446744073709551616 := decide_eq_true_iff

theorem isWhole_array {js : List Json} :
    (array js).isWhole = true ↔ ∀ j ∈ js, j.isWhole = true := by
  rw [isWhole, isWholeItems_eq, List.all_eq_true]

theorem isWhole_object {rows : List (String × Json)} :
    (object rows).isWhole = true ↔ ∀ row ∈ rows, row.2.isWhole = true := by
  rw [isWhole, isWholeRows_eq, List.all_eq_true]

theorem isDistinct_array {js : List Json} :
    (array js).isDistinct = true ↔ ∀ j ∈ js, j.isDistinct = true := by
  rw [isDistinct, isDistinctItems_eq, List.all_eq_true]

theorem isDistinct_object {rows : List (String × Json)} :
    (object rows).isDistinct = true ↔
      (rows.map Prod.fst).Nodup ∧ ∀ row ∈ rows, row.2.isDistinct = true := by
  rw [isDistinct, isDistinctRows_eq, Bool.and_eq_true, decide_eq_true_eq, List.all_eq_true]

theorem heightItems_le {js : List Json} {n : Nat} :
    heightItems js ≤ n ↔ ∀ j ∈ js, j.height ≤ n := by
  induction js with
  | nil => simp [heightItems]
  | cons j js ih => rw [heightItems, Nat.max_le, ih, List.forall_mem_cons]

theorem heightRows_le {rows : List (String × Json)} {n : Nat} :
    heightRows rows ≤ n ↔ ∀ row ∈ rows, row.2.height ≤ n := by
  induction rows with
  | nil => simp [heightRows]
  | cons row rows ih => rw [heightRows, Nat.max_le, ih, List.forall_mem_cons]

theorem height_array_le {js : List Json} {n : Nat} :
    (array js).height ≤ n + 1 ↔ ∀ j ∈ js, j.height ≤ n := by
  rw [height, Nat.add_le_add_iff_right, heightItems_le]

theorem height_object_le {rows : List (String × Json)} {n : Nat} :
    (object rows).height ≤ n + 1 ↔ ∀ row ∈ rows, row.2.height ≤ n := by
  rw [height, Nat.add_le_add_iff_right, heightRows_le]

theorem height_array_pos (js : List Json) : 0 < (array js).height := Nat.succ_pos _

theorem height_object_pos (rows : List (String × Json)) : 0 < (object rows).height :=
  Nat.succ_pos _

theorem height_lt_array {js : List Json} {j : Json} (h : j ∈ js) :
    j.height < (array js).height :=
  Nat.lt_succ_of_le (heightItems_le.mp (Nat.le_refl _) j h)

theorem height_lt_object {rows : List (String × Json)} {row : String × Json} (h : row ∈ rows) :
    row.2.height < (object rows).height :=
  Nat.lt_succ_of_le (heightRows_le.mp (Nat.le_refl _) row h)

structure Clean (n : Nat) (j : Json) : Prop where
  height : j.height ≤ n
  whole : j.isWhole = true
  distinct : j.isDistinct = true

/-! ### Free-form data -/

theorem distinctItems_eq (js : List Json) : distinctItems js = js.map distinct := by
  induction js with
  | nil => rfl
  | cons j js ih => rw [distinctItems, ih, List.map_cons]

theorem distinctRows_eq (rows : List (String × Json)) :
    distinctRows rows = rows.map fun row => (row.1, row.2.distinct) := by
  induction rows with
  | nil => rfl
  | cons row rows ih => rw [distinctRows, ih, List.map_cons]

/-- What holds of the parts of a value passes to the value. -/
theorem induct {P : Json → Prop} (leaf : ∀ j, j.height = 0 → P j)
    (array : ∀ js, (∀ j ∈ js, P j) → P (.array js))
    (object : ∀ rows, (∀ row ∈ rows, P row.2) → P (.object rows)) (j : Json) : P j := by
  suffices h : ∀ n (j : Json), j.height ≤ n → P j from h j.height j (Nat.le_refl _)
  intro n
  induction n with
  | zero => exact fun j hj => leaf j (Nat.le_zero.mp hj)
  | succ n ih =>
    intro j hj
    cases j with
    | array js => exact array js fun k hk => ih k (height_array_le.mp hj k hk)
    | object rows => exact object rows fun row hrow => ih row.2 (height_object_le.mp hj row hrow)
    | _ => exact leaf _ rfl

theorem distinct_leaf {j : Json} (h : j.height = 0) : j.distinct = j := by
  cases j <;> first | rfl | cases h

theorem distinct_of_isDistinct (j : Json) (h : j.isDistinct = true) : j.distinct = j := by
  induction j using induct with
  | leaf j hj => exact distinct_leaf hj
  | array js ih =>
    rw [distinct, distinctItems_eq]
    exact congrArg Json.array ((List.map_congr_left fun j hj =>
      ih j hj (isDistinct_array.mp h j hj)).trans (List.map_id js))
  | object rows ih =>
    obtain ⟨hkeys, hrows⟩ := isDistinct_object.mp h
    have hsame : distinctRows rows = rows := by
      rw [distinctRows_eq]
      exact (List.map_congr_left fun row hrow => by rw [ih row hrow (hrows row hrow)]; rfl).trans
        (List.map_id rows)
    rw [distinct, hsame, Ordered.entries_ofRows hkeys]

/-- What holds of every value holds of the rows that are left. -/
theorem all_rows_distinct {P : Json → Prop} {rows : List (String × Json)}
    (h : ∀ row ∈ rows, P row.2.distinct) :
    ∀ row ∈ (Ordered.ofRows (distinctRows rows)).entries, P row.2 := by
  apply Ordered.all_ofRows
  intro row hrow
  rw [distinctRows_eq] at hrow
  obtain ⟨other, hother, rfl⟩ := List.mem_map.mp hrow
  exact h other hother

/-- Dropping what is written twice leaves a value that comes back as it is. -/
theorem clean_distinct (j : Json) (h : j.isWhole = true) : j.distinct.Clean j.height := by
  induction j using induct with
  | leaf j hj =>
    rw [distinct_leaf hj]
    refine ⟨Nat.le_refl _, h, ?_⟩
    cases j <;> first | rfl | cases hj
  | array js ih =>
    have hclean : ∀ j ∈ distinctItems js, j.Clean (heightItems js) := by
      intro j hj
      rw [distinctItems_eq] at hj
      obtain ⟨k, hk, rfl⟩ := List.mem_map.mp hj
      have hk' := ih k hk (isWhole_array.mp h k hk)
      have hlevel := heightItems_le.mp (Nat.le_refl _) k hk
      exact { hk' with height := Nat.le_trans hk'.height hlevel }
    rw [distinct, height]
    exact ⟨height_array_le.mpr fun j hj => (hclean j hj).height,
      isWhole_array.mpr fun j hj => (hclean j hj).whole,
      isDistinct_array.mpr fun j hj => (hclean j hj).distinct⟩
  | object rows ih =>
    have hclean := all_rows_distinct (P := Clean (heightRows rows)) fun row hrow => by
      have hrow' := ih row hrow (isWhole_object.mp h row hrow)
      have hlevel := heightRows_le.mp (Nat.le_refl _) row hrow
      exact { hrow' with height := Nat.le_trans hrow'.height hlevel }
    rw [distinct, height]
    exact ⟨height_object_le.mpr fun row hrow => (hclean row hrow).height,
      isWhole_object.mpr fun row hrow => (hclean row hrow).whole,
      isDistinct_object.mpr
        ⟨Ordered.distinct_entries _, fun row hrow => (hclean row hrow).distinct⟩⟩

end Json

/-! ### Values as data -/

namespace Datum

theorem heightItems_ofItems {js : List Json} (h : ∀ j ∈ js, (ofJson j).height = j.height) :
    heightItems (ofItems js) = Json.heightItems js := by
  induction js with
  | nil => rfl
  | cons j js ih =>
    obtain ⟨hj, hjs⟩ := List.forall_mem_cons.mp h
    rw [ofItems, heightItems, hj, ih hjs, Json.heightItems]

theorem heightRows_ofRows {rows : List (String × Json)}
    (h : ∀ row ∈ rows, (ofJson row.2).height = row.2.height) :
    heightRows (ofRows rows) = Json.heightRows rows := by
  induction rows with
  | nil => rfl
  | cons row rows ih =>
    obtain ⟨hrow, hrows⟩ := List.forall_mem_cons.mp h
    rw [ofRows, heightRows, hrow, ih hrows, Json.heightRows]
    exact congrArg (max · _) (Nat.zero_max _)

theorem height_ofJson (j : Json) : (ofJson j).height = j.height := by
  induction j using Json.induct with
  | leaf j hj => cases j <;> first | rfl | cases hj
  | array js ih => rw [ofJson, height, heightItems_ofItems ih, Json.height]
  | object rows ih => rw [ofJson, height, heightRows_ofRows ih, Json.height]

theorem settledItems_ofItems {js : List Json}
    (h : ∀ j ∈ js, (ofJson j).settled = some (ofJson j)) :
    settledItems (ofItems js) = some (ofItems js) := by
  induction js with
  | nil => rfl
  | cons j js ih =>
    obtain ⟨hj, hjs⟩ := List.forall_mem_cons.mp h
    rw [ofItems, settledItems, hj, ih hjs]
    rfl

theorem settledRows_ofRows {rows : List (String × Json)}
    (h : ∀ row ∈ rows, (ofJson row.2).settled = some (ofJson row.2)) :
    settledRows (ofRows rows) = some (ofRows rows) := by
  induction rows with
  | nil => rfl
  | cons row rows ih =>
    obtain ⟨hrow, hrows⟩ := List.forall_mem_cons.mp h
    rw [ofRows, settledRows, hrow, ih hrows]
    rfl

/-- A value of JSON has nothing that is still to be settled. -/
theorem settled_ofJson (j : Json) : (ofJson j).settled = some (ofJson j) := by
  induction j using Json.induct with
  | leaf j hj => cases j <;> first | rfl | cases hj
  | array js ih => rw [ofJson, settled, settledItems_ofItems ih, Option.map_some]
  | object rows ih => rw [ofJson, settled, settledRows_ofRows ih, Option.map_some]

theorem jsonItems_ofItems {js : List Json}
    (h : ∀ j ∈ js, (ofJson j).json? = some j.distinct) :
    jsonItems (ofItems js) = some (Json.distinctItems js) := by
  induction js with
  | nil => rfl
  | cons j js ih =>
    obtain ⟨hj, hjs⟩ := List.forall_mem_cons.mp h
    rw [ofItems, jsonItems, hj, ih hjs]
    rfl

theorem jsonRows_ofRows {rows : List (String × Json)}
    (h : ∀ row ∈ rows, (ofJson row.2).json? = some row.2.distinct) :
    jsonRows (ofRows rows) = some (Json.distinctRows rows) := by
  induction rows with
  | nil => rfl
  | cons row rows ih =>
    obtain ⟨hrow, hrows⟩ := List.forall_mem_cons.mp h
    rw [ofRows, jsonRows, hrow, ih hrows]
    rfl

theorem json?_ofJson (j : Json) (h : j.isWhole = true) :
    (ofJson j).json? = some j.distinct := by
  induction j using Json.induct with
  | leaf j hj =>
    cases j with
    | number x => cases x <;> first | rfl | cases h
    | array _ | object _ => cases hj
    | _ => rfl
  | array js ih =>
    rw [ofJson, json?, jsonItems_ofItems fun j hj => ih j hj (Json.isWhole_array.mp h j hj),
      Option.map_some, Json.distinct]
  | object rows ih =>
    rw [ofJson, json?, jsonRows_ofRows fun row hrow =>
      ih row hrow (Json.isWhole_object.mp h row hrow), Option.map_some, Json.distinct]

end Datum

end ApiDoc
