import ApiDoc.Proofs.Codec

/-!
# What comes back through a record

A field is lawful if what it writes comes back at its place in the record, and the record
keeps its property when the field is read. A record with lawful fields and a lawful rest
comes back, for it is put together by them.
-/

set_option autoImplicit false

namespace ApiDoc

def Field.Filled (n : Nat) (j : Json) : Prop := j ≠ .null ∧ j.Clean n

/-! ### Cells -/

namespace Cell

variable {α : Type} {limit least n : Nat}

/-- What is written of `a` is read as `b`, which is the value that is left out if nothing
is written. -/
inductive Restores (limit n : Nat) (cell : Cell α) (a b left : α) : Prop
  | absent (hwrite : cell.write a = none) (hb : b = left)
  | written {j : Json} (hwrite : cell.write a = some j) (height : j.height ≤ n)
    (whole : j.isWhole = true) (back : j.height < limit → cell.read (.ofJson j) = some b)

theorem Restores.of_write {cell : Cell α} {a b left : α} {j : Json}
    (h : cell.Restores limit n a b left) (hj : cell.write a = some j) :
    j.height ≤ n ∧ j.isWhole = true := by
  cases h with
  | absent hwrite =>
    rw [hwrite] at hj
    cases hj
  | written hwrite height whole =>
    rw [hwrite] at hj
    cases hj
    exact ⟨height, whole⟩

structure Law (limit least : Nat) (cell : Cell α) (P : Nat → α → Prop) (f : α → α) (left : α) :
    Prop where
  restores : ∀ {n a}, P n a → cell.Restores limit n a (f a) left
  reads : ∀ {j a n}, j.isWhole = true → j.height ≤ n → least ≤ n →
    cell.read (.ofJson j) = some a → P n a

variable {c : Codec α} {P : Nat → α → Prop} {f : α → α} {left : α}

theorem Law.always (h : c.Returns limit least P f) : (Cell.always c).Law limit least P f left where
  restores ha := .written rfl (h.restores ha).height (h.restores ha).whole (h.restores ha).back
  reads := h.reads

theorem isPresent_ofJson {j : Json} (h : j ≠ .null) :
    (Datum.ofJson j).isPresent? = some true := by
  cases j <;> first | rfl | exact absurd rfl h

theorem restores_optional {v : Option α}
    (h : ∀ a ∈ v, c.Restores limit n a (f a) ∧ c.encode a ≠ .null) :
    (optional c).Restores limit n v (v.map f) none := by
  cases v with
  | none => exact .absent rfl rfl
  | some a =>
    obtain ⟨hback, hpresent⟩ := h a rfl
    refine .written rfl hback.height hback.whole fun hlimit => ?_
    simp only [optional, isPresent_ofJson hpresent, hback.back hlimit, Option.map_some]

theorem optional_reads {j : Json} {v : Option α} (h : (optional c).read (.ofJson j) = some v) :
    ∀ a ∈ v, j ≠ .null ∧ c.decode (.ofJson j) = some a := by
  simp only [optional] at h
  split at h
  · cases h
  · cases h
    nofun
  · rename_i hpresent
    obtain ⟨a, ha, rfl⟩ := Option.map_eq_some_iff.mp h
    rintro b ⟨⟩
    refine ⟨?_, ha⟩
    rintro rfl
    cases hpresent

theorem Law.optionalAs (h : c.Stored limit least P f) :
    (Cell.optional c).Law limit least (fun n v => ∀ a ∈ v, P n a) (Option.map f) none where
  restores hv := restores_optional fun a ha => ⟨h.restores (hv a ha), h.present (hv a ha)⟩
  reads hj hn hleast hv a ha := h.reads hj hn hleast (optional_reads hv a ha).2

theorem Law.optional (h : c.Stored limit least P id) :
    (Cell.optional c).Law limit least (fun n v => ∀ a ∈ v, P n a) id none := by
  have hlaw := Law.optionalAs h
  rwa [Option.map_id] at hlaw

theorem Law.value :
    (Cell.optional .value).Law limit least (fun n v => ∀ j ∈ v, Field.Filled n j) id none where
  restores {n v} hv := by
    have hvalue : Codec.value.Returns limit least Json.Clean id := Codec.returns_value
    have hback : (Cell.optional .value).Restores limit n v (v.map id) none :=
      restores_optional fun j hj => ⟨hvalue.restores (hv j hj).2, (hv j hj).1⟩
    rwa [Option.map_id] at hback
  reads {j v n} hj hn hleast hv k hk := by
    have hvalue : Codec.value.Returns limit least Json.Clean id := Codec.returns_value
    obtain ⟨hpresent, hread⟩ := optional_reads hv k hk
    refine ⟨?_, hvalue.reads hj hn hleast hread⟩
    rintro rfl
    have hsame := (Datum.json?_ofJson j hj).symm.trans hread
    cases j <;> first | exact hpresent rfl | cases hsame

theorem Law.list (h : c.Returns limit (least - 1) P id) :
    (Cell.list c).Law limit least (Listed P) id [] where
  restores {n xs} hxs := by
    cases xs with
    | nil => exact .absent rfl rfl
    | cons x xs =>
      have hback := (Codec.stored_list h).restores (hxs (List.cons_ne_nil x xs))
      exact .written rfl hback.height hback.whole hback.back
  reads hj hn hleast hxs _ := (Codec.stored_list h).reads hj hn hleast hxs

theorem Law.tableAs (h : c.Returns limit (least - 1) P f) :
    (Cell.table c).Law limit least (Tabled P) (Ordered.mapValues f) {} where
  restores {n t} ht := by
    by_cases hempty : t.entries = []
    · obtain rfl : t = {} := Ordered.ext hempty
      exact .absent rfl rfl
    · have hback := (Codec.stored_table h).restores (ht hempty)
      refine .written (j := c.table.encode t) ?_ hback.height hback.whole hback.back
      simp [table, Ordered.isEmpty, hempty]
  reads hj hn hleast ht _ := (Codec.stored_table h).reads hj hn hleast ht

theorem Law.table (h : c.Returns limit (least - 1) P id) :
    (Cell.table c).Law limit least (Tabled P) id {} := by
  have hlaw := Law.tableAs h
  rwa [show Ordered.mapValues (α := α) id = id from funext Ordered.mapValues_id] at hlaw

end Cell

/-! ### Fields -/

namespace Field

variable {ρ α : Type} {limit least : Nat} {Q : Nat → ρ → Prop} {g : ρ → ρ} {blank : ρ}

/-- Records with the property come back by `g`, as far as the field is concerned. -/
structure Law (limit least : Nat) (Q : Nat → ρ → Prop) (g : ρ → ρ) (blank : ρ) (f : Field ρ) :
    Prop where
  restores : ∀ {n r}, Q n r → f.cell.Restores limit n (f.get r) (f.get (g r)) (f.get blank)
  keeps : ∀ {j n r v}, j.isWhole = true → j.height ≤ n → least ≤ n →
    f.cell.read (.ofJson j) = some v → Q n r → Q n (f.set r v)

variable {name : String} {cell : Cell α} {get : ρ → α} {set : ρ → α → ρ} {P : Nat → α → Prop}
  {f : α → α} {left : α}

theorem Law.of_cell (h : cell.Law limit least P f left) (hget : ∀ {n r}, Q n r → P n (get r))
    (hset : ∀ {n r v}, Q n r → P n v → Q n (set r v))
    (hback : ∀ r, get (g r) = f (get r) := by exact fun _ => rfl)
    (hleft : get blank = left := by rfl) :
    (Field.mk name cell get set).Law limit least Q g blank where
  restores {n r} hr := by
    have hrestored : cell.Restores limit n (get r) (f (get r)) left := h.restores (hget hr)
    rwa [← hback, ← hleft] at hrestored
  keeps hj hn hleast hv hr := hset hr (h.reads hj hn hleast hv)

/-- A field that the property says nothing about. -/
theorem Law.free (h : cell.Law limit least P f left) (hset : ∀ {n r v}, Q n r → Q n (set r v))
    (hfree : ∀ n a, P n a := by intros; trivial)
    (hback : ∀ r, get (g r) = f (get r) := by exact fun _ => rfl)
    (hleft : get blank = left := by rfl) :
    (Field.mk name cell get set).Law limit least Q g blank :=
  .of_cell h (fun _ => hfree _ _) (fun hr _ => hset hr) hback hleft

end Field

/-! ### Rows without a field -/

namespace Rest

variable {ρ α : Type} {c : Codec α} {limit least n : Nat} {P : Nat → α → Prop}
  {Q : Nat → ρ → Prop} {names : List String} {f : α → α} {g : ρ → ρ}

def data (rows : List (String × Json)) : List (String × Datum) :=
  rows.map fun row => (row.1, .ofJson row.2)

structure Restores (limit n : Nat) (names : List String) (rest : Rest ρ) (r : ρ) (b : rest.α) :
    Prop where
  apart : ∀ row ∈ rest.write r, row.1 ∉ names
  height : ∀ row ∈ rest.write r, row.2.height ≤ n
  whole : ∀ row ∈ rest.write r, row.2.isWhole = true
  back : (∀ row ∈ rest.write r, row.2.height < limit) →
    rest.gather (data (rest.write r)) = some b

structure Law (limit least : Nat) (names : List String) (Q : Nat → ρ → Prop) (g : ρ → ρ)
    (rest : Rest ρ) : Prop where
  restores : ∀ {n r}, Q n r → rest.Restores limit n names r (rest.get (g r))
  keeps : ∀ {rows n r v},
    (∀ row ∈ rows, row.1 ∉ names ∧ row.2.isWhole = true ∧ row.2.height ≤ n) → least ≤ n →
    rest.gather (data rows) = some v → Q n r → Q n (rest.set r v)

structure Beside (names : List String) (P : Nat → α → Prop) (n : Nat) (t : Ordered α) :
    Prop where
  apart : ∀ key ∈ t.keys, key ∉ names
  values : t.All (P n)

theorem Beside.empty : Beside names P n {} :=
  ⟨List.forall_mem_nil _, Ordered.all_empty _⟩

section Table

variable {get : ρ → Ordered α} {set : ρ → Ordered α → ρ}

theorem gather_table (rows : List (String × Json)) :
    (Rest.table c get set).gather (data rows) = (c.rows? rows).map Ordered.ofRows := by
  simp only [table, data, Codec.settled, List.mapM_map, Codec.rows?, Option.bind_eq_bind,
    Function.comp_def, Datum.settled_ofJson, Option.bind_some]
  exact Option.map_eq_bind.symm

theorem Law.tableAs (h : c.Returns limit least P f)
    (hget : ∀ {n r}, Q n r → Beside names P n (get r))
    (hset : ∀ {n r t}, Q n r → Beside names P n t → Q n (set r t))
    (hback : ∀ r, get (g r) = (get r).mapValues f := by exact fun _ => rfl) :
    (Rest.table c get set).Law limit least names Q g where
  restores {n r} hr := by
    have hbeside := hget hr
    have hrestored : (get r).All fun a => c.Restores limit n a (f a) :=
      fun row hrow => h.restores (hbeside.values row hrow)
    refine ⟨fun row hrow => ?_, ?_, ?_, fun hlimit => ?_⟩
    · obtain ⟨e, he, rfl⟩ := List.mem_map.mp hrow
      exact hbeside.apart e.1 (Ordered.mem_keys_of_mem he)
    · exact List.forall_mem_map.mpr fun row hrow => (hrestored row hrow).height
    · exact List.forall_mem_map.mpr fun row hrow => (hrestored row hrow).whole
    · have hrows := Codec.rows?_rowsOf hrestored hlimit
      have hsame : Ordered.ofRows ((get r).mapValues f).entries = get (g r) := by
        rw [Ordered.ofRows_entries, hback]
      exact (gather_table (c.rowsOf (get r))).trans (by rw [hrows, Option.map_some, hsame]; rfl)
  keeps {rows n r v} hrows hleast hv hr := by
    rw [gather_table] at hv
    obtain ⟨entries, hentries, rfl⟩ := Option.map_eq_some_iff.mp hv
    have hmem := Codec.mem_of_rows? hentries
    refine hset hr ⟨fun key hkey => ?_, Ordered.all_ofRows fun e he => ?_⟩
    · obtain ⟨e, he, rfl⟩ := List.mem_map.mp (Ordered.keys_ofRows_subset entries hkey)
      obtain ⟨row, hrow, hkey, -⟩ := hmem e he
      exact hkey ▸ (hrows row hrow).1
    · obtain ⟨row, hrow, -, ha⟩ := hmem e he
      obtain ⟨-, hwhole, hlevel⟩ := hrows row hrow
      exact h.reads hwhole hlevel hleast ha

end Table

theorem Law.extensions {get : ρ → Ordered Json} {set : ρ → Ordered Json → ρ}
    (hget : ∀ {n r}, Q n r → Beside names Json.Clean n (get r))
    (hset : ∀ {n r t}, Q n r → Beside names Json.Clean n t → Q n (set r t))
    (hback : ∀ r, get (g r) = get r := by exact fun _ => rfl) :
    (Rest.extensions get set).Law limit least names Q g :=
  .tableAs Codec.returns_value hget hset fun r => (hback r).trans (Ordered.mapValues_id _).symm

theorem Law.dropped : (Rest.dropped : Rest ρ).Law limit least names Q g where
  restores _ := ⟨nofun, nofun, nofun, fun _ => rfl⟩
  keeps _ _ _ hr := hr

end Rest

/-! ### Records -/

namespace Record

variable {ρ : Type} {R : Record ρ} {limit least n : Nat} {r : ρ} {Q : Nat → ρ → Prop}
  {g : ρ → ρ} {fs : List (Field ρ)}

def names (R : Record ρ) : List String := R.fields.map Field.name

/-! #### How a record is put together -/

@[simp] def fill (fs : List (Field ρ)) (r st : ρ) : ρ :=
  fs.foldl (fun st f => f.set st (f.get r)) st

/-- A field that is yet to be put together is that of the blank record. -/
@[simp] def Untouched (blank r : ρ) : List (Field ρ) → ρ → Prop
  | [], _ => True
  | f :: fs, st => f.set st (f.get blank) = st ∧ Untouched blank r fs (f.set st (f.get r))

structure Assembled (R : Record ρ) : Prop where
  untouched : ∀ r, Untouched R.blank r R.fields R.blank
  whole : ∀ r, R.rest.set (fill R.fields r R.blank) (R.rest.get r) = r

/-! #### What is written and read -/

def rowsOf (fs : List (Field ρ)) (r : ρ) : List (String × Json) :=
  fs.filterMap fun f => (f.write r).map fun j => (f.name, j)

theorem mem_rowsOf {row : String × Json} (h : row ∈ rowsOf fs r) :
    ∃ f ∈ fs, f.name = row.1 ∧ f.write r = some row.2 := by
  obtain ⟨f, hf, hrow⟩ := List.mem_filterMap.mp h
  obtain ⟨j, hj, rfl⟩ := Option.map_eq_some_iff.mp hrow
  exact ⟨f, hf, rfl, hj⟩

theorem keys_rowsOf (fs : List (Field ρ)) (r : ρ) :
    ((rowsOf fs r).map Prod.fst).Sublist (fs.map Field.name) := by
  induction fs with
  | nil => exact List.Sublist.refl _
  | cons f fs ih =>
    rw [rowsOf, List.filterMap_cons]
    cases hf : f.write r with
    | none => exact ih.cons _
    | some j => exact ih.cons_cons _

def readRow (R : Record ρ) (r : ρ) (row : String × Datum) : Option ρ :=
  match R.field? row.1 with
  | some f => f.read row.2 r
  | none => some r

/-- The rows of the fields are read one after the other, a field without a row being
passed over. -/
theorem foldlM_readRow (hlaws : ∀ f ∈ fs, f.Law limit least Q g R.blank) (hr : Q n r)
    (hfields : ∀ f ∈ fs, R.field? f.name = some f)
    (hlimit : ∀ row ∈ rowsOf fs r, row.2.height < limit) {st : ρ}
    (hst : Untouched R.blank (g r) fs st) :
    (Rest.data (rowsOf fs r)).foldlM R.readRow st = some (fill fs (g r) st) := by
  induction fs generalizing st with
  | nil => rfl
  | cons f fs ih =>
    obtain ⟨hlaw, hlaws⟩ := List.forall_mem_cons.mp hlaws
    obtain ⟨hf, hfs⟩ := List.forall_mem_cons.mp hfields
    obtain ⟨hsame, hst⟩ := hst
    rw [rowsOf, List.filterMap_cons] at hlimit ⊢
    rw [fill, List.foldl_cons]
    cases hlaw.restores hr with
    | absent hwrite hleft =>
      rw [Field.write, hwrite] at hlimit ⊢
      rw [hleft, hsame] at hst ⊢
      exact ih hlaws hfs hlimit hst
    | @written j hwrite _ _ hback =>
      rw [Field.write, hwrite] at hlimit ⊢
      obtain ⟨hj, hrows⟩ := List.forall_mem_cons.mp hlimit
      have hread : R.readRow st (f.name, .ofJson j) = some (f.set st (f.get (g r))) := by
        simp only [readRow, hf, Field.read, hback hj, Option.map_some]
      exact (List.foldlM_cons ..).trans (by rw [hread]; exact ih hlaws hfs hrows hst)

theorem field?_name (h : R.names.Nodup) {f : Field ρ} (hf : f ∈ R.fields) :
    R.field? f.name = some f := by
  unfold names at h
  unfold field?
  generalize R.fields = fs at h hf
  induction fs with
  | nil => cases hf
  | cons g fs ih =>
    rw [List.map_cons, List.nodup_cons] at h
    rcases List.mem_cons.mp hf with rfl | hf
    · rw [List.find?_cons_of_pos (by simp)]
    · have hne : g.name ≠ f.name := fun heq => h.1 (heq ▸ List.mem_map_of_mem hf)
      rw [List.find?_cons_of_neg (by simpa using hne), ih h.2 hf]

theorem field?_eq_none {key : String} : R.field? key = none ↔ key ∉ R.names := by
  simp only [field?, names, List.find?_eq_none, List.mem_map, decide_eq_true_eq, not_exists,
    not_and]

theorem textRows_ofRows (rows : List (String × Json)) :
    textRows (Datum.ofRows rows) = some (Rest.data rows) := by
  rw [textRows, Datum.ofRows_eq]
  exact Codec.mapM_restored fun _ _ => rfl

/-- The rows of fields are read first, then the others. -/
theorem decodeRows_eq (R : Record ρ) (rows : List (String × Datum)) : R.decodeRows rows =
    if ((rows.filter fun row => (R.field? row.1).isSome).map Prod.fst).Nodup then
      ((rows.filter fun row => (R.field? row.1).isSome).foldlM R.readRow R.blank).bind
        (R.rest.read (rows.filter fun row => (R.field? row.1).isNone))
    else none := rfl

theorem decode_object (R : Record ρ) (rows : List (String × Json)) :
    R.decode (.ofJson (.object rows)) =
      if ((rows.filter fun row => (R.field? row.1).isSome).map Prod.fst).Nodup then
        ((Rest.data (rows.filter fun row => (R.field? row.1).isSome)).foldlM R.readRow R.blank).bind
          (R.rest.read (Rest.data (rows.filter fun row => (R.field? row.1).isNone)))
      else none := by
  have hfilter : ∀ p : String → Bool, (Rest.data rows).filter (fun row => p row.1) =
      Rest.data (rows.filter fun row => p row.1) := fun p => List.filter_map
  have hkeys : ∀ rows : List (String × Json),
      (Rest.data rows).map Prod.fst = rows.map Prod.fst := fun _ => List.map_map
  rw [decode, Datum.ofJson, Datum.rows?, Option.bind_some, textRows_ofRows, Option.bind_some,
    decodeRows_eq, hfilter fun key => (R.field? key).isSome,
    hfilter fun key => (R.field? key).isNone, hkeys]

theorem map_read_field? (R : Record ρ) (key : String) (d : Datum) (r : ρ) :
    (R.field? key).map (·.read d r) =
      ((R.fields.map fun f => (f.name, f.read d r)).find? fun w => w.1 = key).map Prod.snd := by
  rw [List.find?_map, Option.map_map]
  rfl

theorem readRow_eq (R : Record ρ) (r : ρ) (row : String × Datum) :
    R.readRow r row = ((R.field? row.1).map (·.read row.2 r)).getD (some r) := by
  unfold readRow
  cases R.field? row.1 <;> rfl

/-- Only what the fields read counts. -/
theorem decode_congr {R S : Record ρ} (hblank : R.blank = S.blank)
    (hfields : ∀ d r, R.fields.map (fun f => (f.name, f.read d r)) =
      S.fields.map fun f => (f.name, f.read d r))
    (hrest : R.rest.read = S.rest.read) : R.decode = S.decode := by
  have hreader : ∀ key d r, (R.field? key).map (·.read d r) = (S.field? key).map (·.read d r) := by
    intro key d r
    rw [map_read_field?, map_read_field?, hfields]
  -- any datum shows which names have a field
  have hsome : ∀ key, (R.field? key).isSome = (S.field? key).isSome := by
    intro key
    have hsame := congrArg Option.isSome (hreader key (.list []) R.blank)
    rwa [Option.isSome_map, Option.isSome_map] at hsame
  have hnone : ∀ key, (R.field? key).isNone = (S.field? key).isNone := by
    intro key
    rw [← Option.not_isSome, hsome, Option.not_isSome]
  have hrow : R.readRow = S.readRow := by
    funext r row
    rw [readRow_eq, readRow_eq, hreader]
  have hrows : R.decodeRows = S.decodeRows := by
    funext rows
    rw [decodeRows_eq, decodeRows_eq]
    simp only [hsome, hnone, hrow, hblank, hrest]
  funext d
  rw [decode, decode, hrows]

section

variable (hnames : R.names.Nodup) (hmade : R.Assembled)
  (hfields : ∀ f ∈ R.fields, f.Law (limit - 1) (least - 1) Q g R.blank)
  (hrest : R.rest.Law (limit - 1) (least - 1) R.names Q g)

include hnames hmade hfields hrest

theorem restores (hr : Q n r) : R.codec.Restores limit (n + 1) r (g r) := by
  have hback := hrest.restores hr
  have hwritten : ∀ row ∈ rowsOf R.fields r, (R.field? row.1).isSome = true ∧
      row.2.height ≤ n ∧ row.2.isWhole = true := by
    intro row hrow
    obtain ⟨f, hf, hname, hwrite⟩ := mem_rowsOf hrow
    rw [← hname, field?_name hnames hf]
    exact ⟨rfl, ((hfields f hf).restores hr).of_write hwrite⟩
  have hbeside : ∀ row ∈ R.rest.write r, R.field? row.1 = none := fun row hrow =>
    field?_eq_none.mpr (hback.apart row hrow)
  refine ⟨?_, ?_, fun hlimit => ?_⟩
  · exact Json.height_object_le.mpr (List.forall_mem_append.mpr
      ⟨fun row hrow => (hwritten row hrow).2.1, hback.height⟩)
  · exact Json.isWhole_object.mpr (List.forall_mem_append.mpr
      ⟨fun row hrow => (hwritten row hrow).2.2, hback.whole⟩)
  · have hlevel : ∀ row ∈ rowsOf R.fields r ++ R.rest.write r, row.2.height < limit - 1 := by
      intro row hrow
      have hlt : row.2.height < (R.codec.encode r).height := Json.height_lt_object hrow
      omega
    obtain ⟨hfirst, hlast⟩ := List.forall_mem_append.mp hlevel
    have hknown : (rowsOf R.fields r ++ R.rest.write r).filter
        (fun row => (R.field? row.1).isSome) = rowsOf R.fields r := by
      rw [List.filter_append, List.filter_eq_self.mpr fun row hrow => (hwritten row hrow).1,
        List.filter_eq_nil_iff.mpr fun row hrow => by simp [hbeside row hrow], List.append_nil]
    have hothers : (rowsOf R.fields r ++ R.rest.write r).filter
        (fun row => (R.field? row.1).isNone) = R.rest.write r := by
      rw [List.filter_append, List.filter_eq_nil_iff.mpr fun row hrow => by
          simp [Option.isSome_iff_ne_none.mp (hwritten row hrow).1],
        List.filter_eq_self.mpr fun row hrow => by simp [hbeside row hrow], List.nil_append]
    have hread := foldlM_readRow hfields hr (fun f hf => field?_name hnames hf) hfirst
      (hmade.untouched (g r))
    refine (decode_object R (rowsOf R.fields r ++ R.rest.write r)).trans ?_
    rw [hknown, hothers, if_pos ((keys_rowsOf R.fields r).nodup hnames), hread, Option.bind_some,
      Rest.read, hback.back hlast, Option.map_some, hmade.whole]

end

theorem keeps_rows (hfields : ∀ f ∈ R.fields, f.Law limit least Q g R.blank) (hleast : least ≤ n)
    {rows : List (String × Json)} {a b : ρ}
    (hrows : ∀ row ∈ rows, row.2.isWhole = true ∧ row.2.height ≤ n)
    (h : (Rest.data rows).foldlM R.readRow a = some b) (ha : Q n a) : Q n b := by
  induction rows generalizing a with
  | nil =>
    cases h
    exact ha
  | cons row rows ih =>
    obtain ⟨⟨hwhole, hlevel⟩, hrest⟩ := List.forall_mem_cons.mp hrows
    obtain ⟨next, hnext, h⟩ := Option.bind_eq_some_iff.mp ((List.foldlM_cons ..).symm.trans h)
    refine ih hrest h ?_
    unfold readRow at hnext
    split at hnext
    · rename_i f hf
      obtain ⟨v, hv, rfl⟩ := Option.map_eq_some_iff.mp hnext
      exact (hfields f (List.mem_of_find?_eq_some hf)).keeps hwhole hlevel hleast hv ha
    · cases hnext
      exact ha

/-- What holds of the blank record and is kept by every field and the rest holds of all
that is read. -/
theorem reads (hblank : ∀ n, least - 1 ≤ n → Q n R.blank)
    (hfields : ∀ f ∈ R.fields, f.Law (limit - 1) (least - 1) Q g R.blank)
    (hrest : R.rest.Law (limit - 1) (least - 1) R.names Q g) {rows : List (String × Json)}
    {a : ρ} (hwhole : (Json.object rows).isWhole = true)
    (hlevel : (Json.object rows).height ≤ n + 1) (hleast : least - 1 ≤ n)
    (ha : R.decode (.ofJson (.object rows)) = some a) : Q n a := by
  have hrows : ∀ row ∈ rows, row.2.isWhole = true ∧ row.2.height ≤ n := fun row hrow =>
    ⟨Json.isWhole_object.mp hwhole row hrow, Json.height_object_le.mp hlevel row hrow⟩
  rw [decode_object] at ha
  split at ha
  · obtain ⟨next, hnext, hlast⟩ := Option.bind_eq_some_iff.mp ha
    obtain ⟨v, hv, rfl⟩ := Option.map_eq_some_iff.mp hlast
    refine hrest.keeps (fun row hrow => ?_) hleast hv ?_
    · obtain ⟨hrow, hnone⟩ := List.mem_filter.mp hrow
      exact ⟨field?_eq_none.mp (Option.isNone_iff_eq_none.mp hnone), hrows row hrow⟩
    · exact keeps_rows hfields hleast (fun row hrow => hrows row (List.mem_filter.mp hrow).1)
        hnext (hblank n hleast)
  · cases ha

/-- The laws of its fields and its rest are those of a record. -/
theorem stored {names : List String} (hnames : R.names = names) (hdistinct : names.Nodup)
    (hmade : R.Assembled) (hblank : ∀ n, least - 1 ≤ n → Q n R.blank)
    (hfields : ∀ f ∈ R.fields, f.Law (limit - 1) (least - 1) Q g R.blank)
    (hrest : R.rest.Law (limit - 1) (least - 1) names Q g) :
    R.codec.Stored limit least (Deeper Q) g where
  restores {n r} hr := by
    obtain ⟨hr⟩ := hr
    exact restores (hnames ▸ hdistinct) hmade hfields (hnames ▸ hrest) hr
  reads {j a n} hj hn hleast ha := by
    cases j with
    | object rows =>
      have hpos : 0 < n := Nat.lt_of_lt_of_le (Json.height_object_pos rows) hn
      obtain ⟨n, rfl⟩ := Nat.exists_eq_add_one.mpr hpos
      exact .intro (reads hblank hfields (hnames ▸ hrest) hj hn (Nat.sub_le_of_le_add hleast) ha)
    | _ => cases ha
  present := nofun

/-- A recursive form, whose levels are the form around each other. -/
theorem stored_levels {form : Codec ρ → Record ρ} {levels : Nat → Codec ρ} {write : ρ → Json}
    {f : ρ → ρ} {Over : (Nat → ρ → Prop) → Nat → ρ → Prop} (hzero : levels 0 = .never)
    (hsucc : ∀ k, levels (k + 1) = (form (levels k)).codec)
    (hencode : ∀ read, (form ⟨write, read⟩).encode = write)
    (hdecode : ∀ a b, a.decode = b.decode → (form a).decode = (form b).decode)
    (hmono : ∀ ⦃P Q : Nat → ρ → Prop⦄ ⦃n r⦄, (∀ m ≤ n, ∀ c, P m c → Q m c) →
      Over P n r → Over Q n r)
    (hform : ∀ ⦃limit read P⦄, (∀ least, Codec.Stored (limit - 1) least ⟨write, read⟩ P f) →
      ∀ least, (form ⟨write, read⟩).codec.Stored limit least (Deeper (Over P)) f) :
    Codec.Stored limit least ⟨write, fun d => (levels (d.height + 1)).decode d⟩
      (Deeper (Nested Over)) f := by
  have hnone : ∀ d, (levels 0).decode d = none := by
    rw [hzero]
    exact fun _ => rfl
  refine Codec.stored_nested hmono hnone fun limit k P hinner least => ?_
  have hstep := hform hinner least
  have hread := hdecode ⟨write, (levels k).decode⟩ (levels k) rfl
  rw [codec, hencode, hread] at hstep
  rw [hsucc]
  exact hstep

end Record

end ApiDoc
