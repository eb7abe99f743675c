import ApiDoc.Survey.Basic

/-!
# Surveys of several files

A survey adds to what was found before and never looks at it, except to see which
names of types and which base path are taken. What it finds in some files is
therefore the same behind any others, and the inventory of all files together is
made of the inventories of any two parts of them.
-/

set_option autoImplicit false

namespace ApiDoc

theorem Catalog.distinct_append (c c' : Catalog) :
    ((c.entries ++ c'.entries.filter fun row => !c.contains row.1).map Prod.fst).Nodup := by
  have hleft := c'.distinct_entries.sublist
    ((List.filter_sublist (p := fun row => !c.contains row.1)).map Prod.fst)
  rw [List.map_append]
  refine List.nodup_append.mpr ⟨c.distinct_entries, hleft, fun name hc other hc' => ?_⟩
  obtain ⟨row, hrow, rfl⟩ := List.mem_map.mp hc'
  rw [List.mem_filter, Bool.not_eq_true'] at hrow
  rw [c.map_fst_entries, ← c.contains_iff] at hc
  rintro rfl
  exact Bool.false_ne_true (hrow.2.symm.trans hc)

def Catalog.append (c c' : Catalog) : Catalog :=
  .ofDistinct (c.entries ++ c'.entries.filter fun row => !c.contains row.1) (c.distinct_append c')

/-- Rows under other names may go when one name is looked up. -/
theorem lookup_filter_key {α : Type} (keep : String → Bool) {name : String}
    (h : keep name = true) (rows : List (String × α)) :
    (rows.filter fun row => keep row.1).lookup name = rows.lookup name := by
  induction rows with
  | nil => rfl
  | cons row rows ih =>
    obtain ⟨key, value⟩ := row
    rw [List.filter_cons]
    by_cases hn : name = key
    · subst hn
      rw [if_pos h, List.lookup_cons_self, List.lookup_cons_self]
    · have hne : (name == key) = false := beq_false_of_ne hn
      cases hk : keep key with
      | true => rw [if_pos rfl, List.lookup_cons, List.lookup_cons, hne, ih]
      | false => rw [if_neg (by simp), List.lookup_cons, hne, ih]

theorem Catalog.contains_append (c c' : Catalog) (name : String) :
    (c.append c').contains name = (c.contains name || c'.contains name) := by
  simp only [append, Ordered.contains, Ordered.get?, Ordered.entries_ofDistinct, List.lookup_append,
    Option.isSome_or]
  cases hc : (c.entries.lookup name).isSome with
  | true => rfl
  | false =>
    have hkeep : (!(c.entries.lookup name).isSome) = true := by rw [hc]; rfl
    rw [lookup_filter_key (fun key => !(c.entries.lookup key).isSome) hkeep]

/-- A declaration that follows both finds its name taken by either. -/
theorem Catalog.append_add (c c' : Catalog) (d : TypeDecl) :
    c.append (c'.add d) = (c.append c').add d := by
  ext1
  simp only [add, Ordered.entries_putNew, contains_append]
  cases hc : c.contains d.name <;> cases hc' : c'.contains d.name <;> simp [append, hc, hc']

namespace Inventory

def append (i j : Inventory) : Inventory where
  types := i.types.append j.types
  endpoints := i.endpoints ++ j.endpoints
  definition := {
    info := i.definition.info.or j.definition.info
    servers := i.definition.servers ++ j.definition.servers
    tags := i.definition.tags ++ j.definition.tags
    security := i.definition.security ++ j.definition.security
    externalDocs := i.definition.externalDocs.or j.definition.externalDocs
    extensions := i.definition.extensions ++ j.definition.extensions }
  securitySchemes := i.securitySchemes ++ j.securitySchemes
  basePath := i.basePath.or j.basePath

theorem append_empty (i : Inventory) : i.append {} = i := by
  have htypes : i.types.append {} = i.types := Ordered.ext (by simp [Catalog.append])
  obtain ⟨types, endpoints, ⟨info, servers, tags, security, docs, extensions⟩, schemes, path⟩ := i
  simp [append, htypes]

theorem append_addType (i j : Inventory) (d : TypeDecl) :
    i.append { j with types := j.types.add d } =
      { i.append j with types := (i.append j).types.add d } := by
  simp only [append, Catalog.append_add]

theorem append_addEndpoint (i j : Inventory) (e : Endpoint) :
    i.append { j with endpoints := j.endpoints ++ [e] } =
      { i.append j with endpoints := (i.append j).endpoints ++ [e] } := by
  simp only [append, List.append_assoc]

theorem append_definition (i j : Inventory) :
    (i.append j).definition = i.definition ++ j.definition := by
  show _ = DefinitionNote.append i.definition j.definition
  simp [append, DefinitionNote.append]

theorem append_define (i j : Inventory) (n : DefinitionNote) :
    i.append { j with definition := j.definition ++ n } =
      { i.append j with definition := (i.append j).definition ++ n } := by
  show { i.append j with
    definition := (i.append { j with definition := j.definition ++ n }).definition } = _
  rw [append_definition, append_definition, DefinitionNote.append_assoc]

theorem append_addSecurityScheme (i j : Inventory) (n : SecuritySchemeNote) :
    i.append { j with securitySchemes := j.securitySchemes ++ [n] } =
      { i.append j with securitySchemes := (i.append j).securitySchemes ++ [n] } := by
  simp only [append, List.append_assoc]

theorem append_setBasePath (i j : Inventory) (path : String) :
    i.append { j with basePath := j.basePath.orElse fun _ => some path } =
      { i.append j with basePath := (i.append j).basePath.orElse fun _ => some path } := by
  simp only [append, Option.orElse_eq_or, Option.or_assoc]

end Inventory

namespace Survey

open Attribute (Fault)

def after (i : Inventory) (s : Survey) : Survey := { s with inventory := i.append s.inventory }

/-- Work that does the same, and adds the same, whatever was found before. -/
def Adds {α : Type} (work : Surveying α) : Prop :=
  ∀ i s, work.run (s.after i) = ((work.run s).1, (work.run s).2.after i)

section Parts

variable {α β : Type}

theorem adds_pure (x : α) : Adds (pure x) := fun _ _ => rfl

theorem Adds.bind {work : Surveying α} {next : α → Surveying β} (h : Adds work)
    (hn : ∀ x, Adds (next x)) : Adds (work >>= next) := by
  intro i s
  rw [StateT.run_bind, StateT.run_bind, h i s]
  exact hn _ i _

theorem adds_noting (work : Noting α) : Adds (noting work) := fun _ _ => rfl

theorem adds_amendInventory {change : Inventory → Inventory}
    (h : ∀ i j : Inventory, i.append (change j) = change (i.append j)) :
    Adds (amendInventory change) := by
  intro i s
  exact Prod.ext rfl (congrArg (fun j => { s with inventory := j }) (h i s.inventory).symm)

theorem Adds.forM {f : α → Surveying PUnit} {xs : List α} (h : ∀ x, Adds (f x)) :
    Adds (xs.forM f) := by
  induction xs with
  | nil => exact adds_pure _
  | cons x xs ih => exact (h x).bind fun _ => ih

end Parts

/-! ### Items -/

/-- What an attribute says of the document is added behind what is known of it. -/
theorem documentRemark_append (i j : Inventory) (a : Attribute) :
    documentRemark (i.append j) a = (documentRemark j a).map i.append := by
  unfold documentRemark
  split
  · cases Attribute.definition.ofAttribute a with
    | ok n => exact congrArg Except.ok (i.append_define j n).symm
    | error f => rfl
  · cases Attribute.securityScheme.ofAttribute a with
    | ok n => exact congrArg Except.ok (i.append_addSecurityScheme j n).symm
    | error f => rfl
  · cases Attribute.pathValue a with
    | ok path => exact congrArg Except.ok (i.append_setBasePath j path).symm
    | error f => rfl
  · rfl

/-- A remark that is at fault leaves everything as it was but the fault. -/
theorem run_amended (i : Inventory) (s : Survey) (e : Except Fault Inventory) :
    (noting (amended (i.append s.inventory) (e.map i.append)) >>= fun j =>
      amendInventory fun _ => j).run (s.after i) =
      ((), ((noting (amended s.inventory e) >>= fun j =>
        amendInventory fun _ => j).run s).2.after i) := by
  cases e with
  | ok j => rfl
  | error f => rfl

theorem adds_documentRemarks (attributes : List Attribute) : Adds (documentRemarks attributes) := by
  refine Adds.forM fun a i s => ?_
  show (noting (amended (i.append s.inventory) (documentRemark (i.append s.inventory) a)) >>=
    fun j => amendInventory fun _ => j).run (s.after i) = _
  rw [documentRemark_append]
  exact run_amended i s _

theorem adds_declare (d : Except Fault TypeDecl) : Adds (declare d) := by
  refine (adds_noting _).bind fun found => ?_
  cases found with
  | none => exact adds_pure ()
  | some d => exact adds_amendInventory fun i j => i.append_addType j d

theorem adds_addEndpoint (e : Endpoint) : Adds (addEndpoint e) :=
  adds_amendInventory fun i j => i.append_addEndpoint j e

mutual
theorem adds_visit : (item : Source.Item) → Adds (visit item)
  | .struct attributes name generics fields =>
    (adds_documentRemarks attributes).bind fun _ => adds_declare _
  | .enum attributes name generics variants =>
    (adds_documentRemarks attributes).bind fun _ => adds_declare _
  | .function f nested => by
    refine (adds_documentRemarks f.attributes).bind fun _ => (adds_noting _).bind fun found => ?_
    cases found with
    | none => exact adds_visitAll nested
    | some h => exact Adds.bind (fun _ _ => rfl) fun _ => adds_visitAll nested
  | .implementation attributes self methods nested => by
    refine (adds_documentRemarks attributes).bind fun _ => (adds_noting _).bind fun found => ?_
    cases found with
    | none => exact adds_visitAll nested
    | some e => exact (adds_addEndpoint e).bind fun _ => adds_visitAll nested
  | .other attributes nested => (adds_documentRemarks attributes).bind fun _ => adds_visitAll nested
theorem adds_visitAll : (items : List Source.Item) → Adds (visitAll items)
  | [] => adds_pure ()
  | item :: items => (adds_visit item).bind fun _ => adds_visitAll items
end

/-! ### Files -/

def closing (path : String) (found : Survey) : Except Failure Unit × Survey :=
  let cleared := { found with handlers := [], fault := none }
  match found.fault with
  | some fault => (.error (.faultyNote path fault), cleared)
  | none =>
    if found.handlers.isEmpty then (.ok (), cleared)
    else
      let e : Endpoint := { name := endpointName path, handlers := found.handlers }
      (.ok (), ((addEndpoint e).run cleared).2)

theorem addItems_eq (path : String) (items : List Source.Item) (s : Survey) :
    addItems path items s =
      closing path ((visitAll items).run { s with handlers := [], fault := none }).2 :=
  rfl

theorem closing_after (path : String) (i : Inventory) (found : Survey) :
    closing path (found.after i) = ((closing path found).1, (closing path found).2.after i) := by
  unfold closing
  cases hf : found.fault with
  | some fault => simp only [after, hf]
  | none =>
    cases hh : found.handlers.isEmpty with
    | true => simp only [after, hf, hh, ↓reduceIte]
    | false =>
      have hadd := congrArg Prod.snd
        (adds_addEndpoint { name := endpointName path, handlers := found.handlers } i
          { found with handlers := [], fault := none })
      simp only [after, hf, hh, Bool.false_eq_true, ↓reduceIte]
      exact Prod.ext rfl hadd

theorem addItems_after (path : String) (items : List Source.Item) (i : Inventory) (s : Survey) :
    addItems path items (s.after i) =
      ((addItems path items s).1, (addItems path items s).2.after i) := by
  have hrun := adds_visitAll items i { s with handlers := [], fault := none }
  change (visitAll items).run { s.after i with handlers := [], fault := none } = _ at hrun
  rw [addItems_eq, addItems_eq, hrun]
  exact closing_after path i _

def addFiles (files : List (String × Source.File)) (s : Survey) : Except Failure Inventory :=
  (files.foldlM (fun s row => ofParsed.step (addItems row.1 row.2.items s)) s).map inventory

theorem addFiles_cons (row : String × Source.File) (rows : List (String × Source.File))
    (s : Survey) :
    addFiles (row :: rows) s = match addItems row.1 row.2.items s with
      | (.ok (), found) => addFiles rows found
      | (.error f, _) => .error f := by
  unfold addFiles
  rw [List.foldlM_cons]
  rcases addItems row.1 row.2.items s with ⟨r, found⟩
  cases r with
  | ok u => rfl
  | error f => rfl

/-- Only what was found is carried from file to file. -/
theorem addFiles_inventory (files : List (String × Source.File)) (s : Survey) :
    addFiles files s = addFiles files { inventory := s.inventory } := by
  cases files with
  | nil => rfl
  | cons row rows => rw [addFiles_cons, addFiles_cons]; rfl

theorem addFiles_after (files : List (String × Source.File)) (i : Inventory) (s : Survey) :
    addFiles files (s.after i) = (addFiles files s).map i.append := by
  induction files generalizing s with
  | nil => rfl
  | cons row rows ih =>
    rw [addFiles_cons, addFiles_cons, addItems_after]
    rcases addItems row.1 row.2.items s with ⟨r, found⟩
    cases r with
    | ok u => exact ih found
    | error f => rfl

theorem addFiles_append (xs ys : List (String × Source.File)) (s : Survey) :
    addFiles (xs ++ ys) s = addFiles xs s >>= fun i => addFiles ys { inventory := i } := by
  induction xs generalizing s with
  | nil => exact addFiles_inventory ys s
  | cons row rows ih =>
    rw [List.cons_append, addFiles_cons, addFiles_cons]
    rcases addItems row.1 row.2.items s with ⟨r, found⟩
    cases r with
    | ok u => exact ih found
    | error f => rfl

/-- The inventory of files in a row is that of the first ones, followed by that of
the others; and the first failure is the first of the first ones, if they have one. -/
theorem ofParsed_append (xs ys : List (String × Source.File)) :
    ofParsed (xs ++ ys) = do
      let i ← ofParsed xs
      let j ← ofParsed ys
      return i.append j := by
  have hbehind : ∀ i : Inventory, addFiles ys { inventory := i } = (ofParsed ys).map i.append := by
    intro i
    have h := addFiles_after ys i {}
    rwa [after, i.append_empty] at h
  show addFiles (xs ++ ys) {} =
    addFiles xs {} >>= fun i => ofParsed ys >>= fun j => pure (i.append j)
  rw [addFiles_append]
  refine congrArg (addFiles xs {} >>= ·) (funext fun i => ?_)
  rw [hbehind]
  cases ofParsed ys with
  | ok j => rfl
  | error f => rfl

end Survey

end ApiDoc
