import ApiDoc.Proofs.Document.Contents
import ApiDoc.Proofs.Pruning.Walk

/-!
# What survives

A policy sifts a document when it gives every node back as it is or removes it.
The ways down that the result has are then the ways down of the document on which
every node is kept, in the same order, and each node on them has the shell that it
had, but for the designations whose response is gone.
-/

set_option autoImplicit false

namespace ApiDoc

def Row.shell (row : Row) : Row := (row.1, row.2.shell)

def Responses.Valid (r : Responses) : Prop :=
  ∀ status, r.designated = some status → r.entries.contains status = true

namespace Node

def WellDesignated (n : Node) : Prop :=
  ∀ o r, n.Holds (.operation o) → o.responses = some r → r.Valid

theorem mem_rows_callback {o : Operation} {row : String × Callback}
    (h : row ∈ o.callbacks.entries) :
    (["callbacks", row.1], .callback row.2) ∈ (Node.operation o).rows := by
  have hrow : (["callbacks", row.1], Node.callback row.2) ∈
      Row.ofTable "callbacks" .callback o.callbacks := List.mem_map_of_mem h
  simp [rows, hrow]

theorem mem_rows_pathItem {c : Callback} {row : String × PathItem}
    (h : row ∈ c.expressions.entries) :
    ([row.1], .pathItem row.1 row.2) ∈ (Node.callback c).rows :=
  List.mem_map_of_mem h

theorem mem_rows_operation {path : String} {i : PathItem} {m : HttpMethod} {o : Operation}
    (h : i.slots.at? m = some o) :
    ([m.name], .operation o) ∈ (Node.pathItem path i).rows := by
  have hmem : (m, o) ∈ i.slots.toList := ByMethod.mem_toList.mpr h
  have hrow := List.mem_map_of_mem (f := fun row => ([row.1.name], Node.operation row.2)) hmem
  exact List.mem_append_left _ (List.mem_append_left _ hrow)

end Node

namespace OpenApi

theorem mem_rows_path {d : OpenApi} {row : String × PathItem} (h : row ∈ d.paths.entries) :
    (["paths", row.1], .pathItem row.1 row.2) ∈ d.rows := by
  have hrow := List.mem_map_of_mem (f := fun row => (["paths", row.1], Node.pathItem row.1 row.2)) h
  simp [rows, hrow]

theorem mem_rows_callback {d : OpenApi} {c : Components} (hc : d.components = some c)
    {row : String × Callback} (h : row ∈ c.callbacks.entries) :
    (["components", "callbacks", row.1], .callback row.2) ∈ d.rows := by
  have hrow : (["callbacks", row.1], Node.callback row.2) ∈ Row.ofComponents c :=
    List.mem_append_right _ (List.mem_map_of_mem h)
  have hunder := List.mem_map_of_mem (f := fun row => (["components"] ++ row.1, row.2)) hrow
  simp only [rows, hc, Option.toList_some, List.flatMap_singleton, List.mem_append]
  exact Or.inl (Or.inl (Or.inl (Or.inl hunder)))

end OpenApi

namespace Policy

variable (p : Policy Id)

structure Sifts : Prop where
  answer : ∀ n a, p.ask n = some a → a = n
  document : ∀ d, (p.document d).run = d

def keeps (n : Node) : Bool := (p.ask n).isSome

def keepsTrail (trail : List Row) : Bool := trail.all fun row => p.keeps row.2

def Survives (d : OpenApi) (n : Node) : Prop :=
  ∃ depth, ∃ trail ∈ trails depth d.rows, p.keepsTrail trail = true ∧ ∃ row ∈ trail, row.2 = n

def survivor (row : Row) : Row := (row.1, (p.settle row.2).shell)

section Sifting

variable {p} (hp : p.Sifts)

include hp

theorem Sifts.modest : p.Modest := by
  intro n a h
  rw [hp.answer n a h]

theorem Sifts.leaves_eq_some {n : Node} (h : p.keeps n = true) :
    p.leaves n = some (p.inside n) := by
  obtain ⟨a, ha⟩ := Option.isSome_iff_exists.mp h
  rw [leaves_eq hp.modest, ha, hp.answer n a ha]
  rfl

def insideRow (row : Row) : Row := (row.1, p.inside row.2)

theorem Sifts.sift_leaves (rows : List Row) : Row.sift p.leaves rows =
    (rows.filter fun row => p.keeps row.2).map p.insideRow := by
  have hsome : (fun row : Row => (p.leaves row.2).isSome) = fun row => p.keeps row.2 := by
    funext row
    rw [leaves_eq hp.modest, Option.isSome_map, keeps]
  rw [Row.sift_eq, hsome]
  apply List.map_congr_left
  intro row hrow
  rw [hp.leaves_eq_some (List.mem_filter.mp hrow).2, Option.getD_some, insideRow]

/-- A node that is removed takes every way down through it along. -/
theorem Sifts.trails_leaves (depth : Nat) (rows : List Row) :
    trails depth (Row.sift p.leaves rows) =
      ((trails depth rows).filter p.keepsTrail).map (List.map p.insideRow) := by
  rw [hp.sift_leaves]
  apply trails_filter_map
  intro row _
  rw [insideRow, rows_inside, hp.sift_leaves]

theorem trails_sift (depth : Nat) (rows : List Row) :
    (trails depth (Row.sift p.leaves rows)).map (List.map Row.shell) =
      ((trails depth rows).filter p.keepsTrail).map (List.map p.survivor) := by
  have hrow : Row.shell ∘ p.insideRow = p.survivor := by
    funext row
    simp only [Function.comp_apply, insideRow, Row.shell, shell_inside, survivor]
  rw [hp.trails_leaves, List.map_map, List.map_comp_map, hrow]

/-- What stands in the result is what the walk made of the nodes that survive. -/
theorem Sifts.holds_result {d : OpenApi} {m : Node} :
    (p.prune d).run.Holds m ↔ ∃ n, p.Survives d n ∧ p.inside n = m := by
  have hdocument : (p.prune d).run = p.insideDocument d := by rw [run_prune, hp.document]
  rw [OpenApi.Holds, ← exists_trail_iff, hdocument, rows_insideDocument]
  simp only [hp.trails_leaves]
  constructor
  · rintro ⟨depth, left, hleft, row, hrow, rfl⟩
    obtain ⟨trail, htrail, rfl⟩ := List.mem_map.mp hleft
    obtain ⟨old, hold, rfl⟩ := List.mem_map.mp hrow
    obtain ⟨htrail, hkeeps⟩ := List.mem_filter.mp htrail
    exact ⟨old.2, ⟨depth, trail, htrail, hkeeps, old, hold, rfl⟩, rfl⟩
  · rintro ⟨_, ⟨depth, trail, htrail, hkeeps, row, hrow, rfl⟩, rfl⟩
    have hleft := List.mem_map_of_mem (f := List.map p.insideRow)
      (List.mem_filter.mpr ⟨htrail, hkeeps⟩)
    exact ⟨depth, _, hleft, p.insideRow row, List.mem_map_of_mem hrow, rfl⟩

omit hp in
theorem Survives.holds {d : OpenApi} {n : Node} (h : p.Survives d n) : d.Holds n := by
  obtain ⟨depth, trail, htrail, -, row, hrow, hn⟩ := h
  exact exists_trail_iff.mp ⟨depth, trail, htrail, row, hrow, hn⟩

end Sifting

/-! ### What stays as it is -/

section Collections

variable {α : Type} {f : α → Id (Option α)}

theorem items_self {as : List α} (h : ∀ a ∈ as, (f a).run = some a) : (items f as).run = as := by
  rw [run_items, List.filterMap_congr h, List.filterMap_some]

theorem table_self {t : Ordered α} (h : t.All fun a => (f a).run = some a) :
    (table f t).run = t := by
  rw [run_table]
  exact Ordered.filterMap_eq_self h

theorem slot_self {x : Option α} (h : ∀ a, x = some a → (f a).run = some a) :
    (slot f x).run = x := by
  cases x with
  | none => rfl
  | some a => exact h a rfl

end Collections

theorem slots_self {α : Type} {f : α → Id (Option α)} {s : ByMethod α}
    (h : ∀ m a, s.at? m = some a → (f a).run = some a) : (slots f s).run = s := by
  apply ByMethod.ext_at?
  intro m
  rw [at?_run_slots, Option.bind_congr (h m), Option.bind_fun_some]

theorem subschemas_self {f : Schema → Id (Option Schema)} {s : Schema}
    (h : ∀ c ∈ s.children, (f c).run = some c) : (subschemas f s).run = s := by
  have hb := Schema.forall_children.mp h
  have hadditional : (additional f s.additional).run = s.additional := by
    rcases hs : s.additional with _ | _ | c
    · rfl
    · rfl
    · simp only [additional, Id.run_bind, Id.run_pure, hb.additional c hs, Option.map_some]
  rw [run_subschemas, table_self hb.properties, slot_self hb.items, slot_self hb.negated,
    items_self hb.allOf, items_self hb.anyOf, items_self hb.oneOf, hadditional]
  cases s
  rfl

section Sparing

open Row

variable {p : Policy Id}

def Spares (p : Policy Id) (n : Node) : Prop := p.leaves n = some n

theorem pruneContent_spared {c : Content} (h : ∀ row ∈ ofContent c, p.Spares row.2) :
    (p.pruneContent c).run = c := by
  have hmedia : c.All fun m => (p.pruneMedia m).run = m := by
    intro row hrow
    have hm := forall_ofContent.mp h row hrow
    simp only [Spares, leaves, Option.map_eq_some_iff, Node.schema.injEq, Node.sample.injEq,
      exists_eq_right] at hm
    simp only [pruneMedia, Id.run_bind, Id.run_pure]
    rw [slot_self hm.1, table_self hm.2]
    cases row.2
    rfl
  rw [run_pruneContent]
  exact Ordered.mapValues_eq_self hmedia

theorem pathItems_spared {items : Ordered PathItem}
    (h : ∀ row ∈ items.entries, p.Spares (.pathItem row.1 row.2)) :
    (items.filterMap fun path i => (p.prunePathItem path i).run) = items := by
  simp only [Spares, leaves, Option.map_eq_some_iff, Node.pathItem.injEq, true_and,
    exists_eq_right] at h
  exact Ordered.filterMap_eq_self h

theorem pruneResponses_spared {r : Responses} (h : r.entries.All fun a => p.Spares (.response a))
    (hr : r.designated.filter (p.leavesStatus r) = r.designated) :
    (p.pruneResponses r).run = r := by
  simp only [Spares, leaves, Option.map_eq_some_iff, Node.response.injEq, exists_eq_right] at h
  rw [run_pruneResponses, table_self h, hr]

theorem insidePathItem_spared {path : String} {i : PathItem}
    (h : ∀ row ∈ (Node.pathItem path i).rows, p.Spares row.2) :
    (p.insidePathItem p.pruneOperation i).run = i := by
  simp only [Node.rows, List.forall_mem_append, forall_ofList, List.forall_mem_map] at h
  obtain ⟨⟨hslots, hparameters⟩, hservers⟩ := h
  simp only [Spares, leaves, Option.map_eq_some_iff, Node.operation.injEq, Node.parameter.injEq,
    Node.server.injEq, exists_eq_right] at hslots hparameters hservers
  have hat : ∀ m o, i.slots.at? m = some o → (p.pruneOperation o).run = some o :=
    fun m o ho => hslots (m, o) (ByMethod.mem_toList.mpr ho)
  simp only [insidePathItem, Id.run_bind, Id.run_pure]
  rw [slots_self hat, items_self hparameters, items_self hservers]

theorem insideOperation_spared {o : Operation} (hs : p.settle (.operation o) = .operation o)
    (h : ∀ row ∈ (Node.operation o).rows, p.Spares row.2) :
    p.insideOperation p.pruneCallback o = o := by
  simp only [Node.rows, List.forall_mem_append, forall_ofList, forall_ofSlot, forall_ofTable,
    List.forall_mem_flatMap, Option.mem_toList, ofResponses] at h
  obtain ⟨⟨⟨⟨⟨hparameters, hbody⟩, hresponses⟩, hcallbacks⟩, hservers⟩, hsecurity⟩ := h
  simp only [settle, Node.operation.injEq] at hs
  have hdesignated : ∀ r, o.responses = some r → (p.pruneResponses r).run = r := by
    intro r hr
    apply pruneResponses_spared (hresponses r hr)
    have hr' := congrArg Operation.responses hs
    simp only [hr, Option.map_some, Option.some.injEq] at hr'
    exact congrArg Responses.designated hr'
  simp only [Spares, leaves, Option.map_eq_some_iff, Node.parameter.injEq,
    Node.requestBody.injEq, Node.callback.injEq, Node.server.injEq, Node.requirement.injEq,
    exists_eq_right] at hparameters hbody hcallbacks hservers hsecurity
  have hr : (o.responses.map fun r => (p.pruneResponses r).run) = o.responses :=
    (Option.map_congr hdesignated).trans Option.map_id_apply
  have hsets : (o.security.map fun sets => (items p.requirement sets).run) = o.security :=
    (Option.map_congr fun sets hs => items_self (hsecurity sets hs)).trans Option.map_id_apply
  rw [insideOperation, items_self hparameters, slot_self hbody, hr, table_self hcallbacks,
    items_self hservers, hsets]
  cases o
  rfl

/-- What the policy answered with stays if everything right below stays. -/
theorem inside_self {n : Node} (hs : p.settle n = n) (h : ∀ row ∈ n.rows, p.Spares row.2) :
    p.inside n = n := by
  cases n with
  | schema s =>
    simp only [Node.rows, List.forall_mem_append, forall_ofSlot, forall_ofTable, forall_ofList] at h
    obtain ⟨⟨⟨⟨⟨⟨hproperties, hitems⟩, hnegated⟩, hallOf⟩, hanyOf⟩, honeOf⟩, hadditional⟩ := h
    have hchildren : ∀ c ∈ s.children, p.Spares (.schema c) :=
      Schema.forall_children.mpr ⟨hproperties, hitems, hnegated, hallOf, hanyOf, honeOf,
        fun c hc => hadditional c (by rw [hc]; rfl)⟩
    simp only [Spares, leaves, Option.map_eq_some_iff, Node.schema.injEq, exists_eq_right]
      at hchildren
    rw [inside, subschemas_self hchildren]
  | response r =>
    simp only [Node.rows, List.forall_mem_append, forall_ofTable] at h
    obtain ⟨⟨hheaders, hcontent⟩, hlinks⟩ := h
    simp only [Spares, leaves, Option.map_eq_some_iff, Node.header.injEq, Node.link.injEq,
      exists_eq_right] at hheaders hlinks
    rw [inside, table_self hheaders, pruneContent_spared hcontent, table_self hlinks]
  | parameter q =>
    simp only [Node.rows, List.forall_mem_append, forall_ofSlot, forall_ofTable] at h
    obtain ⟨⟨hschema, hexamples⟩, hcontent⟩ := h
    simp only [Spares, leaves, Option.map_eq_some_iff, Node.schema.injEq, Node.sample.injEq,
      exists_eq_right] at hschema hexamples
    rw [inside, slot_self hschema, table_self hexamples, pruneContent_spared hcontent]
  | requestBody b => rw [inside, pruneContent_spared h]
  | header hd =>
    simp only [Node.rows, List.forall_mem_append, forall_ofSlot] at h
    obtain ⟨hschema, hcontent⟩ := h
    simp only [Spares, leaves, Option.map_eq_some_iff, Node.schema.injEq, exists_eq_right]
      at hschema
    rw [inside, slot_self hschema, pruneContent_spared hcontent]
  | link l =>
    simp only [Node.rows, forall_ofSlot] at h
    simp only [Spares, leaves, Option.map_eq_some_iff, Node.server.injEq, exists_eq_right] at h
    rw [inside, slot_self h]
  | callback c =>
    simp only [Node.rows, List.forall_mem_map] at h
    rw [inside, insideCallback, pathItems_spared h]
  | pathItem path i => rw [inside, insidePathItem_spared h]
  | operation o => rw [inside, insideOperation_spared hs h]
  | sample _ | securityScheme _ | server _ | tag _ | requirement _ => rfl

variable (hp : p.Modest)

include hp

/-- A node stays as it is if the policy has nothing to say against it and all below. -/
theorem spares_of_holds {n : Node}
    (h : ∀ m, n.Holds m → p.ask m = some m ∧ p.settle m = m) : p.Spares n := by
  induction n using Node.induct with
  | h n ih =>
    obtain ⟨hask, hsettle⟩ := h n (.self n)
    have hrows : ∀ row ∈ n.rows, p.Spares row.2 :=
      fun row hrow => ih row hrow fun m hm => h m (.child hrow hm)
    rw [Spares, leaves_eq hp, hask, Option.map_some, inside_self hsettle hrows]

omit hp in
theorem pruneComponents_spared {c : Components} (h : ∀ row ∈ ofComponents c, p.Spares row.2) :
    (p.pruneComponents c).run = c := by
  simp only [ofComponents, List.forall_mem_append, forall_ofTable] at h
  simp only [Spares, leaves, Option.map_eq_some_iff, Node.schema.injEq, Node.response.injEq,
    Node.parameter.injEq, Node.sample.injEq, Node.requestBody.injEq, Node.header.injEq,
    Node.securityScheme.injEq, Node.link.injEq, Node.callback.injEq, exists_eq_right] at h
  obtain ⟨⟨⟨⟨⟨⟨⟨⟨hschemas, hresponses⟩, hparameters⟩, hexamples⟩, hbodies⟩, hheaders⟩, hschemes⟩,
    hlinks⟩, hcallbacks⟩ := h
  simp only [pruneComponents, Id.run_bind, Id.run_pure]
  rw [table_self hschemas, table_self hresponses, table_self hparameters, table_self hexamples,
    table_self hbodies, table_self hheaders, table_self hschemes, table_self hlinks,
    table_self hcallbacks]

theorem insideDocument_spared {d : OpenApi}
    (h : ∀ n, d.Holds n → p.ask n = some n ∧ p.settle n = n) : p.insideDocument d = d := by
  have hrows : ∀ row ∈ d.rows, p.Spares row.2 :=
    fun row hrow => spares_of_holds hp fun n hn => h n ⟨row, hrow, hn⟩
  simp only [OpenApi.rows, List.forall_mem_append, List.forall_mem_flatMap, Option.mem_toList,
    forall_ofList, under, List.forall_mem_map] at hrows
  obtain ⟨⟨⟨⟨hcomponents, hpaths⟩, hservers⟩, htags⟩, hsecurity⟩ := hrows
  simp only [Spares, leaves, Option.map_eq_some_iff, Node.server.injEq, Node.tag.injEq,
    Node.requirement.injEq, exists_eq_right] at hservers htags hsecurity
  have hc : (d.components.map fun c => (p.pruneComponents c).run) = d.components :=
    (Option.map_congr fun c hc => pruneComponents_spared (hcomponents c hc)).trans
      Option.map_id_apply
  rw [insideDocument, hc, pathItems_spared hpaths, items_self hservers, items_self htags,
    items_self hsecurity]

end Sparing

section KeepAll

variable {p : Policy Id}

theorem leavesStatus_of_contains (hk : ∀ a, (p.ask (.response a)).isSome = true) {r : Responses}
    {status : String} (h : r.entries.contains status = true) : p.leavesStatus r status = true := by
  obtain ⟨a, ha⟩ := Option.isSome_iff_exists.mp h
  rw [leavesStatus, List.any_eq_true]
  exact ⟨(status, a), Ordered.mem_of_get? _ ha, by rw [hk a, beq_self_eq_true]; rfl⟩

/-- Nothing is forgotten where no response is removed. -/
theorem settle_self (hk : ∀ a, (p.ask (.response a)).isSome = true) {n : Node}
    (h : ∀ o r, n = .operation o → o.responses = some r → r.Valid) : p.settle n = n := by
  cases n with
  | operation o =>
    have hr : ∀ r, o.responses = some r →
        ({ r with designated := r.designated.filter (p.leavesStatus r) } : Responses) = r := by
      intro r hr
      have hvalid := h o r rfl hr
      cases hd : r.designated with
      | none => rw [Option.filter_none, ← hd]
      | some status =>
        rw [Option.filter_some, if_pos (leavesStatus_of_contains hk (hvalid status hd)), ← hd]
    rw [settle, (Option.map_congr hr).trans Option.map_id_apply]
    cases o
    rfl
  | _ => rfl

variable (hk : ∀ n, p.ask n = some n)

include hk

theorem modest_of_keepAll : p.Modest := by
  intro n a h
  rw [hk n] at h
  cases h
  exact Nat.le_refl _

theorem insideDocument_self {d : OpenApi}
    (hd : ∀ row ∈ d.rows, row.2.WellDesignated) : p.insideDocument d = d := by
  apply insideDocument_spared (modest_of_keepAll hk)
  rintro n ⟨row, hrow, hn⟩
  refine ⟨hk n, settle_self (fun a => by rw [hk]; rfl) ?_⟩
  rintro o r rfl hr
  exact hd row hrow o r hn hr

end KeepAll

/-- Pruning with a policy that edits nothing. The ways down that the result has are
those on which every node is kept, in their order and at the same keys; the nodes on
them have their shells, in which just the designations are forgotten that no remaining
response answers to; and where everything is kept and all designations are valid, the
document stays as it is. -/
theorem prune_exact (p : Policy Id) (hp : p.Sifts) (d : OpenApi) :
    (∀ depth, (trails depth (p.prune d).run.rows).map (List.map Row.shell) =
      ((trails depth d.rows).filter p.keepsTrail).map (List.map p.survivor)) ∧
    (p.prune d).run.shell = d.shell ∧
    ((∀ n, p.keeps n = true) →
      (∀ o r, d.Holds (.operation o) → o.responses = some r → r.Valid) → (p.prune d).run = d) := by
  have hdocument : (p.prune d).run = p.insideDocument d := by rw [run_prune, hp.document]
  rw [hdocument]
  refine ⟨fun depth => ?_, p.shell_insideDocument d, fun hkeeps hvalid => ?_⟩
  · rw [rows_insideDocument]
    exact trails_sift hp depth d.rows
  · have hk : ∀ n, p.ask n = some n := by
      intro n
      obtain ⟨a, ha⟩ := Option.isSome_iff_exists.mp (hkeeps n)
      rw [ha, hp.answer n a ha]
    exact insideDocument_self hk fun row hrow o r ho => hvalid o r ⟨row, hrow, ho⟩

section Witness

def documented : Policy Id :=
  { keepAll with
    response := fun r => if r.description.isSome then some r else none
    operation := fun o => if o.deprecated = some true then none else some o }

theorem documented_sifts : documented.Sifts where
  document _ := rfl
  answer n a h := by
    have hanswer : documented.ask n = some n ∨ documented.ask n = none := by
      cases n with
      | response r =>
        by_cases hr : r.description.isSome = true
        · exact Or.inl (by simp [ask, documented, hr, Id.run])
        · exact Or.inr (by simp [ask, documented, hr, Id.run])
      | operation o =>
        by_cases ho : o.deprecated = some true
        · exact Or.inr (by simp [ask, documented, ho, Id.run])
        · exact Or.inl (by simp [ask, documented, ho, Id.run])
      | _ => exact Or.inl rfl
    rcases hanswer with hs | hn
    · rw [hs] at h
      exact (Option.some.inj h).symm
    · rw [hn] at h
      cases h

def shelfDocument : OpenApi :=
  { paths := .ofRows [("/shelf", { slots := {
      get := some { responses := some {
        entries := .ofRows [("200", { description := some "the shelf" }), ("404", {})]
        designated := some "404" } }
      delete := some { deprecated := some true } } })] }

def documentedShelf : OpenApi :=
  { paths := .ofRows [("/shelf", { slots := {
      get := some { responses := some {
        entries := .ofRows [("200", { description := some "the shelf" })] } } } })] }

theorem prune_exact_shelf :
    documented.Sifts ∧ (documented.prune shelfDocument).run = documentedShelf ∧
    (∀ depth, (trails depth (documented.prune shelfDocument).run.rows).map (List.map Row.shell) =
      ((trails depth shelfDocument.rows).filter documented.keepsTrail).map
        (List.map documented.survivor)) ∧
    (documented.prune shelfDocument).run.shell = shelfDocument.shell ∧
    ((∀ n, documented.keeps n = true) →
      (∀ o r, shelfDocument.Holds (.operation o) → o.responses = some r → r.Valid) →
      (documented.prune shelfDocument).run = shelfDocument) :=
  ⟨documented_sifts, rfl, prune_exact documented documented_sifts shelfDocument⟩

end Witness

end Policy

end ApiDoc
