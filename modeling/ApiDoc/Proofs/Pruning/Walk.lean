import Mathlib.Data.List.Basic
import ApiDoc.Pruning.Walk
import ApiDoc.Proofs.Document.Nodes
import ApiDoc.Proofs.Document.Subschemas

/-!
# The walk of a policy, node by node

`ask` is what a policy says about a node, and `leaves` is what the walk leaves of
it. A policy that answers with nothing taller than it was asked about never runs
out of levels, and what is left of a node is then the policy's answer with what is
left of the nodes right below: `leaves_eq`, `rows_inside` and `shell_inside`.
-/

set_option autoImplicit false

namespace ApiDoc

def Row.sift (f : Node → Option Node) (rows : List Row) : List Row :=
  rows.filterMap fun row => (f row.2).map fun n => (row.1, n)

namespace Row

theorem mem_sift {f : Node → Option Node} {rows : List Row} {row : Row} :
    row ∈ sift f rows ↔ ∃ old ∈ rows, ∃ n, f old.2 = some n ∧ (old.1, n) = row := by
  simp only [sift, List.mem_filterMap, Option.map_eq_some_iff]

/-- What stays of rows is seen by filtering first. -/
theorem sift_eq (f : Node → Option Node) (rows : List Row) :
    sift f rows = (rows.filter fun row => (f row.2).isSome).map
      fun row => (row.1, (f row.2).getD row.2) := by
  induction rows with
  | nil => rfl
  | cons row rows ih =>
    simp only [sift, List.filterMap_cons, List.filter_cons] at ih ⊢
    cases hf : f row.2 with
    | none => simpa using ih
    | some n => simpa [hf] using ih

variable {α : Type} {field : String} {w : α → Node} {P : Node → Prop}

theorem forall_ofList {xs : List α} :
    (∀ row ∈ ofList field w xs, P row.2) ↔ ∀ x ∈ xs, P (w x) :=
  List.forall_mem_map

theorem forall_ofSlot {x : Option α} :
    (∀ row ∈ ofSlot field w x, P row.2) ↔ ∀ a, x = some a → P (w a) := by
  cases x <;> simp [ofSlot, ofList]

theorem forall_ofTable {t : Ordered α} :
    (∀ row ∈ ofTable field w t, P row.2) ↔ t.All fun a => P (w a) :=
  List.forall_mem_map

theorem forall_ofContent {c : Content} : (∀ row ∈ ofContent c, P row.2) ↔
    c.All fun m => (∀ s, m.schema = some s → P (.schema s)) ∧
      m.examples.All fun e => P (.sample e) := by
  simp only [ofContent, List.forall_mem_flatMap, under, List.forall_mem_map, ofMedia,
    List.forall_mem_append, forall_ofSlot, forall_ofTable]
  rfl

end Row

theorem Ordered.filterMap_congr {α β : Type} {f g : String → α → Option β} {t : Ordered α}
    (h : ∀ row ∈ t.entries, f row.1 row.2 = g row.1 row.2) : t.filterMap f = t.filterMap g := by
  ext1
  rw [entries_filterMap, entries_filterMap]
  exact List.filterMap_congr fun row hrow => by rw [h row hrow]

theorem Ordered.filterMap_eq_self {α : Type} {f : String → α → Option α} {t : Ordered α}
    (h : ∀ row ∈ t.entries, f row.1 row.2 = some row.2) : t.filterMap f = t :=
  (filterMap_congr h).trans ((t.filterMap_some id).trans t.mapValues_id)

theorem ByMethod.ext_at? {α : Type} {s t : ByMethod α} (h : ∀ m, s.at? m = t.at? m) : s = t := by
  obtain ⟨get, put, post, delete, options, head, patch, trace⟩ := s
  rw [ByMethod.mk.injEq]
  exact ⟨h .get, h .put, h .post, h .delete, h .options, h .head, h .patch, h .trace⟩

namespace Policy

/-! ### Collections -/

section Collections

variable {α : Type}

theorem run_items (f : α → Id (Option α)) (as : List α) :
    (items f as).run = as.filterMap fun a => (f a).run := by
  induction as with
  | nil => rfl
  | cons a as ih =>
    simp only [items, Id.run_bind, Id.run_pure, ih, List.filterMap_cons]
    cases (f a).run <;> rfl

theorem toList_run_mapM {β : Type} (f : String → α → Id β) {keys : List String}
    (as : Ordered.Rows α keys) :
    (as.mapM f).run.toList = as.toList.map fun row => (row.1, (f row.1 row.2).run) := by
  induction as with
  | nil => rfl
  | cons a as ih =>
    simp only [Ordered.Rows.mapM, Id.run_bind, Id.run_pure, Ordered.Rows.toList, ih, List.map_cons]

theorem run_rows (f : String → α → Id (Option α)) (t : Ordered α) :
    (rows f t).run = t.filterMap fun key a => (f key a).run := by
  ext1
  have hentries : (t.mapM f).run.entries = t.entries.map fun row => (row.1, (f row.1 row.2).run) :=
    toList_run_mapM f t.rows
  simp only [rows, Id.run_bind, Id.run_pure, Ordered.entries_filterMap, hentries,
    List.filterMap_map, Function.comp_def]

theorem run_table (f : α → Id (Option α)) (t : Ordered α) :
    (table f t).run = t.filterMap fun _ a => (f a).run :=
  run_rows (fun _ => f) t

theorem mem_run_table {f : α → Id (Option α)} {t : Ordered α} {row : String × α} :
    row ∈ (table f t).run.entries ↔
      ∃ old ∈ t.entries, ∃ a, (f old.2).run = some a ∧ (old.1, a) = row := by
  simp only [run_table, Ordered.entries_filterMap, List.mem_filterMap, Option.map_eq_some_iff]

theorem run_slot (f : α → Id (Option α)) (x : Option α) :
    (slot f x).run = x.bind fun a => (f a).run := by
  cases x <;> rfl

theorem at?_run_slots (f : α → Id (Option α)) (s : ByMethod α) (m : HttpMethod) :
    (slots f s).run.at? m = (s.at? m).bind fun a => (f a).run := by
  cases m <;> exact run_slot f _

theorem additionalSchema?_run (f : Schema → Id (Option Schema)) (x : Option (Additional Schema)) :
    Schema.additionalSchema? (additional f x).run =
      (Schema.additionalSchema? x).bind fun s => (f s).run := by
  rcases x with _ | _ | s
  · rfl
  · rfl
  · simp only [additional, Id.run_bind, Id.run_pure, Schema.additionalSchema?, Option.bind_some]
    cases (f s).run <;> rfl

theorem contains_run_table (f : α → Id (Option α)) (t : Ordered α) (key : String) :
    (table f t).run.contains key =
      t.entries.any fun row => row.1 == key && (f row.2).run.isSome := by
  rw [run_table, Ordered.contains, Ordered.get?, Ordered.entries_filterMap]
  induction t.entries with
  | nil => rfl
  | cons row rows ih =>
    rw [List.any_cons, ← ih, List.filterMap_cons]
    cases hf : (f row.2).run with
    | none => simp
    | some a =>
      by_cases hk : row.1 = key
      · simp [hk]
      · have hk' : ¬ key = row.1 := fun e => hk e.symm
        simp [beq_false_of_ne hk, beq_false_of_ne hk', List.lookup_cons]

/-! A walk depends on what it does with the elements alone. -/

variable {f g : α → Id (Option α)}

theorem items_congr {as : List α} (h : ∀ a ∈ as, (f a).run = (g a).run) :
    (items f as).run = (items g as).run := by
  rw [run_items, run_items]
  exact List.filterMap_congr h

theorem table_congr {t : Ordered α} (h : t.All fun a => (f a).run = (g a).run) :
    (table f t).run = (table g t).run := by
  rw [run_table, run_table]
  exact Ordered.filterMap_congr h

theorem slot_congr {x : Option α} (h : ∀ a, x = some a → (f a).run = (g a).run) :
    (slot f x).run = (slot g x).run := by
  cases x with
  | none => rfl
  | some a => exact h a rfl

theorem slots_congr {s : ByMethod α} (h : ∀ m a, s.at? m = some a → (f a).run = (g a).run) :
    (slots f s).run = (slots g s).run := by
  apply ByMethod.ext_at?
  intro m
  rw [at?_run_slots, at?_run_slots]
  exact Option.bind_congr (h m)

theorem additional_congr {f g : Schema → Id (Option Schema)} {x : Option (Additional Schema)}
    (h : ∀ s, x = some (.schema s) → (f s).run = (g s).run) :
    (additional f x).run = (additional g x).run := by
  rcases x with _ | _ | s
  · rfl
  · rfl
  · simp only [additional, Id.run_bind, Id.run_pure, h s rfl]

end Collections

/-! ### Rows of collections -/

section Rows

open Row

variable {g : Node → Option Node}

theorem sift_append (as bs : List Row) : sift g (as ++ bs) = sift g as ++ sift g bs :=
  List.filterMap_append

theorem sift_under (place : Place) (as : List Row) :
    sift g (under place as) = under place (sift g as) := by
  simp only [sift, under, List.filterMap_map, List.map_filterMap, Function.comp_def, Option.map_map]

theorem sift_flatMap {β : Type} (f : β → List Row) (xs : List β) :
    sift g (xs.flatMap f) = xs.flatMap fun x => sift g (f x) :=
  List.filterMap_flatMap

variable {α : Type} {f : α → Id (Option α)} {w : α → Node}
variable (h : ∀ a, g (w a) = (f a).run.map w)

include h

theorem sift_ofList (field : String) (as : List α) :
    sift g (ofList field w as) = ofList field w (items f as).run := by
  simp only [ofList, sift, run_items, List.filterMap_map, List.map_filterMap, Function.comp_def, h,
    Option.map_map]

theorem sift_ofSlot (field : String) (x : Option α) :
    sift g (ofSlot field w x) = ofSlot field w (slot f x).run := by
  cases x with
  | none => rfl
  | some a =>
    simp only [ofSlot, ofList, sift, run_slot, Option.bind_some, Option.toList_some, List.map_cons,
      List.map_nil, List.filterMap_cons, List.filterMap_nil, h]
    cases (f a).run <;> rfl

theorem sift_ofTable (field : String) (t : Ordered α) :
    sift g (ofTable field w t) = ofTable field w (table f t).run := by
  simp only [ofTable, sift, run_table, Ordered.entries_filterMap, List.filterMap_map,
    List.map_filterMap, Function.comp_def, h, Option.map_map]

theorem sift_slots (s : ByMethod α) :
    sift g (s.toList.map fun row => ([row.1.name], w row.2)) =
      (slots f s).run.toList.map fun row => ([row.1.name], w row.2) := by
  simp only [ByMethod.toList, sift, List.map_filterMap, List.filterMap_filterMap, at?_run_slots]
  apply List.filterMap_congr
  intro m _
  cases s.at? m with
  | none => rfl
  | some a =>
    simp only [Option.map_some, Option.bind_some, h]
    cases (f a).run <;> rfl

end Rows

/-! ### Schemas -/

section Schemas

theorem run_subschemas (f : Schema → Id (Option Schema)) (s : Schema) :
    (subschemas f s).run = { s with
      properties := (table f s.properties).run
      items := (slot f s.items).run
      negated := (slot f s.negated).run
      allOf := (items f s.allOf).run
      anyOf := (items f s.anyOf).run
      oneOf := (items f s.oneOf).run
      additional := (additional f s.additional).run } := rfl

theorem subschemas_congr {f g : Schema → Id (Option Schema)} {s : Schema}
    (h : ∀ c ∈ s.children, (f c).run = (g c).run) :
    (subschemas f s).run = (subschemas g s).run := by
  have hb := Schema.forall_children.mp h
  rw [run_subschemas, run_subschemas, table_congr hb.properties, slot_congr hb.items,
    slot_congr hb.negated, items_congr hb.allOf, items_congr hb.anyOf, items_congr hb.oneOf,
    additional_congr hb.additional]

end Schemas

/-! ### What a policy says and what the walk leaves -/

variable (p : Policy Id)

def ask : Node → Option Node
  | .schema s => (p.schema s).run.map .schema
  | .response r => (p.response r).run.map .response
  | .parameter q => (p.parameter q).run.map .parameter
  | .sample e => (p.sample e).run.map .sample
  | .requestBody b => (p.requestBody b).run.map .requestBody
  | .header h => (p.header h).run.map .header
  | .securityScheme s => (p.securityScheme s).run.map .securityScheme
  | .link l => (p.link l).run.map .link
  | .callback c => (p.callback c).run.map .callback
  | .pathItem path i => (p.pathItem path i).run.map (.pathItem path)
  | .operation o => (p.operation o).run.map .operation
  | .server s => (p.server s).run.map .server
  | .tag t => (p.tag t).run.map .tag
  | .requirement r => (p.requirement r).run.map .requirement

def pruneOperation (o : Operation) : Id (Option Operation) :=
  p.operationWithin (o.height + p.reach) o

def leaves : Node → Option Node
  | .schema s => (p.pruneSchema s).run.map .schema
  | .response r => (p.pruneResponse r).run.map .response
  | .parameter q => (p.pruneParameter q).run.map .parameter
  | .sample e => (p.sample e).run.map .sample
  | .requestBody b => (p.pruneBody b).run.map .requestBody
  | .header h => (p.pruneHeader h).run.map .header
  | .securityScheme s => (p.securityScheme s).run.map .securityScheme
  | .link l => (p.pruneLink l).run.map .link
  | .callback c => (p.pruneCallback c).run.map .callback
  | .pathItem path i => (p.prunePathItem path i).run.map (.pathItem path)
  | .operation o => (p.pruneOperation o).run.map .operation
  | .server s => (p.server s).run.map .server
  | .tag t => (p.tag t).run.map .tag
  | .requirement r => (p.requirement r).run.map .requirement

def Modest : Prop := ∀ n a, p.ask n = some a → a.height ≤ n.height

section Inside

def insideCallback (c : Callback) : Callback :=
  { c with expressions := c.expressions.filterMap fun path i => (p.prunePathItem path i).run }

def insideOperation (g : Callback → Id (Option Callback)) (o : Operation) : Operation :=
  { o with
    parameters := (items p.pruneParameter o.parameters).run
    requestBody := (slot p.pruneBody o.requestBody).run
    responses := o.responses.map fun r => (p.pruneResponses r).run
    callbacks := (table g o.callbacks).run
    servers := (items p.server o.servers).run
    security := o.security.map fun sets => (items p.requirement sets).run }

def inside : Node → Node
  | .schema s => .schema (subschemas p.pruneSchema s).run
  | .response r => .response { r with
      headers := (table p.pruneHeader r.headers).run
      content := (p.pruneContent r.content).run
      links := (table p.pruneLink r.links).run }
  | .parameter q => .parameter { q with
      schema := (slot p.pruneSchema q.schema).run
      examples := (table p.sample q.examples).run
      content := (p.pruneContent q.content).run }
  | .requestBody b => .requestBody { b with content := (p.pruneContent b.content).run }
  | .header h => .header { h with
      schema := (slot p.pruneSchema h.schema).run
      content := (p.pruneContent h.content).run }
  | .link l => .link { l with server := (slot p.server l.server).run }
  | .callback c => .callback (p.insideCallback c)
  | .pathItem path i => .pathItem path (p.insidePathItem p.pruneOperation i).run
  | .operation o => .operation (p.insideOperation p.pruneCallback o)
  | n => n

end Inside

/-! ### Levels that suffice -/

section Levels

theorem run_schemaWithin (n : Nat) (s : Schema) :
    (p.schemaWithin (n + 1) s).run =
      (p.schema s).run.map fun t => (subschemas (p.schemaWithin n) t).run := by
  simp only [schemaWithin, Id.run_bind]
  cases (p.schema s).run <;> rfl

theorem run_operationWithin (n : Nat) (o : Operation) :
    (p.operationWithin (n + 1) o).run =
      (p.operation o).run.map (p.insideOperation (p.callbackWith (p.operationWithin n))) := by
  simp only [operationWithin, Id.run_bind]
  cases (p.operation o).run with
  | none => rfl
  | some t =>
    simp only [Id.run_bind, Option.map_some, insideOperation]
    cases t.responses <;> cases t.security <;> rfl

theorem run_callbackWith (f : Operation → Id (Option Operation)) (c : Callback) :
    (p.callbackWith f c).run = (p.callback c).run.map fun d =>
      { d with expressions := d.expressions.filterMap fun path i =>
        (p.pathItem path i).run.map fun i => (p.insidePathItem f i).run } := by
  simp only [callbackWith, Id.run_bind]
  cases (p.callback c).run with
  | none => rfl
  | some d =>
    simp only [Id.run_bind, Id.run_pure, Option.map_some, run_rows]
    congr 3
    funext path i
    cases (p.pathItem path i).run <;> rfl

variable {f g : Operation → Id (Option Operation)}

theorem insidePathItem_congr {i : PathItem}
    (h : ∀ o, o.height ≤ i.height → (f o).run = (g o).run) :
    (p.insidePathItem f i).run = (p.insidePathItem g i).run := by
  have hs : (slots f i.slots).run = (slots g i.slots).run :=
    slots_congr fun m o ho => h o (Operation.height_le_item ho)
  simp only [insidePathItem, Id.run_bind, hs]

theorem insideOperation_congr {u v : Callback → Id (Option Callback)} {o : Operation}
    (h : ∀ c : Callback, c.height < o.height → (u c).run = (v c).run) :
    p.insideOperation u o = p.insideOperation v o := by
  have hc : (table u o.callbacks).run = (table v o.callbacks).run :=
    table_congr fun row hrow => h row.2 (Operation.callback_height_lt hrow)
  rw [insideOperation, insideOperation, hc]

variable {p} (hp : p.Modest)

include hp

theorem height_schema {s t : Schema} (h : (p.schema s).run = some t) : t.height ≤ s.height :=
  hp (.schema s) (.schema t) (by rw [ask, h, Option.map_some])

theorem height_operation {o q : Operation} (h : (p.operation o).run = some q) :
    q.height ≤ o.height :=
  hp (.operation o) (.operation q) (by rw [ask, h, Option.map_some])

theorem height_callback {c d : Callback} (h : (p.callback c).run = some d) :
    d.height ≤ c.height :=
  hp (.callback c) (.callback d) (by rw [ask, h, Option.map_some])

theorem height_pathItem {path : String} {i j : PathItem} (h : (p.pathItem path i).run = some j) :
    j.height ≤ i.height :=
  hp (.pathItem path i) (.pathItem path j) (by rw [ask, h, Option.map_some])

/-- Below what is kept of a schema stand only schemas that are less tall. -/
theorem kept_subschemas_congr {u v : Schema → Id (Option Schema)} {s : Schema}
    (h : ∀ c : Schema, c.height < s.height → (u c).run = (v c).run) :
    ((p.schema s).run.map fun t => (subschemas u t).run) =
      (p.schema s).run.map fun t => (subschemas v t).run := by
  apply Option.map_congr
  intro t hs
  have ht := height_schema hp hs
  apply subschemas_congr
  intro c hc
  exact h c ((Schema.height_lt hc).trans_le ht)

theorem schemaWithin_enough {n k : Nat} {s : Schema} (hn : s.height ≤ n) (hk : s.height ≤ k) :
    (p.schemaWithin n s).run = (p.schemaWithin k s).run := by
  have hpos := s.height_pos
  induction n generalizing k s with
  | zero => omega
  | succ n ih =>
    obtain ⟨k, rfl⟩ : ∃ m, k = m + 1 := ⟨k - 1, by omega⟩
    rw [run_schemaWithin, run_schemaWithin]
    exact kept_subschemas_congr hp fun c hlt => ih (by omega) (by omega) c.height_pos

theorem run_pruneSchema (s : Schema) :
    (p.pruneSchema s).run = (p.schema s).run.map fun t => (subschemas p.pruneSchema t).run := by
  have hpos := s.height_pos
  obtain ⟨n, hn⟩ : ∃ n, s.height + p.reach = n + 1 := ⟨s.height + p.reach - 1, by omega⟩
  rw [pruneSchema, hn, run_schemaWithin]
  exact kept_subschemas_congr hp fun c hlt =>
    schemaWithin_enough hp (by omega) (Nat.le_add_right _ _)

theorem callbackWith_congr {c : Callback} (h : ∀ o, o.height ≤ c.height → (f o).run = (g o).run) :
    (p.callbackWith f c).run = (p.callbackWith g c).run := by
  rw [run_callbackWith, run_callbackWith]
  apply Option.map_congr
  intro d hc
  have hd := height_callback hp hc
  congr 1
  apply Ordered.filterMap_congr
  intro row hrow
  have hrow := Operation.item_height_le hrow
  apply Option.map_congr
  intro i hi
  have hle := height_pathItem hp hi
  rw [insidePathItem_congr p fun o ho => h o (by omega)]

theorem kept_callbacks_congr {u v : Callback → Id (Option Callback)} {o : Operation}
    (h : ∀ c : Callback, c.height < o.height → (u c).run = (v c).run) :
    (p.operation o).run.map (p.insideOperation u) =
      (p.operation o).run.map (p.insideOperation v) := by
  apply Option.map_congr
  intro q ho
  have hq := height_operation hp ho
  exact insideOperation_congr p fun c hc => h c (hc.trans_le hq)

theorem operationWithin_enough {n k : Nat} {o : Operation} (hn : o.height ≤ n)
    (hk : o.height ≤ k) : (p.operationWithin n o).run = (p.operationWithin k o).run := by
  have hpos := o.height_pos
  induction n generalizing k o with
  | zero => omega
  | succ n ih =>
    obtain ⟨k, rfl⟩ : ∃ m, k = m + 1 := ⟨k - 1, by omega⟩
    rw [run_operationWithin, run_operationWithin]
    exact kept_callbacks_congr hp fun c hc => callbackWith_congr hp fun r hr =>
      ih (by omega) (by omega) r.height_pos

theorem run_pruneOperation (o : Operation) :
    (p.pruneOperation o).run = (p.operation o).run.map (p.insideOperation p.pruneCallback) := by
  have hpos := o.height_pos
  obtain ⟨n, hn⟩ : ∃ n, o.height + p.reach = n + 1 := ⟨o.height + p.reach - 1, by omega⟩
  rw [pruneOperation, hn, run_operationWithin]
  exact kept_callbacks_congr hp fun c hc => callbackWith_congr hp fun r hr =>
    operationWithin_enough hp (by omega) (by omega)

theorem run_prunePathItem (path : String) (i : PathItem) :
    (p.prunePathItem path i).run =
      (p.pathItem path i).run.map fun j => (p.insidePathItem p.pruneOperation j).run := by
  simp only [prunePathItem, Id.run_bind]
  cases (p.pathItem path i).run with
  | none => rfl
  | some j =>
    simp only [Id.run_bind, Id.run_pure, Option.map_some, Option.some.injEq]
    apply insidePathItem_congr p
    intro o ho
    exact operationWithin_enough hp (by omega) (Nat.le_add_right _ _)

theorem run_pruneCallback (c : Callback) :
    (p.pruneCallback c).run = (p.callback c).run.map p.insideCallback := by
  have henough : (p.pruneCallback c).run = (p.callbackWith p.pruneOperation c).run :=
    callbackWith_congr hp fun o ho => operationWithin_enough hp (by omega) (Nat.le_add_right _ _)
  rw [henough, run_callbackWith]
  congr 1
  funext d
  simp only [insideCallback, run_prunePathItem hp]

end Levels

/-! ### What is left of a node -/

section Payloads

theorem run_pruneContent (c : Content) :
    (p.pruneContent c).run = c.mapValues fun m => (p.pruneMedia m).run := by
  rw [pruneContent, run_table]
  simp only [Id.run_bind, Id.run_pure, Ordered.filterMap_some]

theorem run_pruneHeader (h : Header) :
    (p.pruneHeader h).run = (p.header h).run.map fun h => { h with
      schema := (slot p.pruneSchema h.schema).run
      content := (p.pruneContent h.content).run } := by
  simp only [pruneHeader, Id.run_bind]
  cases (p.header h).run <;> rfl

theorem run_pruneLink (l : Link) :
    (p.pruneLink l).run = (p.link l).run.map fun l => { l with
      server := (slot p.server l.server).run } := by
  simp only [pruneLink, Id.run_bind]
  cases (p.link l).run <;> rfl

theorem run_pruneParameter (q : Parameter) :
    (p.pruneParameter q).run = (p.parameter q).run.map fun q => { q with
      schema := (slot p.pruneSchema q.schema).run
      examples := (table p.sample q.examples).run
      content := (p.pruneContent q.content).run } := by
  simp only [pruneParameter, Id.run_bind]
  cases (p.parameter q).run <;> rfl

theorem run_pruneBody (b : RequestBody) :
    (p.pruneBody b).run = (p.requestBody b).run.map fun b => { b with
      content := (p.pruneContent b.content).run } := by
  simp only [pruneBody, Id.run_bind]
  cases (p.requestBody b).run <;> rfl

theorem run_pruneResponse (r : Response) :
    (p.pruneResponse r).run = (p.response r).run.map fun r => { r with
      headers := (table p.pruneHeader r.headers).run
      content := (p.pruneContent r.content).run
      links := (table p.pruneLink r.links).run } := by
  simp only [pruneResponse, Id.run_bind]
  cases (p.response r).run <;> rfl

end Payloads

section Rows

open Row

theorem sift_ofMedia (m : MediaType) :
    sift p.leaves (ofMedia m) = ofMedia (p.pruneMedia m).run := by
  rw [ofMedia, sift_append, sift_ofSlot (g := p.leaves) (f := p.pruneSchema) fun _ => rfl,
    sift_ofTable (g := p.leaves) (f := p.sample) fun _ => rfl]
  rfl

theorem sift_ofContent (c : Content) :
    sift p.leaves (ofContent c) = ofContent (p.pruneContent c).run := by
  rw [run_pruneContent]
  simp only [ofContent, Ordered.entries_mapValues, List.flatMap_map, sift_flatMap, sift_under,
    sift_ofMedia]

theorem shell_pruneContent (c : Content) : (p.pruneContent c).run.shell = c.shell := by
  rw [run_pruneContent, Content.shell, Ordered.mapValues_mapValues]
  rfl

def leavesStatus (r : Responses) (status : String) : Bool :=
  r.entries.entries.any fun row => row.1 == status && (p.ask (.response row.2)).isSome

theorem contains_left (r : Responses) (status : String) :
    (table p.pruneResponse r.entries).run.contains status = p.leavesStatus r status := by
  simp only [contains_run_table, leavesStatus, run_pruneResponse, ask, Option.isSome_map]

theorem run_pruneResponses (r : Responses) :
    (p.pruneResponses r).run =
      { entries := (table p.pruneResponse r.entries).run
        designated := r.designated.filter (p.leavesStatus r) } := by
  simp only [pruneResponses, Id.run_bind, Id.run_pure, Responses.prune]
  cases r.designated with
  | none => rfl
  | some status =>
    simp only [contains_left, Option.filter_some]
    split <;> rfl

theorem sift_ofResponses (r : Responses) :
    sift p.leaves (ofResponses r) = ofResponses (p.pruneResponses r).run := by
  rw [ofResponses, sift_ofTable (g := p.leaves) (f := p.pruneResponse) fun _ => rfl,
    run_pruneResponses]
  rfl

def settle : Node → Node
  | .operation o => .operation { o with responses := o.responses.map fun r =>
      { r with designated := r.designated.filter (p.leavesStatus r) } }
  | n => n

/-- Right below an answer stands what is left of what stood there. -/
theorem rows_inside (n : Node) : (p.inside n).rows = sift p.leaves n.rows := by
  cases n with
  | schema s =>
    simp only [Node.rows, sift_append,
      sift_ofTable (g := p.leaves) (f := p.pruneSchema) (w := .schema) fun _ => rfl,
      sift_ofSlot (g := p.leaves) (f := p.pruneSchema) (w := .schema) fun _ => rfl,
      sift_ofList (g := p.leaves) (f := p.pruneSchema) (w := .schema) fun _ => rfl,
      inside, run_subschemas, additionalSchema?_run, ← run_slot]
  | response r =>
    simp only [Node.rows, sift_append, sift_ofContent,
      sift_ofTable (g := p.leaves) (f := p.pruneHeader) (w := .header) fun _ => rfl,
      sift_ofTable (g := p.leaves) (f := p.pruneLink) (w := .link) fun _ => rfl, inside]
  | parameter q =>
    simp only [Node.rows, sift_append, sift_ofContent,
      sift_ofSlot (g := p.leaves) (f := p.pruneSchema) (w := .schema) fun _ => rfl,
      sift_ofTable (g := p.leaves) (f := p.sample) (w := .sample) fun _ => rfl, inside]
  | requestBody b => simp only [Node.rows, sift_ofContent, inside]
  | header h =>
    simp only [Node.rows, sift_append, sift_ofContent,
      sift_ofSlot (g := p.leaves) (f := p.pruneSchema) (w := .schema) fun _ => rfl, inside]
  | link l =>
    simp only [Node.rows, sift_ofSlot (g := p.leaves) (f := p.server) (w := .server) fun _ => rfl,
      inside]
  | callback c =>
    simp only [Node.rows, inside, insideCallback, sift, Ordered.entries_filterMap,
      List.map_filterMap, List.filterMap_map, Function.comp_def, Option.map_map, leaves]
  | pathItem path i =>
    simp only [Node.rows, sift_append,
      sift_slots (g := p.leaves) (f := p.pruneOperation) (w := .operation) fun _ => rfl,
      sift_ofList (g := p.leaves) (f := p.pruneParameter) (w := .parameter) fun _ => rfl,
      sift_ofList (g := p.leaves) (f := p.server) (w := .server) fun _ => rfl, inside]
    rfl
  | operation o =>
    simp only [Node.rows, sift_append, sift_flatMap, sift_ofResponses,
      sift_ofList (g := p.leaves) (f := p.pruneParameter) (w := .parameter) fun _ => rfl,
      sift_ofSlot (g := p.leaves) (f := p.pruneBody) (w := .requestBody) fun _ => rfl,
      sift_ofTable (g := p.leaves) (f := p.pruneCallback) (w := .callback) fun _ => rfl,
      sift_ofList (g := p.leaves) (f := p.server) (w := .server) fun _ => rfl,
      sift_ofList (g := p.leaves) (f := p.requirement) (w := .requirement) fun _ => rfl,
      inside, insideOperation]
    cases o.responses <;> cases o.security <;> rfl
  | sample _ => rfl
  | securityScheme _ => rfl
  | server _ => rfl
  | tag _ => rfl
  | requirement _ => rfl

/-- What else an answer holds stays, designations apart. -/
theorem shell_inside (n : Node) : (p.inside n).shell = (p.settle n).shell := by
  cases n with
  | schema s =>
    simp only [inside, run_subschemas, settle, Node.shell]
    rcases s.additional with _ | _ | u
    · rfl
    · rfl
    · simp only [additional, Id.run_bind, Id.run_pure, Option.bind_some]
      cases (p.pruneSchema u).run <;> rfl
  | response r => simp only [inside, settle, Node.shell, shell_pruneContent]
  | parameter q => simp only [inside, settle, Node.shell, shell_pruneContent]
  | requestBody b => simp only [inside, settle, Node.shell, shell_pruneContent]
  | header h => simp only [inside, settle, Node.shell, shell_pruneContent]
  | operation o =>
    simp only [inside, insideOperation, settle, Node.shell, Option.map_map, Function.comp_def,
      run_pruneResponses]
  | link _ => rfl
  | callback _ => rfl
  | pathItem _ _ => rfl
  | sample _ => rfl
  | securityScheme _ => rfl
  | server _ => rfl
  | tag _ => rfl
  | requirement _ => rfl

/-! ### The whole document -/

def insideDocument (d : OpenApi) : OpenApi :=
  { d with
    components := d.components.map fun c => (p.pruneComponents c).run
    paths := d.paths.filterMap fun path i => (p.prunePathItem path i).run
    servers := (items p.server d.servers).run
    tags := (items p.tag d.tags).run
    security := (items p.requirement d.security).run }

theorem run_prune (d : OpenApi) : (p.prune d).run = (p.document (p.insideDocument d)).run := by
  simp only [prune, insideDocument, ← run_rows]
  cases d.components <;> rfl

theorem sift_ofComponents (c : Components) :
    sift p.leaves (ofComponents c) = ofComponents (p.pruneComponents c).run := by
  simp only [ofComponents, sift_append,
    sift_ofTable (g := p.leaves) (f := p.pruneSchema) (w := .schema) fun _ => rfl,
    sift_ofTable (g := p.leaves) (f := p.pruneResponse) (w := .response) fun _ => rfl,
    sift_ofTable (g := p.leaves) (f := p.pruneParameter) (w := .parameter) fun _ => rfl,
    sift_ofTable (g := p.leaves) (f := p.sample) (w := .sample) fun _ => rfl,
    sift_ofTable (g := p.leaves) (f := p.pruneBody) (w := .requestBody) fun _ => rfl,
    sift_ofTable (g := p.leaves) (f := p.pruneHeader) (w := .header) fun _ => rfl,
    sift_ofTable (g := p.leaves) (f := p.securityScheme) (w := .securityScheme) fun _ => rfl,
    sift_ofTable (g := p.leaves) (f := p.pruneLink) (w := .link) fun _ => rfl,
    sift_ofTable (g := p.leaves) (f := p.pruneCallback) (w := .callback) fun _ => rfl]
  rfl

theorem rows_insideDocument (d : OpenApi) :
    (p.insideDocument d).rows = sift p.leaves d.rows := by
  have hpaths : sift p.leaves (d.paths.entries.map fun row =>
        (["paths", row.1], Node.pathItem row.1 row.2)) =
      (p.insideDocument d).paths.entries.map fun row =>
        (["paths", row.1], Node.pathItem row.1 row.2) := by
    simp only [insideDocument, sift, Ordered.entries_filterMap, List.map_filterMap,
      List.filterMap_map, Function.comp_def, Option.map_map, leaves]
  have hcomponents : (p.insideDocument d).components.toList =
      d.components.toList.map fun c => (p.pruneComponents c).run := by
    rw [insideDocument]
    cases d.components <;> rfl
  simp only [OpenApi.rows, sift_append, sift_flatMap, sift_under, sift_ofComponents, hpaths,
    hcomponents, List.flatMap_map,
    sift_ofList (g := p.leaves) (f := p.server) (w := .server) fun _ => rfl,
    sift_ofList (g := p.leaves) (f := p.tag) (w := .tag) fun _ => rfl,
    sift_ofList (g := p.leaves) (f := p.requirement) (w := .requirement) fun _ => rfl]
  rfl

theorem shell_insideDocument (d : OpenApi) : (p.insideDocument d).shell = d.shell := by
  simp only [insideDocument, OpenApi.shell, Option.map_map]
  rfl

end Rows

/-- What is left of a node is what the walk makes of the policy's answer. -/
theorem leaves_eq {p : Policy Id} (hp : p.Modest) (n : Node) :
    p.leaves n = (p.ask n).map p.inside := by
  cases n <;> simp only [leaves, ask, Option.map_map, run_pruneSchema hp, run_pruneResponse,
    run_pruneParameter, run_pruneBody, run_pruneHeader, run_pruneLink, run_pruneCallback hp,
    run_prunePathItem hp, run_pruneOperation hp] <;> rfl

theorem leaves_eq_some_iff {p : Policy Id} (hp : p.Modest) {n b : Node} :
    p.leaves n = some b ↔ ∃ a, p.ask n = some a ∧ p.inside a = b := by
  rw [leaves_eq hp, Option.map_eq_some_iff]

end Policy

end ApiDoc
