import ApiDoc.Proofs.Assembly.Settled
import ApiDoc.Proofs.Inference.Absent
import ApiDoc.Proofs.Inference.Splicing

/-!
# Structs as parameters and as objects

A struct that a handler takes as a whole stands for one parameter for each of its fields.
Its object has a property for each field as well, but the object takes in the fields of a
struct that it flattens, while of the parameters one is named after the flattened member
itself. So names and keys agree wherever nothing is flattened.
-/

set_option autoImplicit false

namespace ApiDoc

open Inference (Gen Arena Level)

/-! ### First occurrences -/

section FirstOccurrences

variable {α : Type} [BEq α] [LawfulBEq α]

theorem eraseDups_concat (xs : List α) (x : α) :
    (xs ++ [x]).eraseDups = if x ∈ xs then xs.eraseDups else xs.eraseDups ++ [x] := by
  rw [List.eraseDups_append]
  by_cases hx : x ∈ xs <;> simp [List.removeAll, hx, List.eraseDups_cons]

theorem eraseDups_append_eraseDups (xs ys : List α) :
    (xs ++ ys.eraseDups).eraseDups = (xs ++ ys).eraseDups := by
  induction ys using List.reverseRecOn with
  | nil => rfl
  | append_singleton ys y ih =>
    rw [eraseDups_concat, ← List.append_assoc, eraseDups_concat]
    by_cases hy : y ∈ ys
    · rw [if_pos hy, if_pos (List.mem_append_right xs hy), ih]
    · rw [if_neg hy, ← List.append_assoc, eraseDups_concat, ih]
      simp only [List.mem_append, List.mem_eraseDups]

end FirstOccurrences

theorem Ordered.keys_put_of_eraseDups {α : Type} {m : Ordered α} {names : List String}
    (h : m.keys = names.eraseDups) (key : String) (value : α) :
    (m.put key value).keys = (names ++ [key]).eraseDups := by
  rw [Ordered.keys_put, h, eraseDups_concat]
  simp only [List.mem_eraseDups]

theorem Ordered.keys_putAll_of_eraseDups {α : Type} {m : Ordered α} {names : List String}
    (h : m.keys = names.eraseDups) (rows : List (String × α)) :
    (m.putAll rows).keys = (names ++ rows.map Prod.fst).eraseDups := by
  induction rows generalizing m names with
  | nil => rw [List.map_nil, List.append_nil]; exact h
  | cons row rows ih =>
    have hrest := ih (Ordered.keys_put_of_eraseDups h row.1 row.2)
    rw [List.map_cons, List.append_cons]
    exact hrest

/-! ### The keys that fields write -/

/-- The keys that the object of some fields is given, in order: those of the fields, and in
the place of a flattened member those of its struct. -/
inductive WritesKeys (catalog : Catalog) : List FieldDecl → TypeExpr.Bindings → List String → Prop
  | nil (bindings : TypeExpr.Bindings) : WritesKeys catalog [] bindings []
  | absent {f : FieldDecl} {fs : List FieldDecl} {bindings : TypeExpr.Bindings}
      {names : List String} (ha : f.isAbsent = true) (hfs : WritesKeys catalog fs bindings names) :
      WritesKeys catalog (f :: fs) bindings names
  | own {f : FieldDecl} {fs : List FieldDecl} {bindings : TypeExpr.Bindings} {names : List String}
      (ha : f.isAbsent = false) (hf : f.flattened = false)
      (hfs : WritesKeys catalog fs bindings names) :
      WritesKeys catalog (f :: fs) bindings (f.wireName :: names)
  | struct {f : FieldDecl} {fs own : List FieldDecl} {bindings : TypeExpr.Bindings}
      {inner names : List String} {d : TypeDecl} (ha : f.isAbsent = false)
      (hf : f.flattened = true)
      (hd : catalog.get? (f.type.substitute bindings).name = some d)
      (hown : d.fields? = some own)
      (hinner : WritesKeys catalog own (d.bindings (f.type.substitute bindings).args) inner)
      (hfs : WritesKeys catalog fs bindings names) :
      WritesKeys catalog (f :: fs) bindings (inner ++ names)
  | other {f : FieldDecl} {fs : List FieldDecl} {bindings : TypeExpr.Bindings}
      {names : List String} (ha : f.isAbsent = false) (hf : f.flattened = true)
      (hd : (catalog.get? (f.type.substitute bindings).name).bind (·.fields?) = none)
      (hfs : WritesKeys catalog fs bindings names) :
      WritesKeys catalog (f :: fs) bindings names

namespace Inference

variable {catalog : Catalog} {below : Level} {bindings : TypeExpr.Bindings}

def Level.Keyed (catalog : Catalog) (below : Level) : Prop :=
  ∀ fields bindings a o b, (below.fieldsOf fields bindings).outcome a = (.ok o, b) →
    ∃ names, WritesKeys catalog fields bindings names ∧ o.properties.keys = names.eraseDups

theorem keys_withProperty {o : Schema} {names : List String}
    (ho : o.properties.keys = names.eraseDups) (f : FieldDecl) (s : Schema) :
    (withProperty o f s).properties.keys = (names ++ [f.wireName]).eraseDups := by
  unfold withProperty
  dsimp only
  split
  · rw [Schema.require_eq]
    exact Ordered.keys_put_of_eraseDups ho _ _
  · exact Ordered.keys_put_of_eraseDups ho _ _

/-- The keys of one field follow those that are there. -/
theorem keys_field (hbelow : below.Keyed catalog) {f : FieldDecl} {o s : Schema}
    {before : List String} {a b : Arena} (ho : o.properties.keys = before.eraseDups)
    (h : (field catalog below bindings o f).outcome a = (.ok s, b)) :
    ∃ names, s.properties.keys = (before ++ names).eraseDups ∧
      ∀ fs rest, WritesKeys catalog fs bindings rest →
        WritesKeys catalog (f :: fs) bindings (names ++ rest) := by
  cases fieldStep_of_outcome h with
  | absent ha => exact ⟨[], by rw [List.append_nil, ho], fun _ _ => .absent ha⟩
  | own ha hf _ => exact ⟨[f.wireName], keys_withProperty ho f _, fun _ _ => .own ha hf⟩
  | struct ha hf hd hown hpart =>
    obtain ⟨inner, hinner, hkeys⟩ := hbelow _ _ _ _ _ hpart
    refine ⟨inner, ?_, fun _ _ => .struct ha hf hd hown hinner⟩
    rw [← eraseDups_append_eraseDups, ← hkeys]
    refine (Ordered.keys_putAll_of_eraseDups ho _).trans ?_
    rw [Ordered.map_fst_entries]
  | other ha hf hd _ => exact ⟨[], by rw [List.append_nil, ← ho], fun _ _ => .other ha hf hd⟩

theorem keys_fields (hbelow : below.Keyed catalog) {fields : List FieldDecl} {o s : Schema}
    {before : List String} {a b : Arena} (ho : o.properties.keys = before.eraseDups)
    (h : (fields.foldlM (field catalog below bindings) o).outcome a = (.ok s, b)) :
    ∃ names, WritesKeys catalog fields bindings names ∧
      s.properties.keys = (before ++ names).eraseDups := by
  induction fields generalizing o before a with
  | nil =>
    cases h
    exact ⟨[], .nil bindings, by rw [List.append_nil, ho]⟩
  | cons f fs ih =>
    rw [List.foldlM_cons] at h
    obtain ⟨o', c, hf, h⟩ := ExceptT.outcome_bind_eq_ok h
    obtain ⟨names, ho', hnames⟩ := keys_field hbelow ho hf
    obtain ⟨rest, hrest, hs⟩ := ih ho' h
    exact ⟨names ++ rest, hnames fs rest hrest, by rw [hs, List.append_assoc]⟩

theorem keys_object (hbelow : below.Keyed catalog) {fields : List FieldDecl} {o : Schema}
    {a b : Arena} (h : (object catalog below fields bindings).outcome a = (.ok o, b)) :
    ∃ names, WritesKeys catalog fields bindings names ∧ o.properties.keys = names.eraseDups := by
  have hblank : (Schema.ofType .object).properties.keys = ([] : List String).eraseDups := rfl
  exact keys_fields hbelow hblank h

theorem level_keyed (catalog : Catalog) (n : Nat) : (level catalog n).Keyed catalog := by
  induction n with
  | zero =>
    intro fields bindings a o b h
    cases h
  | succ n ih => exact fun fields bindings a o b h => keys_object ih h

/-! ### Nothing flattened -/

def memberSchemas (infer : TypeExpr → Gen Schema) (bindings : TypeExpr.Bindings)
    (fields : List FieldDecl) : Gen (List (FieldDecl × Schema)) :=
  ExceptT.paired (fun f => member infer (f.type.substitute bindings) f.schema) fields

theorem object_unflattened {fields : List FieldDecl}
    (hplain : ∀ f ∈ fields, f.isAbsent = false → f.flattened = false) :
    object catalog below fields bindings = (do
      let made ← memberSchemas below.schemaOf bindings (presentFields fields)
      pure (made.foldl (fun o row => withProperty o row.1 row.2) (.ofType .object))) := by
  have hfield : ∀ f ∈ presentFields fields, ∀ o, field catalog below bindings o f = (do
      let s ← member below.schemaOf (f.type.substitute bindings) f.schema
      pure (withProperty o f s)) := by
    intro f hf o
    obtain ⟨hmem, hpresent⟩ := List.mem_filter.mp hf
    have ha : f.isAbsent = false := by simpa using hpresent
    rw [← property_eq]
    simp [field, ha, hplain f hmem ha]
  have hfields : ∀ fs : List FieldDecl, (∀ f ∈ fs, f ∈ presentFields fields) → ∀ o,
      fs.foldlM (field catalog below bindings) o = fs.foldlM (fun o f => do
        let s ← member below.schemaOf (f.type.substitute bindings) f.schema
        pure (withProperty o f s)) o := by
    intro fs hfs
    induction fs with
    | nil => exact fun _ => rfl
    | cons f fs ih =>
      obtain ⟨hf, hrest⟩ := List.forall_mem_cons.mp hfs
      intro o
      rw [List.foldlM_cons, List.foldlM_cons, hfield f hf]
      exact bind_congr fun o' => ih hrest o'
  rw [← object_presentFields, object, hfields _ fun _ hf => hf]
  exact ExceptT.foldlM_eq_paired _ withProperty _ _

theorem keys_foldl_withProperty (made : List (FieldDecl × Schema)) {o : Schema}
    {before : List String} (ho : o.properties.keys = before.eraseDups) :
    (made.foldl (fun o row => withProperty o row.1 row.2) o).properties.keys =
      (before ++ made.map (·.1.wireName)).eraseDups := by
  induction made generalizing o before with
  | nil => rw [List.map_nil, List.append_nil]; exact ho
  | cons row made ih =>
    have hrest := ih (keys_withProperty ho row.1 row.2)
    rw [List.map_cons, List.append_cons]
    exact hrest

end Inference

/-! ### The only argument that is documented -/

def Argument.isDocumented (arg : Argument) : Bool :=
  !(arg.injected || arg.suspended || arg.mayBeBody)

structure Handler.BindsOnly (h : Handler) (arg : Argument) (b : Binding) : Prop where
  arguments : h.arguments.filter (·.isDocumented) = [arg]
  binding : arg.binding = some b
  unnoted : arg.parameter = none
  notes : ∀ n ∈ h.parameters, n.hidden = true

namespace Assembly

variable {infer : TypeExpr → Gen Schema} {catalog : Catalog} {h : Handler} {arg : Argument}
variable {binding : Binding} {d : TypeDecl} {fields : List FieldDecl}

theorem argumentSources_undocumented {other : Argument} (ho : other.isDocumented = false) :
    argumentSources catalog other = [] := by
  by_cases hskip : (other.injected || other.suspended) = true
  · rw [argumentSources, if_pos hskip]
  · exact argumentSources_mayBeBody (by simpa [Argument.isDocumented, hskip] using ho)

theorem sources_of_bindsOnly (hh : h.BindsOnly arg binding) :
    sources catalog h = argumentSources catalog arg := by
  have hnotes : h.parameters.flatMap (noteSources h) = [] :=
    List.flatMap_eq_nil_iff.mpr fun n hn => by rw [noteSources, if_pos (hh.notes n hn)]
  have harguments : ∀ args : List Argument, args.flatMap (argumentSources catalog) =
      (args.filter (·.isDocumented)).flatMap (argumentSources catalog) := by
    intro args
    induction args with
    | nil => rfl
    | cons other args ih =>
      rw [List.flatMap_cons, List.filter_cons, ih]
      cases ho : other.isDocumented with
      | true => rfl
      | false => rw [argumentSources_undocumented ho]; rfl
  rw [sources, hnotes, harguments, hh.arguments, List.append_nil, List.flatMap_singleton]

def substituted (bindings : TypeExpr.Bindings) (f : FieldDecl) : FieldDecl :=
  { f with type := f.type.substitute bindings }

theorem bagFields?_eq (hd : catalog.get? arg.type.name = some d) (hfields : d.fields? = some fields)
    (hne : fields ≠ []) :
    bagFields? catalog arg.type = some (fields.map (substituted (d.bindings arg.type.args))) := by
  unfold bagFields?
  rw [hd]
  dsimp only
  rw [hfields]
  cases fields with
  | nil => exact absurd rfl hne
  | cons f fs => rfl

theorem argumentSources_of_struct (hh : h.BindsOnly arg binding)
    (hd : catalog.get? arg.type.name = some d) (hfields : d.fields? = some fields)
    (hne : fields ≠ []) :
    argumentSources catalog arg = (presentFields fields).map fun f =>
      Source.field binding.location (substituted (d.bindings arg.type.args) f) := by
  have hdocumented : arg ∈ h.arguments.filter (·.isDocumented) :=
    hh.arguments ▸ List.mem_singleton_self arg
  have hplain : ¬ (arg.injected || arg.suspended) = true := by
    have := (List.mem_filter.mp hdocumented).2
    simp_all [Argument.isDocumented]
  rw [argumentSources, if_neg hplain, hh.unnoted, hh.binding]
  dsimp only
  rw [bagFields?_eq hd hfields hne]
  simp only [List.filter_map, List.map_map, presentFields]
  rfl

def fieldGiven (binding : Binding) (f : FieldDecl) (s : Schema) : Parameter where
  name := some f.wireName
  location := some binding.location
  description := f.schema.bind (·.description)
  required := some (!f.type.isOption)
  deprecated := if f.deprecated then some true else none
  schema := some s

theorem parameters_of_struct (hh : h.BindsOnly arg binding)
    (hd : catalog.get? arg.type.name = some d) (hfields : d.fields? = some fields)
    (hne : fields ≠ []) :
    parameters catalog infer h = (do
      let made ← Inference.memberSchemas infer (d.bindings arg.type.args) (presentFields fields)
      pure ((collect (made.map fun row =>
        fieldGiven binding (substituted (d.bindings arg.type.args) row.1) row.2)).map settle)) := by
  rw [parameters_eq_settled, sources_of_bindsOnly hh, argumentSources_of_struct hh hd hfields hne,
    List.mapM_map]
  have hmade : (presentFields fields).mapM (Source.node infer ∘ fun f =>
      Source.field binding.location (substituted (d.bindings arg.type.args) f)) =
      Inference.memberSchemas infer (d.bindings arg.type.args) (presentFields fields) >>=
        fun made => pure (made.map fun row =>
          fieldGiven binding (substituted (d.bindings arg.type.args) row.1) row.2) :=
    ExceptT.mapM_eq_paired
      (fun f : FieldDecl =>
        Inference.member infer (f.type.substitute (d.bindings arg.type.args)) f.schema)
      (fun f s => fieldGiven binding (substituted (d.bindings arg.type.args) f) s)
      (presentFields fields)
  rw [hmade]
  simp only [bind_assoc, pure_bind]

/-! ### The names of collected parameters -/

def inputAt (location : ParameterLocation) (name : String) : Option Input :=
  some (some name, some location)

theorem inputs_push {p : Parameter} {k : Input} (hp : p.input? = some k) (qs : List Parameter) :
    (pushParameter p qs).map (·.input?) =
      if some k ∈ qs.map (·.input?) then qs.map (·.input?) else qs.map (·.input?) ++ [some k] := by
  induction qs with
  | nil => simp [pushParameter, hp]
  | cons q qs ih =>
    by_cases hs : sameInput q p
    · obtain ⟨j, hq, hj⟩ := sameInput_iff.mp hs
      have hk : q.input? = some k := hq.trans (hj.symm.trans hp)
      simp [pushParameter, hs, input?_overlay, hk]
    · have hq : some k ≠ q.input? := fun hq =>
        hs (sameInput_iff.mpr ⟨k, hq.symm, hp⟩)
      by_cases hm : some k ∈ qs.map (·.input?)
      · rw [if_pos hm] at ih
        simp only [pushParameter, hs, Bool.false_eq_true, ↓reduceIte, List.map_cons, ih,
          List.mem_cons, hm, or_true]
      · rw [if_neg hm] at ih
        simp only [pushParameter, hs, Bool.false_eq_true, ↓reduceIte, List.map_cons, ih,
          List.mem_cons, hm, hq, or_self, List.cons_append]

/-- Of the parameters in one place the first of each name is kept. -/
theorem inputs_collect {location : ParameterLocation} {ps : List Parameter} {names : List String}
    (hps : ps.map (·.input?) = names.map (inputAt location)) :
    (collect ps).map (·.input?) = names.eraseDups.map (inputAt location) := by
  have hrun : ∀ (qs : List Parameter) (before : List String),
      qs.map (·.input?) = before.eraseDups.map (inputAt location) →
      (ps.foldl (fun qs p => pushParameter p qs) qs).map (·.input?) =
        (before ++ names).eraseDups.map (inputAt location) := by
    induction ps generalizing names with
    | nil =>
      obtain rfl := List.map_eq_nil_iff.mp hps.symm
      intro qs before hqs
      rw [List.append_nil]
      exact hqs
    | cons p ps ih =>
      obtain ⟨name, rest, rfl, hname, hrest⟩ := List.map_eq_cons_iff.mp hps.symm
      intro qs before hqs
      have hpush : (pushParameter p qs).map (·.input?) =
          (before ++ [name]).eraseDups.map (inputAt location) := by
        have hmem : some (some name, some location) ∈ before.eraseDups.map (inputAt location) ↔
            name ∈ before := by
          simp [inputAt]
        rw [inputs_push hname.symm, hqs, eraseDups_concat]
        by_cases hknown : name ∈ before
        · rw [if_pos (hmem.mpr hknown), if_pos hknown]
        · rw [if_neg fun hm => hknown (hmem.mp hm), if_neg hknown, List.map_append]
          rfl
      have hend := ih hrest.symm (pushParameter p qs) (before ++ [name]) hpush
      rw [List.append_cons]
      exact hend
  exact hrun [] [] rfl

theorem names_of_inputs {location : ParameterLocation} {ps : List Parameter} {names : List String}
    (hps : ps.map (·.input?) = names.map (inputAt location)) :
    (ps.map settle).map (·.name) = names.map some := by
  induction ps generalizing names with
  | nil =>
    obtain rfl := List.map_eq_nil_iff.mp hps.symm
    rfl
  | cons p ps ih =>
    obtain ⟨name, rest, rfl, hname, hrest⟩ := List.map_eq_cons_iff.mp hps.symm
    obtain ⟨required, hsettle⟩ := settle_eq p
    obtain ⟨hp, -⟩ := Prod.mk.inj (reference_of_input? hname.symm).2
    rw [List.map_cons, List.map_cons, ih hrest.symm, hsettle, List.map_cons, hp]

theorem names_of_struct (bindings : TypeExpr.Bindings) (made : List (FieldDecl × Schema)) :
    ((collect (made.map fun row => fieldGiven binding (substituted bindings row.1) row.2)).map
      settle).map (·.name) = (made.map (·.1.wireName)).eraseDups.map some := by
  have hinputs : (made.map fun row =>
      fieldGiven binding (substituted bindings row.1) row.2).map (·.input?) =
        (made.map (·.1.wireName)).map (inputAt binding.location) := by
    simp only [List.map_map]
    rfl
  exact names_of_inputs (inputs_collect hinputs)

/-! ### Names and keys -/

/-- Where a struct flattens nothing, the names of the parameters that it stands for are
those of its object's properties, or both fail alike. A flattened field gives a parameter of
its own name, while the object takes in the keys of its struct. -/
theorem expanded_as_object (hh : h.BindsOnly arg binding)
    (hd : catalog.get? arg.type.name = some d) (hfields : d.fields? = some fields)
    (hne : fields ≠ []) :
    ((∀ f ∈ fields, f.isAbsent = false → f.flattened = false) → ∀ n,
      (do let ps ← parameters catalog (Inference.schemaOf catalog n) h
          pure (ps.map (·.name))) =
      (do let o ← Inference.object catalog (Inference.level catalog n) fields
            (d.bindings arg.type.args)
          pure (o.properties.keys.map some))) ∧
    (∀ infer a ps b, (parameters catalog infer h).outcome a = (.ok ps, b) →
      ps.map (·.name) = ((presentFields fields).map (·.wireName)).eraseDups.map some) ∧
    ∀ n a o b, (Inference.object catalog (Inference.level catalog n) fields
        (d.bindings arg.type.args)).outcome a = (.ok o, b) →
      ∃ names, WritesKeys catalog fields (d.bindings arg.type.args) names ∧
        o.properties.keys = names.eraseDups := by
  refine ⟨fun hplain n => ?_, fun infer a ps b hrun => ?_, fun n a o b hrun => ?_⟩
  · rw [parameters_of_struct hh hd hfields hne, Inference.object_unflattened hplain]
    simp only [bind_assoc, pure_bind]
    have hblank : (Schema.ofType .object).properties.keys = ([] : List String).eraseDups := rfl
    refine bind_congr fun made => ?_
    rw [names_of_struct, Inference.keys_foldl_withProperty made hblank, List.nil_append]
  · rw [parameters_of_struct hh hd hfields hne] at hrun
    obtain ⟨made, c, hmade, hrun⟩ := ExceptT.outcome_bind_eq_ok hrun
    obtain ⟨rfl, -⟩ := ExceptT.outcome_pure_eq_ok hrun
    have hmade : made.map (·.1) = presentFields fields := (ExceptT.paired_eq_ok hmade).1
    rw [names_of_struct, ← hmade, List.map_map]
    rfl
  · exact Inference.keys_object (Inference.level_keyed catalog n) hrun

section Witness

def sliceDecl : TypeDecl where
  name := "Slice"
  generics := ["T"]
  shape := .struct [
    { name := "limit", type := ⟨"T", []⟩ },
    { name := "offset", type := ⟨"Option", [⟨"T", []⟩]⟩, rename := some "from" },
    { name := "total", type := ⟨"T", []⟩, skipped := true }]

def queryFields : List FieldDecl := [
  { name := "q", type := ⟨"String", []⟩ },
  { name := "slice", type := ⟨"Slice", [⟨"u32", []⟩]⟩, flattened := true },
  { name := "order", type := ⟨"String", []⟩, schema := some { name := some "sort" } }]

def queryDecl : TypeDecl := { name := "Query", shape := .struct queryFields }

def sliceCatalog : Catalog := Catalog.ofList [sliceDecl, queryDecl]

def sliceArgument : Argument where
  name := "slice"
  type := ⟨"Slice", [⟨"u64", []⟩]⟩
  binding := some ⟨.query, "slice"⟩

def queryArgument : Argument where
  name := "query"
  type := ⟨"Query", []⟩
  binding := some ⟨.query, "query"⟩

def boundBy (arg : Argument) : Handler where
  verb := some .post
  arguments := [{ name := "pool", type := ⟨"Pool", []⟩, injected := true }, arg,
    { name := "body", type := ⟨"String", []⟩ }]

/-- Names and keys are the same for a slice, but not for a query, whose names are told. -/
theorem expanded_as_object_query :
    (boundBy sliceArgument).BindsOnly sliceArgument ⟨.query, "slice"⟩ ∧
    sliceCatalog.get? "Slice" = some sliceDecl ∧
    (do let ps ← parameters sliceCatalog (Inference.schemaOf sliceCatalog 9) (boundBy sliceArgument)
        pure (ps.map (·.name))) =
      (do let o ← Inference.object sliceCatalog (Inference.level sliceCatalog 9)
            (sliceDecl.fields?.getD []) (sliceDecl.bindings [⟨"u64", []⟩])
          pure (o.properties.keys.map some)) ∧
    (boundBy queryArgument).BindsOnly queryArgument ⟨.query, "query"⟩ ∧
    sliceCatalog.get? "Query" = some queryDecl ∧
    queryDecl.fields? = some queryFields ∧ queryFields ≠ [] ∧
    ∀ infer a ps b, (parameters sliceCatalog infer (boundBy queryArgument)).outcome a =
      (.ok ps, b) → ps.map (·.name) = [some "q", some "slice", some "sort"] :=
  have hslice : (boundBy sliceArgument).BindsOnly sliceArgument ⟨.query, "slice"⟩ :=
    ⟨rfl, rfl, rfl, List.forall_mem_nil _⟩
  have hquery : (boundBy queryArgument).BindsOnly queryArgument ⟨.query, "query"⟩ :=
    ⟨rfl, rfl, rfl, List.forall_mem_nil _⟩
  have hne : queryFields ≠ [] := List.cons_ne_nil _ _
  ⟨hslice, rfl,
    (expanded_as_object hslice rfl rfl (List.cons_ne_nil _ _)).1 (by decide) 9,
    hquery, rfl, rfl, hne, (expanded_as_object hquery rfl rfl hne).2.1⟩

end Witness

section Counterexample

/-- The slice is one parameter of the query, and the keys of its fields are in the object. -/
theorem slice_not_expanded :
    (boundBy queryArgument).BindsOnly queryArgument ⟨.query, "query"⟩ ∧
    ((parameters sliceCatalog (Inference.schemaOf sliceCatalog 9)
      (boundBy queryArgument)).outcome {}).1.map (·.map (·.name)) =
        .ok [some "q", some "slice", some "sort"] ∧
    ((Inference.object sliceCatalog (Inference.level sliceCatalog 9) queryFields
      (queryDecl.bindings [])).outcome {}).1.map (·.properties.keys) =
        .ok ["q", "limit", "from", "sort"] :=
  ⟨⟨rfl, rfl, rfl, List.forall_mem_nil _⟩, rfl, rfl⟩

end Counterexample

end Assembly

end ApiDoc
