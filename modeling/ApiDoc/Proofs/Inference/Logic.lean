import Mathlib.Data.List.Forall2
import ApiDoc.Proofs.Document.Subschemas
import ApiDoc.Proofs.Inference.Terms

/-!
# Logics of inference

Inference is put together from the level below by sequence, choice and failure; only opening a
component touches the arena. A relation between computations that respects sequence and failure
holds therefore of each function of inference, with what is said of its answers, as soon as it
holds of the levels below, of the components that are opened and of the structs that are
flattened. The two sides may differ in their levels, in their catalogs and in how a declaration
is written.
-/

set_option autoImplicit false

namespace ApiDoc.Inference

/-- The object of the struct that a type names, made by the level. -/
def splice? (catalog : Catalog) (l : Level) (t : TypeExpr) : Option (Gen Schema) :=
  (catalog.get? t.name).bind fun d =>
    d.fields?.map fun fields => l.fieldsOf fields (d.bindings t.args)

theorem flatten_eq (catalog : Catalog) (below : Level) (o : Schema) (t : TypeExpr) :
    flatten catalog below o t =
      match splice? catalog below t with
      | some g => g >>= fun i => pure { i.keywords.required.foldl Schema.require o with
          properties := (i.keywords.required.foldl Schema.require o).properties.putAll
            i.properties.entries }
      | none => below.schemaOf t >>= fun part => pure { o with allOf := o.allOf ++ [part] } := by
  unfold flatten splice?
  cases hd : catalog.get? t.name with
  | none => rfl
  | some d =>
    cases hf : d.fields? with
    | none => simp [hf]
    | some fields => simp [hf]

/-- A relation between two computations, with what is said of an answer that both of them give.
What the second part of a sequence gives may depend on what is said of the first answer. -/
structure Logic (T : Terms) where
  rel : ∀ {α : Type}, (α → Prop) → Gen α → Gen α → Prop
  pure : ∀ {α : Type} {Q : α → Prop} {x : α}, Q x → rel Q (Pure.pure x) (Pure.pure x)
  fail : ∀ {α : Type} {Q : α → Prop} {f : Failure}, T.failure f →
    rel Q (Gen.fail f) (Gen.fail f)
  bind : ∀ {α β : Type} {Q : α → Prop} {R : β → Prop} {g g' : Gen α} {k k' : α → Gen β},
    rel Q g g' → (∀ x, rel (fun y => Q x → R y) (k x) (k' x)) → rel R (g >>= k) (g' >>= k')
  mono : ∀ {α : Type} {Q R : α → Prop} {g g' : Gen α}, rel Q g g' → (∀ x, Q x → R x) →
    rel R g g'

namespace Logic

variable {T : Terms} (L : Logic T)

theorem check {α : Type} {e : Except Failure α} (h : ∀ f, e = .error f → T.failure f) :
    L.rel (fun x => e = .ok x) (Gen.check e) (Gen.check e) := by
  cases e with
  | ok x => exact L.pure rfl
  | error f => exact L.fail (h f rfl)

theorem foldlM {α β : Type} {R : β → Prop} {f f' : β → α → Gen β} (xs : List α)
    (h : ∀ s, ∀ x ∈ xs, L.rel (fun t => R s → R t) (f s x) (f' s x)) (s : β) :
    L.rel (fun t => R s → R t) (xs.foldlM f s) (xs.foldlM f' s) := by
  induction xs generalizing s with
  | nil => exact L.pure id
  | cons x xs ih =>
    rw [List.foldlM_cons, List.foldlM_cons]
    refine L.bind (h s x List.mem_cons_self) fun t => ?_
    exact L.mono (ih (fun s y hy => h s y (List.mem_cons_of_mem x hy)) t) fun u hu ht hs =>
      hu (ht hs)

theorem foldlM_of {α β : Type} {R : β → Prop} {f f' : β → α → Gen β} {xs : List α} {s : β}
    (hs : R s) (h : ∀ s, ∀ x ∈ xs, L.rel (fun t => R s → R t) (f s x) (f' s x)) :
    L.rel R (xs.foldlM f s) (xs.foldlM f' s) :=
  L.mono (L.foldlM xs h s) fun _ ht => ht hs

/-! ### Notes -/

section Notes

variable {S : TypeExpr → Prop} {infer infer' : TypeExpr → Gen Schema}
variable (hi : ∀ t, S t → L.rel (T.Describes t) (infer t) (infer' t))

include hi

theorem each (ts : List TypeExpr) (h : ∀ t ∈ ts, S t) :
    L.rel (fun ss => ∀ s ∈ ss, T.schema s) (Inference.each infer ts)
      (Inference.each infer' ts) := by
  induction ts with
  | nil => exact L.pure (List.forall_mem_nil _)
  | cons t ts ih =>
    refine L.bind (hi t (h t List.mem_cons_self)) fun s => ?_
    refine L.bind (ih fun u hu => h u (List.mem_cons_of_mem t hu)) fun ss => ?_
    exact L.pure fun hss hs => List.forall_mem_cons.mpr ⟨hs.1, hss⟩

theorem mapping (m : Ordered String) (ns : List MappingNote)
    (h : ∀ t ∈ ns.map (·.type), S t) :
    L.rel (fun _ => True) (Inference.mapping infer m ns) (Inference.mapping infer' m ns) := by
  induction ns generalizing m with
  | nil => exact L.pure trivial
  | cons n ns ih =>
    obtain ⟨hn, hns⟩ := List.forall_mem_cons.mp h
    exact L.bind (hi n.type hn) fun s => L.mono (ih _ hns) fun _ _ _ => trivial

theorem whereNamed (t : Option TypeExpr) (h : ∀ u ∈ t.toList, S u) :
    L.rel (fun s => ∀ c, s = some c → T.schema c) (Inference.whereNamed infer t)
      (Inference.whereNamed infer' t) := by
  cases t with
  | none => exact L.pure fun c hc => by cases hc
  | some t =>
    refine L.bind (hi t (h t List.mem_cons_self)) fun s => L.pure fun hs c hc => ?_
    cases hc
    exact hs.1

theorem discriminator (n : SchemaNote) (h : ∀ t ∈ n.selected, S t) :
    L.rel (fun _ => True) (Inference.discriminator infer n)
      (Inference.discriminator infer' n) := by
  unfold Inference.discriminator
  unfold SchemaNote.selected at h
  cases hd : n.discriminator with
  | none => exact L.pure trivial
  | some propertyName =>
    rw [hd] at h
    exact L.bind (L.mapping hi {} n.mapping h) fun m => L.pure fun _ => trivial

/-- What a note declares may be laid over any schema. -/
theorem declared (n : SchemaNote) (hint : Option SchemaType)
    (h : ∀ t ∈ n.oneOf ++ n.anyOf ++ n.allOf ++ n.negated.toList ++ n.selected, S t) :
    L.rel (fun u => ∀ s, T.schema s → T.schema (s.declare u)) (Inference.declared infer n hint)
      (Inference.declared infer' n hint) := by
  simp only [List.forall_mem_append] at h
  obtain ⟨⟨⟨⟨hone, hany⟩, hall⟩, hnot⟩, hselected⟩ := h
  refine L.bind (L.check (T.keywords n hint)) fun k => ?_
  refine L.bind (L.each hi n.oneOf hone) fun ones => ?_
  refine L.bind (L.each hi n.anyOf hany) fun anys => ?_
  refine L.bind (L.each hi n.allOf hall) fun alls => ?_
  refine L.bind (L.whereNamed hi n.negated hnot) fun negated => ?_
  refine L.bind (L.discriminator hi n hselected) fun d => ?_
  exact L.pure fun _ hnegated halls hanys hones hk s hs =>
    T.declare s n hint k d ones anys alls negated hs hk hones hanys halls hnegated

theorem merge (s : Schema) {n : SchemaNote} (hn : T.AdmitsNote n) (h : ∀ t ∈ n.asked, S t) :
    L.rel (fun r => T.schema s → T.schema r) (Inference.merge infer s n)
      (Inference.merge infer' s n) := by
  unfold Inference.merge
  cases hr : n.reference with
  | some r =>
    dsimp only
    split
    · exact L.fail (T.notASchema r)
    · exact L.pure fun _ => hn r hr
  | none =>
    simp only [SchemaNote.asked, hr, Option.isSome_none, Bool.false_eq_true, ↓reduceIte] at h
    refine L.bind (L.check (T.typeHint s n)) fun hint => ?_
    refine L.bind (L.declared hi n hint h) fun upper => ?_
    exact L.pure fun hupper _ hs => hupper s hs

theorem explicit {n : SchemaNote} (hn : T.AdmitsNote n) (h : ∀ t ∈ n.askedAlone, S t) :
    L.rel T.schema (Inference.explicit infer n) (Inference.explicit infer' n) := by
  unfold Inference.explicit
  unfold SchemaNote.askedAlone at h
  cases hr : n.reference with
  | some r =>
    have hasked : ∀ t ∈ n.asked, S t := by simp [SchemaNote.asked, hr]
    exact L.mono (L.merge hi {} hn hasked) fun s hs => hs T.blank
  | none =>
    simp only [hr, Option.isSome_none, Bool.false_eq_true, ↓reduceIte,
      List.forall_mem_append] at h
    cases ht : n.implementation with
    | none => exact L.mono (L.merge hi {} hn h.2) fun s hs => hs T.blank
    | some t =>
      refine L.bind (hi t (h.1 t (by simp [ht]))) fun base => ?_
      exact L.mono (L.merge hi base hn h.2) fun s hs hbase => hs hbase.1

theorem member (t : TypeExpr) {n : Option SchemaNote} (hn : ∀ m ∈ n, T.AdmitsNote m)
    (h : ∀ u ∈ SchemaNote.askedAt t n, S u) :
    L.rel T.schema (Inference.member infer t n) (Inference.member infer' t n) := by
  cases n with
  | none => exact L.mono (hi t (h t List.mem_cons_self)) fun s hs => hs.1
  | some n =>
    have hn : T.AdmitsNote n := hn n rfl
    unfold SchemaNote.askedAt at h
    unfold Inference.member
    cases hr : n.replacesInference with
    | true =>
      simp only [hr, ↓reduceIte] at h ⊢
      exact L.explicit hi hn h
    | false =>
      simp only [hr, Bool.false_eq_true, ↓reduceIte, List.forall_mem_cons] at h ⊢
      refine L.bind (hi t h.1) fun s => ?_
      exact L.mono (L.merge hi s hn h.2) fun r hr hs => hr hs.1

theorem markField (f : FieldDecl) (property : Schema) :
    L.rel (fun s => T.schema property → T.schema s) (Inference.markField infer f property)
      (Inference.markField infer' f property) := by
  unfold Inference.markField
  split
  · exact L.merge hi property (fun r hr => by cases hr)
      (by simp [SchemaNote.asked, SchemaNote.selected])
  · exact L.pure id

end Notes

/-! ### Fields -/

/-- What the fields of a set of demands ask of the levels below. -/
structure Answers (L : Logic T) (catalog catalog' : Catalog) (S : Demand → Prop)
    (l l' : Level) : Prop where
  schemaOf : ∀ t, S (.schema t) → L.rel (T.Describes t) (l.schemaOf t) (l'.schemaOf t)
  flattened : ∀ t, S (.flattened t) →
    Option.Rel (L.rel T.Object) (splice? catalog l t) (splice? catalog' l' t)
  demanded : ∀ t, S (.flattened t) → splice? catalog l t = none → S (.schema t)

theorem splices {L : Logic T} {catalog : Catalog} {below below' : Level} {t : TypeExpr}
    (h : ∀ d fields, catalog.get? t.name = some d → d.fields? = some fields →
      L.rel T.Object (below.fieldsOf fields (d.bindings t.args))
        (below'.fieldsOf fields (d.bindings t.args))) :
    Option.Rel (L.rel T.Object) (splice? catalog below t) (splice? catalog below' t) := by
  unfold splice?
  cases hd : catalog.get? t.name with
  | none => exact .none
  | some d =>
    cases hf : d.fields? with
    | none => simp [hf]
    | some fields => simpa [hf] using Option.Rel.some (h d fields hd hf)

section Fields

variable {L} {catalog catalog' : Catalog} {S : Demand → Prop} {below below' : Level}
variable (ha : L.Answers catalog catalog' S below below')

include ha

theorem flatten (o : Schema) {t : TypeExpr} (ht : S (.flattened t)) :
    L.rel (fun s => T.Object o → T.Object s) (Inference.flatten catalog below o t)
      (Inference.flatten catalog' below' o t) := by
  rw [flatten_eq, flatten_eq]
  have hdemanded := ha.demanded t ht
  have hrel := ha.flattened t ht
  generalize splice? catalog below t = g, splice? catalog' below' t = g' at hdemanded hrel
  cases hrel with
  | some hi =>
    refine L.bind hi fun i => L.pure fun hi ho => ⟨T.absorb o i ho.1 ho.2 hi.1, ?_⟩
    exact (Schema.reference_requireAll o _).trans ho.2
  | none =>
    refine L.bind (ha.schemaOf t (hdemanded rfl)) fun part => L.pure fun hp ho => ?_
    exact ⟨T.part o part ho.1 ho.2 hp.1, ho.2⟩

theorem property (o : Schema) {f : FieldDecl} (hn : ∀ n ∈ f.schema, T.AdmitsNote n)
    {t : TypeExpr} (h : ∀ u ∈ SchemaNote.askedAt t f.schema, S (.schema u)) :
    L.rel (fun s => T.Object o → T.Object s) (Inference.property below o f t)
      (Inference.property below' o f t) := by
  refine L.bind (L.member ha.schemaOf t hn h) fun described => ?_
  refine L.bind (L.markField ha.schemaOf f described) fun marked => L.pure fun hm hd ho => ?_
  split
  · exact ⟨T.required o _ marked ho.1 ho.2 (hm hd), (Schema.reference_require o _).trans ho.2⟩
  · exact ⟨T.property o _ marked ho.1 ho.2 (hm hd), ho.2⟩

theorem field {bindings : TypeExpr.Bindings} (o : Schema) {f : FieldDecl}
    (hf : T.Ready S bindings f) :
    L.rel (fun s => T.Object o → T.Object s) (Inference.field catalog below bindings o f)
      (Inference.field catalog' below' bindings o f) := by
  have hdemands := hf.demands
  unfold Inference.field
  unfold FieldDecl.demands at hdemands
  cases habsent : f.isAbsent with
  | true => exact L.pure id
  | false =>
    cases hflat : f.flattened with
    | true =>
      simp only [habsent, hflat, Bool.false_eq_true, ↓reduceIte,
        List.forall_mem_singleton] at hdemands ⊢
      exact flatten ha o hdemands
    | false =>
      simp only [habsent, hflat, Bool.false_eq_true, ↓reduceIte, List.forall_mem_map] at hdemands ⊢
      exact property ha o hf.note hdemands

theorem object {fields : List FieldDecl} {bindings : TypeExpr.Bindings}
    (h : ∀ f ∈ fields, T.Ready S bindings f) :
    L.rel T.Object (Inference.object catalog below fields bindings)
      (Inference.object catalog' below' fields bindings) := by
  have hstart : T.Object (.ofType .object) := ⟨T.ofType .object, rfl⟩
  exact L.foldlM_of hstart fun o f hf => field ha o (h f hf)

end Fields

/-! ### Declarations -/

section Alike

variable (S : TypeExpr → Prop) (below below' : Level) (bindings bindings' : TypeExpr.Bindings)

inductive AlikePayloads : VariantPayload → VariantPayload → Prop
  | unit : AlikePayloads .unit .unit
  | tuple (ts us : List TypeExpr) : AlikePayloads (.tuple ts) (.tuple us)
  | newtype {t u : TypeExpr} (h : S (t.substitute bindings))
    (he : u.substitute bindings' = t.substitute bindings) : AlikePayloads (.newtype t) (.newtype u)
  | struct {fs gs : List FieldDecl}
    (h : L.rel T.Object (below.fieldsOf fs bindings) (below'.fieldsOf gs bindings')) :
    AlikePayloads (.struct fs) (.struct gs)

structure AlikeVariants (v v' : VariantDecl) : Prop where
  name : v.wireName = v'.wireName
  payload : L.AlikePayloads S below below' bindings bindings' v.payload v'.payload

inductive AlikeShapes : TypeShape → TypeShape → Prop
  | struct {fs gs : List FieldDecl}
    (h : L.rel T.Object (below.fieldsOf fs bindings) (below'.fieldsOf gs bindings')) :
    AlikeShapes (.struct fs) (.struct gs)
  | newtype {t u : TypeExpr} (h : S (t.substitute bindings))
    (he : u.substitute bindings' = t.substitute bindings) : AlikeShapes (.newtype t) (.newtype u)
  | enum {vs vs' : List VariantDecl}
    (h : List.Forall₂ (L.AlikeVariants S below below' bindings bindings') vs vs') :
    AlikeShapes (.enum vs) (.enum vs')

/-- Declarations that two levels describe alike, each with arguments of its own. -/
structure Alike (args args' : List TypeExpr) (d d' : TypeDecl) : Prop where
  shape : L.AlikeShapes S below below' (d.bindings args) (d'.bindings args') d.shape d'.shape
  schema : d'.schema = d.schema
  deprecated : d'.deprecated = d.deprecated
  asked : ∀ n ∈ d.schema, ∀ t ∈ n.asked, S t

end Alike

section Declarations

variable {L} {S : TypeExpr → Prop} {below below' : Level} {bindings bindings' : TypeExpr.Bindings}
variable (hi : ∀ t, S t → L.rel (T.Describes t) (below.schemaOf t) (below'.schemaOf t))

theorem AlikeVariants.isUnit {v v' : VariantDecl}
    (h : L.AlikeVariants S below below' bindings bindings' v v') : v.isUnit = v'.isUnit := by
  have hpayload := h.payload
  unfold VariantDecl.isUnit
  generalize v.payload = p, v'.payload = p' at hpayload
  cases hpayload <;> rfl

theorem forall₂_variants {vs vs' : List VariantDecl}
    (h : List.Forall₂ (L.AlikeVariants S below below' bindings bindings') vs vs') :
    vs.all (·.isUnit) = vs'.all (·.isUnit) ∧ vs.map (·.wireName) = vs'.map (·.wireName) := by
  induction h with
  | nil => exact ⟨rfl, rfl⟩
  | cons hv _ ih => simp [hv.isUnit, hv.name, ih.1, ih.2]

include hi

theorem variant {v v' : VariantDecl} (h : L.AlikeVariants S below below' bindings bindings' v v') :
    L.rel T.Object (Inference.variant below bindings v)
      (Inference.variant below' bindings' v') := by
  have htagged : ∀ s, T.schema s → T.Object (tagged v'.wireName s) := fun s hs =>
    ⟨T.tagged _ s hs, rfl⟩
  have hpayload := h.payload
  unfold Inference.variant
  rw [h.name]
  generalize v.payload = p, v'.payload = p' at hpayload
  cases hpayload with
  | unit => exact L.pure ⟨T.words _, rfl⟩
  | tuple => exact L.pure (htagged _ (T.ofType .array))
  | newtype ht he =>
    dsimp only
    rw [he]
    exact L.bind (hi _ ht) fun s => L.pure fun hs => htagged s hs.1
  | struct hf => exact L.bind hf fun s => L.pure fun hs => htagged s hs.1

theorem variants {vs vs' : List VariantDecl}
    (h : List.Forall₂ (L.AlikeVariants S below below' bindings bindings') vs vs') :
    L.rel (fun ss => ∀ s ∈ ss, T.schema s) (Inference.variants below bindings vs)
      (Inference.variants below' bindings' vs') := by
  induction h with
  | nil => exact L.pure (List.forall_mem_nil _)
  | cons hv _ ih =>
    refine L.bind (variant hi hv) fun s => L.bind ih fun ss => ?_
    exact L.pure fun hss hs => List.forall_mem_cons.mpr ⟨hs.1, hss⟩

theorem shape {d d' : TypeShape} (h : L.AlikeShapes S below below' bindings bindings' d d') :
    L.rel (fun s => T.schema s ∧ ((∀ inner, d ≠ .newtype inner) → s.reference = none))
      (Inference.shape below bindings d) (Inference.shape below' bindings' d') := by
  cases h with
  | struct hf => exact L.mono hf fun s hs => ⟨hs.1, fun _ => hs.2⟩
  | newtype ht he =>
    unfold Inference.shape
    dsimp only
    rw [he]
    exact L.mono (hi _ ht) fun s hs => ⟨hs.1, fun h => absurd rfl (h _)⟩
  | enum hvs =>
    obtain ⟨hunits, hwords⟩ := forall₂_variants hvs
    simp only [Inference.shape, alternatives, hunits, hwords]
    split
    · exact L.pure ⟨T.words _, fun _ => rfl⟩
    · exact L.bind (variants hi hvs) fun ss => L.pure fun hss => ⟨T.oneOf ss hss, fun _ => rfl⟩

theorem content {d d' : TypeDecl} (hd : T.Admits d) {args args' : List TypeExpr}
    (h : L.Alike S below below' args args' d d') :
    L.rel T.schema (Inference.content below d args) (Inference.content below' d' args') := by
  unfold Inference.content
  rw [h.schema, h.deprecated]
  refine L.bind (shape hi h.shape) fun s => ?_
  have hmarked : (T.schema s ∧ ((∀ inner, d.shape ≠ .newtype inner) → s.reference = none)) →
      T.schema (if d.deprecated then
        { s with keywords := { s.keywords with deprecated := some true } } else s) := by
    intro hs
    split
    · exact T.deprecated d s hd.declaration ‹_› hs.1 hs.2
    · exact hs.1
  cases hn : d.schema with
  | none => exact L.pure hmarked
  | some n =>
    have hadmits := hd.notes n (List.mem_append_left _ (by simp [hn]))
    exact L.mono (L.merge hi _ hadmits (h.asked n hn)) fun r hr hs => hr (hmarked hs)

/-- A component is left to show, and what it is opened for. -/
theorem describe {catalog catalog' : Catalog} {t : TypeExpr}
    (ht : Head.ofName t.name ≠ .named → ∀ u, .schema u ∈ catalog.schemaDemands t → S u)
    (hopen : scalar? t = none → Head.ofName t.name = .named →
      Option.Rel (fun d d' => L.rel T.schema (component below d t) (component below' d' t))
        (catalog.get? t.name) (catalog'.get? t.name)) :
    L.rel (T.Describes t) (Inference.describe catalog below t)
      (Inference.describe catalog' below' t) := by
  unfold Inference.describe
  cases hs : scalar? t with
  | some s =>
    exact L.pure ⟨T.scalar t s hs, fun c hc => Option.some.inj (hs.symm.trans hc)⟩
  | none =>
    have hplain : ∀ s, T.schema s → T.Describes t s := fun s h =>
      ⟨h, fun c hc => by rw [hs] at hc; cases hc⟩
    have hobject := hplain _ (T.ofType .object)
    unfold Catalog.schemaDemands at ht
    cases hh : Head.ofName t.name <;> cases hargs : t.args
    all_goals simp only [hs, hh, hargs] at ht hopen
    case option.nil | pointer.nil | map.nil => exact L.pure hobject
    case anything.nil | anything.cons | tuple.nil => exact L.pure (hplain _ T.blank)
    case sequence.nil | tuple.cons => exact L.pure (hplain _ (T.ofType .array))
    case option.cons inner rest =>
      refine L.bind (hi inner (ht (by simp) _ List.mem_cons_self)) fun s => L.pure fun h => ?_
      apply hplain
      cases hc : scalar? inner with
      | none => exact h.1
      | some c =>
        rw [h.2 c hc]
        exact T.nullable inner c hc
    case pointer.cons inner rest =>
      exact L.mono (hi inner (ht (by simp) _ List.mem_cons_self)) fun s h => hplain s h.1
    case map.cons key rest =>
      cases rest with
      | nil => exact L.pure hobject
      | cons value rest =>
        refine L.bind (hi value (ht (by simp) _ List.mem_cons_self)) fun s => L.pure fun h => ?_
        split
        · exact hobject
        · exact hplain _ (T.mapOf s h.1)
    case sequence.cons unique binary inner rest =>
      dsimp only
      split
      · exact L.pure (hplain _ (T.ofFormat _ _))
      · rename_i hb
        rw [if_neg hb] at ht
        refine L.bind (hi inner (ht (by simp) _ List.mem_cons_self)) fun s => L.pure fun h => ?_
        split
        · exact hplain _ (T.unique s h.1)
        · exact hplain _ (T.arrayOf s h.1)
    case named.nil | named.cons =>
      have hrel := hopen trivial trivial
      generalize catalog.get? t.name = d, catalog'.get? t.name = d' at hrel
      cases hrel with
      | none => exact L.pure hobject
      | some h => exact L.mono h hplain

omit hi in
/-- A declaration is like itself where its demands are met. -/
theorem alike_self {d : TypeDecl} {args : List TypeExpr}
    (ht : ∀ t, .schema t ∈ d.demands args → S t)
    (hf : ∀ fields ∈ d.fieldLists, L.rel T.Object (below.fieldsOf fields (d.bindings args))
      (below'.fieldsOf fields (d.bindings args))) : L.Alike S below below' args args d d where
  schema := rfl
  deprecated := rfl
  asked n hn t h := ht t (List.mem_append_right _ (by simpa using ⟨n, hn, h⟩))
  shape := by
    have hdemands : ∀ t, .schema t ∈ d.shape.demands (d.bindings args) → S t := fun t h =>
      ht t (List.mem_append_left _ h)
    cases hd : d.shape with
    | struct fields =>
      have hfields : fields ∈ d.fieldLists :=
        TypeDecl.mem_fieldLists_of_fields? (by simp [TypeDecl.fields?, hd])
      exact .struct (hf fields hfields)
    | newtype inner =>
      rw [hd] at hdemands
      exact .newtype (hdemands _ List.mem_cons_self) rfl
    | enum vs =>
      rw [hd] at hdemands
      refine .enum (List.forall₂_same.mpr fun v hv => ⟨rfl, ?_⟩)
      cases hp : v.payload with
      | unit => exact .unit
      | tuple members => exact .tuple _ _
      | newtype inner =>
        refine .newtype (hdemands _ (List.mem_flatMap.mpr ⟨v, hv, ?_⟩)) rfl
        simp [VariantDecl.demands, hp]
      | struct fields => exact .struct (hf fields (TypeDecl.mem_fieldLists_of_variant hd hv hp))

end Declarations

end Logic

end ApiDoc.Inference
