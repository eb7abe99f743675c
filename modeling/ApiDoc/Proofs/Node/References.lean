import ApiDoc.Node.Payload
import ApiDoc.Proofs.Inference.References

/-!
# References of nodes

Nodes are put together from the schemas of types as schemas are from those of the level
below: by sequence, choice and failure, without a look at the arena. So a relation that
holds of how two inferences describe each type holds of how nodes are made with them, and
the nodes refer to what is known if the schemas do.
-/

set_option autoImplicit false

namespace ApiDoc

open Inference (Gen Logic resolving)

variable {known : String → Prop}

/-- What the notes refer to themselves is known. -/
def Admissible (known : String → Prop) (notes : List SchemaNote) : Prop :=
  ∀ n ∈ notes, (resolving known).AdmitsNote n

@[simp] theorem admissible_append {ns ms : List SchemaNote} :
    Admissible known (ns ++ ms) ↔ Admissible known ns ∧ Admissible known ms :=
  List.forall_mem_append

@[simp] theorem admissible_flatMap {α : Type} {f : α → List SchemaNote} {xs : List α} :
    Admissible known (xs.flatMap f) ↔ ∀ x ∈ xs, Admissible known (f x) :=
  List.forall_mem_flatMap

theorem admissible_of_unreferenced {notes : List SchemaNote} (h : Unreferenced notes) :
    Admissible known notes := fun n hn => Inference.admitsNote_of_unreferenced (h n hn)

theorem admissible_of_everything (h : ∀ r, known r) (notes : List SchemaNote) :
    Admissible known notes := fun _ _ _ _ r _ => h r

variable {L : Logic (resolving known)} {infer infer' : TypeExpr → Gen Schema}
variable (hi : ∀ t, True → L.rel ((resolving known).Describes t) (infer t) (infer' t))

include hi

theorem SchemaNote.related_orOf (type : Option TypeExpr) {note : Option SchemaNote}
    (hn : Admissible known note.toList) :
    L.rel (fun s => ∀ c ∈ s, Within known c.references) (orOf infer note type)
      (orOf infer' note type) := by
  have hsome : ∀ {s : Schema}, Within known s.references →
      ∀ c ∈ some s, Within known c.references := fun hs c hc => Option.some.inj hc ▸ hs
  have hnote : ∀ n ∈ note, (resolving known).AdmitsNote n := fun n h =>
    hn n (Option.mem_toList.mpr h)
  cases note with
  | none =>
    cases type with
    | none => exact L.pure fun _ hc => by cases hc
    | some t => exact L.bind (hi t trivial) fun s => L.pure fun hs => hsome hs.1
  | some n =>
    cases type with
    | some t => exact L.bind (L.member hi t hnote fun _ _ => trivial) fun s => L.pure hsome
    | none =>
      refine L.bind (L.explicit hi (hnote n rfl) fun _ _ => trivial) fun s => L.pure fun hs => ?_
      split
      · exact hsome hs
      · exact fun _ hc => by cases hc

/-! ### Payloads -/

abbrev Content.Resolves (known : String → Prop) (c : Content) : Prop :=
  c.All fun m => Within known m.references

namespace ContentNote

theorem related_node (fallback : Option TypeExpr) {n : ContentNote}
    (hn : Admissible known n.schemaNotes) :
    L.rel (fun m => Within known m.references) (n.node infer fallback) (n.node infer' fallback) :=
  L.bind (SchemaNote.related_orOf hi fallback hn) fun _ =>
    L.bind (L.check fun _ _ => trivial) fun _ => L.pure fun _ hs => MediaType.within_whole rfl hs

theorem related_table (effective : List String) (fallback : Option TypeExpr)
    {notes : List ContentNote} (hn : ∀ n ∈ notes, Admissible known n.schemaNotes) :
    L.rel (Content.Resolves known) (table infer effective fallback notes)
      (table infer' effective fallback notes) := by
  refine L.foldlM_of (Ordered.all_empty _) fun content n hm => ?_
  refine L.bind (related_node hi fallback (hn n hm)) fun media => L.pure fun hmedia hc => ?_
  apply hc.putAll
  intro row hrow
  obtain ⟨m, -, rfl⟩ := List.mem_map.mp hrow
  exact hmedia

theorem related_inferred (effective : List String) (t : TypeExpr) :
    L.rel (Content.Resolves known) (inferred infer effective t) (inferred infer' effective t) := by
  refine L.bind (hi t trivial) fun s => L.pure fun hs => Ordered.all_ofRows fun row hrow => ?_
  obtain ⟨m, -, rfl⟩ := List.mem_map.mp hrow
  exact MediaType.within_whole rfl fun _ hc => Option.some.inj hc ▸ hs.1

end ContentNote

theorem HeaderNote.related_node {n : HeaderNote} (hn : Admissible known n.schemaNotes) :
    L.rel (fun h => Within known h.references) (n.node infer) (n.node infer') := by
  unfold node
  split
  · exact L.pure within_nil
  · refine L.bind (SchemaNote.related_orOf hi none hn) fun schema =>
      L.bind (L.check fun _ _ => trivial) fun _ => L.pure fun _ hs =>
        within_append.mpr ⟨?_, within_nil⟩
    -- a header without schema is a text
    cases schema with
    | none => exact Schema.within_ofType .string
    | some s => exact hs s rfl

namespace ResponseNote

theorem related_headerTable {notes : List HeaderNote}
    (hn : ∀ n ∈ notes, Admissible known n.schemaNotes) :
    L.rel (fun hs : Ordered Header => hs.All fun h => Within known h.references)
      (headerTable infer notes) (headerTable infer' notes) := by
  refine L.foldlM_of (Ordered.all_empty _) fun headers n hm => ?_
  exact L.bind (HeaderNote.related_node hi (hn n hm)) fun h => L.pure fun hh hs => hs.put n.name hh

theorem related_node (produces : List String) (fallback : Option TypeExpr) {n : ResponseNote}
    (hn : Admissible known n.schemaNotes) :
    L.rel (fun r => Within known r.references) (n.node infer produces fallback)
      (n.node infer' produces fallback) := by
  simp only [schemaNotes, admissible_append, admissible_flatMap] at hn
  unfold node
  split
  · exact L.pure within_nil
  · refine L.bind (ContentNote.related_table hi produces fallback hn.1) fun _ => ?_
    refine L.bind (L.check fun _ _ => trivial) fun _ => ?_
    refine L.bind (related_headerTable hi hn.2) fun _ => ?_
    refine L.bind (L.check fun _ _ => trivial) fun _ => L.pure fun _ hh _ hc => ?_
    exact within_append.mpr ⟨MediaType.within_headers.mpr hh, MediaType.within_content.mpr hc⟩

end ResponseNote

namespace BodyNote

theorem related_payload (consumes : List String) (fallback : Option TypeExpr) {n : BodyNote}
    (hn : Admissible known n.schemaNotes) :
    L.rel (Content.Resolves known) (n.payload infer consumes fallback)
      (n.payload infer' consumes fallback) := by
  simp only [schemaNotes, admissible_flatMap] at hn
  unfold payload
  split
  · exact ContentNote.related_inferred hi consumes _
  · exact ContentNote.related_table hi consumes _ hn

theorem related_node (consumes : List String) (fallback : Option TypeExpr) {n : BodyNote}
    (hn : Admissible known n.schemaNotes) :
    L.rel (fun b => Within known b.references) (n.node infer consumes fallback)
      (n.node infer' consumes fallback) := by
  unfold node
  split
  · exact L.pure within_nil
  · exact L.bind (related_payload hi consumes fallback hn) fun _ =>
      L.bind (L.check fun _ _ => trivial) fun _ => L.pure fun _ hc =>
        MediaType.within_content.mpr hc

end BodyNote

theorem ParameterNote.related_node (fallback : Option TypeExpr) {n : ParameterNote}
    (hn : Admissible known n.schemaNotes) :
    L.rel (fun p => Within known p.references) (n.node infer fallback)
      (n.node infer' fallback) := by
  simp only [schemaNotes, admissible_append, admissible_flatMap] at hn
  unfold node
  split
  · exact L.pure within_nil
  · refine L.bind (L.check fun _ _ => trivial) fun _ =>
      L.bind (L.check fun _ _ => trivial) fun _ => ?_
    dsimp only
    split
    · exact L.bind (SchemaNote.related_orOf hi fallback hn.1) fun _ => L.pure fun hs _ _ =>
        within_append.mpr ⟨Schema.within_option.mpr hs, within_nil⟩
    · exact L.bind (ContentNote.related_table hi [] fallback hn.2) fun _ => L.pure fun hc _ _ =>
        within_append.mpr ⟨within_nil, MediaType.within_content.mpr hc⟩

/-! ### Callbacks -/

namespace CallbackOperationNote

theorem related_parameterList {notes : List ParameterNote}
    (hn : ∀ n ∈ notes, Admissible known n.schemaNotes) :
    L.rel (fun ps => ∀ p ∈ ps, Within known p.references) (parameterList infer notes)
      (parameterList infer' notes) := by
  refine L.foldlM_of (List.forall_mem_nil _) fun ps n hm => ?_
  refine L.bind (ParameterNote.related_node hi none (hn n hm)) fun p => L.pure fun hp hps => ?_
  exact List.forall_mem_append.mpr ⟨hps, by simpa using hp⟩

theorem related_body? {note : Option BodyNote} (hn : ∀ n ∈ note, Admissible known n.schemaNotes) :
    L.rel (fun body => ∀ b ∈ body, Within known b.references) (body? infer note)
      (body? infer' note) := by
  cases note with
  | none => exact L.pure fun _ hb => by cases hb
  | some n =>
    exact L.bind (BodyNote.related_node hi [] none (hn n rfl)) fun body => L.pure fun hb _ hc =>
      Option.some.inj hc ▸ hb

theorem related_responseTable {notes : List ResponseNote}
    (hn : ∀ n ∈ notes, Admissible known n.schemaNotes) :
    L.rel (fun rs : Ordered Response => rs.All fun r => Within known r.references)
      (responseTable infer notes) (responseTable infer' notes) := by
  refine L.foldlM_of (Ordered.all_empty _) fun rs n hm => ?_
  exact L.bind (ResponseNote.related_node hi [] none (hn n hm)) fun r => L.pure fun hr hrs =>
    hrs.put n.status hr

theorem related_node {n : CallbackOperationNote} (hn : Admissible known n.schemaNotes) :
    L.rel (fun o => Within known o.references) (n.node infer) (n.node infer') := by
  simp only [schemaNotes, admissible_append, admissible_flatMap, Option.mem_toList] at hn
  refine L.bind (related_parameterList hi hn.1.1) fun _ => ?_
  refine L.bind (related_body? hi hn.1.2) fun _ => ?_
  refine L.bind (related_responseTable hi hn.2) fun _ => L.pure fun hr hb hp => ?_
  refine Operation.within_iff.mpr ⟨hp, hb, fun rs hrs => ?_, Ordered.all_empty _⟩
  rw [← Option.some.inj hrs]
  exact Responses.within_iff.mpr hr

end CallbackOperationNote

theorem CallbackNote.related_node {n : CallbackNote} (hn : Admissible known n.schemaNotes) :
    L.rel (fun c => Within known c.references) (n.node infer) (n.node infer') := by
  simp only [schemaNotes, admissible_flatMap] at hn
  unfold node
  split
  · exact L.pure within_nil
  · refine L.bind (L.foldlM_of (R := fun item : PathItem => item.parameters = [] ∧
        ∀ m, ∀ o ∈ item.slots.at? m, Within known o.references)
        ⟨rfl, fun m o ho => by cases m <;> cases ho⟩ fun item o hm => ?step) fun item =>
      L.pure fun hitem => ?_
    case step =>
      refine L.bind (CallbackOperationNote.related_node hi (hn o hm)) fun operation =>
        L.pure fun ho hitem => ⟨hitem.1, fun m p hp => ?_⟩
      by_cases he : m = o.method
      · rw [he, item.slots.at?_set_self] at hp
        exact Option.some.inj hp ▸ ho
      · rw [item.slots.at?_set_ne he] at hp
        exact hitem.2 m p hp
    split
    · exact within_nil
    · refine Operation.within_items.mpr fun row hrow => ?_
      obtain rfl := List.mem_singleton.mp hrow
      exact ⟨fun p hp => by simp [hitem.1] at hp, hitem.2⟩

end ApiDoc
