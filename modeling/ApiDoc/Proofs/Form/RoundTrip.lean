import ApiDoc.Proofs.Form.Document
import ApiDoc.Proofs.Json.ReadBack

/-!
# Saving a document and loading it again

The JSON text of a document that can be stored is read as that document, designations
apart. Whatever a text with whole numbers holds can be stored and has no designations, so
that loading, saving and loading again gives what the first loading gave.
-/

set_option autoImplicit false

namespace ApiDoc

variable {n : Nat}

/-! ### Nothing is designated -/

theorem ByMethod.map_eq_self {α : Type} {f : α → α} {s : ByMethod α}
    (h : ∀ m, ∀ a ∈ s.at? m, f a = a) : s.map f = s := by
  have hslot : ∀ m, (s.at? m).map f = s.at? m := by
    intro m
    cases hm : s.at? m with
    | none => rfl
    | some a => rw [Option.map_some, h m a hm]
  cases s
  rw [map, mk.injEq]
  exact ⟨hslot .get, hslot .put, hslot .post, hslot .delete, hslot .options, hslot .head,
    hslot .patch, hslot .trace⟩

section

variable {operation : Type} {P : Nat → operation → Prop} {f : operation → operation}
  (hP : ∀ m o, P m o → f o = o)

include hP

theorem PathItemOf.Storable.map_eq_self {i : PathItemOf operation} (h : Storable P n i) :
    i.map f = i := by
  rw [map, ByMethod.map_eq_self fun m o ho => hP n o (h.slots m o ho)]

theorem CallbackOf.Storable.map_eq_self {c : CallbackOf operation} (h : Storable P n c) :
    c.map f = c := by
  have hitems : c.expressions.All fun i => i.map f = i := by
    intro row hrow
    obtain ⟨hi⟩ := h.expressions.values row hrow
    exact hi.map_eq_self hP
  rw [map, Ordered.mapValues_eq_self hitems]

end

namespace Operation

variable {P : Nat → Operation → Prop} {o : Operation}

theorem StorableOver.undesignated_eq_self (hP : ∀ m c, P m c → c.undesignated = c)
    (h : StorableOver Responses.Bare P n o) : o.undesignated = o := by
  have hresponses : o.responses.map Responses.undesignated = o.responses := by
    cases hr : o.responses with
    | none => rfl
    | some r =>
      have hbare : r.designated = none := (h.responses r hr).designated
      cases r
      cases hbare
      rfl
  have hcallbacks : o.callbacks.All fun c => c.map undesignated = c := by
    refine h.callbacks.all ?_
    rintro _ c ⟨hc⟩
    exact hc.map_eq_self hP
  rw [undesignated_eq, hresponses, Ordered.mapValues_eq_self hcallbacks]
  cases o
  rfl

theorem undesignated_eq_self (h : Storable Responses.Bare n o) : o.undesignated = o := by
  induction h with
  | intro below _ h ih =>
    refine h.undesignated_eq_self ?_
    rintro m c ⟨hc⟩
    exact ih _ c hc

end Operation

theorem PathItem.undesignated_eq_self {i : PathItem} (h : Storable Responses.Bare n i) :
    i.undesignated = i := by
  refine h.map_eq_self ?_
  rintro m o ⟨ho⟩
  exact Operation.undesignated_eq_self ho

theorem Callback.undesignated_eq_self {c : Callback} (h : Storable Responses.Bare n c) :
    c.undesignated = c := by
  refine h.map_eq_self ?_
  rintro m o ⟨ho⟩
  exact Operation.undesignated_eq_self ho

theorem Components.undesignated_eq_self {c : Components} (h : Storable Responses.Bare n c) :
    c.undesignated = c := by
  have hcallbacks : c.callbacks.All fun c => c.undesignated = c := by
    refine h.callbacks.all ?_
    rintro _ c ⟨hc⟩
    exact Callback.undesignated_eq_self hc
  rw [undesignated, Ordered.mapValues_eq_self hcallbacks]

namespace OpenApi

variable {d : OpenApi}

theorem undesignated_eq_self (h : Deeper (StorableWith Responses.Bare) n d) :
    d.undesignated = d := by
  obtain ⟨h⟩ := h
  have hpaths : d.paths.All fun i => i.undesignated = i := by
    refine h.paths.all ?_
    rintro _ i ⟨hi⟩
    exact PathItem.undesignated_eq_self hi
  have hcomponents : d.components.map Components.undesignated = d.components := by
    cases hc : d.components with
    | none => rfl
    | some c =>
      obtain ⟨hstored⟩ := h.components c hc
      rw [Option.map_some, Components.undesignated_eq_self hstored]
  rw [undesignated, Ordered.mapValues_eq_self hpaths, hcomponents]

/-! ### Text -/

/-- The document is read as it was written: no null stands where it would mean nothing, no
extension bears a field's name and no callback expression is a reference, all numbers are
whole and of 64 bits, and no key of a free-form value stands twice. Any number may bound the
levels. -/
def Storable (d : OpenApi) : Prop := ∃ n, Deeper (StorableWith Responses.Free) n d

section

variable {D : Option String → Prop} (hD : D none) (h : Deeper (StorableWith D) n d)

include hD h

theorem restores_json : codec.Restores 128 n d d.undesignated := (stored hD).restores h

theorem height_toJson_le : d.toJson.height ≤ n := (restores_json hD h).height

theorem ofJsonText?_toJsonText (hlevels : d.toJson.height < 128) :
    ofJsonText? d.toJsonText = some d.undesignated := by
  have hback := restores_json hD h
  have hparse : Json.parse? d.toJsonText = some d.toJson :=
    Json.parse?_pretty hback.whole (Nat.le_of_lt_succ hlevels)
  rw [ofJsonText?, hparse]
  exact hback.back hlevels

end

/-- What a text with whole numbers holds can be stored, with the levels of the text or the
seven that the scopes of an authorization flow may need. -/
theorem storable_of_ofJsonText? {text : String} {j : Json} (hj : Json.parse? text = some j)
    (hwhole : j.isWhole = true) (hd : ofJsonText? text = some d) :
    Deeper (StorableWith Responses.Bare) (max j.height 7) d := by
  rw [ofJsonText?, hj, Option.bind_some] at hd
  have hstored : codec.Stored 0 7 (Deeper (StorableWith Responses.Bare)) undesignated := stored rfl
  exact hstored.reads hwhole (Nat.le_max_left ..) (Nat.le_max_right ..) hd

/-- A document that can be stored is loaded as it was saved, without the designations of
its default responses; and what a text holds is saved as another text for the same. -/
theorem json_round_trip :
    (∀ d : OpenApi, d.Storable → d.toJson.height < 128 →
      ofJsonText? d.toJsonText = some d.undesignated) ∧
    (∀ text j d, Json.parse? text = some j → j.isWhole = true → ofJsonText? text = some d →
      ofJsonText? d.toJsonText = some d) := by
  constructor
  · rintro d ⟨n, hd⟩ hlevels
    exact ofJsonText?_toJsonText trivial hd hlevels
  · intro text j d hj hwhole hd
    have hstored := storable_of_ofJsonText? hj hwhole hd
    have hlevels : d.toJson.height < 128 := by
      have htext : j.height ≤ 127 := Json.height_parse? hj
      have hdocument := height_toJson_le (D := Responses.Bare) rfl hstored
      omega
    rw [ofJsonText?_toJsonText (D := Responses.Bare) rfl hstored hlevels,
      undesignated_eq_self hstored]

section Witness

def notification : Operation :=
  { responses := some { entries := .ofRows [("204", {})], designated := some "204" } }

def notifying : Callback :=
  { expressions := .ofRows [("$url", { slots := { post := some notification } })] }

def subscription : Operation :=
  { callbacks := .ofRows [("event", notifying)]
    extensions := .ofRows [("x-cost", .number (.whole 3))] }

def subscriptions : OpenApi :=
  { paths := .ofRows [("/subscribe", { slots := { post := some subscription } })] }

theorem notification_storable : Operation.Storable Responses.Free 2 notification := by
  have hentries : Rows (Deeper Response.Storable) 2 (.ofRows [("204", ({} : Response))]) :=
    .intro (Ordered.all_ofRows (List.forall_mem_singleton.mpr (.intro {})))
  refine .intro (fun _ _ => False) nofun { responses := ?_ }
  rintro _ ⟨⟩
  exact ⟨hentries, trivial⟩

theorem notifying_storable : Callback.Storable Responses.Free 4 notifying where
  expressions := by
    refine ⟨by decide, Ordered.all_ofRows (List.forall_mem_singleton.mpr ?_)⟩
    refine .intro { slots := ?_ }
    rintro (_ | _) _ ⟨⟩
    exact .intro notification_storable

theorem subscription_storable : Operation.Storable Responses.Free 6 subscription := by
  refine (Codec.nested_iff Operation.StorableOver.imp).mpr
    { callbacks := fun _ => .intro ?_, extensions := ⟨by decide, ?_⟩ }
  · exact Ordered.all_ofRows (List.forall_mem_singleton.mpr (.intro notifying_storable))
  · exact Ordered.all_ofRows (List.forall_mem_singleton.mpr ⟨by decide, by decide, by decide⟩)

theorem subscriptions_storable : subscriptions.Storable := by
  refine ⟨10, .intro { paths := fun _ => .intro ?_ }⟩
  refine Ordered.all_ofRows (List.forall_mem_singleton.mpr (.intro { slots := ?_ }))
  rintro (_ | _) _ ⟨⟩
  exact .intro subscription_storable

def flowText : String :=
  "\x7b\"openapi\":\"3.0.3\",\"components\":\x7b\"securitySchemes\":\x7b\"store\":" ++
    "\x7b\"flows\":\x7b\"implicit\":\x7b\x7d\x7d\x7d\x7d\x7d\x7d"

def flowJson : Json :=
  .object [("openapi", .text "3.0.3"), ("components", .object [("securitySchemes", .object
    [("store", .object [("flows", .object [("implicit", .object [])])])])])]

theorem json_round_trip_subscriptions :
    (subscriptions.Storable ∧ subscriptions.toJson.height < 128 ∧
      ofJsonText? subscriptions.toJsonText = some subscriptions.undesignated) ∧
    (∃ d, Json.parse? flowText = some flowJson ∧ flowJson.isWhole = true ∧
      ofJsonText? flowText = some d ∧ ofJsonText? d.toJsonText = some d) := by
  have hheight : subscriptions.toJson.height < 128 := by decide +kernel
  have hparse : Json.parse? flowText = some flowJson := by cbv
  have hloads : (ofJsonText? flowText).isSome = true := by decide +kernel
  obtain ⟨d, hd⟩ := Option.isSome_iff_exists.mp hloads
  exact ⟨⟨subscriptions_storable, hheight,
      json_round_trip.1 subscriptions subscriptions_storable hheight⟩,
    d, hparse, rfl, hd, json_round_trip.2 flowText flowJson d hparse rfl hd⟩

end Witness

end OpenApi

end ApiDoc
