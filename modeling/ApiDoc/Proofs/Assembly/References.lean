import ApiDoc.Assembly.Basic
import ApiDoc.Proofs.Node.References

/-!
# References of operations

The parts of an operation refer to named components, whether they are described
by notes or inferred from the handler's arguments and result.
-/

set_option autoImplicit false

namespace ApiDoc.Assembly

open Inference (Gen Logic resolving)

variable {known : String → Prop} {L : Logic (resolving known)}
variable {infer infer' : TypeExpr → Gen Schema}

abbrev Fits (known : String → Prop) (p : Parameter) : Prop := Within known p.references

/-! ### Parameters -/

theorem fits_overlay {lower upper : Parameter} (hl : Fits known lower) (hu : Fits known upper) :
    Fits known (overlayParameter lower upper) := by
  have hl := Parameter.within_iff.mp hl
  have hu := Parameter.within_iff.mp hu
  refine Parameter.within_iff.mpr ⟨fun s hs => ?_, ?_⟩
  · simp only [overlayParameter] at hs
    split at hs
    · rcases Option.or_eq_some_iff.mp hs with h | ⟨-, h⟩
      · exact hu.1 s h
      · exact hl.1 s h
    · cases hs
  · simp only [overlayParameter]
    split
    · exact hl.2
    · exact hu.2

theorem fits_push {p : Parameter} {ps : List Parameter} (hp : Fits known p)
    (hps : ∀ q ∈ ps, Fits known q) : ∀ q ∈ pushParameter p ps, Fits known q := by
  induction ps with
  | nil => simpa [pushParameter] using hp
  | cons q qs ih =>
    obtain ⟨hq, hqs⟩ := List.forall_mem_cons.mp hps
    unfold pushParameter
    split
    · exact List.forall_mem_cons.mpr ⟨fits_overlay hq hp, hqs⟩
    · exact List.forall_mem_cons.mpr ⟨hq, ih hqs⟩

theorem admissible_bagFields {catalog : Catalog}
    (hc : Admissible known (Catalog.schemaNotes catalog)) {t : TypeExpr} {fields : List FieldDecl}
    (h : bagFields? catalog t = some fields) :
    ∀ f ∈ fields, ∀ n ∈ f.schema, (resolving known).AdmitsNote n := by
  unfold bagFields? at h
  cases hd : catalog.get? t.name with
  | none => simp [hd] at h
  | some d =>
    rcases hf : d.fields? with _ | _ | ⟨g, gs⟩
    · simp [hd, hf] at h
    · simp [hd, hf] at h
    · simp only [hd, hf, Option.some.injEq] at h
      have hlist := TypeDecl.mem_fieldLists_of_fields? hf
      intro f hm n hn
      rw [← h] at hm
      obtain ⟨f', hm', rfl⟩ := List.mem_map.mp hm
      have hnote := TypeDecl.schemaNotes_of_fieldLists hlist hm' n hn
      exact hc n (Catalog.mem_schemaNotes_of_get? hd hnote)

section

variable (hi : ∀ t, True → L.rel ((resolving known).Describes t) (infer t) (infer' t))

include hi

theorem related_fieldParameter (location : ParameterLocation) {f : FieldDecl}
    (hf : ∀ n ∈ f.schema, (resolving known).AdmitsNote n) :
    L.rel (Fits known) (fieldParameter infer location f) (fieldParameter infer' location f) :=
  L.bind (L.member hi f.type hf fun _ _ => trivial) fun _ => L.pure fun hs =>
    Parameter.within_iff.mpr ⟨fun _ hc => Option.some.inj hc ▸ hs, Ordered.all_empty _⟩

theorem related_notedParameter (a : Argument) {n : ParameterNote}
    (hn : Admissible known n.schemaNotes) :
    L.rel (Fits known) (notedParameter infer a n) (notedParameter infer' a n) := by
  refine L.bind (ParameterNote.related_node hi _ hn) fun p => L.pure fun hp => ?_
  split <;> exact hp

theorem related_boundParameter (t : TypeExpr) (b : Binding) :
    L.rel (Fits known) (boundParameter infer t b) (boundParameter infer' t b) :=
  L.bind (hi t trivial) fun _ => L.pure fun hs =>
    Parameter.within_iff.mpr ⟨fun _ hc => Option.some.inj hc ▸ hs.1, Ordered.all_empty _⟩

theorem related_pushArgument {catalog : Catalog}
    (hc : Admissible known (Catalog.schemaNotes catalog)) (ps : List Parameter) {a : Argument}
    (ha : Admissible known a.schemaNotes) :
    L.rel (fun qs => (∀ p ∈ ps, Fits known p) → ∀ q ∈ qs, Fits known q)
      (pushArgument catalog infer ps a) (pushArgument catalog infer' ps a) := by
  simp only [Argument.schemaNotes, admissible_append, admissible_flatMap,
    Option.mem_toList] at ha
  unfold pushArgument
  split
  · exact L.pure id
  · split
    · rename_i n hn
      split
      · exact L.pure id
      · exact L.bind (related_notedParameter hi a (ha.1 n hn)) fun p => L.pure fits_push
    · exact L.pure id
    · rename_i b _ _
      split
      · rename_i fields hfields
        have hf := admissible_bagFields hc hfields
        refine L.foldlM (R := fun qs => ∀ q ∈ qs, Fits known q) _ (fun qs f hm => ?_) ps
        exact L.bind (related_fieldParameter hi b.location (hf f (List.mem_filter.mp hm).1))
          fun p => L.pure fits_push
      · exact L.bind (related_boundParameter hi a.type b) fun p => L.pure fits_push

theorem related_pushNote (h : Handler) (ps : List Parameter) {n : ParameterNote}
    (hn : Admissible known n.schemaNotes) :
    L.rel (fun qs => (∀ p ∈ ps, Fits known p) → ∀ q ∈ qs, Fits known q)
      (pushNote infer h ps n) (pushNote infer' h ps n) := by
  unfold pushNote
  split
  · exact L.pure id
  · refine L.bind (ParameterNote.related_node hi _ hn) fun p => L.pure fun hp => fits_push ?_
    split <;> exact hp

theorem related_complete (h : Handler) (p : Parameter) :
    L.rel (fun q => Fits known p → Fits known q) (complete infer h p) (complete infer' h p) := by
  unfold complete
  split
  · exact L.pure id
  · have hrequired : Fits known p → Fits known
        (if p.location = some .path then { p with required := some true } else p) := fun hp => by
      split <;> exact hp
    dsimp only
    generalize (if p.location = some .path then { p with required := some true } else p) = q
      at hrequired
    split
    · exact L.pure hrequired
    · split
      · exact L.bind (hi _ trivial) fun _ => L.pure fun hs hp => Parameter.within_iff.mpr
          ⟨fun _ hc => Option.some.inj hc ▸ hs.1, (Parameter.within_iff.mp (hrequired hp)).2⟩
      · exact L.pure hrequired

theorem related_completeAll (h : Handler) (ps : List Parameter) :
    L.rel (fun qs => (∀ p ∈ ps, Fits known p) → ∀ q ∈ qs, Fits known q)
      (completeAll infer h ps) (completeAll infer' h ps) := by
  induction ps with
  | nil => exact L.pure id
  | cons p ps ih =>
    refine L.bind (related_complete hi h p) fun q => L.bind ih fun qs =>
      L.pure fun hqs hq hps => ?_
    obtain ⟨hp, hps⟩ := List.forall_mem_cons.mp hps
    exact List.forall_mem_cons.mpr ⟨hq hp, hqs hps⟩

theorem related_parameters {catalog : Catalog}
    (hc : Admissible known (Catalog.schemaNotes catalog)) {h : Handler}
    (hh : Admissible known h.schemaNotes) :
    L.rel (fun ps => ∀ p ∈ ps, Fits known p) (parameters catalog infer h)
      (parameters catalog infer' h) := by
  simp only [Handler.schemaNotes, admissible_append, admissible_flatMap] at hh
  refine L.bind (L.foldlM_of (List.forall_mem_nil _) fun ps a hm =>
    related_pushArgument hi hc ps (hh.1.1.1.1 a hm)) fun ps => ?_
  refine L.bind (L.foldlM h.parameters (fun ps n hm =>
    related_pushNote hi h ps (hh.1.1.1.2 n hm)) ps) fun qs => ?_
  exact L.mono (related_completeAll hi h qs) fun _ hr hq hp => hr (hq hp)

/-! ### Bodies and responses -/

theorem related_requestBody (e : Endpoint) {h : Handler} (hh : Admissible known h.schemaNotes) :
    L.rel (fun body => ∀ b ∈ body, Within known b.references) (requestBody infer e h)
      (requestBody infer' e h) := by
  simp only [Handler.schemaNotes, admissible_append, admissible_flatMap,
    Option.mem_toList] at hh
  have hnote : ∀ n, (h.requestBody.orElse fun _ => h.bodyArgument?.bind (·.requestBody)) = some n →
      Admissible known n.schemaNotes := by
    intro n hn
    rw [Option.orElse_eq_or] at hn
    rcases Option.or_eq_some_iff.mp hn with hn | ⟨-, hn⟩
    · exact hh.1.1.2 n hn
    · obtain ⟨a, ha, hn⟩ := Option.bind_eq_some_iff.mp hn
      have harg := hh.1.1.1.1 a (List.mem_of_find?_eq_some ha)
      simp only [Argument.schemaNotes, admissible_append, admissible_flatMap,
        Option.mem_toList] at harg
      exact harg.2 n hn
  unfold requestBody
  dsimp only
  split
  · rename_i n hn
    exact L.bind (BodyNote.related_node hi _ _ (hnote n hn)) fun body => L.pure fun hb _ hc =>
      Option.some.inj hc ▸ hb
  · exact L.pure fun _ hb => by cases hb
  · refine L.bind (ContentNote.related_inferred hi _ _) fun content => L.pure fun hc b hb => ?_
    rw [← Option.some.inj hb]
    exact MediaType.within_content.mpr hc

omit hi in
theorem within_onlyResponse {content : Content} (hc : Content.Resolves known content)
    (status : String) : Within known (onlyResponse status content).references := by
  have hsame : ∀ (rs : Responses) (key : String), (rs.designate key).entries = rs.entries := by
    intro rs key
    unfold Responses.designate
    split <;> rfl
  refine Responses.within_iff.mpr ?_
  rw [onlyResponse, hsame]
  apply Ordered.all_ofRows
  intro row hrow
  obtain rfl := List.mem_singleton.mp hrow
  exact within_append.mpr ⟨within_nil, MediaType.within_content.mpr hc⟩

theorem related_notedResponses (produces : List String) (fallback : Option TypeExpr)
    {notes : List ResponseNote} (hn : ∀ n ∈ notes, Admissible known n.schemaNotes) :
    L.rel (fun rs : Ordered Response => rs.All fun r => Within known r.references)
      (notedResponses infer produces fallback notes)
      (notedResponses infer' produces fallback notes) := by
  refine L.foldlM_of (Ordered.all_empty _) fun rs n hm => ?_
  exact L.bind (ResponseNote.related_node hi produces fallback (hn n hm)) fun r =>
    L.pure fun hr hrs => hrs.put (statusKey n) hr

theorem related_responses (catalog : Catalog) {e : Endpoint} {h : Handler}
    (he : Admissible known e.schemaNotes) (hh : Admissible known h.schemaNotes) :
    L.rel (fun rs => Within known rs.references) (responses catalog infer e h)
      (responses catalog infer' e h) := by
  simp only [Endpoint.schemaNotes, admissible_append, admissible_flatMap] at he
  simp only [Handler.schemaNotes, admissible_append, admissible_flatMap] at hh
  have hnotes : ∀ n ∈ responseNotes e h, Admissible known n.schemaNotes := by
    intro n hn
    rcases List.mem_append.mp hn with hn | hn
    · exact hh.1.2 n hn
    · exact he.1 n (List.mem_filter.mp hn).1
  unfold responses
  dsimp only
  split
  · exact L.pure (within_onlyResponse (Ordered.all_empty _) _)
  · exact L.pure (within_onlyResponse (Ordered.all_empty _) _)
  · exact L.bind (ContentNote.related_inferred hi _ _) fun content => L.pure fun hc =>
      within_onlyResponse hc _
  · exact L.bind (related_notedResponses hi _ _ hnotes) fun entries => L.pure fun hr =>
      Responses.within_iff.mpr hr

end

theorem related_callbacks {a a' : Assembly}
    (hi : ∀ t, True → L.rel ((resolving known).Describes t) (a.infer t) (a'.infer t))
    {h : Handler} (hh : Admissible known h.schemaNotes) :
    L.rel (fun cs : Ordered Callback => cs.All fun c => Within known c.references)
      (a.callbacks h) (a'.callbacks h) := by
  simp only [Handler.schemaNotes, admissible_append, admissible_flatMap] at hh
  refine L.foldlM_of (Ordered.all_empty _) fun cs n hm => ?_
  exact L.bind (CallbackNote.related_node hi (hh.2 n hm)) fun c => L.pure fun hc hcs =>
    hcs.put n.name hc

end ApiDoc.Assembly
