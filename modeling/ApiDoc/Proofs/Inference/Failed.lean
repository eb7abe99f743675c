import ApiDoc.Proofs.Inference.Later

/-!
# Types whose description failed

A description fails only where the content of a declared type is made, and the
component of that type has been opened by then. Nothing closes it: it stays blank,
and from then on it is referred to as if it had been filled. So a failure is
reported once, to the request that runs into it, and every later request for the
same type succeeds.
-/

set_option autoImplicit false

namespace ApiDoc

namespace Schema

theorem children_of_isBlank {s : Schema} (h : s.isBlank = true) : s.children = [] := by
  obtain ⟨reference, keywords, properties, items, negated, allOf, anyOf, oneOf, additional⟩ := s
  simp only [isBlank, isLeaf, Ordered.isEmpty, Bool.and_eq_true, List.isEmpty_iff,
    Option.isNone_iff_eq_none] at h
  simp [children, additionalSchema?, Ordered.values, h.2]

theorem Contains.isBlank_eq_false {s u : Schema} (h : s.Contains u) (hu : u.isBlank = false) :
    s.isBlank = false := by
  cases h with
  | self => exact hu
  | child hc _ =>
    cases hs : s.isBlank with
    | false => rfl
    | true => simp [children_of_isBlank hs] at hc

theorem contains_arrayOf {s u : Schema} (h : s.Contains u) : (arrayOf s).Contains u :=
  .child (by simp [mem_children, arrayOf]) h

end Schema

namespace Inference

variable {catalog : Catalog}

/-- In `a` the description of `t` failed at the declared type `u`. The component of
`u` was opened for it and is blank, and `s`, which refers to it, is what describes
`t` from then on. -/
structure LeftBlank (catalog : Catalog) (n : Nat) (t : TypeExpr) (a b : Arena) (u : TypeExpr)
    (c : Component) (s : Schema) : Prop where
  declared : (catalog.get? u.name).isSome
  fresh : a.find? u.text = none
  opened : b.find? u.text = some c
  blank : c.schema = {}
  refers : s.Contains (.refTo c.name)
  answered : ∀ e, b.Agrees e → (schemaOf catalog n t).outcome e = (.ok s, e)

def Wraps (catalog : Catalog) (n : Nat) (t inner : TypeExpr) (g : Schema → Schema) : Prop :=
  ∀ a, (schemaOf catalog (n + 1) t).outcome a =
    Prod.map (Except.map g) id ((schemaOf catalog n inner).outcome a)

theorem Wraps.error {n : Nat} {t inner : TypeExpr} {g : Schema → Schema} {a b : Arena}
    {f : Failure} (hw : Wraps catalog n t inner g)
    (h : (schemaOf catalog (n + 1) t).outcome a = (.error f, b)) :
    (schemaOf catalog n inner).outcome a = (.error f, b) := by
  rw [hw] at h
  cases hi : (schemaOf catalog n inner).outcome a with
  | mk r b' =>
    rw [hi] at h
    cases r with
    | ok s => cases h
    | error f' => cases h; rfl

theorem LeftBlank.wrap {n : Nat} {t inner u : TypeExpr} {g : Schema → Schema} {a b : Arena}
    {c : Component} {s : Schema} (h : LeftBlank catalog n inner a b u c s)
    (hw : Wraps catalog n t inner g) (hg : (g s).Contains (.refTo c.name)) :
    LeftBlank catalog (n + 1) t a b u c (g s) :=
  { h with
    refers := hg
    answered := fun e he => by rw [hw, h.answered e he]; rfl }

theorem leftBlank_component {n : Nat} {t : TypeExpr} {d : TypeDecl} {a b : Arena} {f : Failure}
    (hd : catalog.get? t.name = some d)
    (ht : schemaOf catalog (n + 1) t = component (level catalog n) d t) (ha : a.Sound)
    (h : (schemaOf catalog (n + 1) t).outcome a = (.error f, b)) :
    ∃ c, LeftBlank catalog (n + 1) t a b t c (.refTo c.name) := by
  rw [ht] at h
  cases componentStep_of_outcome h with
  | failed hf hr =>
    have hgrow := steps_of_outcome (content_steps catalog n d t.args)
      (steps_allot ha hf (wantedName d t)).2 hr
    have hc := hgrow.1.find? (a.find?_allot_self t.text (wantedName d t))
    refine ⟨_, by simp [hd], hf, hc, rfl, .self _, fun e he => ?_⟩
    obtain ⟨c', hc', hn⟩ := he t.text _ hc
    rw [ht, component_found _ d hc', hn]

theorem wraps_bind {n : Nat} {t inner : TypeExpr} {g : Schema → Schema}
    (h : schemaOf catalog (n + 1) t = schemaOf catalog n inner >>= fun s => pure (g s)) :
    Wraps catalog n t inner g := by
  intro a
  rw [h]
  exact ExceptT.outcome_bind_pure _ _ a

/-- A type is answered at once, or with what is made of the answer for another type and still
refers to what that one refers to, or with a component. -/
inductive Course (catalog : Catalog) (n : Nat) (t : TypeExpr) : Prop
  | settled {s : Schema} (hs : schemaOf catalog (n + 1) t = pure s)
  | wrapped {inner : TypeExpr} {g : Schema → Schema} (hscalar : scalar? t = none)
    (hw : Wraps catalog n t inner g)
    (hkeeps : scalar? inner = none → ∀ c s, s.Contains (.refTo c) → (g s).Contains (.refTo c))
  | opened {d : TypeDecl} (hscalar : scalar? t = none) (hd : catalog.get? t.name = some d)
    (ht : schemaOf catalog (n + 1) t = component (level catalog n) d t)

theorem course (catalog : Catalog) (n : Nat) (t : TypeExpr) : Course catalog n t := by
  have ht : schemaOf catalog (n + 1) t = describe catalog (level catalog n) t := rfl
  cases hs : scalar? t with
  | some s => exact .settled (s := s) (ht.trans (by simp only [describe, hs]))
  | none =>
    cases hh : Head.ofName t.name <;> cases hargs : t.args
    all_goals simp only [describe, hs, hh, hargs] at ht
    case option.nil | pointer.nil | anything.nil | anything.cons | map.nil | sequence.nil
        | tuple.nil | tuple.cons => exact .settled ht
    case option.cons inner rest =>
      refine .wrapped hs (wraps_bind ht) fun hscalar c s hc => ?_
      simpa [hscalar] using hc
    case pointer.cons inner rest =>
      exact .wrapped hs (wraps_bind (ht.trans (bind_pure _).symm)) fun _ _ _ hc => hc
    case map.cons key rest =>
      cases rest with
      | nil => exact .settled ht
      | cons value rest =>
        refine .wrapped hs (wraps_bind ht) fun _ c s hc => ?_
        rw [hc.isBlank_eq_false rfl]
        exact .child (by simp [Schema.mem_children]) hc
    case sequence.cons unique binary inner rest =>
      by_cases hb : (binary && inner.name = "u8") = true
      · exact .settled (ht.trans (if_pos hb))
      · rw [if_neg hb] at ht
        refine .wrapped hs (wraps_bind ht) fun _ c s hc => ?_
        split
        · exact .child (by simp [Schema.mem_children, setUnique, Schema.arrayOf]) hc
        · exact Schema.contains_arrayOf hc
    case named.nil | named.cons =>
      cases hd : catalog.get? t.name with
      | none =>
        rw [hd] at ht
        exact .settled ht
      | some d =>
        rw [hd] at ht
        exact .opened hs hd ht

/-- The failure is met where a type leads through pointers and containers. -/
theorem leftBlank_of_error (n : Nat) {t : TypeExpr} {a b : Arena} {f : Failure} (ha : a.Sound)
    (hf : f ≠ .tooDeep) (h : (schemaOf catalog n t).outcome a = (.error f, b)) :
    scalar? t = none ∧ ∃ u c s, LeftBlank catalog n t a b u c s := by
  induction n generalizing t with
  | zero =>
    cases h
    exact absurd rfl hf
  | succ n ih =>
    cases course catalog n t with
    | settled hs =>
      rw [hs] at h
      cases h
    | wrapped hscalar hw hkeeps =>
      -- an answer that is made of one for another type fails where that one does
      obtain ⟨hinner, u, c, s, hblank⟩ := ih (hw.error h)
      exact ⟨hscalar, u, c, _, hblank.wrap hw (hkeeps hinner _ _ hblank.refers)⟩
    | opened hscalar hd ht =>
      obtain ⟨c, hc⟩ := leftBlank_component hd ht ha h
      exact ⟨hscalar, t, c, _, hc⟩

/-- Once the description of a type has failed, every later one succeeds. It refers to
the component of the declared type at which the first has failed, and this component
is blank and stays so. -/
theorem failure_reported_once (catalog : Catalog) {a b : Arena} (ha : Reachable catalog a)
    {n : Nat} {t : TypeExpr} {f : Failure} (hf : f ≠ .tooDeep)
    (h : (schemaOf catalog n t).outcome a = (.error f, b)) :
    ∃ (u : TypeExpr) (name : String) (s : Schema),
      (catalog.get? u.name).isSome ∧ a.find? u.text = none ∧
      s.Contains (.refTo name) ∧ ∀ e, Later catalog b e →
        e.find? u.text = some ⟨name, {}⟩ ∧ e.named? name = some {} ∧
        ∀ m ≥ n, (schemaOf catalog m t).outcome e = (.ok s, e) := by
  obtain ⟨-, u, ⟨name, schema⟩, s, hblank⟩ := leftBlank_of_error n ha.sound hf h
  obtain rfl : schema = {} := hblank.blank
  have hb := steps_of_outcome (schemaOf_steps catalog n t) ha.sound h
  refine ⟨u, name, s, hblank.declared, hblank.fresh, hblank.refers, fun e he => ?_⟩
  have hbe := he.steps hb.2
  have hc := hbe.1.find? hblank.opened
  refine ⟨hc, hbe.2.named?_eq_some_iff.mpr ⟨_, _, hc, rfl, rfl⟩, fun m hm => ?_⟩
  exact answer_replays hb.2 (hblank.answered b fun _ c hc => ⟨c, hc, rfl⟩) hbe.1.agrees hm

section Witness

def listOf (t : TypeExpr) : TypeExpr := ⟨"Vec", [⟨"Option", [t]⟩]⟩

/-- The list fails at its members, and is described by a reference to what they left. -/
theorem failure_reported_once_list :
    (schemaOf pageCatalog 10 (listOf brokenType)).outcome {} =
      (.error (.malformedNumber "minimum" "few"),
        afterRequest pageCatalog 10 {} (.schemaOf (listOf brokenType))) ∧
    ∃ (u : TypeExpr) (name : String) (s : Schema), (pageCatalog.get? u.name).isSome ∧
      ({} : Arena).find? u.text = none ∧
      s.Contains (.refTo name) ∧
      ∀ e, Later pageCatalog (afterRequest pageCatalog 10 {} (.schemaOf (listOf brokenType))) e →
        e.find? u.text = some ⟨name, {}⟩ ∧ e.named? name = some {} ∧
        ∀ m ≥ 10, (schemaOf pageCatalog m (listOf brokenType)).outcome e = (.ok s, e) :=
  have hfails : (schemaOf pageCatalog 10 (listOf brokenType)).outcome {} =
      (.error (.malformedNumber "minimum" "few"),
        afterRequest pageCatalog 10 {} (.schemaOf (listOf brokenType))) :=
    Prod.ext (by rfl) rfl
  ⟨hfails, failure_reported_once pageCatalog .start (by simp) hfails⟩

end Witness

section Counterexample

/-- A bound that is no number is reported to the first request for its type only. -/
theorem broken_described :
    let first := (schemaOf pageCatalog 9 brokenType).outcome {}
    let second := (schemaOf pageCatalog 9 brokenType).outcome first.2
    first.1 = .error (.malformedNumber "minimum" "few") ∧ second.1 = .ok (.refTo "Broken") ∧
      second.2.named? "Broken" = some {} :=
  ⟨rfl, rfl, rfl⟩

end Counterexample

end Inference

end ApiDoc
