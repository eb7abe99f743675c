import ApiDoc.Proofs.Arena
import ApiDoc.Proofs.Inference.Link
import ApiDoc.Proofs.Outcome

/-!
# Arenas after inference

Every computation keeps sound arenas sound and lets them grow, also when it
fails.
-/

set_option autoImplicit false

namespace ApiDoc.Inference

/-! ### Opening a component -/

def wantedName (d : TypeDecl) (t : TypeExpr) : String :=
  d.componentName ++ TypeExpr.flatNames t.args

theorem outcome_get (a : Arena) : (get : Gen Arena).outcome a = (.ok a, a) := rfl

theorem check_eq_ok {α : Type} {e : Except Failure α} {x : α} {a b : Arena}
    (h : (Gen.check e).outcome a = (.ok x, b)) : e = .ok x ∧ a = b := by
  cases e with
  | ok y =>
    cases h
    exact ⟨rfl, rfl⟩
  | error f => cases h

theorem component_found (below : Level) (d : TypeDecl) {t : TypeExpr} {a : Arena} {c : Component}
    (h : a.find? t.text = some c) :
    (component below d t).outcome a = (.ok (Schema.refTo c.name), a) := by
  unfold component
  refine (ExceptT.outcome_bind_ok (outcome_get a)).trans ?_
  rw [h]
  rfl

/-- A component that is not there is opened, and filled once its content is known. -/
theorem component_opened (below : Level) (d : TypeDecl) {t : TypeExpr} {a : Arena}
    (h : a.find? t.text = none) :
    (component below d t).outcome a =
      match (content below d t.args).outcome (a.allot t.text (wantedName d t)).2 with
      | (.ok s, b) => (.ok (Schema.refTo (a.allot t.text (wantedName d t)).1.name),
          b.fill a.size s)
      | (.error f, b) => (.error f, b) := by
  unfold component
  refine (ExceptT.outcome_bind_ok (outcome_get a)).trans ?_
  rw [h]
  show ExceptT.outcome (content below d t.args >>= fun s => do
      modify fun arena' => arena'.fill a.size s
      pure (Schema.refTo (a.allot t.text (wantedName d t)).1.name))
    (a.allot t.text (wantedName d t)).2 = _
  cases hg : (content below d t.args).outcome (a.allot t.text (wantedName d t)).2 with
  | mk r b =>
    cases r with
    | ok s => rw [ExceptT.outcome_bind_ok hg]; rfl
    | error f => rw [ExceptT.outcome_bind_error hg]

inductive ComponentStep (below : Level) (d : TypeDecl) (t : TypeExpr) (a : Arena) :
    Except Failure Schema → Arena → Prop
  | found {c : Component} (hf : a.find? t.text = some c) :
      ComponentStep below d t a (.ok (Schema.refTo c.name)) a
  | filled {inner : Schema} {b : Arena} (hf : a.find? t.text = none)
      (h : (content below d t.args).outcome (a.allot t.text (wantedName d t)).2 = (.ok inner, b)) :
      ComponentStep below d t a (.ok (Schema.refTo (a.allot t.text (wantedName d t)).1.name))
        (b.fill a.size inner)
  | failed {f : Failure} {b : Arena} (hf : a.find? t.text = none)
      (h : (content below d t.args).outcome (a.allot t.text (wantedName d t)).2 = (.error f, b)) :
      ComponentStep below d t a (.error f) b

theorem componentStep_of_outcome {below : Level} {d : TypeDecl} {t : TypeExpr} {a b : Arena}
    {r : Except Failure Schema} (h : (component below d t).outcome a = (r, b)) :
    ComponentStep below d t a r b := by
  cases hf : a.find? t.text with
  | some c =>
    rw [component_found below d hf] at h
    cases h
    exact .found hf
  | none =>
    rw [component_opened below d hf] at h
    cases hr : (content below d t.args).outcome (a.allot t.text (wantedName d t)).2 with
    | mk answer b' =>
      rw [hr] at h
      cases answer with
      | ok inner =>
        cases h
        exact .filled hf hr
      | error f =>
        cases h
        exact .failed hf hr

theorem component_eq_ok {below : Level} {d : TypeDecl} {t : TypeExpr} {a b : Arena} {s : Schema}
    (h : (component below d t).outcome a = (.ok s, b)) :
    (∃ c, a.find? t.text = some c ∧ s = Schema.refTo c.name ∧ b = a) ∨
    (a.find? t.text = none ∧ ∃ inner b',
      (content below d t.args).outcome (a.allot t.text (wantedName d t)).2 = (.ok inner, b') ∧
      s = Schema.refTo (a.allot t.text (wantedName d t)).1.name ∧ b = b'.fill a.size inner) := by
  cases componentStep_of_outcome h with
  | found hf => exact Or.inl ⟨_, hf, rfl, rfl⟩
  | filled hf hr => exact Or.inr ⟨hf, _, _, hr, rfl, rfl⟩

/-! ### Kept on every arena -/

namespace Terms

variable (T : Terms)

def Ends {α : Type} (Q : α → Prop) : Except Failure α → Prop
  | .ok x => Q x
  | .error f => T.failure f

variable {T} in
theorem Ends.mono {α : Type} {Q R : α → Prop} {r : Except Failure α} (h : T.Ends Q r)
    (hQ : ∀ x, Q x → R x) : T.Ends R r := by
  cases r with
  | ok x => exact hQ x h
  | error f => exact h

/-- The arena is kept in order whether or not there is an answer. -/
def keeping (A : Arena → Prop) : Logic T where
  rel Q g _ := ∀ a, A a → A (g.outcome a).2 ∧ T.Ends Q (g.outcome a).1
  pure h _ ha := ⟨ha, h⟩
  fail h _ ha := ⟨ha, h⟩
  bind {α β Q R g g' k k'} hg hk a ha := by
    have h := hg a ha
    cases hr : g.outcome a with
    | mk r b =>
      rw [hr] at h
      cases r with
      | ok x =>
        rw [ExceptT.outcome_bind_ok hr]
        exact (hk x b h.1).imp_right fun he => he.mono fun y hy => hy h.2
      | error f =>
        rw [ExceptT.outcome_bind_error hr]
        exact h
  mono h hQ a ha := (h a ha).imp_right fun he => he.mono hQ

end Terms

/-! ### Arenas stay sound and grow -/

def Steps (a b : Arena) : Prop := a.Grows b ∧ b.Sound

theorem Steps.trans {a b c : Arena} (h : Steps a b) (h' : Steps b c) : Steps a c :=
  ⟨h.1.trans h'.1, h'.2⟩

def stepping : Link where
  rel g _ := ∀ a : Arena, a.Sound → Steps a (g.outcome a).2
  pure _ a h := ⟨Arena.Grows.refl a, h⟩
  fail _ a h := ⟨Arena.Grows.refl a, h⟩
  bind hg hk a h :=
    ExceptT.outcome_bind_chain (R := Steps) (fun _ _ _ => Steps.trans) (hg a h)
      fun x => hk x _ (hg a h).2

theorem steps_of_outcome {α : Type} {g : Gen α} (h : stepping.rel g g) {a b : Arena}
    {r : Except Failure α} (ha : a.Sound) (ho : g.outcome a = (r, b)) : Steps a b := by
  have hab := h a ha
  rwa [ho] at hab

theorem steps_allot {a : Arena} (h : a.Sound) {key : String} (hk : a.find? key = none)
    (base : String) : Steps a (a.allot key base).2 :=
  ⟨a.grows_allot (h.indexOf?_eq_none hk) base, h.allot hk base⟩

theorem component_steps {below : Level} (d : TypeDecl) (t : TypeExpr)
    (h : stepping.rel (content below d t.args) (content below d t.args)) :
    stepping.rel (component below d t) (component below d t) := by
  intro a hs
  cases ho : (component below d t).outcome a with
  | mk r b =>
    cases componentStep_of_outcome ho with
    | found _ => exact ⟨Arena.Grows.refl a, hs⟩
    | failed hf hr =>
      have hopen := steps_allot hs hf (wantedName d t)
      exact hopen.trans (steps_of_outcome h hopen.2 hr)
    | @filled inner b hf hr =>
      have hopen := steps_allot hs hf (wantedName d t)
      have hcontent := steps_of_outcome h hopen.2 hr
      have hc := hopen.trans hcontent
      have hlt : a.size < b.size := by
        have := hcontent.1.size
        rw [Arena.size_allot] at this
        omega
      exact ⟨hc.1.fill hlt (Nat.le_refl _) inner, hc.2.fill _ inner⟩

theorem find?_filled_self {a b : Arena} {key base : String}
    (h : Steps (a.allot key base).2 b) (s : Schema) :
    (b.fill a.size s).find? key = some { (a.allot key base).1 with schema := s } :=
  Arena.find?_fill_self (h.1.place key a.size (a.indexOf?_allot_self key base))
    (h.1.find? (a.find?_allot_self key base)) s

theorem find?_filled_ne {a b : Arena} {key other base : String}
    (h : Steps (a.allot key base).2 b) (ne : other ≠ key) (s : Schema) :
    (b.fill a.size s).find? other = b.find? other :=
  h.2.find?_fill_ne (h.1.place key a.size (a.indexOf?_allot_self key base)) ne s

theorem level_steps (catalog : Catalog) (depth : Nat) :
    stepping.logic.Linked (fun _ => True) (level catalog depth) (level catalog depth) :=
  stepping.level_linked (fun _ _ _ _ => trivial) (fun _ t d _ _ h => component_steps d t h) depth

theorem schemaOf_steps (catalog : Catalog) (depth : Nat) (t : TypeExpr) :
    stepping.rel (schemaOf catalog depth t) (schemaOf catalog depth t) :=
  (level_steps catalog depth).schemaOf t trivial

theorem fieldsOf_steps (catalog : Catalog) (depth : Nat) (fields : List FieldDecl)
    (bindings : TypeExpr.Bindings) :
    stepping.rel ((level catalog depth).fieldsOf fields bindings)
      ((level catalog depth).fieldsOf fields bindings) :=
  (level_steps catalog depth).fieldsOf fields bindings fun _ _ =>
    Terms.ready_any fun _ _ => trivial

theorem content_steps (catalog : Catalog) (depth : Nat) (d : TypeDecl) (args : List TypeExpr) :
    stepping.rel (content (level catalog depth) d args) (content (level catalog depth) d args) :=
  (level_steps catalog depth).content (Terms.admits_any d) fun _ _ => trivial

end ApiDoc.Inference
