import ApiDoc.Proofs.Inference.Outcome

/-!
# Answers that are repeated

What was answered once is answered again, in the same way and without a new
component, by every arena that has the components that there were then. In
particular the content of a component can be found again from the arena in which
it was filled.
-/

set_option autoImplicit false

namespace ApiDoc.Inference

def succeeding (R : Arena → Arena → Prop) (refl : ∀ a, R a a)
    (trans : ∀ a b c, Steps a b → Steps b c → R a b → R b c → R a c) : Link where
  rel g g' := stepping.rel g g' ∧
    ∀ a x b, a.Sound → g.outcome a = (.ok x, b) → R a b
  pure x := ⟨stepping.pure x, fun a y b _ h => by cases h; exact refl a⟩
  fail f := ⟨stepping.fail f, fun a y b _ h => by cases h⟩
  bind {α β g g' k k'} hg hk := by
    refine ⟨stepping.bind hg.1 fun x => (hk x).1, fun a y c hs h => ?_⟩
    obtain ⟨x, b, h₁, h₂⟩ := ExceptT.outcome_bind_eq_ok h
    have hab := steps_of_outcome hg.1 hs h₁
    have hbc := steps_of_outcome (hk x).1 hab.2 h₂
    exact trans a b c hab hbc (hg.2 a x b hs h₁) ((hk x).2 b y c hab.2 h₂)

/-! ### Repetition -/

def replaying : Link where
  rel g g' := stepping.rel g g' ∧ ∀ a x b, a.Sound → g.outcome a = (.ok x, b) →
    ∀ f, b.Agrees f → g.outcome f = (.ok x, f)
  pure x := ⟨stepping.pure x, fun a y b _ h f _ => by cases h; rfl⟩
  fail f := ⟨stepping.fail f, fun a y b _ h => by cases h⟩
  bind {α β g g' k k'} hg hk := by
    refine ⟨stepping.bind hg.1 fun x => (hk x).1, fun a y c hs h f hf => ?_⟩
    obtain ⟨x, b, h₁, h₂⟩ := ExceptT.outcome_bind_eq_ok h
    have hab := steps_of_outcome hg.1 hs h₁
    have hbc := steps_of_outcome (hk x).1 hab.2 h₂
    rw [ExceptT.outcome_bind_ok (hg.2 a x b hs h₁ f (hbc.1.agrees.trans hf))]
    exact (hk x).2 b y c hab.2 h₂ f hf

theorem component_replays {below below' : Level} (d : TypeDecl) (t : TypeExpr)
    (h : replaying.rel (content below d t.args) (content below' d t.args)) :
    replaying.rel (component below d t) (component below' d t) := by
  refine ⟨component_steps d t h.1, fun a s b hs ho f hf => ?_⟩
  rcases component_eq_ok ho with ⟨c, hc, rfl, rfl⟩ | ⟨hnone, inner, b', hin, rfl, rfl⟩
  · obtain ⟨c', hc', hn⟩ := hf t.text c hc
    rw [component_found below d hc', hn]
  · have hb := steps_of_outcome h.1 (steps_allot hs hnone (wantedName d t)).2 hin
    obtain ⟨c', hc', hn⟩ := hf t.text _ (find?_filled_self hb inner)
    rw [component_found below d hc', hn]

theorem level_replays (catalog : Catalog) (depth : Nat) :
    replaying.logic.Linked (fun _ => True) (level catalog depth) (level catalog depth) :=
  replaying.level_linked (fun _ _ _ _ => trivial) (fun _ t d _ _ h => component_replays d t h) depth

theorem content_replays (catalog : Catalog) (depth : Nat) (d : TypeDecl) (args : List TypeExpr) :
    replaying.rel (content (level catalog depth) d args) (content (level catalog depth) d args) :=
  (level_replays catalog depth).content (Terms.admits_any d) fun _ _ => trivial

/-! ### Settled components -/

variable (catalog : Catalog) (S : TypeExpr → Prop)

def Settled (a : Arena) (key : String) (c : Component) : Prop :=
  ∃ t d n, S t ∧ t.text = key ∧ catalog.get? t.name = some d ∧
    ∀ f, a.Agrees f → (content (level catalog n) d t.args).outcome f = (.ok c.schema, f)

variable {catalog S}

theorem Settled.mono {a b : Arena} (hab : a.Agrees b) {key : String} {c : Component}
    (h : Settled catalog S a key c) : Settled catalog S b key c := by
  obtain ⟨t, d, n, ht, hk, hd, hc⟩ := h
  exact ⟨t, d, n, ht, hk, hd, fun f hf => hc f (hab.trans hf)⟩

variable (catalog S)

def Settles (a b : Arena) : Prop :=
  ∀ key c, a.find? key = none → b.find? key = some c → Settled catalog S b key c

def settling : Link :=
  succeeding (Settles catalog S)
    (fun a key c hn hc => by rw [hn] at hc; cases hc)
    (fun a b c _ hbc hab hbc' key x hn hx => by
      cases hb : b.find? key with
      | none => exact hbc' key x hb hx
      | some y =>
        have hxy : y = x := Option.some.inj ((hbc.1.find? hb).symm.trans hx)
        exact (hab key x hn (hxy ▸ hb)).mono hbc.1.agrees)

variable {catalog S}

theorem component_settles {n : Nat} {below' : Level} {d : TypeDecl} {t : TypeExpr} (ht : S t)
    (hd : catalog.get? t.name = some d)
    (h : (settling catalog S).rel (content (level catalog n) d t.args) (content below' d t.args)) :
    (settling catalog S).rel (component (level catalog n) d t) (component below' d t) := by
  refine ⟨component_steps d t h.1, fun a s b hs ho key c hn hc => ?_⟩
  rcases component_eq_ok ho with ⟨c', -, -, rfl⟩ | ⟨hnone, inner, b', hin, rfl, rfl⟩
  · rw [hn] at hc
    cases hc
  · have hopen := (steps_allot hs hnone (wantedName d t)).2
    have hb := steps_of_outcome h.1 hopen hin
    have hfill := b'.agrees_fill a.size inner
    by_cases he : key = t.text
    · rw [he, find?_filled_self hb inner] at hc
      rw [← Option.some.inj hc]
      have hreplay := (content_replays catalog n d t.args).2 _ inner b' hopen hin
      exact ⟨t, d, n, ht, he.symm, hd, fun f hf => hreplay f (hfill.trans hf)⟩
    · rw [find?_filled_ne hb he] at hc
      have hn' := hs.find?_allot_ne (wantedName d t) he
      exact (h.2 _ inner b' hopen hin key c (hn'.trans hn) hc).mono hfill

theorem level_settles (hc : catalog.Closed S) (depth : Nat) :
    (settling catalog S).logic.Linked (fun x => S x.type) (level catalog depth)
      (level catalog depth) :=
  (settling catalog S).level_linked hc.demands (fun _ _ _ ht hd h => component_settles ht hd h)
    depth

/-! ### Names as wanted -/

variable (catalog S)

def Plain (a : Arena) : Prop :=
  ∀ key c, a.find? key = some c → ∃ t d, S t ∧ t.text = key ∧ catalog.get? t.name = some d ∧
    c.name = wantedName d t

def NamesApart (a : Arena) : Prop :=
  ∀ t u d e, S t → S u → catalog.get? t.name = some d → catalog.get? u.name = some e →
    a.find? t.text ≠ none → a.find? u.text ≠ none → wantedName d t = wantedName e u →
    t.text = u.text

def naming (f : Arena) : Link :=
  succeeding (fun a b => b.Agrees f → Plain catalog S a → Plain catalog S b)
    (fun _ _ h => h)
    (fun _ _ _ _ hbc hab hbc' hf hp => hbc' hf (hab (hbc.1.agrees.trans hf) hp))

variable {catalog S}

theorem plain_allot {f a : Arena} (hf : NamesApart catalog S f) {t : TypeExpr} {d : TypeDecl}
    (ht : S t) (hd : catalog.get? t.name = some d) (hs : a.Sound)
    (hag : (a.allot t.text (wantedName d t)).2.Agrees f) (hp : Plain catalog S a) :
    Plain catalog S (a.allot t.text (wantedName d t)).2 := by
  have hself := a.find?_allot_self t.text (wantedName d t)
  -- whoever owned the wanted name before would be another type that asks for it
  have hfree : wantedName d t ∉ a.takenFrom t.text := by
    intro hmem
    obtain ⟨owner, c, hne, hc, hname⟩ := hs.owner_of_taken hmem
    obtain ⟨u, e, hu, rfl, he, hwant⟩ := hp owner c hc
    obtain ⟨c₁, hc₁, -⟩ := hag t.text _ hself
    obtain ⟨c₂, hc₂, -⟩ := hag u.text c ((hs.find?_allot_ne _ hne).trans hc)
    exact hne (hf u t e d hu ht he hd (by simp [hc₂]) (by simp [hc₁]) (hwant.symm.trans hname))
  intro key c hc
  by_cases hk : key = t.text
  · rw [hk, hself] at hc
    refine ⟨t, d, ht, hk.symm, hd, ?_⟩
    rw [← Option.some.inj hc, Arena.allot_name, Naming.fresh_unused _ _ hfree]
  · rw [hs.find?_allot_ne _ hk] at hc
    exact hp key c hc

theorem component_names {f : Arena} (hf : NamesApart catalog S f) {below below' : Level}
    {d : TypeDecl} {t : TypeExpr} (ht : S t) (hd : catalog.get? t.name = some d)
    (h : (naming catalog S f).rel (content below d t.args) (content below' d t.args)) :
    (naming catalog S f).rel (component below d t) (component below' d t) := by
  refine ⟨component_steps d t h.1, fun a s b hs ho hag hp => ?_⟩
  rcases component_eq_ok ho with ⟨c', -, -, rfl⟩ | ⟨hnone, inner, b', hin, rfl, rfl⟩
  · exact hp
  · have hopen := (steps_allot hs hnone (wantedName d t)).2
    have hb := steps_of_outcome h.1 hopen hin
    have hb'f : b'.Agrees f := (b'.agrees_fill a.size inner).trans hag
    have hp' := h.2 _ inner b' hopen hin hb'f
      (plain_allot hf ht hd hs (hb.1.agrees.trans hb'f) hp)
    intro key c hc
    obtain ⟨c', hc', hn⟩ := b'.find?_fill a.size inner hc
    obtain ⟨u, e, hu, hk, he, hw⟩ := hp' key c' hc'
    exact ⟨u, e, hu, hk, he, hn.symm.trans hw⟩

theorem level_names (hc : catalog.Closed S) {f : Arena} (hf : NamesApart catalog S f)
    (depth : Nat) :
    (naming catalog S f).logic.Linked (fun x => S x.type) (level catalog depth)
      (level catalog depth) :=
  (naming catalog S f).level_linked hc.demands (fun _ _ _ ht hd h => component_names hf ht hd h)
    depth

end ApiDoc.Inference
