/-!
# Outcomes

What a computation makes of a state: an answer or a failure, and the state as it
is then.
-/

set_option autoImplicit false

theorem Except.bind_eq_ok {ε α β : Type} {e : Except ε α} {k : α → Except ε β} {y : β}
    (h : (e >>= k) = .ok y) : ∃ x, e = .ok x ∧ k x = .ok y := by
  cases e with
  | ok x => exact ⟨x, rfl, h⟩
  | error f => cases h

theorem Except.eq_ok_getD {ε α : Type} {e : Except ε α} (h : e.toOption.isSome = true) (x : α) :
    e = .ok (e.toOption.getD x) := by
  cases e with
  | ok y => rfl
  | error f => cases h

namespace ExceptT

variable {ε σ α β : Type}

def outcome (g : ExceptT ε (StateM σ) α) (s : σ) : Except ε α × σ := g.run s

theorem outcome_pure_eq_ok {x y : α} {s t : σ}
    (h : (pure x : ExceptT ε (StateM σ) α).outcome s = (.ok y, t)) : x = y ∧ s = t := by
  cases h
  exact ⟨rfl, rfl⟩

theorem outcome_bind_ok {g : ExceptT ε (StateM σ) α} {k : α → ExceptT ε (StateM σ) β} {s s' : σ}
    {x : α} (h : g.outcome s = (.ok x, s')) : (g >>= k).outcome s = (k x).outcome s' := by
  have h : (g : StateM σ (Except ε α)) s = (.ok x, s') := h
  simp only [outcome, bind, ExceptT.bind, ExceptT.run, ExceptT.mk, StateT.bind, h]
  rfl

theorem outcome_bind_error {g : ExceptT ε (StateM σ) α} {k : α → ExceptT ε (StateM σ) β}
    {s s' : σ} {e : ε} (h : g.outcome s = (.error e, s')) :
    (g >>= k).outcome s = (.error e, s') := by
  have h : (g : StateM σ (Except ε α)) s = (.error e, s') := h
  simp only [outcome, bind, ExceptT.bind, ExceptT.run, ExceptT.mk, StateT.bind, h]
  rfl

theorem outcome_bind_eq_ok {g : ExceptT ε (StateM σ) α} {k : α → ExceptT ε (StateM σ) β}
    {s s'' : σ} {y : β} (h : (g >>= k).outcome s = (.ok y, s'')) :
    ∃ x s', g.outcome s = (.ok x, s') ∧ (k x).outcome s' = (.ok y, s'') := by
  cases hg : g.outcome s with
  | mk r s' =>
    cases r with
    | ok x => exact ⟨x, s', rfl, by rw [← outcome_bind_ok hg, h]⟩
    | error e =>
      rw [outcome_bind_error hg] at h
      cases h

/-- What is done next matters for the answers that there are only. -/
theorem bind_congr_ok {g : ExceptT ε (StateM σ) α} {k k' : α → ExceptT ε (StateM σ) β}
    (h : ∀ s x t, g.outcome s = (.ok x, t) → k x = k' x) : g >>= k = g >>= k' := by
  have hsame : ∀ s, (g >>= k).outcome s = (g >>= k').outcome s := by
    intro s
    cases hg : g.outcome s with
    | mk r t =>
      cases r with
      | ok x => rw [outcome_bind_ok hg, outcome_bind_ok hg, h s x t hg]
      | error e => rw [outcome_bind_error hg, outcome_bind_error hg]
  exact funext hsame

theorem outcome_bind_pure (g : ExceptT ε (StateM σ) α) (f : α → β) (s : σ) :
    (g >>= fun x => pure (f x)).outcome s = Prod.map (Except.map f) id (g.outcome s) := by
  cases hg : g.outcome s with
  | mk r s' =>
    cases r with
    | ok x => exact outcome_bind_ok hg
    | error e => exact outcome_bind_error hg

/-- A relation between states that can be chained holds of a sequence when it
holds of its parts. -/
theorem outcome_bind_chain {R : σ → σ → Prop} (trans : ∀ a b c, R a b → R b c → R a c)
    {g : ExceptT ε (StateM σ) α} {k : α → ExceptT ε (StateM σ) β} {s : σ}
    (hg : R s (g.outcome s).2)
    (hk : ∀ x, R (g.outcome s).2 ((k x).outcome (g.outcome s).2).2) :
    R s ((g >>= k).outcome s).2 := by
  cases hr : g.outcome s with
  | mk r s' =>
    rw [hr] at hg hk
    cases r with
    | ok x =>
      rw [outcome_bind_ok hr]
      exact trans _ _ _ hg (hk x)
    | error e =>
      rw [outcome_bind_error hr]
      exact hg

/-! ### One thing made of each -/

def paired (f : α → ExceptT ε (StateM σ) β) (xs : List α) :
    ExceptT ε (StateM σ) (List (α × β)) :=
  xs.mapM fun x => do
    let y ← f x
    pure (x, y)

section Paired

variable (f : α → ExceptT ε (StateM σ) β)

theorem paired_cons (x : α) (xs : List α) : paired f (x :: xs) = (do
    let y ← f x
    let made ← paired f xs
    pure ((x, y) :: made)) := by
  simp only [paired, List.mapM_cons, bind_assoc, pure_bind]

theorem paired_append (xs ys : List α) : paired f (xs ++ ys) = (do
    let made ← paired f xs
    let more ← paired f ys
    pure (made ++ more)) :=
  List.mapM_append

/-- What is done with each thing as soon as it is made may wait until all are made. -/
theorem foldlM_eq_paired {γ : Type} (g : γ → α → β → γ) (xs : List α) (c : γ) :
    xs.foldlM (fun c x => do
      let y ← f x
      pure (g c x y)) c =
    paired f xs >>= fun made => pure (made.foldl (fun c row => g c row.1 row.2) c) := by
  induction xs generalizing c with
  | nil => rfl
  | cons x xs ih =>
    rw [List.foldlM_cons, paired_cons]
    simp only [bind_assoc, pure_bind, List.foldl_cons]
    exact bind_congr fun y => ih (g c x y)

theorem mapM_eq_paired {γ : Type} (g : α → β → γ) (xs : List α) :
    (xs.mapM fun x => do
      let y ← f x
      pure (g x y)) =
    paired f xs >>= fun made => pure (made.map fun row => g row.1 row.2) := by
  induction xs with
  | nil => rfl
  | cons x xs ih =>
    rw [List.mapM_cons, paired_cons, ih]
    simp only [bind_assoc, pure_bind, List.map_cons]

variable {f}

theorem paired_eq_ok {xs : List α} {made : List (α × β)} {s t : σ}
    (h : (paired f xs).outcome s = (.ok made, t)) :
    made.map Prod.fst = xs ∧ ∀ row ∈ made, ∃ u v, (f row.1).outcome u = (.ok row.2, v) := by
  induction xs generalizing made s with
  | nil =>
    cases h
    exact ⟨rfl, List.forall_mem_nil _⟩
  | cons x xs ih =>
    rw [paired_cons] at h
    obtain ⟨y, u, hy, h⟩ := outcome_bind_eq_ok h
    obtain ⟨rest, v, hrest, h⟩ := outcome_bind_eq_ok h
    cases h
    obtain ⟨hxs, hmade⟩ := ih hrest
    exact ⟨by rw [List.map_cons, hxs], List.forall_mem_cons.mpr ⟨⟨s, u, hy⟩, hmade⟩⟩

/-- What is made of one of them is made after what is made of those before it. -/
theorem paired_split {xs ys : List α} {x : α} {made : List (α × β)} {s t : σ}
    (h : (paired f (xs ++ x :: ys)).outcome s = (.ok made, t)) :
    ∃ before y after u v, (paired f xs).outcome s = (.ok before, u) ∧
      (f x).outcome u = (.ok y, v) ∧ (paired f ys).outcome v = (.ok after, t) ∧
      made = before ++ (x, y) :: after := by
  rw [paired_append] at h
  obtain ⟨before, u, hbefore, h⟩ := outcome_bind_eq_ok h
  obtain ⟨more, w, hmore, h⟩ := outcome_bind_eq_ok h
  rw [paired_cons] at hmore
  obtain ⟨y, v, hy, hmore⟩ := outcome_bind_eq_ok hmore
  obtain ⟨after, w', hafter, hmore⟩ := outcome_bind_eq_ok hmore
  cases hmore
  cases h
  exact ⟨before, y, after, u, v, hbefore, hy, hafter, rfl⟩

end Paired

end ExceptT
