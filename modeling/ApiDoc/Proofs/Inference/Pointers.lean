import ApiDoc.Proofs.Inference.Depth

/-!
# Pointers among containers

A type is described through the containers around it by looking at the type right inside each
of them, and of two containers this look takes in more than the description: an option asks
whether it holds a scalar, and a list that may be binary whether it holds bytes. A pointer
is described like what it points to, but it is no scalar and no byte. So it makes a
difference in the end just where such a container looks at it.
-/

set_option autoImplicit false

namespace ApiDoc.Inference

/-! ### Types with something around them -/

structure Pointer where
  name : String
  head : Head.ofName name = .pointer

def Pointer.of (p : Pointer) (t : TypeExpr) : TypeExpr := ⟨p.name, [t]⟩

inductive Layer where
  | option
  | pointer (p : Pointer)
  | sequence (name : String) (unique binary : Bool)
    (head : Head.ofName name = .sequence unique binary)
  | map (name : String) (head : Head.ofName name = .map) (key : TypeExpr)

def Layer.of : Layer → TypeExpr → TypeExpr
  | .option, t => ⟨"Option", [t]⟩
  | .pointer p, t => p.of t
  | .sequence name _ _ _, t => ⟨name, [t]⟩
  | .map name _ key, t => ⟨name, [key, t]⟩

def surrounded : List Layer → TypeExpr → TypeExpr
  | [], t => t
  | l :: outer, t => surrounded outer (l.of t)

/-! ### What a layer makes of what is inside -/

def Layer.sees : Layer → TypeExpr → Bool
  | .option, t => (scalar? t).isSome
  | .sequence _ _ binary _, t => binary && t.name = "u8"
  | .pointer _, _ | .map _ _ _, _ => false

def Layer.make : Layer → Bool → Schema → Schema
  | .option, seen, s => if seen then setNullable s else s
  | .pointer _, _, s => s
  | .sequence _ unique _ _, seen, s =>
    if seen then .ofFormat .string "binary"
    else if unique then setUnique (.arrayOf s) else .arrayOf s
  | .map _ _ _, _, s =>
    if s.isBlank then .ofType .object
    else { Schema.ofType .object with additional := some (.schema s) }

def made : List Layer → TypeExpr → Schema → Schema
  | [], _, s => s
  | l :: outer, t, s => made outer (l.of t) (l.make (l.sees t) s)

/-- What describing a type comes to with as many levels as it takes. -/
def SettlesOn (catalog : Catalog) (t : TypeExpr) (a : Arena) (r : Except Failure Schema)
    (b : Arena) : Prop :=
  r ≠ .error .tooDeep ∧ ∃ n, (schemaOf catalog n t).outcome a = (r, b)

variable {catalog : Catalog} {t x : TypeExpr} {a b : Arena} {r : Except Failure Schema}

/-- Without a level nothing is described. -/
theorem settlesOn_iff_describe : SettlesOn catalog t a r b ↔
    r ≠ .error .tooDeep ∧ ∃ n, (describe catalog (level catalog n) t).outcome a = (r, b) := by
  refine and_congr_right fun hr => ⟨?_, ?_⟩
  · rintro ⟨n, hn⟩
    cases n with
    | zero =>
      cases hn
      exact absurd rfl hr
    | succ n => exact ⟨n, hn⟩
  · rintro ⟨n, hn⟩
    exact ⟨n + 1, hn⟩

theorem settlesOn_of_pure {s : Schema} (h : ∀ below, describe catalog below t = pure s) :
    SettlesOn catalog t a r b ↔ r = .ok s ∧ b = a := by
  simp only [settlesOn_iff_describe, h]
  constructor
  · rintro ⟨-, n, hn⟩
    cases hn
    exact ⟨rfl, rfl⟩
  · rintro ⟨rfl, rfl⟩
    exact ⟨by simp, 0, rfl⟩

theorem settlesOn_of_bind {f : Schema → Schema}
    (h : ∀ below, describe catalog below t = below.schemaOf x >>= fun s => pure (f s)) :
    SettlesOn catalog t a r b ↔ ∃ r₀, SettlesOn catalog x a r₀ b ∧ r = r₀.map f := by
  have hlevel : ∀ n, (describe catalog (level catalog n) t).outcome a =
      Prod.map (Except.map f) id ((schemaOf catalog n x).outcome a) := by
    intro n
    rw [h, ExceptT.outcome_bind_pure]
    rfl
  rw [settlesOn_iff_describe]
  simp only [hlevel]
  constructor
  · rintro ⟨hr, n, hn⟩
    cases hx : (schemaOf catalog n x).outcome a with
    | mk r₀ b₀ =>
      rw [hx] at hn
      cases hn
      exact ⟨r₀, ⟨fun he => hr (by rw [he]; rfl), n, hx⟩, rfl⟩
  · rintro ⟨r₀, ⟨hr, n, hn⟩, rfl⟩
    exact ⟨map_ne_error hr, n, by rw [hn]; rfl⟩

/-- A scalar inside needs no level, so what is made of it is known. -/
theorem settlesOn_of_scalar {f : Schema → Schema} {c s : Schema} (hx : scalar? x = some c)
    (hf : f c = s) (h : ∀ below, describe catalog below t = pure s) :
    SettlesOn catalog t a r b ↔ ∃ r₀, SettlesOn catalog x a r₀ b ∧ r = r₀.map f := by
  have hscalar : ∀ below, describe catalog below x = pure c := fun below => by
    simp [describe, hx]
  simp only [settlesOn_of_pure h, settlesOn_of_pure hscalar]
  constructor
  · rintro ⟨rfl, rfl⟩
    exact ⟨.ok c, ⟨rfl, rfl⟩, by simp [Except.map, hf]⟩
  · rintro ⟨r₀, ⟨rfl, rfl⟩, rfl⟩
    exact ⟨by simp [Except.map, hf], rfl⟩

/-! ### Containers and pointers are no scalars -/

theorem scalar?_of_head (h : Head.ofName t.name ≠ .named) (hc : t.name ≠ "Cow") :
    scalar? t = none := by
  have htable : ∀ row ∈ headTable, row.1 ≠ "Cow" → scalarTable.lookup row.1 = none := by decide
  unfold Head.ofName at h
  cases hl : headTable.lookup t.name with
  | none => simp [hl] at h
  | some head =>
    have hrow := Ordered.mem_of_lookup hl
    rw [scalar?, if_neg hc]
    exact htable _ hrow hc

def Layer.Borrows : Layer → TypeExpr → Prop
  | .pointer p, t => p.name = "Cow" ∧ t.name = "str"
  | _, _ => False

theorem scalar?_layer_of_borrows {l : Layer} (h : l.Borrows t) :
    scalar? (l.of t) = some (.ofType .string) := by
  cases l with
  | pointer p =>
    obtain ⟨hp, ht⟩ := h
    simp [scalar?, Layer.of, Pointer.of, hp, TypeExpr.firstArg?, ht]
  | _ => exact h.elim

theorem scalar?_layer_of_not {l : Layer} (h : ¬ l.Borrows t) : scalar? (l.of t) = none := by
  cases l with
  | option =>
    have hhead : Head.ofName "Option" ≠ .named := by decide
    exact scalar?_of_head hhead (show "Option" ≠ "Cow" by decide)
  | sequence name unique binary head =>
    refine scalar?_of_head (by simp [Layer.of, head]) fun hc => ?_
    change name = "Cow" at hc
    subst hc
    cases head
  | map name head key =>
    refine scalar?_of_head (by simp [Layer.of, head]) fun hc => ?_
    change name = "Cow" at hc
    subst hc
    cases head
  | pointer p =>
    by_cases hp : p.name = "Cow"
    · have ht : t.name ≠ "str" := fun ht => h ⟨hp, ht⟩
      simp [scalar?, Layer.of, Pointer.of, hp, TypeExpr.firstArg?, ht]
    · exact scalar?_of_head (by simp [Layer.of, Pointer.of, p.head]) hp

theorem scalar?_of_text (h : t.name = "str") : scalar? t = some (.ofType .string) := by
  rw [scalar?, if_neg (by simp [h]), h]
  rfl

theorem scalar?_of_byte (h : t.name = "u8") : scalar? t = some (.ofFormat .integer "int32") := by
  rw [scalar?, if_neg (by simp [h]), h]
  rfl

/-- A layer is described by what it makes of the description inside, and of what it sees. -/
theorem settlesOn_layer (l : Layer) :
    SettlesOn catalog (l.of t) a r b ↔
      ∃ r₀, SettlesOn catalog t a r₀ b ∧ r = r₀.map (l.make (l.sees t)) := by
  by_cases hb : l.Borrows t
  · have hl := scalar?_layer_of_borrows hb
    cases l with
    | pointer p =>
      refine settlesOn_of_scalar (s := .ofType .string) (scalar?_of_text hb.2) rfl fun below => ?_
      unfold describe
      rw [hl]
    | _ => exact hb.elim
  · have hl := scalar?_layer_of_not hb
    cases l with
    | option =>
      refine settlesOn_of_bind fun below => ?_
      unfold describe
      rw [hl]
      rfl
    | pointer p =>
      refine settlesOn_of_bind fun below => ?_
      unfold describe
      rw [hl]
      simp only [Layer.of, Pointer.of, p.head]
      exact (bind_pure _).symm
    | map name head key =>
      refine settlesOn_of_bind fun below => ?_
      unfold describe
      rw [hl]
      simp only [Layer.of, head]
      rfl
    | sequence name unique binary head =>
      have hdescribe : ∀ below, describe catalog below ⟨name, [t]⟩ =
          if binary && t.name = "u8" then pure (.ofFormat .string "binary")
          else below.schemaOf t >>= fun s =>
            pure (if unique then setUnique (.arrayOf s) else .arrayOf s) := by
        intro below
        unfold describe
        rw [show scalar? ⟨name, [t]⟩ = none from hl]
        simp only [head]
      by_cases hsees : binary && t.name = "u8"
      · have ht : t.name = "u8" := by simp_all
        refine settlesOn_of_scalar (s := .ofFormat .string "binary") (scalar?_of_byte ht) ?_ ?_
        · simp only [Layer.make, Layer.sees, hsees, if_true]
        · intro below
          exact (hdescribe below).trans (if_pos hsees)
      · refine settlesOn_of_bind fun below => ?_
        refine ((hdescribe below).trans (if_neg hsees)).trans ?_
        simp only [Layer.make, Layer.sees, hsees, Bool.false_eq_true, if_false]

theorem settlesOn_surrounded (ls : List Layer) :
    SettlesOn catalog (surrounded ls t) a r b ↔
      ∃ r₀, SettlesOn catalog t a r₀ b ∧ r = r₀.map (made ls t) := by
  induction ls generalizing t r with
  | nil =>
    have hid : ∀ r₀ : Except Failure Schema, r₀.map (made [] t) = r₀ := fun r₀ => by
      cases r₀ <;> rfl
    simp [surrounded, hid]
  | cons l outer ih =>
    have hcomp : ∀ r₀ : Except Failure Schema,
        (r₀.map (l.make (l.sees t))).map (made outer (l.of t)) = r₀.map (made (l :: outer) t) :=
      fun r₀ => by cases r₀ <;> rfl
    rw [surrounded, ih]
    constructor
    · rintro ⟨r₁, hlayer, rfl⟩
      obtain ⟨r₀, h, rfl⟩ := (settlesOn_layer l).mp hlayer
      exact ⟨r₀, h, hcomp r₀⟩
    · rintro ⟨r₀, h, rfl⟩
      exact ⟨_, (settlesOn_layer l).mpr ⟨r₀, h, rfl⟩, (hcomp r₀).symm⟩

/-- By itself a pointer is described like what it points to. -/
theorem settlesOn_pointer (p : Pointer) :
    SettlesOn catalog (p.of t) a r b ↔ SettlesOn catalog t a r b := by
  have hid : ∀ r₀ : Except Failure Schema, r₀.map (Layer.make (.pointer p) false) = r₀ :=
    fun r₀ => by cases r₀ <;> rfl
  refine (settlesOn_layer (.pointer p)).trans ?_
  simp [Layer.sees, hid]

/-! ### What is seen of something that is no scalar -/

def enclosed (ls : List Layer) (s : Schema) : Schema := ls.foldl (fun s l => l.make false s) s

theorem sees_of_not_scalar (h : scalar? t = none) (l : Layer) : l.sees t = false := by
  cases l with
  | option => simp [Layer.sees, h]
  | pointer p => rfl
  | map name head key => rfl
  | sequence name unique binary head =>
    have ht : t.name ≠ "u8" := fun ht => by simp [scalar?_of_byte ht] at h
    simp [Layer.sees, ht]

theorem not_borrows_of_not_scalar (h : scalar? t = none) (l : Layer) : ¬ l.Borrows t := by
  intro hb
  cases l with
  | pointer p => simp [scalar?_of_text hb.2] at h
  | _ => exact hb

theorem made_of_not_scalar (h : scalar? t = none) (ls : List Layer) : made ls t = enclosed ls := by
  induction ls generalizing t with
  | nil => rfl
  | cons l outer ih =>
    funext s
    have hl := scalar?_layer_of_not (not_borrows_of_not_scalar h l)
    rw [made, sees_of_not_scalar h, ih hl]
    rfl

/-- A schema that says something, of which every layer makes one that does too. -/
theorem isBlank_make (l : Layer) {s : Schema} (h : s.isBlank = false) :
    (l.make false s).isBlank = false := by
  cases l with
  | option => exact h
  | pointer p => exact h
  | sequence name unique binary head => cases unique <;> rfl
  | map name head key =>
    simp only [Layer.make, h]
    rfl

theorem make_injective (l : Layer) {s u : Schema} (hs : s.isBlank = false)
    (hu : u.isBlank = false) (h : l.make false s = l.make false u) : s = u := by
  cases l with
  | option => exact h
  | pointer p => exact h
  | sequence name unique binary head =>
    have hitems := congrArg Schema.items h
    cases unique <;> exact Option.some.inj hitems
  | map name head key =>
    simp only [Layer.make, hs, hu] at h
    have hadditional := congrArg Schema.additional h
    cases hadditional
    rfl

theorem enclosed_injective (ls : List Layer) {s u : Schema} (hs : s.isBlank = false)
    (hu : u.isBlank = false) (h : enclosed ls s = enclosed ls u) : s = u := by
  induction ls generalizing s u with
  | nil => exact h
  | cons l outer ih =>
    exact make_injective l hs hu (ih (isBlank_make l hs) (isBlank_make l hu) h)

theorem made_cons {l : Layer} (h : ¬ l.Borrows t) (outer : List Layer) (s : Schema) :
    made (l :: outer) t s = enclosed outer (l.make (l.sees t) s) := by
  rw [made, made_of_not_scalar (scalar?_layer_of_not h)]

/-! ### Where a pointer shows -/

/-- Options look for scalars right inside them, and binary sequences for bytes; the pointer
hides what is looked for. Borrowed text is a scalar only as it is written. -/
def Pointer.Shows (p : Pointer) (t : TypeExpr) : List Layer → Prop
  | .option :: _ => (scalar? t).isSome ∧ scalar? (p.of t) = none
  | .sequence _ _ binary _ :: _ => binary = true ∧ t.name = "u8"
  | .pointer q :: .option :: _ => q.name = "Cow" ∧ t.name = "str"
  | _ => False

variable (p : Pointer)

theorem Pointer.name_ne {name : String} (h : Head.ofName name ≠ .pointer) : p.name ≠ name :=
  fun he => h (he ▸ p.head)

/-- Around a pointer no other pointer borrows text. -/
theorem not_borrows_pointer (l : Layer) : ¬ l.Borrows (p.of t) := by
  intro hb
  cases l with
  | pointer q => exact p.name_ne (by decide) hb.2
  | _ => exact hb

theorem scalar?_pointer_pointer (q : Pointer) : scalar? (q.of (p.of t)) = none :=
  scalar?_layer_of_not (l := .pointer q) (not_borrows_pointer p _)

/-- Right inside a layer that takes no notice of the pointer. -/
theorem made_cons_pointer {l : Layer} (hb : ¬ l.Borrows t) (hsees : l.sees (p.of t) = l.sees t)
    (outer : List Layer) : made (l :: outer) (p.of t) = made (l :: outer) t := by
  funext s
  rw [made_cons (not_borrows_pointer p l), made_cons hb, hsees]

/-- Right inside another pointer, unless this makes a scalar that an option looks at. -/
theorem made_pointers (q : Pointer) {outer : List Layer} (h : ∀ rest, outer ≠ .option :: rest) :
    made outer (q.of (p.of t)) = made outer (q.of t) := by
  rw [made_of_not_scalar (scalar?_pointer_pointer p q)]
  funext s
  cases outer with
  | nil => rfl
  | cons l rest =>
    have hsees : l.sees (q.of t) = false := by
      cases l with
      | option => exact absurd rfl (h rest)
      | pointer _ => rfl
      | map _ _ _ => rfl
      | sequence name unique binary head =>
        have hbyte : (q.of t).name ≠ "u8" := q.name_ne (by decide)
        simp [Layer.sees, hbyte]
    rw [made_cons (not_borrows_pointer q l), hsees]
    rfl

theorem made_eq_of_not_shows {ls : List Layer} (h : ¬ p.Shows t ls) :
    made ls (p.of t) = made ls t := by
  cases ls with
  | nil => rfl
  | cons l outer =>
    cases l with
    | option =>
      refine made_cons_pointer p (l := .option) id ?_ outer
      cases hs : scalar? t with
      | none =>
        have hp : scalar? (p.of t) = none :=
          scalar?_layer_of_not (l := .pointer p) (not_borrows_of_not_scalar hs _)
        simp only [Layer.sees, hs, hp]
      | some c =>
        have hp : scalar? (p.of t) ≠ none := fun hp => h ⟨by simp [hs], hp⟩
        simp [Layer.sees, hs, Option.isSome_iff_ne_none.mpr hp]
    | sequence name unique binary head =>
      refine made_cons_pointer p (l := .sequence name unique binary head) id ?_ outer
      have hbyte : (p.of t).name ≠ "u8" := p.name_ne (by decide)
      have hnot : ¬ (binary = true ∧ t.name = "u8") := h
      simp only [Layer.sees, hbyte]
      cases binary <;> simp_all
    | map name head key => exact made_cons_pointer p (l := .map name head key) id rfl outer
    | pointer q =>
      by_cases hb : Layer.Borrows (.pointer q) t
      · refine made_pointers p q fun rest he => ?_
        subst he
        exact h hb
      · exact made_cons_pointer p hb rfl outer

theorem enclosed_setNullable_ne {c : Schema} (hc : scalar? t = some c) (ls : List Layer) :
    enclosed ls c ≠ enclosed ls (setNullable c) := by
  obtain ⟨type, format, rfl⟩ := scalar?_eq_some hc
  intro h
  have hnullable := congrArg (·.keywords.nullable) (enclosed_injective ls (by rfl) (by rfl) h)
  cases hnullable

/-- What shows is seen in the description of the whole. -/
theorem made_ne_of_shows {ls : List Layer} (h : p.Shows t ls) :
    ∃ c, scalar? t = some c ∧ made ls (p.of t) c ≠ made ls t c := by
  cases ls with
  | nil => exact h.elim
  | cons l outer =>
    cases l with
    | map name head key => exact h.elim
    | option =>
      obtain ⟨hs, hp⟩ := h
      obtain ⟨c, hc⟩ := Option.isSome_iff_exists.mp hs
      refine ⟨c, hc, ?_⟩
      rw [made_cons (l := .option) id, made_cons (l := .option) id]
      simp only [Layer.sees, Layer.make, hs, hp]
      exact enclosed_setNullable_ne hc outer
    | sequence name unique binary head =>
      obtain ⟨rfl, ht⟩ := h
      have hbyte : (p.of t).name ≠ "u8" := p.name_ne (by decide)
      refine ⟨_, scalar?_of_byte ht, ?_⟩
      let list : Layer := .sequence name unique true head
      rw [made_cons (l := list) id, made_cons (l := list) id]
      simp only [list, Layer.sees, ht, hbyte]
      intro he
      have hitems := congrArg Schema.items
        (enclosed_injective outer (isBlank_make list (by rfl)) (by rfl) he)
      cases unique <;> cases hitems
    | pointer q =>
      cases outer with
      | nil => exact h.elim
      | cons l rest =>
        cases l with
        | option =>
          have hs : scalar? (q.of t) = some (.ofType .string) :=
            scalar?_layer_of_borrows (l := .pointer q) h
          refine ⟨_, scalar?_of_text h.2, ?_⟩
          change made (.option :: rest) (q.of (p.of t)) _ ≠ made (.option :: rest) (q.of t) _
          rw [made_cons (l := .option) id, made_cons (l := .option) id]
          simp only [Layer.sees, Layer.make, hs, scalar?_pointer_pointer p q]
          exact enclosed_setNullable_ne hs rest
        | _ => exact h.elim

/-- A pointer makes no difference to what a type comes to in any surroundings, but where it
shows. -/
theorem pointer_transparent_iff (catalog : Catalog) (t : TypeExpr) (ls : List Layer) :
    (∀ a r b, SettlesOn catalog (surrounded ls (p.of t)) a r b ↔
      SettlesOn catalog (surrounded ls t) a r b) ↔ ¬ p.Shows t ls := by
  constructor
  · intro h hshows
    obtain ⟨c, hc, hne⟩ := made_ne_of_shows p hshows
    have hscalar : ∀ below, describe catalog below t = pure c := fun below => by
      simp [describe, hc]
    have hplain : SettlesOn catalog (surrounded ls t) {} (.ok (made ls t c)) {} :=
      (settlesOn_surrounded ls).mpr ⟨.ok c, (settlesOn_of_pure hscalar).mpr ⟨rfl, rfl⟩, rfl⟩
    obtain ⟨r₀, hr, he⟩ := (settlesOn_surrounded ls).mp ((h _ _ _).mpr hplain)
    obtain ⟨rfl, -⟩ := (settlesOn_of_pure hscalar).mp ((settlesOn_pointer p).mp hr)
    exact hne (Except.ok.inj he).symm
  · intro h a r b
    rw [settlesOn_surrounded, settlesOn_surrounded, made_eq_of_not_shows p h]
    simp only [settlesOn_pointer]

section Counterexample

def box : Pointer := ⟨"Box", by decide⟩

def numberType : TypeExpr := ⟨"i64", []⟩

/-- An optional number is nullable, and an optional number in a box is not. -/
theorem boxed_number_not_nullable :
    (schemaOf {} 9 (surrounded [.option] (box.of numberType))).outcome {} =
      (.ok (.ofFormat .integer "int64"), {}) ∧
    (schemaOf {} 9 (surrounded [.option] numberType)).outcome {} =
      (.ok (setNullable (.ofFormat .integer "int64")), {}) ∧
    ¬ (∀ a r b, SettlesOn {} (surrounded [.option] (box.of numberType)) a r b ↔
      SettlesOn {} (surrounded [.option] numberType) a r b) := by
  have hboxed : (schemaOf {} 9 (surrounded [.option] (box.of numberType))).outcome {} =
      (.ok (.ofFormat .integer "int64"), {}) := rfl
  have hplain : (schemaOf {} 9 (surrounded [.option] numberType)).outcome {} =
      (.ok (setNullable (.ofFormat .integer "int64")), {}) := rfl
  refine ⟨hboxed, hplain, fun h => ?_⟩
  obtain ⟨r₀, hr, he⟩ := (settlesOn_surrounded _).mp ((h _ _ _).mp ⟨by simp, 9, hboxed⟩)
  obtain ⟨rfl, -⟩ := (settlesOn_of_pure (s := .ofFormat .integer "int64") fun _ => rfl).mp hr
  have hnullable := congrArg (Except.map (·.keywords.nullable)) he
  cases hnullable

end Counterexample

end ApiDoc.Inference
