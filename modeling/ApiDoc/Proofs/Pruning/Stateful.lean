import ApiDoc.Proofs.Pruning.Survivors

/-!
# Policies with a memory

What a policy answers may depend on what it was asked before. When it edits nothing, the
walk is described by its answers alone: node after node, in the order of the rows, it is
kept as it is or removed with all that stands below it, and the state goes from answer to
answer. Only designations change, when the response is gone from what is left of an
operation.
-/

set_option autoImplicit false

namespace ApiDoc

namespace Node

def answers : Node → String → Bool
  | .operation o, status => o.responses.any (·.entries.contains status)
  | _, _ => false

def designating (keep : String → Bool) : Node → Node
  | .operation o => .operation { o with responses := o.responses.map fun r =>
      { r with designated := r.designated.filter keep } }
  | n => n

/-- The second node is the first one, whatever stands below them, but that a status is
designated only if it has a response. -/
def Settles (n n' : Node) : Prop := n'.shell = (n.designating n'.answers).shell

end Node

namespace Policy

variable {σ : Type}

def asks {m : Type → Type} [Monad m] (p : Policy m) : Node → m (Option Node)
  | .schema s => do return (← p.schema s).map .schema
  | .response r => do return (← p.response r).map .response
  | .parameter q => do return (← p.parameter q).map .parameter
  | .sample e => do return (← p.sample e).map .sample
  | .requestBody b => do return (← p.requestBody b).map .requestBody
  | .header h => do return (← p.header h).map .header
  | .securityScheme s => do return (← p.securityScheme s).map .securityScheme
  | .link l => do return (← p.link l).map .link
  | .callback c => do return (← p.callback c).map .callback
  | .pathItem path i => do return (← p.pathItem path i).map (.pathItem path)
  | .operation o => do return (← p.operation o).map .operation
  | .server s => do return (← p.server s).map .server
  | .tag t => do return (← p.tag t).map .tag
  | .requirement r => do return (← p.requirement r).map .requirement

variable (p : Policy (StateM σ))

structure EditsNothing : Prop where
  answer : ∀ n s a, ((p.asks n).run s).1 = some a → a = n
  document : ∀ d s, ((p.document d).run s).1 = d

mutual
/-- From the first state to the second the walk goes through a node and leaves this of it. -/
inductive Passes : σ → Node → Option Node → σ → Prop
  | removed {s s' : σ} {n : Node} (h : (p.asks n).run s = (none, s')) : Passes s n none s'
  | kept {s s₁ s' : σ} {n n' : Node} (h : (p.asks n).run s = (some n, s₁))
    (shell : n.Settles n') (rows : PassesRows s₁ n.rows n'.rows s') : Passes s n (some n') s'
inductive PassesRows : σ → List Row → List Row → σ → Prop
  | nil (s : σ) : PassesRows s [] [] s
  | cons {s s₁ s' : σ} {place : Place} {n : Node} {left : Option Node} {rows rows' : List Row}
    (h : Passes s n left s₁) (hrows : PassesRows s₁ rows rows' s') :
    PassesRows s ((place, n) :: rows) (left.toList.map (place, ·) ++ rows') s'
end

namespace PassesRows

variable {p} {s s₁ s' : σ} {rows rows' more more' : List Row}

theorem append (h : p.PassesRows s rows rows' s₁) (hmore : p.PassesRows s₁ more more' s') :
    p.PassesRows s (rows ++ more) (rows' ++ more') s' := by
  induction rows generalizing s rows' with
  | nil =>
    cases h
    exact hmore
  | cons row rows ih =>
    cases h with
    | cons hrow hrows =>
      rw [List.append_assoc]
      exact .cons hrow (ih hrows)

theorem under (h : p.PassesRows s rows rows' s') (place : Place) :
    p.PassesRows s (Row.under place rows) (Row.under place rows') s' := by
  induction rows generalizing s rows' with
  | nil =>
    cases h
    exact .nil _
  | cons row rows ih =>
    cases h with
    | @cons _ _ _ own _ left _ rest hrow hrows =>
      have hleft : Row.under place (left.toList.map (own, ·) ++ rest) =
          left.toList.map (place ++ own, ·) ++ Row.under place rest := by
        simp [Row.under]
      rw [hleft]
      exact .cons hrow (ih hrows)

end PassesRows

/-! ### Runs -/

def Post {α : Type} (x : StateM σ α) (s : σ) (Q : α → σ → Prop) : Prop := Q (x.run s).1 (x.run s).2

section Post

variable {α β : Type} {s : σ} {Q : α → σ → Prop} {R : β → σ → Prop}

theorem post_pure {a : α} (h : Q a s) : Post (pure a) s Q := h

theorem Post.bind {x : StateM σ α} {k : α → StateM σ β} (hx : Post x s Q)
    (hk : ∀ a s', Q a s' → Post (k a) s' R) : Post (x >>= k) s R := hk _ _ hx

theorem Post.mono {Q' : α → σ → Prop} {x : StateM σ α} (hx : Post x s Q)
    (h : ∀ a s', Q a s' → Q' a s') : Post x s Q' := h _ _ hx

end Post

/-! ### Collections -/

def Visits (p : Policy (StateM σ)) {α : Type} (w : α → Node) (f : α → StateM σ (Option α))
    (a : α) : Prop := ∀ s, Post (f a) s fun left s' => p.Passes s (w a) (left.map w) s'

section Collections

variable {p : Policy (StateM σ)} {α : Type} {w : α → Node} {f : α → StateM σ (Option α)}

theorem passes_items (field : String) {as : List α} (h : ∀ a ∈ as, p.Visits w f a) (s : σ) :
    Post (items f as) s fun left s' =>
      p.PassesRows s (Row.ofList field w as) (Row.ofList field w left) s' := by
  induction as generalizing s with
  | nil => exact .nil s
  | cons a as ih =>
    obtain ⟨ha, has⟩ := List.forall_mem_cons.mp h
    refine (ha s).bind fun left s₁ hleft => (ih has s₁).bind fun rest s₂ hrest => ?_
    have hrows : Row.ofList field w (left.toList ++ rest) =
        (left.map w).toList.map ([field], ·) ++ Row.ofList field w rest := by
      cases left <;> rfl
    exact post_pure (hrows ▸ .cons hleft hrest)

theorem passes_mapM (place : String → Place) {w : String → α → Node}
    {f : String → α → StateM σ (Option α)} {keys : List String} {as : Ordered.Rows α keys}
    (h : ∀ row ∈ as.toList, p.Visits (w row.1) (f row.1) row.2) (s : σ) :
    Post (as.mapM f) s fun answers s' =>
      p.PassesRows s (as.toList.map fun row => (place row.1, w row.1 row.2))
        ((answers.toList.filterMap fun row => row.2.map fun a => (row.1, a)).map
          fun row => (place row.1, w row.1 row.2)) s' := by
  induction as generalizing s with
  | nil => exact .nil s
  | @cons key keys a as ih =>
    obtain ⟨ha, has⟩ := List.forall_mem_cons.mp h
    refine (ha s).bind fun left s₁ hleft => (ih has s₁).bind fun rest s₂ hrest => ?_
    have hrows : (((.cons left rest : Ordered.Rows (Option α) (key :: keys))).toList.filterMap
          fun row => row.2.map fun a => (row.1, a)).map (fun row => (place row.1, w row.1 row.2)) =
        (left.map (w key)).toList.map (place key, ·) ++ (rest.toList.filterMap
          fun row => row.2.map fun a => (row.1, a)).map
            fun row => (place row.1, w row.1 row.2) := by
      cases left <;> rfl
    exact post_pure (hrows ▸ .cons hleft hrest)

/-- The place and the node of a thing may depend on its key. -/
theorem passes_rows (place : String → Place) {w : String → α → Node}
    {f : String → α → StateM σ (Option α)} {t : Ordered α}
    (h : ∀ row ∈ t.entries, p.Visits (w row.1) (f row.1) row.2) (s : σ) :
    Post (rows f t) s fun left s' =>
      p.PassesRows s (t.entries.map fun row => (place row.1, w row.1 row.2))
        (left.entries.map fun row => (place row.1, w row.1 row.2)) s' := by
  have hanswers : Post (t.mapM f) s fun answers s' =>
      p.PassesRows s (t.entries.map fun row => (place row.1, w row.1 row.2))
        ((answers.entries.filterMap fun row => row.2.map fun a => (row.1, a)).map
          fun row => (place row.1, w row.1 row.2)) s' :=
    (passes_mapM place h s).bind fun _ _ hrows => post_pure hrows
  refine hanswers.bind fun answers _ hrows => post_pure ?_
  rw [Ordered.entries_filterMap]
  exact hrows

theorem passes_table (field : String) {t : Ordered α} (h : t.All (p.Visits w f)) (s : σ) :
    Post (table f t) s fun left s' =>
      p.PassesRows s (Row.ofTable field w t) (Row.ofTable field w left) s' :=
  (passes_rows (fun key => [field, key]) (w := fun _ => w) (f := fun _ => f) h s).bind
    fun _ _ hrows => post_pure hrows

theorem passes_slot (field : String) {x : Option α} (h : ∀ a, x = some a → p.Visits w f a) (s : σ) :
    Post (slot f x) s fun left s' =>
      p.PassesRows s (Row.ofSlot field w x) (Row.ofSlot field w left) s' := by
  cases x with
  | none => exact .nil s
  | some a =>
    refine (h a rfl s).mono fun left s' hleft => ?_
    have hrows : Row.ofSlot field w left = (left.map w).toList.map ([field], ·) ++ [] := by
      cases left <;> rfl
    exact hrows ▸ .cons hleft (.nil s')

theorem rows_slots (w : α → Node) (s : ByMethod α) :
    s.toList.map (fun row => ([row.1.name], w row.2)) =
      HttpMethod.all.flatMap fun m => Row.ofSlot m.name w (s.at? m) := by
  rw [ByMethod.toList, List.filterMap_eq_flatMap_toList, List.map_flatMap]
  apply List.flatMap_congr
  intro m _
  cases s.at? m <;> rfl

theorem passes_slots {t : ByMethod α} (h : ∀ m a, t.at? m = some a → p.Visits w f a) (s : σ) :
    Post (slots f t) s fun left s' =>
      p.PassesRows s (t.toList.map fun row => ([row.1.name], w row.2))
        (left.toList.map fun row => ([row.1.name], w row.2)) s' := by
  have hslot : ∀ m : HttpMethod, ∀ s, Post (slot f (t.at? m)) s fun left s' =>
      p.PassesRows s (Row.ofSlot m.name w (t.at? m)) (Row.ofSlot m.name w left) s' :=
    fun m => passes_slot m.name (h m)
  simp only [rows_slots, HttpMethod.all, List.flatMap_cons, List.flatMap_nil]
  refine (hslot .get s).bind fun get _ hget => (hslot .put _).bind fun put _ hput =>
    (hslot .post _).bind fun post _ hpost => (hslot .delete _).bind fun delete _ hdelete =>
      (hslot .options _).bind fun options _ hoptions => (hslot .head _).bind fun head _ hhead =>
        (hslot .patch _).bind fun patch _ hpatch => (hslot .trace _).bind fun trace _ htrace => ?_
  exact post_pure (hget.append (hput.append (hpost.append (hdelete.append (hoptions.append
    (hhead.append (hpatch.append (htrace.append (.nil _)))))))))

theorem passes_additional {f : Schema → StateM σ (Option Schema)} {x : Option (Additional Schema)}
    (h : ∀ c, x = some (.schema c) → p.Visits .schema f c) (s : σ) :
    Post (additional f x) s fun left s' =>
      p.PassesRows s (Row.ofSlot "additionalProperties" .schema (Schema.additionalSchema? x))
        (Row.ofSlot "additionalProperties" .schema (Schema.additionalSchema? left)) s' ∧
      ∀ y : Schema, (Node.schema { y with additional := left }).shell =
        (Node.schema { y with additional := x }).shell := by
  rcases x with _ | _ | c
  · exact ⟨.nil s, fun _ => rfl⟩
  · exact ⟨.nil s, fun _ => rfl⟩
  · have hone : ∀ a, some c = some a → p.Visits .schema f a := by
      rintro a ⟨⟩
      exact h c rfl
    refine (passes_slot "additionalProperties" hone s).bind fun left s' hleft => post_pure ?_
    cases left with
    | none => exact ⟨hleft, fun _ => rfl⟩
    | some b => exact ⟨hleft, fun _ => rfl⟩

end Collections

/-! ### Nodes -/

section Asking

variable {p : Policy (StateM σ)} (hp : p.EditsNothing)

include hp

/-- About a thing the policy answers nothing or the thing itself. -/
theorem EditsNothing.cases_asks {α : Type} {w : α → Node} (hw : w.Injective) {a : α}
    {ask : StateM σ (Option α)} (h : p.asks (w a) = do return (← ask).map w) (s : σ) :
    (∃ s₁, ask.run s = (none, s₁) ∧ (p.asks (w a)).run s = (none, s₁)) ∨
      ∃ s₁, ask.run s = (some a, s₁) ∧ (p.asks (w a)).run s = (some (w a), s₁) := by
  have hrun : (p.asks (w a)).run s = ((ask.run s).1.map w, (ask.run s).2) := by
    rw [h]
    rfl
  cases hanswer : ask.run s with
  | mk answer s₁ =>
    rw [hanswer] at hrun
    cases answer with
    | none => exact Or.inl ⟨s₁, rfl, hrun⟩
    | some b =>
      have hsame : w b = w a := hp.answer (w a) s (w b) (by rw [hrun]; rfl)
      rw [hw hsame] at hrun ⊢
      exact Or.inr ⟨s₁, rfl, hrun⟩

/-- Without nodes below there is nothing to do but to ask. -/
theorem EditsNothing.visits_leaf {α : Type} {w : α → Node} (hw : w.Injective) {a : α}
    {ask : α → StateM σ (Option α)} (h : p.asks (w a) = do return (← ask a).map w)
    (hsettles : (w a).Settles (w a)) (hrows : (w a).rows = []) : p.Visits w ask a := by
  intro s
  unfold Post
  rcases hp.cases_asks hw h s with ⟨s₁, hrun, hask⟩ | ⟨s₁, hrun, hask⟩
  · rw [hrun]
    exact .removed hask
  · rw [hrun]
    refine .kept hask hsettles ?_
    rw [hrows]
    exact .nil s₁

/-- What a walk does with a thing of which something is left in any case, if it is kept. -/
theorem EditsNothing.visits {α : Type} {w : α → Node} (hw : w.Injective) {a : α}
    {ask : StateM σ (Option α)} (h : p.asks (w a) = do return (← ask).map w)
    {f : α → StateM σ (Option α)} {k : Option α → StateM σ (Option α)} (hf : f a = ask >>= k)
    (hnone : k none = pure none)
    (hsome : ∀ s, Post (k (some a)) s fun left s' => ∃ b, left = some b ∧
      (w a).Settles (w b) ∧ p.PassesRows s (w a).rows (w b).rows s') : p.Visits w f a := by
  intro s
  have hbind : (f a).run s = (k (ask.run s).1).run (ask.run s).2 := by
    rw [hf]
    rfl
  unfold Post
  rcases hp.cases_asks hw h s with ⟨s₁, hrun, hask⟩ | ⟨s₁, hrun, hask⟩
  · rw [hbind, hrun, hnone]
    exact .removed hask
  · obtain ⟨b, hb, hsettles, hrows⟩ := hsome s₁
    rw [hbind, hrun, hb]
    exact .kept hask hsettles hrows

theorem visits_sample (e : Example) : p.Visits .sample p.sample e :=
  hp.visits_leaf (fun _ _ => Node.sample.inj) rfl rfl rfl

theorem visits_securityScheme (x : SecurityScheme) : p.Visits .securityScheme p.securityScheme x :=
  hp.visits_leaf (fun _ _ => Node.securityScheme.inj) rfl rfl rfl

theorem visits_server (x : Server) : p.Visits .server p.server x :=
  hp.visits_leaf (fun _ _ => Node.server.inj) rfl rfl rfl

theorem visits_tag (t : Tag) : p.Visits .tag p.tag t :=
  hp.visits_leaf (fun _ _ => Node.tag.inj) rfl rfl rfl

theorem visits_requirement (r : SecurityRequirement) : p.Visits .requirement p.requirement r :=
  hp.visits_leaf (fun _ _ => Node.requirement.inj) rfl rfl rfl

theorem visits_schemaWithin {n : Nat} {x : Schema} (hn : x.height ≤ n) :
    p.Visits .schema (p.schemaWithin n) x := by
  induction n generalizing x with
  | zero =>
    have hpos := x.height_pos
    omega
  | succ n ih =>
    refine hp.visits (fun _ _ => Node.schema.inj) rfl rfl rfl fun s => ?_
    have hchildren := Schema.forall_children.mp fun c hc =>
      ih (Nat.le_of_lt_succ ((Schema.height_lt hc).trans_le hn))
    refine Post.bind (Q := fun y s' => (Node.schema x).Settles (.schema y) ∧
      p.PassesRows s (Node.schema x).rows (Node.schema y).rows s') ?_ fun y s' hy =>
        post_pure ⟨y, rfl, hy⟩
    refine (passes_table "properties" hchildren.properties s).bind fun properties _ hproperties =>
      (passes_slot "items" hchildren.items _).bind fun items _ hitems =>
      (passes_slot "not" hchildren.negated _).bind fun negated _ hnegated =>
      (passes_items "allOf" hchildren.allOf _).bind fun allOf _ hallOf =>
      (passes_items "anyOf" hchildren.anyOf _).bind fun anyOf _ hanyOf =>
      (passes_items "oneOf" hchildren.oneOf _).bind fun oneOf _ honeOf =>
      (passes_additional hchildren.additional _).bind fun additional _ hadditional => ?_
    refine post_pure ⟨?_, ?_⟩
    · exact hadditional.2 { x with properties, items, negated, allOf, anyOf, oneOf }
    · exact (((((hproperties.append hitems).append hnegated).append hallOf).append hanyOf).append
        honeOf).append hadditional.1

theorem visits_pruneSchema (x : Schema) : p.Visits .schema p.pruneSchema x :=
  fun s => visits_schemaWithin hp (Nat.le_add_right x.height p.reach) s

theorem passes_pruneMedia (m : MediaType) (s : σ) : Post (p.pruneMedia m) s fun left s' =>
    p.PassesRows s (Row.ofMedia m) (Row.ofMedia left) s' ∧
      { left with schema := none, examples := {} } = { m with schema := none, examples := {} } := by
  refine (passes_slot "schema" (fun x _ => visits_pruneSchema hp x) s).bind fun schema _ hschema =>
    (passes_table "examples" (fun row _ => visits_sample hp row.2) _).bind
      fun examples _ hexamples => ?_
  exact post_pure ⟨hschema.append hexamples, rfl⟩

theorem passes_mediaRows {keys : List String} (as : Ordered.Rows MediaType keys) (s : σ) :
    Post (as.mapM fun _ media => do
        let media ← p.pruneMedia media
        pure (some media)) s fun answers s' =>
      ∃ left : Ordered.Rows MediaType keys, answers = left.map some ∧
        p.PassesRows s
          (as.toList.flatMap fun row => Row.under ["content", row.1] (Row.ofMedia row.2))
          (left.toList.flatMap fun row => Row.under ["content", row.1] (Row.ofMedia row.2)) s' ∧
        left.map (fun m => { m with schema := none, examples := {} }) =
          as.map fun m => { m with schema := none, examples := {} } := by
  induction as generalizing s with
  | nil => exact ⟨.nil, rfl, .nil s, rfl⟩
  | @cons key _ media as ih =>
    refine ((passes_pruneMedia hp media s).bind fun new _ h =>
      post_pure (Q := fun answer s' => ∃ new, answer = some new ∧
        p.PassesRows s (Row.ofMedia media) (Row.ofMedia new) s' ∧
          { new with schema := none, examples := {} } =
            { media with schema := none, examples := {} }) ⟨new, rfl, h⟩).bind
      fun answer s₁ hanswer => (ih s₁).bind fun answers s₂ hanswers => ?_
    obtain ⟨new, rfl, hrows, hshell⟩ := hanswer
    obtain ⟨left, rfl, hrest, hshells⟩ := hanswers
    exact post_pure ⟨.cons new left, rfl, (hrows.under ["content", key]).append hrest,
      congrArg₂ Ordered.Rows.cons hshell hshells⟩

/-- Media types are not asked about, and all of them stay. -/
theorem passes_pruneContent (c : Content) (s : σ) : Post (p.pruneContent c) s fun left s' =>
    p.PassesRows s (Row.ofContent c) (Row.ofContent left) s' ∧ left.shell = c.shell := by
  obtain ⟨keys, as, distinct⟩ := c
  refine Post.bind ((passes_mediaRows hp as s).bind fun answers _ hanswers =>
    post_pure (Q := fun answers s' => ∃ left : Content, answers = left.mapValues some ∧
      p.PassesRows s (Row.ofContent ⟨keys, as, distinct⟩) (Row.ofContent left) s' ∧
        left.shell = Content.shell ⟨keys, as, distinct⟩) ?_) fun answers _ hanswers => post_pure ?_
  · obtain ⟨left, rfl, hrows, hshells⟩ := hanswers
    exact ⟨⟨keys, left, distinct⟩, rfl, hrows,
      congrArg (fun rows => (⟨keys, rows, distinct⟩ : Content)) hshells⟩
  · obtain ⟨left, rfl, hrows, hshell⟩ := hanswers
    rw [Ordered.filterMap_mapValues]
    exact ⟨hrows, hshell⟩

theorem visits_pruneHeader (x : Header) : p.Visits .header p.pruneHeader x := by
  refine hp.visits (fun _ _ => Node.header.inj) rfl rfl rfl fun s => ?_
  refine (passes_slot "schema" (fun y _ => visits_pruneSchema hp y) s).bind fun schema _ hschema =>
    (passes_pruneContent hp x.content _).bind fun content _ hcontent => ?_
  refine post_pure ⟨_, rfl, ?_, hschema.append hcontent.1⟩
  simp only [Node.Settles, Node.shell, Node.designating, hcontent.2]

theorem visits_pruneLink (x : Link) : p.Visits .link p.pruneLink x := by
  refine hp.visits (fun _ _ => Node.link.inj) rfl rfl rfl fun s => ?_
  refine (passes_slot "server" (fun y _ => visits_server hp y) s).bind fun server _ hserver => ?_
  exact post_pure ⟨_, rfl, rfl, hserver⟩

theorem visits_pruneParameter (x : Parameter) : p.Visits .parameter p.pruneParameter x := by
  refine hp.visits (fun _ _ => Node.parameter.inj) rfl rfl rfl fun s => ?_
  refine (passes_slot "schema" (fun y _ => visits_pruneSchema hp y) s).bind fun schema _ hschema =>
    (passes_table "examples" (fun row _ => visits_sample hp row.2) _).bind
      fun examples _ hexamples =>
        (passes_pruneContent hp x.content _).bind fun content _ hcontent => ?_
  refine post_pure ⟨_, rfl, ?_, (hschema.append hexamples).append hcontent.1⟩
  simp only [Node.Settles, Node.shell, Node.designating, hcontent.2]

theorem visits_pruneBody (x : RequestBody) : p.Visits .requestBody p.pruneBody x := by
  refine hp.visits (fun _ _ => Node.requestBody.inj) rfl rfl rfl fun s => ?_
  refine (passes_pruneContent hp x.content s).bind fun content _ hcontent => ?_
  refine post_pure ⟨_, rfl, ?_, hcontent.1⟩
  simp only [Node.Settles, Node.shell, Node.designating, hcontent.2]

theorem visits_pruneResponse (x : Response) : p.Visits .response p.pruneResponse x := by
  refine hp.visits (fun _ _ => Node.response.inj) rfl rfl rfl fun s => ?_
  refine (passes_table "headers" (fun row _ => visits_pruneHeader hp row.2) s).bind
    fun headers _ hheaders => (passes_pruneContent hp x.content _).bind fun content _ hcontent =>
      (passes_table "links" (fun row _ => visits_pruneLink hp row.2) _).bind
        fun links _ hlinks => ?_
  refine post_pure ⟨_, rfl, ?_, (hheaders.append hcontent.1).append hlinks⟩
  simp only [Node.Settles, Node.shell, Node.designating, hcontent.2]

theorem passes_pruneResponses (r : Responses) (s : σ) : Post (p.pruneResponses r) s fun left s' =>
    p.PassesRows s (Row.ofResponses r) (Row.ofResponses left) s' ∧
      left.designated = r.designated.filter left.entries.contains := by
  refine (passes_table "responses" (fun row _ => visits_pruneResponse hp row.2) s).bind
    fun entries s' hentries => ?_
  refine post_pure ?_
  have hprune : ({ r with entries } : Responses).prune =
      { entries, designated := r.designated.filter entries.contains } := by
    rw [Responses.prune]
    cases r.designated with
    | none => rfl
    | some status =>
      rw [Option.filter_some]
      cases hstatus : entries.contains status <;> simp [hstatus]
  rw [hprune]
  exact ⟨hentries, rfl⟩

end Asking

/-! ### Operations, path items and callbacks -/

def pruneOwnResponses {m : Type → Type} [Monad m] (p : Policy m) :
    Option Responses → m (Option Responses)
  | none => pure none
  | some r => do
    let r ← p.pruneResponses r
    pure (some r)

theorem operationWithin_succ {m : Type → Type} [Monad m] [LawfulMonad m] (p : Policy m) (n : Nat)
    (o : Operation) : p.operationWithin (n + 1) o = (do
      match ← p.operation o with
      | none => pure none
      | some o => do
        let parameters ← items p.pruneParameter o.parameters
        let requestBody ← slot p.pruneBody o.requestBody
        let responses ← p.pruneOwnResponses o.responses
        let callbacks ← table (p.callbackWith (p.operationWithin n)) o.callbacks
        let servers ← items p.server o.servers
        let security ← p.pruneRequirements o.security
        pure (some { o with
          parameters, requestBody, responses, callbacks, servers, security })) := by
  rw [operationWithin]
  refine bind_congr fun answer => ?_
  cases answer with
  | none => rfl
  | some o => cases hr : o.responses <;> simp [pruneOwnResponses, hr]

section Operations

variable {p : Policy (StateM σ)} (hp : p.EditsNothing)

include hp

theorem passes_pruneOwnResponses (x : Option Responses) (s : σ) :
    Post (p.pruneOwnResponses x) s fun left s' =>
      p.PassesRows s (x.toList.flatMap Row.ofResponses) (left.toList.flatMap Row.ofResponses) s' ∧
      (left.map fun r => ({ r with entries := {} } : Responses)) =
        x.map fun r => ({ designated := (r.designated.filter fun status =>
          left.any fun own => own.entries.contains status) } : Responses) := by
  cases x with
  | none => exact ⟨.nil s, rfl⟩
  | some r =>
    refine (passes_pruneResponses hp r s).bind fun left s' hleft => post_pure ?_
    simp only [Option.toList_some, List.flatMap_singleton, Option.map_some, Option.any_some]
    exact ⟨hleft.1, congrArg (fun designated => some ({ designated } : Responses)) hleft.2⟩

theorem passes_pruneRequirements (x : Option (List SecurityRequirement)) (s : σ) :
    Post (p.pruneRequirements x) s fun left s' =>
      p.PassesRows s (x.toList.flatMap (Row.ofList "security" .requirement))
        (left.toList.flatMap (Row.ofList "security" .requirement)) s' ∧
      (left.map fun _ => ([] : List SecurityRequirement)) = x.map fun _ => [] := by
  cases x with
  | none => exact ⟨.nil s, rfl⟩
  | some sets =>
    refine (passes_items "security" (fun r _ => visits_requirement hp r) s).bind
      fun left s' hleft => post_pure ?_
    simp only [Option.toList_some, List.flatMap_singleton, Option.map_some]
    exact ⟨hleft, trivial⟩

variable {f : Operation → StateM σ (Option Operation)}

theorem passes_insidePathItem {path : String} {i : PathItem}
    (h : ∀ m o, i.slots.at? m = some o → p.Visits .operation f o) (s : σ) :
    Post (p.insidePathItem f i) s fun left s' =>
      (Node.pathItem path i).Settles (.pathItem path left) ∧
      p.PassesRows s (Node.pathItem path i).rows (Node.pathItem path left).rows s' := by
  refine (passes_slots h s).bind fun slots _ hslots =>
    (passes_items "parameters" (fun q _ => visits_pruneParameter hp q) _).bind
      fun parameters _ hparameters =>
        (passes_items "servers" (fun x _ => visits_server hp x) _).bind fun servers _ hservers => ?_
  exact post_pure ⟨rfl, (hslots.append hparameters).append hservers⟩

theorem visits_callbackWith {c : Callback}
    (h : ∀ o, o.height ≤ c.height → p.Visits .operation f o) :
    p.Visits .callback (p.callbackWith f) c := by
  refine hp.visits (fun _ _ => Node.callback.inj) rfl rfl rfl fun s => ?_
  refine Post.bind (passes_rows (fun key => [key]) (w := Node.pathItem) (fun row hrow => ?_) s)
    fun expressions _ hexpressions => post_pure ⟨_, rfl, rfl, hexpressions⟩
  -- an item below an expression
  refine hp.visits (fun _ _ h => (Node.pathItem.inj h).2) rfl rfl rfl fun s => ?_
  have hslots : ∀ m o, row.2.slots.at? m = some o → p.Visits .operation f o := fun m o ho =>
    h o ((Operation.height_le_item ho).trans (Operation.item_height_le hrow))
  exact (passes_insidePathItem hp hslots s).bind fun i _ hi => post_pure ⟨i, rfl, hi⟩

theorem visits_operationWithin {n : Nat} {o : Operation} (hn : o.height ≤ n) :
    p.Visits .operation (p.operationWithin n) o := by
  induction n generalizing o with
  | zero =>
    have hpos := o.height_pos
    omega
  | succ n ih =>
    have hcallbacks : o.callbacks.All
        (p.Visits .callback (p.callbackWith (p.operationWithin n))) := by
      intro row hrow
      have hlt := Operation.callback_height_lt hrow
      exact visits_callbackWith hp fun q hq => ih (by omega)
    refine hp.visits (fun _ _ => Node.operation.inj) rfl (p.operationWithin_succ n o) rfl
      fun s => ?_
    refine (passes_items "parameters" (fun q _ => visits_pruneParameter hp q) s).bind
        fun parameters _ hparameters =>
      (passes_slot "requestBody" (fun b _ => visits_pruneBody hp b) _).bind fun body _ hbody =>
      (passes_pruneOwnResponses hp o.responses _).bind fun responses _ hresponses =>
      (passes_table "callbacks" hcallbacks _).bind fun callbacks _ hcallbacks =>
      (passes_items "servers" (fun x _ => visits_server hp x) _).bind fun servers _ hservers =>
      (passes_pruneRequirements hp o.security _).bind fun security _ hsecurity => ?_
    refine post_pure ⟨_, rfl, ?_, ((((hparameters.append hbody).append hresponses.1).append
      hcallbacks).append hservers).append hsecurity.1⟩
    simp only [Node.Settles, Node.shell, Node.designating, hresponses.2, hsecurity.2,
      Option.map_map]
    rfl

theorem visits_pruneCallback (c : Callback) : p.Visits .callback p.pruneCallback c := by
  intro s
  have hbelow : ∀ o : Operation, o.height ≤ c.height →
      p.Visits .operation (p.operationWithin (c.height + p.reach)) o := fun o ho =>
    visits_operationWithin hp (ho.trans (Nat.le_add_right _ _))
  exact visits_callbackWith hp hbelow s

theorem visits_prunePathItem (path : String) (i : PathItem) :
    p.Visits (.pathItem path) (p.prunePathItem path) i := by
  refine hp.visits (fun _ _ h => (Node.pathItem.inj h).2) rfl rfl rfl fun s => ?_
  have hslots : ∀ m o, i.slots.at? m = some o →
      p.Visits .operation (p.operationWithin (i.height + p.reach)) o := fun m o ho =>
    visits_operationWithin hp ((Operation.height_le_item ho).trans (Nat.le_add_right _ _))
  exact (passes_insidePathItem hp hslots s).bind fun j _ hj => post_pure ⟨j, rfl, hj⟩

/-! ### The whole document -/

theorem passes_pruneComponents (c : Components) (s : σ) : Post (p.pruneComponents c) s
    fun left s' => p.PassesRows s (Row.ofComponents c) (Row.ofComponents left) s' := by
  refine (passes_table "schemas" (fun row _ => visits_pruneSchema hp row.2) s).bind fun _ _ h₁ =>
    (passes_table "responses" (fun row _ => visits_pruneResponse hp row.2) _).bind fun _ _ h₂ =>
    (passes_table "parameters" (fun row _ => visits_pruneParameter hp row.2) _).bind fun _ _ h₃ =>
    (passes_table "examples" (fun row _ => visits_sample hp row.2) _).bind fun _ _ h₄ =>
    (passes_table "requestBodies" (fun row _ => visits_pruneBody hp row.2) _).bind fun _ _ h₅ =>
    (passes_table "headers" (fun row _ => visits_pruneHeader hp row.2) _).bind fun _ _ h₆ =>
    (passes_table "securitySchemes" (fun row _ => visits_securityScheme hp row.2) _).bind
      fun _ _ h₇ =>
    (passes_table "links" (fun row _ => visits_pruneLink hp row.2) _).bind fun _ _ h₈ =>
    (passes_table "callbacks" (fun row _ => visits_pruneCallback hp row.2) _).bind fun _ _ h₉ => ?_
  exact post_pure ((((((((h₁.append h₂).append h₃).append h₄).append h₅).append h₆).append
    h₇).append h₈).append h₉)

end Operations

def pruneOwnComponents {m : Type → Type} [Monad m] (p : Policy m) :
    Option Components → m (Option Components)
  | none => pure none
  | some c => do
    let c ← p.pruneComponents c
    pure (some c)

theorem prune_eq {m : Type → Type} [Monad m] [LawfulMonad m] (p : Policy m) (d : OpenApi) :
    p.prune d = (do
      let components ← p.pruneOwnComponents d.components
      let paths ← rows p.prunePathItem d.paths
      let servers ← items p.server d.servers
      let tags ← items p.tag d.tags
      let security ← items p.requirement d.security
      p.document { d with components, paths, servers, tags, security }) := by
  rw [prune]
  cases d.components <;> simp [pruneOwnComponents]

section Document

variable {p : Policy (StateM σ)} (hp : p.EditsNothing)

include hp

theorem passes_pruneOwnComponents (x : Option Components) (s : σ) :
    Post (p.pruneOwnComponents x) s fun left s' =>
      p.PassesRows s (x.toList.flatMap fun c => Row.under ["components"] (Row.ofComponents c))
        (left.toList.flatMap fun c => Row.under ["components"] (Row.ofComponents c)) s' := by
  cases x with
  | none => exact .nil s
  | some c =>
    refine (passes_pruneComponents hp c s).bind fun left s' hleft => post_pure ?_
    simp only [Option.toList_some, List.flatMap_singleton]
    exact hleft.under ["components"]

/-- The walk goes through the document from top to bottom, and what is left is shown to the
policy as a whole. -/
theorem passes_prune (d : OpenApi) (s : σ) : ∃ left s',
    p.PassesRows s d.rows left.rows s' ∧ (p.prune d).run s = (p.document left).run s' := by
  have hpost : Post (p.prune d) s fun answer t => ∃ left s',
      p.PassesRows s d.rows left.rows s' ∧ (answer, t) = (p.document left).run s' := by
    rw [prune_eq]
    refine (passes_pruneOwnComponents hp d.components s).bind fun components _ hcomponents =>
      (passes_rows (fun path => ["paths", path]) (fun row _ => visits_prunePathItem hp row.1 row.2)
        _).bind fun paths _ hpaths =>
      (passes_items "servers" (fun x _ => visits_server hp x) _).bind fun servers _ hservers =>
      (passes_items "tags" (fun t _ => visits_tag hp t) _).bind fun tags _ htags =>
      (passes_items "security" (fun r _ => visits_requirement hp r) _).bind
        fun security s' hsecurity => ?_
    exact ⟨{ d with components, paths, servers, tags, security }, s',
      (((hcomponents.append hpaths).append hservers).append htags).append hsecurity, rfl⟩
  exact hpost

/-- What is left of the document is what is left of its rows. -/
theorem EditsNothing.passes (d : OpenApi) (s : σ) :
    ∃ s', p.PassesRows s d.rows ((p.prune d).run s).1.rows s' := by
  obtain ⟨left, s', hpasses, hrun⟩ := passes_prune hp d s
  rw [hrun, hp.document]
  exact ⟨s', hpasses⟩

end Document

end Policy

/-! ### What survives -/

namespace Policy

variable {σ : Type} {p : Policy (StateM σ)}

/-- A row that is left stands at the place of one that was walked through. -/
theorem PassesRows.of_mem {s s' : σ} {rows rows' : List Row} (h : p.PassesRows s rows rows' s')
    {row' : Row} (hrow : row' ∈ rows') : ∃ row ∈ rows, row.1 = row'.1 ∧
      ∃ t t', p.Passes t row.2 (some row'.2) t' := by
  induction rows generalizing s rows' with
  | nil =>
    cases h
    cases hrow
  | cons row rows ih =>
    cases h with
    | @cons _ _ _ place n left _ rest hn hrows =>
      rcases List.mem_append.mp hrow with hleft | hrest
      · obtain ⟨b, hb, rfl⟩ := List.mem_map.mp hleft
        rw [Option.mem_toList] at hb
        cases hb
        exact ⟨(place, n), List.mem_cons_self, rfl, _, _, hn⟩
      · obtain ⟨other, hother, hfound⟩ := ih hrows hrest
        exact ⟨other, List.mem_cons_of_mem _ hother, hfound⟩

theorem Passes.settles {s s' : σ} {n n' : Node} (h : p.Passes s n (some n') s') : n.Settles n' := by
  cases h with
  | kept _ hsettles _ => exact hsettles

/-- What stands in what is left of a node was left of something that stood in the node. -/
theorem Passes.of_holds {s s' : σ} {n n' m' : Node} (h : p.Passes s n (some n') s')
    (hm : n'.Holds m') : ∃ m, n.Holds m ∧ ∃ t t', p.Passes t m (some m') t' := by
  induction hm generalizing s n s' with
  | self n' => exact ⟨n, .self n, s, s', h⟩
  | child hr _ ih =>
    cases h with
    | kept _ _ hrows =>
      obtain ⟨row, hrow, -, t, t', hpasses⟩ := hrows.of_mem hr
      obtain ⟨m, hholds, hfound⟩ := ih hpasses
      exact ⟨m, .child hrow hholds, hfound⟩

theorem PassesRows.of_holds {s s' : σ} {d d' : OpenApi} (h : p.PassesRows s d.rows d'.rows s')
    {m' : Node} (hm : d'.Holds m') : ∃ m, d.Holds m ∧ ∃ t t', p.Passes t m (some m') t' := by
  obtain ⟨row', hrow', hm⟩ := hm
  obtain ⟨row, hrow, -, t, t', hpasses⟩ := h.of_mem hrow'
  obtain ⟨m, hholds, hfound⟩ := hpasses.of_holds hm
  exact ⟨m, ⟨row, hrow, hholds⟩, hfound⟩

end Policy

/-- An operation designates what it did, unless there is no response left for it. -/
theorem Node.Settles.operation {n : Node} {o' : Operation} (h : n.Settles (.operation o')) :
    ∃ o, n = .operation o ∧ ∀ r', o'.responses = some r' → ∃ r, o.responses = some r ∧
      r'.designated = r.designated.filter r'.entries.contains := by
  cases n with
  | operation o =>
    refine ⟨o, rfl, fun r' hr' => ?_⟩
    have hresponses := congrArg Operation.responses (Node.operation.inj h)
    simp only [hr', Option.map_some, Option.map_map] at hresponses
    obtain ⟨r, hr, hsame⟩ := Option.map_eq_some_iff.mp hresponses.symm
    refine ⟨r, hr, ?_⟩
    have hdesignated := congrArg Responses.designated hsame
    have hanswers : (Node.operation o').answers = r'.entries.contains := by
      funext status
      rw [answers, hr', Option.any_some]
    rw [hanswers] at hdesignated
    exact hdesignated.symm
  | _ => cases h

end ApiDoc
