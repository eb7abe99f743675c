import ApiDoc.Proofs.Inference.Handles

/-!
# What is stored and answered

Many properties of schemas ask of the arena only that its components have them, and do not
care for failures. If such a property is kept in every way in which inference makes a schema
of others, then after any requests it is had by all components and by all answers.
-/

set_option autoImplicit false

namespace ApiDoc.Inference

namespace Terms

def Stores (T : Terms) (a : Arena) : Prop := ∀ c ∈ a.components, T.schema c.schema

/-- Components and answers have the property; any failure will do. -/
abbrev storing (T : Terms) : Logic T := T.keeping T.Stores

variable {T : Terms} {catalog : Catalog}
variable (hf : ∀ f, T.failure f) (href : ∀ name, T.schema (Schema.refTo name))

include href

/-- A component is blank when it is opened, and has its content when it is filled. -/
theorem component_stores {below : Level} {d : TypeDecl} {t : TypeExpr}
    (h : T.storing.rel T.schema (content below d t.args) (content below d t.args)) :
    T.storing.rel T.schema (component below d t) (component below d t) := by
  intro a ha
  have hopen : T.Stores (a.allot t.text (wantedName d t)).2 := by
    intro c hc
    rcases List.mem_append.mp hc with hc | hc
    · exact ha c hc
    · rw [List.mem_singleton.mp hc]
      exact T.blank
  have hin := h _ hopen
  cases ho : (component below d t).outcome a with
  | mk r b =>
    cases componentStep_of_outcome ho with
    | found _ => exact ⟨ha, href _⟩
    | failed _ hr =>
      rw [hr] at hin
      exact hin
    | filled _ hr =>
      rw [hr] at hin
      refine ⟨fun c hc => ?_, href _⟩
      rcases Arena.mem_components_fill hc with hc | hc
      · exact hin.1 c hc
      · rw [hc]
        exact hin.2

include hf

variable (hd : ∀ name d, catalog.get? name = some d → T.declaration d)

include hd

theorem level_stores (depth : Nat) :
    T.storing.Linked (fun _ => True) (level catalog depth) (level catalog depth) :=
  Logic.level_linked (fun _ _ _ _ => trivial)
    (fun name d h => ⟨hd name d h, fun _ _ _ _ => href _⟩) (hf .tooDeep)
    (fun _ _ _ _ _ h => component_stores href h) depth

theorem request_stores (depth : Nat) {r : Request} (hr : ∀ s, r.given = some s → T.schema s) :
    T.storing.rel T.schema (r.answer (schemaOf catalog depth))
      (r.answer (schemaOf catalog depth)) :=
  Logic.answer _ (level_stores hf href hd depth).schemaOf (fun _ _ _ => href _) hr

theorem requests_store (depth : Nat) (rs : List Request)
    (hrs : ∀ r ∈ rs, ∀ s, r.given = some s → T.schema s) :
    T.Stores (afterRequests catalog depth rs) := by
  have hrun : ∀ a, T.Stores a → T.Stores (rs.foldl (afterRequest catalog depth) a) := by
    induction rs with
    | nil => exact fun a h => h
    | cons r rs ih =>
      obtain ⟨hr, hrs⟩ := List.forall_mem_cons.mp hrs
      exact fun a h => ih hrs _ (request_stores hf href hd depth hr a h).1
  exact hrun {} (List.forall_mem_nil _)

/-- What is stored after any requests and what is answered then have the property. -/
theorem stored_and_answered (depth : Nat) (rs : List Request) (r : Request)
    (hrs : ∀ q ∈ r :: rs, ∀ s, q.given = some s → T.schema s) :
    T.Stores (afterRequests catalog depth rs) ∧
    ∀ s, ((r.answer (schemaOf catalog depth)).outcome (afterRequests catalog depth rs)).1 = .ok s →
      T.schema s := by
  obtain ⟨hr, hrs⟩ := List.forall_mem_cons.mp hrs
  have hstored := requests_store hf href hd depth rs hrs
  refine ⟨hstored, fun s hs => ?_⟩
  have hanswer := (request_stores hf href hd depth hr _ hstored).2
  rw [hs] at hanswer
  exact hanswer

end Terms

end ApiDoc.Inference
