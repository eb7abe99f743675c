import ApiDoc.Proofs.Inference.Outcome
import ApiDoc.Proofs.TypeText

/-!
# Types and their components

Whatever was asked before, and whether or not it could be answered, a type has
at most one component and shares it with no other type.
-/

set_option autoImplicit false

namespace ApiDoc.Inference

inductive Request where
  | schemaOf (type : TypeExpr)
  | member (type : TypeExpr) (note : Option SchemaNote)
  | explicit (note : SchemaNote)
  | merge (s : Schema) (note : SchemaNote)

def Request.answer (infer : TypeExpr → Gen Schema) : Request → Gen Schema
  | .schemaOf t => infer t
  | .member t n => Inference.member infer t n
  | .explicit n => Inference.explicit infer n
  | .merge s n => Inference.merge infer s n

def afterRequest (catalog : Catalog) (depth : Nat) (a : Arena) (r : Request) : Arena :=
  ((r.answer (schemaOf catalog depth)).outcome a).2

def afterRequests (catalog : Catalog) (depth : Nat) (rs : List Request) : Arena :=
  rs.foldl (afterRequest catalog depth) {}

def Request.given : Request → Option Schema
  | .merge s _ => some s
  | _ => none

theorem Logic.answer {T : Terms} (L : Logic T) {infer infer' : TypeExpr → Gen Schema}
    (hi : ∀ t, True → L.rel (T.Describes t) (infer t) (infer' t)) (hn : ∀ n, T.AdmitsNote n)
    {r : Request} (hr : ∀ s, r.given = some s → T.schema s) :
    L.rel T.schema (r.answer infer) (r.answer infer') := by
  cases r with
  | schemaOf t => exact L.mono (hi t trivial) fun s hs => hs.1
  | member t n => exact L.member hi t (fun m _ => hn m) fun _ _ => trivial
  | explicit n => exact L.explicit hi (hn n) fun _ _ => trivial
  | merge s n =>
    exact L.mono (L.merge hi s (hn n) fun _ _ => trivial) fun r h => h (hr s rfl)

theorem Link.answer (L : Link) {infer infer' : TypeExpr → Gen Schema}
    (hi : ∀ t, True → L.logic.rel (Terms.any.Describes t) (infer t) (infer' t)) (r : Request) :
    L.rel (r.answer infer) (r.answer infer') :=
  L.logic.answer hi (fun _ _ _ => trivial) fun _ _ => trivial

theorem request_steps (catalog : Catalog) (depth : Nat) (r : Request) {a : Arena} (h : a.Sound) :
    Steps a (afterRequest catalog depth a r) :=
  stepping.answer (level_steps catalog depth).schemaOf r a h

theorem requests_sound (catalog : Catalog) (depth : Nat) (rs : List Request) :
    (afterRequests catalog depth rs).Sound := by
  have hrun : ∀ a : Arena, a.Sound → (rs.foldl (afterRequest catalog depth) a).Sound := by
    induction rs with
    | nil => exact fun a h => h
    | cons r rs ih => exact fun a h => ih _ (request_steps catalog depth r h).2
  exact hrun {} Arena.sound_empty

theorem handle_eq_iff_type_eq (catalog : Catalog) (depth : Nat) (rs : List Request)
    {t u : TypeExpr} (ht : t.wellNamed = true) (hu : u.wellNamed = true) {p q : Nat}
    (hp : (afterRequests catalog depth rs).indexOf? t.text = some p)
    (hq : (afterRequests catalog depth rs).indexOf? u.text = some q) :
    (p = q ↔ t = u) ∧ p < (afterRequests catalog depth rs).size ∧
      q < (afterRequests catalog depth rs).size ∧
      ∃ c d, (afterRequests catalog depth rs).components[p]? = some c ∧
        (afterRequests catalog depth rs).components[q]? = some d ∧ (c.name = d.name ↔ t = u) := by
  have h := requests_sound catalog depth rs
  obtain ⟨c, hfc, hc⟩ := h.find?_of_indexOf? hp
  obtain ⟨d, hfd, hd⟩ := h.find?_of_indexOf? hq
  have htype : t.text = u.text → t = u := TypeExpr.text_injective ht hu
  refine ⟨⟨fun e => ?_, fun e => ?_⟩, h.valid _ p hp, h.valid _ q hq, c, d, hc, hd, ?_, ?_⟩
  · exact htype (h.single _ _ p hp (e ▸ hq))
  · rw [e, hq] at hp
    exact (Option.some.inj hp).symm
  · exact fun e => htype (h.key_unique hfc hfd e)
  · rintro rfl
    rw [hfc] at hfd
    rw [Option.some.inj hfd]

section Witness

def itemType : TypeExpr := ⟨"Item", []⟩
def brokenType : TypeExpr := ⟨"Broken", []⟩
def pageType (t : TypeExpr) : TypeExpr := ⟨"Page", [t]⟩

def pageCatalog : Catalog := Catalog.ofList [
  { name := "Item", shape := .struct [{ name := "page", type := pageType itemType }] },
  { name := "Broken"
    shape := .struct [
      { name := "items", type := pageType itemType },
      { name := "size", type := ⟨"u8", []⟩, schema := some { minimum := some "few" } }] },
  { name := "Page", generics := ["T"]
    shape := .struct [{ name := "rows", type := ⟨"Vec", [⟨"T", []⟩]⟩ }] }]

def pageRequests : List Request :=
  [.schemaOf brokenType, .member (pageType brokenType) none, .schemaOf itemType]

theorem handle_eq_iff_type_eq_pages :
    ((1 = 3 ↔ pageType itemType = pageType brokenType) ∧
      1 < (afterRequests pageCatalog 9 pageRequests).size ∧
      3 < (afterRequests pageCatalog 9 pageRequests).size ∧
      ∃ c d, (afterRequests pageCatalog 9 pageRequests).components[1]? = some c ∧
        (afterRequests pageCatalog 9 pageRequests).components[3]? = some d ∧
        (c.name = d.name ↔ pageType itemType = pageType brokenType)) :=
  handle_eq_iff_type_eq pageCatalog 9 pageRequests (by decide) (by decide) (by decide) (by decide)

end Witness

end ApiDoc.Inference
