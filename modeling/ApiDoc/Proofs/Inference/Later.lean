import ApiDoc.Proofs.Inference.Replay
import ApiDoc.Proofs.Inference.Termination

/-!
# What later requests find

Requests follow one another, and some of them fail. None of them takes anything
back: components keep their places, names and contents, and a type that was
described once is described again in the same way without any new component.
-/

set_option autoImplicit false

namespace ApiDoc.Inference

namespace Arena

structure Continues (a b : Arena) : Prop where
  components : a.components <+: b.components
  places : ∀ key place, a.indexOf? key = some place → b.indexOf? key = some place
  owners : ∀ name key, a.owners.get? name = some key → b.owners.get? name = some key

theorem Grows.continues {a b : Arena} (h : a.Grows b) (ha : a.Sound) (hb : b.Sound) :
    a.Continues b where
  components := by
    rw [List.prefix_iff_getElem?]
    exact fun n hn => h.component n _ (List.getElem?_eq_getElem hn)
  places := h.place
  owners name key ho := by
    obtain ⟨c, hc, rfl⟩ := ha.named name key ho
    exact hb.owned key c (h.find? hc)

end Arena

inductive Later (catalog : Catalog) (a : Arena) : Arena → Prop where
  | now : Later catalog a a
  | request {b : Arena} (h : Later catalog a b) (depth : Nat) (r : Request) :
    Later catalog a (afterRequest catalog depth b r)

variable {catalog : Catalog}

theorem Later.steps {a b : Arena} (h : Later catalog a b) (ha : a.Sound) : Steps a b := by
  induction h with
  | now => exact ⟨Arena.Grows.refl a, ha⟩
  | request _ depth r ih => exact ih.trans (request_steps catalog depth r ih.2)

/-- An answer is repeated by every arena that has the components of its time. -/
theorem answer_replays {a b e : Arena} {n : Nat} {t : TypeExpr} {s : Schema} (ha : a.Sound)
    (h : (schemaOf catalog n t).outcome a = (.ok s, b)) (hbe : b.Agrees e) {m : Nat}
    (hm : n ≤ m) : (schemaOf catalog m t).outcome e = (.ok s, e) := by
  have hsame := ((level_replays catalog n).schemaOf t trivial).2 a s b ha h e hbe
  have hfirst : ((schemaOf catalog n t).outcome e).1 ≠ .error .tooDeep := by
    rw [schemaOf, hsame]
    simp
  rw [schemaOf_deeper hm hfirst]
  exact hsame

/-- Whatever was asked before, all components stay what they are under later requests,
and every answer that is given is given again, by an arena that it leaves as it is. -/
theorem answers_stable (catalog : Catalog) {a : Arena} (ha : Reachable catalog a) :
    (∀ e, Later catalog a e → a.Continues e) ∧
    ∀ n t s b, (schemaOf catalog n t).outcome a = (.ok s, b) →
      ∀ e, Later catalog b e → ∀ m ≥ n, (schemaOf catalog m t).outcome e = (.ok s, e) := by
  refine ⟨fun e he => ?_, fun n t s b h e he m hm => ?_⟩
  · have hsteps := he.steps ha.sound
    exact hsteps.1.continues ha.sound hsteps.2
  · have hb := steps_of_outcome (schemaOf_steps catalog n t) ha.sound h
    exact answer_replays ha.sound h (he.steps hb.2).1.agrees hm

section Witness

def itemsType : TypeExpr := ⟨"Vec", [itemType]⟩

def laterArena : Arena := afterRequests pageCatalog 9 [.schemaOf itemsType, .schemaOf brokenType]

theorem answers_stable_items :
    Reachable pageCatalog {} ∧
    ((schemaOf pageCatalog 9 itemsType).outcome {}).1 = .ok (.arrayOf (.refTo "Item")) ∧
    laterArena.names = ["Item", "PageItem", "Broken"] ∧
    (schemaOf pageCatalog 9 itemsType).outcome laterArena =
      (.ok (.arrayOf (.refTo "Item")), laterArena) :=
  have hlater : Later pageCatalog (afterRequests pageCatalog 9 [.schemaOf itemsType]) laterArena :=
    .request .now 9 (.schemaOf brokenType)
  ⟨.start, rfl, by decide,
    (answers_stable pageCatalog .start).2 9 itemsType _ _ rfl laterArena hlater 9 (Nat.le_refl 9)⟩

end Witness

end ApiDoc.Inference
