import ApiDoc.Proofs.Renaming.Format

/-!
# Names of variants

A variant's name is cut before its capitals, and nothing of it gets lost but their case,
which each rule sets anew.
-/

set_option autoImplicit false

namespace ApiDoc.RenameRule

open Text (join IsPlain)

variable {name : List Char}

/-! ### Cutting before capitals

All inductions are on what is still to be cut. The word so far has a character from the
first step on, and with none a capital would be no place to cut at. -/

section Capitalised

variable {word cs : List Char}

theorem capitalised_cons (hw : word ≠ []) (c : Char) (cs : List Char) :
    capitalised word (c :: cs) =
      if Text.isUppercase c then word.reverse :: capitalised [c] cs
      else capitalised (c :: word) cs := by
  obtain ⟨d, ds, rfl⟩ := List.exists_cons_of_ne_nil hw
  simp [capitalised]

theorem capitalised_nil (hw : word ≠ []) : capitalised word [] = [word.reverse] := by
  obtain ⟨d, ds, rfl⟩ := List.exists_cons_of_ne_nil hw
  rfl

theorem flatten_capitalised (hw : word ≠ []) (cs : List Char) :
    (capitalised word cs).flatten = word.reverse ++ cs := by
  induction cs generalizing word with
  | nil => simp [capitalised_nil hw]
  | cons c cs ih =>
    rw [capitalised_cons hw]
    split
    · rw [List.flatten_cons, ih (List.cons_ne_nil c [])]
      rfl
    · rw [ih (List.cons_ne_nil c word)]
      simp

theorem capitalised_ne_nil (hw : word ≠ []) (cs : List Char) : capitalised word cs ≠ [] := by
  intro hnone
  have hflat := flatten_capitalised hw cs
  rw [hnone] at hflat
  exact hw (by simpa using (List.append_eq_nil_iff.mp hflat.symm).1)

theorem ne_nil_of_mem_capitalised (hw : word ≠ []) {cs : List Char} :
    ∀ piece ∈ capitalised word cs, piece ≠ [] := by
  induction cs generalizing word with
  | nil => simpa [capitalised_nil hw] using hw
  | cons c cs ih =>
    rw [capitalised_cons hw]
    split
    · exact List.forall_mem_cons.mpr ⟨by simpa using hw, ih (List.cons_ne_nil c [])⟩
    · exact ih (List.cons_ne_nil c word)

theorem intercalate_capitalised (mark : Char) (hw : word ≠ []) (hcs : ∀ c ∈ cs, IsPlain c) :
    [mark].intercalate ((capitalised word cs).map (List.map Char.toLower)) =
      word.reverse.map Char.toLower ++
        cs.flatMap fun c => if c.isUpper then [mark, c.toLower] else [c.toLower] := by
  induction cs generalizing word with
  | nil => simp [capitalised_nil hw]
  | cons c cs ih =>
    obtain ⟨hc, hcs⟩ := List.forall_mem_cons.mp hcs
    rw [capitalised_cons hw, hc.isUppercase_eq, List.flatMap_cons]
    split
    · have hlater := ih (List.cons_ne_nil c []) hcs
      obtain ⟨piece, pieces, hnext⟩ :=
        List.exists_cons_of_ne_nil (capitalised_ne_nil (List.cons_ne_nil c []) cs)
      rw [hnext] at hlater ⊢
      rw [List.map_cons, List.map_cons, List.intercalate_cons_cons, ← List.map_cons, hlater]
      simp
    · rw [ih (List.cons_ne_nil c word) hcs]
      simp

theorem titled_capitalised (hw : word ≠ []) (hcs : ∀ c ∈ cs, IsPlain c) :
    titled (capitalised word cs) = headUpper (word.reverse.map Char.toLower) ++ cs := by
  induction cs generalizing word with
  | nil => simp [capitalised_nil hw, titled]
  | cons c cs ih =>
    obtain ⟨hc, hcs⟩ := List.forall_mem_cons.mp hcs
    rw [capitalised_cons hw, hc.isUppercase_eq]
    split
    · rename_i hcap
      rw [titled_cons, ih (List.cons_ne_nil c []) hcs]
      simp [Text.toUpper_capital hcap]
    · rename_i hcap
      obtain ⟨d, ds, hd⟩ := List.exists_cons_of_ne_nil (List.reverse_ne_nil_iff.mpr hw)
      rw [ih (List.cons_ne_nil c word) hcs, List.reverse_cons, hd]
      simp [Text.toLower_eq_self_iff.mpr (by simpa using hcap)]

end Capitalised

theorem capitalised_nil_cons (c : Char) (cs : List Char) :
    capitalised [] (c :: cs) = capitalised [c] cs := by
  simp [capitalised]

theorem IsWord.plain_of_mem_capitalised (h : IsWord name) :
    ∀ piece ∈ capitalised [] name, ∀ c ∈ piece, IsPlain c := by
  obtain ⟨d, ds, rfl⟩ := List.exists_cons_of_ne_nil h.filled
  intro piece hp c hc
  rw [capitalised_nil_cons] at hp
  refine h.plain c ?_
  have hmem := List.mem_flatten_of_mem hp hc
  rwa [flatten_capitalised (List.cons_ne_nil d [])] at hmem

theorem IsWord.ne_nil_of_mem_capitalised (h : IsWord name) :
    ∀ piece ∈ capitalised [] name, piece ≠ [] := by
  obtain ⟨c, cs, rfl⟩ := List.exists_cons_of_ne_nil h.filled
  rw [capitalised_nil_cons]
  exact RenameRule.ne_nil_of_mem_capitalised (List.cons_ne_nil c [])

theorem variantWords_plain (h : IsWord name) :
    variantWords name = (capitalised [] name).map (List.map Char.toLower) :=
  List.map_congr_left fun piece hp => Text.toLower_plain (h.plain_of_mem_capitalised piece hp)

theorem join_variant (mark : Char) (h : IsWord name) :
    join [mark] (variantWords name) = marked mark name := by
  rw [Text.join_eq_intercalate, variantWords_plain h]
  obtain ⟨c, cs, rfl⟩ := List.exists_cons_of_ne_nil h.filled
  rw [capitalised_nil_cons, intercalate_capitalised mark (List.cons_ne_nil c [])
    (List.forall_mem_cons.mp h.plain).2]
  rfl

theorem flatten_variantWords (h : IsWord name) :
    (variantWords name).flatten = name.map Char.toLower := by
  rw [variantWords_plain h, ← List.map_flatten]
  obtain ⟨c, cs, rfl⟩ := List.exists_cons_of_ne_nil h.filled
  rw [capitalised_nil_cons, flatten_capitalised (List.cons_ne_nil c [])]
  rfl

theorem titled_variant (h : IsWord name) : titled (capitalised [] name) = headUpper name := by
  obtain ⟨c, cs, rfl⟩ := List.exists_cons_of_ne_nil h.filled
  rw [capitalised_nil_cons, titled_capitalised (List.cons_ne_nil c [])
    (List.forall_mem_cons.mp h.plain).2]
  simp

theorem headUpper_eq_self_iff : headUpper name = name ↔ ∀ c ∈ name.head?, c.isLower = false := by
  cases name with
  | nil => simp
  | cons c cs => simp [Text.toUpper_eq_self_iff]

theorem headLower_headUpper (name : List Char) : headLower (headUpper name) = headLower name := by
  cases name <;> simp

theorem mem_marked {mark d : Char} (hd : d ∈ marked mark name) :
    d = mark ∨ ∃ c ∈ name, c.toLower = d := by
  cases name with
  | nil => cases hd
  | cons c cs =>
    rcases List.mem_cons.mp hd with rfl | hd
    · exact Or.inr ⟨c, List.mem_cons_self, rfl⟩
    · obtain ⟨e, he, hd⟩ := List.mem_flatMap.mp hd
      have hsmall : d = e.toLower → ∃ c' ∈ c :: cs, c'.toLower = d := fun h =>
        ⟨e, List.mem_cons_of_mem _ he, h.symm⟩
      split at hd
      · rcases List.mem_cons.mp hd with rfl | hd
        · exact Or.inl rfl
        · exact Or.inr (hsmall (List.mem_singleton.mp hd))
      · exact Or.inr (hsmall (List.mem_singleton.mp hd))

theorem toLower_mem_marked (mark : Char) {c : Char} (hc : c ∈ name) :
    c.toLower ∈ marked mark name := by
  cases name with
  | nil => cases hc
  | cons d ds =>
    rcases List.mem_cons.mp hc with rfl | hc
    · exact List.mem_cons_self
    · refine List.mem_cons_of_mem _ (List.mem_flatMap.mpr ⟨c, hc, ?_⟩)
      split <;> simp

theorem toUpper_marked {mark : Char} (hm : IsPlain mark) (hn : ∀ c ∈ name, IsPlain c) :
    Text.toUpper (marked mark name) = (marked mark name).map Char.toUpper := by
  refine Text.toUpper_plain fun d hd => ?_
  rcases mem_marked hd with rfl | ⟨c, hc, rfl⟩
  · exact hm
  · exact (hn c hc).toLower

theorem remarked_marked (hu : '_' ∉ name) : remarked '-' (marked '_' name) = marked '-' name := by
  have hsmall : ∀ c ∈ name, (if c.toLower = '_' then '-' else c.toLower) = c.toLower :=
    fun c hc => if_neg fun h => by
      rw [Text.eq_of_toLower_eq (by decide) h] at hc
      exact hu hc
  cases name with
  | nil => rfl
  | cons c cs =>
    obtain ⟨hc, hcs⟩ := List.forall_mem_cons.mp hsmall
    rw [remarked, marked, List.map_cons, hc, List.map_flatMap, marked]
    refine congrArg _ (List.flatMap_congr fun d hd => ?_)
    split <;> simp [hcs d hd]

theorem underscore_not_mem_remarked (cs : List Char) : '_' ∉ remarked '-' cs := by
  intro hu
  obtain ⟨c, -, hc⟩ := List.mem_map.mp hu
  split at hc
  · cases hc
  · exact absurd hc ‹_›

theorem remarked_toUpper (cs : List Char) :
    remarked '-' (cs.map Char.toUpper) = (remarked '-' cs).map Char.toUpper := by
  rw [remarked_map fun _ => toUpper_eq_underscore_iff, remarked, List.map_map]
  refine List.map_congr_left fun c _ => ?_
  simp only [Function.comp_apply, apply_ite Char.toUpper]
  rfl

theorem assemble_variant_eq_iff (r : RenameRule) (h : IsWord name) :
    r.assemble (variantWords name) = variantName r name ↔ SuitsVariant r name := by
  have hplain := h.plain_of_mem_capitalised
  cases r with
  | lowercase => exact iff_of_true (flatten_variantWords h) trivial
  | uppercase =>
    refine iff_of_true ?_ trivial
    rw [assemble, flatten_variantWords h, toUpper_small h.plain, variantName]
  | pascalCase =>
    rw [variantWords_plain h, assemble, flatten_capitalise hplain, titled_variant h]
    exact headUpper_eq_self_iff
  | camelCase =>
    refine iff_of_true ?_ trivial
    rw [variantWords_plain h, assemble_camel h.ne_nil_of_mem_capitalised hplain,
      titled_variant h, headLower_headUpper, variantName]
  | snakeCase => exact iff_of_true (join_variant '_' h) trivial
  | screamingSnakeCase =>
    refine iff_of_true ?_ trivial
    rw [assemble, join_variant '_' h, toUpper_marked (Or.inl rfl) h.plain, variantName]
  | kebabCase =>
    rw [assemble, join_variant '-' h]
    -- an underscore of the name itself stays within its word, where the rule leaves none
    refine ⟨fun heq hu => ?_, fun hu => (remarked_marked hu).symm⟩
    have hmem := toLower_mem_marked '-' hu
    rw [heq] at hmem
    exact underscore_not_mem_remarked _ hmem
  | screamingKebabCase =>
    rw [assemble, join_variant '-' h, toUpper_marked (Or.inl rfl) h.plain, variantName,
      remarked_toUpper]
    refine ⟨fun heq hu => ?_, fun hu => by rw [remarked_marked hu]⟩
    have hmem := List.mem_map_of_mem (f := Char.toUpper) (toLower_mem_marked '-' hu)
    rw [heq, ← remarked_toUpper] at hmem
    exact underscore_not_mem_remarked _ hmem

end ApiDoc.RenameRule
