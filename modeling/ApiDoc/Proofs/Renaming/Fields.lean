import ApiDoc.Proofs.Renaming.Format

/-!
# Names of fields

A field's name is its words with the underscores between them. Where no word is empty, each
rule gives the name back with its words in the rule's form.
-/

set_option autoImplicit false

namespace ApiDoc.RenameRule

open Text (cut IsPlain)

variable {name : List Char} {words : List (List Char)}

/-! ### Words between underscores -/

def filled (name : List Char) : List (List Char) := (cut '_' name).filter fun w => !w.isEmpty

theorem plain_of_mem_cut (hn : ∀ c ∈ name, IsPlain c) {word : List Char}
    (hw : word ∈ cut '_' name) : ∀ c ∈ word, IsPlain c := fun c hc =>
  hn c (Text.mem_of_mem_cut hw hc).1

theorem fieldWords_plain (hn : ∀ c ∈ name, IsPlain c) :
    fieldWords name = (filled name).map (List.map Char.toLower) := by
  refine List.map_congr_left fun word hw => Text.toLower_plain ?_
  exact plain_of_mem_cut hn (List.mem_of_mem_filter hw)

theorem flatten_cut (name : List Char) : (cut '_' name).flatten = name.filter (· ≠ '_') := by
  induction name with
  | nil => rfl
  | cons c cs ih =>
    rw [Text.cut_cons]
    split
    · rename_i hc
      rw [List.flatten_cons, ih, List.filter_cons_of_neg (by simpa using hc)]
      rfl
    · rename_i hc
      rw [List.filter_cons_of_pos (by simpa using hc), ← ih]
      obtain ⟨word, words, hcut⟩ := List.exists_cons_of_ne_nil (Text.cut_ne_nil '_' cs)
      rw [hcut]
      rfl

theorem flatten_filled (name : List Char) : (filled name).flatten = name.filter (· ≠ '_') := by
  rw [filled, List.flatten_filter_not_isEmpty, flatten_cut]

/-- Words without a mark between them are the name if and only if it has no underscore. -/
theorem flatten_filled_eq_iff {f g : Char → Char} :
    ((filled name).map (List.map f)).flatten = name.map g ↔
      '_' ∉ name ∧ ∀ c ∈ name, f c = g c := by
  rw [← List.map_flatten, flatten_filled]
  constructor
  · intro heq
    have hlength : (name.filter (· ≠ '_')).length = name.length := by
      simpa using congrArg List.length heq
    have hall := List.length_filter_eq_length_iff.mp hlength
    rw [List.filter_eq_self.mpr hall] at heq
    exact ⟨fun hu => by simpa using hall '_' hu, List.map_inj_left.mp heq⟩
  · rintro ⟨hu, heq⟩
    have hall : ∀ c ∈ name, decide (c ≠ '_') = true := fun c hc => by
      simpa using fun h : c = '_' => hu (h ▸ hc)
    rw [List.filter_eq_self.mpr hall]
    exact List.map_congr_left heq

/-- The name itself is its words, empty ones as well, with marks between them. -/
theorem intercalate_cut (mark : Char) (g : Char → Char) (name : List Char) :
    [mark].intercalate ((cut '_' name).map (List.map g)) =
      name.map fun c => if c = '_' then mark else g c := by
  induction name with
  | nil => rfl
  | cons c cs ih =>
    obtain ⟨word, words, hcut⟩ := List.exists_cons_of_ne_nil (Text.cut_ne_nil '_' cs)
    rw [Text.cut_cons, List.map_cons, ← ih, hcut]
    split
    · simp [List.intercalate_cons_cons]
    · cases words <;> simp [List.intercalate_cons_cons]

/-- Words with marks between them are the name if and only if no word is empty. -/
theorem intercalate_filled_eq_iff {mark : Char} {f g : Char → Char} (hn : name ≠ [])
    (hf : ∀ c ∈ name, c ≠ '_' → f c ≠ mark) (hg : ∀ c ∈ name, c ≠ '_' → g c ≠ mark) :
    [mark].intercalate ((filled name).map (List.map f)) =
        name.map (fun c => if c = '_' then mark else g c) ↔
      ∀ word ∈ cut '_' name, word ≠ [] ∧ word.map f = word.map g := by
  have hfree : ∀ h : Char → Char, (∀ c ∈ name, c ≠ '_' → h c ≠ mark) →
      ∀ word ∈ cut '_' name, mark ∉ word.map h := by
    intro h hh word hword hmark
    obtain ⟨c, hc, hcm⟩ := List.mem_map.mp hmark
    obtain ⟨hcn, hcu⟩ := Text.mem_of_mem_cut hword hc
    exact hh c hcn hcu hcm
  constructor
  · intro heq
    have hsome : filled name ≠ [] := by
      intro hnone
      rw [hnone] at heq
      exact hn (List.map_eq_nil_iff.mp heq.symm)
    rw [← intercalate_cut] at heq
    have hleft : ∀ word ∈ (filled name).map (List.map f), mark ∉ word :=
      List.forall_mem_map.mpr fun word hw => hfree f hf word (List.mem_of_mem_filter hw)
    have hright : ∀ word ∈ (cut '_' name).map (List.map g), mark ∉ word :=
      List.forall_mem_map.mpr (hfree g hg)
    -- no word has the mark in it, so that cutting at the marks gives the words back
    have hpieces := congrArg (cut mark) heq
    rw [Text.cut_intercalate (by simpa using hsome) hleft,
      Text.cut_intercalate (by simpa using Text.cut_ne_nil '_' name) hright] at hpieces
    have hlength : (filled name).length = (cut '_' name).length := by
      simpa using congrArg List.length hpieces
    have hall := List.length_filter_eq_length_iff.mp hlength
    rw [filled, List.filter_eq_self.mpr hall] at hpieces
    exact fun word hw => ⟨by simpa using hall word hw, List.map_inj_left.mp hpieces word hw⟩
  · intro hall
    have hfilled : filled name = cut '_' name :=
      List.filter_eq_self.mpr fun word hw => by simpa using (hall word hw).1
    rw [hfilled, List.map_congr_left fun word hw => (hall word hw).2, intercalate_cut]

section Marks

variable {mark : Char} (hn : name ≠ []) (hm : mark.isAlpha = false)
  (hfree : ∀ c ∈ name, c ≠ '_' → c ≠ mark)
include hn hm hfree

theorem intercalate_small_eq_iff :
    [mark].intercalate ((filled name).map (List.map Char.toLower)) = remarked mark name ↔
      ∀ word ∈ cut '_' name, word ≠ [] ∧ ∀ c ∈ word, c.isUpper = false := by
  have hsmall : ∀ c ∈ name, c ≠ '_' → c.toLower ≠ mark := fun c hc hu hmark =>
    hfree c hc hu (Text.eq_of_toLower_eq hm hmark)
  refine (intercalate_filled_eq_iff hn hsmall hfree).trans ?_
  simp only [List.map_id_fun', id_eq, Text.map_toLower_eq_self_iff]

theorem intercalate_capital_eq_iff :
    [mark].intercalate ((filled name).map (List.map Char.toUpper)) =
        remarked mark (name.map Char.toUpper) ↔ ∀ word ∈ cut '_' name, word ≠ [] := by
  have hcapital : ∀ c ∈ name, c ≠ '_' → c.toUpper ≠ mark := fun c hc hu hmark =>
    hfree c hc hu (Text.eq_of_toUpper_eq hm hmark)
  rw [remarked_map (fun _ => toUpper_eq_underscore_iff),
    intercalate_filled_eq_iff hn hcapital hcapital]
  simp only [and_true]

end Marks

/-! ### Capitals after underscores -/

theorem flatMap_eq_iff {α β : Type} {as : List α} {f g : α → List β}
    (hlength : ∀ a ∈ as, (f a).length = (g a).length) :
    as.flatMap f = as.flatMap g ↔ ∀ a ∈ as, f a = g a := by
  induction as with
  | nil => simp
  | cons a as ih =>
    have hfirst := hlength a List.mem_cons_self
    rw [List.flatMap_cons, List.flatMap_cons, List.forall_mem_cons,
      ← ih fun b hb => hlength b (List.mem_cons_of_mem _ hb)]
    exact ⟨fun heq => List.append_inj heq hfirst, fun heq => by rw [heq.1, heq.2]⟩

/-- Only the case of the first character gets lost. -/
theorem headLower_inj {cs ds : List Char} (hhead : cs.head? = ds.head?) :
    headLower cs = headLower ds ↔ cs = ds := by
  cases cs <;> cases ds <;> simp_all [headLower]

theorem headUpper_small_eq_iff {word : List Char} :
    headUpper (word.map Char.toLower) = headUpper word ↔ ∀ c ∈ word.tail, c.isUpper = false := by
  cases word with
  | nil => simp [headUpper]
  | cons c cs =>
    simp only [List.map_cons, headUpper_cons, Text.toUpper_toLower, List.tail_cons,
      List.cons.injEq, true_and]
    exact Text.map_toLower_eq_self_iff

theorem plain_of_mem_filled (hn : ∀ c ∈ name, IsPlain c) :
    ∀ word ∈ filled name, ∀ c ∈ word, IsPlain c := fun _ hw =>
  plain_of_mem_cut hn (List.mem_of_mem_filter hw)

/-- The flag is about the first word; every later one stands behind an underscore. -/
theorem pascal_eq (due : Bool) (name : List Char) :
    pascal due name = (if due then headUpper (Text.cutFirst '_' name).1
      else (Text.cutFirst '_' name).1) ++ (Text.cutFirst '_' name).2.flatMap headUpper := by
  induction name generalizing due with
  | nil => cases due <;> rfl
  | cons c cs ih =>
    rw [pascal, Text.cutFirst]
    by_cases hc : c = '_'
    · rw [if_pos hc, ih]
      cases due <;> simp [hc]
    · rw [if_neg hc, ih]
      cases due <;> simp [hc]

theorem pascal_eq_flatMap (name : List Char) :
    pascal true name = (cut '_' name).flatMap headUpper :=
  pascal_eq true name

theorem titled_filled (name : List Char) :
    titled (filled name) =
      (cut '_' name).flatMap fun word => headUpper (word.map Char.toLower) := by
  rw [filled, titled]
  induction cut '_' name with
  | nil => rfl
  | cons word words ih => cases word <;> simp [ih]

theorem titled_eq_pascal_iff :
    titled (filled name) = pascal true name ↔
      ∀ word ∈ cut '_' name, ∀ c ∈ word.tail, c.isUpper = false := by
  rw [titled_filled, pascal_eq_flatMap, flatMap_eq_iff fun word _ => by cases word <;> simp]
  exact forall₂_congr fun _ _ => headUpper_small_eq_iff

theorem head?_titled (name : List Char) :
    (titled (filled name)).head? = (pascal true name).head? := by
  rw [titled_filled, pascal_eq_flatMap, List.head?_flatMap, List.head?_flatMap]
  refine congrArg (fun f => List.findSome? f _) (funext fun word => ?_)
  cases word with
  | nil => rfl
  | cons c cs => exact congrArg some (Text.toUpper_toLower c)

theorem map_toUpper_small (hwords : ∀ word ∈ words, ∀ c ∈ word, IsPlain c) :
    (words.map (List.map Char.toLower)).map Text.toUpper = words.map (List.map Char.toUpper) := by
  rw [List.map_map]
  exact List.map_congr_left fun word hw => toUpper_small (hwords word hw)

theorem IsWord.no_hyphen (h : IsWord name) : '-' ∉ name := fun hm =>
  absurd (h.continued _ hm) (by decide)

theorem assemble_field_eq_iff (r : RenameRule) (h : IsWord name) :
    r.assemble (fieldWords name) = fieldName r name ↔ SuitsField r name := by
  rw [fieldWords_plain h.plain]
  have hplain := plain_of_mem_filled h.plain
  cases r with
  | lowercase =>
    have hflat : ((filled name).map (List.map Char.toLower)).flatten = name.map id ↔ _ :=
      flatten_filled_eq_iff
    rw [List.map_id] at hflat
    exact hflat.trans (and_congr_right' (forall₂_congr fun _ _ => Text.toLower_eq_self_iff))
  | uppercase =>
    rw [assemble, Text.toUpper_flatten, map_toUpper_small hplain, fieldName,
      flatten_filled_eq_iff]
    exact and_iff_left fun _ _ => rfl
  | pascalCase =>
    rw [assemble, flatten_capitalise hplain]
    exact titled_eq_pascal_iff
  | camelCase =>
    have hfilled : ∀ word ∈ filled name, word ≠ [] := fun word hw => by
      simpa using List.of_mem_filter hw
    rw [assemble_camel hfilled hplain, fieldName, headLower_inj (head?_titled name)]
    exact titled_eq_pascal_iff
  | snakeCase =>
    rw [assemble, Text.join_eq_intercalate, fieldName]
    nth_rewrite 2 [← remarked_underscore name]
    exact intercalate_small_eq_iff h.filled rfl fun _ _ hu => hu
  | screamingSnakeCase =>
    rw [assemble, Text.join_eq_intercalate, Text.toUpper_intercalate, map_toUpper_small hplain,
      fieldName, ← remarked_underscore (name.map Char.toUpper)]
    exact intercalate_capital_eq_iff h.filled rfl fun _ _ hu => hu
  | kebabCase =>
    rw [assemble, Text.join_eq_intercalate]
    exact intercalate_small_eq_iff h.filled rfl fun c hc _ hm => h.no_hyphen (hm ▸ hc)
  | screamingKebabCase =>
    have hmark : Text.toUpper ['-'] = ['-'] := rfl
    rw [assemble, Text.join_eq_intercalate, Text.toUpper_intercalate, map_toUpper_small hplain,
      hmark]
    exact intercalate_capital_eq_iff h.filled rfl fun c hc _ hm => h.no_hyphen (hm ▸ hc)

end ApiDoc.RenameRule
