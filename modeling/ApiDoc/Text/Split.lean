/-!
# Cutting and joining

`cut sep` divides a list at every separator, so it always gives one piece more
than there are separators; `join` undoes it.
-/

set_option autoImplicit false

namespace ApiDoc.Text

def cutFirst (sep : Char) : List Char → List Char × List (List Char)
  | [] => ([], [])
  | c :: cs =>
    let (piece, pieces) := cutFirst sep cs
    if c = sep then ([], piece :: pieces) else (c :: piece, pieces)

def cut (sep : Char) (cs : List Char) : List (List Char) :=
  let (piece, pieces) := cutFirst sep cs
  piece :: pieces

def join (sep : List Char) : List (List Char) → List Char
  | [] => []
  | [piece] => piece
  | piece :: pieces => piece ++ sep ++ join sep pieces

theorem cut_ne_nil (sep : Char) (cs : List Char) : cut sep cs ≠ [] := List.cons_ne_nil _ _

theorem cut_cons (sep c : Char) (cs : List Char) : cut sep (c :: cs) =
    if c = sep then [] :: cut sep cs else (cut sep cs).modifyHead (c :: ·) := by
  by_cases hc : c = sep <;> simp [cut, cutFirst, hc]

theorem cut_eq_splitOn (sep : Char) (cs : List Char) : cut sep cs = cs.splitOn sep := by
  induction cs with
  | nil => rfl
  | cons c cs ih => simp only [cut_cons, List.splitOn_cons_eq_if_modifyHead, ih, beq_iff_eq]

theorem join_eq_intercalate (sep : List Char) (pieces : List (List Char)) :
    join sep pieces = sep.intercalate pieces := by
  induction pieces with
  | nil => rfl
  | cons piece pieces ih =>
    cases pieces with
    | nil => rw [List.intercalate_singleton, join]
    | cons next pieces =>
      rw [List.intercalate_cons_cons, ← ih, join]
      exact List.cons_ne_nil _ _

theorem cut_intercalate {sep : Char} {pieces : List (List Char)} (hne : pieces ≠ [])
    (hfree : ∀ piece ∈ pieces, sep ∉ piece) : cut sep ([sep].intercalate pieces) = pieces := by
  rw [cut_eq_splitOn]
  exact List.splitOn_intercalate sep hfree hne

theorem mem_of_mem_cut {sep c : Char} {piece cs : List Char} (h : piece ∈ cut sep cs)
    (hc : c ∈ piece) : c ∈ cs ∧ c ≠ sep := by
  induction cs generalizing piece with
  | nil =>
    rw [List.mem_singleton.mp h] at hc
    cases hc
  | cons d cs ih =>
    have hlater : ∀ p ∈ cut sep cs, c ∈ p → c ∈ d :: cs ∧ c ≠ sep := fun p hp hcp =>
      ⟨List.mem_cons_of_mem _ (ih hp hcp).1, (ih hp hcp).2⟩
    rw [cut_cons] at h
    split at h
    · rcases List.mem_cons.mp h with rfl | h
      · cases hc
      · exact hlater piece h hc
    · rename_i hd
      obtain ⟨first, pieces, hcut⟩ := List.exists_cons_of_ne_nil (cut_ne_nil sep cs)
      rw [hcut] at h hlater
      rcases List.mem_cons.mp h with rfl | h
      · rcases List.mem_cons.mp hc with rfl | hc
        · exact ⟨List.mem_cons_self, hd⟩
        · exact hlater first List.mem_cons_self hc
      · exact hlater piece (List.mem_cons_of_mem _ h) hc

theorem not_mem_of_mem_cut {sep : Char} {piece cs : List Char} (h : piece ∈ cut sep cs) :
    sep ∉ piece := fun hsep => (mem_of_mem_cut h hsep).2 rfl

end ApiDoc.Text
