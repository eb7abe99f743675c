import Mathlib.Data.Finset.Card
import Mathlib.Order.Nat
import ApiDoc.Naming

/-!
# Fresh names

A name that is taken gives way to its numbered forms, one after the other. These
are all different, so that there is a free one among the first of them, one more
than there are used names, and the search ends with the least of those that are free.
-/

set_option autoImplicit false

namespace ApiDoc.Naming

theorem suffixed_injective (base : String) : Function.Injective (suffixed base) := by
  intro m n h
  have hs : base.toList ++ ('_' :: Nat.toDigits 10 m) =
      base.toList ++ ('_' :: Nat.toDigits 10 n) := by
    simpa [suffixed] using congrArg String.toList h
  have hd : Nat.toDigits 10 m = Nat.toDigits 10 n := by simpa using hs
  have hv := congrArg (fun digits => Nat.ofDigitChars 10 digits 0) hd
  simpa using hv

theorem suffixed_ne (base : String) (n : Nat) : suffixed base n ≠ base := by
  intro h
  have hl := congrArg String.toList h
  simp [suffixed] at hl

def numbered (base : String) : Nat → String
  | 0 => base
  | n + 1 => suffixed base (n + 1)

theorem numbered_injective (base : String) : Function.Injective (numbered base) := by
  intro m n h
  cases m with
  | zero =>
    cases n with
    | zero => rfl
    | succ n => exact absurd h.symm (suffixed_ne base (n + 1))
  | succ m =>
    cases n with
    | zero => exact absurd h (suffixed_ne base (m + 1))
    | succ n => exact suffixed_injective base h

/-! ### The least free number -/

/-- The forms up to the number of used names are more than the used names. -/
theorem exists_free (used : List String) (base : String) :
    ∃ n ≤ used.toFinset.card, numbered base n ∉ used := by
  have hmore : used.toFinset.card <
      ((Finset.range (used.toFinset.card + 1)).image (numbered base)).card := by
    rw [Finset.card_image_of_injective _ (numbered_injective base), Finset.card_range]
    exact Nat.lt_succ_self _
  obtain ⟨name, hform, hfree⟩ := Finset.exists_mem_notMem_of_card_lt_card hmore
  obtain ⟨n, hn, rfl⟩ := Finset.mem_image.mp hform
  refine ⟨n, ?_, fun hu => hfree (List.mem_toFinset.mpr hu)⟩
  have := Finset.mem_range.mp hn
  omega

theorem exists_least (used : List String) (base : String) :
    ∃ n ≤ used.toFinset.card, IsLeast {n | numbered base n ∉ used} n := by
  obtain ⟨n, hn, hfree⟩ := exists_free used base
  have hex : ∃ n, numbered base n ∉ used := ⟨n, hfree⟩
  exact ⟨Nat.find hex, (Nat.find_min' hex hfree).trans hn, Nat.isLeast_find hex⟩

theorem used_of_lt {used : List String} {base : String} {m n : Nat}
    (h : IsLeast {n | numbered base n ∉ used} n) (hm : m < n) : numbered base m ∈ used := by
  by_contra hfree
  have := h.2 hfree
  omega

theorem fresh_unused (used : List String) (base : String) (h : base ∉ used) :
    fresh used base = base := by
  simp [fresh, h]

theorem fresh_eq_numbered {used : List String} {base : String} {n : Nat}
    (h : IsLeast {n | numbered base n ∉ used} n) : fresh used base = numbered base n := by
  cases n with
  | zero => exact fresh_unused used base h.1
  | succ n =>
    have hbase : base ∈ used := used_of_lt (m := 0) h n.succ_pos
    have hlen : n < used.length := by
      obtain ⟨k, hk, hfree⟩ := exists_free used base
      have hcard := used.toFinset_card_le
      have := h.2 hfree
      omega
    have hnew : suffixed base (n + 1) ∉ used := h.1
    have hfound : (List.range used.length).find?
        ((fun name => !used.contains name) ∘ fun n => suffixed base (n + 1)) = some n := by
      rw [List.find?_range_eq_some]
      refine ⟨by simpa using hnew, List.mem_range.mpr hlen, fun m hm => ?_⟩
      have hused : suffixed base (m + 1) ∈ used := used_of_lt h (Nat.succ_lt_succ hm)
      simpa using hused
    rw [fresh, if_pos (List.contains_iff_mem.mpr hbase), List.find?_map, hfound]
    rfl

theorem fresh_not_mem (used : List String) (base : String) : fresh used base ∉ used := by
  obtain ⟨n, -, h⟩ := exists_least used base
  rw [fresh_eq_numbered h]
  exact h.1

/-! ### The rounds of the search -/

/-- The search as a loop without any bound. After `n` rounds it is at a name: it ends there
if the name is free, and goes on with the next number if it is taken. A search that does not
end has no result. -/
inductive Search (taken : String → Bool) (base : String) : String → Nat → String → Nat → Prop where
  | ends {name : String} {n : Nat} (h : taken name = false) : Search taken base name n name n
  | next {name result : String} {n rounds : Nat} (h : taken name = true)
    (hrest : Search taken base (suffixed base (n + 1)) (n + 1) result rounds) :
    Search taken base name n result rounds

structure Finds (taken : String → Bool) (base name : String) (rounds : Nat) : Prop where
  ends : Search taken base base 0 name rounds
  only : ∀ other more, Search taken base base 0 other more → other = name ∧ more = rounds
  named : name = numbered base rounds
  least : IsLeast {n | taken (numbered base n) = false} rounds

variable {taken : String → Bool} {base : String}

theorem Search.unique {name result other : String} {n rounds more : Nat}
    (h : Search taken base name n result rounds) (h' : Search taken base name n other more) :
    other = result ∧ more = rounds := by
  induction h with
  | ends hfree =>
    cases h' with
    | ends _ => exact ⟨rfl, rfl⟩
    | next htaken _ => simp [hfree] at htaken
  | next htaken _ ih =>
    cases h' with
    | ends hfree => simp [htaken] at hfree
    | next _ hrest => exact ih hrest

/-- With every round the least free number is one round nearer. -/
theorem search_numbered {least : Nat}
    (h : IsLeast {n | taken (numbered base n) = false} least) (left : Nat) :
    ∀ n, n + left = least →
      Search taken base (numbered base n) n (numbered base least) least := by
  induction left with
  | zero =>
    rintro n rfl
    exact .ends h.1
  | succ left ih =>
    intro n hn
    have htaken : taken (numbered base n) = true := by
      by_contra hfree
      have := h.2 (Bool.eq_false_iff.mpr hfree)
      omega
    exact .next htaken (ih (n + 1) (by omega))

/-- A fresh name is what the search finds, in no more rounds than there are used names. -/
theorem finds_fresh (used : List String) (base : String) :
    ∃ rounds ≤ used.toFinset.card, Finds used.contains base (fresh used base) rounds := by
  obtain ⟨n, hn, h⟩ := exists_least used base
  have hleast : IsLeast {n | used.contains (numbered base n) = false} n := by
    simpa using h
  have hends : Search used.contains base base 0 (fresh used base) n := by
    rw [fresh_eq_numbered h]
    exact search_numbered hleast n 0 n.zero_add
  exact ⟨n, hn, hends, fun _ _ => hends.unique, fresh_eq_numbered h, hleast⟩

end ApiDoc.Naming
