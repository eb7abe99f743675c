import Mathlib.Data.List.DropRight
import ApiDoc.Json.Printer
import ApiDoc.Json.Reader
import ApiDoc.Proofs.Json.Values

/-!
# Reading what was written

The text of a value is read back to that value: the reader stops where the text of a
number ends, undoes every escape, and passes over the line breaks between rows.
-/

set_option autoImplicit false

namespace ApiDoc.Json

open Printer Reader

/-! ### Blanks -/

theorem skipBlank_newline (indent : Nat) (cs : List Char) :
    skipBlank (newline indent ++ cs) = skipBlank cs := by
  apply List.dropWhile_append_of_pos
  intro c hc
  rcases List.mem_cons.mp hc with rfl | hc
  · rfl
  · rw [List.eq_of_mem_replicate hc]
    rfl

theorem skipBlank_cons {c : Char} (h : Reader.isBlank c = false) (cs : List Char) :
    skipBlank (c :: cs) = c :: cs :=
  List.dropWhile_cons_of_neg (by simp [h])

theorem skipBlank_twice (cs : List Char) : skipBlank (skipBlank cs) = skipBlank cs :=
  List.dropWhile_idempotent _ _

theorem items_skip (fuel limit : Nat) (cs : List Char) :
    items fuel limit (skipBlank cs) = items fuel limit cs := by
  cases fuel with
  | zero => rw [items, items]
  | succ fuel => rw [items, items, value_skip fuel limit (skipBlank_twice cs)]

theorem rows_skip (fuel limit : Nat) (cs : List Char) :
    rows fuel limit (skipBlank cs) = rows fuel limit cs := by
  cases fuel with
  | zero => rw [rows, rows]
  | succ fuel => rw [rows, rows, skipBlank_twice]

/-! ### Numbers -/

def Ends (cs : List Char) : Prop := cs = [] ∨ ∃ r, cs = ',' :: r ∨ cs = '\n' :: r

theorem startsWithDigit_ends {cs : List Char} (h : Ends cs) : startsWithDigit cs = false := by
  rcases h with rfl | ⟨r, rfl | rfl⟩ <;> rfl

theorem fitting_ends {cs : List Char} (h : Ends cs) (start count : Nat) :
    fitting start count cs = (start, count, cs) := by
  rcases h with rfl | ⟨r, rfl | rfl⟩ <;> rfl

theorem afterWhole_ends {cs : List Char} (h : Ends cs) (negative : Bool) (n : Nat) :
    afterWhole negative n cs = some (wholeNumber negative n, cs) := by
  rcases h with rfl | ⟨r, rfl | rfl⟩ <;> rfl

theorem le_ofDigitChars (ds : List Char) (start : Nat) :
    start ≤ Nat.ofDigitChars 10 ds start := by
  induction ds generalizing start with
  | nil => exact Nat.le_refl _
  | cons d ds ih =>
    rw [Nat.ofDigitChars, List.foldl_cons]
    exact Nat.le_trans (by omega) (ih _)

/-- As long as the number fits into a word, all its digits count. -/
theorem fitting_digits {ds cs : List Char} (hds : ∀ d ∈ ds, d.isDigit = true) (hcs : Ends cs)
    (start count : Nat) (hfit : Nat.ofDigitChars 10 ds start < UInt64.size) :
    fitting start count (ds ++ cs) =
      (Nat.ofDigitChars 10 ds start, count + ds.length, cs) := by
  induction ds generalizing start count with
  | nil => exact fitting_ends hcs start count
  | cons d ds ih =>
    obtain ⟨hd, hds⟩ := List.forall_mem_cons.mp hds
    have hnext : Nat.ofDigitChars 10 (d :: ds) start =
        Nat.ofDigitChars 10 ds (start * 10 + digit d) := by
      rw [Nat.mul_comm start]
      rfl
    rw [hnext] at hfit ⊢
    have hsmall := Nat.lt_of_le_of_lt (le_ofDigitChars ds _) hfit
    rw [List.cons_append, fitting, hd, decide_eq_true hsmall, Bool.and_self, if_pos rfl,
      ih hds _ _ hfit, List.length_cons, Nat.add_assoc, Nat.add_comm 1]

theorem digit_of_mem {n : Nat} {d : Char} (h : d ∈ Nat.toDigits 10 n) : d.isDigit = true :=
  Nat.isDigit_of_mem_toDigits (by decide) (by decide) h

/-- No number but zero starts with a zero. -/
theorem head_toDigits {n : Nat} (h : 0 < n) : ∃ d ds, Nat.toDigits 10 n = d :: ds ∧ d ≠ '0' := by
  induction n using Nat.strongRecOn with
  | _ n ih =>
    rw [Nat.toDigits_eq_if (by decide)]
    split
    · rename_i hsmall
      refine ⟨_, [], rfl, ?_⟩
      have hdigits : ∀ k < 10, 0 < k → Nat.digitChar k ≠ '0' := by decide
      exact hdigits n hsmall h
    · obtain ⟨d, ds, hd, hne⟩ := ih (n / 10) (by omega) (by omega)
      exact ⟨d, ds ++ [Nat.digitChar (n % 10)], by rw [hd, List.cons_append], hne⟩

theorem magnitude_digits {n : Nat} {cs : List Char} (hcs : Ends cs) (hfit : n < UInt64.size)
    (negative : Bool) :
    magnitude negative (Nat.toDigits 10 n ++ cs) = some (wholeNumber negative n, cs) := by
  have hread : Nat.ofDigitChars 10 (Nat.toDigits 10 n) 0 = n :=
    Nat.ofDigitChars_toDigits (by decide) (by decide)
  rcases Nat.eq_zero_or_pos n with rfl | hpos
  · have hzero : Nat.toDigits 10 0 ++ cs = '0' :: cs := rfl
    rw [hzero, magnitude, startsWithDigit_ends hcs, if_neg Bool.false_ne_true,
      afterWhole_ends hcs]
  · obtain ⟨d, ds, hds, hne⟩ := head_toDigits hpos
    have hfitting := fitting_digits (fun _ => digit_of_mem (n := n)) hcs 0 0 (hread.symm ▸ hfit)
    have hd : d.isDigit = true := digit_of_mem (n := n) (hds ▸ List.mem_cons_self)
    rw [hread] at hfitting
    rw [hds, List.cons_append] at hfitting ⊢
    rw [magnitude.eq_2 _ _ (fun r hr => hne (List.cons.inj hr).1), startsWithDigit, hd,
      if_pos rfl, hfitting]
    simp only [startsWithDigit_ends hcs, Bool.false_eq_true, if_false]
    exact afterWhole_ends hcs negative n

/-- A whole number of 64 bits. -/
theorem number_wholeText {n : Int} {cs : List Char} (hcs : Ends cs)
    (hn : (Json.number (.whole n)).isWhole = true) :
    Reader.number (wholeText n ++ cs) = some (.whole n, cs) := by
  obtain ⟨hleast, hbeyond⟩ := isWhole_number.mp hn
  have hsize : UInt64.size = 18446744073709551616 := rfl
  unfold wholeText
  split
  · rename_i hneg
    rw [List.cons_append, Reader.number, magnitude_digits hcs (by omega), wholeNumber,
      Bool.not_true, if_neg Bool.false_ne_true, if_pos (by omega)]
    congr 3
    omega
  · rename_i hneg
    have hmag := magnitude_digits (n := n.natAbs) hcs (by omega) false
    have hhead : ∃ d ds, Nat.toDigits 10 n.natAbs ++ cs = d :: ds ∧ d ≠ '-' := by
      obtain ⟨d, ds, hds⟩ :=
        List.exists_cons_of_ne_nil (Nat.toDigits_ne_nil (n := n.natAbs) (b := 10))
      refine ⟨d, ds ++ cs, by rw [hds, List.cons_append], ?_⟩
      have hd := digit_of_mem (n := n.natAbs) (hds ▸ List.mem_cons_self)
      rintro rfl
      exact absurd hd (by decide)
    obtain ⟨d, ds, hds, hne⟩ := hhead
    rw [hds] at hmag ⊢
    rw [Reader.number.eq_2 _ (fun r hr => hne (List.cons.inj hr).1), hmag, wholeNumber,
      Bool.not_false, if_pos rfl]
    congr 3
    omega

/-! ### Texts -/

theorem hex4?_escape : ∀ k < 0x20,
    hex4? '0' '0' (Printer.hexDigit (k / 16)) (Printer.hexDigit (k % 16)) = some k := by
  decide

theorem quoted_escape (c : Char) (read cs : List Char) :
    quoted read (escape c ++ cs) = quoted (c :: read) cs := by
  unfold escape
  split_ifs with h₁ h₂ h₃ h₄ h₅ h₆ h₇ h₈
  · subst h₁; rfl
  · subst h₂; rfl
  · subst h₃; rfl
  · subst h₄; rfl
  · subst h₅; rfl
  · subst h₆; rfl
  · subst h₇; rfl
  · have hex := hex4?_escape c.toNat h₈
    simp only [List.cons_append, List.nil_append, quoted, hex]
    rw [if_neg (by omega), if_neg (by omega), Char.ofNat_toNat]
  · rw [List.singleton_append, quoted, if_neg h₈]
    -- none of the patterns before the last one takes the character
    · exact h₁
    · exact fun _ _ _ _ _ h _ => h₂ h
    · exact fun _ _ h _ => h₂ h

theorem quoted_quote (s cs : List Char) (read : List Char) :
    quoted read (s.flatMap escape ++ '"' :: cs) = some (read.reverse ++ s, cs) := by
  induction s generalizing read with
  | nil => simp [quoted]
  | cons c s ih =>
    rw [List.flatMap_cons, List.append_assoc, quoted_escape, ih, List.reverse_cons,
      List.append_assoc, List.singleton_append]

theorem quote_append (s : String) (cs : List Char) :
    quote s ++ cs = '"' :: (s.toList.flatMap escape ++ '"' :: cs) := by
  rw [quote, List.cons_append, List.append_assoc, List.singleton_append]

theorem quoted_text (s : String) (cs : List Char) :
    quoted [] (s.toList.flatMap escape ++ '"' :: cs) = some (s.toList, cs) :=
  quoted_quote s.toList cs []

/-! ### Values -/

def Leads (c : Char) : Prop := c = '-' ∨ c.isDigit = true

theorem Leads.ne {c : Char} (h : Leads c) {other : Char} (hsign : other ≠ '-')
    (hdigit : other.isDigit = false) : c ≠ other := by
  rintro rfl
  rcases h with h | h
  · exact hsign h
  · rw [hdigit] at h
    cases h

theorem Leads.notBlank {c : Char} (h : Leads c) : Reader.isBlank c = false := by
  simp [Reader.isBlank, h.ne]

theorem wholeText_cons (n : Int) : ∃ c cs, wholeText n = c :: cs ∧ Leads c := by
  unfold wholeText
  split
  · exact ⟨_, _, rfl, Or.inl rfl⟩
  · obtain ⟨d, ds, hds⟩ :=
      List.exists_cons_of_ne_nil (Nat.toDigits_ne_nil (n := n.natAbs) (b := 10))
    exact ⟨d, ds, hds, Or.inr (digit_of_mem (n := n.natAbs) (hds ▸ List.mem_cons_self))⟩

/-- A value's text starts with neither a blank nor a closing bracket. -/
theorem pretty_cons (indent : Nat) {j : Json} (h : j.isWhole = true) :
    ∃ c cs, Printer.pretty indent j = c :: cs ∧ Reader.isBlank c = false ∧ c ≠ ']' := by
  cases j with
  | null => exact ⟨_, _, rfl, rfl, by decide⟩
  | bool b => cases b <;> exact ⟨_, _, rfl, rfl, by decide⟩
  | text s => exact ⟨_, _, rfl, rfl, by decide⟩
  | array js => cases js <;> exact ⟨_, _, rfl, rfl, by decide⟩
  | object rows => cases rows <;> exact ⟨_, _, rfl, rfl, by decide⟩
  | number x =>
    cases x with
    | float f => cases h
    | whole n =>
      obtain ⟨c, cs, hcs, hc⟩ := wholeText_cons n
      exact ⟨c, cs, hcs, hc.notBlank, hc.ne (by decide) rfl⟩

theorem value_number {n : Int} {cs : List Char} (hcs : Ends cs)
    (hn : (Json.number (.whole n)).isWhole = true) (fuel limit : Nat) :
    value (fuel + 1) limit (wholeText n ++ cs) = some (.number (.whole n), cs) := by
  have hread := number_wholeText hcs hn
  obtain ⟨d, ds, hds, hd⟩ := wholeText_cons n
  rw [hds, List.cons_append] at hread ⊢
  rw [value, skipBlank_cons hd.notBlank]
  split
  case h_7 => rw [hread, Option.map_some]
  all_goals
    rename_i heq
    exact absurd (List.cons.inj heq).1 (hd.ne (by decide) rfl)

theorem value_text (s : String) (cs : List Char) (fuel limit : Nat) :
    value (fuel + 1) limit (quote s ++ cs) = some (.text s, cs) := by
  rw [quote_append, value, skipBlank_cons rfl]
  simp only [quoted_text, Option.map_some, String.ofList_toList]

def ReadsBack (limit : Nat) (j : Json) : Prop :=
  ∀ fuel indent cs, Ends cs → (Printer.pretty indent j).length < fuel →
    value fuel limit (Printer.pretty indent j ++ cs) = some (j, cs)

theorem ends_newline (indent : Nat) (cs : List Char) : Ends (newline indent ++ cs) :=
  Or.inr ⟨_, Or.inr rfl⟩

theorem length_newline (indent : Nat) : (newline indent).length = 2 * indent + 1 := by
  rw [newline, List.length_cons, List.length_replicate]

/-- The items of an array, each on a line of its own. -/
theorem items_lines {limit indent outer : Nat} {js : List Json} (hne : js ≠ [])
    (h : ∀ j ∈ js, ReadsBack limit j) {fuel : Nat}
    (hfuel : (lines (indent + 1) (prettyItems (indent + 1) js)).length ≤ fuel) (cs : List Char) :
    items fuel limit
      (lines (indent + 1) (prettyItems (indent + 1) js) ++ (newline outer ++ ']' :: cs)) =
      some (js, cs) := by
  induction js generalizing fuel with
  | nil => exact absurd rfl hne
  | cons j js ih =>
    obtain ⟨hj, hjs⟩ := List.forall_mem_cons.mp h
    have hread : ∀ fuel rest, Ends rest → (Printer.pretty (indent + 1) j).length < fuel →
        value fuel limit (newline (indent + 1) ++ (Printer.pretty (indent + 1) j ++ rest)) =
          some (j, rest) := fun fuel rest hrest hlength =>
      (value_skip fuel limit (skipBlank_newline _ _)).trans (hj fuel _ rest hrest hlength)
    cases js with
    | nil =>
      simp only [prettyItems, lines, List.length_append, length_newline] at hfuel ⊢
      obtain ⟨fuel, rfl⟩ : ∃ k, fuel = k + 1 := ⟨fuel - 1, by omega⟩
      rw [List.append_assoc, items, hread fuel _ (ends_newline _ _) (by omega)]
      simp only [skipBlank_newline, skipBlank_cons (c := ']') rfl]
    | cons k js =>
      simp only [prettyItems, lines, List.length_append, List.length_cons, length_newline] at hfuel
      obtain ⟨fuel, rfl⟩ : ∃ k, fuel = k + 1 := ⟨fuel - 1, by omega⟩
      have hlength : (lines (indent + 1) (prettyItems (indent + 1) (k :: js))).length ≤ fuel := by
        simp only [prettyItems]
        omega
      have hrest := ih (List.cons_ne_nil _ _) hjs hlength
      simp only [prettyItems, lines, List.append_assoc, List.cons_append] at hrest ⊢
      rw [items, hread fuel _ (Or.inr ⟨_, Or.inl rfl⟩) (by omega)]
      simp only [skipBlank_cons (c := ',') rfl, hrest, Option.map_some]

/-- The rows of an object, each on a line of its own. -/
theorem rows_lines {limit indent outer : Nat} {rows : List (String × Json)} (hne : rows ≠ [])
    (h : ∀ row ∈ rows, ReadsBack limit row.2) {fuel : Nat}
    (hfuel : (lines (indent + 1) (prettyRows (indent + 1) rows)).length ≤ fuel) (cs : List Char) :
    Reader.rows fuel limit
      (lines (indent + 1) (prettyRows (indent + 1) rows) ++ (newline outer ++ '\x7d' :: cs)) =
      some (rows, cs) := by
  induction rows generalizing fuel with
  | nil => exact absurd rfl hne
  | cons row rows ih =>
    obtain ⟨key, j⟩ := row
    obtain ⟨hj, hrows⟩ := List.forall_mem_cons.mp h
    have hread : ∀ fuel rest, Ends rest → (Printer.pretty (indent + 1) j).length < fuel →
        value fuel limit (' ' :: (Printer.pretty (indent + 1) j ++ rest)) = some (j, rest) :=
      fun fuel rest hrest hlength =>
        (value_skip fuel limit (List.dropWhile_cons_of_pos rfl)).trans
          (hj fuel _ rest hrest hlength)
    cases rows with
    | nil =>
      simp only [prettyRows, lines, List.length_append, List.length_cons, length_newline] at hfuel ⊢
      obtain ⟨fuel, rfl⟩ : ∃ k, fuel = k + 1 := ⟨fuel - 1, by omega⟩
      rw [List.append_assoc, List.append_assoc, Reader.rows, skipBlank_newline, quote_append,
        skipBlank_cons rfl]
      simp only [quoted_text, List.cons_append, skipBlank_cons (c := ':') rfl]
      rw [hread fuel _ (ends_newline _ _) (by omega)]
      simp only [skipBlank_newline, skipBlank_cons (c := '\x7d') rfl, String.ofList_toList]
    | cons other rows =>
      obtain ⟨otherKey, k⟩ := other
      simp only [prettyRows, lines, List.length_append, List.length_cons, length_newline] at hfuel
      obtain ⟨fuel, rfl⟩ : ∃ k, fuel = k + 1 := ⟨fuel - 1, by omega⟩
      have hlength : (lines (indent + 1)
          (prettyRows (indent + 1) ((otherKey, k) :: rows))).length ≤ fuel := by
        simp only [prettyRows]
        omega
      have hrest := ih (List.cons_ne_nil _ _) hrows hlength
      simp only [prettyRows, lines, List.append_assoc, List.cons_append] at hrest ⊢
      rw [Reader.rows, skipBlank_newline, quote_append, skipBlank_cons rfl]
      simp only [quoted_text, skipBlank_cons (c := ':') rfl]
      rw [hread fuel _ (Or.inr ⟨_, Or.inl rfl⟩) (by omega)]
      simp only [skipBlank_cons (c := ',') rfl, hrest, Option.map_some, String.ofList_toList]

/-- The first line has something on it. -/
theorem skipBlank_lines {c : Char} (hc : Reader.isBlank c = false) (indent : Nat) (x : List Char)
    (xs : List (List Char)) (cs : List Char) :
    ∃ r, skipBlank (lines indent ((c :: x) :: xs) ++ cs) = c :: r := by
  cases xs <;>
    simp only [lines, List.append_assoc, List.cons_append, skipBlank_newline, skipBlank_cons hc]
  all_goals exact ⟨_, rfl⟩

theorem value_array {fuel limit : Nat} {js : List Json} {c : Char} {r s cs : List Char}
    (hr : skipBlank r = c :: s) (hc : c ≠ ']') (h : items fuel limit r = some (js, cs)) :
    value (fuel + 1) (limit + 1) ('[' :: r) = some (.array js, cs) := by
  rw [value, skipBlank_cons rfl]
  simp only [hr]
  split
  · contradiction
  · rename_i heq
    exact absurd (List.cons.inj heq).1 hc
  · rename_i hlimit _
    cases hlimit
    rw [← hr, items_skip, h, Option.map_some]

theorem value_object {fuel limit : Nat} {rows : List (String × Json)} {c : Char}
    {r s cs : List Char} (hr : skipBlank r = c :: s) (hc : c ≠ '\x7d')
    (h : Reader.rows fuel limit r = some (rows, cs)) :
    value (fuel + 1) (limit + 1) ('\x7b' :: r) = some (.object rows, cs) := by
  rw [value, skipBlank_cons rfl]
  simp only [hr]
  split
  · contradiction
  · rename_i heq
    exact absurd (List.cons.inj heq).1 hc
  · rename_i hlimit _
    cases hlimit
    rw [← hr, rows_skip, h, Option.map_some]

theorem readsBack (j : Json) (h : j.isWhole = true) {limit : Nat} (hlimit : j.height ≤ limit) :
    ReadsBack limit j := by
  induction j using Json.induct generalizing limit with
  | leaf j hj =>
    intro fuel indent cs hcs hfuel
    obtain ⟨fuel, rfl⟩ : ∃ k, fuel = k + 1 := ⟨fuel - 1, by omega⟩
    cases j with
    | null => rfl
    | bool b => cases b <;> rfl
    | text s => exact value_text s cs fuel limit
    | number x =>
      cases x with
      | whole n => exact value_number hcs h fuel limit
      | float f => cases h
    | array js => cases hj
    | object rows => cases hj
  | array js ih =>
    intro fuel indent cs hcs hfuel
    obtain ⟨fuel, rfl⟩ : ∃ k, fuel = k + 1 := ⟨fuel - 1, by omega⟩
    have hpos : 0 < limit := Nat.lt_of_lt_of_le (height_array_pos js) hlimit
    obtain ⟨limit, rfl⟩ := Nat.exists_eq_add_one.mpr hpos
    have hwhole := isWhole_array.mp h
    have hitems : ∀ j ∈ js, ReadsBack limit j := fun j hj =>
      ih j hj (hwhole j hj) (height_array_le.mp hlimit j hj)
    cases js with
    | nil => rfl
    | cons k ks =>
      obtain ⟨c, x, hx, hc, hne⟩ := pretty_cons (indent + 1) (hwhole k List.mem_cons_self)
      obtain ⟨r, hr⟩ := skipBlank_lines hc (indent + 1) x (prettyItems (indent + 1) ks)
        (newline indent ++ ']' :: cs)
      rw [← hx] at hr
      simp only [Printer.pretty, List.length_cons, List.length_append, List.append_assoc,
        List.cons_append, List.nil_append] at hfuel ⊢
      exact value_array hr hne (items_lines (List.cons_ne_nil k ks) hitems (by omega) cs)
  | object rows ih =>
    intro fuel indent cs hcs hfuel
    obtain ⟨fuel, rfl⟩ : ∃ k, fuel = k + 1 := ⟨fuel - 1, by omega⟩
    have hpos : 0 < limit := Nat.lt_of_lt_of_le (height_object_pos rows) hlimit
    obtain ⟨limit, rfl⟩ := Nat.exists_eq_add_one.mpr hpos
    have hrows : ∀ row ∈ rows, ReadsBack limit row.2 := fun row hrow =>
      ih row hrow (isWhole_object.mp h row hrow) (height_object_le.mp hlimit row hrow)
    cases rows with
    | nil => rfl
    | cons row rows =>
      obtain ⟨key, k⟩ := row
      obtain ⟨r, hr⟩ := skipBlank_lines (c := '"') rfl (indent + 1)
        (key.toList.flatMap escape ++ '"' :: ':' :: ' ' :: Printer.pretty (indent + 1) k)
        (prettyRows (indent + 1) rows) (newline indent ++ '\x7d' :: cs)
      rw [← quote_append] at hr
      simp only [Printer.pretty, List.length_cons, List.length_append, List.append_assoc,
        List.cons_append, List.nil_append] at hfuel ⊢
      exact value_object hr (by decide)
        (rows_lines (List.cons_ne_nil (key, k) rows) hrows (by omega) cs)

/-- The text of a value with whole numbers is read back to the value. -/
theorem parse?_pretty {j : Json} (h : j.isWhole = true) (hlevels : j.height ≤ maxLevels) :
    parse? j.pretty = some j := by
  have hread := readsBack j h hlevels ((Printer.pretty 0 j).length + 1) 0 [] (Or.inl rfl) (by omega)
  rw [List.append_nil] at hread
  rw [parse?, read, pretty, String.toList_ofList, hread]
  rfl

/-! ### Levels of what is read -/

structure ReadsWithin (fuel : Nat) : Prop where
  value : ∀ {limit cs j r}, value fuel limit cs = some (j, r) → j.height ≤ limit
  items : ∀ {limit cs js r}, items fuel limit cs = some (js, r) → ∀ j ∈ js, j.height ≤ limit
  rows : ∀ {limit cs js r}, rows fuel limit cs = some (js, r) → ∀ row ∈ js, row.2.height ≤ limit

namespace ReadsWithin

variable {fuel limit : Nat} {cs r : List Char}

theorem value_succ (h : ReadsWithin fuel) {j : Json}
    (hread : Reader.value (fuel + 1) limit cs = some (j, r)) : j.height ≤ limit := by
  rw [Reader.value] at hread
  split at hread
  case h_5 =>
    split at hread
    · cases hread
    · cases hread
      exact height_array_le.mpr (List.forall_mem_nil _)
    · obtain ⟨⟨js, s⟩, hjs, heq⟩ := Option.map_eq_some_iff.mp hread
      cases heq
      exact height_array_le.mpr (h.items hjs)
  case h_6 =>
    split at hread
    · cases hread
    · cases hread
      exact height_object_le.mpr (List.forall_mem_nil _)
    · obtain ⟨⟨js, s⟩, hjs, heq⟩ := Option.map_eq_some_iff.mp hread
      cases heq
      exact height_object_le.mpr (h.rows hjs)
  case h_4 | h_7 =>
    obtain ⟨_, _, heq⟩ := Option.map_eq_some_iff.mp hread
    cases heq
    exact Nat.zero_le _
  all_goals
    cases hread
    exact Nat.zero_le _

theorem items_succ (h : ReadsWithin fuel) {js : List Json}
    (hread : Reader.items (fuel + 1) limit cs = some (js, r)) : ∀ j ∈ js, j.height ≤ limit := by
  rw [Reader.items] at hread
  split at hread
  · cases hread
  · rename_i k s hk
    split at hread
    · cases hread
      exact List.forall_mem_singleton.mpr (h.value hk)
    · obtain ⟨⟨ks, t⟩, hks, heq⟩ := Option.map_eq_some_iff.mp hread
      cases heq
      exact List.forall_mem_cons.mpr ⟨h.value hk, h.items hks⟩
    · cases hread

theorem rows_succ (h : ReadsWithin fuel) {js : List (String × Json)}
    (hread : Reader.rows (fuel + 1) limit cs = some (js, r)) :
    ∀ row ∈ js, row.2.height ≤ limit := by
  rw [Reader.rows] at hread
  split at hread
  · split at hread
    · cases hread
    · split at hread
      · split at hread
        · cases hread
        · rename_i k s hk
          split at hread
          · cases hread
            exact List.forall_mem_singleton.mpr (h.value hk)
          · obtain ⟨⟨ks, t⟩, hks, heq⟩ := Option.map_eq_some_iff.mp hread
            cases heq
            exact List.forall_mem_cons.mpr ⟨h.value hk, h.rows hks⟩
          · cases hread
      · cases hread
  · cases hread

end ReadsWithin

theorem readsWithin (fuel : Nat) : ReadsWithin fuel := by
  induction fuel with
  | zero =>
    constructor
    case value =>
      intro limit cs j r h
      rw [value] at h
      cases h
    case items =>
      intro limit cs js r h
      rw [items] at h
      cases h
    case rows =>
      intro limit cs js r h
      rw [rows] at h
      cases h
  | succ fuel ih => exact ⟨ih.value_succ, ih.items_succ, ih.rows_succ⟩

theorem height_parse? {text : String} {j : Json} (h : parse? text = some j) :
    j.height ≤ maxLevels := by
  rw [parse?, read] at h
  split at h
  · rename_i k r hk
    split at h
    · cases h
      exact (readsWithin _).value hk
    · cases h
  · cases h

end ApiDoc.Json
