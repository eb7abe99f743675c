import ApiDoc.TypeExpr
import ApiDoc.Text.Ident

/-!
# Written types

A type whose names are identifiers, apart from those of tuples and slices, can
be read back from its written form: two such types with one written form are
one type. The written form of a type ends before a comma or a closing bracket,
so it is also found at the start of a longer text.
-/

set_option autoImplicit false

namespace ApiDoc

namespace Text

def isIdentifier (name : String) : Bool :=
  match name.toList with
  | 'r' :: '#' :: c :: cs => isIdentStart c && cs.all isIdentContinue
  | c :: cs => isIdentStart c && cs.all isIdentContinue
  | [] => false

def isWordChar (c : Char) : Bool := isIdentStart c || isIdentContinue c || c = '#'

theorem isWordChar_of_all {c : Char} {cs : List Char}
    (h : (isIdentStart c && cs.all isIdentContinue) = true) : ∀ x ∈ c :: cs, isWordChar x := by
  simp only [Bool.and_eq_true, List.all_eq_true] at h
  intro x hx
  rcases List.mem_cons.mp hx with rfl | hx
  · simp [isWordChar, h.1]
  · simp [isWordChar, h.2 x hx]

theorem identifier_chars {name : String} (h : isIdentifier name = true) :
    name.toList ≠ [] ∧ ∀ x ∈ name.toList, isWordChar x := by
  unfold isIdentifier at h
  split at h
  · rename_i c cs he
    refine ⟨by simp [he], fun x hx => ?_⟩
    rw [he, List.mem_cons, List.mem_cons] at hx
    rcases hx with rfl | rfl | hx
    · decide
    · decide
    · exact isWordChar_of_all h x hx
  · rename_i c cs _ he
    exact ⟨by simp [he], fun x hx => isWordChar_of_all h x (he ▸ hx)⟩
  · cases h

end Text

namespace TypeExpr

open Text (isIdentifier isWordChar)

def hasName (name : String) (count : Nat) : Bool :=
  isIdentifier name || name = tupleName || (name = sliceName && count ≤ 1)

mutual
def wellNamed : TypeExpr → Bool
  | ⟨name, args⟩ => hasName name args.length && wellNamedList args
def wellNamedList : List TypeExpr → Bool
  | [] => true
  | t :: ts => t.wellNamed && wellNamedList ts
end

def chars (t : TypeExpr) : List Char := t.text.toList

def row (ts : List TypeExpr) : List Char := (", ".intercalate (textList ts)).toList

theorem row_nil : row [] = [] := by simp [row, textList]

theorem row_singleton (t : TypeExpr) : row [t] = t.chars := by simp [row, textList, chars]

theorem row_cons_cons (t u : TypeExpr) (us : List TypeExpr) :
    row (t :: u :: us) = t.chars ++ ',' :: ' ' :: row (u :: us) := by
  simp [row, textList, chars, String.intercalate_cons_cons]

def angled (args : List TypeExpr) : List Char :=
  if args.isEmpty then [] else '<' :: (row args ++ ['>'])

inductive Spelling : TypeExpr → Prop
  | tuple (args : List TypeExpr)
      (text : chars ⟨tupleName, args⟩ = '(' :: (row args ++ [')'])) : Spelling ⟨tupleName, args⟩
  | slice (args : List TypeExpr)
      (text : chars ⟨sliceName, args⟩ = '[' :: (row args ++ [']'])) : Spelling ⟨sliceName, args⟩
  | word (name : String) (args : List TypeExpr) (c : Char) (cs : List Char)
      (first : name.toList = c :: cs) (word : ∀ x ∈ name.toList, isWordChar x)
      (text : chars ⟨name, args⟩ = name.toList ++ angled args) : Spelling ⟨name, args⟩

theorem spelling {name : String} {args : List TypeExpr} (h : hasName name args.length = true) :
    Spelling ⟨name, args⟩ := by
  by_cases ht : name = tupleName
  · subst ht
    exact .tuple args (by simp [chars, text, row])
  by_cases hs : name = sliceName
  · subst hs
    have hne : ¬ sliceName = tupleName := by decide
    have hlen : args.length ≤ 1 := by
      have hi : isIdentifier sliceName = false := by decide +kernel
      simpa [hasName, hi, ht] using h
    refine .slice args ?_
    rcases args with _ | ⟨t, _ | ⟨u, ts⟩⟩
    · simp [chars, text, row, textList, hne]
    · simp [chars, text, row, textList, hne]
    · simp at hlen
  · have hi : isIdentifier name = true := by simpa [hasName, ht, hs] using h
    obtain ⟨hne, hw⟩ := Text.identifier_chars hi
    obtain ⟨c, cs, hc⟩ := List.exists_cons_of_ne_nil hne
    refine .word name args c cs hc hw ?_
    cases args <;> simp [chars, text, textList, angled, row, ht, hs]

def Ends (rest : List Char) : Prop := ∀ c ∈ rest.head?, c ∈ [',', '>', ')', ']']

def StopsWord (rest : List Char) : Prop := ∀ c ∈ rest.head?, isWordChar c = false

theorem stopsWord_angled (args : List TypeExpr) {rest : List Char} (h : Ends rest) :
    StopsWord (angled args ++ rest) := by
  intro c hc
  cases args with
  | nil =>
    have hm := h c (by simpa [angled] using hc)
    simp only [List.mem_cons, List.not_mem_nil, or_false] at hm
    rcases hm with rfl | rfl | rfl | rfl <;> decide
  | cons t ts =>
    have he : c = '<' := by simpa [angled, eq_comm] using hc
    subst he
    decide

theorem word_append {xs ys r s : List Char} (hx : ∀ c ∈ xs, isWordChar c)
    (hy : ∀ c ∈ ys, isWordChar c) (hr : StopsWord r) (hs : StopsWord s)
    (h : xs ++ r = ys ++ s) : xs = ys ∧ r = s := by
  have htake : ∀ {xs r : List Char}, (∀ c ∈ xs, isWordChar c) → StopsWord r →
      (xs ++ r).takeWhile isWordChar = xs := by
    intro xs r hx hr
    rw [List.takeWhile_append_of_pos hx]
    cases r with
    | nil => simp
    | cons c r => simp [hr c (by simp)]
  have hxy : xs = ys := by rw [← htake hx hr, h, htake hy hs]
  subst hxy
  exact ⟨rfl, List.append_cancel_left h⟩

/-- A closing bracket does not begin a type. -/
theorem chars_append_ne {t : TypeExpr} (ht : t.wellNamed = true) {c : Char}
    (hc : c ∈ ['>', ')', ']']) (r s : List Char) : t.chars ++ r ≠ c :: s := by
  intro h
  have hword : isWordChar c = false ∧ c ≠ '(' ∧ c ≠ '[' := by
    simp only [List.mem_cons, List.not_mem_nil, or_false] at hc
    rcases hc with rfl | rfl | rfl <;> decide
  obtain ⟨name, args⟩ := t
  simp only [wellNamed, Bool.and_eq_true] at ht
  cases spelling ht.1 with
  | tuple _ text =>
    rw [text] at h
    exact hword.2.1 (List.cons.inj h).1.symm
  | slice _ text =>
    rw [text] at h
    exact hword.2.2 (List.cons.inj h).1.symm
  | word _ _ d ds first word text =>
    rw [text, first] at h
    have hd := word d (by simp [first])
    rw [(List.cons.inj h).1, hword.1] at hd
    cases hd

def afterFirst (ts : List TypeExpr) (rest : List Char) : List Char :=
  match ts with
  | [] => rest
  | t :: ts => ',' :: ' ' :: (row (t :: ts) ++ rest)

theorem row_cons (t : TypeExpr) (ts : List TypeExpr) (rest : List Char) :
    row (t :: ts) ++ rest = t.chars ++ afterFirst ts rest := by
  cases ts with
  | nil => rw [row_singleton, afterFirst]
  | cons u us => simp [row_cons_cons, afterFirst]

theorem ends_afterFirst (ts : List TypeExpr) {c : Char} (hc : c ∈ ['>', ')', ']'])
    (r : List Char) : Ends (afterFirst ts (c :: r)) := by
  intro x hx
  cases ts with
  | nil =>
    have hx : c = x := by simpa [afterFirst] using hx
    exact List.mem_cons_of_mem _ (hx ▸ hc)
  | cons t ts =>
    have hx : ',' = x := by simpa [afterFirst] using hx
    exact hx ▸ List.mem_cons_self

def Readable (c : Char) (ts us : List TypeExpr) : Prop :=
  ∀ r s, row ts ++ c :: r = row us ++ c :: s → ts = us ∧ r = s

theorem afterFirst_append {ts us : List TypeExpr} {c : Char} (hc : c ∈ ['>', ')', ']'])
    (hread : Readable c ts us) {r s : List Char}
    (h : afterFirst ts (c :: r) = afterFirst us (c :: s)) : ts = us ∧ r = s := by
  have hcomma : c ≠ ',' := by
    rintro rfl
    exact absurd hc (by decide)
  cases ts with
  | nil =>
    cases us with
    | nil => exact ⟨rfl, (List.cons.inj h).2⟩
    | cons u us => exact absurd (List.cons.inj h).1 hcomma
  | cons t ts =>
    cases us with
    | nil => exact absurd (List.cons.inj h).1.symm hcomma
    | cons u us => exact hread r s (by simpa [afterFirst] using h)

theorem angled_append {ts us : List TypeExpr} (hread : Readable '>' ts us) {r s : List Char}
    (hr : Ends r) (hs : Ends s) (h : angled ts ++ r = angled us ++ s) : ts = us ∧ r = s := by
  have hlt : ∀ {rest : List Char}, Ends rest → rest.head? ≠ some '<' := by
    intro rest he hh
    exact absurd (he '<' hh) (by decide)
  cases ts with
  | nil =>
    cases us with
    | nil => exact ⟨rfl, h⟩
    | cons u us => exact absurd (by simp [show r = angled (u :: us) ++ s from h, angled]) (hlt hr)
  | cons t ts =>
    cases us with
    | nil =>
      exact absurd (by simp [← show angled (t :: ts) ++ r = s from h, angled]) (hlt hs)
    | cons u us => exact hread r s (by simpa [angled] using h)

/-- The first character tells words from all other types. -/
theorem cons_ne_word {name : String} {c d : Char} {cs ds rest : List Char}
    (hname : name.toList = c :: cs) (hword : ∀ x ∈ name.toList, isWordChar x = true)
    (hd : isWordChar d = false) : d :: ds ≠ name.toList ++ rest := by
  intro he
  rw [hname] at he
  have hc := hword c (by simp [hname])
  rw [← (List.cons.inj he).1, hd] at hc
  cases hc

/-- Two spellings of one text are of one kind and have the same parts. -/
theorem spelling_append {t u : TypeExpr} (ht : Spelling t) (hu : Spelling u)
    (hread : ∀ c ∈ ['>', ')', ']'], Readable c t.args u.args) {r s : List Char}
    (hr : Ends r) (hs : Ends s) (h : t.chars ++ r = u.chars ++ s) : t = u ∧ r = s := by
  have hopen : isWordChar '(' = false ∧ isWordChar '[' = false := by decide
  cases ht with
  | tuple args text =>
    rw [text] at h
    cases hu with
    | tuple bs text' =>
      rw [text'] at h
      obtain ⟨rfl, rfl⟩ := hread ')' (by simp) r s (by simpa using h)
      exact ⟨rfl, rfl⟩
    | slice bs text' =>
      rw [text'] at h
      exact absurd (List.cons.inj h).1 (by decide)
    | word name bs c cs first word text' =>
      rw [text', List.append_assoc] at h
      exact absurd h (cons_ne_word first word hopen.1)
  | slice args text =>
    rw [text] at h
    cases hu with
    | tuple bs text' =>
      rw [text'] at h
      exact absurd (List.cons.inj h).1 (by decide)
    | slice bs text' =>
      rw [text'] at h
      obtain ⟨rfl, rfl⟩ := hread ']' (by simp) r s (by simpa using h)
      exact ⟨rfl, rfl⟩
    | word name bs c cs first word text' =>
      rw [text', List.append_assoc] at h
      exact absurd h (cons_ne_word first word hopen.2)
  | word name args c cs first word text =>
    rw [text, List.append_assoc] at h
    cases hu with
    | tuple bs text' =>
      rw [text'] at h
      exact absurd h.symm (cons_ne_word first word hopen.1)
    | slice bs text' =>
      rw [text'] at h
      exact absurd h.symm (cons_ne_word first word hopen.2)
    | word other bs d ds first' word' text' =>
      rw [text', List.append_assoc] at h
      obtain ⟨hname, hrest⟩ := word_append word word'
        (stopsWord_angled args hr) (stopsWord_angled bs hs) h
      obtain ⟨rfl, rfl⟩ := angled_append (hread '>' (by simp)) hr hs hrest
      exact ⟨by rw [String.toList_inj.mp hname], rfl⟩

mutual
theorem chars_append : ∀ (t u : TypeExpr) {r s : List Char}, t.wellNamed = true →
    u.wellNamed = true → Ends r → Ends s → t.chars ++ r = u.chars ++ s → t = u ∧ r = s
  | ⟨name, args⟩, ⟨other, bs⟩, r, s, ht, hu, hr, hs, h => by
    simp only [wellNamed, Bool.and_eq_true] at ht hu
    exact spelling_append (spelling ht.1) (spelling hu.1)
      (fun c hc => row_append args bs ht.2 hu.2 hc) hr hs h

theorem row_append : ∀ (ts us : List TypeExpr) {c : Char}, wellNamedList ts = true →
    wellNamedList us = true → c ∈ ['>', ')', ']'] → Readable c ts us
  | [], [], _, _, _, _, r, s, h => by
    rw [row_nil] at h
    exact ⟨rfl, (List.cons.inj h).2⟩
  | [], u :: us, c, _, hu, hc, r, s, h => by
    simp only [wellNamedList, Bool.and_eq_true] at hu
    rw [row_nil, row_cons] at h
    exact absurd h.symm (chars_append_ne hu.1 hc _ _)
  | t :: ts, [], c, ht, _, hc, r, s, h => by
    simp only [wellNamedList, Bool.and_eq_true] at ht
    rw [row_nil, row_cons] at h
    exact absurd h (chars_append_ne ht.1 hc _ _)
  | t :: ts, u :: us, c, ht, hu, hc, r, s, h => by
    simp only [wellNamedList, Bool.and_eq_true] at ht hu
    rw [row_cons, row_cons] at h
    obtain ⟨rfl, hrest⟩ := chars_append t u ht.1 hu.1 (ends_afterFirst ts hc r)
      (ends_afterFirst us hc s) h
    obtain ⟨rfl, rfl⟩ := afterFirst_append hc (row_append ts us ht.2 hu.2 hc) hrest
    exact ⟨rfl, rfl⟩
end

theorem text_injective {t u : TypeExpr} (ht : t.wellNamed = true) (hu : u.wellNamed = true)
    (h : t.text = u.text) : t = u :=
  (chars_append t u ht hu (r := []) (s := []) (by simp [Ends]) (by simp [Ends])
    (by rw [chars, chars, h])).1

end TypeExpr

end ApiDoc
