import Mathlib.Data.List.Chain
import ApiDoc.Proofs.LetterCase
import ApiDoc.Settings.Basic

/-!
# Settings by variables

The name of a variable writes a key in capitals and its marks with underscores. Underscores
are read from left to right, three as an underscore, then two as a dot, then one as a
hyphen. So a name sets the key that it writes as long as no mark of the key stands right
behind a dot or a hyphen; where one does, the name sets another key.
-/

set_option autoImplicit false

namespace ApiDoc.Settings

def isMark (c : Char) : Bool := c = '.' || c = '-' || c = '_'

def written (c : Char) : List Char :=
  if c = '.' then ['_', '_']
  else if c = '-' then ['_']
  else if c = '_' then ['_', '_', '_']
  else [c.toUpper]

def variableOf (key : String) : String := String.ofList (key.toList.flatMap written)

structure IsSegment (s : String) : Prop where
  filled : s ≠ ""
  plain : ∀ c ∈ s.toList, c.isLower ∨ c.isDigit ∨ c = '-' ∨ c = '_'

structure AreSegments (segments : List String) : Prop where
  filled : segments ≠ []
  each : ∀ s ∈ segments, IsSegment s

def keyOf (segments : List String) : String := ".".intercalate ("openapi" :: segments)

def Spaced (cs : List Char) : Prop :=
  cs.IsChain fun c d => c = '.' ∨ c = '-' → isMark d = false

instance (cs : List Char) : Decidable (Spaced cs) :=
  inferInstanceAs (Decidable (cs.IsChain _))

def Expressible (segments : List String) : Prop := Spaced (".".intercalate segments).toList

instance (segments : List String) : Decidable (Expressible segments) :=
  inferInstanceAs (Decidable (Spaced _))

/-! ### What a name is read as -/

def read : List Char → List Char
  | '_' :: '_' :: '_' :: cs => '_' :: read cs
  | '_' :: '_' :: cs => '.' :: read cs
  | '_' :: cs => '-' :: read cs
  | c :: cs => c.toLower :: read cs
  | [] => []

def dotted (cs : List Char) : List Char :=
  let (piece, pieces) := cutSegments cs
  Text.join ['.'] ((piece :: pieces).map segmentKey)

def keyChar (c : Char) : Char :=
  if c.toLower = '_' then '-' else if c.toLower = '\x00' then '_' else c.toLower

section Reading

variable {c : Char} {cs : List Char}

theorem segmentKey_cons (hc : Text.isAscii c = true) (hcs : ∀ d ∈ cs, Text.isAscii d = true) :
    segmentKey (c :: cs) = keyChar c :: segmentKey cs := by
  have hplain : ∀ d ∈ c :: cs, Text.IsPlain d :=
    List.forall_mem_cons.mpr ⟨Or.inl hc, fun d hd => Or.inl (hcs d hd)⟩
  rw [segmentKey, segmentKey, Text.toLower_plain hplain,
    Text.toLower_plain (List.forall_mem_cons.mp hplain).2]
  rfl

theorem cutSegments_cons (h : ∀ ds, c :: cs ≠ '_' :: '_' :: ds) :
    cutSegments (c :: cs) = (c :: (cutSegments cs).1, (cutSegments cs).2) := by
  rw [cutSegments]
  exact fun ds h₁ h₂ => h ds (by rw [h₁, h₂])

theorem mem_cutSegments {d : Char} (h : d ∈ (cutSegments cs).1) : d ∈ cs := by
  fun_induction cutSegments cs with
  | case1 => cases h
  | case2 c cs _ piece pieces heq ih =>
    rw [heq] at ih
    rcases List.mem_cons.mp h with rfl | h
    · exact List.mem_cons_self
    · exact List.mem_cons_of_mem c (ih h)
  | case3 => cases h

theorem dotted_double : dotted ('_' :: '_' :: cs) = '.' :: dotted cs := rfl

theorem dotted_cons (h : ∀ ds, c :: cs ≠ '_' :: '_' :: ds)
    (hascii : ∀ d ∈ c :: cs, Text.isAscii d = true) :
    dotted (c :: cs) = keyChar c :: dotted cs := by
  obtain ⟨hc, hcs⟩ := List.forall_mem_cons.mp hascii
  have hfirst : segmentKey (c :: (cutSegments cs).1) = keyChar c :: segmentKey (cutSegments cs).1 :=
    segmentKey_cons hc fun d hd => hcs d (mem_cutSegments hd)
  rw [dotted, cutSegments_cons h, dotted]
  simp only [List.map_cons, hfirst]
  cases (cutSegments cs).2 <;> rfl

theorem isAscii_markUnderscores (hcs : ∀ d ∈ cs, Text.isAscii d = true) :
    ∀ d ∈ markUnderscores cs, Text.isAscii d = true := by
  fun_induction markUnderscores cs with
  | case1 cs ih =>
    simp only [List.forall_mem_cons] at hcs ⊢
    exact ⟨rfl, ih hcs.2.2.2⟩
  | case2 c cs _ ih =>
    obtain ⟨hc, hcs⟩ := List.forall_mem_cons.mp hcs
    exact List.forall_mem_cons.mpr ⟨hc, ih hcs⟩
  | case3 => exact List.forall_mem_nil _

theorem markUnderscores_cons (h : ∀ ds, c :: cs ≠ '_' :: '_' :: '_' :: ds) :
    markUnderscores (c :: cs) = c :: markUnderscores cs := by
  rw [markUnderscores]
  exact fun ds h₁ h₂ => h ds (by rw [h₁, h₂])

/-- Marks are made of three underscores only. -/
theorem markUnderscores_ne (h : ∀ ds, cs ≠ '_' :: ds) (ds : List Char) :
    markUnderscores cs ≠ '_' :: ds := by
  cases cs with
  | nil => exact List.cons_ne_nil _ _ ∘ Eq.symm
  | cons c cs =>
    have hc : c ≠ '_' := fun hc => h cs (by rw [hc])
    rw [markUnderscores_cons fun ds he => hc (List.cons.inj he).1]
    exact fun he => hc (List.cons.inj he).1

/-- No character of the name stands for the mark of a literal underscore. -/
theorem keyChar_plain (hc : c ≠ '_') (hnul : c ≠ '\x00') : keyChar c = c.toLower := by
  have hlower : c.toLower ≠ '_' := fun h => hc (Text.eq_of_toLower_eq (by decide) h)
  have hmark : c.toLower ≠ '\x00' := fun h => hnul (Text.eq_of_toLower_eq (by decide) h)
  rw [keyChar, if_neg hlower, if_neg hmark]

/-- Replacing threes and then cutting at twos reads the runs from the left. -/
theorem dotted_markUnderscores (hcs : ∀ d ∈ cs, Text.isAscii d = true ∧ d ≠ '\x00') :
    dotted (markUnderscores cs) = read cs := by
  have hascii : ∀ d ∈ markUnderscores cs, Text.isAscii d = true :=
    isAscii_markUnderscores fun d hd => (hcs d hd).1
  fun_induction read cs with
  | case1 cs ih =>
    simp only [List.forall_mem_cons] at hcs
    rw [markUnderscores] at hascii ⊢
    rw [dotted_cons (by simp) hascii, ih hcs.2.2.2 (List.forall_mem_cons.mp hascii).2]
    rfl
  | case2 cs hne ih =>
    have hmarked : markUnderscores ('_' :: '_' :: cs) = '_' :: '_' :: markUnderscores cs := by
      rw [markUnderscores_cons (by simpa using hne), markUnderscores_cons]
      exact fun ds he => hne _ (List.cons.inj he).2
    simp only [List.forall_mem_cons] at hcs
    rw [hmarked] at hascii ⊢
    simp only [List.forall_mem_cons] at hascii
    rw [dotted_double, ih hcs.2.2 hascii.2.2]
  | case3 cs _ hne ih =>
    have hmarked : markUnderscores ('_' :: cs) = '_' :: markUnderscores cs :=
      markUnderscores_cons fun ds he => hne _ (List.cons.inj he).2
    have halone : ∀ ds, '_' :: markUnderscores cs ≠ '_' :: '_' :: ds :=
      fun ds he => markUnderscores_ne hne ds (List.cons.inj he).2
    obtain ⟨-, hcs⟩ := List.forall_mem_cons.mp hcs
    rw [hmarked] at hascii ⊢
    rw [dotted_cons halone hascii, ih hcs (List.forall_mem_cons.mp hascii).2]
    rfl
  | case4 c cs _ _ hc ih =>
    obtain ⟨⟨-, hnul⟩, hcs⟩ := List.forall_mem_cons.mp hcs
    rw [markUnderscores_cons fun ds he => hc (List.cons.inj he).1] at hascii ⊢
    rw [dotted_cons (fun ds he => hc (List.cons.inj he).1) hascii,
      ih hcs (List.forall_mem_cons.mp hascii).2, keyChar_plain hc hnul]
  | case5 => rfl

theorem isMark_eq_false (hdot : c ≠ '.') (hhyphen : c ≠ '-') (hunderscore : c ≠ '_') :
    isMark c = false := by
  simp [isMark, hdot, hhyphen, hunderscore]

theorem isMark_toLower (hc : isMark c = false) : isMark c.toLower = false := by
  simp only [isMark, Bool.or_eq_false_iff, decide_eq_false_iff_not] at hc ⊢
  obtain ⟨⟨hdot, hhyphen⟩, hunderscore⟩ := hc
  exact ⟨⟨fun h => hdot (Text.eq_of_toLower_eq rfl h),
    fun h => hhyphen (Text.eq_of_toLower_eq rfl h)⟩,
    fun h => hunderscore (Text.eq_of_toLower_eq rfl h)⟩

/-- A name without dots and hyphens, with no underscore in front, is not read as a mark first. -/
theorem isMark_head_read (hcs : ∀ d ∈ cs, d ≠ '.' ∧ d ≠ '-') (hne : ∀ ds, cs ≠ '_' :: ds) :
    ∀ d ∈ (read cs).head?, isMark d = false := by
  cases cs with
  | nil => simp [read]
  | cons c cs =>
    have hc : c ≠ '_' := fun hc => hne cs (by rw [hc])
    obtain ⟨hdot, hhyphen⟩ := hcs c List.mem_cons_self
    have hread : read (c :: cs) = c.toLower :: read cs := by
      rw [read] <;> simp [hc]
    intro d hd
    rw [hread, List.head?_cons, Option.mem_some_iff] at hd
    rw [← hd]
    exact isMark_toLower (isMark_eq_false hdot hhyphen hc)

/-- A dot or a hyphen is read only where a run of underscores ends. -/
theorem spaced_read (hcs : ∀ d ∈ cs, d ≠ '.' ∧ d ≠ '-') : Spaced (read cs) := by
  unfold Spaced
  fun_induction read cs with
  | case1 cs ih =>
    simp only [List.forall_mem_cons] at hcs
    exact List.isChain_cons.mpr ⟨fun d _ h => by simp at h, ih hcs.2.2.2⟩
  | case2 cs hne ih =>
    simp only [List.forall_mem_cons] at hcs
    exact List.isChain_cons.mpr ⟨fun d hd _ => isMark_head_read hcs.2.2 hne d hd, ih hcs.2.2⟩
  | case3 cs _ hne ih =>
    obtain ⟨-, hcs⟩ := List.forall_mem_cons.mp hcs
    exact List.isChain_cons.mpr ⟨fun d hd _ => isMark_head_read hcs hne d hd, ih hcs⟩
  | case4 c cs _ _ hc ih =>
    obtain ⟨⟨hdot, hhyphen⟩, hcs⟩ := List.forall_mem_cons.mp hcs
    refine List.isChain_cons.mpr ⟨fun d _ h => ?_, ih hcs⟩
    have hplain := isMark_toLower (isMark_eq_false hdot hhyphen hc)
    rcases h with h | h <;> simp [isMark, h] at hplain
  | case5 => exact List.isChain_nil

end Reading

/-! ### Reading what was written -/

section Writing

variable {c : Char} {cs : List Char}

def IsKeyChar (c : Char) : Prop := c.isLower ∨ c.isDigit ∨ isMark c = true

theorem IsKeyChar.isUpper_eq_false (hc : IsKeyChar c) : c.isUpper = false := by
  rcases hc with hc | hc | hc
  · exact Text.isUpper_eq_false_of_isLower hc
  · refine Bool.eq_false_iff.mpr fun hcap => ?_
    have hto : c.toNat ≤ 57 := (Char.isDigit_iff_toNat.mp hc).2
    have hfrom := (Text.isUpper_iff.mp hcap).1
    omega
  · simp only [isMark, Bool.or_eq_true, decide_eq_true_eq] at hc
    rcases hc with (rfl | rfl) | rfl <;> rfl

theorem written_plain (hc : isMark c = false) : written c = [c.toUpper] := by
  simp only [isMark, Bool.or_eq_false_iff, decide_eq_false_iff_not] at hc
  rw [written, if_neg hc.1.1, if_neg hc.1.2, if_neg hc.2]

theorem toUpper_ne {mark : Char} (hm : mark.isAlpha = false) (hc : c ≠ mark) : c.toUpper ≠ mark :=
  fun h => hc (Text.eq_of_toUpper_eq hm h)

theorem IsKeyChar.isAscii (hc : IsKeyChar c) : Text.isAscii c = true := by
  rcases hc with hc | hc | hc
  · exact Text.isAscii_of_isAlpha (Text.isAlpha_iff.mpr (Or.inr hc))
  · simp only [Char.isDigit, Bool.and_eq_true, decide_eq_true_eq, ge_iff_le,
      UInt32.le_iff_toNat_le] at hc
    have hnat : c.toNat = c.val.toNat := rfl
    have h9 : '9'.val.toNat = 57 := rfl
    simp only [Text.isAscii, decide_eq_true_eq]
    omega
  · simp only [isMark, Bool.or_eq_true, decide_eq_true_eq] at hc
    rcases hc with (rfl | rfl) | rfl <;> rfl

theorem isAscii_toUpper (hc : Text.isAscii c = true) : Text.isAscii c.toUpper = true :=
  Text.forall_ascii (P := fun c => Text.isAscii c.toUpper = true) (by decide) hc

/-- A name holds nothing of which reading would make a mark, underscores apart. -/
theorem mem_written {d : Char} (hc : IsKeyChar c) (hd : d ∈ written c) :
    (Text.isAscii d = true ∧ d ≠ '\x00') ∧ d ≠ '.' ∧ d ≠ '-' := by
  cases hmark : isMark c with
  | true =>
    have hd : d = '_' := by
      simp only [isMark, Bool.or_eq_true, decide_eq_true_eq] at hmark
      rcases hmark with (rfl | rfl) | rfl <;> simpa [written] using hd
    rw [hd]
    decide
  | false =>
    rw [written_plain hmark, List.mem_singleton] at hd
    simp only [isMark, Bool.or_eq_false_iff, decide_eq_false_iff_not] at hmark
    have hnul : c ≠ '\x00' := by
      rintro rfl
      rcases hc with hc | hc | hc <;> cases hc
    rw [hd]
    exact ⟨⟨isAscii_toUpper hc.isAscii, toUpper_ne rfl hnul⟩, toUpper_ne rfl hmark.1.1,
      toUpper_ne rfl hmark.1.2⟩

theorem written_ne (h : ∀ d ∈ cs.head?, isMark d = false) (ds : List Char) :
    cs.flatMap written ≠ '_' :: ds := by
  cases cs with
  | nil => exact (List.cons_ne_nil _ _).symm
  | cons c cs =>
    have hc : isMark c = false := h c rfl
    have hne : c ≠ '_' := by
      rintro rfl
      cases hc
    rw [List.flatMap_cons, written_plain hc]
    exact fun he => toUpper_ne rfl hne (List.cons.inj he).1

/-- Where no mark stands right behind a dot or a hyphen, each run of underscores is read as
the marks that it was written for. -/
theorem read_written (hcs : ∀ c ∈ cs, IsKeyChar c) (h : Spaced cs) :
    read (cs.flatMap written) = cs := by
  induction cs with
  | nil => rfl
  | cons c cs ih =>
    obtain ⟨hc, hcs⟩ := List.forall_mem_cons.mp hcs
    obtain ⟨hnext, hspaced⟩ := List.isChain_cons.mp h
    have ih := ih hcs hspaced
    rw [List.flatMap_cons]
    by_cases hdot : c = '.'
    · have hrest := written_ne fun d hd => hnext d hd (Or.inl hdot)
      rw [hdot, written, if_pos rfl, List.cons_append, List.singleton_append, read, ih]
      exact hrest
    by_cases hhyphen : c = '-'
    · have hrest := written_ne fun d hd => hnext d hd (Or.inr hhyphen)
      rw [hhyphen, show written '-' = ['_'] from rfl, List.singleton_append, read, ih]
      · exact fun ds he => hrest _ he
      · exact hrest
    by_cases hunderscore : c = '_'
    · rw [hunderscore, show written '_' = ['_', '_', '_'] from rfl]
      exact congrArg ('_' :: ·) ih
    · have hne : c.toUpper ≠ '_' := toUpper_ne rfl hunderscore
      have hsmall : c.toUpper.toLower = c := by
        rw [Text.toLower_toUpper, Text.toLower_eq_self_iff.mpr hc.isUpper_eq_false]
      rw [written_plain (isMark_eq_false hdot hhyphen hunderscore), List.singleton_append, read, ih,
        hsmall]
      all_goals simp [hne]

theorem read_written_iff (hcs : ∀ c ∈ cs, IsKeyChar c) :
    read (cs.flatMap written) = cs ↔ Spaced cs := by
  refine ⟨fun h => ?_, read_written hcs⟩
  rw [← h]
  apply spaced_read
  intro d hd
  obtain ⟨c, hc, hd⟩ := List.mem_flatMap.mp hd
  exact (mem_written (hcs c hc) hd).2

end Writing

/-! ### Keys and their variables -/

section Keys

variable {segments : List String}

theorem IsSegment.isKeyChar {s : String} (hs : IsSegment s) : ∀ c ∈ s.toList, IsKeyChar c := by
  intro c hc
  rcases hs.plain c hc with h | h | rfl | rfl
  · exact Or.inl h
  · exact Or.inr (Or.inl h)
  · exact Or.inr (Or.inr rfl)
  · exact Or.inr (Or.inr rfl)

theorem isKeyChar_of_segments (hs : ∀ s ∈ segments, IsSegment s) :
    ∀ c ∈ (".".intercalate segments).toList, IsKeyChar c := by
  induction segments with
  | nil => exact List.forall_mem_nil _
  | cons s segments ih =>
    obtain ⟨hfirst, hs⟩ := List.forall_mem_cons.mp hs
    cases segments with
    | nil => exact hfirst.isKeyChar
    | cons next segments =>
      rw [String.intercalate_cons_cons, String.toList_append, String.toList_append]
      exact List.forall_mem_append.mpr ⟨List.forall_mem_append.mpr ⟨hfirst.isKeyChar,
        List.forall_mem_singleton.mpr (Or.inr (Or.inr rfl))⟩, ih hs⟩

theorem toList_keyOf (hne : segments ≠ []) :
    (keyOf segments).toList = "openapi.".toList ++ (".".intercalate segments).toList := by
  obtain ⟨s, segments, rfl⟩ := List.exists_cons_of_ne_nil hne
  rw [keyOf, String.intercalate_cons_cons, String.toList_append]
  rfl

theorem behind?_append (marker cs : List Char) : behind? marker (marker ++ cs) = some cs := by
  have hprefix : marker.isPrefixOf (marker ++ cs) = true :=
    List.isPrefixOf_iff_prefix.mpr (List.prefix_append marker cs)
  rw [behind?, if_pos hprefix, List.drop_left]

/-- What follows the common prefix in a name decides the key. -/
theorem variableKey?_eq (rest : List Char) :
    variableKey? variablePrefix (String.ofList ("OPENAPI__".toList ++ rest)) =
      some (String.ofList ("openapi.".toList ++ dotted (markUnderscores rest))) := by
  have hhead : Text.toUpper variablePrefix.toList = "OPENAPI".toList := by decide
  have hlower : Text.toLower "OPENAPI".toList = "openapi".toList := by decide
  have hname : (String.ofList ("OPENAPI__".toList ++ rest)).toList =
      "OPENAPI".toList ++ (['_', '_'] ++ rest) := String.toList_ofList
  rw [variableKey?, hhead, hname, behind?_append, Option.bind_some, behind?_append,
    Option.map_some, hlower]
  rfl

theorem variableKey?_keyOf (hs : AreSegments segments) :
    variableKey? variablePrefix (variableOf (keyOf segments)) =
      some (String.ofList ("openapi.".toList ++
        read ((".".intercalate segments).toList.flatMap written))) := by
  have hkey := isKeyChar_of_segments hs.each
  have hname : (keyOf segments).toList.flatMap written =
      "OPENAPI__".toList ++ (".".intercalate segments).toList.flatMap written := by
    rw [toList_keyOf hs.filled, List.flatMap_append]
    rfl
  rw [variableOf, hname, variableKey?_eq, dotted_markUnderscores]
  intro d hd
  obtain ⟨c, hc, hd⟩ := List.mem_flatMap.mp hd
  exact (mem_written (hkey c hc) hd).1

/-- The name of a variable sets the key that it writes just in case no mark of the key stands
right behind a dot or a hyphen. -/
theorem variableKey?_eq_keyOf_iff (hs : AreSegments segments) :
    variableKey? variablePrefix (variableOf (keyOf segments)) = some (keyOf segments) ↔
      Expressible segments := by
  have hkey : keyOf segments =
      String.ofList ("openapi.".toList ++ (".".intercalate segments).toList) := by
    rw [← toList_keyOf hs.filled, String.ofList_toList]
  have hread := read_written_iff (isKeyChar_of_segments hs.each)
  rw [variableKey?_keyOf hs, Expressible, ← hread, Option.some.injEq]
  constructor
  · intro h
    exact List.append_cancel_left (String.ofList_injective (h.trans hkey))
  · intro h
    rw [h, ← hkey]

theorem withVariables_eq {name key : String} (h : variableKey? variablePrefix name = some key)
    (s : Settings) (value : String) :
    s.withVariables variablePrefix [(name, value)] = s.set key value := by
  rw [withVariables, List.foldl_cons, List.foldl_nil, withVariable, h]

/-- A variable sets one key: the one that its name writes if no mark of that key stands right
behind a dot or a hyphen, and another one if some mark does. No two keys that are set by
their names have the same name. -/
theorem variable_sets_key_iff (hs : AreSegments segments) :
    (∃ key, (∀ (s : Settings) (value : String),
        s.withVariables variablePrefix [(variableOf (keyOf segments), value)] = s.set key value) ∧
      (key = keyOf segments ↔ Expressible segments)) ∧
    ∀ others, AreSegments others → Expressible segments → Expressible others →
      keyOf segments ≠ keyOf others →
      variableOf (keyOf segments) ≠ variableOf (keyOf others) := by
  constructor
  · have hset := variableKey?_keyOf hs
    refine ⟨_, withVariables_eq hset, ?_⟩
    rw [← variableKey?_eq_keyOf_iff hs, hset, Option.some.injEq]
  · intro others ho he he' hkeys hnames
    have hread := (variableKey?_eq_keyOf_iff hs).mpr he
    rw [hnames, (variableKey?_eq_keyOf_iff ho).mpr he'] at hread
    exact hkeys (Option.some.inj hread).symm

end Keys

section Witness

/-- Segments are decided by their characters. -/
theorem areSegments_of_check {segments : List String} (hne : segments ≠ [])
    (h : segments.all fun s => !s.toList.isEmpty &&
      s.toList.all fun c => c.isLower || c.isDigit || c = '-' || c = '_') :
    AreSegments segments where
  filled := hne
  each s hs := by
    have hcheck := List.all_eq_true.mp h s hs
    rw [Bool.and_eq_true] at hcheck
    refine ⟨fun he => ?_, by simpa [or_assoc] using hcheck.2⟩
    rw [he] at hcheck
    cases hcheck.1

def itemServers : List String := ["servers", "operation", "get_item"]

def strategySegments : List String := ["operation-id-strategy"]

theorem variable_sets_key_iff_items :
    variableOf (keyOf itemServers) = "OPENAPI__SERVERS__OPERATION__GET___ITEM" ∧
    Expressible itemServers ∧
    (∃ key, (∀ (s : Settings) (value : String),
        s.withVariables variablePrefix [(variableOf (keyOf itemServers), value)] =
          s.set key value) ∧
      (key = keyOf itemServers ↔ Expressible itemServers)) ∧
    variableOf (keyOf itemServers) ≠ variableOf (keyOf strategySegments) := by
  have hitems : AreSegments itemServers := areSegments_of_check (by decide) rfl
  have hstrategy : AreSegments strategySegments := areSegments_of_check (by decide) rfl
  have hexpressible : Expressible itemServers := by decide
  have hboth := variable_sets_key_iff hitems
  exact ⟨by decide, hexpressible, hboth.1,
    hboth.2 strategySegments hstrategy hexpressible (by decide) (by decide)⟩

end Witness

section Counterexample

def hiddenItem : List String := ["servers", "operation", "_item"]

def hiddenGroup : List String := ["servers", "operation_", "item"]

/-- Both keys have the same name, so that one of them is out of reach. -/
theorem leading_underscore_out_of_reach :
    AreSegments hiddenItem ∧ AreSegments hiddenGroup ∧ keyOf hiddenItem ≠ keyOf hiddenGroup ∧
    variableOf (keyOf hiddenItem) = "OPENAPI__SERVERS__OPERATION_____ITEM" ∧
    variableOf (keyOf hiddenGroup) = "OPENAPI__SERVERS__OPERATION_____ITEM" ∧
    ({} : Settings).withVariables variablePrefix [(variableOf (keyOf hiddenItem), "/items")] =
      ({} : Settings).set (keyOf hiddenGroup) "/items" ∧
    (({} : Settings).withVariables variablePrefix
      [(variableOf (keyOf hiddenItem), "/items")]).get? (keyOf hiddenItem) = none :=
  ⟨areSegments_of_check (by decide) rfl, areSegments_of_check (by decide) rfl, by decide,
    by decide, by decide, rfl, rfl⟩

end Counterexample

end ApiDoc.Settings
