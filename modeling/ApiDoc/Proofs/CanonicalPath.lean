import ApiDoc.Assembly.Basic

/-!
# Canonical paths

Fragments of a path are joined by their segments alone, so the path that comes of them
has one form, which joining leaves as it is. Two declarations have the same path if and
only if they have the same segments, once their parameters are written in braces.
-/

set_option autoImplicit false

namespace ApiDoc.Naming

/-- An absolute path without an empty segment, without a slash at its end, and with its
parameters in braces. -/
structure Canonical (path : String) : Prop where
  absolute : path.toList.head? = some '/'
  unbroken : ¬ ['/', '/'] <:+: path.toList
  closed : path ≠ "/" → path.toList.getLast? ≠ some '/'
  braced : ¬ ['/', ':'] <:+: path.toList

def segmentsOf (fragments : List String) : List (List Char) :=
  fragments.flatMap fun f => (f.toList.splitOn '/').filter fun s => !s.isEmpty

def route (fragments : List String) : List (List Char) := (segmentsOf fragments).map segment

structure IsStep (s : List Char) : Prop where
  filled : s ≠ []
  whole : '/' ∉ s
  braced : s.head? ≠ some ':'

variable {fs gs : List String} {steps : List (List Char)}

theorem segments_eq (cs : List Char) :
    segments cs = (cs.splitOn '/').filter fun s => !s.isEmpty := by
  rw [segments, Text.cut_eq_splitOn]

theorem joinPaths_eq (fs : List String) :
    joinPaths fs = String.ofList ('/' :: ['/'].intercalate (route fs)) := by
  rw [joinPaths, Text.join_eq_intercalate, route, segmentsOf]
  simp only [segments_eq]

/-! ### Steps -/

theorem isStep_segment {s : List Char} (hs : s ≠ []) (hw : '/' ∉ s) : IsStep (segment s) := by
  unfold segment
  split
  · rename_i name
    have hname : '/' ∉ name := fun h => hw (List.mem_cons_of_mem _ h)
    exact ⟨List.cons_ne_nil _ _, by simp [hname], by simp⟩
  · rename_i hplain
    refine ⟨hs, hw, fun hc => ?_⟩
    obtain ⟨name, hname⟩ := List.head?_eq_some_iff.mp hc
    exact hplain name hname

theorem isStep_of_mem_route {s : List Char} (hs : s ∈ route fs) : IsStep s := by
  obtain ⟨own, hown, rfl⟩ := List.mem_map.mp hs
  obtain ⟨f, -, hf⟩ := List.mem_flatMap.mp hown
  obtain ⟨hcut, hfilled⟩ := List.mem_filter.mp hf
  rw [← Text.cut_eq_splitOn] at hcut
  exact isStep_segment (by simpa using hfilled) (Text.not_mem_of_mem_cut hcut)

theorem segment_step {s : List Char} (hs : IsStep s) : segment s = s := by
  unfold segment
  split
  · exact absurd rfl hs.braced
  · rfl

theorem map_segment_steps (hs : ∀ s ∈ steps, IsStep s) : steps.map segment = steps :=
  (List.map_congr_left fun s h => segment_step (hs s h)).trans (List.map_id steps)

/-! ### Paths of steps -/

/-- Every step stands behind a slash. -/
theorem slash_intercalate (hne : steps ≠ []) :
    '/' :: ['/'].intercalate steps = steps.flatMap ('/' :: ·) := by
  induction steps with
  | nil => exact absurd rfl hne
  | cons s steps ih =>
    cases steps with
    | nil => simp
    | cons next steps =>
      rw [List.intercalate_cons_cons, List.flatMap_cons, ← ih (List.cons_ne_nil _ _)]
      simp

theorem cut_slash (cs : List Char) : Text.cut '/' ('/' :: cs) = [] :: Text.cut '/' cs := by
  rw [Text.cut_cons, if_pos rfl]

theorem cut_intercalate (hs : ∀ s ∈ steps, IsStep s) (hne : steps ≠ []) :
    Text.cut '/' (['/'].intercalate steps) = steps :=
  Text.cut_intercalate hne fun s h => (hs s h).whole

/-- A path of steps has these segments. -/
theorem segments_path (hs : ∀ s ∈ steps, IsStep s) :
    segments ('/' :: ['/'].intercalate steps) = steps := by
  have hfilled : ∀ s ∈ steps, (!s.isEmpty) = true := fun s h => by simpa using (hs s h).filled
  by_cases hne : steps = []
  · subst hne
    rfl
  · rw [segments, cut_slash, cut_intercalate hs hne, List.filter_cons_of_neg (by simp)]
    exact List.filter_eq_self.mpr hfilled

theorem route_append (fs gs : List String) : route (fs ++ gs) = route fs ++ route gs := by
  simp [route, segmentsOf]

/-- What has been joined goes the same way. -/
theorem route_joinPaths (fs : List String) : route [joinPaths fs] = route fs := by
  have hsteps : ∀ s ∈ route fs, IsStep s := fun _ => isStep_of_mem_route
  have hsegments : segmentsOf [joinPaths fs] = route fs := by
    rw [joinPaths_eq, segmentsOf, List.flatMap_singleton, String.toList_ofList, ← segments_eq,
      segments_path hsteps]
  rw [route, hsegments, map_segment_steps hsteps]

/-! ### The canonical form -/

/-- What stands between slashes, of a path of steps, is a step. -/
theorem isStep_of_split (hs : ∀ s ∈ steps, IsStep s) (hne : steps ≠ [])
    {before after piece : List Char}
    (h : '/' :: ['/'].intercalate steps = before ++ '/' :: after)
    (hp : piece ∈ Text.cut '/' after) : IsStep piece := by
  have hcut := congrArg (Text.cut '/') h
  rw [cut_slash, cut_intercalate hs hne, Text.cut_eq_splitOn, List.splitOn_append_cons_self,
    ← Text.cut_eq_splitOn, ← Text.cut_eq_splitOn] at hcut
  obtain ⟨first, pieces, hb⟩ := List.exists_cons_of_ne_nil (Text.cut_ne_nil '/' before)
  rw [hb, List.cons_append] at hcut
  have hsteps := (List.cons.inj hcut).2
  exact hs piece (hsteps ▸ List.mem_append_right pieces hp)

theorem canonical_of_steps (hs : ∀ s ∈ steps, IsStep s) :
    Canonical (String.ofList ('/' :: ['/'].intercalate steps)) := by
  by_cases hne : steps = []
  · subst hne
    exact ⟨by simp, by decide, fun h => absurd rfl h, by decide⟩
  · refine ⟨by simp, ?_, ?_, ?_⟩
    · rintro ⟨before, after, h⟩
      have hpath : '/' :: ['/'].intercalate steps = before ++ '/' :: '/' :: after := by
        simpa using h.symm
      exact (isStep_of_split hs hne hpath (by rw [cut_slash]; exact List.mem_cons_self)).filled rfl
    · intro _ hlast
      rw [String.toList_ofList] at hlast
      obtain ⟨before, h⟩ := List.getLast?_eq_some_iff.mp hlast
      exact (isStep_of_split hs hne h List.mem_cons_self).filled rfl
    · rintro ⟨before, after, h⟩
      have hpath : '/' :: ['/'].intercalate steps = before ++ '/' :: ':' :: after := by
        simpa using h.symm
      obtain ⟨first, pieces, ha⟩ := List.exists_cons_of_ne_nil (Text.cut_ne_nil '/' after)
      have hled : ':' :: first ∈ Text.cut '/' (':' :: after) := by
        rw [Text.cut_cons, if_neg (by decide), ha]
        exact List.mem_cons_self
      exact (isStep_of_split hs hne hpath hled).braced rfl

/-- A piece between slashes has one before it, and one behind it or nothing. -/
theorem split_of_mem_cut {piece cs : List Char} (h : piece ∈ Text.cut '/' cs) :
    ∃ before after, '/' :: cs = before ++ '/' :: (piece ++ after) ∧
      (after = [] ∨ ∃ more, after = '/' :: more) := by
  obtain ⟨earlier, later, hcut⟩ := List.append_of_mem h
  have hcs : '/' :: cs = (Text.cut '/' cs).flatMap ('/' :: ·) := by
    rw [← slash_intercalate (by rw [hcut]; simp), Text.cut_eq_splitOn, List.intercalate_splitOn]
  refine ⟨earlier.flatMap ('/' :: ·), later.flatMap ('/' :: ·), ?_, ?_⟩
  · rw [hcs, hcut, List.flatMap_append, List.flatMap_cons]
    rfl
  · cases later with
    | nil => exact Or.inl rfl
    | cons next later => exact Or.inr ⟨_, rfl⟩

theorem isStep_of_canonical {path : String} {cs piece : List Char} (hc : Canonical path)
    (hpath : path.toList = '/' :: cs) (hne : cs ≠ []) (hp : piece ∈ Text.cut '/' cs) :
    IsStep piece := by
  obtain ⟨before, after, hsplit, hafter⟩ := split_of_mem_cut hp
  refine ⟨?_, Text.not_mem_of_mem_cut hp, ?_⟩
  · rintro rfl
    rcases hafter with rfl | ⟨more, rfl⟩
    · refine hc.closed (fun h => ?_) (by rw [hpath, hsplit]; simp)
      rw [h] at hpath
      exact hne (List.cons.inj hpath).2.symm
    · exact hc.unbroken ⟨before, more, by rw [hpath, hsplit]; simp⟩
  · intro hcolon
    obtain ⟨name, rfl⟩ := List.head?_eq_some_iff.mp hcolon
    exact hc.braced ⟨before, name ++ after, by rw [hpath, hsplit]; simp⟩

theorem canonical_joinPaths (fs : List String) : Canonical (joinPaths fs) := by
  rw [joinPaths_eq]
  exact canonical_of_steps fun _ => isStep_of_mem_route

theorem joinPaths_canonical {path : String} (hc : Canonical path) : joinPaths [path] = path := by
  obtain ⟨cs, hpath⟩ := List.head?_eq_some_iff.mp hc.absolute
  by_cases hne : cs = []
  · rw [← String.ofList_toList (s := path), hpath, hne]
    rfl
  · have hsteps : ∀ s ∈ Text.cut '/' cs, IsStep s := fun s => isStep_of_canonical hc hpath hne
    have hjoined : ['/'].intercalate (Text.cut '/' cs) = cs := by
      rw [Text.cut_eq_splitOn, List.intercalate_splitOn]
    have hroute : route [path] = Text.cut '/' cs := by
      rw [route, segmentsOf, List.flatMap_singleton, hpath, ← segments_eq, ← hjoined,
        segments_path hsteps, map_segment_steps hsteps, hjoined]
    rw [joinPaths_eq, hroute, hjoined, ← hpath, String.ofList_toList]

theorem joinPaths_eq_iff : joinPaths fs = joinPaths gs ↔ route fs = route gs := by
  constructor
  · intro h
    rw [← route_joinPaths fs, h, route_joinPaths]
  · intro h
    rw [joinPaths_eq, joinPaths_eq, h]

def declaredFragments (basePath : Option String) (e : Endpoint) (h : Handler) : List String :=
  [basePath.getD "", e.path.getD "", h.path.getD ""]

/-- Joining gives the canonical form of a path: it leaves canonical paths as they are and
no others, it may be done in any grouping, and its result is decided by the segments that
are not empty, with parameters in braces. So handlers that declare the same segments have
the same path. -/
theorem joinPaths_normal_form :
    (∀ path, joinPaths [path] = path ↔ Canonical path) ∧
    (∀ fs, Canonical (joinPaths fs) ∧ joinPaths [joinPaths fs] = joinPaths fs) ∧
    (∀ fs gs, joinPaths (fs ++ gs) = joinPaths [joinPaths fs, joinPaths gs] ∧
      (joinPaths fs = joinPaths gs ↔
        (segmentsOf fs).map segment = (segmentsOf gs).map segment)) ∧
    ∀ basePath e h basePath' e' h',
      Assembly.pathOf basePath e h = Assembly.pathOf basePath' e' h' ↔
        (segmentsOf (declaredFragments basePath e h)).map segment =
          (segmentsOf (declaredFragments basePath' e' h')).map segment := by
  refine ⟨fun path => ⟨fun h => ?_, joinPaths_canonical⟩, fun fs => ⟨canonical_joinPaths fs, ?_⟩,
    fun fs gs => ⟨?_, joinPaths_eq_iff⟩, fun _ _ _ _ _ _ => joinPaths_eq_iff⟩
  · rw [← h]
    exact canonical_joinPaths [path]
  · exact joinPaths_canonical (canonical_joinPaths fs)
  · have hroute : route [joinPaths fs, joinPaths gs] = route fs ++ route gs := by
      rw [show [joinPaths fs, joinPaths gs] = [joinPaths fs] ++ [joinPaths gs] from rfl,
        route_append, route_joinPaths, route_joinPaths]
    rw [joinPaths_eq_iff, hroute, route_append]

example : joinPaths ["/", "items//", ":id"] = "/items/\x7bid\x7d" := by decide

end ApiDoc.Naming
