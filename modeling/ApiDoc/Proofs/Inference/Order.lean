import ApiDoc.Proofs.Inference.Handles
import ApiDoc.Proofs.Inference.Replay
import ApiDoc.Proofs.Inference.WellNamed

/-!
# The order of requests

When all types of a list can be described, and no two types that are reached
ask for one component name, then any other order of the list gives every type
the same schema and every name the same component. One run is followed inside
the arena that the other has left: what the first opens the second holds, under
the same name and with the same content.
-/

set_option autoImplicit false

namespace ApiDoc.Inference

open TypeExpr (text_injective)

def WellNamed (t : TypeExpr) : Prop := t.wellNamed = true

structure Complete (catalog : Catalog) (f : Arena) : Prop where
  sound : f.Sound
  settled : ∀ key c, f.find? key = some c → Settled catalog WellNamed f key c
  plain : Plain catalog WellNamed f

variable {catalog : Catalog}

theorem Complete.name_eq {f : Arena} (hf : Complete catalog f) {t : TypeExpr} {d : TypeDecl}
    {c : Component} (ht : WellNamed t) (hd : catalog.get? t.name = some d)
    (hc : f.find? t.text = some c) : c.name = wantedName d t := by
  obtain ⟨u, e, hu, hk, he, hn⟩ := hf.plain _ c hc
  have hut := text_injective hu ht hk
  subst hut
  rw [hd] at he
  rw [hn, Option.some.inj he]

theorem Complete.content_eq {f : Arena} (hf : Complete catalog f) {t : TypeExpr} {d : TypeDecl}
    {c : Component} (ht : WellNamed t) (hd : catalog.get? t.name = some d)
    (hc : f.find? t.text = some c) :
    ∃ n, (content (level catalog n) d t.args).outcome f = (.ok c.schema, f) := by
  obtain ⟨u, e, n, hu, hk, he, hcontent⟩ := hf.settled _ c hc
  have hut := text_injective hu ht hk
  subst hut
  rw [hd] at he
  rw [Option.some.inj he]
  exact ⟨n, hcontent f (Arena.Grows.refl f).agrees⟩

/-! ### One run inside the arena of another -/

/-- The left computation, run on an arena inside `f`, follows the right one on `f`. -/
def following (f : Arena) (hf : f.Sound) : Link where
  rel g g' := stepping.rel g g ∧ stepping.rel g' g' ∧
    ∀ a x b y, a.Sound → a.Agrees f → g.outcome a = (.ok x, b) → g'.outcome f = (.ok y, f) →
      x = y ∧ b.Agrees f ∧ ∀ key c, a.find? key = none → b.find? key = some c → f.find? key = some c
  pure x := by
    refine ⟨stepping.pure x, stepping.pure x, fun a y b z _ hag h h' => ?_⟩
    cases h
    cases h'
    exact ⟨rfl, hag, fun key c hn hc => by rw [hn] at hc; cases hc⟩
  fail e := ⟨stepping.fail e, stepping.fail e, fun a y b z _ _ h => by cases h⟩
  bind {α β g g' k k'} hg hk := by
    refine ⟨stepping.bind hg.1 fun x => (hk x).1, stepping.bind hg.2.1 fun x => (hk x).2.1,
      fun a z c z' hs hag h h' => ?_⟩
    obtain ⟨x, b, h₁, h₂⟩ := ExceptT.outcome_bind_eq_ok h
    obtain ⟨x', e, h₁', h₂'⟩ := ExceptT.outcome_bind_eq_ok h'
    have hab := steps_of_outcome hg.1 hs h₁
    have hbc := steps_of_outcome (hk x).1 hab.2 h₂
    -- the right run ends where it began, so it never left
    have hfe := steps_of_outcome hg.2.1 hf h₁'
    have hef := steps_of_outcome (hk x').2.1 hfe.2 h₂'
    obtain rfl := hfe.1.antisymm hef.1
    obtain ⟨rfl, hbf, hnew⟩ := hg.2.2 a x b x' hs hag h₁ h₁'
    obtain ⟨rfl, hcf, hnew'⟩ := (hk x).2.2 b z c z' hab.2 hbf h₂ h₂'
    refine ⟨rfl, hcf, fun key y hn hy => ?_⟩
    cases hb : b.find? key with
    | none => exact hnew' key y hb hy
    | some y' =>
      have hyy : y' = y := Option.some.inj ((hbc.1.find? hb).symm.trans hy)
      exact hyy ▸ hnew key y' hn hb

/-- A component that is asked for without any change to the arena is there. -/
theorem component_present {below : Level} {d : TypeDecl} {t : TypeExpr} {f : Arena} {s : Schema}
    (hf : f.Sound) (hs : stepping.rel (content below d t.args) (content below d t.args))
    (h : (component below d t).outcome f = (.ok s, f)) :
    ∃ c, f.find? t.text = some c ∧ s = Schema.refTo c.name := by
  rcases component_eq_ok h with ⟨c, hc, hs, -⟩ | ⟨hnone, inner, b, hin, -, hfb⟩
  · exact ⟨c, hc, hs⟩
  · have hb := steps_of_outcome hs (steps_allot hf hnone (wantedName d t)).2 hin
    have hsize := hb.1.size
    have hsame := congrArg Arena.size hfb
    rw [Arena.size_fill] at hsame
    rw [Arena.size_allot] at hsize
    omega

/-- Inside a complete arena the wanted name is still free. -/
theorem Complete.allot_name {f a : Arena} (hf : Complete catalog f) {t : TypeExpr} {d : TypeDecl}
    {c : Component} (ht : WellNamed t) (hd : catalog.get? t.name = some d)
    (hc : f.find? t.text = some c) (hs : a.Sound) (hag : a.Agrees f) :
    (a.allot t.text (wantedName d t)).1.name = c.name := by
  have hname := hf.name_eq ht hd hc
  have hfree : wantedName d t ∉ a.takenFrom t.text := by
    intro hmem
    obtain ⟨owner, x, hne, hx, hxn⟩ := hs.owner_of_taken hmem
    obtain ⟨y, hy, hyn⟩ := hag owner x hx
    exact hne (hf.sound.key_unique hy hc (hyn.trans (hxn.trans hname.symm)))
  rw [Arena.allot_name, Naming.fresh_unused _ _ hfree, hname]

theorem component_follows {f : Arena} (hf : Complete catalog f) {n : Nat} {below' : Level}
    {d : TypeDecl} {t : TypeExpr} (ht : WellNamed t) (hd : catalog.get? t.name = some d)
    (hstep : stepping.rel (content below' d t.args) (content below' d t.args))
    (h : ∀ m, (following f hf.sound).rel (content (level catalog n) d t.args)
      (content (level catalog m) d t.args)) :
    (following f hf.sound).rel (component (level catalog n) d t) (component below' d t) := by
  refine ⟨component_steps d t (h 0).1, component_steps d t hstep,
    fun a s b s' hs hag ho ho' => ?_⟩
  obtain ⟨c, hc, rfl⟩ := component_present hf.sound hstep ho'
  rcases component_eq_ok ho with ⟨x, hx, rfl, rfl⟩ | ⟨hnone, inner, b', hin, rfl, rfl⟩
  · obtain ⟨y, hy, hyn⟩ := hag t.text x hx
    rw [hc] at hy
    refine ⟨by rw [Option.some.inj hy, hyn], hag, fun key z hn hz => ?_⟩
    rw [hn] at hz
    cases hz
  · have hname := hf.allot_name ht hd hc hs hag
    have hself := a.find?_allot_self t.text (wantedName d t)
    have hopen := (steps_allot hs hnone (wantedName d t)).2
    have hag' : (a.allot t.text (wantedName d t)).2.Agrees f := by
      intro key x hx
      by_cases hk : key = t.text
      · rw [hk, hself] at hx
        exact ⟨c, hk ▸ hc, by rw [← Option.some.inj hx, hname]⟩
      · rw [hs.find?_allot_ne _ hk] at hx
        exact hag key x hx
    -- the content is compared with the one from which the other arena was filled
    obtain ⟨m, hm⟩ := hf.content_eq ht hd hc
    obtain ⟨rfl, hb'f, hnew⟩ := (h m).2.2 _ inner b' c.schema hopen hag' hin hm
    have hb := steps_of_outcome (h 0).1 hopen hin
    refine ⟨by rw [hname], (b'.fill_agrees a.size c.schema).trans hb'f, fun key x hn hx => ?_⟩
    by_cases hk : key = t.text
    · rw [hk, find?_filled_self hb] at hx
      rw [hk, hc, ← hx]
      refine congrArg some ?_
      show c = ⟨_, c.schema⟩
      rw [hname]
    · rw [find?_filled_ne hb hk] at hx
      exact hnew key x ((hs.find?_allot_ne _ hk).trans hn) hx

theorem level_follows (hcat : catalog.wellNamed = true) {f : Arena} (hf : Complete catalog f)
    (n m : Nat) :
    (following f hf.sound).logic.Linked (fun x => WellNamed x.type) (level catalog n)
      (level catalog m) := by
  have hc := Catalog.closed_wellNamed hcat
  induction n generalizing m with
  | zero =>
    exact ⟨fun t _ => ⟨stepping.fail _, schemaOf_steps catalog m t,
        fun a x b y _ _ h => by cases h⟩,
      fun fields bindings _ => ⟨stepping.fail _, fieldsOf_steps catalog m fields bindings,
        fun a x b y _ _ h => by cases h⟩⟩
  | succ n ih =>
    cases m with
    | zero =>
      exact ⟨fun t _ => ⟨schemaOf_steps catalog (n + 1) t, stepping.fail _,
          fun a x b y _ _ _ h => by cases h⟩,
        fun fields bindings _ => ⟨fieldsOf_steps catalog (n + 1) fields bindings,
          stepping.fail _, fun a x b y _ _ _ h => by cases h⟩⟩
    | succ m =>
      refine (ih m).next hc.demands (fun _ d _ => Terms.admits_any d) fun t d ht hd _ => ?_
      refine component_follows hf ht hd (content_steps catalog m d t.args) fun k => ?_
      exact (ih k).content (Terms.admits_any d) fun x hx =>
        hc.declared t d ht hd _ (TypeDecl.mem_types_of_demands hx)

/-! ### Lists of requests -/

section Answers

variable {infer : TypeExpr → Gen Schema}

theorem each_of_answers {f : Arena} {answer : TypeExpr → Schema} {ts : List TypeExpr}
    (h : ∀ t ∈ ts, (infer t).outcome f = (.ok (answer t), f)) :
    (each infer ts).outcome f = (.ok (ts.map answer), f) := by
  induction ts with
  | nil => rfl
  | cons t ts ih =>
    rw [each, ExceptT.outcome_bind_ok (h t List.mem_cons_self),
      ExceptT.outcome_bind_ok (ih fun u hu => h u (List.mem_cons_of_mem t hu))]
    rfl

/-- Requests that leave the arena as it is are answered one by one without a change. -/
theorem answers_of_each (hi : ∀ t, stepping.rel (infer t) (infer t)) {f : Arena} (hf : f.Sound)
    {ts : List TypeExpr} {ss : List Schema} (h : (each infer ts).outcome f = (.ok ss, f)) :
    ∀ t ∈ ts, ∃ s, (infer t).outcome f = (.ok s, f) := by
  induction ts generalizing ss with
  | nil => exact List.forall_mem_nil _
  | cons t ts ih =>
    obtain ⟨s, b, hs, hrest⟩ := ExceptT.outcome_bind_eq_ok h
    obtain ⟨rest, c, hrest, hc⟩ := ExceptT.outcome_bind_eq_ok hrest
    cases hc
    have hfb := steps_of_outcome (hi t) hf hs
    have hall : ∀ t, True → stepping.logic.rel (Terms.any.Describes t) (infer t) (infer t) :=
      fun t _ => hi t
    have hbf := steps_of_outcome (stepping.logic.each hall ts fun _ _ => trivial) hfb.2 hrest
    obtain rfl := hfb.1.antisymm hbf.1
    intro u hu
    rcases List.mem_cons.mp hu with rfl | hu
    · exact ⟨s, hs⟩
    · exact ih hrest u hu

end Answers

def answerIn (infer : TypeExpr → Gen Schema) (f : Arena) (t : TypeExpr) : Schema :=
  match ((infer t).outcome f).1 with
  | .ok s => s
  | .error _ => {}

/-- The arena that a run has left answers its requests again, in any order. -/
theorem each_again {n : Nat} {ts us : List TypeExpr} {ss : List Schema} {a : Arena}
    (h : (each (schemaOf catalog n) ts).outcome {} = (.ok ss, a)) (hsub : ∀ u ∈ us, u ∈ ts) :
    (each (schemaOf catalog n) us).outcome a =
      (.ok (us.map (answerIn (schemaOf catalog n) a)), a) := by
  have hreplay := replaying.logic.each (level_replays catalog n).schemaOf ts fun _ _ => trivial
  have hsound := (steps_of_outcome hreplay.1 Arena.sound_empty h).2
  have hsame := hreplay.2 {} ss a Arena.sound_empty h a (Arena.Grows.refl a).agrees
  apply each_of_answers
  intro u hu
  obtain ⟨s, hs⟩ := answers_of_each (schemaOf_steps catalog n) hsound hsame u (hsub u hu)
  rw [answerIn, hs]

theorem complete_of_run {n : Nat} {ts : List TypeExpr} {ss : List Schema} {a : Arena}
    (hcat : catalog.wellNamed = true) (hts : ∀ t ∈ ts, WellNamed t)
    (h : (each (schemaOf catalog n) ts).outcome {} = (.ok ss, a))
    (hapart : NamesApart catalog WellNamed a) : Complete catalog a := by
  have hc := Catalog.closed_wellNamed hcat
  have hsettle := (settling catalog WellNamed).logic.each (level_settles hc n).schemaOf ts hts
  have hname := (naming catalog WellNamed a).logic.each (level_names hc hapart n).schemaOf ts hts
  have hempty : ∀ key, ({} : Arena).find? key = none := fun _ => rfl
  refine ⟨(steps_of_outcome hsettle.1 Arena.sound_empty h).2, fun key c => ?_, ?_⟩
  · exact hsettle.2 {} ss a Arena.sound_empty h key c (hempty key)
  · apply hname.2 {} ss a Arena.sound_empty h (Arena.Grows.refl a).agrees
    intro key c hk
    rw [hempty] at hk
    cases hk

/-- What a run answers and opens is what a complete arena answers and has. -/
theorem run_follows {n m : Nat} {ts : List TypeExpr} {ss ss' : List Schema} {a f : Arena}
    (hcat : catalog.wellNamed = true) (hts : ∀ t ∈ ts, WellNamed t) (hf : Complete catalog f)
    (h : (each (schemaOf catalog n) ts).outcome {} = (.ok ss, a))
    (h' : (each (schemaOf catalog m) ts).outcome f = (.ok ss', f)) :
    ss = ss' ∧ ∀ key c, a.find? key = some c → f.find? key = some c := by
  have hfollow := (following f hf.sound).logic.each (level_follows hcat hf n m).schemaOf ts hts
  have hstart : ({} : Arena).Agrees f := fun key c hk => by cases hk
  obtain ⟨hss, -, hnew⟩ := hfollow.2.2 {} ss a ss' Arena.sound_empty hstart h h'
  exact ⟨hss, fun key c => hnew key c rfl⟩

theorem NamesApart.mono {S : TypeExpr → Prop} {a b : Arena} (ha : NamesApart catalog S a)
    (h : ∀ key c, b.find? key = some c → a.find? key = some c) : NamesApart catalog S b := by
  intro t u d e ht hu hd he hbt hbu hwant
  obtain ⟨c, hc⟩ := Option.ne_none_iff_exists'.mp hbt
  obtain ⟨c', hc'⟩ := Option.ne_none_iff_exists'.mp hbu
  exact ha t u d e ht hu hd he (by simp [h _ _ hc]) (by simp [h _ _ hc']) hwant

theorem named?_eq_of_find?_eq {a b : Arena} (ha : a.Sound) (hb : b.Sound)
    (h : ∀ key c, a.find? key = some c ↔ b.find? key = some c) (name : String) :
    a.named? name = b.named? name := by
  apply Option.ext
  intro s
  rw [ha.named?_eq_some_iff, hb.named?_eq_some_iff]
  simp only [h]

theorem request_order_irrelevant (catalog : Catalog) (hcat : catalog.wellNamed = true)
    (ts us : List TypeExpr) (hperm : ts.Perm us) (hts : ∀ t ∈ ts, WellNamed t) (n m : Nat)
    (ss ss' : List Schema) (a b : Arena)
    (h : (each (schemaOf catalog n) ts).outcome {} = (.ok ss, a))
    (h' : (each (schemaOf catalog m) us).outcome {} = (.ok ss', b))
    (hapart : NamesApart catalog WellNamed a) :
    (∃ answer : TypeExpr → Schema, ss = ts.map answer ∧ ss' = us.map answer) ∧
      ∀ name, a.named? name = b.named? name := by
  have hus : ∀ u ∈ us, WellNamed u := fun u hu => hts u (hperm.mem_iff.mpr hu)
  have hab : ∀ t ∈ ts, t ∈ us := fun t => hperm.mem_iff.mp
  have hba : ∀ u ∈ us, u ∈ ts := fun u => hperm.mem_iff.mpr
  -- the second run inside the arena of the first, and then the first inside the second
  have ha := complete_of_run hcat hts h hapart
  obtain ⟨-, hinto⟩ := run_follows hcat hus ha h' (each_again h hba)
  have hb := complete_of_run hcat hus h' (hapart.mono hinto)
  obtain ⟨hss, honto⟩ := run_follows hcat hts hb h (each_again h' hab)
  obtain ⟨hss', -⟩ := run_follows hcat hus hb h' (each_again h' fun _ hu => hu)
  refine ⟨⟨_, hss, hss'⟩, ?_⟩
  exact named?_eq_of_find?_eq ha.sound hb.sound fun key c => ⟨honto key c, hinto key c⟩

section Witness

def pagesRun (ts : List TypeExpr) : Except Failure (List Schema) × Arena :=
  (each (schemaOf pageCatalog 9) ts).outcome {}

theorem pages_apart :
    NamesApart pageCatalog WellNamed (pagesRun [itemType, pageType itemType]).2 := by
  have hkeys : (pagesRun [itemType, pageType itemType]).2.places.entries =
      [("Item", 0), ("Page<Item>", 1)] := by decide
  have htwo : ∀ t, WellNamed t → (pagesRun [itemType, pageType itemType]).2.find? t.text ≠ none →
      t = itemType ∨ t = pageType itemType := by
    intro t ht hf
    obtain ⟨c, hc⟩ := Option.ne_none_iff_exists'.mp hf
    obtain ⟨place, hp, -⟩ := Arena.find?_eq_some_iff.mp hc
    have hmem := Ordered.mem_of_get? _ hp
    rw [hkeys] at hmem
    simp only [List.mem_cons, Prod.mk.injEq, List.not_mem_nil, or_false] at hmem
    rcases hmem with ⟨hk, -⟩ | ⟨hk, -⟩
    · exact Or.inl (text_injective ht (by decide) (hk.trans (by decide)))
    · exact Or.inr (text_injective ht (by decide) (hk.trans (by decide)))
  have hname : ∀ t d, pageCatalog.get? t.name = some d → t = itemType ∨ t = pageType itemType →
      wantedName d t = t.flatName := by
    rintro t d hd (rfl | rfl)
    · cases hd
      decide
    · cases hd
      decide
  intro t u d e ht hu hd he hft hfu hwant
  rw [hname t d hd (htwo t ht hft), hname u e he (htwo u hu hfu)] at hwant
  rcases htwo t ht hft with rfl | rfl <;> rcases htwo u hu hfu with rfl | rfl
  · rfl
  · exact absurd hwant (by decide)
  · exact absurd hwant (by decide)
  · rfl

/-- The item comes first in one arena and second in the other. -/
theorem request_order_irrelevant_pages :
    (pagesRun [itemType, pageType itemType]).2.names = ["Item", "PageItem"] ∧
    (pagesRun [pageType itemType, itemType]).2.names = ["PageItem", "Item"] ∧
    (∃ answer : TypeExpr → Schema,
      [Schema.refTo "Item", Schema.refTo "PageItem"] = [itemType, pageType itemType].map answer ∧
      [Schema.refTo "PageItem", Schema.refTo "Item"] =
        [pageType itemType, itemType].map answer) ∧
    ∀ name, (pagesRun [itemType, pageType itemType]).2.named? name =
      (pagesRun [pageType itemType, itemType]).2.named? name :=
  ⟨by decide, by decide,
    request_order_irrelevant pageCatalog (by decide) [itemType, pageType itemType]
      [pageType itemType, itemType] (List.Perm.swap _ _ _)
      (List.forall_mem_cons.mpr ⟨by unfold WellNamed; decide,
        List.forall_mem_singleton.mpr (by unfold WellNamed; decide)⟩)
      9 9 _ _ _ _ rfl rfl pages_apart⟩

end Witness

end ApiDoc.Inference
