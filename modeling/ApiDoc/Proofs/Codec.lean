import ApiDoc.Record
import ApiDoc.Proofs.Json.Values

/-!
# What comes back through a codec

A codec returns the values with a property when each of them is read as it was written,
and reading gives no other values. The property bounds the levels of the JSON form, and
the reader may need the form to have fewer levels than a limit of its own.
-/

set_option autoImplicit false

namespace ApiDoc

/-- The property with one level less, for what stands inside an object or an array. -/
inductive Deeper {α : Type} (P : Nat → α → Prop) : Nat → α → Prop
  | intro {n : Nat} {a : α} (h : P n a) : Deeper P (n + 1) a

theorem Deeper.imp {α : Type} {P Q : Nat → α → Prop} {n : Nat} {a : α}
    (hPQ : ∀ m ≤ n, P m a → Q m a) (h : Deeper P n a) : Deeper Q n a := by
  obtain ⟨h⟩ := h
  exact ⟨hPQ _ (Nat.le_succ _) h⟩

/-- What holds of a value is said with what holds of the values of its kind below it, which
have fewer levels. -/
inductive Nested {α : Type} (Over : (Nat → α → Prop) → Nat → α → Prop) : Nat → α → Prop
  | intro {n : Nat} {a : α} (below : Nat → α → Prop)
    (hbelow : ∀ m c, below m c → Nested Over m c) (h : Over (Deeper below) n a) :
    Nested Over n a

def Always {α : Type} (_ : Nat) (_ : α) : Prop := True

def Items {α : Type} (P : Nat → α → Prop) : Nat → List α → Prop :=
  Deeper fun n xs => ∀ x ∈ xs, P n x

def Rows {α : Type} (P : Nat → α → Prop) : Nat → Ordered α → Prop :=
  Deeper fun n t => t.All (P n)

def Listed {α : Type} (P : Nat → α → Prop) (n : Nat) (xs : List α) : Prop :=
  xs ≠ [] → Items P n xs

def Tabled {α : Type} (P : Nat → α → Prop) (n : Nat) (t : Ordered α) : Prop :=
  t.entries ≠ [] → Rows P n t

section

variable {α : Type} {P Q : Nat → α → Prop} {n : Nat}

theorem Listed.nil : Listed P n [] := fun h => absurd rfl h

theorem Tabled.empty : Tabled P n {} := fun h => absurd rfl h

theorem Rows.empty (hn : 1 ≤ n) : Rows P n {} := by
  obtain ⟨n, rfl⟩ := Nat.exists_eq_add_of_le' hn
  exact .intro (Ordered.all_empty _)

theorem Tabled.imp (hPQ : ∀ m ≤ n, ∀ a, P m a → Q m a) {t : Ordered α} (h : Tabled P n t) :
    Tabled Q n t := fun hne =>
  (h hne).imp fun m hm ht row hrow => hPQ m hm row.2 (ht row hrow)

theorem Tabled.all {p : α → Prop} {t : Ordered α} (h : Tabled P n t) (hp : ∀ m a, P m a → p a) :
    t.All p := by
  intro row hrow
  obtain ⟨ht⟩ := h (List.ne_nil_of_mem hrow)
  exact hp _ row.2 (ht row hrow)

theorem Listed.imp (hPQ : ∀ m ≤ n, ∀ a, P m a → Q m a) {xs : List α} (h : Listed P n xs) :
    Listed Q n xs := fun hne => (h hne).imp fun m hm hxs x hx => hPQ m hm x (hxs x hx)

end

namespace Codec

variable {α : Type}

/-- The value is written within some levels, with whole numbers, and where it has fewer
levels than the limit it is read as another value. -/
structure Restores (limit n : Nat) (c : Codec α) (a b : α) : Prop where
  height : (c.encode a).height ≤ n
  whole : (c.encode a).isWhole = true
  back : (c.encode a).height < limit → c.decode (.ofJson (c.encode a)) = some b

/-- What has the property comes back as the function says, and what is read has it, within
the levels of the JSON form or the least number that is always granted. -/
structure Returns (limit least : Nat) (c : Codec α) (P : Nat → α → Prop) (f : α → α) : Prop where
  restores : ∀ {n a}, P n a → c.Restores limit n a (f a)
  reads : ∀ {j a n}, j.isWhole = true → j.height ≤ n → least ≤ n →
    c.decode (.ofJson j) = some a → P n a

/-- Beyond that, nothing is written as null. -/
structure Stored (limit least : Nat) (c : Codec α) (P : Nat → α → Prop) (f : α → α) : Prop
    extends Returns limit least c P f where
  present : ∀ {n a}, P n a → c.encode a ≠ .null

variable {limit least : Nat}

section

variable {c : Codec α} {P : Nat → α → Prop} {f : α → α} {k : Nat}

theorem Returns.mono (hk : k ≤ limit) (h : c.Returns limit least P f) : c.Returns k least P f where
  restores ha := ⟨(h.restores ha).height, (h.restores ha).whole, fun hlt =>
    (h.restores ha).back (Nat.lt_of_lt_of_le hlt hk)⟩
  reads := h.reads

theorem Stored.mono (hk : k ≤ limit) (h : c.Stored limit least P f) : c.Stored k least P f :=
  { h.toReturns.mono hk with present := h.present }

end

/-! ### Plain codecs -/

theorem stored_text : text.Stored limit least Always id where
  restores _ := ⟨Nat.zero_le _, rfl, fun _ => rfl⟩
  reads _ _ _ _ := trivial
  present := nofun

theorem stored_flag : flag.Stored limit least Always id where
  restores _ := ⟨Nat.zero_le _, rfl, fun _ => rfl⟩
  reads _ _ _ _ := trivial
  present := nofun

theorem stored_word {spell : α → String} {all : List α}
    (h : ∀ a, all.find? (fun b => spell b = spell a) = some a) :
    (word spell all).Stored limit least Always id where
  restores {_ a} _ := ⟨Nat.zero_le _, rfl, fun _ => h a⟩
  reads _ _ _ _ := trivial
  present := nofun

def Word (_ : Nat) (n : Nat) : Prop := n < UInt64.size

theorem stored_natural : natural.Stored limit least Word id where
  restores {n a} h := by
    refine ⟨Nat.zero_le _, Json.isWhole_number.mpr ?_, fun _ => ?_⟩
    · unfold Word at h
      have hsize : UInt64.size = 18446744073709551616 := rfl
      omega
    · simp [natural, Datum.ofJson, Datum.natural?]
  reads {j a n} hj _ _ ha := by
    cases j with
    | number x =>
      cases x with
      | float f => cases hj
      | whole i =>
        have hword := Json.isWhole_number.mp hj
        have hsize : UInt64.size = 18446744073709551616 := rfl
        simp only [natural, Datum.ofJson, Datum.natural?] at ha
        split at ha
        · cases ha
          unfold Word
          omega
        · cases ha
    | _ => cases ha
  present := nofun

def Whole (_ : Nat) (x : JsonNumber) : Prop := (Json.number x).isWhole = true

theorem stored_number : number.Stored limit least Whole id where
  restores {n x} h := by
    refine ⟨Nat.zero_le _, h, fun _ => ?_⟩
    cases x with
    | whole i => rfl
    | float f => cases h
  reads {j a n} hj _ _ ha := by
    simp only [number, Datum.number?, Datum.settled_ofJson] at ha
    cases j with
    | number x =>
      cases x with
      | float f => cases hj
      | whole i =>
        cases ha
        exact hj
    | _ => cases ha
  present := nofun

theorem returns_value : value.Returns limit least Json.Clean id where
  restores {n j} h := ⟨h.height, h.whole, fun _ => (Datum.json?_ofJson j h.whole).trans
    (congrArg some (j.distinct_of_isDistinct h.distinct))⟩
  reads {j a n} hj hn _ ha := by
    cases (Datum.json?_ofJson j hj).symm.trans ha
    have hclean := j.clean_distinct hj
    exact { hclean with height := Nat.le_trans hclean.height hn }

/-! ### Lists and tables -/

variable {c : Codec α} {P : Nat → α → Prop}

theorem mapM_restored {β γ : Type} {read : β → Option γ} {e : α → β} {f : α → γ} {xs : List α}
    (h : ∀ x ∈ xs, read (e x) = some (f x)) : (xs.map e).mapM read = some (xs.map f) := by
  induction xs with
  | nil => rfl
  | cons x xs ih =>
    obtain ⟨hx, hxs⟩ := List.forall_mem_cons.mp h
    rw [List.map_cons, List.mapM_cons, hx, ih hxs]
    rfl

theorem mem_of_mapM {β γ : Type} {f : β → Option γ} {bs : List β} {cs : List γ}
    (h : bs.mapM f = some cs) : ∀ x ∈ cs, ∃ b ∈ bs, f b = some x := by
  induction bs generalizing cs with
  | nil =>
    cases h
    exact List.forall_mem_nil _
  | cons b bs ih =>
    rw [List.mapM_cons] at h
    obtain ⟨x, hx, h⟩ := Option.bind_eq_some_iff.mp h
    obtain ⟨xs, hxs, h⟩ := Option.bind_eq_some_iff.mp h
    cases h
    refine List.forall_mem_cons.mpr ⟨⟨b, List.mem_cons_self, hx⟩, fun y hy => ?_⟩
    obtain ⟨b, hb, hy⟩ := ih hxs y hy
    exact ⟨b, List.mem_cons_of_mem _ hb, hy⟩

theorem stored_list (h : c.Returns limit (least - 1) P id) :
    c.list.Stored limit least (Items P) id where
  restores {n xs} hxs := by
    obtain ⟨hxs⟩ := hxs
    have hback : ∀ x ∈ xs, c.Restores limit _ x x := fun x hx => h.restores (hxs x hx)
    refine ⟨Json.height_array_le.mpr ?_, Json.isWhole_array.mpr ?_, fun hlimit => ?_⟩
    · exact List.forall_mem_map.mpr fun x hx => (hback x hx).height
    · exact List.forall_mem_map.mpr fun x hx => (hback x hx).whole
    · have hitem : ∀ x ∈ xs, c.decode (.ofJson (c.encode x)) = some (id x) := fun x hx =>
        (hback x hx).back (Nat.lt_trans (Json.height_lt_array (List.mem_map_of_mem hx)) hlimit)
      simp only [list, Datum.ofJson, Datum.ofItems_eq, Datum.items?, Option.bind_some, List.map_map]
      exact (mapM_restored hitem).trans (by rw [List.map_id, id])
  reads {j xs n} hj hn hleast hxs := by
    cases j with
    | array js =>
      have hpos : 0 < n := Nat.lt_of_lt_of_le (Json.height_array_pos js) hn
      obtain ⟨n, rfl⟩ := Nat.exists_eq_add_one.mpr hpos
      simp only [list, Datum.ofJson, Datum.ofItems_eq, Datum.items?, Option.bind_some] at hxs
      refine .intro fun x hx => ?_
      obtain ⟨d, hd, hx⟩ := mem_of_mapM hxs x hx
      obtain ⟨k, hk, rfl⟩ := List.mem_map.mp hd
      exact h.reads (Json.isWhole_array.mp hj k hk) (Json.height_array_le.mp hn k hk)
        (Nat.sub_le_of_le_add hleast) hx
    | _ => cases hxs
  present := nofun

def rows? (c : Codec α) (rows : List (String × Json)) : Option (List (String × α)) :=
  rows.mapM fun row => (c.decode (.ofJson row.2)).bind fun a => some (row.1, a)

def rowsOf (c : Codec α) (t : Ordered α) : List (String × Json) :=
  t.entries.map fun row => (row.1, c.encode row.2)

theorem rows?_rowsOf {limit n : Nat} {t : Ordered α} {f : α → α}
    (h : t.All fun a => c.Restores limit n a (f a))
    (hlimit : ∀ row ∈ c.rowsOf t, row.2.height < limit) :
    c.rows? (c.rowsOf t) = some (t.mapValues f).entries := by
  rw [Ordered.entries_mapValues]
  exact mapM_restored fun row hrow => by
    have hback := (h row hrow).back (hlimit _ (List.mem_map_of_mem hrow))
    rw [hback, Option.bind_some]

theorem mem_of_rows? {rows : List (String × Json)} {entries : List (String × α)}
    (h : c.rows? rows = some entries) : ∀ e ∈ entries, ∃ row ∈ rows,
      row.1 = e.1 ∧ c.decode (.ofJson row.2) = some e.2 := by
  intro e he
  obtain ⟨row, hrow, hread⟩ := mem_of_mapM h e he
  obtain ⟨a, ha, heq⟩ := Option.bind_eq_some_iff.mp hread
  cases heq
  exact ⟨row, hrow, rfl, ha⟩

theorem decode_table (rows : List (String × Json)) :
    c.table.decode (.ofJson (.object rows)) = (c.rows? rows).map Ordered.ofRows := by
  simp only [table, Datum.ofJson, Datum.ofRows_eq, Datum.rows?, rows?, Option.bind_eq_bind,
    Option.bind_some, List.mapM_map]
  exact Option.map_eq_bind.symm

theorem stored_table {f : α → α} (h : c.Returns limit (least - 1) P f) :
    c.table.Stored limit least (Rows P) (Ordered.mapValues f) where
  restores {n t} ht := by
    obtain ⟨ht⟩ := ht
    have hback : t.All fun a => c.Restores limit _ a (f a) := fun row hrow =>
      h.restores (ht row hrow)
    refine ⟨Json.height_object_le.mpr ?_, Json.isWhole_object.mpr ?_, fun hlimit => ?_⟩
    · exact List.forall_mem_map.mpr fun row hrow => (hback row hrow).height
    · exact List.forall_mem_map.mpr fun row hrow => (hback row hrow).whole
    · have hrows := rows?_rowsOf hback fun row hrow =>
        Nat.lt_trans (Json.height_lt_object hrow) hlimit
      exact (decode_table (c.rowsOf t)).trans (by
        rw [hrows, Option.map_some, Ordered.ofRows_entries])
  reads {j t n} hj hn hleast ht := by
    cases j with
    | object rows =>
      have hpos : 0 < n := Nat.lt_of_lt_of_le (Json.height_object_pos rows) hn
      obtain ⟨n, rfl⟩ := Nat.exists_eq_add_one.mpr hpos
      rw [decode_table] at ht
      obtain ⟨entries, hentries, rfl⟩ := Option.map_eq_some_iff.mp ht
      refine .intro (Ordered.all_ofRows fun e he => ?_)
      obtain ⟨row, hrow, -, ha⟩ := mem_of_rows? hentries e he
      exact h.reads (Json.isWhole_object.mp hj row hrow) (Json.height_object_le.mp hn row hrow)
        (Nat.sub_le_of_le_add hleast) ha
    | _ => cases ht
  present := nofun

theorem decode_list_congr {a b : Codec α} (h : a.decode = b.decode) :
    a.list.decode = b.list.decode := by
  unfold list
  rw [h]

theorem decode_table_congr {a b : Codec α} (h : a.decode = b.decode) :
    a.table.decode = b.table.decode := by
  unfold table
  rw [h]

theorem stored_rows (h : c.Returns limit (least - 1) P id) :
    c.table.Stored limit least (Rows P) id := by
  have htable := stored_table h
  rwa [show Ordered.mapValues (α := α) id = id from funext Ordered.mapValues_id] at htable

/-! ### Recursive forms -/

section Nested

variable {Over : (Nat → α → Prop) → Nat → α → Prop} {n : Nat} {a : α}
  (hmono : ∀ ⦃P Q : Nat → α → Prop⦄ ⦃n a⦄, (∀ m ≤ n, ∀ c, P m c → Q m c) → Over P n a → Over Q n a)

include hmono

theorem nested_iff : Nested Over n a ↔ Over (Deeper (Nested Over)) n a := by
  constructor
  · rintro ⟨below, hbelow, h⟩
    exact hmono (fun m _ c hc => hc.imp fun k _ => hbelow k c) h
  · exact fun h => .intro (Nested Over) (fun _ _ hc => hc) h

variable {encode : α → Json} {levels : Nat → Codec α} {f : α → α}
  (hzero : ∀ d, (levels 0).decode d = none)
  (hsucc : ∀ ⦃limit k P⦄, (∀ least, Stored (limit - 1) least ⟨encode, (levels k).decode⟩ P f) →
    ∀ least, Stored limit least ⟨encode, (levels (k + 1)).decode⟩ (Deeper (Over P)) f)

include hzero hsucc

/-- What is below a value has fewer levels, so that the value is written as it should be
before any of them is read. -/
theorem stored_zero (least : Nat) :
    Stored 0 least ⟨encode, (levels 0).decode⟩ (Deeper (Nested Over)) f := by
  have hnone : ∀ {d a}, (levels 0).decode d ≠ some a := by
    intro d a h
    cases (hzero d).symm.trans h
  have hlevels : ∀ top least, Stored 0 least ⟨encode, (levels 0).decode⟩
      (fun n a => n ≤ top ∧ Deeper (Nested Over) n a) f := by
    intro top
    induction top with
    | zero =>
      refine fun least => ⟨⟨?_, fun _ _ _ ha => absurd ha hnone⟩, ?_⟩ <;>
      · rintro n a ⟨hn, ⟨h⟩⟩
        omega
    | succ top ih =>
      have hone : ∀ least, Stored 0 least ⟨encode, (levels 1).decode⟩ _ f := hsucc ih
      have hover : ∀ {n a}, n ≤ top + 1 ∧ Deeper (Nested Over) n a →
          Deeper (Over fun n a => n ≤ top ∧ Deeper (Nested Over) n a) n a := by
        rintro n a ⟨hn, ⟨h⟩⟩
        have hover := (nested_iff hmono).mp h
        exact .intro (hmono (fun m hm c hc => ⟨by omega, hc⟩) hover)
      intro least
      exact
        { restores := fun {n a} h =>
            have hback := (hone least).restores (hover h)
            ⟨hback.height, hback.whole, nofun⟩
          reads := fun _ _ _ ha => absurd ha hnone
          present := fun {n a} h => (hone least).present (hover h) }
  exact
    { restores := fun {n a} h => (hlevels n least).restores ⟨Nat.le_refl n, h⟩
      reads := fun _ _ _ ha => absurd ha hnone
      present := fun {n a} h => (hlevels n least).present ⟨Nat.le_refl n, h⟩ }

/-- A reader of so many levels reads what has fewer than them. -/
theorem stored_within {k limit : Nat} (h : limit ≤ k) (least : Nat) :
    Stored limit least ⟨encode, (levels k).decode⟩ (Deeper (Nested Over)) f := by
  have hover : Over (Deeper (Nested Over)) = Nested Over :=
    funext fun n => funext fun a => propext (nested_iff hmono).symm
  induction k generalizing limit least with
  | zero =>
    obtain rfl := Nat.le_zero.mp h
    exact stored_zero hmono hzero hsucc least
  | succ k ih =>
    have hstep := hsucc (fun least => ih (Nat.sub_le_of_le_add h) least) least
    rwa [hover] at hstep

/-- With a reader that has the levels of what it reads, there is no limit. -/
theorem stored_nested : Stored limit least ⟨encode, fun d => (levels (d.height + 1)).decode d⟩
    (Deeper (Nested Over)) f := by
  have hwithin : ∀ k, Stored k least ⟨encode, (levels k).decode⟩ (Deeper (Nested Over)) f :=
    fun k => stored_within hmono hzero hsucc (Nat.le_refl k) least
  have hfuel : ∀ j : Json, (levels ((Datum.ofJson j).height + 1)).decode (.ofJson j) =
      (levels (j.height + 1)).decode (.ofJson j) := fun j => by rw [Datum.height_ofJson]
  exact
    { restores := fun {n a} h =>
        have hback := (hwithin ((encode a).height + 1)).restores h
        ⟨hback.height, hback.whole, fun _ => (hfuel _).trans (hback.back (Nat.lt_succ_self _))⟩
      reads := fun {j a n} hj hn hleast ha =>
        (hwithin (j.height + 1)).reads hj hn hleast ((hfuel j).symm.trans ha)
      present := fun {n a} h => (hwithin 0).present h }

end Nested

end Codec

end ApiDoc
