import ApiDoc.Datum

/-!
# Records as JSON objects

A `Record` lists the fields of a node once, in the order in which they are
written, and says what becomes of rows under other names. `Record.codec`
derives both directions: a field that holds nothing is left out, a known name
written twice is refused, and every row without a field goes to the rest.
-/

set_option autoImplicit false

namespace ApiDoc

structure Codec (α : Type) where
  encode : α → Json
  decode : Datum → Option α

namespace Codec

variable {α : Type}

def text : Codec String := ⟨.text, Datum.text?⟩

def flag : Codec Bool := ⟨.bool, Datum.bool?⟩

def natural : Codec Nat := ⟨fun n => .number (.whole n), Datum.natural?⟩

def number : Codec JsonNumber := ⟨.number, Datum.number?⟩

def value : Codec Json := ⟨id, Datum.json?⟩

def list (c : Codec α) : Codec (List α) where
  encode xs := .array (xs.map c.encode)
  decode d := d.items?.bind fun ds => ds.mapM c.decode

def table (c : Codec α) : Codec (Ordered α) where
  encode m := .object (m.entries.map fun row => (row.1, c.encode row.2))
  decode d := do
    let rows ← d.rows?
    let rows ← rows.mapM fun (k, v) => do pure ((← k.text?), (← c.decode v))
    pure (Ordered.ofRows rows)

def bareWord? : Datum → Option String
  | .table [(.text k, .null)] => some k
  | d => d.text?

def word (spell : α → String) (all : List α) : Codec α where
  encode a := .text (spell a)
  decode d := (bareWord? d).bind fun s => all.find? fun a => spell a = s

def settled (c : Codec α) : Codec α where
  encode := c.encode
  decode d := d.settled.bind c.decode

def never : Codec α := ⟨fun _ => .null, fun _ => none⟩

end Codec

/-- How a value stands under a key, where it may also be left out. -/
structure Cell (α : Type) where
  write : α → Option Json
  read : Datum → Option α

namespace Cell

variable {α : Type}

def always (c : Codec α) : Cell α := ⟨fun a => some (c.encode a), c.decode⟩

def optional (c : Codec α) : Cell (Option α) where
  write a := a.map c.encode
  read d :=
    match d.isPresent? with
    | none => none
    | some false => some none
    | some true => (c.decode d).map some

def list (c : Codec α) : Cell (List α) where
  write xs := if xs.isEmpty then none else some (c.list.encode xs)
  read := c.list.decode

def table (c : Codec α) : Cell (Ordered α) where
  write t := if t.isEmpty then none else some (c.table.encode t)
  read := c.table.decode

variable (c : Codec α)

@[simp] theorem write_optional (v : Option α) : (optional c).write v = v.map c.encode := rfl

@[simp] theorem write_list (xs : List α) :
    (list c).write xs = if xs.isEmpty then none else some (c.list.encode xs) := rfl

@[simp] theorem write_table (t : Ordered α) :
    (table c).write t = if t.isEmpty then none else some (c.table.encode t) := rfl

@[simp] theorem read_list : (list c).read = c.list.decode := rfl

@[simp] theorem read_table : (table c).read = c.table.decode := rfl

end Cell

/-- A part of a record, with the key and the form under which it is written. -/
structure Field (ρ : Type) where
  name : String
  {α : Type}
  cell : Cell α
  get : ρ → α
  set : ρ → α → ρ

namespace Field

variable {ρ : Type}

def write (f : Field ρ) (r : ρ) : Option Json := f.cell.write (f.get r)

def read (f : Field ρ) (d : Datum) (r : ρ) : Option ρ := (f.cell.read d).map (f.set r)

variable {α : Type} (name : String) (cell : Cell α) (get : ρ → α) (set : ρ → α → ρ) (r : ρ)

@[simp] theorem write_mk : (mk name cell get set).write r = cell.write (get r) := rfl

@[simp] theorem read_mk (d : Datum) :
    (mk name cell get set).read d r = (cell.read d).map (set r) := rfl

end Field

/-- A part of a record that is spread over all rows without a field. -/
structure Rest (ρ : Type) where
  {α : Type}
  get : ρ → α
  set : ρ → α → ρ
  spread : α → List (String × Json)
  gather : List (String × Datum) → Option α

namespace Rest

variable {ρ α : Type}

def write (rest : Rest ρ) (r : ρ) : List (String × Json) := rest.spread (rest.get r)

def read (rest : Rest ρ) (rows : List (String × Datum)) (r : ρ) : Option ρ :=
  (rest.gather rows).map (rest.set r)

def table (c : Codec α) (get : ρ → Ordered α) (set : ρ → Ordered α → ρ) : Rest ρ where
  get := get
  set := set
  spread t := t.entries.map fun row => (row.1, c.encode row.2)
  gather rows := do
    let rows ← rows.mapM fun (k, v) => do pure (k, ← c.settled.decode v)
    pure (Ordered.ofRows rows)

def extensions (get : ρ → Ordered Json) (set : ρ → Ordered Json → ρ) : Rest ρ :=
  table Codec.value get set

def dropped : Rest ρ := ⟨fun _ => (), fun r _ => r, fun _ => [], fun _ => some ()⟩

section

variable (c : Codec α) (get : ρ → Ordered α) (set : ρ → Ordered α → ρ) (r : ρ)

@[simp] theorem get_table : (table c get set).get r = get r := rfl

@[simp] theorem set_table (t : Ordered α) : (table c get set).set r t = set r t := rfl

end

variable (get : ρ → Ordered Json) (set : ρ → Ordered Json → ρ) (r : ρ)

@[simp] theorem get_extensions : (extensions get set).get r = get r := rfl

@[simp] theorem set_extensions (t : Ordered Json) : (extensions get set).set r t = set r t := rfl

@[simp] theorem set_dropped (v : (dropped : Rest ρ).α) : dropped.set r v = r := rfl

end Rest

structure Record (ρ : Type) where
  blank : ρ
  fields : List (Field ρ)
  rest : Rest ρ

namespace Record

variable {ρ : Type}

def field? (R : Record ρ) (name : String) : Option (Field ρ) :=
  R.fields.find? fun f => f.name = name

def encode (R : Record ρ) (r : ρ) : Json :=
  .object (R.fields.filterMap (fun f => (f.write r).map fun j => (f.name, j)) ++ R.rest.write r)

def textRows (rows : List (Datum × Datum)) : Option (List (String × Datum)) :=
  rows.mapM fun (k, v) => k.text?.map fun k => (k, v)

def decodeRows (R : Record ρ) (rows : List (String × Datum)) : Option ρ :=
  let known := rows.filter fun row => (R.field? row.1).isSome
  if (known.map Prod.fst).Nodup then do
    let r ← known.foldlM (fun r (k, v) =>
      match R.field? k with
      | some f => f.read v r
      | none => some r) R.blank
    R.rest.read (rows.filter fun row => (R.field? row.1).isNone) r
  else none

def decode (R : Record ρ) (d : Datum) : Option ρ :=
  d.rows?.bind fun rows => (textRows rows).bind R.decodeRows

def codec (R : Record ρ) : Codec ρ := ⟨R.encode, R.decode⟩

end Record

end ApiDoc
