import ApiDoc.TypeExpr
import ApiDoc.Document.Basic

/-!
# Types that are known by name

Scalars have a fixed schema. Of the other names some are containers or
wrappers, and the rest is left to the catalog.
-/

set_option autoImplicit false

namespace ApiDoc.Inference

def scalarTable : List (String × Schema) :=
  let whole := Schema.ofFormat .integer
  let string := Schema.ofFormat .string
  [("bool", .ofType .boolean),
    ("f32", .ofFormat .number "float"), ("f64", .ofFormat .number "double"),
    ("Decimal", .ofType .number), ("BigDecimal", .ofType .number),
    ("i8", whole "int32"), ("i16", whole "int32"), ("i32", whole "int32"),
    ("u8", whole "int32"), ("u16", whole "int32"), ("u32", whole "int32"),
    ("i64", whole "int64"), ("i128", whole "int64"), ("u64", whole "int64"),
    ("u128", whole "int64"), ("isize", whole "int64"), ("usize", whole "int64"),
    ("String", .ofType .string), ("str", .ofType .string), ("char", .ofType .string),
    ("NaiveDate", string "date"),
    ("DateTime", string "date-time"), ("NaiveDateTime", string "date-time"),
    ("OffsetDateTime", string "date-time"), ("SystemTime", string "date-time"),
    ("NaiveTime", string "time"), ("Uuid", string "uuid"), ("Url", string "uri"),
    ("Duration", string "duration"), ("Bytes", string "binary")]

def scalar? (t : TypeExpr) : Option Schema :=
  if t.name = "Cow" then
    if t.firstArg?.any (·.name = "str") then some (.ofType .string) else none
  else scalarTable.lookup t.name

/-- A scalar is known by its type and perhaps a format. -/
theorem scalar?_eq_some {t : TypeExpr} {s : Schema} (h : scalar? t = some s) :
    ∃ type format, s = { keywords := { type := some type, format := format } } := by
  have htable : ∀ row ∈ scalarTable,
      ∃ type format, row.2 = { keywords := { type := some type, format := format } } := by
    simp [scalarTable, Schema.ofType, Schema.ofFormat]
  unfold scalar? at h
  split at h
  · split at h
    · cases h
      exact ⟨.string, none, rfl⟩
    · cases h
  · exact htable _ (Ordered.mem_of_lookup h)

inductive Head where
  | option
  /-- A pointer or cell, described as what it holds. -/
  | pointer
  | anything
  | map
  /-- A list or set; a sequence of bytes may be binary text instead. -/
  | sequence (unique binary : Bool)
  | tuple
  | named
  deriving DecidableEq, Repr

def headTable : List (String × Head) :=
  [("Option", .option),
    ("Box", .pointer), ("Arc", .pointer), ("Rc", .pointer), ("Cow", .pointer),
    ("RefCell", .pointer), ("Cell", .pointer), ("Mutex", .pointer), ("RwLock", .pointer),
    ("Value", .anything),
    ("HashMap", .map), ("BTreeMap", .map), ("IndexMap", .map), ("Map", .map),
    ("Vec", .sequence false true), ("VecDeque", .sequence false false),
    ("LinkedList", .sequence false false), ("HashSet", .sequence true false),
    ("BTreeSet", .sequence true false), ("IndexSet", .sequence true false),
    (TypeExpr.sliceName, .sequence false true), (TypeExpr.tupleName, .tuple)]

def Head.ofName (name : String) : Head := (headTable.lookup name).getD .named

end ApiDoc.Inference
