import ApiDoc.Proofs.Pruning.Stateful

/-!
# What a policy is asked about

A policy that keeps every node and writes down what it was asked about. Its record is
the document read from top to bottom: every visited node once, each before the nodes
below it. What is never asked about stands in the header of an encoding or is an
example of a header.
-/

set_option autoImplicit false

namespace ApiDoc

namespace Node

def preorder (n : Node) : List Node :=
  n :: n.rows.attach.flatMap fun row => preorder row.1.2
termination_by n.rank
decreasing_by exact rank_lt row.2

end Node

namespace Row

def visits (rows : List Row) : List Node := rows.flatMap fun row => row.2.preorder

end Row

namespace Node

open Row

theorem preorder_eq (n : Node) : n.preorder = n :: visits n.rows := by
  have hrows : (n.rows.attach.flatMap fun row => row.1.2.preorder) = visits n.rows := by
    rw [← List.flatMap_map Subtype.val fun row : Row => row.2.preorder, List.attach_map_subtype_val,
      visits]
  rw [preorder, hrows]

/-- The nodes on the way from the top are those that stand somewhere below. -/
theorem mem_preorder {n m : Node} : m ∈ n.preorder ↔ n.Holds m := by
  induction n using induct with
  | h n ih =>
    rw [preorder_eq, List.mem_cons, visits, List.mem_flatMap]
    constructor
    · rintro (rfl | ⟨row, hrow, hm⟩)
      · exact .self m
      · exact .child hrow ((ih row hrow).mp hm)
    · rintro (_ | ⟨hrow, hm⟩)
      · exact Or.inl rfl
      · exact Or.inr ⟨_, hrow, (ih _ hrow).mpr hm⟩

end Node

namespace Policy

open Row

abbrev Recorded := StateM (List Node)

def note {α : Type} (n : Node) (x : α) : Recorded α := do
  modify (· ++ [n])
  pure x

def recording : Policy Recorded where
  schema s := note (.schema s) (some s)
  response r := note (.response r) (some r)
  parameter q := note (.parameter q) (some q)
  sample e := note (.sample e) (some e)
  requestBody b := note (.requestBody b) (some b)
  header h := note (.header h) (some h)
  securityScheme s := note (.securityScheme s) (some s)
  link l := note (.link l) (some l)
  callback c := note (.callback c) (some c)
  pathItem path i := note (.pathItem path i) (some i)
  operation o := note (.operation o) (some o)
  server s := note (.server s) (some s)
  tag t := note (.tag t) (some t)
  requirement r := note (.requirement r) (some r)
  document d := pure d

def record (d : OpenApi) : List Node := ((recording.prune d).run []).2

def Records {α : Type} (x : Recorded α) (ns : List Node) : Prop :=
  ∀ log, (x.run log).2 = log ++ ns

/-- The policy keeps every node and has one more in its record. -/
theorem asks_recording (n : Node) (log : List Node) :
    (recording.asks n).run log = (some n, log ++ [n]) := by
  cases n <;> rfl

theorem recording_editsNothing : recording.EditsNothing where
  answer n log a h := by
    rw [asks_recording] at h
    exact (Option.some.inj h).symm
  document _ _ := rfl

/-- What a walk writes down about rows, from what it writes down about their nodes. -/
theorem PassesRows.log_eq {rows rows' : List Row} {log log' : List Node}
    (hnodes : ∀ row ∈ rows, ∀ before left after,
      recording.Passes before row.2 left after → after = before ++ row.2.preorder)
    (h : recording.PassesRows log rows rows' log') : log' = log ++ visits rows := by
  induction rows generalizing log rows' with
  | nil =>
    cases h
    exact (List.append_nil _).symm
  | cons row rows ih =>
    obtain ⟨hone, hrest⟩ := List.forall_mem_cons.mp hnodes
    cases h with
    | cons hrow hrows =>
      rw [ih hrest hrows, hone _ _ _ hrow, List.append_assoc]
      rfl

/-- No node is removed, and the walk goes on below it. -/
theorem Passes.log_eq {n : Node} {left : Option Node} {log log' : List Node}
    (h : recording.Passes log n left log') : log' = log ++ n.preorder := by
  induction n using Node.induct generalizing log left log' with
  | h n ih =>
    cases h with
    | removed hask =>
      rw [asks_recording] at hask
      cases hask
    | kept hask _ hrows =>
      rw [asks_recording] at hask
      cases hask
      have hbelow := hrows.log_eq fun row hrow _ _ _ hpasses => ih row hrow hpasses
      rw [hbelow, Node.preorder_eq, List.append_assoc, List.singleton_append]

theorem records_prune (d : OpenApi) : Records (recording.prune d) (visits d.rows) := by
  intro log
  obtain ⟨left, log', hpasses, hrun⟩ := passes_prune recording_editsNothing d log
  have hend : ((recording.prune d).run log).2 = log' := by
    rw [hrun]
    rfl
  rw [hend, hpasses.log_eq fun _ _ _ _ _ h => h.log_eq]

theorem record_eq (d : OpenApi) : record d = visits d.rows := records_prune d []

theorem mem_record {d : OpenApi} {n : Node} : n ∈ record d ↔ d.Holds n := by
  rw [record_eq, visits, List.mem_flatMap]
  simp only [Node.mem_preorder, OpenApi.Holds]

/-- A policy that keeps everything is asked once about every node that a walk visits,
and about a node before the nodes below it. A node of the document that it is not asked
about stands in the header of an encoding or in an example of a header. -/
theorem record_complete (d : OpenApi) :
    record d = d.rows.flatMap (fun row => row.2.preorder) ∧
    ∀ n, d.Includes n ↔
      n ∈ record d ∨ ∃ a ∈ record d, ∃ row ∈ a.aside, row.2.Includes n := by
  refine ⟨record_eq d, fun n => ?_⟩
  simp only [mem_record]
  constructor
  · rintro ⟨row, hrow, hn⟩
    rcases hn.left with hh | ⟨a, ha, haside⟩
    · exact Or.inl ⟨row, hrow, hh⟩
    · exact Or.inr ⟨a, ⟨row, hrow, ha⟩, haside⟩
  · rintro (⟨row, hrow, hh⟩ | ⟨a, ⟨row, hrow, ha⟩, r, hr, hn⟩)
    · exact ⟨row, hrow, hh.includes⟩
    · exact ⟨row, hrow, ha.includes.trans (.child (List.mem_append_right _ hr) hn)⟩

section Counterexample

def partHeader : Header := { description := some "of the part" }

def formBody : RequestBody where
  content := .ofRows [("multipart/form-data", {
    encoding := .ofRows [("file", { headers := .ofRows [("X-Part", partHeader)] })] })]

def lowRate : Example := { summary := some "Low" }

def rateHeader : Header := { examples := .ofRows [("low", lowRate)] }

def formDocument : OpenApi where
  components := some {
    requestBodies := .ofRows [("Form", formBody)]
    headers := .ofRows [("X-Rate", rateHeader)] }

/-- The header of the part and the example of the header stand in the document, but
nothing is asked about them. -/
theorem headers_passed_by :
    formDocument.Includes (.header partHeader) ∧ Node.header partHeader ∉ record formDocument ∧
    formDocument.Includes (.sample lowRate) ∧ Node.sample lowRate ∉ record formDocument := by
  have hrows : formDocument.rows =
      [(["components", "requestBodies", "Form"], .requestBody formBody),
        (["components", "headers", "X-Rate"], .header rateHeader)] := rfl
  have hbody : (Node.requestBody formBody).preorder = [.requestBody formBody] := Node.preorder_eq _
  have hrate : (Node.header rateHeader).preorder = [.header rateHeader] := Node.preorder_eq _
  have hrecord : record formDocument = [.requestBody formBody, .header rateHeader] := by
    rw [record_eq, hrows, visits, List.flatMap_cons, List.flatMap_cons, hbody, hrate]
    rfl
  have hne : Node.header partHeader ≠ .header rateHeader := by
    intro h
    cases congrArg HeaderOf.description (Node.header.inj h)
  have hpart : (["content", "multipart/form-data", "encoding", "file", "headers", "X-Part"],
      Node.header partHeader) ∈ (Node.requestBody formBody).rows ++
        (Node.requestBody formBody).aside := List.mem_cons_self
  have hlow : (["examples", "low"], Node.sample lowRate) ∈
      (Node.header rateHeader).rows ++ (Node.header rateHeader).aside := List.mem_cons_self
  refine ⟨⟨_, by rw [hrows]; exact List.mem_cons_self, .child hpart (.self _)⟩, ?_,
    ⟨_, by rw [hrows]; exact List.mem_cons_of_mem _ List.mem_cons_self, .child hlow (.self _)⟩, ?_⟩
  · simpa [hrecord] using hne
  · simp [hrecord]

end Counterexample

end Policy

end ApiDoc
