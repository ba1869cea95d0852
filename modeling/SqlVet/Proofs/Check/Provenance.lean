import SqlVet.Diagnostic.Report
import SqlVet.Proofs.Catalog.Agreement
import SqlVet.Proofs.Check.InsertArity
import SqlVet.Proofs.Check.Parameters
import SqlVet.Proofs.Check.Validation

/-!
# Where reports come from

A validation reports one of seven things, each about something that is in the statement:

* `Provenance`: the reports with what they are about;
* `Provenance.code`, `Provenance.hint_iff`: codes and hints, which follow from that;
* `Provenance.mem_places`: a report that points at a place points at the beginning of a column, of a
  value or of a call of the statement;
* `Provenance.reportAgainst`: so it is shown as it is, against any text the statement fits in;
* `validate_error_provenance`: all of this of what a validation reports.
-/

namespace SqlVet

/-! ## Reports and what they are about

One constructor for each report, with what in the statement or in the registry has caused it.
-/

/-- What a validation reports of a statement, and of what in it. -/
inductive Provenance (r : Registry) (s : Statement) : Diagnostic → Prop where
  | parameter {number : Nat} (pos : 0 < number) (unused : number ∉ s.numberSet) :
      Provenance r s (unusedParameter number)
  /-- The first column behind those that have a value. -/
  | column {i : Insert} {q : Select} {row : List Expr} {c : Spanned String}
      (insertion : s = .insert i) (query : i.query? = some q) (single : q.valueRows? = some [row])
      (surplus : i.columns[row.length]? = some c) : Provenance r s (surplusColumn c)
  /-- The first value behind those that have a column. -/
  | value {i : Insert} {q : Select} {row : List Expr} {e : Expr}
      (insertion : s = .insert i) (query : i.query? = some q) (single : q.valueRows? = some [row])
      (surplus : row[i.columns.length]? = some e) : Provenance r s (surplusValue e)
  | overload {c : Call} {base : String} (call : c ∈ s.calls) (named : c.baseName? = some base) :
      Provenance r s (c.noOverload base)
  | improperName {c : Call} (call : c ∈ s.calls)
      (length : ¬ (1 ≤ c.name.length ∧ c.name.length ≤ 3)) :
      Provenance r s (FunctionName.improper c.name)
  | unknownSchema {c : Call} {n : FunctionName} {schema : String} (call : c ∈ s.calls)
      (named : FunctionName.ofParts c.name = .ok n) (inSchema : n.schema = some schema)
      (missing : r.hasSchema schema = false) : Provenance r s (Registry.unknownSchema schema)
  | otherDatabase {c : Call} {database schema base : String} (call : c ∈ s.calls)
      (named : c.name = [database, schema, base]) (foreign : database ≠ r.settings.database) :
      Provenance r s (Registry.otherDatabase database schema base)

/-! ## What is reported

For each check, the ways in which it refuses a statement lead back to something that is in it.
-/

section
variable {r : Registry} {checks : Checks} {s : Statement} {c : Call} {d : Diagnostic}

/-- A call is refused for its name, for what the registry says of the name, or for its overloads. -/
theorem Call.Refused.provenance (hc : c ∈ s.calls) (h : c.Refused r.resolve d) :
    Provenance r s d := by
  cases h with
  | name hname =>
    obtain ⟨hlength, rfl⟩ := FunctionName.ofParts_eq_error_iff.mp hname
    exact .improperName hc hlength
  | @lookup n _ hname hlookup =>
    rcases Registry.resolve_eq_error_iff.mp hlookup with hd | ⟨-, schema, hschema, hmissing, rfl⟩
    · obtain ⟨hforeign, rfl⟩ := Registry.requireDatabase_eq_error_iff.mp hd
      obtain ⟨hscoped, hparts⟩ := FunctionName.ofParts_eq_ok_iff.mp hname
      obtain ⟨database, schema, hn, hne⟩ := FunctionName.exists_parts_of_foreign hscoped hforeign
      rw [hn] at hparts ⊢
      exact .otherDatabase hc hparts.symm hne
    · exact .unknownSchema hc hname hschema hmissing
  | arity _ _ _ _ hbase => exact .overload hc hbase

/-- Whatever a check refuses a statement for is one of the seven things. -/
theorem Checks.Refuses.provenance {check : Check} (h : checks.Refuses r.resolve s check d) :
    Provenance r s d := by
  cases h with
  | parameters _ refused =>
    rw [checkParameters_eq] at refused
    cases hgap : gapUpTo s.numberSet s.numberSet.card with
    | none =>
      rw [hgap] at refused
      cases refused
    | some number =>
      rw [hgap] at refused
      cases refused
      obtain ⟨⟨⟨hpos, hunused⟩, -⟩, -⟩ := gapUpTo_eq_some_iff.mp hgap
      exact .parameter hpos hunused
  | insertArity _ applies refused =>
    obtain ⟨row, ⟨q, hsource, hbody⟩, hsurplus⟩ := checkInsertArity_error_iff.mp refused
    have hq := Insert.query?_of_select hsource
    have hrows := Select.valueRows?_eq_some_iff.mpr hbody
    rcases surplus_eq_some hsurplus with ⟨c, hc, rfl⟩ | ⟨e, he, rfl⟩
    · exact .column applies hq hrows hc
    · exact .value applies hq hrows he
  | calls _ refused =>
    obtain ⟨before, c, after, hsplit, -, hc⟩ := checkCalls_error_iff.mp refused
    apply hc.provenance
    rw [hsplit]
    exact List.mem_append_right before List.mem_cons_self

/-! ## Codes and hints

The kind of a report tells its code, and the code tells whether there is advice.
-/

/-- Only a call that no overload fits comes with advice. -/
theorem Provenance.exists_sqlState (h : Provenance r s d) :
    ∃ state : SqlState, d.code = state.code
      ∧ (d.hint ≠ none ↔ state = .undefinedFunction) := by
  cases h with
  | parameter => exact ⟨.indeterminateDatatype, rfl, fun h => absurd rfl h, nofun⟩
  | overload => exact ⟨.undefinedFunction, rfl, fun _ => rfl, fun _ => nofun⟩
  | column | value | improperName =>
    exact ⟨.syntaxError, rfl, fun h => absurd rfl h, nofun⟩
  | unknownSchema => exact ⟨.invalidSchemaName, rfl, fun h => absurd rfl h, nofun⟩
  | otherDatabase => exact ⟨.featureNotSupported, rfl, fun h => absurd rfl h, nofun⟩

theorem Provenance.code (h : Provenance r s d) : ∃ state : SqlState, d.code = state.code := by
  obtain ⟨state, hcode, -⟩ := h.exists_sqlState
  exact ⟨state, hcode⟩

/-- There is a hint if the code is that of an undefined function, and not otherwise. -/
theorem Provenance.hint_iff (h : Provenance r s d) : d.hint ≠ none ↔ d.code = "42883" := by
  obtain ⟨state, hcode, hhint⟩ := h.exists_sqlState
  rw [hhint, hcode]
  constructor
  · rintro rfl
    rfl
  · intro hstate
    exact SqlState.code_injective (t := .undefinedFunction) hstate

end

/-! ## Places

A report that points somewhere points at the beginning of a column or of a node.
-/

/-- The columns that a statement names as those it inserts into. -/
def Statement.targetColumns : Statement → List (Spanned String)
  | .insert i => i.columns
  | .select _ | .update _ | .delete _ => []

/-- Where the nodes of a statement and its target columns begin. -/
def Statement.places (s : Statement) : List Nat :=
  (s.nodes.map fun n => n.span.start) ++ s.targetColumns.map fun c => c.span.start

/-- No node and no target column begins behind the end of a text.  The other spans of a statement do
not matter, since no report points at them. -/
def Statement.FitsIn (s : Statement) (source : SourceText) : Prop :=
  ∀ place ∈ s.places, place ≤ source.content.utf8ByteSize

theorem Expr.span_node (e : Expr) : e.node.span = e.span := by
  cases e <;> rfl

section
variable {r : Registry} {s : Statement} {d : Diagnostic}

theorem Statement.mem_places_of_node {n : Node} (h : n ∈ s.nodes) : n.span.start ∈ s.places :=
  List.mem_append_left _ (List.mem_map_of_mem h)

/-- The values of the rows that an insertion lists are nodes of it. -/
theorem Insert.node_mem_nodes {i : Insert} {q : Select} {rows : List (List Expr)}
    {row : List Expr} {e : Expr} (hquery : i.query? = some q) (hrows : q.valueRows? = some rows)
    (hrow : row ∈ rows) (he : e ∈ row) : e.node ∈ (Statement.insert i).nodes := by
  have hinsert : Node.insert i ∈ (Statement.insert i).nodes := by
    apply Node.mem_preorder_of_child (Node.mem_preorder_self _)
    exact List.mem_singleton_self _
  have hselect : Node.select q ∈ (Statement.insert i).nodes := by
    apply Node.mem_preorder_of_child hinsert
    show Node.select q ∈ i.children
    simp [Insert.children, hquery]
  apply Node.mem_preorder_of_child hselect
  show e.node ∈ q.children
  have hbody : q.body = .values rows := Select.valueRows?_eq_some_iff.mp hrows
  have hvalue : e.node ∈ exprNodes rows.flatten :=
    List.mem_map_of_mem (List.mem_flatten_of_mem hrow he)
  simp [Select.children, hbody, Body.children, hvalue]

/-- What is pointed at is a place of the statement. -/
theorem Provenance.mem_places (h : Provenance r s d) {place : Nat}
    (hplace : d.location = some place) : place ∈ s.places := by
  cases h with
  | parameter | improperName | unknownSchema | otherDatabase => cases hplace
  | column insertion _ _ surplus =>
    cases hplace
    subst insertion
    apply List.mem_append_right
    exact List.mem_map_of_mem (List.mem_of_getElem? surplus)
  | @value i q row e insertion query single surplus =>
    cases hplace
    subst insertion
    have hnode : e.node ∈ (Statement.insert i).nodes :=
      Insert.node_mem_nodes query single (List.mem_singleton_self row)
        (List.mem_of_getElem? surplus)
    rw [← e.span_node]
    exact Statement.mem_places_of_node hnode
  | overload call _ =>
    cases hplace
    exact Statement.mem_places_of_node (Statement.call_mem_nodes call)

/-- A report is shown as it is against a text that the statement fits in. -/
theorem Provenance.reportAgainst (h : Provenance r s d) {source : SourceText}
    (hfits : s.FitsIn source) : d.reportAgainst source = ⟨d, source⟩ := by
  cases hplace : d.location with
  | none => exact Diagnostic.reportAgainst_of_none hplace
  | some place =>
    apply Diagnostic.reportAgainst_of_le hplace
    exact hfits place (h.mem_places hplace)

end

/-- What a validation reports is one of seven things: a parameter that is left out; a column or a
value too many in an insertion of one row; or of one of the calls, that no overload takes its
arguments, that its name is improper, that its schema does not exist or that its database is another
one.  So it has one of the codes of this library, and advice exactly if it is about the arguments of
a call.  Against a text that the statement fits in it is shown as it is. -/
theorem validate_error_provenance (r : Registry) (checks : Checks) (s : Statement)
    {d : Diagnostic} (h : (validate checks r.resolve s).value = .error d) :
    Provenance r s d
      ∧ (∃ state : SqlState, d.code = state.code)
      ∧ (d.hint ≠ none ↔ d.code = "42883")
      ∧ ∀ source, s.FitsIn source → d.reportAgainst source = ⟨d, source⟩ := by
  obtain ⟨check, hcheck⟩ := validate_error_iff.mp h
  have hprovenance : Provenance r s d := hcheck.refuses.provenance
  refine ⟨hprovenance, hprovenance.code, hprovenance.hint_iff, ?_⟩
  intro source hfits
  exact hprovenance.reportAgainst hfits

/-- `INSERT INTO t (a, b) VALUES (0)` is refused for `b`, and shown so against its own text. -/
theorem validate_error_provenance_insert :
    let r : Registry := .ofSettings ⟨"db", ["app"]⟩
    let b : Spanned String := ⟨"b", ⟨18, 19⟩⟩
    let row : List Expr := [.literal (.int 0) ⟨29, 30⟩]
    let s : Statement := .insert ⟨[], ⟨none, "t", none, ⟨12, 13⟩⟩, [⟨"a", ⟨15, 16⟩⟩, b],
      .select ⟨[], .values [row], [], none, none, ⟨21, 31⟩⟩, none, [], ⟨0, 31⟩⟩
    let source : SourceText := ⟨"INSERT INTO t (a, b) VALUES (0)", none⟩
    (validate {} r.resolve s).value = .error (surplusColumn b)
      ∧ Provenance r s (surplusColumn b) ∧ s.FitsIn source
      ∧ (surplusColumn b).reportAgainst source = ⟨surplusColumn b, source⟩ := by
  intro r b row s source
  have hrefused : (validate {} r.resolve s).value = .error (surplusColumn b) := by
    decide +kernel
  have hfits : s.FitsIn source := by
    unfold Statement.FitsIn
    decide +kernel
  obtain ⟨hprovenance, -, -, hshown⟩ := validate_error_provenance r {} s hrefused
  exact ⟨hrefused, hprovenance, hfits, hshown source hfits⟩

end SqlVet
