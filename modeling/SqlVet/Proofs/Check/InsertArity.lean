import SqlVet.Validation

/-!
# Columns against values

Which insertions have a value for each column and a column for each value, and what is reported of
the others:

* `surplusAt_eq`: the first surplus column or value stands where the shorter list ends, so that it
  could be looked up by that position without a miss;
* `checkInsertArity_of_lists` and its neighbours: what the check answers and tells, by what it is
  that is inserted;
* `checkInsertArity_by_counts`: so the two counts decide, and nothing else in the insertion does.
-/

namespace SqlVet

/-! ## The reports

What can be wrong with an insertion, with the reports spelled out.
-/

/-- The report of a column without a value. -/
def surplusColumn (c : Spanned String) : Diagnostic where
  code := "42601"
  message := "INSERT has more target columns than expressions"
  hint := none
  location := some c.span.start

/-- The report of a value without a column. -/
def surplusValue (e : Expr) : Diagnostic where
  code := "42601"
  message := "INSERT has more expressions than target columns"
  hint := none
  location := some e.span.start

/-! ## Counts

Dropping from each list as many items as the other has leaves what is too many.
-/

section
variable {columns : List (Spanned String)} {row : List Expr} {d : Diagnostic}

theorem surplus_of_length_lt (h : row.length < columns.length) :
    surplus columns row = some (surplusColumn columns[row.length]) := by
  rw [surplus, List.drop_eq_getElem_cons h]
  rfl

theorem surplus_of_length_gt (h : columns.length < row.length) :
    surplus columns row = some (surplusValue row[columns.length]) := by
  rw [surplus, List.drop_eq_nil_of_le (Nat.le_of_lt h), List.drop_eq_getElem_cons h]
  rfl

theorem surplus_of_length_eq (h : columns.length = row.length) : surplus columns row = none := by
  rw [surplus, List.drop_eq_nil_of_le (Nat.le_of_eq h),
    List.drop_eq_nil_of_le (Nat.le_of_eq h.symm)]

/-- Nothing is reported exactly if the counts are the same. -/
theorem surplus_eq_none_iff : surplus columns row = none ↔ columns.length = row.length := by
  refine ⟨?_, surplus_of_length_eq⟩
  intro h
  rcases Nat.lt_trichotomy columns.length row.length with hlt | heq | hgt
  · rw [surplus_of_length_gt hlt] at h
    cases h
  · exact heq
  · rw [surplus_of_length_lt hgt] at h
    cases h

/-- What is reported stands in the longer list, where the shorter one ends. -/
theorem surplus_eq_some (h : surplus columns row = some d) :
    (∃ c, columns[row.length]? = some c ∧ d = surplusColumn c)
      ∨ ∃ e, row[columns.length]? = some e ∧ d = surplusValue e := by
  rcases Nat.lt_trichotomy columns.length row.length with hlt | heq | hgt
  · rw [surplus_of_length_gt hlt] at h
    cases h
    exact .inr ⟨_, List.getElem?_eq_getElem hlt, rfl⟩
  · rw [surplus_of_length_eq heq] at h
    cases h
  · rw [surplus_of_length_lt hgt] at h
    cases h
    exact .inl ⟨_, List.getElem?_eq_getElem hgt, rfl⟩

/-- Compares the counts, and then looks the surplus up in the longer list by the length of the
shorter one.  There is no answer if nothing is found. -/
def surplusAt (columns : List (Spanned String)) (row : List Expr) : Option (Option Diagnostic) :=
  match compare columns.length row.length with
  | .eq => some none
  | .gt => columns[row.length]?.map fun c => some (surplusColumn c)
  | .lt => row[columns.length]?.map fun e => some (surplusValue e)

/-- Looking the surplus up by its position always finds something, and finds the same. -/
theorem surplusAt_eq (columns : List (Spanned String)) (row : List Expr) :
    surplusAt columns row = some (surplus columns row) := by
  rcases Nat.lt_trichotomy columns.length row.length with hlt | heq | hgt
  · rw [surplusAt, Nat.compare_eq_lt.mpr hlt, surplus_of_length_gt hlt]
    simp only [List.getElem?_eq_getElem hlt, Option.map_some]
  · rw [surplusAt, Nat.compare_eq_eq.mpr heq, surplus_of_length_eq heq]
  · rw [surplusAt, Nat.compare_eq_gt.mpr hgt, surplus_of_length_lt hgt]
    simp only [List.getElem?_eq_getElem hgt, Option.map_some]

end

/-! ## What is inserted

An insertion is of defaults, of a single listed row, or of anything else that a query gives.  The
check looks at the second kind alone.
-/

/-- An insertion of a single row that is listed. -/
def Insert.Lists (i : Insert) (row : List Expr) : Prop :=
  ∃ q, i.source = .select q ∧ q.body = .values [row]

section
variable {i : Insert} {q : Select} {row : List Expr} {d : Diagnostic}

theorem Select.valueRows?_eq_some_iff {rows : List (List Expr)} :
    q.valueRows? = some rows ↔ q.body = .values rows := by
  unfold Select.valueRows?
  cases q.body with
  | values rows' => simp
  | query => simp
  | combine => simp

theorem Insert.query?_of_select (h : i.source = .select q) : i.query? = some q := by
  rw [Insert.query?, h]

theorem Insert.source_cases (i : Insert) :
    i.source = .defaultValues ∨ (∃ q, i.source = .select q ∧ ∀ row, q.body ≠ .values [row])
      ∨ ∃ row, i.Lists row := by
  cases hsource : i.source with
  | defaultValues => exact .inl rfl
  | select q =>
    by_cases hlists : ∃ row, q.body = .values [row]
    · obtain ⟨row, hbody⟩ := hlists
      exact .inr (.inr ⟨row, q, hsource, hbody⟩)
    · exact .inr (.inl ⟨q, rfl, not_exists.mp hlists⟩)

theorem checkInsertArity_of_defaultValues (h : i.source = .defaultValues) :
    checkInsertArity i = ⟨.ok (), []⟩ := by
  have hquery : i.query? = none := by rw [Insert.query?, h]
  rw [checkInsertArity, hquery]
  rfl

/-- An insertion of anything but a single listed row is skipped, and that is told. -/
theorem checkInsertArity_of_not_single (h : i.source = .select q)
    (hbody : ∀ row, q.body ≠ .values [row]) :
    checkInsertArity i = ⟨.ok (), [.insertSkipped i.table.name]⟩ := by
  rw [checkInsertArity, Insert.query?_of_select h]
  match hrows : q.valueRows? with
  | none | some [] | some (_ :: _ :: _) =>
    dsimp only
    rw [hrows]
    rfl
  | some [row] => exact absurd (Select.valueRows?_eq_some_iff.mp hrows) (hbody row)

/-- For a single listed row the counts decide, and a mismatch is told with both of them. -/
theorem checkInsertArity_of_lists (h : i.Lists row) :
    checkInsertArity i =
      match surplus i.columns row with
      | none => ⟨.ok (), []⟩
      | some d =>
        ⟨.error d, [.insertMismatch d.code i.table.name i.columns.length row.length]⟩ := by
  obtain ⟨q, hsource, hbody⟩ := h
  rw [checkInsertArity, Insert.query?_of_select hsource]
  dsimp only
  rw [Select.valueRows?_eq_some_iff.mpr hbody]
  dsimp only
  cases surplus i.columns row <;> rfl

/-- The check reports something only of a single listed row, and then the surplus. -/
theorem checkInsertArity_error_iff :
    (checkInsertArity i).value = .error d ↔
      ∃ row, i.Lists row ∧ surplus i.columns row = some d := by
  constructor
  · intro h
    rcases i.source_cases with hdefault | ⟨q, hsource, hbody⟩ | ⟨row, hrow⟩
    · rw [checkInsertArity_of_defaultValues hdefault] at h
      cases h
    · rw [checkInsertArity_of_not_single hsource hbody] at h
      cases h
    · refine ⟨row, hrow, ?_⟩
      rw [checkInsertArity_of_lists hrow] at h
      cases hsurplus : surplus i.columns row with
      | none =>
        rw [hsurplus] at h
        cases h
      | some e =>
        rw [hsurplus] at h
        cases h
        rfl
  · rintro ⟨row, hrow, hsurplus⟩
    rw [checkInsertArity_of_lists hrow, hsurplus]

/-- The check accepts defaults, what it skips, and a single row with as many values as columns. -/
theorem checkInsertArity_ok_iff :
    (checkInsertArity i).value = .ok () ↔
      i.source = .defaultValues ∨ (∃ q, i.source = .select q ∧ ∀ row, q.body ≠ .values [row])
        ∨ ∃ row, i.Lists row ∧ i.columns.length = row.length := by
  constructor
  · intro h
    rcases i.source_cases with hdefault | hselect | ⟨row, hrow⟩
    · exact .inl hdefault
    · exact .inr (.inl hselect)
    · refine .inr (.inr ⟨row, hrow, surplus_eq_none_iff.mp ?_⟩)
      rw [checkInsertArity_of_lists hrow] at h
      cases hsurplus : surplus i.columns row with
      | none => rfl
      | some d =>
        rw [hsurplus] at h
        cases h
  · rintro (hdefault | ⟨q, hsource, hbody⟩ | ⟨row, hrow, hlength⟩)
    · rw [checkInsertArity_of_defaultValues hdefault]
    · rw [checkInsertArity_of_not_single hsource hbody]
    · rw [checkInsertArity_of_lists hrow, surplus_of_length_eq hlength]

/-- The check reads the columns and the body of the query, and the name of the table to tell it. -/
theorem checkInsertArity_congr {j : Insert} (hcolumns : j.columns = i.columns)
    (htable : j.table = i.table) (hbody : j.query?.map Select.body = i.query?.map Select.body) :
    checkInsertArity j = checkInsertArity i := by
  rw [checkInsertArity, checkInsertArity, hcolumns, htable]
  cases hj : j.query? with
  | none =>
    rw [hj] at hbody
    rw [Option.map_eq_none_iff.mp hbody.symm]
  | some p =>
    rw [hj] at hbody
    obtain ⟨q, hi, hq⟩ := Option.map_eq_some_iff.mp hbody.symm
    have hrows : q.valueRows? = p.valueRows? := by
      rw [Select.valueRows?, Select.valueRows?, hq]
    rw [hi]
    dsimp only
    rw [hrows]

end

/-! ## Where a value is written

A surplus value is pointed at by its own span.  Which one that is is said here for each kind of
expression, next to the definition that the check uses.
-/

/-- The span of an expression: that of the column, of the parameter or of the call that it is, and
else the one written on it.  The spans of what it is made of are none of its own. -/
inductive Expr.WrittenAt : Expr → Span → Prop where
  | literal (value : Literal) (s : Span) : WrittenAt (.literal value s) s
  | column (c : Column) : WrittenAt (.column c) c.span
  | star (table : Option String) (s : Span) : WrittenAt (.star table s) s
  | parameter (p : Parameter) : WrittenAt (.parameter p) p.span
  | call (c : Call) : WrittenAt (.call c) c.span
  | unary (op : UnaryOp) (e : Expr) (s : Span) : WrittenAt (.unary op e s) s
  | binary (op : BinaryOp) (l r : Expr) (s : Span) : WrittenAt (.binary op l r s) s
  | cast (e : Expr) (type : TypeName) (s : Span) : WrittenAt (.cast e type s) s
  | caseOf (e : Option Expr) (arms : List WhenArm) (otherwise : Option Expr) (s : Span) :
      WrittenAt (.caseOf e arms otherwise s) s
  | inList (e : Expr) (items : List Expr) (negated : Bool) (s : Span) :
      WrittenAt (.inList e items negated s) s
  | inQuery (e : Expr) (q : Select) (negated : Bool) (s : Span) :
      WrittenAt (.inQuery e q negated s) s
  | isNull (e : Expr) (negated : Bool) (s : Span) : WrittenAt (.isNull e negated s) s
  | subquery (q : Select) (s : Span) : WrittenAt (.subquery q s) s
  | existence (q : Select) (s : Span) : WrittenAt (.existence q s) s
  | array (items : List Expr) (s : Span) : WrittenAt (.array items s) s
  | row (items : List Expr) (s : Span) : WrittenAt (.row items s) s
  | default (s : Span) : WrittenAt (.default s) s

/-- The span that the check takes is the one that the expression is written at. -/
theorem Expr.writtenAt_span (e : Expr) : e.WrittenAt e.span := by
  cases e <;> constructor

/-- **Counts decide.**  The check accepts exactly the insertions of defaults, those of anything but
a single listed row, and those of a row with as many values as there are columns.  Of any other it
reports what stands, in the longer list, at the length of the shorter one, which is a position of
that list: a column where it is named, a value where it is written.  No other clause plays a
part. -/
theorem checkInsertArity_by_counts (i : Insert) :
    let answer := (checkInsertArity i).value
    (answer = .ok () ↔
        i.source = .defaultValues ∨ (∃ q, i.source = .select q ∧ ∀ row, q.body ≠ .values [row])
          ∨ ∃ row, i.Lists row ∧ i.columns.length = row.length)
      ∧ (∀ row, i.Lists row →
          let least := min i.columns.length row.length
          (row.length < i.columns.length →
            ∃ h : least < i.columns.length, answer = .error (surplusColumn i.columns[least]))
          ∧ (i.columns.length < row.length →
            ∃ (h : least < row.length) (span : Span), row[least].WrittenAt span
              ∧ answer = .error ⟨"42601", "INSERT has more expressions than target columns", none,
                some span.start⟩)
          ∧ surplusAt i.columns row = some (surplus i.columns row))
      ∧ ∀ (q : Select) (ctes : List Cte) (order : List SortKey) (limit offset : Option Expr)
          (conflict : Option Conflict) (returning : List Target),
          i.source = .select q →
          checkInsertArity { i with
              source := .select { q with ctes, order, limit, offset }, conflict, returning } =
            checkInsertArity i := by
  intro answer
  refine ⟨checkInsertArity_ok_iff, ?_, ?_⟩
  · intro row hrow least
    refine ⟨?_, ?_, surplusAt_eq i.columns row⟩
    · intro hlt
      have hleast : least = row.length := Nat.min_eq_right (Nat.le_of_lt hlt)
      -- a bound on the position depends on it, so its value is cleared before it is replaced
      clear_value least
      subst hleast
      refine ⟨hlt, ?_⟩
      exact checkInsertArity_error_iff.mpr ⟨row, hrow, surplus_of_length_lt hlt⟩
    · intro hgt
      have hleast : least = i.columns.length := Nat.min_eq_left (Nat.le_of_lt hgt)
      clear_value least
      subst hleast
      refine ⟨hgt, _, Expr.writtenAt_span _, ?_⟩
      exact checkInsertArity_error_iff.mpr ⟨row, hrow, surplus_of_length_gt hgt⟩
  · intro q ctes order limit offset conflict returning hsource
    refine checkInsertArity_congr ?_ ?_ ?_
    · rfl
    · rfl
    · rw [Insert.query?_of_select hsource]
      rfl

/-- `INSERT INTO t (a, b, c) VALUES (0)` is refused for `b`, also with clauses around the row.
`INSERT INTO t VALUES (-f(), 0)` is refused for all of `-f()`, not for the call in it. -/
theorem checkInsertArity_by_counts_both :
    let table : TableName := ⟨none, "t", none, ⟨12, 13⟩⟩
    let b : Spanned String := ⟨"b", ⟨18, 19⟩⟩
    let columns : List (Spanned String) := [⟨"a", ⟨15, 16⟩⟩, b, ⟨"c", ⟨21, 22⟩⟩]
    let zero : Expr := .literal (.int 0) ⟨32, 33⟩
    let values (row : List Expr) : Select := ⟨[], .values [row], [], none, none, ⟨24, 34⟩⟩
    let more : Insert := ⟨[], table, columns, .select (values [zero]), none, [], ⟨0, 34⟩⟩
    let call : Call := ⟨["f"], [], false, false, [], none, none, ⟨23, 26⟩⟩
    let negated : Expr := .unary .minus (.call call) ⟨22, 26⟩
    let fewer : Insert := ⟨[], table, [], .select (values [negated, zero]), none, [], ⟨0, 30⟩⟩
    let returning : List Target := [⟨.star none ⟨50, 51⟩, none, ⟨50, 51⟩⟩]
    more.Lists [zero] ∧ [zero].length < more.columns.length
      ∧ (checkInsertArity more).value = .error (surplusColumn b)
      ∧ more.source = .select (values [zero])
      ∧ checkInsertArity { more with
          source := .select { values [zero] with limit := some zero }, returning } =
        checkInsertArity more
      ∧ fewer.Lists [negated, zero] ∧ fewer.columns.length < [negated, zero].length
      ∧ (checkInsertArity fewer).value =
        .error ⟨"42601", "INSERT has more expressions than target columns", none, some 22⟩ := by
  intro table b columns zero values more call negated fewer returning
  obtain ⟨-, hmore, hframe⟩ := checkInsertArity_by_counts more
  obtain ⟨-, hfewer, -⟩ := checkInsertArity_by_counts fewer
  have hrow : more.Lists [zero] := ⟨_, rfl, rfl⟩
  have hrow' : fewer.Lists [negated, zero] := ⟨_, rfl, rfl⟩
  have hlt : [zero].length < more.columns.length := by decide
  have hgt : fewer.columns.length < [negated, zero].length := by decide
  obtain ⟨hcolumns, -, -⟩ := hmore _ hrow
  obtain ⟨-, hvalues, -⟩ := hfewer _ hrow'
  obtain ⟨_, hcolumn⟩ := hcolumns hlt
  obtain ⟨_, span, hspan, hvalue⟩ := hvalues hgt
  obtain rfl : span = ⟨22, 26⟩ := by
    cases hspan
    rfl
  exact ⟨hrow, hlt, hcolumn, rfl, hframe _ [] [] (some zero) none none returning rfl, hrow', hgt,
    hvalue⟩

end SqlVet
