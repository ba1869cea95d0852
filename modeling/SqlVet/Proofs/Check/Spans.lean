import SqlVet.Proofs.Check.Validation
import SqlVet.Proofs.Check.Parameters
import SqlVet.Proofs.Tree.Erasure

/-!
# Spans only tell places

A check uses a span for nothing but the place that its report points at.  Two runs of a check agree
if they tell the same events and come to the same result, places apart (`Logged.Agree`).

* `checkParameters_erase`, `checkInsertArity_erase`, `checkCalls_erase`, `validate_erase`: a run on
  an erased statement agrees with the run on the statement;
* `agree_of_erase_eq`: so do the runs on two statements that differ in their spans at most.
-/

namespace SqlVet

/-! ## Runs that differ in places

The relation between two runs that is kept by every step of a check, and so by checks in turn.
-/

/-- Two reports that differ at most in their place.  Either both have one or none has. -/
structure Diagnostic.SameButPlace (d e : Diagnostic) : Prop where
  code : d.code = e.code
  message : d.message = e.message
  hint : d.hint = e.hint
  location : d.location.isSome = e.location.isSome

inductive SameOutcome : Except Diagnostic Unit → Except Diagnostic Unit → Prop where
  | accepted : SameOutcome (.ok ()) (.ok ())
  | refused {d e : Diagnostic} (h : d.SameButPlace e) : SameOutcome (.error d) (.error e)

namespace Logged

/-- Two runs that tell the same and come to the same, places apart. -/
structure Agree (x y : Logged (Except Diagnostic Unit)) : Prop where
  log : x.log = y.log
  value : SameOutcome x.value y.value

namespace Agree

variable {x y z : Logged (Except Diagnostic Unit)}

theorem refl (x : Logged (Except Diagnostic Unit)) : x.Agree x := by
  refine ⟨rfl, ?_⟩
  cases x.value with
  | ok u => exact .accepted
  | error d => exact .refused ⟨rfl, rfl, rfl, rfl⟩

theorem symm (h : x.Agree y) : y.Agree x := by
  refine ⟨h.log.symm, ?_⟩
  obtain ⟨-, hv⟩ := h
  generalize x.value = v, y.value = w at *
  cases hv with
  | accepted => exact .accepted
  | refused h => exact .refused ⟨h.code.symm, h.message.symm, h.hint.symm, h.location.symm⟩

theorem trans (hxy : x.Agree y) (hyz : y.Agree z) : x.Agree z := by
  refine ⟨hxy.log.trans hyz.log, ?_⟩
  obtain ⟨-, hv⟩ := hxy
  obtain ⟨-, hw⟩ := hyz
  generalize x.value = v, y.value = w, z.value = u at *
  cases hv with
  | accepted => exact hw
  | refused h =>
    cases hw with
    | refused h' =>
      exact .refused ⟨h.code.trans h'.code, h.message.trans h'.message, h.hint.trans h'.hint,
        h.location.trans h'.location⟩

/-- Runs agree that begin in the same way and agree from there on. -/
theorem bind {α : Type} (x : Logged α) {f g : α → Logged (Except Diagnostic Unit)}
    (h : (f x.value).Agree (g x.value)) : (x >>= f).Agree (x >>= g) :=
  ⟨congrArg (x.log ++ ·) h.log, h.value⟩

end Agree

end Logged

open Logged (Agree)

/-- **Runs in turn.**  If the steps agree on each item, the runs agree: they stop at the same item,
or not at all. -/
theorem agree_inTurn {α : Type} {step step' : α → Logged (Except Diagnostic Unit)}
    (h : ∀ a, (step a).Agree (step' a)) (as : List α) :
    (inTurn step as).Agree (inTurn step' as) := by
  induction as with
  | nil => exact .refl _
  | cons a as ih =>
    obtain ⟨hlog, hvalue⟩ := h a
    cases hv : (step a).value with
    | error d =>
      cases hv' : (step' a).value with
      | error d' =>
        rw [inTurn_cons_of_error hv, inTurn_cons_of_error hv']
        rw [hv, hv'] at hvalue
        exact ⟨hlog, hvalue⟩
      -- one run cannot stop where the other goes on
      | ok u =>
        rw [hv, hv'] at hvalue
        cases hvalue
    | ok u =>
      cases hv' : (step' a).value with
      | error d' =>
        rw [hv, hv'] at hvalue
        cases hvalue
      | ok u' =>
        rw [inTurn_cons_of_ok hv, inTurn_cons_of_ok hv']
        refine ⟨?_, ih.value⟩
        show (step a).log ++ _ = (step' a).log ++ _
        rw [hlog, ih.log]

/-! ## Parameters

The numbers of parameters are no spans.
-/

theorem Node.number?_erase (n : Node) :
    n.erase.parameter?.map Parameter.number = n.parameter?.map Parameter.number := by
  cases n <;> rfl

theorem Statement.numbers_erase (s : Statement) : s.erase.numbers = s.numbers := by
  rw [← filterMap_number?_nodes, ← filterMap_number?_nodes, nodes_erase, List.filterMap_map]
  exact congrArg (List.filterMap · s.nodes) (funext Node.number?_erase)

theorem Statement.parameterNumbers_erase (s : Statement) :
    s.erase.parameterNumbers = s.parameterNumbers := by
  rw [parameterNumbers, parameterNumbers, parameterUses_eq, parameterUses_eq, numbers_erase]

/-- A missing parameter has no place, so nothing differs at all. -/
theorem checkParameters_erase (s : Statement) : checkParameters s.erase = checkParameters s := by
  rw [checkParameters, checkParameters, s.parameterNumbers_erase]

/-! ## Columns and values

The counts of an insertion do not depend on spans, but where the surplus is pointed at does.
-/

/-- The rows of a query are the same rows, erased. -/
theorem Select.valueRows?_erase (q : Select) :
    q.erase.valueRows? = q.valueRows?.map fun rows => rows.map fun row => row.map Expr.erase := by
  obtain ⟨ctes, body, order, limit, offset, span⟩ := q
  cases body with
  | values rows => exact congrArg some (Expr.eraseRows_eq rows)
  | query distinct targets sources condition groups having => rfl
  | combine op all left right => rfl

/-- Only how many columns and values there are decides. -/
theorem surplus_erase (columns : List (Spanned String)) (row : List Expr) :
    Option.Rel Diagnostic.SameButPlace
      (surplus (columns.map Spanned.erase) (row.map Expr.erase)) (surplus columns row) := by
  unfold surplus
  rw [List.length_map, List.length_map, ← List.map_drop, ← List.map_drop]
  cases columns.drop row.length with
  | cons c cs => exact .some ⟨rfl, rfl, rfl, rfl⟩
  | nil =>
    cases row.drop columns.length with
    | cons e es => exact .some ⟨rfl, rfl, rfl, rfl⟩
    | nil => exact .none

/-- The check of an insertion agrees with that of the erased one. -/
theorem checkInsertArity_erase (i : Insert) :
    (checkInsertArity i.erase).Agree (checkInsertArity i) := by
  have htable : i.erase.table.name = i.table.name := rfl
  have hcolumns : i.erase.columns = i.columns.map Spanned.erase := rfl
  rw [checkInsertArity, checkInsertArity, Insert.query?_erase, htable, hcolumns]
  cases i.query? with
  | none => exact .refl _
  | some q =>
    rw [Option.map_some]
    dsimp only
    rw [q.valueRows?_erase]
    match q.valueRows? with
    | none => exact .refl _
    | some [] => exact .refl _
    | some (_ :: _ :: _) => exact .refl _
    | some [row] =>
      have hsurplus := surplus_erase i.columns row
      rw [Option.map_some, List.map_cons, List.map_nil]
      dsimp only
      rw [List.length_map, List.length_map]
      -- what was found is told by its code, which is the same for both
      generalize surplus (i.columns.map Spanned.erase) (row.map Expr.erase) = found,
        surplus i.columns row = found' at hsurplus ⊢
      cases hsurplus with
      | none => exact .refl _
      | @some d d' h =>
        dsimp only
        rw [h.code]
        exact .bind _ ⟨rfl, .refused h⟩

/-! ## Calls

Of a call the check uses the name and the number of arguments, and its span for the report.
-/

theorem Call.name_erase (c : Call) : c.erase.name = c.name := by
  cases c
  rfl

theorem Call.length_args_erase (c : Call) : c.erase.args.length = c.args.length := by
  cases c
  simp [Call.erase, Expr.eraseAll_eq]

/-- The check of a call agrees with that of the erased one. -/
theorem checkCall_erase (catalog : Catalog) (c : Call) :
    (checkCall catalog c.erase).Agree (checkCall catalog c) := by
  rw [checkCall, checkCall, c.name_erase, c.length_args_erase]
  cases FunctionName.ofParts c.name with
  | error d => exact .refl _
  | ok name =>
    apply Agree.bind
    cases (catalog name).value with
    | error d => exact .refl _
    | ok overloads =>
      cases overloads with
      | nil => exact .refl _
      | cons first others =>
        dsimp only
        split
        · exact .refl _
        -- here alone a span shows, and only where it begins
        · exact .bind _ ⟨rfl, .refused ⟨rfl, rfl, rfl, rfl⟩⟩

theorem Node.call?_erase (n : Node) : n.erase.call? = n.call?.map Call.erase := by
  cases n <;> rfl

/-- The calls of the erased statement are the calls, erased, in the same order. -/
theorem Statement.calls_erase (s : Statement) : s.erase.calls = s.calls.map Call.erase := by
  rw [← filterMap_call?_nodes, ← filterMap_call?_nodes, nodes_erase, List.filterMap_map,
    List.map_filterMap]
  exact congrArg (List.filterMap · s.nodes) (funext Node.call?_erase)

theorem inTurn_map {α β : Type} (step : β → Logged (Except Diagnostic Unit)) (f : α → β)
    (as : List α) : inTurn step (as.map f) = inTurn (fun a => step (f a)) as := by
  induction as with
  | nil => rfl
  | cons a as ih => rw [List.map_cons, inTurn, inTurn, ih]

/-- The check of the calls agrees with that of the erased statement. -/
theorem checkCalls_erase (catalog : Catalog) (s : Statement) :
    (checkCalls catalog s.erase).Agree (checkCalls catalog s) := by
  rw [checkCalls_eq_inTurn, checkCalls_eq_inTurn, s.calls_erase, inTurn_map]
  exact agree_inTurn (checkCall_erase catalog) s.calls

/-! ## Validations

What each check does, all of them in turn do.
-/

/-- Each check agrees with its run on the erased statement. -/
theorem Check.run_erase (catalog : Catalog) (s : Statement) (c : Check) :
    (c.run catalog s.erase).Agree (c.run catalog s) := by
  cases c with
  | parameters =>
    show (checkParameters s.erase).Agree (checkParameters s)
    rw [checkParameters_erase]
    exact .refl _
  | insertArity =>
    cases s with
    | insert i => exact checkInsertArity_erase i
    | select q => exact .refl _
    | update u => exact .refl _
    | delete d => exact .refl _
  | calls => exact checkCalls_erase catalog s

/-- So does each validation. -/
theorem validate_erase (checks : Checks) (catalog : Catalog) (s : Statement) :
    (validate checks catalog s.erase).Agree (validate checks catalog s) := by
  rw [validate, validate]
  exact agree_inTurn (Check.run_erase catalog s) checks.selected

/-- Statements that differ in their spans at most use the same parameters and are checked alike: by
each check and by every validation, with the same events and the same reports, places apart. -/
theorem agree_of_erase_eq {s t : Statement} (h : s.erase = t.erase) (checks : Checks)
    (catalog : Catalog) :
    s.parameterNumbers = t.parameterNumbers
      ∧ checkParameters s = checkParameters t
      ∧ (∀ i, s = .insert i → ∃ j, t = .insert j ∧ (checkInsertArity i).Agree (checkInsertArity j))
      ∧ (checkCalls catalog s).Agree (checkCalls catalog t)
      ∧ (validate checks catalog s).Agree (validate checks catalog t) := by
  refine ⟨?_, ?_, ?_, ?_, ?_⟩
  · rw [← s.parameterNumbers_erase, ← t.parameterNumbers_erase, h]
  · rw [← checkParameters_erase s, ← checkParameters_erase t, h]
  · intro i hi
    subst hi
    cases t with
    | insert j =>
      have hij : i.erase = j.erase := Statement.insert.inj h
      refine ⟨j, rfl, (checkInsertArity_erase i).symm.trans ?_⟩
      rw [hij]
      exact checkInsertArity_erase j
    | select q => cases h
    | update u => cases h
    | delete d => cases h
  · apply (checkCalls_erase catalog s).symm.trans
    rw [h]
    exact checkCalls_erase catalog t
  · apply (validate_erase checks catalog s).symm.trans
    rw [h]
    exact validate_erase checks catalog t

/-- `INSERT INTO t (a) VALUES (f($1), 2)` with its spans as they are and turned around.  Where `f`
takes two arguments, the surplus value and the call are refused in both, at different places. -/
theorem agree_of_erase_eq_insert :
    let catalog : Catalog := fun _ => pure (.ok [.ofCount "f" 2 "text"])
    let insert (span : Nat → Nat → Span) : Insert :=
      let p : Expr := .parameter ⟨1, span 28 30⟩
      let f : Call := ⟨["f"], [p], false, false, [], none, none, span 26 31⟩
      let row : List Expr := [.call f, .literal (.int 2) (span 33 34)]
      ⟨[], ⟨none, "t", none, span 12 13⟩, [⟨"a", span 15 16⟩],
        .select ⟨[], .values [row], [], none, none, span 18 35⟩, none, [], span 0 35⟩
    let i := insert fun first last => ⟨first, last⟩
    let j := insert fun first last => ⟨last, first⟩
    let s : Statement := .insert i
    let t : Statement := .insert j
    s.erase = t.erase
      ∧ (checkInsertArity i).Agree (checkInsertArity j)
      ∧ (checkInsertArity i).value ≠ (checkInsertArity j).value
      ∧ (checkCalls catalog s).Agree (checkCalls catalog t)
      ∧ (checkCalls catalog s).value ≠ (checkCalls catalog t).value
      ∧ (validate {} catalog s).Agree (validate {} catalog t) := by
  intro catalog insert i j s t
  have hst : s.erase = t.erase := rfl
  obtain ⟨-, -, hinsert, hcalls, hvalidate⟩ := agree_of_erase_eq hst {} catalog
  obtain ⟨k, hk, harity⟩ := hinsert i rfl
  rw [← Statement.insert.inj hk] at harity
  refine ⟨hst, harity, ?_, hcalls, ?_, hvalidate⟩
  · decide +kernel
  · rw [checkCalls_eq_inTurn, checkCalls_eq_inTurn]
    decide +kernel

end SqlVet
