import SqlVet.Catalog.Basic
import SqlVet.Tree.Walk
import Std.Data.TreeSet

/-!
# Validating statements

Three checks, each of which accepts a statement or refuses it with a report, and their runs in turn:

* `checkParameters`: the parameters of a statement are numbered without a gap;
* `checkInsertArity`: an insertion of one row has as many values as columns;
* `checkCalls`: each call has an overload that takes its arguments;
* `validate`: runs those that are asked for, up to the first that refuses the statement.
-/

namespace SqlVet

open Std (TreeSet)

/-! ## Parameter numbering

A statement that uses parameters has to use all of them from `$1` on: nothing else tells a type.
-/

namespace Statement

/-- The parameter numbers used in a statement, in the order of the nodes. -/
def parameterUses (s : Statement) : List Nat :=
  Collector.gather (Collector.stateless fun n => n.parameter?.map Parameter.number) () s

/-- The parameter numbers used in a statement, each once. -/
def parameterNumbers (s : Statement) : TreeSet Nat :=
  TreeSet.ofList s.parameterUses

end Statement

/-- The smallest number from one up to the size of a set of numbers that the set lacks.  A zero in
the set makes it larger without filling a place, so one of those numbers is lacking then. -/
def firstGap (numbers : TreeSet Nat) : Option Nat :=
  (List.range' 1 numbers.size).find? fun k => !numbers.contains k

/-- Refuses a statement that leaves a parameter number out, and names the smallest one. -/
def checkParameters (s : Statement) : Logged (Except Diagnostic Unit) := do
  let numbers := s.parameterNumbers
  match firstGap numbers with
  | none => return .ok ()
  | some number =>
    let d := (Cause.unusedParameter number).diagnostic none
    Logged.tell (.parameterGap d.code number numbers.size)
    return .error d

/-! ## Columns and values of an insertion

An insertion that lists a single row must give one value for each column that it names.  Naming no
columns counts as naming none of them, not as naming them all.
-/

/-- Compares target columns with the values of a row.  What is refused is the first column without a
value or the first value without a column, and it is pointed at. -/
def surplus (columns : List (Spanned String)) (row : List Expr) : Option Diagnostic :=
  match columns.drop row.length, row.drop columns.length with
  | c :: _, _ => some (Cause.surplusColumns.diagnostic (some c.span.start))
  | [], e :: _ => some (Cause.surplusValues.diagnostic (some e.span.start))
  | [], [] => none

/-- Refuses an insertion of a single row that does not fit its columns.  Rows that a query computes,
the row of defaults, and any other number of listed rows are accepted. -/
def checkInsertArity (i : Insert) : Logged (Except Diagnostic Unit) := do
  match i.query? with
  | none => return .ok ()
  | some q =>
    match q.valueRows? with
    | some [row] =>
      match surplus i.columns row with
      | none => return .ok ()
      | some d =>
        Logged.tell (.insertMismatch d.code i.table.name i.columns.length row.length)
        return .error d
    | _ =>
      Logged.tell (.insertSkipped i.table.name)
      return .ok ()

/-! ## Function calls

Every call in a statement must have an overload that takes as many arguments as it is given.  A
function that the catalog does not know is accepted, since nobody may have told the catalog about
it; the calls inside its arguments are checked all the same.
-/

/-- Checks one call by itself, without what is below it. -/
def checkCall (catalog : Catalog) (c : Call) : Logged (Except Diagnostic Unit) := do
  match FunctionName.ofParts c.name with
  | .error d => return .error d
  | .ok name =>
    match ← catalog name with
    | .error d => return .error d
    | .ok [] =>
      Logged.tell (.unknownFunction name.text)
      return .ok ()
    | .ok overloads =>
      if overloads.any fun s => s.arity = c.args.length then
        return .ok ()
      else
        Logged.tell (.noOverload name.text c.args.length overloads.length)
        return .error ((Cause.noOverload name.base c.args.length).diagnostic (some c.span.start))

namespace CallCheck

/-- Checks the calls of a walk as it meets them.  The state is what has been told so far; the walk
ends with the report of the first call that is refused. -/
def visitor (catalog : Catalog) : Visitor (Array Event) Diagnostic := fun n log =>
  match n.call? with
  | none => (.into, log)
  | some c =>
    let checked := checkCall catalog c
    let log := log ++ checked.log
    match checked.value with
    | .ok () => (.into, log)
    | .error d => (.stop d, log)

end CallCheck

/-- Checks the calls of a statement in the order of its nodes, up to the first that is refused. -/
def checkCalls (catalog : Catalog) (s : Statement) : Logged (Except Diagnostic Unit) :=
  match walk (CallCheck.visitor catalog) (.statement s) #[] with
  | (some d, log) => ⟨.error d, log.toList⟩
  | (none, log) => ⟨.ok (), log.toList⟩

/-! ## Checks in turn

The checks that are asked for run in a fixed order.
-/

inductive Check where
  | parameters | insertArity | calls
deriving DecidableEq

namespace Check

/-- The order in which checks run. -/
def all : List Check := [.parameters, .insertArity, .calls]

/-- Runs one check.  A check that does not apply to a statement accepts it. -/
def run (catalog : Catalog) (s : Statement) : Check → Logged (Except Diagnostic Unit)
  | .parameters => checkParameters s
  | .insertArity =>
    match s with
    | .insert i => checkInsertArity i
    | .select _ | .update _ | .delete _ => pure (.ok ())
  | .calls => checkCalls catalog s

end Check

/-- Takes a step for each item, up to the first that is refused, and keeps what is told on the
way. -/
def inTurn {α : Type} (step : α → Logged (Except Diagnostic Unit)) :
    List α → Logged (Except Diagnostic Unit)
  | [] => pure (.ok ())
  | a :: as => do
    match ← step a with
    | .error d => return .error d
    | .ok () => inTurn step as

/-- Which checks are asked for. -/
structure Checks where
  parameters : Bool := true
  insertArity : Bool := true
  calls : Bool := true
deriving DecidableEq

namespace Checks

def includes (cs : Checks) : Check → Bool
  | .parameters => cs.parameters
  | .insertArity => cs.insertArity
  | .calls => cs.calls

/-- The checks that are asked for, in the order in which they run. -/
def selected (cs : Checks) : List Check := Check.all.filter cs.includes

end Checks

/-- Validates a statement: the report of the first selected check that refuses it. -/
def validate (checks : Checks) (catalog : Catalog) (s : Statement) :
    Logged (Except Diagnostic Unit) :=
  inTurn (Check.run catalog s) checks.selected

end SqlVet
