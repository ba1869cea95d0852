import SqlVet.Tree.Walk

/-!
# Scripted walks

A walk steered by a list of rules.  A rule names the nodes it matches and counts them; the first
rule that matches and whose turn it is says whether the walk leaves out the children or ends.  A
scripted walk also keeps a record of the nodes it met, under their labels.
-/

namespace SqlVet

/-! ## Labels of nodes

How a node is called where trees are traced: a word for its kind, and a detail that tells nodes of
one kind apart.
-/

/-- The digits of an integer; for every other form the word for that form. -/
def Expr.detail : Expr → String
  | .literal .null _ => "null"
  | .literal (.bool _) _ => "bool"
  | .literal (.int value) _ => toString value
  | .literal (.numeric _) _ => "num"
  | .literal (.string _) _ => "str"
  | .column _ => "col"
  | .star .. => "star"
  | .parameter _ => "param"
  | .call _ => "call"
  | .unary .. => "un"
  | .binary .. => "bin"
  | .cast .. => "cast"
  | .caseOf .. => "case"
  | .inList .. => "in"
  | .inQuery .. => "inq"
  | .isNull .. => "isnull"
  | .subquery .. => "sub"
  | .existence .. => "exists"
  | .array .. => "array"
  | .row .. => "row"
  | .default _ => "default"

/-- The name of a plain table; for every other source the word for its form. -/
def FromItem.detail : FromItem → String
  | .table t => t.name
  | .subquery .. => "subquery"
  | .call .. => "func"
  | .join .. => "join"

namespace Node

def kind : Node → String
  | .statement _ => "statement"
  | .select _ => "select"
  | .insert _ => "insert"
  | .update _ => "update"
  | .delete _ => "delete"
  | .cte _ => "cte"
  | .source _ => "table"
  | .target _ => "target"
  | .sortKey _ => "sort"
  | .expr _ => "expr"
  | .call _ => "call"
  | .parameter _ => "param"

def detail : Node → String
  | .statement s => (ofStatement s).kind
  | .select _ | .insert _ | .update _ | .delete _ | .sortKey _ => ""
  | .cte c => c.name
  | .source f => f.detail
  | .target t => t.label.getD ""
  | .expr e => e.detail
  | .call c => ".".intercalate c.name
  | .parameter p => toString p.number

end Node

namespace Script

/-! ## Rules -/

inductive Action where
  | into | skip | stop
deriving DecidableEq

/-- `turn` limits a rule to one of the nodes that it matches, counted from one. -/
structure Rule where
  kind : String
  detail : Option String
  turn : Option Nat
  action : Action

/-- A rule with the number of nodes that it has matched. -/
structure Counted where
  rule : Rule
  count : Nat

namespace Rule

def matchesNode (r : Rule) (n : Node) : Bool :=
  r.kind == n.kind && r.detail.all (· == n.detail)

end Rule

namespace Counted

def observe (n : Node) (c : Counted) : Counted :=
  if c.rule.matchesNode n then { c with count := c.count + 1 } else c

/-- What the rule decides at a node it has just been shown.  Going on is no decision. -/
def decision? (n : Node) (c : Counted) : Option (Step String) :=
  if c.rule.matchesNode n && c.rule.turn.all (· == c.count) then
    match c.rule.action with
    | .into => none
    | .skip => some .skip
    | .stop => some (.stop (n.kind ++ ":" ++ n.detail))
  else
    none

end Counted

/-! ## Records -/

/-- What has been recorded of a walk: the nodes met, how many of each kind, and a trace of them. -/
structure Record where
  rules : List Counted
  visited : Nat
  counts : List (String × Nat)
  trace : Array (String × String × Span)

/-- Counts one more of a kind. -/
def tally (kind : String) : List (String × Nat) → List (String × Nat)
  | [] => [(kind, 1)]
  | (k, n) :: counts => if k = kind then (k, n + 1) :: counts else (k, n) :: tally kind counts

/-- Every rule counts the node before any decides, also those after the one that decides. -/
def visitor (quiet : Bool) : Visitor Record String := fun n record =>
  let rules := record.rules.map (Counted.observe n)
  let trace := if quiet then record.trace else record.trace.push (n.kind, n.detail, n.span)
  ((rules.findSome? (Counted.decision? n)).getD .into,
    { rules, visited := record.visited + 1, counts := tally n.kind record.counts, trace })

/-- Runs a scripted walk: the label of the node that ended it, if one did, and the record. -/
def run (rules : List Rule) (quiet : Bool) (root : Node) : Option String × Record :=
  walk (visitor quiet) root ⟨rules.map fun r => ⟨r, 0⟩, 0, [], #[]⟩

end Script

end SqlVet
