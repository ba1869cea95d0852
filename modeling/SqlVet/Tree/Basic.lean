import SqlVet.Diagnostic.Report

/-!
# Statement trees

The abstract syntax of the four statements that are checked: `SELECT`, `INSERT`, `UPDATE` and
`DELETE`.  Expressions, calls and queries contain each other and form one mutual family; everything
that merely holds them (assignments, the three data-changing statements) is built on top.
-/

namespace SqlVet

/-! ## Leaves -/

inductive Literal where
  | null
  | bool (value : Bool)
  | int (value : Int)
  /-- A number that is not a plain integer, kept as written. -/
  | numeric (digits : String)
  | string (text : String)
deriving DecidableEq

/-- A reference to a column, as its dotted parts. -/
structure Column where
  parts : List String
  span : Span
deriving DecidableEq

/-- A positional parameter: `$number`. -/
structure Parameter where
  number : Nat
  span : Span
deriving DecidableEq

/-- The type a value is cast to, with one bound per array dimension. -/
structure TypeName where
  parts : List String
  bounds : Nat
  span : Span
deriving DecidableEq

inductive UnaryOp where
  | plus | minus | not
deriving DecidableEq

inductive BinaryOp where
  | add | sub | mul | div | mod | concat
  | eq | ne | lt | le | gt | ge | like | ilike
  | and | or
deriving DecidableEq

inductive Direction where
  | ascending | descending
deriving DecidableEq

/-- Which end of a sorted result the nulls go to. -/
inductive NullsPlace where
  | first | last
deriving DecidableEq

inductive JoinKind where
  | inner | left | right | full | cross
deriving DecidableEq

inductive SetOp where
  | union | intersect | except
deriving DecidableEq

/-- A table named in a statement, with the name it goes by there (`schema.name AS correlation`). -/
structure TableName where
  schema : Option String
  name : String
  correlation : Option String
  span : Span
deriving DecidableEq

/-! ## Expressions and queries -/

mutual

/-- A value expression.  Calls and parameters carry their own span; other forms have one here. -/
inductive Expr where
  | literal (value : Literal) (span : Span)
  | column (column : Column)
  | star (table : Option String) (span : Span)
  | parameter (parameter : Parameter)
  | call (call : Call)
  | unary (op : UnaryOp) (operand : Expr) (span : Span)
  | binary (op : BinaryOp) (left right : Expr) (span : Span)
  | cast (operand : Expr) (type : TypeName) (span : Span)
  | caseOf (operand : Option Expr) (arms : List WhenArm) (otherwise : Option Expr) (span : Span)
  | inList (operand : Expr) (items : List Expr) (negated : Bool) (span : Span)
  | inQuery (operand : Expr) (query : Select) (negated : Bool) (span : Span)
  | isNull (operand : Expr) (negated : Bool) (span : Span)
  | subquery (query : Select) (span : Span)
  | existence (query : Select) (span : Span)
  | array (items : List Expr) (span : Span)
  | row (items : List Expr) (span : Span)
  | default (span : Span)

/-- One `WHEN condition THEN result` of a `CASE`. -/
structure WhenArm where
  condition : Expr
  result : Expr
  span : Span

/-- A function call with its aggregate and window decorations. -/
structure Call where
  name : List String
  args : List Expr
  star : Bool
  distinct : Bool
  order : List SortKey
  filter : Option Expr
  window : Option Window
  span : Span

/-- The `OVER (PARTITION BY … ORDER BY …)` of a call. -/
structure Window where
  partition : List Expr
  order : List SortKey
  span : Span

structure SortKey where
  expr : Expr
  direction : Option Direction
  nulls : Option NullsPlace
  span : Span

structure Select where
  ctes : List Cte
  body : Body
  order : List SortKey
  limit : Option Expr
  offset : Option Expr
  span : Span

/-- What a query computes, before it is sorted and cut. -/
inductive Body where
  | values (rows : List (List Expr))
  | query (distinct : Bool) (targets : List Target) (sources : List FromItem)
      (condition : Option Expr) (groups : List Expr) (having : Option Expr)
  | combine (op : SetOp) (all : Bool) (left right : Select)

/-- A common table expression: `name (columns) AS (query)`. -/
structure Cte where
  name : String
  columns : List String
  query : Select
  span : Span

/-- One column of a result, with its output name if it is given one. -/
structure Target where
  expr : Expr
  label : Option String
  span : Span

/-- A source of rows in a `FROM` or `USING` clause. -/
inductive FromItem where
  | table (table : TableName)
  | subquery (query : Select) (correlation : Option String) (lateral : Bool) (span : Span)
  | call (call : Call) (correlation : Option String) (span : Span)
  | join (kind : JoinKind) (left right : FromItem) (condition : Option Expr)
      (shared : List String) (span : Span)

end

/-! ## Statements -/

/-- One `column = value` of a `SET` clause. -/
structure Assignment where
  column : Spanned String
  value : Expr

inductive ConflictAction where
  | nothing
  | update (assignments : List Assignment) (condition : Option Expr)

/-- The `ON CONFLICT` clause of an insertion. -/
structure Conflict where
  target : List String
  action : ConflictAction
  span : Span

/-- Where the inserted rows come from. -/
inductive RowSource where
  | select (query : Select)
  | defaultValues

structure Insert where
  ctes : List Cte
  table : TableName
  columns : List (Spanned String)
  source : RowSource
  conflict : Option Conflict
  returning : List Target
  span : Span

structure Update where
  ctes : List Cte
  table : TableName
  assignments : List Assignment
  sources : List FromItem
  condition : Option Expr
  returning : List Target
  span : Span

structure Delete where
  ctes : List Cte
  table : TableName
  sources : List FromItem
  condition : Option Expr
  returning : List Target
  span : Span

inductive Statement where
  | select (query : Select)
  | insert (insertion : Insert)
  | update (change : Update)
  | delete (deletion : Delete)

/-! ## Parts that are asked for -/

/-- Each form of expression reports the span written on it. -/
def Expr.span : Expr → Span
  | .column c => c.span
  | .parameter p => p.span
  | .call c => c.span
  | .literal _ s | .star _ s | .unary _ _ s | .binary _ _ _ s | .cast _ _ s | .caseOf _ _ _ s
  | .inList _ _ _ s | .inQuery _ _ _ s | .isNull _ _ s | .subquery _ s | .existence _ s
  | .array _ s | .row _ s | .default s => s

def FromItem.span : FromItem → Span
  | .table t => t.span
  | .subquery _ _ _ s | .call _ _ s | .join _ _ _ _ _ s => s

def Statement.span : Statement → Span
  | .select q => q.span
  | .insert i => i.span
  | .update u => u.span
  | .delete d => d.span

/-- The name of the called function, without what qualifies it. -/
def Call.baseName? (c : Call) : Option String := c.name.getLast?

/-- The rows of a query whose body is a plain `VALUES` list. -/
def Select.valueRows? (q : Select) : Option (List (List Expr)) :=
  match q.body with
  | .values rows => some rows
  | .query .. | .combine .. => none

/-- The query that feeds an insertion, unless the row is all defaults. -/
def Insert.query? (i : Insert) : Option Select :=
  match i.source with
  | .select q => some q
  | .defaultValues => none

/-- The rows a statement lists: those of a `VALUES` query, or of one that feeds an insertion. -/
def Statement.valueRows? : Statement → Option (List (List Expr))
  | .select q => q.valueRows?
  | .insert i => i.query?.bind Select.valueRows?
  | .update _ | .delete _ => none

end SqlVet
