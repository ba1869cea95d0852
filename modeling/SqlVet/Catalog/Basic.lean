import SqlVet.Event
import SqlVet.Name.Basic

/-!
# Catalogs

Where the checks learn which overloads a function has.

* `Signature`: what is known of an overload;
* `Catalog`: how the overloads of a name are asked for;
* `builtins`: the overloads that queries use most.
-/

namespace SqlVet

/-! ## Signatures

Of an overload its arguments are known, or only their number, and its result.
-/

structure Argument where
  name : Option String
  typeName : String
deriving DecidableEq

/-- An overload.  The count matters only if the arguments are not known. -/
structure Signature where
  name : String
  arguments : Option (List Argument)
  count : Nat
  returns : String
deriving DecidableEq

namespace Signature

/-- An overload whose arguments are declared. -/
def ofArguments (name : String) (arguments : List Argument) (returns : String) : Signature :=
  ⟨name, some arguments, arguments.length, returns⟩

/-- An overload of which only the number of arguments is known. -/
def ofCount (name : String) (count : Nat) (returns : String) : Signature :=
  ⟨name, none, count, returns⟩

/-- How many arguments the overload takes. -/
def arity (s : Signature) : Nat :=
  match s.arguments with
  | some arguments => arguments.length
  | none => s.count

@[simp] theorem arity_ofArguments (name : String) (arguments : List Argument) (returns : String) :
    (ofArguments name arguments returns).arity = arguments.length := rfl

@[simp] theorem arity_ofCount (name : String) (count : Nat) (returns : String) :
    (ofCount name count returns).arity = count := rfl

end Signature

/-! ## Catalogs -/

/-- A catalog resolves a name to overloads.  Having none is an answer; an error is kept for names
that cannot be resolved at all, and is reported to the user unchanged. -/
abbrev Catalog := FunctionName → Logged (Except Diagnostic (List Signature))

namespace Catalog

/-- A catalog that is out of order. -/
def failing (d : Diagnostic) : Catalog := fun _ => pure (.error d)

end Catalog

/-! ## Built-in functions

The functions of the schema `pg_catalog` that queries use most, one row for each overload.
-/

def builtins : List Signature := [
    -- over groups of rows
    .ofCount "count" 0 "bigint",
    .ofCount "count" 1 "bigint",
    .ofCount "sum" 1 "numeric",
    .ofCount "avg" 1 "numeric",
    .ofCount "min" 1 "anyelement",
    .ofCount "max" 1 "anyelement",
    .ofCount "array_agg" 1 "anyarray",
    .ofCount "string_agg" 2 "text",
    .ofCount "bool_and" 1 "boolean",
    .ofCount "bool_or" 1 "boolean",
    -- over windows
    .ofCount "row_number" 0 "bigint",
    .ofCount "rank" 0 "bigint",
    .ofCount "dense_rank" 0 "bigint",
    .ofCount "lag" 1 "anyelement",
    .ofCount "lag" 2 "anyelement",
    .ofCount "lag" 3 "anyelement",
    .ofCount "lead" 1 "anyelement",
    .ofCount "lead" 2 "anyelement",
    .ofCount "lead" 3 "anyelement",
    -- on numbers
    .ofCount "abs" 1 "numeric",
    .ofCount "ceil" 1 "numeric",
    .ofCount "floor" 1 "numeric",
    .ofCount "round" 1 "numeric",
    .ofCount "round" 2 "numeric",
    .ofCount "power" 2 "double precision",
    .ofCount "sqrt" 1 "double precision",
    .ofCount "random" 0 "double precision",
    -- on strings
    .ofCount "lower" 1 "text",
    .ofCount "upper" 1 "text",
    .ofCount "length" 1 "integer",
    .ofCount "btrim" 1 "text",
    .ofCount "btrim" 2 "text",
    .ofCount "substr" 2 "text",
    .ofCount "substr" 3 "text",
    .ofCount "substring" 2 "text",
    .ofCount "substring" 3 "text",
    .ofCount "replace" 3 "text",
    .ofCount "md5" 1 "text",
    .ofCount "to_char" 2 "text",
    -- on dates and times
    .ofCount "now" 0 "timestamp with time zone",
    .ofCount "date_trunc" 2 "timestamp without time zone",
    .ofCount "date_part" 2 "double precision",
    .ofCount "age" 1 "interval",
    .ofCount "age" 2 "interval",
    -- rows and sequences
    .ofCount "generate_series" 2 "setof integer",
    .ofCount "generate_series" 3 "setof integer",
    .ofCount "unnest" 1 "setof anyelement",
    .ofCount "nextval" 1 "bigint",
    .ofCount "currval" 1 "bigint"
  ]

/-- The built-in overloads of a name, in the order of the table. -/
def builtinsNamed (name : String) : List Signature :=
  builtins.filter fun s => s.name == name

end SqlVet
