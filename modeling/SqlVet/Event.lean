/-!
# Events

What a computation tells about its course, beside its result: which names were looked up, and why a
check failed or did not apply.
-/

namespace SqlVet

/-- Something worth telling.  Names and codes are kept as they are shown. -/
inductive Event where
  /-- A name was resolved; the schema is told if the search path had to find it. -/
  | lookup (name : String) (schema : Option String) (overloads : Nat)
  /-- No schema of the search path holds the name. -/
  | lookupMissed (name : String)
  /-- A call was accepted because the catalog does not know the function. -/
  | unknownFunction (name : String)
  | noOverload (name : String) (argCount overloads : Nat)
  /-- An insertion was accepted because it does not list exactly one row. -/
  | insertSkipped (table : String)
  | insertMismatch (code table : String) (columns values : Nat)
  | parameterGap (code : String) (parameter distinct : Nat)
deriving DecidableEq

namespace Event

inductive Level where
  | trace | debug
deriving DecidableEq

/-- The failure of a check is told louder than the steps on the way. -/
def level : Event → Level
  | .lookup .. | .lookupMissed _ | .unknownFunction _ | .insertSkipped _ => .trace
  | .noOverload .. | .insertMismatch .. | .parameterGap .. => .debug

def message : Event → String
  | .lookup .. => "function lookup"
  | .lookupMissed _ => "function lookup: not found"
  | .unknownFunction _ => "function not in catalog, skipping arity check"
  | .noOverload .. => "no overload matches argument count"
  | .insertSkipped _ => "insert arity check skipped: not a single VALUES row"
  | .insertMismatch .. => "insert arity check failed"
  | .parameterGap .. => "parameter numbering check failed"

inductive Field where
  | text (value : String)
  | count (value : Nat)
deriving DecidableEq

/-- The details of an event under their names. -/
def fields : Event → List (String × Field)
  | .lookup name schema overloads =>
      [("name", .text name), ("overloads", .count overloads)]
        ++ schema.toList.map fun s => ("schema", .text s)
  | .lookupMissed name => [("name", .text name)]
  | .unknownFunction name => [("function", .text name)]
  | .noOverload name argCount overloads =>
      [("function", .text name), ("arg_count", .count argCount), ("overloads", .count overloads)]
  | .insertSkipped table => [("relation", .text table)]
  | .insertMismatch code table columns values =>
      [("code", .text code), ("relation", .text table), ("columns", .count columns),
        ("values", .count values)]
  | .parameterGap code parameter distinct =>
      [("code", .text code), ("parameter", .count parameter), ("distinct", .count distinct)]

end Event

/-! ## Computations that tell

What is told goes into a log beside the answer and never decides it.
-/

/-- A value with the events told while it was computed, in order. -/
structure Logged (α : Type) where
  value : α
  log : List Event
deriving DecidableEq

namespace Logged

variable {α β : Type}

instance : Monad Logged where
  pure a := ⟨a, []⟩
  bind x f :=
    let y := f x.value
    ⟨y.value, x.log ++ y.log⟩

def tell (e : Event) : Logged Unit := ⟨(), [e]⟩

@[simp] theorem value_pure (a : α) : (pure a : Logged α).value = a := rfl
@[simp] theorem log_pure (a : α) : (pure a : Logged α).log = [] := rfl

@[simp] theorem value_bind (x : Logged α) (f : α → Logged β) :
    (x >>= f).value = (f x.value).value := rfl

@[simp] theorem log_bind (x : Logged α) (f : α → Logged β) :
    (x >>= f).log = x.log ++ (f x.value).log := rfl

@[simp] theorem value_tell (e : Event) : (tell e).value = () := rfl
@[simp] theorem log_tell (e : Event) : (tell e).log = [e] := rfl

theorem ext {x y : Logged α} (hv : x.value = y.value) (hl : x.log = y.log) : x = y := by
  cases x; cases y; simp_all

end Logged

end SqlVet
