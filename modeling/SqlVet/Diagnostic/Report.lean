
/-!
# Reports

What a check or a catalog reports when it refuses something, where that stands, and how it is shown.

* `Span`: where a piece of a text stands, counted in bytes of the UTF-8 encoding;
* `Diagnostic`: the report as the user gets it, with a code, a message, and perhaps a hint and a
  place;
* `Cause`: the reason for one of the reports of this library;
* `Report`: a diagnostic joined to the text that it is shown against.
-/

namespace SqlVet

/-! ## Places -/

/-- A stretch of text.  The two ends come from whoever built the tree and are independent: a span
may be empty, run backwards, or lie outside the span of the node that holds it. -/
structure Span where
  start : Nat
  stop : Nat
deriving DecidableEq

/-- A value together with the place it was read from. -/
structure Spanned (α : Type) where
  item : α
  span : Span
deriving DecidableEq

/-! ## Codes

The reports of the program carry one of five codes that clients of a database know.
-/

/-- The conditions that are reported, under their names in the SQL standard and its dialects. -/
inductive SqlState where
  | indeterminateDatatype
  | undefinedFunction
  | syntaxError
  | invalidSchemaName
  | featureNotSupported
deriving DecidableEq

namespace SqlState

/-- The five characters that stand for a condition. -/
def code : SqlState → String
  | .indeterminateDatatype => "42P18"
  | .undefinedFunction => "42883"
  | .syntaxError => "42601"
  | .invalidSchemaName => "3F000"
  | .featureNotSupported => "0A000"

/-- The conditions in the order in which they are listed. -/
def all : List SqlState :=
  [.indeterminateDatatype, .undefinedFunction, .syntaxError, .invalidSchemaName,
    .featureNotSupported]

/-- Each of the codes belongs to one kind of error, so a code tells the kind. -/
theorem code_injective {s t : SqlState} (h : s.code = t.code) : s = t := by
  cases s <;> cases t <;> simp_all [code]

end SqlState

/-! ## Reports -/

/-- A report.  The place is a byte offset into the text of the statement, or of the name, that was
refused.  The code is free text here, since a catalog may report conditions of its own. -/
structure Diagnostic where
  code : String
  message : String
  hint : Option String
  location : Option Nat
deriving DecidableEq

/-! ## Reasons

Whoever refuses something says for which reason; code, message and hint follow from it and are
written down here only.
-/

inductive Cause where
  /-- A parameter number is left out, so nothing tells the type of that parameter. -/
  | unusedParameter (number : Nat)
  /-- No overload of a function takes that many arguments. -/
  | noOverload (name : String) (argCount : Nat)
  /-- An insertion names more columns than the row has values. -/
  | surplusColumns
  /-- An insertion has more values in its row than it names columns. -/
  | surplusValues
  /-- A name has something in it that does not belong there, shown as `text`. -/
  | unexpected (text : String)
  /-- A name stops where a part is due. -/
  | unfinishedName
  /-- A quoted part has nothing between its quotes. -/
  | emptyPart
  /-- A name has no parts. -/
  | noParts
  /-- A name has more parts than database, schema and function. -/
  | tooManyParts (parts : List String)
  | unknownSchema (schema : String)
  /-- A name, shown as `name`, refers to a database that is not the current one. -/
  | otherDatabase (name : String)
deriving DecidableEq

namespace Cause

def sqlState : Cause → SqlState
  | .unusedParameter _ => .indeterminateDatatype
  | .noOverload .. => .undefinedFunction
  | .surplusColumns | .surplusValues | .unexpected _ | .unfinishedName | .emptyPart | .noParts
  | .tooManyParts _ => .syntaxError
  | .unknownSchema _ => .invalidSchemaName
  | .otherDatabase _ => .featureNotSupported

/-- A parameter list for arguments whose types are not resolved. -/
def unknownTypes (count : Nat) : String :=
  ", ".intercalate (List.replicate count "unknown")

def message : Cause → String
  | .unusedParameter number => s!"could not determine data type of parameter ${number}"
  | .noOverload name argCount => s!"function {name}({unknownTypes argCount}) does not exist"
  | .surplusColumns => "INSERT has more target columns than expressions"
  | .surplusValues => "INSERT has more expressions than target columns"
  | .unexpected text => s!"syntax error at or near \"{text}\""
  | .unfinishedName => "syntax error at end of input"
  | .emptyPart => "zero-length delimited identifier"
  | .noParts => "improper qualified name (empty)"
  | .tooManyParts parts =>
      "improper qualified name (too many dotted names): " ++ ".".intercalate parts
  | .unknownSchema schema => s!"schema \"{schema}\" does not exist"
  | .otherDatabase name => s!"cross-database references are not implemented: {name}"

/-- Only a call with the wrong number of arguments comes with advice. -/
def hint : Cause → Option String
  | .noOverload .. => some <|
      "No function matches the given name and argument types. " ++
      "You might need to add explicit type casts."
  | _ => none

/-- The report of a cause, pointing at a place if one is given. -/
def diagnostic (c : Cause) (location : Option Nat) : Diagnostic :=
  ⟨c.sqlState.code, c.message, c.hint, location⟩

end Cause

/-! ## Steps that can be refused

A computation that may be refused at several steps is refused by the first of them that refuses it.
-/

namespace Refusal

variable {α β : Type} {x : Except Diagnostic α} {f : α → Except Diagnostic β} {b : β}
  {d : Diagnostic}

/-- Two steps in a row succeed if both of them do. -/
theorem bind_eq_ok (h : (x >>= f) = .ok b) : ∃ a, x = .ok a ∧ f a = .ok b := by
  cases x with
  | error d => cases h
  | ok a => exact ⟨a, rfl, h⟩

/-- Two steps in a row are refused by the first, or by the second after the first succeeded. -/
theorem bind_eq_error (h : (x >>= f) = .error d) :
    x = .error d ∨ ∃ a, x = .ok a ∧ f a = .error d := by
  cases x with
  | error e =>
    cases h
    exact .inl rfl
  | ok a => exact .inr ⟨a, rfl, h⟩

end Refusal

/-! ## What a report shows

A report is shown as a headline with at most one mark, which is a point: the place has no extent.
-/

/-- A mark in the source text, here always a point: no text, no extent. -/
structure Mark where
  offset : Nat
  length : Nat
  primary : Bool
  text : Option String
deriving DecidableEq

/-- What is shown of a diagnostic. -/
structure View where
  headline : String
  code : String
  help : Option String
  severity : String
  marks : Option (List Mark)
deriving DecidableEq

namespace Diagnostic

/-- The single mark of a diagnostic that has a place. -/
def marks (d : Diagnostic) : Option (List Mark) :=
  d.location.map fun offset => [⟨offset, 0, true, none⟩]

/-- Every diagnostic is an error: the checks give no weaker advice. -/
def view (d : Diagnostic) : View :=
  ⟨d.message, d.code, d.hint, "error", d.marks⟩

end Diagnostic

/-! ## Source texts

A report is shown together with the text it is about.  Its place may have been computed for another
version of that text, so it is moved to the end of the text if it lies beyond it.
-/

/-- The text of a statement, with the name of where it comes from if that is known. -/
structure SourceText where
  content : String
  name : Option String
deriving DecidableEq

namespace SourceText

/-- The nearest byte offset that is not beyond the end of the text. -/
def clamp (s : SourceText) (location : Nat) : Nat :=
  min location s.content.utf8ByteSize

end SourceText

/-- A diagnostic joined to the text it is shown against. -/
structure Report where
  diagnostic : Diagnostic
  source : SourceText
deriving DecidableEq

namespace Diagnostic

/-- Joins a diagnostic to a text; only its place may change. -/
def reportAgainst (d : Diagnostic) (source : SourceText) : Report :=
  ⟨{ d with location := d.location.map source.clamp }, source⟩

end Diagnostic

end SqlVet
