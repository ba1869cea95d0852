import SqlVet.Catalog.Registry
import SqlVet.Validation

/-!
# Sessions

A conversation with a registry: it is filled, asked, used for checking, saved and restored.
-/

namespace SqlVet

/-- A name as a statement or as a text gives it. -/
inductive NameSource where
  | parts (parts : List String)
  | text (text : String)
deriving DecidableEq

def NameSource.functionName : NameSource → Except Diagnostic FunctionName
  | .parts ps => FunctionName.ofParts ps
  | .text t => FunctionName.ofText t

inductive Request where
  | createSchema (schema : String)
  | define (name : String) (signature : Signature)
  | hasSchema (schema : String)
  | lookup (name : NameSource)
  | settings
  | save
  | restore
  | checkCalls (statement : Statement)
  | validate (checks : Checks) (statement : Statement)

inductive Reply where
  | done
  | known (known : Bool)
  | found (overloads : Except Diagnostic (List Signature))
  | settings (settings : Settings)
  | saved (count : Nat)
  | outcome (outcome : Except Diagnostic Unit)

/-- The registry in use, and the ones that were saved, the latest first. -/
structure Session where
  current : Registry
  saved : List Registry

namespace Session

/-- Resolves a name that may have to be read first. -/
def lookup (r : Registry) (name : NameSource) : Logged (Except Diagnostic (List Signature)) :=
  match name.functionName with
  | .error d => pure (.error d)
  | .ok n => r.resolve n

/-- Serves one request.  Restoring takes the latest saved registry off the stack; if there is none
the current one stays. -/
def serve (s : Session) : Request → Logged (Reply × Session)
  | .createSchema schema => pure (.done, { s with current := s.current.createSchema schema })
  | .define name signature =>
    match (Registry.register name signature).run s.current with
    | .ok _ r => pure (.outcome (.ok ()), { s with current := r })
    | .error d r => pure (.outcome (.error d), { s with current := r })
  | .hasSchema schema => pure (.known (s.current.hasSchema schema), s)
  | .lookup name => do
    let found ← lookup s.current name
    return (.found found, s)
  | .settings => pure (.settings s.current.settings, s)
  | .save => pure (.saved (s.saved.length + 1), { s with saved := s.current :: s.saved })
  | .restore =>
    match s.saved with
    | [] => pure (.saved 0, s)
    | r :: rs => pure (.saved rs.length, ⟨r, rs⟩)
  | .checkCalls statement => do
    let outcome ← SqlVet.checkCalls s.current.resolve statement
    return (.outcome outcome, s)
  | .validate checks statement => do
    let outcome ← SqlVet.validate checks s.current.resolve statement
    return (.outcome outcome, s)

/-- Serves requests in turn. -/
def serveAll (s : Session) : List Request → Logged (List Reply)
  | [] => pure []
  | q :: qs => do
    let (reply, s) ← s.serve q
    let replies ← serveAll s qs
    return reply :: replies

end Session

end SqlVet
