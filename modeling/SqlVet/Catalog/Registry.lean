import SqlVet.Catalog.Basic
import Std.Data.ExtHashMap

/-!
# Registries

A catalog that is filled in advance: a map from schemas to their functions, which are a map from
names to overloads, oldest first.  A schema can exist without functions.  Both maps grow where
something is registered, and nothing shows their order.
-/

namespace SqlVet

/-- How names are resolved: the database we are in, and the schemas that unqualified names are
looked for in. -/
structure Settings where
  database : String := "postgres"
  searchPath : List String := ["pg_catalog", "public"]
deriving DecidableEq

/-! ## Maps from names

What is known is kept under names twice over: schemas by their name, and in each of them functions
by theirs.
-/

-- Strings are lawful keys by their equality.  Said here once, or else it would be found by way of
-- their order, of which there can be more than one.
instance equivBEqString : EquivBEq String := inferInstance
instance lawfulHashableString : LawfulHashable String := inferInstance

/-- The functions of a schema: the overloads of each name, oldest first.  The name a function is
called by need not be the name in its signatures. -/
abbrev Functions := Std.ExtHashMap String (List Signature)

/-- Adds an overload behind those of its name. -/
def Functions.push (functions : Functions) (name : String) (s : Signature) : Functions :=
  functions.alter name fun overloads => some (overloads.getD [] ++ [s])

/-- Takes up a name, without overloads yet.  One that is there already is left as it is. -/
def Functions.createName (functions : Functions) (name : String) : Functions :=
  functions.insertIfNew name []

/-- Pushing an overload changes what is held under its name and under no other. -/
theorem Functions.getElem?_push (functions : Functions) (a name : String) (s : Signature) :
    (functions.push a s)[name]? =
      if a = name then some (functions[name]?.getD [] ++ [s]) else functions[name]? := by
  simp only [push, Std.ExtHashMap.getElem?_alter, beq_iff_eq]
  split
  · next h => rw [h]
  · rfl

/-- Taking up a name makes it hold something, if only an empty list, and changes no other. -/
theorem Functions.getElem?_createName (functions : Functions) (a name : String) :
    (functions.createName a)[name]? =
      if a = name then some (functions[name]?.getD []) else functions[name]? := by
  simp only [createName, Std.ExtHashMap.getElem?_insertIfNew, beq_iff_eq]
  by_cases h : a = name
  · subst h
    by_cases hmem : a ∈ functions
    · simp [hmem]
    · simp [hmem]
  · simp [h]

structure Registry where
  settings : Settings
  schemas : Std.ExtHashMap String Functions
deriving DecidableEq

namespace Registry

/-! ## Building -/

/-- The schema of the built-in functions. -/
def builtinSchema : String := "pg_catalog"

/-- The schema of functions that are registered without one. -/
def defaultSchema : String := "public"

/-- Makes a schema exist.  One that exists already is left as it is. -/
def createSchema (r : Registry) (schema : String) : Registry :=
  { r with schemas := r.schemas.insertIfNew schema ∅ }

/-- An empty registry.  The schemas on its search path exist, like the two that always do. -/
def ofSettings (settings : Settings) : Registry :=
  (builtinSchema :: defaultSchema :: settings.searchPath).foldl createSchema ⟨settings, ∅⟩

def empty : Registry := ofSettings {}

/-- Changes the functions of a schema, which is made if it does not exist. -/
def modifySchema (r : Registry) (schema : String) (f : Functions → Functions) : Registry :=
  { r with schemas := r.schemas.alter schema fun functions => some (f (functions.getD ∅)) }

/-- A registry that holds the built-in functions and nothing else. -/
def standard : Registry :=
  empty.modifySchema builtinSchema fun functions =>
    builtins.foldl (fun functions s => functions.push s.name s) functions

def hasSchema (r : Registry) (schema : String) : Bool := r.schemas.contains schema

/-- A name that says which database it means must mean the one we are in. -/
def requireDatabase (r : Registry) (n : FunctionName) : Except Diagnostic Unit :=
  match n.database with
  | none => .ok ()
  | some database =>
    if database = r.settings.database then .ok ()
    else .error ((Cause.otherDatabase n.text).diagnostic none)

/-- Registers an overload under a schema and a name, behind the earlier ones. -/
def insert (r : Registry) (schema name : String) (s : Signature) : Registry :=
  r.modifySchema schema fun functions => functions.push name s

/-- Registers an overload under a name given as text.  A schema it names exists from then on. -/
def define (r : Registry) (name : String) (s : Signature) : Except Diagnostic Registry := do
  let n ← FunctionName.ofText name
  r.requireDatabase n
  return r.insert (n.schema.getD defaultSchema) n.base s

/-- Registers an overload as `define` does, but in the registry itself and step by step: whatever is
changed before a step that is refused stays changed. -/
def register (name : String) (s : Signature) : EStateM Diagnostic Registry Unit := do
  let n ← ofExcept (FunctionName.ofText name)
  let r ← get
  ofExcept (r.requireDatabase n)
  let schema := n.schema.getD defaultSchema
  modify fun r => r.createSchema schema
  modify fun r => r.modifySchema schema fun functions => functions.createName n.base
  modify fun r => r.modifySchema schema fun functions => functions.push n.base s

/-! ## Looking up

What the changes of a registry do is said by what can be asked of it: its settings, which schemas
exist, and what these hold.
-/

/-- What a schema holds under a name. -/
def overloads? (r : Registry) (schema name : String) : Option (List Signature) :=
  r.schemas[schema]?.bind fun functions => functions[name]?

@[simp] theorem settings_createSchema (r : Registry) (schema : String) :
    (r.createSchema schema).settings = r.settings := rfl

@[simp] theorem settings_modifySchema (r : Registry) (schema : String)
    (f : Functions → Functions) : (r.modifySchema schema f).settings = r.settings := rfl

@[simp] theorem settings_insert (r : Registry) (schema name : String) (s : Signature) :
    (r.insert schema name s).settings = r.settings := rfl

/-- A schema exists if there is a map of functions for it, an empty one included. -/
theorem hasSchema_eq_isSome (r : Registry) (schema : String) :
    r.hasSchema schema = r.schemas[schema]?.isSome :=
  Std.ExtHashMap.contains_eq_isSome_getElem?

/-- Making a schema makes that one exist, and no schema stops to exist. -/
theorem hasSchema_createSchema (r : Registry) (a b : String) :
    (r.createSchema a).hasSchema b = true ↔ a = b ∨ r.hasSchema b = true := by
  simp [hasSchema, createSchema]

/-- Whatever is done to the functions of a schema, the schema exists from then on. -/
theorem hasSchema_modifySchema (r : Registry) (a b : String) (f : Functions → Functions) :
    (r.modifySchema a f).hasSchema b = true ↔ a = b ∨ r.hasSchema b = true := by
  simp only [hasSchema, modifySchema, Std.ExtHashMap.contains_alter, beq_iff_eq]
  split <;> simp_all

theorem hasSchema_insert (r : Registry) (a b name : String) (s : Signature) :
    (r.insert a name s).hasSchema b = true ↔ a = b ∨ r.hasSchema b = true :=
  r.hasSchema_modifySchema a b _

/-- A schema that is made holds nothing yet, and one that exists keeps what it holds. -/
@[simp] theorem overloads?_createSchema (r : Registry) (a schema name : String) :
    (r.createSchema a).overloads? schema name = r.overloads? schema name := by
  simp only [overloads?, createSchema, Std.ExtHashMap.getElem?_insertIfNew, beq_iff_eq]
  split
  · next h =>
    obtain ⟨rfl, hnew⟩ := h
    simp [Std.ExtHashMap.getElem?_eq_none hnew]
  · rfl

/-- A schema that does not exist holds as much as an empty one. -/
theorem getElem?_getD_schemas (r : Registry) (schema name : String) :
    (r.schemas[schema]?.getD ∅)[name]? = r.overloads? schema name := by
  rw [overloads?]
  cases r.schemas[schema]? <;> simp

/-- A change of one schema's functions does not show in what the others hold. -/
theorem overloads?_modifySchema (r : Registry) (a schema name : String)
    (f : Functions → Functions) :
    (r.modifySchema a f).overloads? schema name =
      if a = schema then (f (r.schemas[schema]?.getD ∅))[name]? else r.overloads? schema name := by
  simp only [overloads?, modifySchema, Std.ExtHashMap.getElem?_alter, beq_iff_eq]
  split
  · next h => rw [h, Option.bind_some]
  · rfl

/-- An overload is added behind those of the same schema and name, and to no others. -/
theorem overloads?_insert (r : Registry) (a b schema name : String) (s : Signature) :
    (r.insert a b s).overloads? schema name =
      if a = schema ∧ b = name then some ((r.overloads? schema name).getD [] ++ [s])
      else r.overloads? schema name := by
  rw [insert, overloads?_modifySchema]
  by_cases ha : a = schema
  · rw [if_pos ha, Functions.getElem?_push, getElem?_getD_schemas]
    simp only [ha, true_and]
  · rw [if_neg ha, if_neg fun h => ha h.1]

/-- The first schema of the search path that holds a name, with the overloads it holds.  Those of
later schemas are hidden, and schemas that do not exist are passed over. -/
def search (r : Registry) (name : String) : Option (String × List Signature) :=
  r.settings.searchPath.findSome? fun schema => (r.overloads? schema name).map (schema, ·)

/-- Resolves a name in the schema it names, or else along the search path. -/
def resolve (r : Registry) : Catalog := fun n => do
  match r.requireDatabase n with
  | .error d => return .error d
  | .ok () =>
    match n.schema with
    | some schema =>
      match r.schemas[schema]? with
      | none => return .error ((Cause.unknownSchema schema).diagnostic none)
      | some functions =>
        let found := functions[n.base]?.getD []
        Logged.tell (.lookup n.text none found.length)
        return .ok found
    | none =>
      match r.search n.base with
      | some (schema, found) =>
        Logged.tell (.lookup n.text (some schema) found.length)
        return .ok found
      | none =>
        Logged.tell (.lookupMissed n.text)
        return .ok []

/-! ## Changes -/

/-- What can be done to a registry after it is made. -/
inductive Change where
  | schema (name : String)
  | function (name : String) (signature : Signature)
deriving DecidableEq

/-- A change that is refused leaves nothing behind. -/
def apply (r : Registry) : Change → Except Diagnostic Registry
  | .schema name => .ok (r.createSchema name)
  | .function name s => r.define name s

/-- Applies changes in turn, up to the first that is refused. -/
def applyAll (r : Registry) (changes : List Change) : Except Diagnostic Registry :=
  changes.foldlM apply r

end Registry

end SqlVet
