import SqlVet.Catalog.Registry

/-!
# The history of a registry

Changes are tried one after another, and some of them may be refused.  What a registry knows in the
end is told by the way it was made and by the changes that were accepted:

* `apply_eq_ok`, `apply_eq_error`: what one change does;
* `attemptAll_snd`, `applyAll_attemptAll`: which changes are accepted, and that the others could as
  well not have been tried;
* `attemptAll_preserves`: what one accepted change preserves is preserved by all of them;
* `overloads_attemptAll`, `hasSchema_attemptAll`: what is registered by the accepted changes;
* `registry_eq_history`: what the registry answers, from its history alone.
-/

namespace SqlVet

/-! ## What a change asks for

A change is told by its own text and by the settings of the registry.  What the registry holds at
the time does not matter.
-/

/-- An overload with the schema and the name it is registered under. -/
structure Entry where
  schema : String
  name : String
  signature : Signature

namespace Registry.Change

/-- The overload that a change registers.  A name without a schema stands for one in `public`. -/
def entry? : Change → Option Entry
  | .schema _ => none
  | .function text s =>
    match FunctionName.ofText text with
    | .error _ => none
    | .ok n => some ⟨n.schema.getD "public", n.base, s⟩

end Registry.Change

/-- Whether a change is accepted: its name can be read and does not belong to another database. -/
def Settings.accepts (settings : Settings) : Registry.Change → Bool
  | .schema _ => true
  | .function text _ =>
    match FunctionName.ofText text with
    | .error _ => false
    | .ok n => n.database.all (· = settings.database)

/-- The overloads that changes register under a schema and a name. -/
def registered (done : List Registry.Change) (schema name : String) : List Signature :=
  ((done.filterMap Registry.Change.entry?).filter fun e => e.schema = schema ∧ e.name = name).map
    Entry.signature

namespace Registry

/-! ## One change

Registering reads the name, asks for the database and adds the overload, in this order.  Each of the
next lemmas stops at one of these steps.
-/

variable {r r' : Registry} {c : Change}

theorem requireDatabase_eq_ok_iff {n : FunctionName} :
    r.requireDatabase n = .ok () ↔ n.database.all (· = r.settings.database) = true := by
  unfold requireDatabase
  cases n.database with
  | none => simp
  | some database => simp

theorem define_of_unreadable {text : String} {d : Diagnostic}
    (h : FunctionName.ofText text = .error d) (s : Signature) : r.define text s = .error d := by
  rw [define, h]
  rfl

theorem define_of_refused {text : String} {n : FunctionName} {d : Diagnostic}
    (hn : FunctionName.ofText text = .ok n) (hdatabase : r.requireDatabase n = .error d)
    (s : Signature) : r.define text s = .error d := by
  rw [define, hn]
  show (do r.requireDatabase n; return r.insert _ _ _) = _
  rw [hdatabase]
  rfl

theorem define_of_accepted {text : String} {n : FunctionName}
    (hn : FunctionName.ofText text = .ok n) (hdatabase : r.requireDatabase n = .ok ())
    (s : Signature) :
    r.define text s = .ok (r.insert (n.schema.getD defaultSchema) n.base s) := by
  rw [define, hn]
  show (do r.requireDatabase n; return r.insert _ _ _) = _
  rw [hdatabase]
  rfl

theorem define_eq_ok {text : String} {s : Signature} (h : r.define text s = .ok r') :
    ∃ n, FunctionName.ofText text = .ok n ∧ r.requireDatabase n = .ok ()
      ∧ r' = r.insert (n.schema.getD defaultSchema) n.base s := by
  obtain ⟨n, hn, h⟩ := Refusal.bind_eq_ok h
  obtain ⟨_, hdb, h⟩ := Refusal.bind_eq_ok h
  cases h
  exact ⟨n, hn, hdb, rfl⟩

theorem define_eq_error {text : String} {s : Signature} {d : Diagnostic}
    (h : r.define text s = .error d) :
    FunctionName.ofText text = .error d
      ∨ ∃ n, FunctionName.ofText text = .ok n ∧ r.requireDatabase n = .error d := by
  rcases Refusal.bind_eq_error h with hn | ⟨n, hn, h⟩
  · exact .inl hn
  · rcases Refusal.bind_eq_error h with hdb | ⟨_, _, h⟩
    · exact .inr ⟨n, hn, hdb⟩
    · cases h

/-- What an accepted change does. -/
theorem apply_eq_ok (h : r.apply c = .ok r') :
    r.settings.accepts c = true
      ∧ ((∃ schema, c = .schema schema ∧ c.entry? = none ∧ r' = r.createSchema schema)
        ∨ ∃ e, c.entry? = some e ∧ r' = r.insert e.schema e.name e.signature) := by
  cases c with
  | schema schema =>
    cases h
    exact ⟨rfl, .inl ⟨schema, rfl, rfl, rfl⟩⟩
  | function text s =>
    obtain ⟨n, hn, hdb, rfl⟩ := define_eq_ok h
    refine ⟨?_, .inr ⟨⟨n.schema.getD defaultSchema, n.base, s⟩, ?_, rfl⟩⟩
    · simp only [Settings.accepts, hn]
      exact requireDatabase_eq_ok_iff.mp hdb
    · simp only [Change.entry?, hn]
      rfl

/-- A change that is refused is not one that the settings accept. -/
theorem apply_eq_error {d : Diagnostic} (h : r.apply c = .error d) :
    r.settings.accepts c = false := by
  cases c with
  | schema schema => cases h
  | function text s =>
    rcases define_eq_error h with hn | ⟨n, hn, hdb⟩
    · simp only [Settings.accepts, hn]
    · simp only [Settings.accepts, hn]
      rw [← Bool.not_eq_true, ← requireDatabase_eq_ok_iff, hdb]
      nofun

/-- No change touches the settings. -/
theorem settings_apply (h : r.apply c = .ok r') : r'.settings = r.settings := by
  obtain ⟨-, ⟨schema, -, -, rfl⟩ | ⟨e, -, rfl⟩⟩ := apply_eq_ok h
  · rfl
  · rfl

/-- A change adds the overload that it asks for behind the earlier ones, and nothing anywhere
else. -/
theorem overloads_apply (h : r.apply c = .ok r') (schema name : String) :
    (r'.overloads? schema name).getD [] =
      (r.overloads? schema name).getD [] ++ registered [c] schema name := by
  obtain ⟨-, ⟨made, -, hc, rfl⟩ | ⟨e, hc, rfl⟩⟩ := apply_eq_ok h
  · simp [registered, hc]
  · rw [overloads?_insert]
    split
    · next he => simp [registered, hc, he]
    · next he => simp [registered, hc, he]

/-- After a change there are the schemas that there were, and the one that it makes or registers
something in. -/
theorem hasSchema_apply (h : r.apply c = .ok r') (schema : String) :
    r'.hasSchema schema = true ↔
      r.hasSchema schema = true ∨ c = .schema schema
        ∨ ∃ e, c.entry? = some e ∧ e.schema = schema := by
  obtain ⟨-, ⟨made, rfl, hc, rfl⟩ | ⟨e, hc, rfl⟩⟩ := apply_eq_ok h
  · rw [hasSchema_createSchema]
    simp [hc, or_comm]
  · have hne : c ≠ .schema schema := by
      rintro rfl
      cases hc
    rw [hasSchema_insert]
    simp [hc, hne, or_comm]

/-! ## Any number of changes

Tried one after another, changes add up: the induction is on the list of them, with any registry to
begin with, since each one begins where the last has ended.
-/

/-- Tries changes in turn.  One that is refused leaves the registry as it is.  Beside the registry
in the end, the changes that were accepted. -/
def attemptAll (r : Registry) : List Change → Registry × List Change
  | [] => (r, [])
  | c :: cs =>
    match r.apply c with
    | .error _ => r.attemptAll cs
    | .ok next => ((next.attemptAll cs).1, c :: (next.attemptAll cs).2)

theorem attemptAll_cons_of_error {d : Diagnostic} (h : r.apply c = .error d) (cs : List Change) :
    r.attemptAll (c :: cs) = r.attemptAll cs := by
  rw [attemptAll, h]

theorem attemptAll_cons_of_ok (h : r.apply c = .ok r') (cs : List Change) :
    r.attemptAll (c :: cs) = ((r'.attemptAll cs).1, c :: (r'.attemptAll cs).2) := by
  rw [attemptAll, h]

/-- Whether a change is accepted does not depend on those before it. -/
theorem attemptAll_snd (r : Registry) (cs : List Change) :
    (r.attemptAll cs).2 = cs.filter r.settings.accepts := by
  induction cs generalizing r with
  | nil => rfl
  | cons c cs ih =>
    cases h : r.apply c with
    | error d => rw [attemptAll_cons_of_error h, ih, List.filter_cons, apply_eq_error h]; rfl
    | ok next =>
      rw [attemptAll_cons_of_ok h, List.filter_cons, (apply_eq_ok h).1, ih, settings_apply h]
      rfl

/-- The accepted changes by themselves are all accepted, and end in the same registry. -/
theorem applyAll_attemptAll (r : Registry) (cs : List Change) :
    r.applyAll (r.attemptAll cs).2 = .ok (r.attemptAll cs).1 := by
  induction cs generalizing r with
  | nil => rfl
  | cons c cs ih =>
    cases h : r.apply c with
    | error d => rw [attemptAll_cons_of_error h, ih]
    | ok next =>
      rw [attemptAll_cons_of_ok h, applyAll, List.foldlM_cons, h]
      exact ih next

/-- What every accepted change preserves, any changes preserve. -/
theorem attemptAll_preserves {P : Registry → Prop}
    (hstep : ∀ {r r' : Registry} {c : Change}, r.apply c = .ok r' → P r → P r')
    (h : P r) (cs : List Change) : P (r.attemptAll cs).1 := by
  induction cs generalizing r with
  | nil => exact h
  | cons c cs ih =>
    cases hc : r.apply c with
    | error d =>
      rw [attemptAll_cons_of_error hc]
      exact ih h
    | ok next =>
      rw [attemptAll_cons_of_ok hc]
      exact ih (hstep hc h)

/-- The settings are those that the registry was made with. -/
theorem settings_attemptAll (r : Registry) (cs : List Change) :
    (r.attemptAll cs).1.settings = r.settings := by
  apply attemptAll_preserves (P := fun q => q.settings = r.settings) _ rfl cs
  intro q q' c hc hq
  rw [settings_apply hc, hq]

theorem registered_append (done more : List Change) (schema name : String) :
    registered (done ++ more) schema name =
      registered done schema name ++ registered more schema name := by
  simp only [registered, List.filterMap_append, List.filter_append, List.map_append]

/-- A name holds what it held at first, and behind that what the accepted changes register for it,
oldest first. -/
theorem overloads_attemptAll (r : Registry) (cs : List Change) (schema name : String) :
    ((r.attemptAll cs).1.overloads? schema name).getD [] =
      (r.overloads? schema name).getD [] ++ registered (r.attemptAll cs).2 schema name := by
  induction cs generalizing r with
  | nil => exact (List.append_nil _).symm
  | cons c cs ih =>
    cases h : r.apply c with
    | error d => rw [attemptAll_cons_of_error h, ih]
    | ok next =>
      rw [attemptAll_cons_of_ok h, ih, overloads_apply h, List.append_assoc, ← registered_append,
        List.singleton_append]

/-- A schema exists in the end if it did at first, or if an accepted change makes it or registers
something in it. -/
theorem hasSchema_attemptAll (r : Registry) (cs : List Change) (schema : String) :
    (r.attemptAll cs).1.hasSchema schema = true ↔
      r.hasSchema schema = true ∨ .schema schema ∈ (r.attemptAll cs).2
        ∨ ∃ e ∈ (r.attemptAll cs).2.filterMap Change.entry?, e.schema = schema := by
  induction cs generalizing r with
  | nil => simp [attemptAll]
  | cons c cs ih =>
    cases h : r.apply c with
    | error d => rw [attemptAll_cons_of_error h, ih]
    | ok next =>
      rw [attemptAll_cons_of_ok h, ih, hasSchema_apply h]
      simp only [List.mem_cons, List.mem_filterMap]
      grind

end Registry

/-! ## How a registry is made

A registry begins empty but for some schemas, or with the built-in functions.
-/

/-- The ways to make a registry. -/
inductive Origin where
  | empty
  | standard
  | ofSettings (settings : Settings)

namespace Origin

def registry : Origin → Registry
  | .empty => .empty
  | .standard => .standard
  | .ofSettings settings => .ofSettings settings

def settings : Origin → Settings
  | .empty | .standard => {}
  | .ofSettings settings => settings

/-- The built-in overloads that a registry holds from the start. -/
def builtins (origin : Origin) (schema name : String) : List Signature :=
  match origin with
  | .standard => if schema = "pg_catalog" then builtinsNamed name else []
  | .empty | .ofSettings _ => []

/-- Whether a schema exists after some changes: from the start, or because of one of them. -/
def Knows (origin : Origin) (done : List Registry.Change) (schema : String) : Prop :=
  schema = "pg_catalog" ∨ schema = "public" ∨ schema ∈ origin.settings.searchPath
    ∨ .schema schema ∈ done ∨ ∃ e ∈ done.filterMap Registry.Change.entry?, e.schema = schema

end Origin

namespace Registry

/-- Making schemas in turn makes those and holds nothing new. -/
theorem foldl_createSchema (r : Registry) (schemas : List String) :
    (schemas.foldl createSchema r).settings = r.settings
      ∧ (∀ schema, (schemas.foldl createSchema r).hasSchema schema = true ↔
          schema ∈ schemas ∨ r.hasSchema schema = true)
      ∧ ∀ schema name,
          (schemas.foldl createSchema r).overloads? schema name = r.overloads? schema name := by
  induction schemas generalizing r with
  | nil => simp
  | cons first schemas ih =>
    obtain ⟨hsettings, hschemas, hoverloads⟩ := ih (r.createSchema first)
    refine ⟨hsettings, ?_, ?_⟩
    · intro schema
      rw [List.foldl_cons, hschemas, hasSchema_createSchema, List.mem_cons]
      grind
    · intro schema name
      rw [List.foldl_cons, hoverloads, overloads?_createSchema]

@[simp] theorem settings_ofSettings (settings : Settings) :
    (ofSettings settings).settings = settings :=
  (foldl_createSchema ⟨settings, ∅⟩ _).1

theorem hasSchema_ofSettings (settings : Settings) (schema : String) :
    (ofSettings settings).hasSchema schema = true ↔
      schema = "pg_catalog" ∨ schema = "public" ∨ schema ∈ settings.searchPath := by
  obtain ⟨-, hschemas, -⟩ := foldl_createSchema ⟨settings, ∅⟩
    (builtinSchema :: defaultSchema :: settings.searchPath)
  rw [ofSettings, hschemas]
  simp [hasSchema, builtinSchema, defaultSchema]

/-- A registry made from settings knows no function at all, not even an empty name. -/
theorem overloads?_ofSettings (settings : Settings) (schema name : String) :
    (ofSettings settings).overloads? schema name = none := by
  obtain ⟨-, -, hoverloads⟩ := foldl_createSchema ⟨settings, ∅⟩
    (builtinSchema :: defaultSchema :: settings.searchPath)
  rw [ofSettings, hoverloads]
  simp [overloads?]

/-- Overloads that are pushed in turn stand under their own names, in the order of the list. -/
theorem getElem?_foldl_push (functions : Functions) (signatures : List Signature) (name : String) :
    ((signatures.foldl (fun functions s => functions.push s.name s) functions)[name]?).getD [] =
      functions[name]?.getD [] ++ signatures.filter fun s => s.name == name := by
  induction signatures generalizing functions with
  | nil => simp
  | cons s signatures ih =>
    rw [List.foldl_cons, ih, Functions.getElem?_push]
    by_cases h : s.name = name <;> simp [h]

/-- The standard registry holds the built-in overloads, all of them in one schema. -/
theorem overloads_standard (schema name : String) :
    (standard.overloads? schema name).getD [] =
      if schema = "pg_catalog" then builtinsNamed name else [] := by
  rw [standard, overloads?_modifySchema, builtinSchema]
  by_cases h : schema = "pg_catalog"
  · rw [if_pos h, if_pos h.symm, getElem?_foldl_push, getElem?_getD_schemas, empty,
      overloads?_ofSettings]
    rfl
  · rw [if_neg h, if_neg (Ne.symm h), empty, overloads?_ofSettings]
    rfl

end Registry

/-! ## What a registry answers

The three ways to make a registry, told together: what exists and what is held before any change.
-/

namespace Origin

@[simp] theorem settings_registry (origin : Origin) :
    origin.registry.settings = origin.settings := by
  cases origin with
  | empty => exact Registry.settings_ofSettings {}
  | standard =>
    rw [registry, Registry.standard, Registry.settings_modifySchema]
    exact Registry.settings_ofSettings {}
  | ofSettings settings => exact Registry.settings_ofSettings settings

theorem hasSchema_registry (origin : Origin) (schema : String) :
    origin.registry.hasSchema schema = true ↔
      schema = "pg_catalog" ∨ schema = "public" ∨ schema ∈ origin.settings.searchPath := by
  cases origin with
  | empty => exact Registry.hasSchema_ofSettings {} schema
  | standard =>
    rw [registry, Registry.standard, Registry.hasSchema_modifySchema, Registry.empty,
      Registry.hasSchema_ofSettings]
    constructor
    · rintro (rfl | h)
      · exact .inl rfl
      · exact h
    · exact .inr
  | ofSettings settings => exact Registry.hasSchema_ofSettings settings schema

theorem overloads_registry (origin : Origin) (schema name : String) :
    (origin.registry.overloads? schema name).getD [] = origin.builtins schema name := by
  cases origin with
  | empty =>
    rw [registry, Registry.empty, Registry.overloads?_ofSettings]
    rfl
  | standard => exact Registry.overloads_standard schema name
  | ofSettings settings =>
    rw [registry, Registry.overloads?_ofSettings]
    rfl

end Origin

namespace Registry

/-- The report of a schema that does not exist. -/
def unknownSchema (schema : String) : Diagnostic where
  code := "3F000"
  message := "schema \"" ++ schema ++ "\" does not exist"
  hint := none
  location := none

/-- A qualified name is looked for in its schema alone, and it is an error if there is no such
schema. -/
theorem resolve_qualified (r : Registry) (schema name : String) :
    (r.resolve ⟨none, some schema, name⟩).value =
      if r.hasSchema schema = true then .ok ((r.overloads? schema name).getD [])
      else .error (unknownSchema schema) := by
  have hdatabase : r.requireDatabase ⟨none, some schema, name⟩ = .ok () := rfl
  have hunknown : (Cause.unknownSchema schema).diagnostic none = unknownSchema schema := rfl
  rw [hasSchema_eq_isSome, overloads?]
  simp only [resolve, hdatabase]
  cases r.schemas[schema]? with
  | none => simp [hunknown]
  | some functions => simp

/-- A registry is the history of its accepted changes.  A change is accepted for its name alone,
whatever was done before, and those that are refused could as well not have been tried.  A name in
a schema stands for the built-in overloads, if the registry was made with them, and behind them
those of the accepted changes in order.  It is an error exactly if the schema is not known. -/
theorem registry_eq_history (origin : Origin) (changes : List Change) :
    let r := (origin.registry.attemptAll changes).1
    let done := (origin.registry.attemptAll changes).2
    done = changes.filter origin.settings.accepts
      ∧ origin.registry.applyAll done = .ok r
      ∧ (∀ schema, r.hasSchema schema = true ↔ origin.Knows done schema)
      ∧ ∀ schema name,
        let answer := (r.resolve ⟨none, some schema, name⟩).value
        (∀ found, answer = .ok found ↔ origin.Knows done schema
            ∧ found = origin.builtins schema name ++ registered done schema name)
          ∧ ∀ d, answer = .error d ↔ ¬ origin.Knows done schema ∧ d = unknownSchema schema := by
  intro r done
  have hschemas : ∀ schema, r.hasSchema schema = true ↔ origin.Knows done schema := by
    intro schema
    rw [hasSchema_attemptAll, origin.hasSchema_registry, or_assoc, or_assoc]
    rfl
  refine ⟨?_, origin.registry.applyAll_attemptAll changes, hschemas, ?_⟩
  · rw [← origin.settings_registry]
    exact origin.registry.attemptAll_snd changes
  · intro schema name answer
    have hoverloads : (r.overloads? schema name).getD [] =
        origin.builtins schema name ++ registered done schema name := by
      rw [overloads_attemptAll, origin.overloads_registry]
    -- both answers are read off one equation, by whether the schema is known
    have hanswer : answer = _ := r.resolve_qualified schema name
    rw [hoverloads] at hanswer
    by_cases hknown : origin.Knows done schema
    · rw [if_pos ((hschemas schema).mpr hknown)] at hanswer
      simp [hanswer, hknown, eq_comm]
    · rw [if_neg fun h => hknown ((hschemas schema).mp h)] at hanswer
      simp [hanswer, hknown, eq_comm]

end Registry

end SqlVet
