import SqlVet.Proofs.Catalog.History

/-!
# Resolving names in a registry

A search stops at the first schema of the search path that knows a name at all, and never asks
whether the schemas on the path exist.  That one gets the same by asking them one by one rests on
two things that no change takes away (`Registry.Sound`): the schemas on the search path exist, and
under no name is an empty list of overloads.

* `sound_registry`, `Sound.apply`, `Sound.attemptAll`: registries are sound when they are made and
  stay so;
* `resolve_unqualified`, `firstFound_path`: what is found along the search path of a sound registry;
* `resolve_first_of_path`: what a name resolves to, with one part, two and three.
-/

namespace SqlVet

/-! ## Names without empty overload lists

A name that is taken up gets its first overload at once.  So the list behind a name is never empty,
and the search along the path can stop at the first schema that has the name.
-/

/-- Every name that is there has an overload. -/
def Functions.Filled (functions : Functions) : Prop :=
  ∀ name : String, functions[name]? ≠ some []

namespace Functions

variable {functions : Functions}

/-- Pushing an overload leaves no name empty. -/
theorem Filled.push (h : functions.Filled) (name : String) (s : Signature) :
    (functions.push name s).Filled := by
  intro a
  rw [getElem?_push]
  split
  · intro hnil
    exact List.append_ne_nil_of_right_ne_nil _ (List.cons_ne_nil s []) (Option.some.inj hnil)
  · exact h a

theorem Filled.foldl_push (h : functions.Filled) (signatures : List Signature) :
    (signatures.foldl (fun functions s => functions.push s.name s) functions).Filled := by
  induction signatures generalizing functions with
  | nil => exact h
  | cons s signatures ih => exact ih (h.push s.name s)

end Functions

namespace Registry

variable {r r' : Registry} {c : Change}

/-! ## Soundness

The schemas that every registry has, and no name without overloads.  What one change preserves is
said first, and then what any of them do.
-/

/-- What resolving names relies on. -/
structure Sound (r : Registry) : Prop where
  builtin : r.hasSchema "pg_catalog" = true
  default : r.hasSchema "public" = true
  searchPath : ∀ schema ∈ r.settings.searchPath, r.hasSchema schema = true
  filled : ∀ schema name, r.overloads? schema name ≠ some []

namespace Sound

/-- Schemas may be added, and functions in them, under the same settings. -/
theorem of_grown (h : r.Sound) (hsettings : r'.settings = r.settings)
    (hschemas : ∀ schema, r.hasSchema schema = true → r'.hasSchema schema = true)
    (hfilled : ∀ schema name, r'.overloads? schema name ≠ some []) : r'.Sound where
  builtin := hschemas _ h.builtin
  default := hschemas _ h.default
  searchPath := by
    intro schema hmem
    rw [hsettings] at hmem
    exact hschemas schema (h.searchPath schema hmem)
  filled := hfilled

theorem createSchema (h : r.Sound) (schema : String) : (r.createSchema schema).Sound := by
  apply h.of_grown (r.settings_createSchema schema)
  · intro a ha
    exact (r.hasSchema_createSchema schema a).mpr (.inr ha)
  · intro a name
    rw [overloads?_createSchema]
    exact h.filled a name

/-- A change of one schema's functions is sound if it leaves none of their names empty. -/
theorem modifySchema (h : r.Sound) (schema : String) {f : Functions → Functions}
    (hf : ∀ functions : Functions, functions.Filled → (f functions).Filled) :
    (r.modifySchema schema f).Sound := by
  apply h.of_grown (r.settings_modifySchema schema f)
  · intro a ha
    exact (r.hasSchema_modifySchema schema a f).mpr (.inr ha)
  · intro a name
    rw [overloads?_modifySchema]
    split
    · apply hf _ _ name
      intro b
      rw [getElem?_getD_schemas]
      exact h.filled a b
    · exact h.filled a name

theorem insert (h : r.Sound) (schema name : String) (s : Signature) :
    (r.insert schema name s).Sound :=
  h.modifySchema schema fun _ hfilled => hfilled.push name s

/-- One change keeps a registry sound. -/
theorem apply (h : r.Sound) (hc : r.apply c = .ok r') : r'.Sound := by
  obtain ⟨-, ⟨schema, -, -, rfl⟩ | ⟨e, -, rfl⟩⟩ := apply_eq_ok hc
  · exact h.createSchema schema
  · exact h.insert e.schema e.name e.signature

/-- So do any number of changes, refused ones among them. -/
theorem attemptAll (h : r.Sound) (cs : List Change) : (r.attemptAll cs).1.Sound :=
  attemptAll_preserves (fun hc h => h.apply hc) h cs

end Sound

/-- A registry made from settings is sound: its schemas exist and hold no names. -/
theorem sound_ofSettings (settings : Settings) : (ofSettings settings).Sound where
  builtin := (hasSchema_ofSettings settings _).mpr (.inl rfl)
  default := (hasSchema_ofSettings settings _).mpr (.inr (.inl rfl))
  searchPath := by
    intro schema hmem
    rw [settings_ofSettings] at hmem
    exact (hasSchema_ofSettings settings schema).mpr (.inr (.inr hmem))
  filled := by
    intro schema name
    rw [overloads?_ofSettings]
    nofun

theorem sound_standard : standard.Sound :=
  (sound_ofSettings {}).modifySchema builtinSchema fun _ hfilled => hfilled.foldl_push builtins

end Registry

/-- However a registry is made, it is sound from the start. -/
theorem Origin.sound_registry (origin : Origin) : origin.registry.Sound := by
  cases origin with
  | empty => exact Registry.sound_ofSettings {}
  | standard => exact Registry.sound_standard
  | ofSettings settings => exact Registry.sound_ofSettings settings

namespace Registry

/-! ## Along the search path

An unqualified name resolves to what the first schema of the path answers that knows it.
-/

variable {r : Registry}

/-- What is found by asking schemas in turn up to the first with any overloads, where `answer` is
what each schema tells by itself: the overloads of that schema alone, or nothing if none has any. -/
inductive FirstFound (answer : String → Except Diagnostic (List Signature)) :
    List String → List Signature → Prop where
  | found {schema : String} {found : List Signature} (later : List String)
      (held : answer schema = .ok found) (nonempty : found ≠ []) :
      FirstFound answer (schema :: later) found
  | passed {schema : String} {later : List String} {found : List Signature}
      (held : answer schema = .ok []) (rest : FirstFound answer later found) :
      FirstFound answer (schema :: later) found
  | missed : FirstFound answer [] []

/-- An unqualified name resolves to what the first schema on the path holds that has taken it up,
and never fails. -/
theorem resolve_unqualified (r : Registry) (name : String) :
    (r.resolve ⟨none, none, name⟩).value =
      .ok ((r.settings.searchPath.findSome? fun schema => r.overloads? schema name).getD []) := by
  have hsearch : r.settings.searchPath.findSome? (fun schema => r.overloads? schema name) =
      (r.search name).map Prod.snd := by
    rw [search, List.map_findSome?]
    congr 1
    funext schema
    rw [Function.comp_apply, Option.map_map]
    exact (congrFun Option.map_id _).symm
  rw [hsearch]
  have hdatabase : r.requireDatabase ⟨none, none, name⟩ = .ok () := rfl
  simp only [resolve, hdatabase]
  cases r.search name with
  | none => rfl
  | some found => rfl

/-- Whoever skips the schemas without a name and stops at the first with it gets what the schemas
tell one by one. -/
theorem firstFound_path (hfilled : ∀ schema name, r.overloads? schema name ≠ some [])
    (name : String) {path : List String} (hpath : ∀ schema ∈ path, r.hasSchema schema = true) :
    FirstFound (fun schema => (r.resolve ⟨none, some schema, name⟩).value) path
      ((path.findSome? fun schema => r.overloads? schema name).getD []) := by
  induction path with
  | nil => exact .missed
  | cons schema later ih =>
    rw [List.forall_mem_cons] at hpath
    obtain ⟨hschema, hlater⟩ := hpath
    have hanswer := r.resolve_qualified schema name
    rw [if_pos hschema] at hanswer
    rw [List.findSome?_cons]
    cases hheld : r.overloads? schema name with
    | none =>
      rw [hheld] at hanswer
      exact .passed hanswer (ih hlater)
    | some found =>
      -- an empty list would end the search, but send the questions on
      have hnonempty : found ≠ [] := by
        rintro rfl
        exact hfilled schema name hheld
      rw [hheld] at hanswer
      exact .found later hanswer hnonempty

/-! ## Names of another database

A name of three parts resolves like the last two of them, or not at all.
-/

/-- The report of a name of another database. -/
def otherDatabase (database schema name : String) : Diagnostic where
  code := "0A000"
  message := "cross-database references are not implemented: "
    ++ (database ++ "." ++ schema ++ "." ++ name)
  hint := none
  location := none

/-- The database is asked for before the schema: a wrong one is reported even if the schema does not
exist. -/
theorem resolve_database (r : Registry) (database schema name : String) :
    (r.resolve ⟨some database, some schema, name⟩).value =
      if database = r.settings.database then (r.resolve ⟨none, some schema, name⟩).value
      else .error (otherDatabase database schema name) := by
  let n : FunctionName := ⟨some database, some schema, name⟩
  have htext : (Cause.otherDatabase n.text).diagnostic none =
      otherDatabase database schema name := rfl
  split
  · next h =>
    have hdatabase : r.requireDatabase ⟨some database, some schema, name⟩ = .ok () := if_pos h
    have hnone : r.requireDatabase ⟨none, some schema, name⟩ = .ok () := rfl
    simp only [resolve, hdatabase, hnone]
    cases r.schemas[schema]? with
    | none => rfl
    | some functions => rfl
  · next h =>
    have hdatabase : r.requireDatabase ⟨some database, some schema, name⟩ =
        .error (otherDatabase database schema name) := by
      rw [← htext]
      exact if_neg h
    simp only [resolve, hdatabase]
    rfl

/-- In a registry, however it was made and changed, the schemas that names are looked for in exist,
and no name stands for an empty list.  So a name by itself always has an answer: that of the first
schema of the search path which has any overloads for it.  A name with a schema and the database we
are in means the same as without the database; with another database it is refused, whether or not
there is such a schema. -/
theorem resolve_first_of_path (origin : Origin) (changes : List Change) :
    let r := (origin.registry.attemptAll changes).1
    r.settings = origin.settings ∧ r.Sound
      ∧ (∀ name, ∃ found, (r.resolve ⟨none, none, name⟩).value = .ok found
        ∧ FirstFound (fun schema => (r.resolve ⟨none, some schema, name⟩).value)
          r.settings.searchPath found)
      ∧ ∀ database schema name,
        (r.resolve ⟨some database, some schema, name⟩).value =
          if database = r.settings.database then (r.resolve ⟨none, some schema, name⟩).value
          else .error (otherDatabase database schema name) := by
  intro r
  have hsound : r.Sound := origin.sound_registry.attemptAll changes
  have hsettings : r.settings = origin.settings := by
    rw [← origin.settings_registry]
    exact origin.registry.settings_attemptAll changes
  refine ⟨hsettings, hsound, ?_, r.resolve_database⟩
  intro name
  refine ⟨_, r.resolve_unqualified name, ?_⟩
  exact firstFound_path hsound.filled name hsound.searchPath

end Registry

end SqlVet
