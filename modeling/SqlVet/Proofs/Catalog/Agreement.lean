import SqlVet.Proofs.Catalog.Resolution
import SqlVet.Proofs.Name.Grammar

/-!
# Registering and resolving agree

A name is registered on one path and resolved on another.  Both have to read it, to look at the
database it means and to find its schema, and they agree on all of it, except that a schema which
does not exist stops the one and is made by the other.

* `resolve_eq`: what a name resolves to and what is told of it, from what the registry holds;
* `resolve_eq_ok_iff`, `resolves_iff`, `resolve_eq_error_iff`: which names resolve, and to what;
* `run_register`: registering step by step comes to the same as registering at once, and a step that
  is refused finds nothing changed;
* `performAll_eq_attemptAll`: so do any changes that are made in place, one after another;
* `run_register_eq_error_iff`, `run_register_eq_ok_iff`: which names are refused and which are not;
* `register_agrees_with_resolve`: how that fits with what is found, before and afterwards.
-/

namespace SqlVet

/-- A name of another database than the one we are in. -/
def FunctionName.Foreign (n : FunctionName) (settings : Settings) : Prop :=
  ∃ database, n.database = some database ∧ database ≠ settings.database

/-- A name that has a database has a schema too. -/
theorem FunctionName.exists_parts_of_foreign {n : FunctionName} {settings : Settings}
    (hn : n.WellScoped) (h : n.Foreign settings) :
    ∃ database schema, n = ⟨some database, some schema, n.base⟩ ∧ database ≠ settings.database := by
  obtain ⟨database, hdatabase, hne⟩ := h
  obtain ⟨_, schema, base⟩ := n
  cases hdatabase
  cases schema with
  | none => cases hn rfl
  | some schema => exact ⟨database, schema, rfl, hne⟩

namespace Registry

variable {r : Registry} {n : FunctionName} {d : Diagnostic}

/-! ## What is answered

First the two ways in which a look-up is refused, by the database of the name and by its schema, and
then what it answers otherwise.
-/

/-- The names of other databases are refused, and the report repeats the name as it was read. -/
theorem requireDatabase_eq_error_iff :
    r.requireDatabase n = .error d ↔
      n.Foreign r.settings ∧ d = (Cause.otherDatabase n.text).diagnostic none := by
  unfold requireDatabase FunctionName.Foreign
  cases n.database with
  | none => simp
  | some database =>
    by_cases h : database = r.settings.database
    · simp [h]
    · simp [h, eq_comm]

theorem requireDatabase_cases (r : Registry) (n : FunctionName) :
    (n.Foreign r.settings ∧ ∃ d, r.requireDatabase n = .error d)
      ∨ ¬ n.Foreign r.settings ∧ r.requireDatabase n = .ok () := by
  cases h : r.requireDatabase n with
  | error d => exact .inl ⟨(requireDatabase_eq_error_iff.mp h).1, d, rfl⟩
  | ok u =>
    refine .inr ⟨?_, rfl⟩
    intro hforeign
    rw [requireDatabase_eq_error_iff.mpr ⟨hforeign, rfl⟩] at h
    cases h

theorem requireDatabase_eq_ok_iff_not_foreign :
    r.requireDatabase n = .ok () ↔ ¬ n.Foreign r.settings := by
  rcases r.requireDatabase_cases n with ⟨hforeign, d, hd⟩ | ⟨hnear, hok⟩
  · simp [hforeign, hd]
  · simp [hnear, hok]

/-- What a name resolves to, from what the registry holds. -/
theorem resolve_eq (r : Registry) (n : FunctionName) :
    r.resolve n =
      match r.requireDatabase n, n.schema with
      | .error d, _ => pure (.error d)
      | .ok (), some schema =>
        if r.hasSchema schema = true then
          let found := (r.overloads? schema n.base).getD []
          ⟨.ok found, [.lookup n.text none found.length]⟩
        else pure (.error (unknownSchema schema))
      | .ok (), none =>
        match r.search n.base with
        | some (schema, found) => ⟨.ok found, [.lookup n.text (some schema) found.length]⟩
        | none => ⟨.ok [], [.lookupMissed n.text]⟩ := by
  unfold resolve
  cases r.requireDatabase n with
  | error d => rfl
  | ok u =>
    cases n.schema with
    | none => cases r.search n.base <;> rfl
    | some schema =>
      dsimp only
      rw [hasSchema_eq_isSome, overloads?]
      cases r.schemas[schema]? <;> rfl

/-- A name of the database we are in resolves as it does without the database. -/
theorem resolve_of_near (hn : ¬ n.Foreign r.settings) :
    (r.resolve n).value = (r.resolve ⟨none, n.schema, n.base⟩).value := by
  have hnone : r.requireDatabase ⟨none, n.schema, n.base⟩ = .ok () := rfl
  rw [resolve_eq, resolve_eq, hnone]
  rcases r.requireDatabase_cases n with ⟨hforeign, -⟩ | ⟨-, hok⟩
  · exact absurd hforeign hn
  · rw [hok]
    cases n.schema with
    | none => cases r.search n.base <;> rfl
    | some schema =>
      dsimp only
      split
      · rfl
      · rfl

/-- What a name resolves to: what its schema holds, or else what is held by the first schema of the
search path that knows it. -/
theorem resolve_eq_ok_iff {found : List Signature} :
    (r.resolve n).value = .ok found ↔
      ¬ n.Foreign r.settings
        ∧ ((∃ schema, n.schema = some schema ∧ r.hasSchema schema = true
            ∧ found = (r.overloads? schema n.base).getD [])
          ∨ n.schema = none ∧ found =
            (r.settings.searchPath.findSome? fun a => r.overloads? a n.base).getD []) := by
  constructor
  · intro h
    rcases r.requireDatabase_cases n with ⟨-, d, hd⟩ | ⟨hnear, -⟩
    · rw [resolve_eq, hd] at h
      cases h
    · refine ⟨hnear, ?_⟩
      rw [resolve_of_near hnear] at h
      cases hschema : n.schema with
      | none =>
        rw [hschema, resolve_unqualified] at h
        cases h
        exact .inr ⟨rfl, rfl⟩
      | some schema =>
        rw [hschema, resolve_qualified] at h
        split at h
        · next hknown =>
          cases h
          exact .inl ⟨schema, rfl, hknown, rfl⟩
        · cases h
  · rintro ⟨hnear, ⟨schema, hschema, hknown, rfl⟩ | ⟨hschema, rfl⟩⟩
    · rw [resolve_of_near hnear, hschema, resolve_qualified, if_pos hknown]
    · rw [resolve_of_near hnear, hschema, resolve_unqualified]

/-- A name resolves exactly if it is one of the database we are in and the schema it names exists.
Nothing else is asked of it: the function need not be known. -/
theorem resolves_iff :
    (∃ found, (r.resolve n).value = .ok found) ↔
      ¬ n.Foreign r.settings ∧ ∀ schema, n.schema = some schema → r.hasSchema schema = true := by
  constructor
  · rintro ⟨found, h⟩
    obtain ⟨hnear, ⟨a, ha, hknown, -⟩ | ⟨hnone, -⟩⟩ := resolve_eq_ok_iff.mp h
    · refine ⟨hnear, ?_⟩
      intro schema hschema
      rw [ha] at hschema
      cases hschema
      exact hknown
    · refine ⟨hnear, ?_⟩
      intro schema hschema
      rw [hnone] at hschema
      cases hschema
  · rintro ⟨hnear, hall⟩
    cases hschema : n.schema with
    | none => exact ⟨_, resolve_eq_ok_iff.mpr ⟨hnear, .inr ⟨hschema, rfl⟩⟩⟩
    | some schema =>
      exact ⟨_, resolve_eq_ok_iff.mpr ⟨hnear, .inl ⟨schema, hschema, hall schema hschema, rfl⟩⟩⟩

/-- Why a name does not resolve. -/
theorem resolve_eq_error_iff :
    (r.resolve n).value = .error d ↔
      r.requireDatabase n = .error d
        ∨ r.requireDatabase n = .ok () ∧ ∃ schema, n.schema = some schema
          ∧ r.hasSchema schema = false ∧ d = unknownSchema schema := by
  rw [resolve_eq]
  cases r.requireDatabase n with
  | error e =>
    constructor
    · intro h
      cases h
      exact .inl rfl
    · rintro (h | ⟨h, -⟩)
      · cases h
        rfl
      · cases h
  | ok u =>
    rw [or_iff_right nofun, and_iff_right rfl]
    cases n.schema with
    | none =>
      refine ⟨?_, nofun⟩
      intro h
      -- a search that finds nothing is an answer too
      cases hsearch : r.search n.base with
      | none => rw [hsearch] at h; cases h
      | some found => rw [hsearch] at h; cases h
    | some schema =>
      dsimp only
      cases hschema : r.hasSchema schema with
      | true =>
        rw [if_pos rfl]
        refine ⟨nofun, ?_⟩
        rintro ⟨a, ha, hnone, -⟩
        cases ha
        rw [hschema] at hnone
        cases hnone
      | false =>
        rw [if_neg Bool.false_ne_true]
        constructor
        · intro h
          cases h
          exact ⟨schema, rfl, hschema, rfl⟩
        · rintro ⟨a, ha, -, rfl⟩
          cases ha
          rfl

/-! ## Step by step

Registering in place makes the schema, takes up the name in it and adds the overload.  The map that
comes out is the one that an overload added at once gives, since the later steps find what the
earlier ones made.
-/

/-- A change of a schema's functions makes the schema itself, so that making it before is of no
account. -/
theorem modifySchema_createSchema (r : Registry) (schema : String) (f : Functions → Functions) :
    (r.createSchema schema).modifySchema schema f = r.modifySchema schema f := by
  refine congrArg (Registry.mk r.settings) ?_
  apply Std.ExtHashMap.ext_getElem?
  intro a
  simp only [createSchema, Std.ExtHashMap.getElem?_alter, Std.ExtHashMap.getElem?_insertIfNew]
  by_cases h : schema = a
  · subst h
    by_cases hmem : schema ∈ r.schemas
    · simp [hmem]
    · simp [hmem]
  · simp [h]

theorem modifySchema_modifySchema (r : Registry) (schema : String)
    (f g : Functions → Functions) :
    (r.modifySchema schema f).modifySchema schema g =
      r.modifySchema schema fun functions => g (f functions) := by
  refine congrArg (Registry.mk r.settings) ?_
  apply Std.ExtHashMap.ext_getElem?
  intro a
  simp only [modifySchema, Std.ExtHashMap.getElem?_alter]
  by_cases h : schema = a
  · simp [h]
  · simp [h]

/-- An overload is added in the same way to a name that is there and to one that was just taken
up. -/
theorem push_createName (functions : Functions) (name : String) (s : Signature) :
    (functions.createName name).push name s = functions.push name s := by
  apply Std.ExtHashMap.ext_getElem?
  intro a
  simp only [Functions.getElem?_push, Functions.getElem?_createName]
  by_cases h : name = a
  · simp [h]
  · simp [h]

/-- Making the schema, taking up the name and adding the overload behind the earlier ones. -/
theorem insert_eq_steps (r : Registry) (schema name : String) (s : Signature) :
    ((r.createSchema schema).modifySchema schema fun functions =>
        functions.createName name).modifySchema schema (fun functions => functions.push name s) =
      r.insert schema name s := by
  rw [modifySchema_createSchema, modifySchema_modifySchema, insert]
  simp only [push_createName]

/-- Registering in place ends as registering at once does.  A step is refused before the first that
changes anything, so the registry is then as it was. -/
theorem run_register (r : Registry) (text : String) (s : Signature) :
    (register text s).run r =
      match r.define text s with
      | .ok next => .ok () next
      | .error d => .error d r := by
  unfold register
  cases hn : FunctionName.ofText text with
  | error d =>
    rw [define_of_unreadable hn]
    rfl
  | ok n =>
    -- what is left once the name is read: the question for the database, and the three changes
    show (do
      ofExcept (r.requireDatabase n)
      modify fun r => r.createSchema (n.schema.getD defaultSchema)
      modify fun r => r.modifySchema (n.schema.getD defaultSchema) fun functions =>
        functions.createName n.base
      modify fun r => r.modifySchema (n.schema.getD defaultSchema) fun functions =>
        functions.push n.base s : EStateM Diagnostic Registry Unit).run r = _
    cases hdatabase : r.requireDatabase n with
    | error d =>
      rw [define_of_refused hn hdatabase]
      rfl
    | ok u =>
      rw [define_of_accepted hn hdatabase, ← insert_eq_steps]
      rfl

/-- What a failure of registering comes from, and that it leaves no trace. -/
theorem run_register_eq_error_iff {next : Registry} {text : String} {s : Signature} :
    (register text s).run r = .error d next ↔
      next = r ∧ (FunctionName.ofText text = .error d
        ∨ ∃ n, FunctionName.ofText text = .ok n ∧ r.requireDatabase n = .error d) := by
  constructor
  · intro h
    cases hdefine : r.define text s with
    | error e =>
      rw [run_register, hdefine] at h
      cases h
      exact ⟨rfl, define_eq_error hdefine⟩
    | ok q =>
      rw [run_register, hdefine] at h
      cases h
  · rintro ⟨rfl, hn | ⟨n, hn, hd⟩⟩
    · rw [run_register, define_of_unreadable hn]
    · rw [run_register, define_of_refused hn hd]

/-- Registering succeeds for names that can be read and do not belong to another database, and adds
the overload to the schema of the name or to the default one. -/
theorem run_register_eq_ok_iff {next : Registry} {text : String} {s : Signature} :
    (register text s).run r = .ok () next ↔
      ∃ n, FunctionName.ofText text = .ok n ∧ ¬ n.Foreign r.settings
        ∧ next = r.insert (n.schema.getD defaultSchema) n.base s := by
  constructor
  · intro h
    cases hdefine : r.define text s with
    | error e =>
      rw [run_register, hdefine] at h
      cases h
    | ok q =>
      rw [run_register, hdefine] at h
      cases h
      obtain ⟨n, hn, hok, hinsert⟩ := define_eq_ok hdefine
      exact ⟨n, hn, requireDatabase_eq_ok_iff_not_foreign.mp hok, hinsert⟩
  · rintro ⟨n, hn, hnear, rfl⟩
    rw [run_register, define_of_accepted hn (requireDatabase_eq_ok_iff_not_foreign.mpr hnear)]

/-! ## Changes in place

The same for all changes: each is made in the registry that the one before it has left, be it
accepted or refused.
-/

/-- Makes a change in the registry itself. -/
def perform : Change → EStateM Diagnostic Registry Unit
  | .schema name => modify fun r => r.createSchema name
  | .function text s => register text s

/-- Tries changes in turn in the registry itself.  After one that is refused it goes on with
whatever that one has left.  Beside the registry in the end, the changes that were accepted. -/
def performAll (r : Registry) : List Change → Registry × List Change
  | [] => (r, [])
  | c :: cs =>
    match (perform c).run r with
    | .error _ left => left.performAll cs
    | .ok _ next => ((next.performAll cs).1, c :: (next.performAll cs).2)

/-- One change in place ends as the change at once does, and leaves nothing behind if it is
refused. -/
theorem run_perform (r : Registry) (c : Change) :
    (perform c).run r =
      match r.apply c with
      | .ok next => .ok () next
      | .error d => .error d r := by
  cases c with
  | schema name => rfl
  | function text s => exact r.run_register text s

/-- Schemas that are made and functions that are registered in place, in any order, end in the
registry that the changes at once end in, and the same of them are refused. -/
theorem performAll_eq_attemptAll (r : Registry) (cs : List Change) :
    r.performAll cs = r.attemptAll cs := by
  induction cs generalizing r with
  | nil => rfl
  | cons c cs ih =>
    rw [performAll, run_perform]
    -- a refused change has left the registry as it was, so the rest begins in the same one
    cases h : r.apply c with
    | error d =>
      rw [attemptAll_cons_of_error h]
      exact ih r
    | ok next =>
      rw [attemptAll_cons_of_ok h, ← ih next]

/-! ## Agreement

Whoever registers a name and whoever resolves it hear the same about it.
-/

/-- A schema that is made answers from then on, and no name stops to resolve. -/
theorem resolves_insert (hn : ¬ n.Foreign r.settings) (s : Signature) :
    (∃ found, ((r.insert (n.schema.getD defaultSchema) n.base s).resolve n).value = .ok found)
      ∧ ∀ m found, (r.resolve m).value = .ok found →
        ∃ more, ((r.insert (n.schema.getD defaultSchema) n.base s).resolve m).value = .ok more := by
  constructor
  · apply resolves_iff.mpr
    refine ⟨hn, ?_⟩
    intro schema hschema
    rw [hasSchema_insert, hschema]
    exact .inl rfl
  · intro m found hfound
    obtain ⟨hm, hschemas⟩ := resolves_iff.mp ⟨found, hfound⟩
    apply resolves_iff.mpr
    refine ⟨hm, ?_⟩
    intro schema hschema
    rw [hasSchema_insert]
    exact .inr (hschemas schema hschema)

/-- A text that cannot be read as a name is a syntax error, whatever is wrong with it. -/
theorem code_of_ofText_eq_error {text : String} (h : FunctionName.ofText text = .error d) :
    d.code = "42601" := by
  rcases FunctionName.ofText_eq_error_iff.mp h with hd | ⟨parts, -, -, rfl⟩
  · exact (nameParts_eq_error_iff.mp hd).syntaxErrorIn.code
  · rfl

/-- Registering in place fails for the name alone: if it cannot be read, with the report of that, or
if it belongs to another database, with the report that resolving it gives.  That a schema does not
exist is no reason to fail.  A registry is as it was when registering fails.  When it succeeds the
name resolves, whether or not it did before, and so does every name that did before. -/
theorem register_agrees_with_resolve (r : Registry) (text : String) (s : Signature) :
    let attempt := (register text s).run r
    ((∃ d next, attempt = .error d next) ↔
        (∃ d, FunctionName.ofText text = .error d)
          ∨ ∃ n, FunctionName.ofText text = .ok n ∧ n.Foreign r.settings)
      ∧ (∀ d, FunctionName.ofText text = .error d → attempt = .error d r)
      ∧ (∀ n, FunctionName.ofText text = .ok n → n.Foreign r.settings →
          ∃ d, attempt = .error d r ∧ (r.resolve n).value = .error d)
      ∧ (∀ d next, attempt = .error d next → next = r ∧ d.code ≠ "3F000")
      ∧ ∀ n next, FunctionName.ofText text = .ok n → attempt = .ok () next →
          (∃ found, (next.resolve n).value = .ok found)
            ∧ ∀ m found, (r.resolve m).value = .ok found →
              ∃ more, (next.resolve m).value = .ok more := by
  intro attempt
  refine ⟨?_, ?_, ?_, ?_, ?_⟩
  · constructor
    · rintro ⟨d, next, hd⟩
      obtain ⟨-, hn | ⟨n, hn, hdatabase⟩⟩ := run_register_eq_error_iff.mp hd
      · exact .inl ⟨d, hn⟩
      · exact .inr ⟨n, hn, (requireDatabase_eq_error_iff.mp hdatabase).1⟩
    · rintro (⟨d, hn⟩ | ⟨n, hn, hforeign⟩)
      · exact ⟨d, r, run_register_eq_error_iff.mpr ⟨rfl, .inl hn⟩⟩
      · have hd := requireDatabase_eq_error_iff.mpr ⟨hforeign, rfl⟩
        exact ⟨_, r, run_register_eq_error_iff.mpr ⟨rfl, .inr ⟨n, hn, hd⟩⟩⟩
  · intro d hn
    exact run_register_eq_error_iff.mpr ⟨rfl, .inl hn⟩
  · intro n hn hforeign
    have hd := requireDatabase_eq_error_iff.mpr ⟨hforeign, rfl⟩
    exact ⟨_, run_register_eq_error_iff.mpr ⟨rfl, .inr ⟨n, hn, hd⟩⟩,
      resolve_eq_error_iff.mpr (.inl hd)⟩
  · intro d next hd
    obtain ⟨hnext, hn | ⟨n, -, hdatabase⟩⟩ := run_register_eq_error_iff.mp hd
    · refine ⟨hnext, ?_⟩
      rw [code_of_ofText_eq_error hn]
      decide
    -- only a look-up can miss a schema, and registering looks nothing up
    · obtain ⟨-, rfl⟩ := requireDatabase_eq_error_iff.mp hdatabase
      refine ⟨hnext, ?_⟩
      show "0A000" ≠ "3F000"
      decide
  · intro n next hn hnext
    obtain ⟨m, hm, hnear, rfl⟩ := run_register_eq_ok_iff.mp hnext
    cases hn.symm.trans hm
    exact resolves_insert hnear s

/-- In a registry of `db`, `Sales.f` is registered although there is no schema `sales`, and found
from then on.  `other.sales.f` and `a.` are refused, for the database and for the dot at the end. -/
theorem register_agrees_with_resolve_missing :
    let r : Registry := .ofSettings ⟨"db", ["app"]⟩
    let s : Signature := .ofCount "f" 1 "text"
    let n : FunctionName := ⟨none, some "sales", "f"⟩
    let other : FunctionName := ⟨some "other", some "sales", "f"⟩
    let app : FunctionName := ⟨none, some "app", "f"⟩
    FunctionName.ofText "Sales.f" = .ok n
      ∧ (r.resolve n).value = .error (unknownSchema "sales")
      ∧ (∃ next, (register "Sales.f" s).run r = .ok () next
        ∧ (∃ found, (next.resolve n).value = .ok found)
        ∧ (r.resolve app).value = .ok [] ∧ ∃ found, (next.resolve app).value = .ok found)
      ∧ FunctionName.ofText "other.sales.f" = .ok other ∧ other.Foreign r.settings
      ∧ (∃ d, (register "other.sales.f" s).run r = .error d r
        ∧ (r.resolve other).value = .error d)
      ∧ ∃ d, FunctionName.ofText "a." = .error d ∧ (register "a." s).run r = .error d r
        ∧ d.code ≠ "3F000" := by
  intro r s n other app
  have hn : FunctionName.ofText "Sales.f" = .ok n := by decide +kernel
  have hother : FunctionName.ofText "other.sales.f" = .ok other := by decide +kernel
  have ha : FunctionName.ofText "a." =
      .error ⟨"42601", "syntax error at end of input", none, some 2⟩ := by decide +kernel
  have hnear : ¬ n.Foreign r.settings := by
    rintro ⟨database, hdatabase, -⟩
    cases hdatabase
  have hforeign : other.Foreign r.settings := by
    refine ⟨"other", rfl, ?_⟩
    rw [settings_ofSettings]
    decide
  obtain ⟨hfails, -, -, -, hfound⟩ := register_agrees_with_resolve r "Sales.f" s
  obtain ⟨-, -, hrefused, -, -⟩ := register_agrees_with_resolve r "other.sales.f" s
  obtain ⟨-, hunread, -, hcode, -⟩ := register_agrees_with_resolve r "a." s
  have hmissing : (r.resolve n).value = .error (unknownSchema "sales") := by
    rw [resolve_qualified, if_neg]
    rw [hasSchema_ofSettings]
    decide
  have happ : (r.resolve app).value = .ok [] := by
    rw [resolve_qualified, if_pos, overloads?_ofSettings]
    · rfl
    · rw [hasSchema_ofSettings]
      decide
  refine ⟨hn, hmissing, ?_, hother, hforeign, hrefused other hother hforeign, _, ha,
    hunread _ ha, (hcode _ _ (hunread _ ha)).2⟩
  cases hattempt : (register "Sales.f" s).run r with
  | error d next =>
    rcases hfails.mp ⟨d, next, hattempt⟩ with ⟨e, he⟩ | ⟨m, hm, hm'⟩
    · cases hn.symm.trans he
    · cases hn.symm.trans hm
      exact absurd hm' hnear
  | ok u next =>
    obtain ⟨hnext, hkept⟩ := hfound n next hn hattempt
    exact ⟨next, rfl, hnext, happ, hkept app [] happ⟩

end Registry

end SqlVet
