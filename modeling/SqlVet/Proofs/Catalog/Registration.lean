import SqlVet.Proofs.Catalog.Resolution
import SqlVet.Proofs.Name.RoundTrip
import SqlVet.Session

/-!
# Finding what was registered

A function is registered under a text, and looked up by the parts that a statement gives.  The two
meet in the quoted name: it is read as its parts, whatever characters they have.

* `define_quotedName`: registering under a quoted name never fails, if no part of it is empty;
* `resolve_insert`: a name in a schema then has one more overload, behind those it had;
* `visible_iff`: a schema can be seen along the search path if the search gets as far as that;
* `resolve_insert_of_visible`, `resolve_insert_of_not_visible`: by itself the name has it as well if
  the schema can be seen along the search path, and means what it meant before if it cannot;
* `define_found_by_parts`: so what is registered under a text is found by its parts.
-/

namespace SqlVet.Registry

variable {r : Registry} {schema name : String}

/-! ## What is there

A name that nothing was registered under and a schema that does not exist are alike here: they hold
no overloads.
-/

/-- The overloads that a schema answers a name with; none if there is no such schema. -/
def held (r : Registry) (schema name : String) : List Signature :=
  match (r.resolve ⟨none, some schema, name⟩).value with
  | .ok found => found
  | .error _ => []

theorem held_eq (r : Registry) (schema name : String) :
    r.held schema name = (r.overloads? schema name).getD [] := by
  rw [held, resolve_qualified, hasSchema_eq_isSome, overloads?]
  cases r.schemas[schema]? <;> rfl

/-- In a sound registry a name holds no overloads only if nobody has taken it up. -/
theorem Sound.held_eq_nil_iff (h : r.Sound) :
    r.held schema name = [] ↔ r.overloads? schema name = none := by
  have hfilled := h.filled schema name
  rw [held_eq]
  cases hheld : r.overloads? schema name with
  | none => simp
  | some found =>
    rw [hheld] at hfilled
    simpa using hfilled

/-- A schema is on the search path, and none before its first occurrence there holds the name. -/
structure Visible (r : Registry) (schema name : String) : Prop where
  onPath : schema ∈ r.settings.searchPath
  unhidden : ∀ b ∈ r.settings.searchPath.takeWhile (· ≠ schema), r.held b name = []

/-! ## Under a quoted name

A quoted name can have any parts but empty ones, and none of them is changed by reading it.
-/

/-- A quoted name is read as it was meant, so its overload goes where the name says. -/
theorem define_quotedName {n : FunctionName} (hn : n.WellScoped) (hparts : ∀ p ∈ n.parts, p ≠ "")
    (hdatabase : r.requireDatabase n = .ok ()) (s : Signature) :
    r.define (quotedName n.parts) s = .ok (r.insert (n.schema.getD defaultSchema) n.base s) := by
  have hread : nameParts (quotedName n.parts) = .ok n.parts :=
    nameParts_of_named (named_quotedName_iff.mpr hparts)
  exact define_of_accepted (FunctionName.ofText_of_parts hread hn) hdatabase s

/-! ## In its schema

A qualified look-up finds a new overload behind the earlier ones.
-/

/-- Right after an overload is added, its qualified name resolves to the earlier ones and it, and
its schema exists. -/
theorem resolve_insert (r : Registry) (schema name : String) (s : Signature) :
    ((r.insert schema name s).resolve ⟨none, some schema, name⟩).value =
      .ok (r.held schema name ++ [s]) := by
  have hschema : (r.insert schema name s).hasSchema schema = true :=
    (r.hasSchema_insert schema schema name s).mpr (.inl rfl)
  rw [resolve_qualified, if_pos hschema, overloads?_insert, if_pos ⟨rfl, rfl⟩, held_eq]
  rfl

/-! ## Along the search path

An unqualified look-up finds a new overload if no schema before its own on the search path holds the
name.
-/

/-- Schemas other than the one that is added to hold what they held. -/
theorem findSome?_insert_of_notMem {path : List String} (h : schema ∉ path) (s : Signature) :
    (path.findSome? fun a => (r.insert schema name s).overloads? a name) =
      path.findSome? fun a => r.overloads? a name := by
  induction path with
  | nil => rfl
  | cons a path ih =>
    rw [List.mem_cons, not_or] at h
    obtain ⟨hne, hpath⟩ := h
    rw [List.findSome?_cons, List.findSome?_cons, overloads?_insert, if_neg fun ha => hne ha.1,
      ih hpath]

theorem takeWhile_ne_of_notMem {before : List String} (h : schema ∉ before) (after : List String) :
    (before ++ schema :: after).takeWhile (· ≠ schema) = before := by
  rw [List.takeWhile_append_of_pos, List.takeWhile_cons_of_neg, List.append_nil]
  · simp
  · intro b hb
    exact decide_eq_true fun hbs => h (hbs ▸ hb)

/-- A schema on the search path is visible if those before it there know nothing of the name. -/
theorem visible_iff (hr : r.Sound) {before after : List String}
    (hpath : r.settings.searchPath = before ++ schema :: after) (hbefore : schema ∉ before) :
    r.Visible schema name ↔ (before.findSome? fun a => r.overloads? a name) = none := by
  rw [List.findSome?_eq_none_iff]
  constructor
  · rintro ⟨-, hunhidden⟩
    rw [hpath, takeWhile_ne_of_notMem hbefore] at hunhidden
    intro b hb
    exact hr.held_eq_nil_iff.mp (hunhidden b hb)
  · intro hnone
    constructor
    · rw [hpath]
      exact List.mem_append_right _ List.mem_cons_self
    · rw [hpath, takeWhile_ne_of_notMem hbefore]
      intro b hb
      exact hr.held_eq_nil_iff.mpr (hnone b hb)

/-- Where nothing hides the name, an unqualified look-up finds what the qualified one finds. -/
theorem resolve_insert_of_visible (hr : r.Sound) (h : r.Visible schema name) (s : Signature) :
    ((r.insert schema name s).resolve ⟨none, none, name⟩).value =
      .ok (r.held schema name ++ [s]) := by
  obtain ⟨before, after, hpath, hbefore⟩ := List.eq_append_cons_of_mem h.onPath
  have hnone := (visible_iff hr hpath hbefore).mp h
  rw [resolve_unqualified, settings_insert, hpath, List.findSome?_append,
    findSome?_insert_of_notMem hbefore, hnone, List.findSome?_cons, overloads?_insert,
    if_pos ⟨rfl, rfl⟩, held_eq]
  rfl

/-- Where the name is hidden, or its schema is not on the search path, an unqualified look-up
answers as it did before. -/
theorem resolve_insert_of_not_visible (hr : r.Sound) (h : ¬ r.Visible schema name)
    (s : Signature) :
    ((r.insert schema name s).resolve ⟨none, none, name⟩).value =
      (r.resolve ⟨none, none, name⟩).value := by
  rw [resolve_unqualified, resolve_unqualified, settings_insert]
  by_cases hmem : schema ∈ r.settings.searchPath
  · obtain ⟨before, after, hpath, hbefore⟩ := List.eq_append_cons_of_mem hmem
    rw [visible_iff hr hpath hbefore] at h
    obtain ⟨found, hfound⟩ := Option.ne_none_iff_exists'.mp h
    -- the search ends before it gets to the schema
    rw [hpath, List.findSome?_append, List.findSome?_append, findSome?_insert_of_notMem hbefore,
      hfound]
    rfl
  · rw [findSome?_insert_of_notMem hmem]

/-- What is registered under a quoted name is found by the parts of the name, whatever they are, if
only none is empty: behind what the schema held under it before, with or without the database.
Without a schema the name goes to `public`.  By itself it is found there if `public` can be seen
along the search path; if it cannot, the name by itself means what it meant before. -/
theorem define_found_by_parts (origin : Origin) (changes : List Change) {name : String}
    (hname : name ≠ "") (s : Signature) :
    let r := (origin.registry.attemptAll changes).1
    let found (r : Registry) (parts : List String) := (Session.lookup r (.parts parts)).value
    (∀ schema, schema ≠ "" → ∃ next, r.define (quotedName [schema, name]) s = .ok next
        ∧ found next [schema, name] = .ok (r.held schema name ++ [s])
        ∧ found next [r.settings.database, schema, name] = .ok (r.held schema name ++ [s]))
      ∧ ∃ next, r.define (quotedName [name]) s = .ok next
        ∧ found next ["public", name] = .ok (r.held "public" name ++ [s])
        ∧ (r.Visible "public" name → found next [name] = .ok (r.held "public" name ++ [s]))
        ∧ (¬ r.Visible "public" name → found next [name] = found r [name]) := by
  intro r found
  have hsound : r.Sound := origin.sound_registry.attemptAll changes
  constructor
  · intro schema hschema
    have hdefine := define_quotedName (r := r) (n := ⟨none, some schema, name⟩) (fun _ => rfl)
      (List.forall_mem_cons.mpr ⟨hschema, List.forall_mem_singleton.mpr hname⟩) rfl s
    refine ⟨r.insert schema name s, hdefine, r.resolve_insert schema name s, ?_⟩
    -- the database of a registry stays the same, so its own name still means it
    show ((r.insert schema name s).resolve ⟨some r.settings.database, some schema, name⟩).value = _
    rw [resolve_database, settings_insert, if_pos rfl, resolve_insert]
  · have hdefine := define_quotedName (r := r) (n := ⟨none, none, name⟩) (fun _ => rfl)
      (List.forall_mem_singleton.mpr hname) rfl s
    refine ⟨r.insert "public" name s, hdefine, r.resolve_insert "public" name s, ?_, ?_⟩
    · intro hvisible
      exact resolve_insert_of_visible hsound hvisible s
    · intro hhidden
      exact resolve_insert_of_not_visible hsound hhidden s

/-- A name with a dot, a quote and a capital in it, in a schema that did not exist, in `public` on
the search path, and in `public` off it. -/
theorem define_found_by_parts_dotted :
    let name := "a.\"B"
    let s : Signature := .ofCount "f" 1 "text"
    let near : Registry := .ofSettings ⟨"db", ["app", "public"]⟩
    let far : Registry := .ofSettings ⟨"db", ["app"]⟩
    let found (r : Registry) (parts : List String) := (Session.lookup r (.parts parts)).value
    name ≠ "" ∧ "S" ≠ "" ∧ near.Visible "public" name ∧ ¬ far.Visible "public" name
      ∧ (∃ next, near.define "\"S\".\"a.\"\"B\"" s = .ok next
        ∧ found next ["S", name] = .ok [s] ∧ found next ["db", "S", name] = .ok [s])
      ∧ (∃ next, near.define "\"a.\"\"B\"" s = .ok next ∧ found next [name] = .ok [s])
      ∧ ∃ next, far.define "\"a.\"\"B\"" s = .ok next
        ∧ found next ["public", name] = .ok [s] ∧ found next [name] = .ok [] := by
  intro name s near far found
  have hname : name ≠ "" := by decide
  have hschema : "S" ≠ "" := by decide
  have hqualified : quotedName ["S", name] = "\"S\".\"a.\"\"B\"" := by decide +kernel
  have halone : quotedName [name] = "\"a.\"\"B\"" := by decide +kernel
  have hheld (settings : Settings) (schema : String) :
      (ofSettings settings).held schema name = [] := by
    rw [held_eq, overloads?_ofSettings]
    rfl
  have hnear : near.Visible "public" name := by
    refine ⟨?_, fun b _ => hheld _ b⟩
    rw [settings_ofSettings]
    decide
  have hfar : ¬ far.Visible "public" name := by
    rintro ⟨hmem, -⟩
    rw [settings_ofSettings] at hmem
    exact absurd hmem (by decide)
  obtain ⟨hschemas, next, hnext, -, hseen, -⟩ :=
    define_found_by_parts (.ofSettings ⟨"db", ["app", "public"]⟩) [] hname s
  obtain ⟨-, last, hlast, hpublic, -, hhidden⟩ :=
    define_found_by_parts (.ofSettings ⟨"db", ["app"]⟩) [] hname s
  obtain ⟨other, hother, htwo, hthree⟩ := hschemas "S" hschema
  rw [hqualified] at hother
  rw [halone] at hnext hlast
  have htwo : found other ["S", name] = .ok (near.held "S" name ++ [s]) := htwo
  have hthree : found other [near.settings.database, "S", name] =
      .ok (near.held "S" name ++ [s]) := hthree
  have hseen : found next [name] = .ok (near.held "public" name ++ [s]) := hseen hnear
  have hpublic : found last ["public", name] = .ok (far.held "public" name ++ [s]) := hpublic
  have hhidden : found last [name] = (far.resolve ⟨none, none, name⟩).value := hhidden hfar
  rw [hheld, List.nil_append] at htwo hthree hseen hpublic
  rw [settings_ofSettings] at hthree
  rw [resolve_unqualified, settings_ofSettings, List.findSome?_cons, List.findSome?_nil,
    overloads?_ofSettings] at hhidden
  exact ⟨hname, hschema, hnear, hfar, ⟨other, hother, htwo, hthree⟩, ⟨next, hnext, hseen⟩,
    last, hlast, hpublic, hhidden⟩

end SqlVet.Registry
