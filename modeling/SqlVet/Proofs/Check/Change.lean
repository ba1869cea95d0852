import SqlVet.Proofs.Catalog.Agreement
import SqlVet.Proofs.Catalog.Registration
import SqlVet.Proofs.Check.Calls

/-!
# Checking calls when the catalog changes

A check of calls asks its catalog for the names of the calls and for nothing else.  So a change of
the catalog shows in a check by what these names resolve to before and after:

* `checkCalls_congr`: if that is the same, so is the check, with all that it tells;
* `Statement.Accepted.of_extends`: if known functions only get more overloads and unknown ones stay
  unknown, what was accepted is accepted;
* `accepted_of_define_known`: one more overload of a known function leaves accepted statements so,
  and one of an unknown function need not;
* `checkCalls_of_unrelated`: a change that has nothing to do with the names of the calls does not
  show at all.
-/

namespace SqlVet

/-! ## What a check asks

Of a catalog, a check sees what it answers to the names of the calls, and what it tells of them.
-/

theorem inTurn_congr {α : Type} {step step' : α → Logged (Except Diagnostic Unit)} {as : List α}
    (h : ∀ a ∈ as, step a = step' a) : inTurn step as = inTurn step' as := by
  induction as with
  | nil => rfl
  | cons a as ih =>
    rw [List.forall_mem_cons] at h
    obtain ⟨ha, has⟩ := h
    rw [inTurn, inTurn, ha, ih has]

section
variable {catalog catalog' : Catalog}

/-- Two catalogs check a call alike that answer alike to its name. -/
theorem checkCall_congr {c : Call}
    (h : ∀ n, FunctionName.ofParts c.name = .ok n → catalog n = catalog' n) :
    checkCall catalog c = checkCall catalog' c := by
  unfold checkCall
  cases hn : FunctionName.ofParts c.name with
  | error d => rfl
  | ok n =>
    dsimp only
    rw [h n hn]

/-- Two catalogs check a statement alike that answer alike to the names of its calls. -/
theorem checkCalls_congr {s : Statement}
    (h : ∀ c ∈ s.calls, ∀ n, FunctionName.ofParts c.name = .ok n → catalog n = catalog' n) :
    checkCalls catalog s = checkCalls catalog' s := by
  rw [checkCalls_eq_inTurn, checkCalls_eq_inTurn]
  apply inTurn_congr
  intro c hc
  exact checkCall_congr (h c hc)

end

/-- The check of its calls accepts a statement. -/
def Statement.Accepted (catalog : Catalog) (s : Statement) : Prop :=
  (checkCalls catalog s).value = .ok ()

theorem Statement.accepted_iff {catalog : Catalog} {s : Statement} :
    s.Accepted catalog ↔ ∀ c ∈ s.calls, c.Accepted catalog :=
  checkCalls_ok_iff

/-! ## More overloads

A call that some overload takes is not harmed by more of them.  One that is accepted because its
function is unknown may be, so that case must not change.
-/

/-- Whatever the one catalog finds the other finds as well, perhaps with more behind it.  A function
that is unknown to the one is unknown to the other. -/
def Catalog.Extends (more fewer : Catalog) : Prop :=
  ∀ n found, (fewer n).value = .ok found →
    ∃ added, (more n).value = .ok (found ++ added) ∧ (found = [] → added = [])

section
variable {more fewer : Catalog}

/-- A call keeps the overload that takes its arguments, and an unknown one stays unknown. -/
theorem Call.Accepted.of_extends {c : Call} (hc : c.Accepted fewer) (h : more.Extends fewer) :
    c.Accepted more := by
  obtain ⟨n, found, hn, hfound, hok⟩ := hc
  obtain ⟨added, hmore, hunknown⟩ := h n found hfound
  refine ⟨n, found ++ added, hn, hmore, ?_⟩
  rcases hok with hnil | ⟨s, hs, htakes⟩
  · left
    rw [hnil, hunknown hnil]
    rfl
  · right
    exact ⟨s, List.mem_append_left added hs, htakes⟩

theorem Statement.Accepted.of_extends {s : Statement} (hs : s.Accepted fewer)
    (h : more.Extends fewer) : s.Accepted more := by
  rw [accepted_iff] at hs ⊢
  intro c hc
  exact (hs c hc).of_extends h

end

namespace Registry

section
variable {r : Registry} {schema name : String}

/-- An overload does not show under another name than its own. -/
theorem overloads?_insert_of_ne {base : String} (h : name ≠ base) (s : Signature) (a : String) :
    (r.insert schema name s).overloads? a base = r.overloads? a base := by
  rw [overloads?_insert, if_neg fun hand => h hand.2]

/-- A schema that knows a name already ends the search for it where it did before. -/
theorem findSome?_insert_of_held {held : List Signature}
    (h : r.overloads? schema name = some held) (s : Signature) (path : List String) :
    (path.findSome? fun a => (r.insert schema name s).overloads? a name) =
        path.findSome? (fun a => r.overloads? a name)
      ∨ path.findSome? (fun a => r.overloads? a name) = some held
        ∧ (path.findSome? fun a => (r.insert schema name s).overloads? a name) =
          some (held ++ [s]) := by
  induction path with
  | nil => exact .inl rfl
  | cons a path ih =>
    rw [List.findSome?_cons, List.findSome?_cons, overloads?_insert]
    by_cases ha : schema = a
    · subst ha
      rw [if_pos ⟨rfl, rfl⟩, h]
      exact .inr ⟨rfl, rfl⟩
    · rw [if_neg fun hand => ha hand.1]
      cases r.overloads? a name with
      | none => exact ih
      | some found => exact .inl rfl

/-- What is found along the search path stays there, with the new overload behind it at most. -/
theorem findSome?_insert_of_known (hr : r.Sound)
    (h : (r.resolve ⟨none, some schema, name⟩).value ≠ .ok []) (s : Signature) :
    (r.settings.searchPath.findSome? fun a => (r.insert schema name s).overloads? a name) =
        r.settings.searchPath.findSome? (fun a => r.overloads? a name)
      ∨ ∃ held, held ≠ []
        ∧ r.settings.searchPath.findSome? (fun a => r.overloads? a name) = some held
        ∧ (r.settings.searchPath.findSome? fun a => (r.insert schema name s).overloads? a name) =
          some (held ++ [s]) := by
  cases hheld : r.overloads? schema name with
  | none =>
    -- the schema does not exist, so it is not on the search path either
    have hunknown : ¬ r.hasSchema schema = true := by
      intro hknown
      rw [resolve_qualified, if_pos hknown, hheld] at h
      exact h rfl
    left
    apply findSome?_insert_of_notMem
    intro hmem
    exact hunknown (hr.searchPath schema hmem)
  | some held =>
    rcases findSome?_insert_of_held hheld s r.settings.searchPath with hsame | hmore
    · exact .inl hsame
    · right
      refine ⟨held, ?_, hmore⟩
      rintro rfl
      exact hr.filled schema name hheld

/-- A registry with one more overload extends the one without, if the function was known before or
not even its schema existed.  In between calls of it were accepted with any arguments. -/
theorem extends_insert (hr : r.Sound)
    (h : (r.resolve ⟨none, some schema, name⟩).value ≠ .ok []) (s : Signature) :
    (r.insert schema name s).resolve.Extends r.resolve := by
  intro n found hfound
  obtain ⟨hnear, ⟨a, ha, hknown, rfl⟩ | ⟨hnone, rfl⟩⟩ := resolve_eq_ok_iff.mp hfound
  -- a name with a schema, which may be the one that the overload is added to
  · have hstill : (r.insert schema name s).hasSchema a = true :=
      (r.hasSchema_insert schema a name s).mpr (.inr hknown)
    by_cases hhere : schema = a ∧ name = n.base
    · obtain ⟨rfl, rfl⟩ := hhere
      refine ⟨[s], resolve_eq_ok_iff.mpr ⟨hnear, .inl ⟨schema, ha, hstill, ?_⟩⟩, ?_⟩
      · rw [overloads?_insert, if_pos ⟨rfl, rfl⟩]
        rfl
      · intro hnil
        rw [resolve_qualified, if_pos hknown, hnil] at h
        exact absurd rfl h
    · refine ⟨[], resolve_eq_ok_iff.mpr ⟨hnear, .inl ⟨a, ha, hstill, ?_⟩⟩, fun _ => rfl⟩
      rw [overloads?_insert, if_neg hhere, List.append_nil]
  -- a name by itself, for which the search may end at the new overload
  · by_cases hbase : name = n.base
    · subst hbase
      rcases findSome?_insert_of_known hr h s with hsame | ⟨held, hne, hbefore, hafter⟩
      · refine ⟨[], resolve_eq_ok_iff.mpr ⟨hnear, .inr ⟨hnone, ?_⟩⟩, fun _ => rfl⟩
        rw [settings_insert, hsame, List.append_nil]
      · refine ⟨[s], resolve_eq_ok_iff.mpr ⟨hnear, .inr ⟨hnone, ?_⟩⟩, ?_⟩
        · rw [settings_insert, hbefore, hafter]
          rfl
        · intro hnil
          rw [hbefore] at hnil
          exact absurd hnil hne
    · refine ⟨[], resolve_eq_ok_iff.mpr ⟨hnear, .inr ⟨hnone, ?_⟩⟩, fun _ => rfl⟩
      rw [settings_insert, List.append_nil]
      simp only [overloads?_insert_of_ne hbase]

end

end Registry

/-! ## The smallest statements with a call

To see what is refused after a change, a statement is enough that has one call with nulls for
arguments.
-/

/-- A call with a number of nulls for arguments. -/
def Call.ofNulls (name : List String) (count : Nat) : Call :=
  ⟨name, List.replicate count (.literal .null ⟨0, 0⟩), false, false, [], none, none, ⟨0, 0⟩⟩

/-- `SELECT name(NULL, …)` -/
def Statement.ofCall (c : Call) : Statement :=
  .select ⟨[], .query false [⟨.call c, none, c.span⟩] [] none [] none, [], none, none, c.span⟩

theorem Statement.calls_ofCall (c : Call) : (Statement.ofCall c).calls = c :: c.innerCalls := by
  obtain ⟨name, args, star, distinct, order, filter, window, span⟩ := c
  simp [calls, ofCall, Statement.uses, Select.uses, Body.uses, Cte.usesAll, Target.usesAll,
    Target.uses, FromItem.usesAll, Expr.usesOption, Expr.usesAll, SortKey.usesAll, Expr.uses,
    Call.uses, Call.innerCalls, Use.call?]

theorem Call.innerCalls_ofNulls (name : List String) (count : Nat) :
    (Call.ofNulls name count).innerCalls = [] := by
  have hargs : Expr.usesAll (List.replicate count (.literal .null ⟨0, 0⟩)) = [] := by
    induction count with
    | zero => rfl
    | succ count ih => exact ih
  show (Expr.usesAll (List.replicate count _) ++ _ ++ _ ++ _).filterMap Use.call? = []
  rw [hargs]
  rfl

/-- A statement whose only call has nulls for arguments is accepted if the function is unknown or
takes as many arguments. -/
theorem Statement.accepted_ofNulls_iff {catalog : Catalog} {name : List String} {count : Nat}
    {n : FunctionName} {found : List Signature} (hn : FunctionName.ofParts name = .ok n)
    (hfound : (catalog n).value = .ok found) :
    (Statement.ofCall (.ofNulls name count)).Accepted catalog ↔
      found = [] ∨ ∃ s ∈ found, s.arity = count := by
  rw [accepted_iff, calls_ofCall, Call.innerCalls_ofNulls, List.forall_mem_singleton]
  have hcount : (Call.ofNulls name count).args.length = count := List.length_replicate
  simp only [← Signature.takes_iff]
  constructor
  · rintro ⟨m, overloads, hm, hoverloads, hok⟩
    cases hn.symm.trans hm
    cases hfound.symm.trans hoverloads
    rw [hcount] at hok
    exact hok
  · intro hok
    rw [← hcount] at hok
    exact ⟨n, found, hn, hfound, hok⟩

/-! ## One more overload

Whether an overload can make an accepted statement fail is decided by whether the function was known
before.
-/

namespace Registry

section
variable {r : Registry} {schema name : String}

/-- Where a function was unknown, an overload makes calls with another number of arguments fail. -/
theorem not_accepted_insert_of_unknown
    (h : (r.resolve ⟨none, some schema, name⟩).value = .ok []) (s : Signature) :
    let t := Statement.ofCall (.ofNulls [schema, name] (s.arity + 1))
    t.Accepted r.resolve ∧ ¬ t.Accepted (r.insert schema name s).resolve := by
  intro t
  have hheld : r.held schema name = [] := by
    rw [held, h]
  have hafter := r.resolve_insert schema name s
  rw [hheld, List.nil_append] at hafter
  constructor
  · apply (Statement.accepted_ofNulls_iff rfl h).mpr
    left
    rfl
  · rw [Statement.accepted_ofNulls_iff rfl hafter]
    simp

/-- Where a function was unknown, an overload hides those of the schemas behind on the search
path. -/
theorem not_accepted_insert_of_hidden (hr : r.Sound) (hvisible : r.Visible schema name)
    (h : (r.resolve ⟨none, some schema, name⟩).value = .ok []) {found : List Signature}
    (hfound : (r.resolve ⟨none, none, name⟩).value = .ok found) {o s : Signature} (ho : o ∈ found)
    (hne : o.arity ≠ s.arity) :
    let t := Statement.ofCall (.ofNulls [name] o.arity)
    t.Accepted r.resolve ∧ ¬ t.Accepted (r.insert schema name s).resolve := by
  intro t
  have hheld : r.held schema name = [] := by
    rw [held, h]
  have hafter := resolve_insert_of_visible hr hvisible s
  rw [hheld, List.nil_append] at hafter
  constructor
  · apply (Statement.accepted_ofNulls_iff rfl hfound).mpr
    right
    exact ⟨o, ho, rfl⟩
  · rw [Statement.accepted_ofNulls_iff rfl hafter]
    simp [hne.symm]

end

/-- An overload that is added to a known function leaves every statement accepted that was accepted
before.  So does one in a schema that did not exist.  But where the schema existed and the function
was unknown in it, some statements are refused from then on: those that were accepted because the
function was unknown, and those that meant a function of a later schema on the search path. -/
theorem accepted_of_define_known (origin : Origin) (changes : List Change) {text : String}
    {n : FunctionName} (hn : FunctionName.ofText text = .ok n) {s : Signature} {next : Registry} :
    let r := (origin.registry.attemptAll changes).1
    let schema := n.schema.getD "public"
    let answer := (r.resolve ⟨none, some schema, n.base⟩).value
    r.define text s = .ok next →
      (answer ≠ .ok [] → ∀ t : Statement, t.Accepted r.resolve → t.Accepted next.resolve)
        ∧ (answer = .ok [] →
          let t := Statement.ofCall (.ofNulls [schema, n.base] (s.arity + 1))
          t.Accepted r.resolve ∧ ¬ t.Accepted next.resolve)
        ∧ (answer = .ok [] → r.Visible schema n.base →
          ∀ found, (r.resolve ⟨none, none, n.base⟩).value = .ok found →
            ∀ o ∈ found, o.arity ≠ s.arity →
              let t := Statement.ofCall (.ofNulls [n.base] o.arity)
              t.Accepted r.resolve ∧ ¬ t.Accepted next.resolve) := by
  intro r schema answer hnext
  have hsound : r.Sound := origin.sound_registry.attemptAll changes
  obtain ⟨m, hm, -, rfl⟩ := define_eq_ok hnext
  cases hn.symm.trans hm
  refine ⟨?_, ?_, ?_⟩
  · intro hknown t ht
    exact ht.of_extends (extends_insert hsound hknown s)
  · intro hunknown
    exact not_accepted_insert_of_unknown hunknown s
  · intro hunknown hvisible found hfound o ho hne
    exact not_accepted_insert_of_hidden hsound hvisible hunknown hfound ho hne

/-- On the search path `app`, `lib`, where `lib` has a function `g` of one argument: `g(NULL)` stays
accepted if that one gets an overload of two arguments, and is refused if `app` gets a function `g`
of two, as is `app.g(NULL, NULL, NULL)`, which had been unknown. -/
theorem accepted_of_define_known_hidden :
    let one : Signature := .ofCount "g" 1 "text"
    let two : Signature := .ofCount "g" 2 "text"
    let origin : Origin := .ofSettings ⟨"db", ["app", "lib"]⟩
    let r := (origin.registry.attemptAll [.function "lib.g" one]).1
    let t := Statement.ofCall (.ofNulls ["g"] 1)
    let u := Statement.ofCall (.ofNulls ["app", "g"] 3)
    t.Accepted r.resolve ∧ u.Accepted r.resolve
      ∧ (∃ next, r.define "lib.g" two = .ok next ∧ t.Accepted next.resolve)
      ∧ ∃ next, r.define "app.g" two = .ok next ∧ ¬ t.Accepted next.resolve
        ∧ ¬ u.Accepted next.resolve := by
  intro one two origin r t u
  have hlib : FunctionName.ofText "lib.g" = .ok ⟨none, some "lib", "g"⟩ := by decide +kernel
  have happ : FunctionName.ofText "app.g" = .ok ⟨none, some "app", "g"⟩ := by decide +kernel
  have hone : origin.registry.apply (.function "lib.g" one) =
      .ok (origin.registry.insert "lib" "g" one) := define_of_accepted hlib rfl one
  have hr : r = (ofSettings ⟨"db", ["app", "lib"]⟩).insert "lib" "g" one :=
    congrArg Prod.fst (attemptAll_cons_of_ok hone [])
  have hknown : (r.resolve ⟨none, some "lib", "g"⟩).value = .ok [one] := by
    rw [hr]
    simp [resolve_qualified, hasSchema_insert, overloads?_insert, overloads?_ofSettings]
  have hunknown : (r.resolve ⟨none, some "app", "g"⟩).value = .ok [] := by
    rw [hr]
    simp [resolve_qualified, hasSchema_insert, hasSchema_ofSettings, overloads?_insert,
      overloads?_ofSettings]
  have hpath : r.settings.searchPath = ["app", "lib"] := by
    rw [hr, settings_insert, settings_ofSettings]
  have hfound : (r.resolve ⟨none, none, "g"⟩).value = .ok [one] := by
    rw [resolve_unqualified, hpath, hr]
    simp [overloads?_insert, overloads?_ofSettings]
  have hvisible : r.Visible "app" "g" := by
    refine ⟨?_, ?_⟩
    · rw [hpath]
      decide
    · rw [hpath]
      nofun
  have hlibNext := define_of_accepted (r := r) hlib rfl two
  have happNext := define_of_accepted (r := r) happ rfl two
  obtain ⟨hkeeps, -, -⟩ := accepted_of_define_known origin [.function "lib.g" one] hlib hlibNext
  obtain ⟨-, hskip, hhide⟩ := accepted_of_define_known origin [.function "lib.g" one] happ happNext
  obtain ⟨hu, hnu⟩ := hskip hunknown
  obtain ⟨ht, hnt⟩ :=
    hhide hunknown hvisible [one] hfound one (List.mem_singleton_self one) (by decide)
  refine ⟨ht, hu, ⟨_, hlibNext, ?_⟩, _, happNext, hnt, hnu⟩
  apply hkeeps _ t ht
  show (r.resolve ⟨none, some "lib", "g"⟩).value ≠ .ok []
  rw [hknown]
  nofun

end Registry

/-! ## Unrelated changes

A change is unrelated to a name if it registers another name and makes no schema that the name is
looked for in.
-/

/-- The schema that a call names, if its name can be looked up and has one. -/
def Call.schema? (c : Call) : Option String :=
  match FunctionName.ofParts c.name with
  | .ok n => n.schema
  | .error _ => none

theorem Call.schema?_eq {c : Call} {n : FunctionName} (h : FunctionName.ofParts c.name = .ok n) :
    c.schema? = n.schema := by
  rw [schema?, h]

namespace Registry

section
variable {r : Registry} {n : FunctionName} {schema name : String}

/-- What a name resolves to depends on the settings, on whether its schema exists, and on what is
held under it. -/
theorem resolve_congr {q : Registry} (hsettings : q.settings = r.settings)
    (hschema : ∀ a, n.schema = some a → q.hasSchema a = r.hasSchema a)
    (hheld : ∀ a, q.overloads? a n.base = r.overloads? a n.base) : q.resolve n = r.resolve n := by
  have hdatabase : q.requireDatabase n = r.requireDatabase n := by
    unfold requireDatabase
    rw [hsettings]
  have hsearch : q.search n.base = r.search n.base := by
    unfold search
    rw [hsettings]
    simp only [hheld]
  rw [resolve_eq, resolve_eq, hdatabase, hsearch]
  cases r.requireDatabase n with
  | error d => rfl
  | ok _ =>
    cases hs : n.schema with
    | none => rfl
    | some a =>
      dsimp only
      rw [hschema a hs, hheld a]

/-- Nobody sees that a schema is made, unless it did not exist and the name is in it. -/
theorem resolve_of_made {q : Registry} (hsettings : q.settings = r.settings)
    (hmade : ∀ a, q.hasSchema a = true ↔ schema = a ∨ r.hasSchema a = true)
    (hheld : ∀ a, q.overloads? a n.base = r.overloads? a n.base)
    (hschema : r.hasSchema schema = true ∨ n.schema ≠ some schema) :
    q.resolve n = r.resolve n := by
  apply resolve_congr hsettings
  · intro a ha
    rw [Bool.eq_iff_iff, hmade]
    refine ⟨?_, .inr⟩
    rintro (rfl | hknown)
    · exact hschema.resolve_right fun hne => hne ha
    · exact hknown
  · exact hheld

/-- A look-up does not see an overload of another name, unless its schema is made by it. -/
theorem resolve_insert_of_unrelated (hbase : name ≠ n.base)
    (hschema : r.hasSchema schema = true ∨ n.schema ≠ some schema) (s : Signature) :
    (r.insert schema name s).resolve n = r.resolve n := by
  apply resolve_of_made (r.settings_insert schema name s)
  · intro a
    exact r.hasSchema_insert schema a name s
  · exact overloads?_insert_of_ne hbase s
  · exact hschema

theorem resolve_createSchema_of_unrelated
    (hschema : r.hasSchema schema = true ∨ n.schema ≠ some schema) :
    (r.createSchema schema).resolve n = r.resolve n := by
  apply resolve_of_made (r.settings_createSchema schema)
  · exact r.hasSchema_createSchema schema
  · intro a
    exact r.overloads?_createSchema schema a n.base
  · exact hschema

end

/-- A check of calls comes to the same and tells the same before and after a function is registered
that no call has for its last part, in a schema that existed before or that no call names.  The same
holds of a schema that is made. -/
theorem checkCalls_of_unrelated (r : Registry) (t : Statement) :
    (∀ text n s next, FunctionName.ofText text = .ok n → r.define text s = .ok next →
        let schema := n.schema.getD "public"
        (∀ c ∈ t.calls, c.baseName? ≠ some n.base) →
        (r.hasSchema schema = true ∨ ∀ c ∈ t.calls, c.schema? ≠ some schema) →
        checkCalls next.resolve t = checkCalls r.resolve t)
      ∧ ∀ schema, (r.hasSchema schema = true ∨ ∀ c ∈ t.calls, c.schema? ≠ some schema) →
        checkCalls (r.createSchema schema).resolve t = checkCalls r.resolve t := by
  constructor
  · intro text n s next hn hnext schema hbase hschema
    obtain ⟨m, hm, -, rfl⟩ := define_eq_ok hnext
    cases hn.symm.trans hm
    apply checkCalls_congr
    intro c hc m hm
    apply resolve_insert_of_unrelated
    -- a call is looked up under the last part of its name
    · rintro heq
      apply hbase c hc
      rw [heq]
      exact FunctionName.getLast?_of_ofParts hm
    · apply hschema.imp_right
      intro hnone
      rw [← Call.schema?_eq hm]
      exact hnone c hc
  · intro schema hschema
    apply checkCalls_congr
    intro c hc m hm
    apply resolve_createSchema_of_unrelated
    apply hschema.imp_right
    intro hnone
    rw [← Call.schema?_eq hm]
    exact hnone c hc

/-- `SELECT app.g(NULL)` does not notice that `sales.f` is registered, nor that a schema `sales` is
made for it. -/
theorem checkCalls_of_unrelated_sales :
    let r : Registry := .ofSettings ⟨"db", ["app"]⟩
    let t := Statement.ofCall (.ofNulls ["app", "g"] 1)
    let s : Signature := .ofCount "f" 2 "text"
    FunctionName.ofText "sales.f" = .ok ⟨none, some "sales", "f"⟩
      ∧ r.hasSchema "sales" = false
      ∧ (∃ next, r.define "sales.f" s = .ok next ∧ next.hasSchema "sales" = true
        ∧ checkCalls next.resolve t = checkCalls r.resolve t)
      ∧ checkCalls (r.createSchema "sales").resolve t = checkCalls r.resolve t := by
  intro r t s
  have hn : FunctionName.ofText "sales.f" = .ok ⟨none, some "sales", "f"⟩ := by decide +kernel
  have hnext := define_of_accepted (r := r) hn rfl s
  have hcalls : t.calls = [.ofNulls ["app", "g"] 1] := by
    rw [Statement.calls_ofCall, Call.innerCalls_ofNulls]
  have hbase : ∀ c ∈ t.calls, c.baseName? ≠ some "f" := by
    rw [hcalls, List.forall_mem_singleton]
    decide
  have hschema : ∀ c ∈ t.calls, c.schema? ≠ some "sales" := by
    rw [hcalls, List.forall_mem_singleton]
    decide
  obtain ⟨hdefine, hcreate⟩ := checkCalls_of_unrelated r t
  refine ⟨hn, ?_, ⟨_, hnext, ?_, ?_⟩, hcreate "sales" (.inr hschema)⟩
  · rw [Bool.eq_false_iff, Ne, hasSchema_ofSettings]
    decide
  · rw [hasSchema_insert]
    exact .inl rfl
  · exact hdefine "sales.f" _ s _ hn hnext hbase (.inr hschema)

end Registry

end SqlVet
