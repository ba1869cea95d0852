import SqlVet.Proofs.Catalog.Agreement
import SqlVet.Proofs.Check.InsertArity
import SqlVet.Proofs.Check.Parameters
import SqlVet.Proofs.Check.Validation

/-!
# What a validation tells

The events of a validation are told by its checks, and by the registry that names are looked up in.
Which of them there are, and what stands beside what, is the same for every statement:

* `Transcript`: the logs that belong to an answer.  Steps in turn have one if each of them does
  (`Transcript.inTurn`);
* `Call.Told`, `Call.told_checkCall`: what the check of a call answers and tells, which is one of
  four things;
* `filter_log_checkCalls`, `filter_log_validate`: which names are looked up;
* `validate_tells`: so the log of a validation follows from its answer and from the calls that it
  gets to.
-/

namespace SqlVet

/-! ## Kinds of events and of reports

Events are loud, at the level of debugging, if a check itself fails, and all others are traces.  Two
of them go together: a look-up that misses and the unknown function.
-/

namespace Event

/-- A name was looked up in the catalog, whatever came of it. -/
def isLookup : Event → Bool
  | .lookup .. | .lookupMissed _ => true
  | .unknownFunction _ | .noOverload .. | .insertSkipped _ | .insertMismatch ..
  | .parameterGap .. => false

/-- A look-up of a name that found no overload. -/
inductive Misses : Event → String → Prop where
  | lookup (name : String) (schema : Option String) : Misses (.lookup name schema 0) name
  | lookupMissed (name : String) : Misses (.lookupMissed name) name

/-- An event on the way that no other belongs to. -/
inductive Alone : Event → Prop where
  | lookup (name : String) (schema : Option String) (more : Nat) :
      Alone (.lookup name schema (more + 1))
  | insertSkipped (table : String) : Alone (.insertSkipped table)

section
variable {e : Event} {name : String}

theorem Misses.level (h : e.Misses name) : e.level = .trace := by
  cases h <;> rfl

theorem Alone.level (h : e.Alone) : e.level = .trace := by
  cases h <;> rfl

theorem Alone.not_misses (h : e.Alone) : ¬ e.Misses name := by
  cases h <;> nofun

end

end Event

/-- The report of a check itself, as opposed to one that is passed on from a name or a look-up. -/
inductive Diagnostic.Own : Diagnostic → Prop where
  | parameter (number : Nat) : Own (unusedParameter number)
  | column (c : Spanned String) : Own (surplusColumn c)
  | value (e : Expr) : Own (surplusValue e)
  | overload (c : Call) (base : String) : Own (c.noOverload base)

/-- Checks point at what they report, if it is not a parameter. -/
theorem Diagnostic.not_own_of_location_eq_none {d : Diagnostic} (hlocation : d.location = none)
    (hcode : d.code ≠ "42P18") : ¬ d.Own := by
  intro hown
  cases hown with
  | parameter => exact hcode rfl
  | column | value | overload => cases hlocation

/-! ## Logs that belong to an answer

The shape of a log, as an inductive predicate: traces on the way, and a loud event behind them if
the answer is the report of a check itself.
-/

/-- What is told on the way: of an empty look-up in two events, of anything else in one. -/
inductive OnTheWay : List Event → Prop where
  | nil : OnTheWay []
  | alone {log : List Event} {e : Event} (event : e.Alone) (rest : OnTheWay log) :
      OnTheWay (e :: log)
  | unknown {log : List Event} {e : Event} {name : String} (miss : e.Misses name)
      (rest : OnTheWay log) : OnTheWay (e :: .unknownFunction name :: log)

/-- The log of a run that gives an answer.  A check that fails tells so, at the end. -/
inductive Transcript : Except Diagnostic Unit → List Event → Prop where
  | quiet {answer : Except Diagnostic Unit} {log : List Event} (way : OnTheWay log)
      (passedOn : ∀ d, answer = .error d → ¬ d.Own) : Transcript answer log
  | loud {d : Diagnostic} {log : List Event} {e : Event} (way : OnTheWay log) (own : d.Own)
      (level : e.level = .debug) : Transcript (.error d) (log ++ [e])

namespace OnTheWay

variable {log before after : List Event} {e : Event} {name : String}

/-- Traces on the way to one point and on the way from there are traces on the way. -/
theorem append {later : List Event} (h : OnTheWay log) (hlater : OnTheWay later) :
    OnTheWay (log ++ later) := by
  induction h with
  | nil => exact hlater
  | alone event _ ih => exact .alone event ih
  | unknown miss _ ih => exact .unknown miss ih

theorem level (h : OnTheWay log) (he : e ∈ log) : e.level = .trace := by
  induction h with
  | nil => cases he
  | alone event _ ih =>
    rcases List.mem_cons.mp he with rfl | he
    · exact event.level
    · exact ih he
  | unknown miss _ ih =>
    rcases List.mem_cons.mp he with rfl | he
    · exact miss.level
    · rcases List.mem_cons.mp he with rfl | he
      · rfl
      · exact ih he

/-- Before an unknown function stands the look-up that missed it. -/
theorem misses_before (h : OnTheWay log) (hsplit : log = before ++ .unknownFunction name :: after) :
    ∃ earlier e, before = earlier ++ [e] ∧ e.Misses name := by
  induction h generalizing before with
  | nil => cases before <;> cases hsplit
  | alone event _ ih =>
    cases before with
    | nil =>
      cases hsplit
      cases event
    | cons b before =>
      obtain ⟨earlier, e, rfl, he⟩ := ih (List.cons.inj hsplit).2
      exact ⟨b :: earlier, e, rfl, he⟩
  -- two events at once: the unknown function can be the second of them, but not the first
  | unknown miss _ ih =>
    match before with
    | [] =>
      cases hsplit
      cases miss
    | [b] =>
      cases hsplit
      exact ⟨[], _, rfl, miss⟩
    | b :: b' :: before =>
      obtain ⟨earlier, e, rfl, he⟩ := ih (List.cons.inj (List.cons.inj hsplit).2).2
      exact ⟨b :: b' :: earlier, e, rfl, he⟩

/-- Behind a look-up that missed stands what follows from it. -/
theorem unknown_behind (h : OnTheWay log) (hsplit : log = before ++ e :: after)
    (he : e.Misses name) : ∃ later, after = .unknownFunction name :: later := by
  induction h generalizing before with
  | nil => cases before <;> cases hsplit
  | alone event _ ih =>
    cases before with
    | nil =>
      cases hsplit
      exact absurd he event.not_misses
    | cons b before => exact ih (List.cons.inj hsplit).2
  | unknown miss _ ih =>
    match before with
    | [] =>
      cases hsplit
      cases he <;> cases miss <;> exact ⟨_, rfl⟩
    | [b] =>
      cases hsplit
      cases he
    | b :: b' :: before => exact ih (List.cons.inj (List.cons.inj hsplit).2).2

end OnTheWay

/-- An item of a list is the last one or stands before it. -/
theorem split_concat {α : Type} {as before after : List α} {a b : α}
    (h : as ++ [b] = before ++ a :: after) :
    (after = [] ∧ a = b) ∨ ∃ between, after = between ++ [b] ∧ as = before ++ a :: between := by
  rcases List.eq_nil_or_concat after with rfl | ⟨between, last, rfl⟩
  · obtain ⟨-, hlast⟩ := List.append_inj' h rfl
    cases hlast
    exact .inl ⟨rfl, rfl⟩
  · rw [List.concat_eq_append, ← List.cons_append, ← List.append_assoc] at h
    obtain ⟨has, hlast⟩ := List.append_inj' h rfl
    cases hlast
    exact .inr ⟨between, List.concat_eq_append, has⟩

namespace Transcript

variable {answer : Except Diagnostic Unit} {log before after : List Event} {e : Event}
  {name : String}

theorem accepted (way : OnTheWay log) : Transcript (.ok ()) log :=
  .quiet way nofun

theorem onTheWay (h : Transcript (.ok ()) log) : OnTheWay log := by
  cases h with
  | quiet way _ => exact way

/-- What is told on the way to a run that gives an answer. -/
theorem append {later : List Event} (way : OnTheWay log) (h : Transcript answer later) :
    Transcript answer (log ++ later) := by
  cases h with
  | quiet rest passedOn => exact .quiet (way.append rest) passedOn
  | loud rest own level =>
    rw [← List.append_assoc]
    exact .loud (way.append rest) own level

/-- **Runs in turn.**  If the log of each step belongs to its answer, so does the log of the run.
The induction is on the items, and adds what is told of an accepted one before the rest. -/
theorem inTurn {α : Type} {step : α → Logged (Except Diagnostic Unit)} {as : List α}
    (h : ∀ a ∈ as, Transcript (step a).value (step a).log) :
    Transcript (inTurn step as).value (inTurn step as).log := by
  induction as with
  | nil => exact accepted .nil
  | cons a as ih =>
    obtain ⟨ha, has⟩ := List.forall_mem_cons.mp h
    cases hvalue : (step a).value with
    | error d =>
      rw [hvalue] at ha
      rw [inTurn_cons_of_error hvalue]
      exact ha
    | ok u =>
      rw [hvalue] at ha
      rw [inTurn_cons_of_ok hvalue]
      exact append ha.onTheWay (ih has)

/-- Nothing is told behind the failure of a check. -/
theorem loud_last (h : Transcript answer log) (hsplit : log = before ++ e :: after)
    (hlevel : e.level = .debug) : after = [] := by
  cases h with
  | quiet way _ =>
    have he : e ∈ log := by
      rw [hsplit]
      exact List.mem_append_right before List.mem_cons_self
    cases hlevel.symm.trans (way.level he)
  | loud way _ _ =>
    rcases split_concat hsplit with ⟨hafter, -⟩ | ⟨between, -, rfl⟩
    · exact hafter
    · have he : e ∈ before ++ e :: between := List.mem_append_right before List.mem_cons_self
      cases hlevel.symm.trans (way.level he)

/-- The failure of a check is told exactly if it is the answer. -/
theorem loud_iff (h : Transcript answer log) :
    (∃ e ∈ log, e.level = .debug) ↔ ∃ d, answer = .error d ∧ d.Own := by
  cases h with
  | quiet way passedOn =>
    constructor
    · rintro ⟨e, he, hlevel⟩
      cases hlevel.symm.trans (way.level he)
    · rintro ⟨d, hd, hown⟩
      exact absurd hown (passedOn d hd)
  | loud way own level =>
    constructor
    · rintro -
      exact ⟨_, rfl, own⟩
    · rintro -
      exact ⟨_, List.mem_append_right _ (List.mem_singleton_self _), level⟩

/-- An unknown function is told of behind the look-up that missed it, wherever in the log. -/
theorem misses_before (h : Transcript answer log)
    (hsplit : log = before ++ .unknownFunction name :: after) :
    ∃ earlier e, before = earlier ++ [e] ∧ e.Misses name := by
  cases h with
  | quiet way _ => exact way.misses_before hsplit
  | loud way _ level =>
    rcases split_concat hsplit with ⟨-, rfl⟩ | ⟨between, -, hway⟩
    · cases level
    · exact way.misses_before hway

/-- A look-up that misses is followed by the unknown function, wherever in the log. -/
theorem unknown_behind (h : Transcript answer log) (hsplit : log = before ++ e :: after)
    (he : e.Misses name) : ∃ later, after = .unknownFunction name :: later := by
  cases h with
  | quiet way _ => exact way.unknown_behind hsplit he
  | loud way _ level =>
    rcases split_concat hsplit with ⟨-, rfl⟩ | ⟨between, rfl, hway⟩
    · cases level.symm.trans he.level
    · obtain ⟨later, rfl⟩ := way.unknown_behind hway he
      exact ⟨_, rfl⟩

end Transcript

/-! ## Look-ups

The registry tells one event for each look-up that it answers, and none for one that it refuses.
-/

namespace Registry

variable {r : Registry} {n : FunctionName} {c : Call} {found : List Signature} {d : Diagnostic}

/-- What is told of a name that resolves to overloads. -/
def lookupEvent (r : Registry) (n : FunctionName) (found : List Signature) : Event :=
  match n.schema with
  | some _ => .lookup n.text none found.length
  | none =>
    match r.search n.base with
    | some (schema, _) => .lookup n.text (some schema) found.length
    | none => .lookupMissed n.text

/-- What is told of the look-up of a call.  There is nothing to tell if it has no proper name, or if
its name does not resolve. -/
def lookupEvent? (r : Registry) (c : Call) : Option Event :=
  match FunctionName.ofParts c.name with
  | .error _ => none
  | .ok n =>
    match (r.resolve n).value with
    | .error _ => none
    | .ok found => some (r.lookupEvent n found)

/-- A look-up without overloads is one that misses, whether a schema was named or not. -/
theorem lookupEvent_nil_misses (r : Registry) (n : FunctionName) :
    (r.lookupEvent n []).Misses n.text := by
  unfold lookupEvent
  split
  · exact .lookup n.text none
  · split
    · exact .lookup n.text _
    · exact .lookupMissed n.text

/-- Each look-up of a name that resolves is told once, and the others are not. -/
theorem log_resolve (r : Registry) (n : FunctionName) :
    (r.resolve n).log =
      match (r.resolve n).value with
      | .error _ => []
      | .ok found => [r.lookupEvent n found] := by
  rw [resolve_eq]
  cases r.requireDatabase n with
  | error d => rfl
  | ok u =>
    unfold lookupEvent
    cases n.schema with
    | some schema =>
      dsimp only
      split <;> rfl
    | none => cases r.search n.base <;> rfl

theorem log_resolve_of_error (h : (r.resolve n).value = .error d) : (r.resolve n).log = [] := by
  rw [log_resolve, h]

theorem log_resolve_of_ok (h : (r.resolve n).value = .ok found) :
    (r.resolve n).log = [r.lookupEvent n found] := by
  rw [log_resolve, h]

/-- A look-up that finds overloads tells how many. -/
theorem lookupEvent_of_ne_nil (h : (r.resolve n).value = .ok found) (hne : found ≠ []) :
    ∃ schema, r.lookupEvent n found = .lookup n.text schema found.length := by
  unfold lookupEvent
  cases hschema : n.schema with
  | some schema => exact ⟨none, rfl⟩
  | none =>
    cases hsearch : r.search n.base with
    | some hit => exact ⟨some hit.1, rfl⟩
    | none =>
      -- the name is held nowhere, so it resolves to nothing
      rw [resolve_eq, hschema, hsearch] at h
      cases hdatabase : r.requireDatabase n with
      | error d =>
        rw [hdatabase] at h
        cases h
      | ok u =>
        rw [hdatabase] at h
        cases h
        exact absurd rfl hne

/-- An error of the registry is not a report of a check. -/
theorem not_own_of_resolve (h : (r.resolve n).value = .error d) : ¬ d.Own := by
  rcases resolve_eq_error_iff.mp h with hd | ⟨-, schema, -, -, rfl⟩
  · obtain ⟨-, rfl⟩ := requireDatabase_eq_error_iff.mp hd
    apply Diagnostic.not_own_of_location_eq_none rfl
    simp [Cause.diagnostic, Cause.sqlState, SqlState.code]
  · apply Diagnostic.not_own_of_location_eq_none rfl
    simp [unknownSchema]

end Registry

theorem FunctionName.not_own_of_ofParts {parts : List String} {d : Diagnostic}
    (h : FunctionName.ofParts parts = .error d) : ¬ d.Own := by
  obtain ⟨-, rfl⟩ := FunctionName.ofParts_eq_error_iff.mp h
  apply Diagnostic.not_own_of_location_eq_none rfl
  simp [FunctionName.improper]

/-! ## The events of a check

Each of the three checks has a log that belongs to its answer, and only that of the calls has
look-ups in it.
-/

/-- What the check of a call answers and tells. -/
inductive Call.Told (r : Registry) (c : Call) : Except Diagnostic Unit → List Event → Prop where
  | passedOn {d : Diagnostic} (lookup : r.lookupEvent? c = none) (passedOn : ¬ d.Own) :
      Told r c (.error d) []
  | unknown {e : Event} {name : String} (lookup : r.lookupEvent? c = some e)
      (miss : e.Misses name) : Told r c (.ok ()) [e, .unknownFunction name]
  | known {name : String} {schema : Option String} {more : Nat}
      (lookup : r.lookupEvent? c = some (.lookup name schema (more + 1))) :
      Told r c (.ok ()) [.lookup name schema (more + 1)]
  | refused {name base : String} {schema : Option String} {more : Nat}
      (lookup : r.lookupEvent? c = some (.lookup name schema (more + 1))) :
      Told r c (.error (c.noOverload base))
        [.lookup name schema (more + 1), .noOverload name c.args.length (more + 1)]

section
variable {r : Registry} {checks : Checks} {s : Statement} {c : Call}

/-- The check of a call does one of the four things above. -/
theorem Call.told_checkCall (r : Registry) (c : Call) :
    c.Told r (checkCall r.resolve c).value (checkCall r.resolve c).log := by
  cases hname : FunctionName.ofParts c.name with
  | error d =>
    rw [checkCall_of_unreadable hname]
    refine .passedOn ?_ (FunctionName.not_own_of_ofParts hname)
    rw [Registry.lookupEvent?, hname]
  | ok n =>
    cases hlookup : (r.resolve n).value with
    | error d =>
      rw [checkCall_of_unresolved hname hlookup, Registry.log_resolve_of_error hlookup]
      refine .passedOn ?_ (Registry.not_own_of_resolve hlookup)
      simp only [Registry.lookupEvent?, hname, hlookup]
    | ok found =>
      have hevent : r.lookupEvent? c = some (r.lookupEvent n found) := by
        simp only [Registry.lookupEvent?, hname, hlookup]
      have hlog := Registry.log_resolve_of_ok hlookup
      -- an empty list is an answer of its own, so the cases are those of the list
      cases found with
      | nil =>
        rw [checkCall_of_unknown hname hlookup, hlog]
        exact .unknown hevent (r.lookupEvent_nil_misses n)
      | cons first others =>
        have hne : first :: others ≠ [] := List.cons_ne_nil first others
        obtain ⟨schema, hfound⟩ := Registry.lookupEvent_of_ne_nil hlookup hne
        rw [hfound] at hevent hlog
        rw [checkCall_of_known hname hlookup hne, hlog]
        split
        · exact .known hevent
        · exact .refused hevent

theorem Call.Told.transcript {answer : Except Diagnostic Unit} {log : List Event}
    (h : c.Told r answer log) : Transcript answer log := by
  cases h with
  | passedOn _ passedOn =>
    refine .quiet .nil ?_
    rintro d ⟨⟩
    exact passedOn
  | unknown _ miss => exact .accepted (.unknown miss .nil)
  | known => exact .accepted (.alone (.lookup _ _ _) .nil)
  | refused => exact .loud (.alone (.lookup _ _ _) .nil) (.overload c _) rfl

theorem Call.Told.filter_isLookup {answer : Except Diagnostic Unit} {log : List Event}
    (h : c.Told r answer log) : log.filter Event.isLookup = (r.lookupEvent? c).toList := by
  cases h with
  | passedOn lookup => rw [lookup]; rfl
  | unknown lookup miss => rw [lookup]; cases miss <;> rfl
  | known lookup => rw [lookup]; rfl
  | refused lookup => rw [lookup]; rfl

/-- The first two checks look nothing up. -/
theorem told_checkParameters (s : Statement) :
    Transcript (checkParameters s).value (checkParameters s).log
      ∧ (checkParameters s).log.filter Event.isLookup = [] := by
  rw [checkParameters_eq]
  cases gapUpTo s.numberSet s.numberSet.card with
  | none => exact ⟨.accepted .nil, rfl⟩
  | some number => exact ⟨.loud .nil (.parameter number) rfl, rfl⟩

/-- The check of an insertion tells of what it skips, or of what it refuses, and looks nothing
up. -/
theorem told_checkInsertArity (i : Insert) :
    Transcript (checkInsertArity i).value (checkInsertArity i).log
      ∧ (checkInsertArity i).log.filter Event.isLookup = [] := by
  rcases i.source_cases with hdefault | ⟨q, hsource, hbody⟩ | ⟨row, hrow⟩
  · rw [checkInsertArity_of_defaultValues hdefault]
    exact ⟨.accepted .nil, rfl⟩
  · rw [checkInsertArity_of_not_single hsource hbody]
    exact ⟨.accepted (.alone (.insertSkipped _) .nil), rfl⟩
  · rw [checkInsertArity_of_lists hrow]
    cases hsurplus : surplus i.columns row with
    | none => exact ⟨.accepted .nil, rfl⟩
    | some d =>
      have hown : d.Own := by
        rcases surplus_eq_some hsurplus with ⟨c, -, rfl⟩ | ⟨e, -, rfl⟩
        · exact .column c
        · exact .value e
      exact ⟨.loud .nil hown rfl, rfl⟩

theorem transcript_checkCalls (r : Registry) (s : Statement) :
    Transcript (checkCalls r.resolve s).value (checkCalls r.resolve s).log := by
  rw [checkCalls_eq_inTurn]
  exact Transcript.inTurn fun c _ => (Call.told_checkCall r c).transcript

theorem Check.transcript_run (r : Registry) (s : Statement) (check : Check) :
    Transcript (check.run r.resolve s).value (check.run r.resolve s).log := by
  cases check with
  | parameters => exact (told_checkParameters s).1
  | insertArity =>
    cases s with
    | insert i => exact (told_checkInsertArity i).1
    | select | update | delete => exact .accepted .nil
  | calls => exact transcript_checkCalls r s

theorem transcript_validate (r : Registry) (checks : Checks) (s : Statement) :
    Transcript (validate checks r.resolve s).value (validate checks r.resolve s).log := by
  rw [validate]
  exact Transcript.inTurn fun check _ => check.transcript_run r s

/-! ## The names that are looked up

Of the log of a validation, the look-ups are those of the calls that it gets to.
-/

/-- The check of the calls looks up the names of those that it gets to, in order. -/
theorem filter_log_checkCalls (r : Registry) (s : Statement) :
    (checkCalls r.resolve s).log.filter Event.isLookup =
      (taken (checkCall r.resolve) s.calls).filterMap r.lookupEvent? := by
  rw [checkCalls_eq_inTurn, log_inTurn, List.filter_flatMap,
    List.filterMap_eq_flatMap_toList]
  simp only [(Call.told_checkCall r _).filter_isLookup]

/-- The checks before that of the calls look nothing up. -/
theorem Check.filter_log_run_of_lt {check : Check} (h : check < .calls) :
    (check.run r.resolve s).log.filter Event.isLookup = [] := by
  cases check with
  | parameters => exact (told_checkParameters s).2
  | insertArity =>
    cases s with
    | insert i => exact (told_checkInsertArity i).2
    | select | update | delete => rfl
  | calls => exact absurd h (Nat.lt_irrefl _)

/-- A validation looks up what the checks look up that it gets to. -/
theorem filter_log_validate (r : Registry) (checks : Checks) (s : Statement) :
    (validate checks r.resolve s).log.filter Event.isLookup =
      (taken (Check.run r.resolve s) checks.selected).flatMap fun check =>
        (check.run r.resolve s).log.filter Event.isLookup := by
  rw [validate, log_inTurn, List.filter_flatMap]

/-- If a validation gets to the check of the calls, it looks up what that one does. -/
theorem filter_log_validate_of_reaches (h : checks.Reaches r.resolve s .calls) :
    (validate checks r.resolve s).log.filter Event.isLookup =
      (taken (checkCall r.resolve) s.calls).filterMap r.lookupEvent? := by
  obtain ⟨before, after, hsplit, hbefore⟩ := Checks.reaches_iff.mp h
  have hsorted := checks.pairwise_selected
  rw [hsplit, List.pairwise_append, List.pairwise_cons] at hsorted
  obtain ⟨-, ⟨habove, -⟩, hbelow⟩ := hsorted
  -- no check runs after that of the calls
  have hafter : after = [] := by
    apply List.eq_nil_iff_forall_not_mem.mpr
    intro b hb
    cases b <;> exact absurd (habove _ hb) (by decide)
  subst hafter
  have hnothing : (before.flatMap fun check =>
      (check.run r.resolve s).log.filter Event.isLookup) = [] := by
    apply List.flatMap_eq_nil_iff.mpr
    intro b hb
    exact Check.filter_log_run_of_lt (hbelow b hb .calls List.mem_cons_self)
  rw [filter_log_validate, hsplit, taken_append_of_ok hbefore, taken_singleton,
    List.flatMap_append, hnothing, List.flatMap_singleton]
  exact filter_log_checkCalls r s

/-- If it does not get there, it looks nothing up. -/
theorem filter_log_validate_of_not_reaches (h : ¬ checks.Reaches r.resolve s .calls) :
    (validate checks r.resolve s).log.filter Event.isLookup = [] := by
  rw [filter_log_validate, List.flatMap_eq_nil_iff]
  intro b hb
  cases b with
  | parameters => exact Check.filter_log_run_of_lt (by decide)
  | insertArity => exact Check.filter_log_run_of_lt (by decide)
  | calls => exact absurd (Checks.reaches_iff.mpr (mem_taken_iff.mp hb)) h

end

/-! ## A validation

All that was said of single checks, put together for a run of the selected ones.
-/

/-- What is told of a validation, by its answer and by the calls of the statement. -/
structure Checks.Tells (checks : Checks) (r : Registry) (s : Statement)
    (run : Logged (Except Diagnostic Unit)) : Prop where
  /-- Nothing is told behind a loud event, so there is one at most. -/
  loud_last : ∀ before e after, run.log = before ++ e :: after → e.level = .debug → after = []
  /-- A loud event tells that a check itself failed, not that it passed on the failure of a name or
  of a look-up. -/
  loud_iff : (∃ e ∈ run.log, e.level = .debug) ↔ ∃ d, run.value = .error d ∧ d.Own
  /-- If all calls are accepted, each is looked up once, in order. -/
  lookups_of_accepted : checks.Reaches r.resolve s .calls →
    (∀ c ∈ s.calls, c.Accepted r.resolve) →
    run.log.filter Event.isLookup = s.calls.filterMap r.lookupEvent?
  /-- Else the calls up to the first that is not are looked up, and it is the last of them. -/
  lookups_of_refused : checks.Reaches r.resolve s .calls →
    ∀ before c after, s.calls = before ++ c :: after → (∀ b ∈ before, b.Accepted r.resolve) →
      ¬ c.Accepted r.resolve →
      run.log.filter Event.isLookup = (before ++ [c]).filterMap r.lookupEvent?
  lookups_of_unreached : ¬ checks.Reaches r.resolve s .calls → run.log.filter Event.isLookup = []
  /-- A function is told to be unknown directly behind the look-up of its name that missed it. -/
  misses_before : ∀ before name after, run.log = before ++ .unknownFunction name :: after →
    ∃ earlier e, before = earlier ++ [e] ∧ e.Misses name
  /-- And each look-up that misses a name is followed by that. -/
  unknown_behind : ∀ before e after name, run.log = before ++ e :: after → e.Misses name →
    ∃ later, after = .unknownFunction name :: later

/-- **What a validation tells.**  There is one loud event if a check itself fails, and it comes
last; else there is none.  The names of the calls are looked up in their order, each once, up to the
first call that is refused, if the calls are gotten to.  An unknown function is told of right behind
the look-up that missed it, and each time. -/
theorem validate_tells (r : Registry) (checks : Checks) (s : Statement) :
    checks.Tells r s (validate checks r.resolve s) := by
  have htranscript := transcript_validate r checks s
  constructor
  case loud_last =>
    intro before e after hsplit hlevel
    exact htranscript.loud_last hsplit hlevel
  case loud_iff => exact htranscript.loud_iff
  case lookups_of_accepted =>
    intro hreached haccepted
    rw [filter_log_validate_of_reaches hreached]
    rw [taken_of_ok fun c hc => checkCall_ok_iff.mpr (haccepted c hc)]
  case lookups_of_refused =>
    intro hreached before c after hsplit hbefore hc
    obtain ⟨d, hd⟩ := (c.accepted_or_refused r.resolve).resolve_left hc
    rw [filter_log_validate_of_reaches hreached, hsplit]
    rw [taken_append_of_ok fun b hb => checkCall_ok_iff.mpr (hbefore b hb)]
    rw [taken_cons_of_error (checkCall_of_refused hd)]
  case lookups_of_unreached => exact filter_log_validate_of_not_reaches
  case misses_before =>
    intro before name after hsplit
    exact htranscript.misses_before hsplit
  case unknown_behind =>
    intro before e after name hsplit he
    exact htranscript.unknown_behind hsplit he

end SqlVet
