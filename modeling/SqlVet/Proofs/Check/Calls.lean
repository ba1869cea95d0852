import SqlVet.Validation
import SqlVet.Proofs.Check.InTurn
import SqlVet.Proofs.Walk.Uses

/-!
# The calls of a statement

Which calls the check accepts, and what it reports of one that it refuses:

* `checkCall_ok_iff`, `checkCall_error_iff`, for a call by itself;
* `checkCalls_eq_inTurn`: the check of a statement is the check of its calls one after another,
  with everything that is told on the way;
* `checkCalls_first_refused`: so it accepts a statement whose calls are all accepted, and else
  reports the first call that is not.
-/

namespace SqlVet

/-! ## What is accepted and what is refused

What a call has to fit is read off the fields of an overload, and not off the arity that the check
computes from them.
-/

/-- An overload takes as many arguments as it declares.  One that declares none takes as many as it
counts. -/
inductive Signature.Takes (s : Signature) : Nat → Prop where
  | declared {arguments : List Argument} (h : s.arguments = some arguments) :
      Takes s arguments.length
  | counted (h : s.arguments = none) : Takes s s.count

/-- Every overload takes one number of arguments, its arity. -/
theorem Signature.takes_iff {s : Signature} {count : Nat} :
    s.Takes count ↔ s.arity = count := by
  constructor
  · intro h
    cases h with
    | declared harguments => rw [arity, harguments]
    | counted harguments => rw [arity, harguments]
  · rintro rfl
    rw [arity]
    cases harguments : s.arguments with
    | some arguments => exact .declared harguments
    | none => exact .counted harguments

namespace Call

/-- The name can be looked up, and what it stands for is unknown or has an overload that takes as
many arguments as the call gives. -/
def Accepted (catalog : Catalog) (c : Call) : Prop :=
  ∃ name overloads, FunctionName.ofParts c.name = .ok name ∧ (catalog name).value = .ok overloads
    ∧ (overloads = [] ∨ ∃ s ∈ overloads, s.Takes c.args.length)

/-- The report of a function that has no overload for the call. -/
def noOverload (c : Call) (base : String) : Diagnostic where
  code := "42883"
  message := "function " ++ base ++ "("
    ++ ", ".intercalate (List.replicate c.args.length "unknown") ++ ") does not exist"
  hint := some ("No function matches the given name and argument types. "
    ++ "You might need to add explicit type casts.")
  location := some c.span.start

/-- What is reported of a call.  The errors of the name and of the catalog are passed on as they
are. -/
inductive Refused (catalog : Catalog) (c : Call) : Diagnostic → Prop where
  | name {d : Diagnostic} (hname : FunctionName.ofParts c.name = .error d) : Refused catalog c d
  | lookup {name : FunctionName} {d : Diagnostic} (hname : FunctionName.ofParts c.name = .ok name)
      (hlookup : (catalog name).value = .error d) : Refused catalog c d
  | arity {name : FunctionName} {overloads : List Signature} {base : String}
      (hname : FunctionName.ofParts c.name = .ok name)
      (hlookup : (catalog name).value = .ok overloads) (hne : overloads ≠ [])
      (hnone : ∀ s ∈ overloads, ¬ s.Takes c.args.length) (hbase : c.baseName? = some base) :
      Refused catalog c (c.noOverload base)

end Call

/-- The base of a name is the last of its parts. -/
theorem FunctionName.getLast?_of_ofParts {parts : List String} {name : FunctionName}
    (h : FunctionName.ofParts parts = .ok name) : parts.getLast? = some name.base := by
  unfold FunctionName.ofParts at h
  split at h <;> cases h <;> rfl

section
variable {catalog : Catalog} {c : Call}

/-- Each call is accepted or refused with some report, as each way in which it can fail to be
accepted has one. -/
theorem Call.accepted_or_refused (catalog : Catalog) (c : Call) :
    c.Accepted catalog ∨ ∃ d, c.Refused catalog d := by
  cases hname : FunctionName.ofParts c.name with
  | error d => exact .inr ⟨d, .name hname⟩
  | ok name =>
    cases hlookup : (catalog name).value with
    | error d => exact .inr ⟨d, .lookup hname hlookup⟩
    | ok overloads =>
      by_cases hok : overloads = [] ∨ ∃ s ∈ overloads, s.Takes c.args.length
      · exact .inl ⟨name, overloads, hname, hlookup, hok⟩
      · obtain ⟨hne, hnone⟩ := not_or.mp hok
        refine .inr ⟨c.noOverload name.base, .arity hname hlookup hne ?_ ?_⟩
        · intro s hs htakes
          exact hnone ⟨s, hs, htakes⟩
        · exact FunctionName.getLast?_of_ofParts hname

/-! ## One call

The check of a call goes as far as its name can be read and resolved.  One lemma for each place
where it ends, with all that it answers and tells.
-/

section
variable {name : FunctionName} {overloads : List Signature} {d : Diagnostic}

theorem checkCall_of_unreadable (hname : FunctionName.ofParts c.name = .error d) :
    checkCall catalog c = ⟨.error d, []⟩ := by
  rw [checkCall, hname]
  rfl

theorem checkCall_of_unresolved (hname : FunctionName.ofParts c.name = .ok name)
    (hlookup : (catalog name).value = .error d) :
    checkCall catalog c = ⟨.error d, (catalog name).log⟩ := by
  rw [checkCall, hname]
  apply Logged.ext <;> simp [hlookup]

/-- A function that the catalog does not know is accepted, and told of as unknown. -/
theorem checkCall_of_unknown (hname : FunctionName.ofParts c.name = .ok name)
    (hlookup : (catalog name).value = .ok []) :
    checkCall catalog c = ⟨.ok (), (catalog name).log ++ [.unknownFunction name.text]⟩ := by
  rw [checkCall, hname]
  apply Logged.ext <;> simp [hlookup]

/-- What is answered and told of a known function depends on its arities. -/
theorem checkCall_of_known (hname : FunctionName.ofParts c.name = .ok name)
    (hlookup : (catalog name).value = .ok overloads) (hne : overloads ≠ []) :
    checkCall catalog c =
      if overloads.any fun s => s.arity = c.args.length then ⟨.ok (), (catalog name).log⟩
      else ⟨.error (c.noOverload name.base),
        (catalog name).log ++ [.noOverload name.text c.args.length overloads.length]⟩ := by
  cases overloads with
  | nil => exact absurd rfl hne
  | cons first others =>
    rw [checkCall, hname]
    apply Logged.ext
    · simp only [Logged.value_bind, hlookup]
      split
      · rfl
      · rfl
    · simp only [Logged.log_bind, hlookup]
      split
      · exact List.append_nil _
      · rfl

end

theorem checkCall_of_accepted (h : c.Accepted catalog) :
    (checkCall catalog c).value = .ok () := by
  obtain ⟨name, overloads, hname, hlookup, hok⟩ := h
  by_cases hnil : overloads = []
  · subst hnil
    rw [checkCall_of_unknown hname hlookup]
  · obtain ⟨s, hs, htakes⟩ := hok.resolve_left hnil
    have hany : overloads.any (fun s => s.arity = c.args.length) = true :=
      List.any_eq_true.mpr ⟨s, hs, decide_eq_true (Signature.takes_iff.mp htakes)⟩
    rw [checkCall_of_known hname hlookup hnil, if_pos hany]

theorem checkCall_of_refused {d : Diagnostic} (h : c.Refused catalog d) :
    (checkCall catalog c).value = .error d := by
  cases h with
  | name hname => rw [checkCall_of_unreadable hname]
  | lookup hname hlookup => rw [checkCall_of_unresolved hname hlookup]
  | @arity name overloads base hname hlookup hne hnone hbase =>
    have hlast := (FunctionName.getLast?_of_ofParts hname).symm.trans hbase
    cases hlast
    have hany : ¬ overloads.any (fun s => s.arity = c.args.length) = true := by
      intro hany
      obtain ⟨s, hs, heq⟩ := List.any_eq_true.mp hany
      exact hnone s hs (Signature.takes_iff.mpr (of_decide_eq_true heq))
    rw [checkCall_of_known hname hlookup hne, if_neg hany]

/-- The check of a call accepts exactly the calls that count as accepted. -/
theorem checkCall_ok_iff : (checkCall catalog c).value = .ok () ↔ c.Accepted catalog := by
  refine ⟨?_, checkCall_of_accepted⟩
  intro h
  rcases c.accepted_or_refused catalog with hc | ⟨d, hc⟩
  · exact hc
  · rw [checkCall_of_refused hc] at h
    cases h

/-- The check of a call reports exactly what it is refused for: the error of its name or of the
catalog as it is, or that no overload takes its arguments. -/
theorem checkCall_error_iff {d : Diagnostic} :
    (checkCall catalog c).value = .error d ↔ c.Refused catalog d := by
  refine ⟨?_, checkCall_of_refused⟩
  intro h
  rcases c.accepted_or_refused catalog with hc | ⟨d', hc⟩
  · rw [checkCall_of_accepted hc] at h
    cases h
  · rw [checkCall_of_refused hc] at h
    cases h
    exact hc

theorem Call.not_accepted_of_refused {d : Diagnostic} (h : c.Refused catalog d) :
    ¬ c.Accepted catalog := by
  intro hok
  rw [← checkCall_ok_iff, checkCall_of_refused h] at hok
  cases hok

end

/-! ## The walk

The check walks the whole statement.  Nothing but calls matters to it, so it does what a run over
the list of the calls does.
-/

/-- What a refusal leaves of a result. -/
def refusal : Except Diagnostic Unit → Option Diagnostic
  | .ok () => none
  | .error d => some d

namespace CallCheck

section
variable {catalog : Catalog} {n : Node} {c : Call} {log : Array Event}

theorem visitor_of_none (hcall : n.call? = none) : visitor catalog n log = (.into, log) := by
  rw [visitor, hcall]

theorem visitor_of_ok (hcall : n.call? = some c) (hc : (checkCall catalog c).value = .ok ()) :
    visitor catalog n log = (.into, log ++ (checkCall catalog c).log) := by
  rw [visitor, hcall]
  simp only [hc]

theorem visitor_of_error {d : Diagnostic} (hcall : n.call? = some c)
    (hc : (checkCall catalog c).value = .error d) :
    visitor catalog n log = (.stop d, log ++ (checkCall catalog c).log) := by
  rw [visitor, hcall]
  simp only [hc]

/-- The visitor leaves no node out, so that what it is shown are the nodes in preorder up to some
point. -/
theorem visitor_ne_skip (catalog : Catalog) (n : Node) (log : Array Event) :
    (visitor catalog n log).1 ≠ .skip := by
  cases hcall : n.call? with
  | none =>
    rw [visitor_of_none hcall]
    nofun
  | some c =>
    cases hc : (checkCall catalog c).value with
    | error d =>
      rw [visitor_of_error hcall hc]
      nofun
    | ok u =>
      rw [visitor_of_ok hcall hc]
      nofun

end

/-- Shown nodes one after another, the visitor checks the calls among them. -/
theorem through_visitor (catalog : Catalog) (ns : List Node) (log : Array Event) :
    let course := Tour.through (visitor catalog) ns log
    let checked := inTurn (checkCall catalog) (ns.filterMap Node.call?)
    course.outcome = refusal checked.value ∧ course.state.toList = log.toList ++ checked.log := by
  induction ns generalizing log with
  | nil => exact ⟨rfl, (List.append_nil _).symm⟩
  | cons n ns ih =>
    rw [Tour.through_cons, List.filterMap_cons]
    cases hcall : n.call? with
    | none =>
      rw [Tour.append_of_none (Tour.enter_of_into Tour.nothing (visitor_of_none hcall))]
      exact ih log
    | some c =>
      cases hc : (checkCall catalog c).value with
      | error d =>
        -- the walk ends here, and so does the list of checks
        rw [Tour.append_of_some (Tour.enter_of_stop Tour.nothing (visitor_of_error hcall hc))]
        simp only [inTurn_cons_of_error hc]
        exact ⟨rfl, Array.toList_appendList⟩
      | ok u =>
        obtain ⟨houtcome, hstate⟩ := ih (log ++ (checkCall catalog c).log)
        rw [Tour.append_of_none (Tour.enter_of_into Tour.nothing (visitor_of_ok hcall hc))]
        simp only [inTurn_cons_of_ok hc]
        refine ⟨houtcome, hstate.trans ?_⟩
        rw [Array.toList_appendList, List.append_assoc]

end CallCheck

/-- The check of a statement is the check of its calls in turn: same result, same events. -/
theorem checkCalls_eq_inTurn (catalog : Catalog) (s : Statement) :
    checkCalls catalog s = inTurn (checkCall catalog) s.calls := by
  have hcalls : (Node.statement s).preorder.filterMap Node.call? = s.calls :=
    s.filterMap_call?_nodes
  obtain ⟨houtcome, hlog⟩ := CallCheck.through_visitor catalog (Node.statement s).preorder #[]
  rw [hcalls] at houtcome hlog
  rw [checkCalls, walk_eq_through (CallCheck.visitor_ne_skip catalog), houtcome]
  cases h : (inTurn (checkCall catalog) s.calls).value with
  | error d => exact Logged.ext h.symm hlog
  | ok u => exact Logged.ext h.symm hlog

section
variable {catalog : Catalog} {s : Statement}

/-- The check of a statement accepts exactly if each of its calls is accepted. -/
theorem checkCalls_ok_iff :
    (checkCalls catalog s).value = .ok () ↔ ∀ c ∈ s.calls, c.Accepted catalog := by
  rw [checkCalls_eq_inTurn, inTurn_ok_iff]
  simp only [checkCall_ok_iff]

/-- The check of a statement reports what the first of its calls is refused for that is not
accepted. -/
theorem checkCalls_error_iff {d : Diagnostic} :
    (checkCalls catalog s).value = .error d ↔
      ∃ before c after, s.calls = before ++ c :: after ∧ (∀ b ∈ before, b.Accepted catalog)
        ∧ c.Refused catalog d := by
  rw [checkCalls_eq_inTurn, inTurn_error_iff]
  simp only [checkCall_ok_iff, checkCall_error_iff]

end

/-! ## Calls inside calls

A call is checked before the calls in its arguments, sort keys, filter and window.
-/

/-- The calls inside a call: in its arguments, sort keys, filter and window. -/
def Call.innerCalls (c : Call) : List Call :=
  (Expr.usesAll c.args ++ SortKey.usesAll c.order ++ Expr.usesOption c.filter
    ++ Window.usesOption c.window).filterMap Use.call?

/-- The calls in a tree whose root is a call are that one and those inside it, in preorder. -/
theorem Call.cons_innerCalls (c : Call) :
    c :: c.innerCalls = (Node.call c).preorder.filterMap Node.call? := by
  rw [funext Node.call?_eq, ← List.filterMap_filterMap,
    (Node.call c).filterMap_use?_preorder (Node.plain_call c)]
  cases c
  rfl

/-- A call is directly followed by the calls inside it. -/
theorem Statement.innerCalls_infix {s : Statement} {c : Call} (h : c ∈ s.calls) :
    c :: c.innerCalls <:+: s.calls := by
  rw [c.cons_innerCalls, ← s.filterMap_call?_nodes]
  exact (Node.preorder_infix (call_mem_nodes h)).filterMap Node.call?

/-! ## The check of a statement

The order in which calls are reported is that in which the walk meets them, outer ones first.
-/

/-- The check accepts exactly the statements all of whose calls are accepted.  Of any other it
reports the first call that is not.  Each call, whether the catalog knows it or not, is directly
followed by those inside it. -/
theorem checkCalls_first_refused (catalog : Catalog) (s : Statement) :
    ((checkCalls catalog s).value = .ok () ↔ ∀ c ∈ s.calls, c.Accepted catalog)
      ∧ (∀ d, (checkCalls catalog s).value = .error d ↔
          ∃ before c after, s.calls = before ++ c :: after
            ∧ (∀ b ∈ before, b.Accepted catalog) ∧ ¬ c.Accepted catalog ∧ c.Refused catalog d)
      ∧ ∀ c ∈ s.calls, c :: c.innerCalls <:+: s.calls := by
  refine ⟨checkCalls_ok_iff, ?_, ?_⟩
  · intro d
    rw [checkCalls_error_iff]
    constructor
    · rintro ⟨before, c, after, hsplit, hbefore, hc⟩
      exact ⟨before, c, after, hsplit, hbefore, Call.not_accepted_of_refused hc, hc⟩
    · rintro ⟨before, c, after, hsplit, hbefore, -, hc⟩
      exact ⟨before, c, after, hsplit, hbefore, hc⟩
  · intro c hc
    exact Statement.innerCalls_infix hc

/-- `SELECT f(g($1))`, where `f` is unknown and the overloads of `g` take none and two arguments.
The first of them declares its arguments, and what it counts does not matter. -/
theorem checkCalls_first_refused_inner :
    let catalog : Catalog := fun name =>
      pure (.ok (if name.base = "g" then [⟨"g", some [], 1, "text"⟩, .ofCount "g" 2 "text"]
        else []))
    let g : Call := ⟨["g"], [.parameter ⟨1, ⟨11, 13⟩⟩], false, false, [], none, none, ⟨9, 14⟩⟩
    let f : Call := ⟨["f"], [.call g], false, false, [], none, none, ⟨7, 15⟩⟩
    let s : Statement := .select
      ⟨[], .query false [⟨.call f, none, ⟨7, 15⟩⟩] [] none [] none, [], none, none, ⟨0, 15⟩⟩
    f ∈ s.calls ∧ f.Accepted catalog ∧ ¬ g.Accepted catalog
      ∧ (checkCalls catalog s).value = .error (g.noOverload "g")
      ∧ f :: f.innerCalls <:+: s.calls := by
  intro catalog g f s
  obtain ⟨-, herror, hinner⟩ := checkCalls_first_refused catalog s
  have hcalls : s.calls = [f] ++ g :: [] := by
    decide +kernel
  have hmem : f ∈ s.calls := by
    rw [hcalls]
    exact List.mem_cons_self
  have hf : f.Accepted catalog := ⟨_, [], rfl, rfl, .inl rfl⟩
  have hg : g.Refused catalog (g.noOverload "g") := by
    refine .arity rfl rfl (List.cons_ne_nil _ _) ?_ rfl
    simp only [Signature.takes_iff]
    decide
  have hng : ¬ g.Accepted catalog := Call.not_accepted_of_refused hg
  have hbefore : ∀ b ∈ [f], b.Accepted catalog := by
    intro b hb
    rw [List.mem_singleton.mp hb]
    exact hf
  have hvalue : (checkCalls catalog s).value = .error (g.noOverload "g") :=
    (herror _).mpr ⟨[f], g, [], hcalls, hbefore, hng, hg⟩
  exact ⟨hmem, hf, hng, hvalue, hinner f hmem⟩

end SqlVet
