import SqlVet.Validation

/-!
# Steps in turn

The calls of a statement are checked one after another, and so are the checks of a validation.  Both
stop at the first step that refuses.  All steps together accept if each of them does
(`inTurn_ok_iff`); else they report what the first one reports that refuses (`inTurn_error_iff`).
They tell what is told of the items that are gotten to (`log_inTurn`), which are those up to the
first that is refused (`mem_taken_iff`).
-/

namespace SqlVet

variable {α : Type} {step : α → Logged (Except Diagnostic Unit)} {a : α} {as : List α}
  {d : Diagnostic}

/-- A run ends with the first item if that is refused. -/
theorem inTurn_cons_of_error (h : (step a).value = .error d) :
    inTurn step (a :: as) = ⟨.error d, (step a).log⟩ := by
  rw [inTurn]
  apply Logged.ext <;> simp [h]

/-- If the first item is accepted, a run goes on with the others, and tells of them behind it. -/
theorem inTurn_cons_of_ok (h : (step a).value = .ok ()) :
    inTurn step (a :: as) = ⟨(inTurn step as).value, (step a).log ++ (inTurn step as).log⟩ := by
  rw [inTurn]
  apply Logged.ext <;> simp [h]

/-- A run accepts if each item is accepted by itself. -/
theorem inTurn_ok_iff :
    (inTurn step as).value = .ok () ↔ ∀ a ∈ as, (step a).value = .ok () := by
  induction as with
  | nil => exact ⟨fun _ => List.forall_mem_nil _, fun _ => rfl⟩
  | cons a as ih =>
    rw [List.forall_mem_cons, ← ih]
    cases h : (step a).value with
    | error d =>
      rw [inTurn_cons_of_error h]
      exact ⟨nofun, fun h => nomatch h.1⟩
    | ok u =>
      rw [inTurn_cons_of_ok h]
      exact ⟨fun has => ⟨rfl, has⟩, fun has => has.2⟩

/-- A run reports what the first item reports that is refused by itself. -/
theorem inTurn_error_iff :
    (inTurn step as).value = .error d ↔
      ∃ before a after, as = before ++ a :: after ∧ (∀ b ∈ before, (step b).value = .ok ())
        ∧ (step a).value = .error d := by
  induction as with
  | nil =>
    refine ⟨nofun, ?_⟩
    rintro ⟨before, a, after, hsplit, -⟩
    cases before <;> cases hsplit
  | cons a as ih =>
    cases h : (step a).value with
    | error d' =>
      rw [inTurn_cons_of_error h]
      constructor
      · intro hd
        cases hd
        exact ⟨[], a, as, rfl, nofun, h⟩
      -- the head is refused, so it is the first: none before it could have been accepted
      · rintro ⟨before, a', after, hsplit, hbefore, ha'⟩
        cases before with
        | nil =>
          cases hsplit
          exact h.symm.trans ha'
        | cons b before =>
          cases hsplit
          rw [hbefore a List.mem_cons_self] at h
          cases h
    | ok u =>
      rw [inTurn_cons_of_ok h, ih]
      constructor
      · rintro ⟨before, a', after, rfl, hbefore, ha'⟩
        exact ⟨a :: before, a', after, rfl, List.forall_mem_cons.mpr ⟨h, hbefore⟩, ha'⟩
      · rintro ⟨before, a', after, hsplit, hbefore, ha'⟩
        cases before with
        | nil =>
          cases hsplit
          rw [ha'] at h
          cases h
        | cons b before =>
          cases hsplit
          exact ⟨before, a', after, rfl, (List.forall_mem_cons.mp hbefore).2, ha'⟩

/-! ## How far a run gets

The log of a run says how far it got.  To tell what is in the log, the items are named that the run
got to.
-/

/-- The items that a run in turn gets to: those up to the first that is refused, and that one. -/
def taken (step : α → Logged (Except Diagnostic Unit)) : List α → List α
  | [] => []
  | a :: as =>
    match (step a).value with
    | .error _ => [a]
    | .ok () => a :: taken step as

theorem taken_cons_of_error (h : (step a).value = .error d) : taken step (a :: as) = [a] := by
  rw [taken, h]

theorem taken_cons_of_ok (h : (step a).value = .ok ()) :
    taken step (a :: as) = a :: taken step as := by
  rw [taken, h]

theorem taken_singleton (step : α → Logged (Except Diagnostic Unit)) (a : α) :
    taken step [a] = [a] := by
  cases h : (step a).value with
  | error d => exact taken_cons_of_error h
  | ok u => exact taken_cons_of_ok h

/-- Items that are accepted do not hold a run up. -/
theorem taken_append_of_ok {before : List α} (h : ∀ b ∈ before, (step b).value = .ok ()) :
    taken step (before ++ as) = before ++ taken step as := by
  induction before with
  | nil => rfl
  | cons b before ih =>
    obtain ⟨hb, hbefore⟩ := List.forall_mem_cons.mp h
    rw [List.cons_append, taken_cons_of_ok hb, ih hbefore, List.cons_append]

/-- A run that accepts has gotten to all items. -/
theorem taken_of_ok (h : ∀ a ∈ as, (step a).value = .ok ()) : taken step as = as := by
  have htaken : taken step (as ++ []) = as ++ taken step [] := taken_append_of_ok h
  rwa [List.append_nil, taken, List.append_nil] at htaken

/-- An item is gotten to if everything before it is accepted. -/
theorem mem_taken_iff :
    a ∈ taken step as ↔
      ∃ before after, as = before ++ a :: after ∧ ∀ b ∈ before, (step b).value = .ok () := by
  constructor
  · intro h
    induction as with
    | nil => cases h
    | cons c as ih =>
      cases hc : (step c).value with
      | error d =>
        rw [taken_cons_of_error hc, List.mem_singleton] at h
        subst h
        exact ⟨[], as, rfl, nofun⟩
      | ok u =>
        rw [taken_cons_of_ok hc, List.mem_cons] at h
        rcases h with rfl | h
        · exact ⟨[], as, rfl, nofun⟩
        · obtain ⟨before, after, rfl, hbefore⟩ := ih h
          exact ⟨c :: before, after, rfl, List.forall_mem_cons.mpr ⟨hc, hbefore⟩⟩
  · rintro ⟨before, after, rfl, hbefore⟩
    rw [taken_append_of_ok hbefore]
    apply List.mem_append_right
    -- the item is gotten to whether or not it is accepted itself
    cases ha : (step a).value with
    | error d =>
      rw [taken_cons_of_error ha]
      exact List.mem_cons_self
    | ok u =>
      rw [taken_cons_of_ok ha]
      exact List.mem_cons_self

/-- Nothing is told of the items behind the first that is refused. -/
theorem log_inTurn (step : α → Logged (Except Diagnostic Unit)) (as : List α) :
    (inTurn step as).log = (taken step as).flatMap fun a => (step a).log := by
  induction as with
  | nil => rfl
  | cons a as ih =>
    cases h : (step a).value with
    | error d =>
      rw [inTurn_cons_of_error h, taken_cons_of_error h, List.flatMap_singleton]
    | ok u => rw [inTurn_cons_of_ok h, taken_cons_of_ok h, List.flatMap_cons, ih]

end SqlVet
