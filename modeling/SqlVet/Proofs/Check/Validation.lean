import SqlVet.Proofs.Check.Calls
import SqlVet.Validation

/-!
# The first check that refuses

A validation runs the selected checks in order, each as it would be run by itself.  What it answers
is told by what the single checks answer:

* `refuses_iff`: a check refuses a statement if it is selected and its run reports something;
* `firstRefusal_iff`: in the list of selected checks, the first to refuse is the earliest in order;
* `validate_first_refusal`: a validation reports what the first check reports that is selected,
  applies and refuses.  Selecting more checks can only make it refuse more.
-/

namespace SqlVet

/-! ## The order of checks

What it means that a check refuses, that it is the first to do so, and that it is gotten to, without
the list that the checks are run from.
-/

/-- The place of a check in the order in which checks run. -/
def Check.place : Check → Nat
  | .parameters => 0
  | .insertArity => 1
  | .calls => 2

instance : LT Check := ⟨fun a b => a.place < b.place⟩

namespace Checks

/-- A check is selected, applies to the statement, and reports `d` if it is run by itself.  Only
insertions have an arity. -/
inductive Refuses (checks : Checks) (catalog : Catalog) (s : Statement) :
    Check → Diagnostic → Prop where
  | parameters {d : Diagnostic} (selected : checks.parameters = true)
      (refused : (checkParameters s).value = .error d) : Refuses checks catalog s .parameters d
  | insertArity {d : Diagnostic} {i : Insert} (selected : checks.insertArity = true)
      (applies : s = .insert i) (refused : (checkInsertArity i).value = .error d) :
      Refuses checks catalog s .insertArity d
  | calls {d : Diagnostic} (selected : checks.calls = true)
      (refused : (checkCalls catalog s).value = .error d) : Refuses checks catalog s .calls d

/-- A check refuses, and none that runs before it does. -/
structure FirstRefusal (checks : Checks) (catalog : Catalog) (s : Statement) (c : Check)
    (d : Diagnostic) : Prop where
  refuses : checks.Refuses catalog s c d
  first : ∀ b < c, ∀ e, ¬ checks.Refuses catalog s b e

/-- A check is run: it is selected, and no earlier one refuses. -/
structure Reaches (checks : Checks) (catalog : Catalog) (s : Statement) (c : Check) : Prop where
  selected : checks.includes c = true
  first : ∀ b < c, ∀ e, ¬ checks.Refuses catalog s b e

/-- Every check of one selection belongs to the other. -/
structure Within (fewer more : Checks) : Prop where
  parameters : fewer.parameters = true → more.parameters = true
  insertArity : fewer.insertArity = true → more.insertArity = true
  calls : fewer.calls = true → more.calls = true

end Checks

section
variable {checks : Checks} {catalog : Catalog} {s : Statement} {b c : Check} {d e : Diagnostic}

/-! ## Selected checks

The same told by that list: it has the selected checks, in order.
-/

namespace Checks

/-- Each check that is asked for is in the list, since all checks are in the list of all. -/
theorem mem_selected_iff : c ∈ checks.selected ↔ checks.includes c = true := by
  have hall : c ∈ Check.all := by cases c <;> decide
  rw [selected, List.mem_filter, and_iff_right hall]

/-- A selection keeps the order of the checks. -/
theorem pairwise_selected (checks : Checks) : checks.selected.Pairwise (· < ·) := by
  have hall : Check.all.Pairwise (fun a b => a.place < b.place) := by decide
  exact List.Pairwise.filter _ hall

/-- A check refuses if it is in the list and its run reports something.  One that does not apply to
a statement reports nothing. -/
theorem refuses_iff :
    checks.Refuses catalog s c d ↔ c ∈ checks.selected ∧ (c.run catalog s).value = .error d := by
  rw [mem_selected_iff]
  constructor
  · intro h
    cases h with
    | parameters selected refused => exact ⟨selected, refused⟩
    | insertArity selected applies refused =>
      subst applies
      exact ⟨selected, refused⟩
    | calls selected refused => exact ⟨selected, refused⟩
  · rintro ⟨selected, refused⟩
    cases c with
    | parameters => exact .parameters selected refused
    | insertArity =>
      -- on the other statements the check accepts
      cases s with
      | insert i => exact .insertArity selected rfl refused
      | select q => cases refused
      | update u => cases refused
      | delete d => cases refused
    | calls => exact .calls selected refused

/-- A selected check accepts the statement if it does not refuse it. -/
theorem run_of_not_refuses (hc : c ∈ checks.selected)
    (h : ∀ d, ¬ checks.Refuses catalog s c d) : (c.run catalog s).value = .ok () := by
  cases hrun : (c.run catalog s).value with
  | ok u => rfl
  | error d => exact absurd (refuses_iff.mpr ⟨hc, hrun⟩) (h d)

/-- Whether a check is run, told by the list of the selected checks. -/
theorem reaches_iff :
    checks.Reaches catalog s c ↔
      ∃ before after, checks.selected = before ++ c :: after
        ∧ ∀ b ∈ before, (b.run catalog s).value = .ok () := by
  constructor
  · rintro ⟨hc, hfirst⟩
    obtain ⟨before, after, hsplit⟩ := List.append_of_mem (mem_selected_iff.mpr hc)
    have hsorted := checks.pairwise_selected
    rw [hsplit, List.pairwise_append] at hsorted
    obtain ⟨-, -, hbelow⟩ := hsorted
    refine ⟨before, after, hsplit, ?_⟩
    intro b hb
    have hselected : b ∈ checks.selected := by
      rw [hsplit]
      exact List.mem_append_left _ hb
    apply run_of_not_refuses hselected
    exact hfirst b (hbelow b hb c List.mem_cons_self)
  · rintro ⟨before, after, hsplit, hbefore⟩
    have hsorted := checks.pairwise_selected
    rw [hsplit, List.pairwise_append, List.pairwise_cons] at hsorted
    obtain ⟨-, ⟨habove, -⟩, -⟩ := hsorted
    have hc : c ∈ checks.selected := by
      rw [hsplit]
      exact List.mem_append_right _ List.mem_cons_self
    refine ⟨mem_selected_iff.mp hc, ?_⟩
    intro b hlt e hrefuses
    obtain ⟨hb, herror⟩ := refuses_iff.mp hrefuses
    -- where an earlier check could stand in the list
    rw [hsplit, List.mem_append, List.mem_cons] at hb
    rcases hb with hb | rfl | hb
    · rw [hbefore b hb] at herror
      cases herror
    · exact Nat.lt_irrefl _ hlt
    · exact Nat.lt_asymm hlt (habove b hb)

/-- The first refusal, told by the list of the selected checks. -/
theorem firstRefusal_iff :
    checks.FirstRefusal catalog s c d ↔
      ∃ before after, checks.selected = before ++ c :: after
        ∧ (∀ b ∈ before, (b.run catalog s).value = .ok ())
        ∧ (c.run catalog s).value = .error d := by
  constructor
  · rintro ⟨hrefuses, hfirst⟩
    obtain ⟨hc, hrun⟩ := refuses_iff.mp hrefuses
    obtain ⟨before, after, hsplit, hbefore⟩ := reaches_iff.mp ⟨mem_selected_iff.mp hc, hfirst⟩
    exact ⟨before, after, hsplit, hbefore, hrun⟩
  · rintro ⟨before, after, hsplit, hbefore, hrun⟩
    obtain ⟨hc, hfirst⟩ := reaches_iff.mpr ⟨before, after, hsplit, hbefore⟩
    exact ⟨refuses_iff.mpr ⟨mem_selected_iff.mpr hc, hrun⟩, hfirst⟩

end Checks

/-! ## A validation

With the list and the order put together, the run of the list is told by the first refusal.
-/

/-- A validation reports what the first check reports that refuses. -/
theorem validate_error_iff :
    (validate checks catalog s).value = .error d ↔ ∃ c, checks.FirstRefusal catalog s c d := by
  rw [validate, inTurn_error_iff]
  constructor
  · rintro ⟨before, c, after, h⟩
    exact ⟨c, Checks.firstRefusal_iff.mpr ⟨before, after, h⟩⟩
  · rintro ⟨c, hc⟩
    obtain ⟨before, after, h⟩ := Checks.firstRefusal_iff.mp hc
    exact ⟨before, c, after, h⟩

/-- It accepts if no check refuses. -/
theorem validate_ok_iff :
    (validate checks catalog s).value = .ok () ↔ ∀ c d, ¬ checks.Refuses catalog s c d := by
  rw [validate, inTurn_ok_iff]
  constructor
  · intro h c d hrefuses
    obtain ⟨hc, hrun⟩ := Checks.refuses_iff.mp hrefuses
    rw [h c hc] at hrun
    cases hrun
  · intro h c hc
    exact Checks.run_of_not_refuses hc (h c)

/-! ## More and fewer checks

A check refuses the same statements, and with the same reports, whichever other checks are asked
for.
-/

namespace Checks

theorem Refuses.eq (hd : checks.Refuses catalog s c d) (he : checks.Refuses catalog s c e) :
    e = d := by
  have hrun := (refuses_iff.mp he).2
  rw [(refuses_iff.mp hd).2] at hrun
  cases hrun
  rfl

theorem Refuses.of_within {more : Checks} (h : checks.Within more)
    (hc : checks.Refuses catalog s c d) : more.Refuses catalog s c d := by
  cases hc with
  | parameters selected refused => exact .parameters (h.parameters selected) refused
  | insertArity selected applies refused =>
    exact .insertArity (h.insertArity selected) applies refused
  | calls selected refused => exact .calls (h.calls selected) refused

/-- If a check refuses, it is the first to do so or an earlier one is. -/
theorem Refuses.exists_first (h : checks.Refuses catalog s b d) :
    ∃ c e, checks.FirstRefusal catalog s c e ∧ (c < b ∨ c = b ∧ e = d) := by
  cases hvalue : (validate checks catalog s).value with
  | ok u => exact absurd h (validate_ok_iff.mp hvalue b d)
  | error e =>
    obtain ⟨c, hc⟩ := validate_error_iff.mp hvalue
    refine ⟨c, e, hc, ?_⟩
    rcases Nat.lt_trichotomy c.place b.place with hlt | heq | hgt
    · exact .inl hlt
    · have hcb : c = b := by
        cases c <;> cases b <;> first | rfl | cases heq
      subst hcb
      exact .inr ⟨rfl, h.eq hc.refuses⟩
    · exact absurd h (hc.first b hgt d)

end Checks

end

/-- A validation reports what the first check reports that is selected, applies to the statement and
refuses it, each check answering as it does by itself; it accepts if there is none.  With fewer
checks it accepts no less, and what it refuses with fewer it refuses with more, if need be with the
report of an earlier check. -/
theorem validate_first_refusal (checks : Checks) (catalog : Catalog) (s : Statement) :
    (∀ d, (validate checks catalog s).value = .error d ↔ ∃ c, checks.FirstRefusal catalog s c d)
      ∧ ((validate checks catalog s).value = .ok () ↔ ∀ c d, ¬ checks.Refuses catalog s c d)
      ∧ ∀ fewer : Checks, fewer.Within checks →
        ((validate checks catalog s).value = .ok () → (validate fewer catalog s).value = .ok ())
          ∧ ∀ d, (validate fewer catalog s).value = .error d →
            ∃ e, (validate checks catalog s).value = .error e
              ∧ (e = d ∨ ∃ b c, c < b ∧ fewer.FirstRefusal catalog s b d
                ∧ checks.FirstRefusal catalog s c e) := by
  refine ⟨fun d => validate_error_iff, validate_ok_iff, ?_⟩
  intro fewer hwithin
  constructor
  · intro hok
    apply validate_ok_iff.mpr
    intro c d hrefuses
    exact validate_ok_iff.mp hok c d (hrefuses.of_within hwithin)
  · intro d herror
    obtain ⟨b, hb⟩ := validate_error_iff.mp herror
    -- the check still refuses among more, but it need not be the first there
    obtain ⟨c, e, hc, hearlier⟩ := (hb.refuses.of_within hwithin).exists_first
    refine ⟨e, validate_error_iff.mpr ⟨c, hc⟩, ?_⟩
    rcases hearlier with hlt | ⟨-, heq⟩
    · exact .inr ⟨b, c, hlt, hb, hc⟩
    · exact .inl heq

/-- `INSERT INTO t (a) VALUES (f($2), 0)`, where `f` takes two arguments, is refused by every check.
With all checks the missing parameter is reported, with the last one alone the call.
`SELECT f($1, $1)` is accepted. -/
theorem validate_first_refusal_insert :
    let catalog : Catalog := fun _ => pure (.ok [.ofCount "f" 2 "text"])
    let f : Call := ⟨["f"], [.parameter ⟨2, ⟨28, 30⟩⟩], false, false, [], none, none, ⟨26, 31⟩⟩
    let row : List Expr := [.call f, .literal (.int 0) ⟨33, 34⟩]
    let s : Statement := .insert ⟨[], ⟨none, "t", none, ⟨12, 13⟩⟩, [⟨"a", ⟨15, 16⟩⟩],
      .select ⟨[], .values [row], [], none, none, ⟨18, 35⟩⟩, none, [], ⟨0, 35⟩⟩
    let p : Expr := .parameter ⟨1, ⟨9, 11⟩⟩
    let g : Call := ⟨["f"], [p, p], false, false, [], none, none, ⟨7, 16⟩⟩
    let t : Statement := .select
      ⟨[], .query false [⟨.call g, none, ⟨7, 16⟩⟩] [] none [] none, [], none, none, ⟨0, 16⟩⟩
    let calls : Checks := ⟨false, false, true⟩
    let later : Checks := ⟨false, true, true⟩
    calls.Within {} ∧ (validate calls catalog s).value = .error (f.noOverload "f")
      ∧ (∃ e, (validate {} catalog s).value = .error e
        ∧ (e = f.noOverload "f" ∨ ∃ b c, c < b
          ∧ calls.FirstRefusal catalog s b (f.noOverload "f")
          ∧ Checks.FirstRefusal {} catalog s c e))
      ∧ calls.Within later ∧ (validate later catalog t).value = .ok ()
      ∧ (validate calls catalog t).value = .ok () := by
  intro catalog f row s p g t calls later
  obtain ⟨herror, -, -⟩ := validate_first_refusal calls catalog s
  obtain ⟨-, -, hall⟩ := validate_first_refusal {} catalog s
  obtain ⟨-, hok, hlater⟩ := validate_first_refusal later catalog t
  have hwithin : calls.Within {} := ⟨fun _ => rfl, fun _ => rfl, fun _ => rfl⟩
  have hwithin' : calls.Within later := ⟨nofun, nofun, fun _ => rfl⟩
  have hs : (validate calls catalog s).value = .error (f.noOverload "f") := by
    refine (herror _).mpr ⟨.calls, .calls rfl ?_, ?_⟩
    · rw [checkCalls_eq_inTurn]
      rfl
    · intro b hb e he
      cases he with
      | parameters selected _ => cases selected
      | insertArity selected _ _ => cases selected
      | calls _ _ => exact Nat.lt_irrefl _ hb
  have ht : (validate later catalog t).value = .ok () := by
    refine hok.mpr fun c d hc => ?_
    cases hc with
    | parameters selected _ => cases selected
    | insertArity _ applies _ => nomatch applies
    | calls _ refused =>
      have hcalls : t.calls = [g] := by decide +kernel
      have hg : g.Accepted catalog := ⟨_, _, rfl, rfl, .inr ⟨_, List.mem_cons_self, .counted rfl⟩⟩
      rw [checkCalls_ok_iff.mpr (by rwa [hcalls, List.forall_mem_singleton])] at refused
      cases refused
  exact ⟨hwithin, hs, (hall calls hwithin).2 _ hs, hwithin', ht, (hlater calls hwithin').1 ht⟩

end SqlVet
