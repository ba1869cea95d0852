import SqlVet.Validation
import SqlVet.Proofs.Walk.Collector
import SqlVet.Proofs.Walk.Uses
import Mathlib.Order.Interval.Finset.Nat
import Mathlib.Data.Finset.Lattice.Fold
import Mathlib.Order.Lattice.Nat

/-!
# The parameter numbers of a statement

The check looks for a missing number no further than the size of the set of numbers.  That is far
enough:

* `gapUpTo_card_eq_none_iff`: a set without a gap up to its size is the set of the numbers from one
  to its size, since it has no room for anything else;
* `gapUpTo_card_eq_sup`: so a look up to the greatest number would find the same gap, if zero is not
  in the set;
* `checkParameters_least_gap`: what the check answers, from the set of numbers alone.
-/

namespace SqlVet

open Std (TreeSet)

/-! ## Gaps in a set of numbers

Facts about finite sets of numbers and a look through the numbers up to some bound.
-/

/-- The smallest number from one up to a bound that a set of numbers lacks. -/
def gapUpTo (numbers : Finset Nat) (bound : Nat) : Option Nat :=
  (List.range' 1 bound).find? fun k => k ∉ numbers

section
variable {numbers : Finset Nat} {bound m : Nat}

theorem gapUpTo_eq_none_iff : gapUpTo numbers bound = none ↔ Finset.Icc 1 bound ⊆ numbers := by
  unfold gapUpTo
  rw [List.find?_range'_eq_none]
  constructor
  · intro h k hk
    obtain ⟨hpos, hle⟩ := Finset.mem_Icc.mp hk
    have hin := h k hpos (by omega)
    simpa using hin
  · intro h k hpos hlt
    have hin : k ∈ numbers := h (Finset.mem_Icc.mpr ⟨hpos, by omega⟩)
    simpa using hin

/-- The gap that is found is the least positive number outside of the set, and it lies within the
bound. -/
theorem gapUpTo_eq_some_iff :
    gapUpTo numbers bound = some m ↔ IsLeast {k | 0 < k ∧ k ∉ numbers} m ∧ m ≤ bound := by
  unfold gapUpTo
  rw [List.find?_range'_eq_some]
  constructor
  · rintro ⟨hout, hm, hbelow⟩
    obtain ⟨hpos, hle⟩ := List.mem_range'_1.mp hm
    refine ⟨⟨⟨hpos, of_decide_eq_true hout⟩, ?_⟩, by omega⟩
    rintro k ⟨hkpos, hkout⟩
    by_contra hlt
    have hin := hbelow k hkpos (by omega)
    simp [hkout] at hin
  · rintro ⟨⟨⟨hpos, hout⟩, hleast⟩, hle⟩
    refine ⟨decide_eq_true hout, List.mem_range'_1.mpr ⟨hpos, by omega⟩, ?_⟩
    intro k hkpos hlt
    have hin : k ∈ numbers := by
      by_contra hkout
      have := hleast ⟨hkpos, hkout⟩
      omega
    simpa using hin

/-- A set that has the numbers from one to its size has no others. -/
theorem gapUpTo_card_eq_none_iff :
    gapUpTo numbers numbers.card = none ↔ numbers = Finset.Icc 1 numbers.card := by
  rw [gapUpTo_eq_none_iff]
  constructor
  · intro hsub
    refine (Finset.eq_of_subset_of_card_le hsub ?_).symm
    rw [Nat.card_Icc, Nat.add_sub_cancel]
  · intro h
    exact h.symm.subset

/-- A set of positive numbers has no more elements than its greatest says. -/
theorem card_le_sup_of_zero_notMem (h : 0 ∉ numbers) : numbers.card ≤ numbers.sup id := by
  have hsub : numbers ⊆ Finset.Icc 1 (numbers.sup id) := by
    intro k hk
    have hpos : k ≠ 0 := by
      intro hzero
      rw [hzero] at hk
      exact h hk
    have hle : id k ≤ numbers.sup id := Finset.le_sup hk
    exact Finset.mem_Icc.mpr ⟨Nat.pos_of_ne_zero hpos, hle⟩
  have hcard := Finset.card_le_card hsub
  rwa [Nat.card_Icc, Nat.add_sub_cancel] at hcard

/-- Up to the size or up to the greatest number, a look through positive numbers finds the same
gap. -/
theorem gapUpTo_card_eq_sup (h : 0 ∉ numbers) :
    gapUpTo numbers numbers.card = gapUpTo numbers (numbers.sup id) := by
  cases hgap : gapUpTo numbers numbers.card with
  | none =>
    have hall : numbers = Finset.Icc 1 numbers.card := gapUpTo_card_eq_none_iff.mp hgap
    -- with no gap up to the size there is nothing above it either
    have hsup : numbers.sup id ≤ numbers.card := by
      refine Finset.sup_le fun k hk => ?_
      rw [hall] at hk
      exact (Finset.mem_Icc.mp hk).2
    refine (gapUpTo_eq_none_iff.mpr ?_).symm
    exact (Finset.Icc_subset_Icc_right hsup).trans (gapUpTo_eq_none_iff.mp hgap)
  | some m =>
    obtain ⟨hleast, hle⟩ := gapUpTo_eq_some_iff.mp hgap
    exact (gapUpTo_eq_some_iff.mpr ⟨hleast, hle.trans (card_le_sup_of_zero_notMem h)⟩).symm

end

/-! ## The numbers a statement uses

The check keeps the numbers in a search tree.  What it finds depends on the set of them alone.
-/

theorem size_eq_card {numbers : TreeSet Nat} {used : Finset Nat}
    (h : ∀ k, k ∈ numbers ↔ k ∈ used) : numbers.size = used.card := by
  have hnodup : numbers.toList.Nodup := by
    refine TreeSet.distinct_toList.imp ?_
    intro j k hne heq
    exact hne (compare_eq_iff_eq.mpr heq)
  have hset : numbers.toList.toFinset = used := by
    ext k
    rw [List.mem_toFinset, TreeSet.mem_toList, h]
  rw [← TreeSet.length_toList, ← List.toFinset_card_of_nodup hnodup, hset]

/-- The gap in a search tree is the one in the set that it holds. -/
theorem firstGap_eq_gapUpTo {numbers : TreeSet Nat} {used : Finset Nat}
    (h : ∀ k, k ∈ numbers ↔ k ∈ used) : firstGap numbers = gapUpTo used used.card := by
  have hcontains : ∀ k, numbers.contains k = decide (k ∈ used) := by
    intro k
    rw [Bool.eq_iff_iff, TreeSet.contains_iff_mem, h, decide_eq_true_iff]
  simp only [firstGap, gapUpTo, size_eq_card h, hcontains, decide_not]

namespace Statement

/-- The parameter numbers in a statement, whatever their order and however often they occur. -/
def numberSet (s : Statement) : Finset Nat := s.numbers.toFinset

/-- The walk of the statement gathers the numbers of all its parameters, in order. -/
theorem parameterUses_eq (s : Statement) : s.parameterUses = s.numbers := by
  rw [parameterUses, Collector.gather_stateless, filterMap_number?_nodes]

theorem mem_parameterNumbers (s : Statement) (k : Nat) :
    k ∈ s.parameterNumbers ↔ k ∈ s.numberSet := by
  rw [parameterNumbers, TreeSet.mem_ofList, parameterUses_eq, List.contains_iff_mem, numberSet,
    List.mem_toFinset]

end Statement

/-! ## The check

Its answer and its log, both told by the gap that was found.
-/

/-- The report of a parameter that is left out. -/
def unusedParameter (number : Nat) : Diagnostic where
  code := "42P18"
  message := "could not determine data type of parameter $" ++ toString number
  hint := none
  location := none

/-- What is answered to a look for a gap. -/
def gapAnswer : Option Nat → Except Diagnostic Unit
  | none => .ok ()
  | some number => .error (unusedParameter number)

/-- What is told of a look for a gap. -/
def gapEvents (distinct : Nat) : Option Nat → List Event
  | none => []
  | some number => [.parameterGap "42P18" number distinct]

/-- What the check answers and what it tells, both from the set of numbers. -/
theorem checkParameters_eq (s : Statement) :
    checkParameters s = ⟨gapAnswer (gapUpTo s.numberSet s.numberSet.card),
      gapEvents s.numberSet.card (gapUpTo s.numberSet s.numberSet.card)⟩ := by
  rw [checkParameters, firstGap_eq_gapUpTo s.mem_parameterNumbers,
    size_eq_card s.mem_parameterNumbers]
  cases gapUpTo s.numberSet s.numberSet.card <;> rfl

theorem gapAnswer_eq_ok_iff {gap : Option Nat} : gapAnswer gap = .ok () ↔ gap = none := by
  cases gap with
  | none => exact ⟨fun _ => rfl, fun _ => rfl⟩
  | some number => exact ⟨nofun, nofun⟩

/-- The check accepts exactly the statements that use the parameters from one to their number.  Of
any other it reports the smallest positive number that is not used.  A look at all numbers up to the
greatest would answer the same, except of a statement that uses zero, which is always refused.
Nothing but the set of numbers plays a part. -/
theorem checkParameters_least_gap (s : Statement) :
    let used := s.numberSet
    let answer := (checkParameters s).value
    (answer = .ok () ↔ used = Finset.Icc 1 used.card)
      ∧ (used ≠ Finset.Icc 1 used.card →
          ∃ m, IsLeast {k | 0 < k ∧ k ∉ used} m ∧ m ≤ used.card
            ∧ answer = .error (unusedParameter m))
      ∧ (0 ∉ used → answer = gapAnswer (gapUpTo used (used.sup id)))
      ∧ (0 ∈ used → answer ≠ .ok ())
      ∧ ∀ t : Statement, t.numberSet = used → checkParameters t = checkParameters s := by
  intro used answer
  have hanswer : answer = gapAnswer (gapUpTo used used.card) :=
    congrArg Logged.value (checkParameters_eq s)
  have hok : answer = .ok () ↔ used = Finset.Icc 1 used.card := by
    rw [hanswer, gapAnswer_eq_ok_iff, gapUpTo_card_eq_none_iff]
  refine ⟨hok, ?_, ?_, ?_, ?_⟩
  · intro hne
    obtain ⟨m, hm⟩ := Option.ne_none_iff_exists'.mp (gapUpTo_card_eq_none_iff.not.mpr hne)
    obtain ⟨hleast, hle⟩ := gapUpTo_eq_some_iff.mp hm
    refine ⟨m, hleast, hle, ?_⟩
    rw [hanswer, hm]
    rfl
  · intro hzero
    rw [hanswer, gapUpTo_card_eq_sup hzero]
  · intro hzero hanswer
    rw [hok.mp hanswer] at hzero
    exact absurd (Finset.mem_Icc.mp hzero).1 (by decide)
  · intro t ht
    rw [checkParameters_eq t, checkParameters_eq s, ht]

/-- `VALUES ($4), ($1), ($1)` leaves `$2` out, with its rows in any order; `VALUES ($0)` leaves out
`$1`. -/
theorem checkParameters_least_gap_values :
    let row (k : Nat) : List Expr := [.parameter ⟨k, ⟨0, 0⟩⟩]
    let values (ks : List Nat) : Statement :=
      .select ⟨[], .values (ks.map row), [], none, none, ⟨0, 0⟩⟩
    let s := values [4, 1, 1]
    let used := s.numberSet
    used ≠ Finset.Icc 1 used.card ∧ 0 ∉ used ∧ 0 ∈ (values [0]).numberSet
      ∧ (checkParameters s).value = .error (unusedParameter 2)
      ∧ (checkParameters s).value = gapAnswer (gapUpTo used (used.sup id))
      ∧ (checkParameters (values [0])).value ≠ .ok ()
      ∧ checkParameters (values [1, 4]) = checkParameters s := by
  intro row values s used
  obtain ⟨-, hgap, hfull, -, hsame⟩ := checkParameters_least_gap s
  obtain ⟨-, -, -, hzero, -⟩ := checkParameters_least_gap (values [0])
  have hne : used ≠ Finset.Icc 1 used.card := by
    decide +kernel
  have hout : 0 ∉ used := by
    decide +kernel
  have hin : 0 ∈ (values [0]).numberSet := by
    decide +kernel
  have hset : (values [1, 4]).numberSet = used := by
    decide +kernel
  refine ⟨hne, hout, hin, ?_, hfull hout, hzero hin, hsame (values [1, 4]) hset⟩
  obtain ⟨m, hleast, -, hvalue⟩ := hgap hne
  have hscan : gapUpTo used used.card = some 2 := by
    decide +kernel
  obtain ⟨htwo, -⟩ := gapUpTo_eq_some_iff.mp hscan
  rw [hvalue, hleast.unique htwo]

end SqlVet
