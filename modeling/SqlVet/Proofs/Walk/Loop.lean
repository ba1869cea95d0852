import SqlVet.Proofs.Walk.Tour

/-!
# The loop is the recursion

The loop of `walk` ends and does what the tour of its root does.  What carries the induction is
that the loop, standing at a stack, still has to tour the nodes on it one after another:

* `Walk.after_tourAll`: it does so in one turn for each node that it visits, and at most one more
  to find the stack empty;
* `walk_eq_tour` compares the two from a root on: outcome, last state, and the nodes visited.
-/

namespace SqlVet

open Tour (nothing enter)

variable {σ β : Type} {v : Visitor σ β}

/-! ## Entering a node, by answer

The three answers of a visitor, and what each makes of a tour.
-/

namespace Tour

variable {n : Node} {rest : Tour σ β} {state state' : σ}

theorem enter_of_stop {outcome : β} (below : Tour σ β)
    (h : v n state = (.stop outcome, state')) :
    enter v n below state = ⟨[n], some outcome, state'⟩ := by
  rw [enter, h]

theorem enter_of_skip (below : Tour σ β) (h : v n state = (.skip, state')) :
    enter v n below state = ⟨[n], none, state'⟩ := by
  rw [enter, h]

theorem enter_of_into (below : Tour σ β) (h : v n state = (.into, state')) :
    enter v n below state
      = ⟨n :: (below state').nodes, (below state').outcome, (below state').state⟩ := by
  rw [enter, h]

/-- What is below a node that was entered comes before the rest of the tour. -/
theorem enter_append_of_into (below : Tour σ β) (h : v n state = (.into, state')) :
    (enter v n below ++ rest) state
      = ⟨n :: ((below ++ rest) state').nodes, ((below ++ rest) state').outcome,
          ((below ++ rest) state').state⟩ := by
  have hn := enter_of_into below h
  match hb : below state' with
  | ⟨nodes, some outcome, last⟩ =>
    rw [hb] at hn
    rw [append_of_some hn, append_of_some hb]
  | ⟨nodes, none, last⟩ =>
    rw [hb] at hn
    rw [append_of_none hn, append_of_none hb, List.cons_append]

end Tour

/-! ## Running for a number of turns

That a loop ends is said by the number of turns after which it has.
-/

namespace Walk

/-- Where a walk stands after a number of turns, or how it has ended by then. -/
def after (v : Visitor σ β) : Nat → Walk σ → Walk σ ⊕ (Option β × σ)
  | 0, w => .inl w
  | turns + 1, w =>
    match w.turn v with
    | .inl next => after v turns next
    | .inr result => .inr result

/-- A loop that has ended after some turns ends, with that result. -/
theorem run_of_after {result : Option β × σ} {turns : Nat} {w : Walk σ}
    (h : after v turns w = .inr result) : w.run v = result := by
  induction turns generalizing w with
  | zero => cases h
  | succ turns ih =>
    rw [run]
    rw [after] at h
    split
    · next next hturn =>
      rw [hturn] at h
      exact ih h
    · next result' hturn =>
      rw [hturn] at h
      cases h
      rfl

/-- **The loop ends**, having toured the nodes on its stack. -/
theorem after_tourAll (v : Visitor σ β) (w : Walk σ) :
    let course := Node.tourAll v w.upcoming w.state
    after v (course.nodes.length + 1) w = .inr (course.outcome, course.state) := by
  induction w using Walk.run.induct v with
  | case1 w next hturn ih =>
    obtain ⟨n, rest, hup, hnext⟩ := turn_eq_inl hturn
    rw [hup, Node.tourAll_cons, Node.tour_eq]
    rcases hnext with ⟨hv, hrest⟩ | ⟨hv, hrest⟩
    · -- skipped: the rest of the stack is toured next
      rw [hrest] at ih
      have hn := Tour.enter_of_skip (Node.tourAll v n.children) hv
      rw [Tour.append_of_none hn]
      simp only [List.singleton_append, List.length_cons]
      rw [after, hturn]
      exact ih
    · -- entered: the children now stand before the rest of the stack
      rw [hrest, Node.tourAll_append] at ih
      rw [Tour.enter_append_of_into _ hv]
      simp only [List.length_cons]
      rw [after, hturn]
      exact ih
  | case2 w result hturn =>
    rcases turn_eq_inr hturn with ⟨hup, rfl⟩ | ⟨n, rest, outcome, state, hup, hv, rfl⟩
    · rw [hup]
      show after v 1 w = _
      rw [after, hturn]
      rfl
    · rw [hup, Node.tourAll_cons, Node.tour_eq]
      have hn := Tour.enter_of_stop (Node.tourAll v n.children) hv
      rw [Tour.append_of_some hn]
      show after v 2 w = _
      rw [after, hturn]

/-- From a root on, the loop ends after one turn for each node that it visits and one more, with
what comes of the tour. -/
theorem after_tour (v : Visitor σ β) (root : Node) (state : σ) :
    let course := root.tour v state
    after v (course.nodes.length + 1) ⟨#[root], state⟩ = .inr (course.outcome, course.state) := by
  have h := after_tourAll v ⟨#[root], state⟩
  have hroot : Node.tourAll v (Walk.mk #[root] state).upcoming = root.tour v :=
    Tour.append_nothing _
  rw [hroot] at h
  exact h

end Walk

/-- What comes of a walk is what comes of the tour of its root. -/
theorem walk_eq_course (v : Visitor σ β) (root : Node) (state : σ) :
    walk v root state = ((root.tour v state).outcome, (root.tour v state).state) :=
  Walk.run_of_after (Walk.after_tour v root state)

/-! ## The nodes that are visited

A walk answers with an outcome and a state only.  To tell the nodes that it shows, the visitor is
made to note them down, which changes nothing else.
-/

/-- The visitor, noting down each node that it is shown. -/
def Visitor.noting (v : Visitor σ β) : Visitor (σ × List Node) β := fun n s =>
  let (answer, state) := v n s.1
  (answer, state, s.2 ++ [n])

/-- The nodes that a walk shows to a visitor, in order. -/
def walkedNodes (v : Visitor σ β) (root : Node) (state : σ) : List Node :=
  (walk v.noting root (state, [])).2.2

namespace Tour

/-- A tour that goes as another one does and notes down the nodes it visits. -/
def Notes (noted : Tour (σ × List Node) β) (t : Tour σ β) : Prop :=
  ∀ state seen, noted (state, seen)
    = ⟨(t state).nodes, (t state).outcome, (t state).state, seen ++ (t state).nodes⟩

theorem Notes.nothing : Notes (nothing : Tour (σ × List Node) β) nothing := by
  intro state seen
  show Course.mk [] none (state, seen) = ⟨[], none, state, seen ++ []⟩
  rw [List.append_nil]

/-- Notes that are taken on two stretches are taken on both of them in a row. -/
theorem Notes.append {noted₁ noted₂ : Tour (σ × List Node) β} {t₁ t₂ : Tour σ β}
    (h₁ : Notes noted₁ t₁) (h₂ : Notes noted₂ t₂) : Notes (noted₁ ++ noted₂) (t₁ ++ t₂) := by
  intro state seen
  have hnoted := h₁ state seen
  match ht : t₁ state with
  | ⟨nodes, some outcome, state'⟩ =>
    rw [ht] at hnoted
    rw [append_of_some hnoted, append_of_some ht]
  | ⟨nodes, none, state'⟩ =>
    rw [ht] at hnoted
    rw [append_of_none hnoted, append_of_none ht, h₂, List.append_assoc]

/-- Whatever the visitor answers, the node is noted before that. -/
theorem Notes.enter {n : Node} {noted : Tour (σ × List Node) β} {below : Tour σ β}
    (h : Notes noted below) : Notes (enter v.noting n noted) (enter v n below) := by
  intro state seen
  match hv : v n state with
  | (.stop outcome, state') =>
    have hnoting : v.noting n (state, seen) = (.stop outcome, state', seen ++ [n]) := by
      rw [Visitor.noting, hv]
    rw [enter_of_stop _ hnoting, enter_of_stop _ hv]
  | (.skip, state') =>
    have hnoting : v.noting n (state, seen) = (.skip, state', seen ++ [n]) := by
      rw [Visitor.noting, hv]
    rw [enter_of_skip _ hnoting, enter_of_skip _ hv]
  | (.into, state') =>
    have hnoting : v.noting n (state, seen) = (.into, state', seen ++ [n]) := by
      rw [Visitor.noting, hv]
    rw [enter_of_into _ hnoting, enter_of_into _ hv, h, List.append_assoc, List.singleton_append]

end Tour

theorem Node.notes_tourAll {ns : List Node} (h : ∀ n ∈ ns, (n.tour v.noting).Notes (n.tour v)) :
    (Node.tourAll v.noting ns).Notes (Node.tourAll v ns) := by
  induction ns with
  | nil => exact Tour.Notes.nothing
  | cons n ns ih =>
    have hn := h n List.mem_cons_self
    have hns := ih fun m hm => h m (List.mem_cons_of_mem n hm)
    exact hn.append hns

/-- A tour with notes goes as the tour without them does. -/
theorem Node.notes_tour (v : Visitor σ β) (n : Node) : (n.tour v.noting).Notes (n.tour v) := by
  induction n using Node.ind with
  | step n ih =>
    rw [Node.tour_eq, Node.tour_eq]
    exact (Node.notes_tourAll ih).enter

/-- The nodes that a walk shows are those that the tour of its root visits. -/
theorem walkedNodes_eq_course (v : Visitor σ β) (root : Node) (state : σ) :
    walkedNodes v root state = (root.tour v state).nodes := by
  rw [walkedNodes, walk_eq_course, Node.notes_tour v root state []]
  exact List.nil_append _

/-! ## The loop and the recursion -/

/-- From any root and with any visitor, the loop ends and agrees with the recursion over the tree:
in the outcome, in the visitor's last state, and in the nodes that the visitor is shown. -/
theorem walk_eq_tour (v : Visitor σ β) (root : Node) (state : σ) :
    let course := root.tour v state
    Walk.after v (course.nodes.length + 1) ⟨#[root], state⟩
        = .inr (course.outcome, course.state)
      ∧ walk v root state = (course.outcome, course.state)
      ∧ walkedNodes v root state = course.nodes :=
  ⟨Walk.after_tour v root state, walk_eq_course v root state, walkedNodes_eq_course v root state⟩

end SqlVet
