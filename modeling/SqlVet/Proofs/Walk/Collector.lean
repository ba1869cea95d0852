import Mathlib.Data.List.ReduceOption
import SqlVet.Proofs.Walk.Preorder
import SqlVet.Tree.Walk

/-!
# What collectors gather

A matcher that is shown nodes one after another replies to each of them, in the state that the ones
before have left (`Matcher.replies`).  A collector goes into every node, so what a walk makes of it
is what the replies to the nodes of the statement make of it (`Collector.walkOver_eq_shown`), and
walks in turn are one showing of the nodes of all statements
(`Collector.walkOverAll_eq_shown`).  From this follow:

* `Collector.walkOverAll_keeps`: nothing is lost, gathered twice or moved from one statement to the
  next;
* `Collector.gather_stateless`: a matcher that looks at the node alone makes a walk gather what it
  picks out of the nodes, in their order.
-/

namespace SqlVet

variable {τ α : Type}

/-! ## Replies

A matcher is asked about one node after another.  What it replies is all that a collector gets to
see of it.
-/

namespace Matcher

/-- The replies of a matcher to nodes that it is shown one after another, and the state it is left
in. -/
def replies (matcher : Matcher τ α) : List Node → τ → List (Option α) × τ
  | [], state => ([], state)
  | n :: ns, state =>
    let rest := matcher.replies ns (matcher n state).2
    ((matcher n state).1 :: rest.1, rest.2)

/-- A matcher that replies to a node in the same way in every state. -/
def Stateless (matcher : Matcher τ α) : Prop :=
  ∀ n state state', (matcher n state).1 = (matcher n state').1

/-- The nodes behind are replied to in the state that those before have left. -/
theorem replies_append (matcher : Matcher τ α) (ms ns : List Node) (state : τ) :
    matcher.replies (ms ++ ns) state
      = ((matcher.replies ms state).1 ++ (matcher.replies ns (matcher.replies ms state).2).1,
          (matcher.replies ns (matcher.replies ms state).2).2) := by
  induction ms generalizing state with
  | nil => rfl
  | cons m ms ih =>
    rw [List.cons_append, replies, ih]
    rfl

/-- Without regard to the state, each node has its own reply. -/
theorem Stateless.replies_eq {matcher : Matcher τ α} (h : matcher.Stateless) (ns : List Node)
    (state state' : τ) : (matcher.replies ns state).1 = ns.map fun n => (matcher n state').1 := by
  induction ns generalizing state with
  | nil => rfl
  | cons n ns ih =>
    -- the nodes behind are shown in another state, so the state has to be general
    show (matcher n state).1 :: (matcher.replies ns (matcher n state).2).1 = _
    rw [ih, h n state state', List.map_cons]

end Matcher

namespace Collector

/-! ## One walk

A collector is a visitor that goes into every node.  So a walk folds it over the nodes of the
statement, and that is the same as showing them to its matcher.
-/

/-- A collector whose matcher has been shown nodes one after another, and which has taken in what
the replies hold. -/
def shown (matcher : Matcher τ α) (c : Collector τ α) (ns : List Node) : Collector τ α where
  state := (matcher.replies ns c.state).2
  items := (c.items.toList ++ (matcher.replies ns c.state).1.reduceOption).toArray

@[simp] theorem shown_nil (matcher : Matcher τ α) (c : Collector τ α) :
    c.shown matcher [] = c := by
  simp [shown, Matcher.replies]

/-- Nodes shown in two parts are shown in a row. -/
theorem shown_append (matcher : Matcher τ α) (c : Collector τ α) (ms ns : List Node) :
    c.shown matcher (ms ++ ns) = (c.shown matcher ms).shown matcher ns := by
  simp [shown, Matcher.replies_append, List.reduceOption_append]

theorem observe_eq_shown (matcher : Matcher τ α) (n : Node) (c : Collector τ α) :
    c.observe matcher n = c.shown matcher [n] := by
  match h : matcher n c.state with
  | (some item, state) =>
    have hpush : c.items.push item = (c.items.toList ++ [item]).toArray :=
      Array.ext' Array.toList_push
    simp [observe, shown, Matcher.replies, h, hpush]
  | (none, state) => simp [observe, shown, Matcher.replies, h]

/-- To observe nodes one by one is to be shown them all. -/
theorem foldl_observe_eq_shown (matcher : Matcher τ α) (ns : List Node) (c : Collector τ α) :
    ns.foldl (fun c n => c.observe matcher n) c = c.shown matcher ns := by
  induction ns generalizing c with
  | nil => exact (shown_nil matcher c).symm
  | cons n ns ih =>
    rw [List.foldl_cons, ih, observe_eq_shown, ← shown_append, List.singleton_append]

theorem visitor_into (matcher : Matcher τ α) (n : Node) (c : Collector τ α) :
    (visitor matcher n c).1 = .into := rfl

/-- The walk of a collector has no outcome of its own, and the collector has been shown all
nodes. -/
theorem walk_visitor (matcher : Matcher τ α) (s : Statement) (c : Collector τ α) :
    walk (visitor matcher) (.statement s) c = (none, c.shown matcher s.nodes) := by
  rw [walk_of_into (visitor_into matcher), ← foldl_observe_eq_shown]
  rfl

theorem walkOver_eq_shown (matcher : Matcher τ α) (c : Collector τ α) (s : Statement) :
    walkOver matcher c s = c.shown matcher s.nodes :=
  congrArg Prod.snd (walk_visitor matcher s c)

/-! ## Walks in turn

The sizes in between are told as well, so an induction from the left and one from the right are
needed: a list of statements is walked over first to last, but one more comes at its end.
-/

theorem walkOverAll_cons (matcher : Matcher τ α) (c : Collector τ α) (s : Statement)
    (ss : List Statement) :
    let next := walkOver matcher c s
    walkOverAll matcher c (s :: ss)
      = (next.items.size :: (walkOverAll matcher next ss).1, (walkOverAll matcher next ss).2) := rfl

theorem walkOverAll_concat (matcher : Matcher τ α) (c : Collector τ α) (ss : List Statement)
    (s : Statement) :
    let next := walkOver matcher (walkOverAll matcher c ss).2 s
    walkOverAll matcher c (ss ++ [s])
      = ((walkOverAll matcher c ss).1 ++ [next.items.size], next) := by
  induction ss generalizing c with
  | nil => rfl
  | cons t ss ih =>
    rw [List.cons_append, walkOverAll_cons, walkOverAll_cons, ih]
    rfl

/-- Walks in turn are one showing of the nodes of all statements. -/
theorem walkOverAll_eq_shown (matcher : Matcher τ α) (c : Collector τ α) (ss : List Statement) :
    (walkOverAll matcher c ss).2 = c.shown matcher (ss.flatMap Statement.nodes) := by
  induction ss generalizing c with
  | nil => exact (shown_nil matcher c).symm
  | cons s ss ih =>
    rw [walkOverAll_cons, ih, walkOver_eq_shown, List.flatMap_cons, shown_append]

/-- A walk gathers the replies to its nodes that hold something. -/
theorem gather_of_stateless {matcher : Matcher τ α} (h : matcher.Stateless) (state : τ)
    (s : Statement) : gather matcher state s = s.nodes.filterMap fun n => (matcher n state).1 := by
  rw [gather, walkOver_eq_shown]
  show [] ++ (matcher.replies s.nodes state).1.reduceOption = _
  rw [h.replies_eq s.nodes state state, List.nil_append, List.reduceOption, List.filterMap_map]
  rfl

/-- In particular, it gathers what is picked out of the nodes. -/
theorem gather_stateless (pick : Node → Option α) (s : Statement) :
    gather (stateless pick) () s = s.nodes.filterMap pick :=
  gather_of_stateless (fun _ _ _ => rfl) () s

/-- **A collector keeps all that it has found.**  Walked over statements in turn it holds, behind
what it held at the start, what its matcher replied to the nodes of all of them, shown one after
another.  Whatever the matcher has replied so far, one more walk goes through all the nodes of its
statement and adds to the end.  A matcher whose replies do not depend on its state makes the
collector hold what fresh ones gather from the statements one by one. -/
theorem walkOverAll_keeps (matcher : Matcher τ α) (c : Collector τ α) (ss : List Statement) :
    let sizes := (walkOverAll matcher c ss).1
    let held := (walkOverAll matcher c ss).2
    let (replies, state) := matcher.replies (ss.flatMap Statement.nodes) c.state
    held.items.toList = c.items.toList ++ replies.reduceOption
      ∧ held.state = state
      ∧ (∀ s : Statement, ∃ next,
          walk (visitor matcher) (.statement s) held = (none, next)
            ∧ walkedNodes (visitor matcher) (.statement s) held = s.nodes
            ∧ held.items.toList <+: next.items.toList
            ∧ walkOverAll matcher c (ss ++ [s]) = (sizes ++ [next.items.size], next))
      ∧ (matcher.Stateless → ∀ fresh,
          held.items.toList = c.items.toList ++ ss.flatMap (gather matcher fresh)) := by
  intro sizes held
  have hheld : held = c.shown matcher (ss.flatMap Statement.nodes) :=
    walkOverAll_eq_shown matcher c ss
  have hitems : held.items.toList = c.items.toList
      ++ (matcher.replies (ss.flatMap Statement.nodes) c.state).1.reduceOption :=
    congrArg (fun held => held.items.toList) hheld
  refine ⟨hitems, congrArg Collector.state hheld, ?_, ?_⟩
  · intro s
    refine ⟨held.shown matcher s.nodes, walk_visitor matcher s held, ?_, ?_, ?_⟩
    · exact walkedNodes_of_into (visitor_into matcher) _ held
    · exact List.prefix_append _ _
    · rw [walkOverAll_concat, walkOver_eq_shown]
  · intro hstateless fresh
    -- what a fresh collector gathers does not depend on the state it begins in
    have hgather : gather matcher fresh
        = fun s => s.nodes.filterMap fun n => (matcher n fresh).1 :=
      funext (gather_of_stateless hstateless fresh)
    rw [hitems, hstateless.replies_eq _ c.state fresh, hgather, List.reduceOption,
      List.filterMap_map, List.filterMap_flatMap]
    rfl

/-- The parameters of `VALUES ($2, $1)` and of the same statement once more, picked out by a matcher
that counts the nodes it is shown. -/
theorem walkOverAll_keeps_counting :
    let matcher : Matcher Nat Nat := fun n seen => (n.parameter?.map Parameter.number, seen + 1)
    let parameter (k : Nat) : Expr := .parameter ⟨k, ⟨0, 0⟩⟩
    let s : Statement :=
      .select ⟨[], .values [[parameter 2, parameter 1]], [], none, none, ⟨0, 0⟩⟩
    let held := (walkOverAll matcher (start 0) [s, s]).2
    matcher.Stateless ∧ held.items.toList = [2, 1, 2, 1] ∧ held.state = 8
      ∧ held.items.toList = gather matcher 0 s ++ gather matcher 0 s := by
  intro matcher parameter s held
  have hstateless : matcher.Stateless := fun _ _ _ => rfl
  obtain ⟨hitems, hstate, -, hfresh⟩ := walkOverAll_keeps matcher (start 0) [s, s]
  have hreplies : matcher.replies ([s, s].flatMap Statement.nodes) 0
      = ([none, none, some 2, some 1, none, none, some 2, some 1], 8) := by
    decide +kernel
  have hboth := hfresh hstateless 0
  rw [List.flatMap_cons, List.flatMap_singleton] at hboth
  refine ⟨hstateless, hitems.trans ?_, hstate.trans ?_, hboth⟩
  · show [] ++ (matcher.replies ([s, s].flatMap Statement.nodes) 0).1.reduceOption = _
    rw [hreplies]
    rfl
  · show (matcher.replies ([s, s].flatMap Statement.nodes) 0).2 = _
    rw [hreplies]

end Collector

end SqlVet
