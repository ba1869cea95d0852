import Mathlib.Data.List.Chain
import SqlVet.Proofs.Check.Calls

/-!
# Source order

A statement is laid out if its spans are those of a text that was read from left to right: each node
holds the pieces it consists of, and these stand one behind another.  That is asked only of a node
and the pieces directly inside it, but it orders all nodes of the statement:

* `Node.AllLaidOut.inside_of_mem_preorder`: what is below a node stands inside its span;
* `Node.AllLaidOut.pairwise_start`: the nodes of a tree begin one behind another, in preorder;
* `checkCalls_stops_at`: a statement is refused for the call at which the walk of the check ends,
  and the calls that it met before are accepted;
* `refused_call_leftmost`: so this is the leftmost of the calls that are refused by themselves.
-/

namespace SqlVet

/-! ## Pieces

A tour lists the pieces of each node in the order of the text.  A visitor that goes into one node
only shows them.
-/

/-- Goes into the node that it is shown first, and into no other. -/
def outermost : Visitor Bool Empty := fun _ inside => (if inside then .skip else .into, true)

namespace Node

/-- The pieces directly inside a node, in the order in which a statement writes them.  A tour has
that order written out for each kind of node. -/
def pieces (n : Node) : List Node := (n.tour outermost false).nodes.tail

/-- Shown nodes one after another, the visitor goes into none once it is inside. -/
theorem tourAll_outermost (ns : List Node) : tourAll outermost ns true = ⟨ns, none, true⟩ := by
  induction ns with
  | nil => rfl
  | cons n ns ih =>
    have hn : n.tour outermost true = ⟨[n], none, true⟩ := by
      rw [tour_eq]
      exact Tour.enter_of_skip _ rfl
    rw [tourAll_cons, Tour.append_of_none hn, ih, List.singleton_append]

/-- A walk meets the pieces of a node in the order in which they are written. -/
theorem pieces_eq_children (n : Node) : n.pieces = n.children := by
  have hn : outermost n false = (.into, true) := rfl
  rw [pieces, tour_eq, Tour.enter_of_into _ hn, tourAll_outermost, List.tail_cons]

end Node

/-! ## Layout

What a text that is read from left to right guarantees for one node and the pieces directly inside
it.
-/

/-- One span lies within the ends of another one. -/
def Span.Inside (inner outer : Span) : Prop :=
  outer.start ≤ inner.start ∧ inner.stop ≤ outer.stop

namespace Span

instance decidableInside (inner outer : Span) : Decidable (inner.Inside outer) :=
  inferInstanceAs (Decidable (_ ∧ _))

theorem Inside.refl (s : Span) : s.Inside s := ⟨Nat.le_refl _, Nat.le_refl _⟩

theorem Inside.trans {s t u : Span} (hst : s.Inside t) (htu : t.Inside u) : s.Inside u :=
  ⟨htu.1.trans hst.1, hst.2.trans htu.2⟩

end Span

/-- The span of the node runs forwards, and its pieces stand inside it one behind another. -/
structure Node.LaidOut (n : Node) : Prop where
  forwards : n.span.start ≤ n.span.stop
  inside : ∀ p ∈ n.pieces, p.span.Inside n.span
  behind : n.pieces.IsChain fun p q => p.span.stop ≤ q.span.start

instance Node.decidableLaidOut (n : Node) : Decidable n.LaidOut :=
  decidable_of_iff
    (n.span.start ≤ n.span.stop ∧ (∀ p ∈ n.pieces, p.span.Inside n.span)
      ∧ n.pieces.IsChain fun p q => p.span.stop ≤ q.span.start)
    ⟨fun h => ⟨h.1, h.2.1, h.2.2⟩, fun h => ⟨h.forwards, h.inside, h.behind⟩⟩

/-- The node and everything below it is laid out, each with regard to the pieces directly inside
it. -/
def Node.AllLaidOut (n : Node) : Prop := ∀ m ∈ n.preorder, m.LaidOut

/-- Each node of the statement is laid out. -/
def Statement.LaidOut (s : Statement) : Prop := ∀ n ∈ s.nodes, n.LaidOut

namespace Node

variable {n m c : Node}

theorem AllLaidOut.root (h : n.AllLaidOut) : n.LaidOut := h n n.mem_preorder_self

theorem AllLaidOut.child (h : n.AllLaidOut) (hc : c ∈ n.children) : c.AllLaidOut := by
  intro m hm
  exact h m (mem_preorder_trans (mem_preorder_of_child n.mem_preorder_self hc) hm)

theorem AllLaidOut.child_inside (h : n.AllLaidOut) (hc : c ∈ n.children) :
    c.span.Inside n.span := by
  rw [← pieces_eq_children] at hc
  exact h.root.inside c hc

/-- What stands behind its neighbour stands behind everything before that, since no span runs
backwards. -/
theorem pairwise_behind {ns : List Node} (hforwards : ∀ n ∈ ns, n.span.start ≤ n.span.stop)
    (h : ns.IsChain fun m n => m.span.stop ≤ n.span.start) :
    ns.Pairwise fun m n => m.span.stop ≤ n.span.start := by
  induction ns with
  | nil => exact .nil
  | cons n ns ih =>
    obtain ⟨-, hforwards⟩ := List.forall_mem_cons.mp hforwards
    cases ns with
    | nil => exact List.pairwise_singleton _ n
    | cons m ns =>
      obtain ⟨hnm, hbehind⟩ := List.isChain_cons_cons.mp h
      have hpairs := ih hforwards hbehind
      refine List.pairwise_cons.mpr ⟨?_, hpairs⟩
      intro k hk
      rcases List.mem_cons.mp hk with rfl | hk
      · exact hnm
      · calc n.span.stop
          _ ≤ m.span.start := hnm
          _ ≤ m.span.stop := hforwards m List.mem_cons_self
          _ ≤ k.span.start := (List.pairwise_cons.mp hpairs).1 k hk

/-- Of two children, one ends before the other begins. -/
theorem AllLaidOut.pairwise_children (h : n.AllLaidOut) :
    n.children.Pairwise fun c d => c.span.stop ≤ d.span.start := by
  have hbehind := h.root.behind
  rw [pieces_eq_children] at hbehind
  exact pairwise_behind (fun c hc => (h.child hc).root.forwards) hbehind

/-- Everything below a node stands inside its span, however deep it is. -/
theorem AllLaidOut.inside_of_mem_preorder (h : n.AllLaidOut) (hm : m ∈ n.preorder) :
    m.span.Inside n.span := by
  induction n using Node.ind with
  | step n ih =>
    rw [preorder_eq] at hm
    rcases List.mem_cons.mp hm with rfl | hm
    · exact .refl _
    · obtain ⟨c, hc, hm⟩ := List.mem_flatMap.mp hm
      have hmc : m.span.Inside c.span := ih c hc (h.child hc) hm
      exact hmc.trans (h.child_inside hc)

/-- **Preorder is source order.**  In a tree that is laid out, no node begins before one that comes
earlier in preorder. -/
theorem AllLaidOut.pairwise_start (h : n.AllLaidOut) :
    n.preorder.Pairwise fun m m' => m.span.start ≤ m'.span.start := by
  induction n using Node.ind with
  | step n ih =>
    rw [preorder_eq, List.pairwise_cons, List.pairwise_flatMap]
    refine ⟨?root, fun c hc => ih c hc (h.child hc), ?across⟩
    case root =>
      intro m hm
      obtain ⟨c, hc, hm⟩ := List.mem_flatMap.mp hm
      have hmc : m.span.Inside c.span := (h.child hc).inside_of_mem_preorder hm
      exact (hmc.trans (h.child_inside hc)).1
    case across =>
      refine h.pairwise_children.imp_of_mem ?_
      -- below two children, with the end of the first and the beginning of the second between them
      intro c d hc hd hcd m hm m' hm'
      calc m.span.start
        _ ≤ m.span.stop := (h.child hc m hm).forwards
        _ ≤ c.span.stop := ((h.child hc).inside_of_mem_preorder hm).2
        _ ≤ d.span.start := hcd
        _ ≤ m'.span.start := ((h.child hd).inside_of_mem_preorder hm').1

end Node

theorem Statement.LaidOut.pairwise_nodes {s : Statement} (h : s.LaidOut) :
    s.nodes.Pairwise fun m n => m.span.start ≤ n.span.start :=
  Node.AllLaidOut.pairwise_start h

/-- The nodes that a walk shows begin one behind another, whatever the visitor. -/
theorem Statement.LaidOut.pairwise_walkedNodes {s : Statement} (h : s.LaidOut) {σ β : Type}
    (v : Visitor σ β) (state : σ) :
    (walkedNodes v (.statement s) state).Pairwise fun m n => m.span.start ≤ n.span.start :=
  h.pairwise_nodes.sublist (walkedNodes_sublist v (.statement s) state)

/-! ## The call that is refused

The walk of the check ends at some node.  All the calls before it are accepted, and what is behind
it begins no earlier.
-/

section
variable {catalog : Catalog} {n : Node} {d : Diagnostic} {log log' : Array Event}

/-- The visitor stops only at calls that are refused. -/
theorem CallCheck.visitor_eq_stop (h : visitor catalog n log = (.stop d, log')) :
    ∃ c, n = .call c ∧ (checkCall catalog c).value = .error d := by
  cases hcall : n.call? with
  | none =>
    rw [visitor_of_none hcall] at h
    cases h
  | some c =>
    cases hc : (checkCall catalog c).value with
    | ok u =>
      rw [visitor_of_ok hcall hc] at h
      cases h
    | error d' =>
      rw [visitor_of_error hcall hc] at h
      cases h
      exact ⟨c, Node.eq_call_of_call? hcall, hc⟩

/-- Shown nodes without a stop, the visitor has accepted the calls among them. -/
theorem CallCheck.ok_of_through {ns : List Node} {c : Call}
    (h : Tour.through (visitor catalog) ns log = ⟨ns, none, log'⟩) (hc : .call c ∈ ns) :
    (checkCall catalog c).value = .ok () := by
  obtain ⟨houtcome, -⟩ := through_visitor catalog ns log
  rw [h] at houtcome
  have hok : (inTurn (checkCall catalog) (ns.filterMap Node.call?)).value = .ok () := by
    cases hvalue : (inTurn (checkCall catalog) (ns.filterMap Node.call?)).value with
    | ok u => rfl
    | error d =>
      rw [hvalue] at houtcome
      cases houtcome
  exact inTurn_ok_iff.mp hok c (List.mem_filterMap.mpr ⟨_, hc, rfl⟩)

/-- A statement is refused for the call at which the walk of its check ends. -/
theorem checkCalls_stops_at {s : Statement} (h : (checkCalls catalog s).value = .error d) :
    ∃ before c after, s.nodes = before ++ .call c :: after
      ∧ walkedNodes (CallCheck.visitor catalog) (.statement s) #[] = before ++ [.call c]
      ∧ (checkCall catalog c).value = .error d
      ∧ ∀ b, .call b ∈ before → (checkCall catalog b).value = .ok () := by
  have houtcome : (Tour.through (CallCheck.visitor catalog) s.nodes #[]).outcome = some d := by
    rw [(CallCheck.through_visitor catalog s.nodes #[]).1, s.filterMap_call?_nodes,
      ← checkCalls_eq_inTurn, h]
    rfl
  obtain ⟨before, n, after, log, log', hsplit, hbefore, hn, hnodes⟩ :=
    Tour.through_of_some houtcome
  obtain ⟨c, rfl, hc⟩ := CallCheck.visitor_eq_stop hn
  refine ⟨before, c, after, hsplit, ?_, hc, fun b hb => CallCheck.ok_of_through hbefore hb⟩
  rw [walkedNodes_eq_through (CallCheck.visitor_ne_skip catalog)]
  exact hnodes

end

/-- In a statement that is laid out, a walk shows nodes that begin one behind another, whether the
visitor goes into all of them or not.  So if the statement is refused, none of the calls that are
refused by themselves begins before the one at which the walk of the check ended. -/
theorem refused_call_leftmost {s : Statement} (h : s.LaidOut) :
    (∀ (σ β : Type) (v : Visitor σ β) (state : σ),
        (walkedNodes v (.statement s) state).Pairwise fun m n => m.span.start ≤ n.span.start)
      ∧ ∀ catalog d, (checkCalls catalog s).value = .error d →
          ∃ shown c,
            walkedNodes (CallCheck.visitor catalog) (.statement s) #[] = shown ++ [.call c]
              ∧ (checkCall catalog c).value = .error d
              ∧ ∀ other ∈ s.calls, ∀ d', (checkCall catalog other).value = .error d' →
                  c.span.start ≤ other.span.start := by
  refine ⟨fun _ _ v state => h.pairwise_walkedNodes v state, ?_⟩
  intro catalog d hd
  obtain ⟨before, c, after, hsplit, hwalked, hc, hbefore⟩ := checkCalls_stops_at hd
  refine ⟨before, c, hwalked, hc, ?_⟩
  intro other hother d' hd'
  have hordered := h.pairwise_nodes
  have hmem : Node.call other ∈ s.nodes := Statement.call_mem_nodes hother
  rw [hsplit, List.pairwise_append, List.pairwise_cons] at hordered
  obtain ⟨-, ⟨hafter, -⟩, -⟩ := hordered
  rw [hsplit, List.mem_append, List.mem_cons] at hmem
  rcases hmem with hmem | hmem | hmem
  · rw [hbefore other hmem] at hd'
    cases hd'
  · cases hmem
    exact Nat.le_refl _
  · exact hafter (.call other) hmem

/-- `SELECT f(g()) FROM t JOIN u ON h()`, where each function takes one argument: `g` and `h` are
refused by themselves, and the statement is refused for `g`. -/
theorem refused_call_leftmost_join :
    let catalog : Catalog := fun _ => pure (.ok [.ofCount "f" 1 "text"])
    let g : Call := ⟨["g"], [], false, false, [], none, none, ⟨9, 12⟩⟩
    let f : Call := ⟨["f"], [.call g], false, false, [], none, none, ⟨7, 13⟩⟩
    let h : Call := ⟨["h"], [], false, false, [], none, none, ⟨31, 34⟩⟩
    let join : FromItem := .join .inner (.table ⟨none, "t", none, ⟨19, 20⟩⟩)
      (.table ⟨none, "u", none, ⟨26, 27⟩⟩) (some (.call h)) [] ⟨19, 34⟩
    let s : Statement := .select
      ⟨[], .query false [⟨.call f, none, ⟨7, 13⟩⟩] [join] none [] none, [], none, none, ⟨0, 34⟩⟩
    let v : Visitor Nat Empty := fun _ seen => (.into, seen + 1)
    s.LaidOut
      ∧ (walkedNodes v (.statement s) 0).Pairwise (fun m n => m.span.start ≤ n.span.start)
      ∧ (checkCalls catalog s).value = .error (g.noOverload "g")
      ∧ h ∈ s.calls ∧ (checkCall catalog h).value = .error (h.noOverload "h")
      ∧ ∃ shown c, walkedNodes (CallCheck.visitor catalog) (.statement s) #[] = shown ++ [.call c]
          ∧ (checkCall catalog c).value = .error (g.noOverload "g")
          ∧ c.span.start ≤ h.span.start := by
  intro catalog g f h join s v
  have hlaid : s.LaidOut := by
    unfold Statement.LaidOut
    decide +kernel
  have hrefused : (checkCalls catalog s).value = .error (g.noOverload "g") := by
    rw [checkCalls_eq_inTurn]
    decide +kernel
  have hmem : h ∈ s.calls := by
    decide +kernel
  have hh : (checkCall catalog h).value = .error (h.noOverload "h") := by
    decide +kernel
  obtain ⟨hwalk, hleftmost⟩ := refused_call_leftmost hlaid
  obtain ⟨shown, c, hshown, hc, hleast⟩ := hleftmost catalog _ hrefused
  exact ⟨hlaid, hwalk Nat Empty v 0, hrefused, hmem, hh, shown, c, hshown, hc, hleast h hmem _ hh⟩

end SqlVet
