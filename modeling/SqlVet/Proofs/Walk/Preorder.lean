import SqlVet.Proofs.Walk.Loop

/-!
# Walks and preorder

What a walk has to do with the list of all nodes below its root:

* `walkedNodes_sublist`: any walk meets a part of the list, in order;
* `walk_eq_through`, `walkedNodes_eq_through`: a visitor that leaves nothing out is shown the
  members of the list one after another, up to the first at which it stops
  (`Tour.through_of_some`);
* `walk_of_into`, `walkedNodes_of_into`: one that goes into every node is shown them all;
* `plain_of_mem_walkedNodes`: no walk from a statement on meets a call or a parameter in the guise
  of an expression.

What is handed down from each node to its children holds of the whole list
(`Node.forall_mem_preorder`), and the list of a node contains those of all its members in one piece
(`Node.preorder_infix`).
-/

namespace SqlVet

open Tour (nothing enter)

variable {σ β : Type} {v : Visitor σ β}

/-! ## The list of nodes

Everything here is by induction over the tree, with a claim for a node from the claims for its
children.
-/

namespace Node

/-- What is handed down from each node to its children holds of everything below a node. -/
theorem forall_mem_preorder {P : Node → Prop} (hdown : ∀ n, P n → ∀ c ∈ n.children, P c)
    (n : Node) (h : P n) : ∀ m ∈ n.preorder, P m := by
  induction n using Node.ind with
  | step n ih =>
    intro m hm
    rw [preorder_eq] at hm
    rcases List.mem_cons.mp hm with rfl | hm
    · exact h
    · obtain ⟨c, hc, hm⟩ := List.mem_flatMap.mp hm
      exact ih c hc (hdown n h c hc) m hm

/-- A member of the list is directly followed by everything below it. -/
theorem preorder_infix {m n : Node} (h : m ∈ n.preorder) :
    m.preorder <:+: n.preorder := by
  induction n using Node.ind with
  | step n ih =>
    rw [preorder_eq] at h
    rcases List.mem_cons.mp h with rfl | h
    · exact List.infix_rfl
    · obtain ⟨c, hc, hm⟩ := List.mem_flatMap.mp h
      obtain ⟨before, after, hsplit⟩ := List.append_of_mem hc
      -- between the lists of the children before it and those of the children after it
      have hchild : c.preorder <:+: n.preorder := by
        refine ⟨n :: before.flatMap preorder, after.flatMap preorder, ?_⟩
        rw [preorder_eq n, hsplit]
        simp
      exact (ih c hc hm).trans hchild

theorem mem_preorder_self (n : Node) : n ∈ n.preorder := by
  rw [preorder_eq]
  exact List.mem_cons_self

/-- What is below something that is below a node is below the node. -/
theorem mem_preorder_trans {l m n : Node} (hm : m ∈ n.preorder) (hl : l ∈ m.preorder) :
    l ∈ n.preorder := by
  have hpiece : m.preorder <:+: n.preorder := preorder_infix hm
  exact hpiece.subset hl

theorem mem_preorder_of_child {m n c : Node} (hm : m ∈ n.preorder) (hc : c ∈ m.children) :
    c ∈ n.preorder := by
  apply mem_preorder_trans hm
  rw [preorder_eq]
  exact List.mem_cons_of_mem m (List.mem_flatMap_of_mem hc c.mem_preorder_self)

end Node

/-! ## Any visitor

A visitor can leave nodes out and can end the walk.  It cannot reorder nodes, nor be shown one
twice.
-/

namespace Tour

/-- Two stretches in a row visit nodes of the first and then nodes of the second, or none of
these. -/
theorem nodes_append_sublist (first second : Tour σ β) (state : σ) :
    ∃ state', ((first ++ second) state).nodes.Sublist
      ((first state).nodes ++ (second state').nodes) := by
  match h : first state with
  | ⟨nodes, some outcome, state'⟩ =>
    rw [append_of_some h]
    exact ⟨state', List.sublist_append_left _ _⟩
  | ⟨nodes, none, state'⟩ =>
    rw [append_of_none h]
    exact ⟨state', List.Sublist.refl _⟩

/-- A node that is visited comes before what is visited below it. -/
theorem nodes_enter_sublist (v : Visitor σ β) (n : Node) (below : Tour σ β) (state : σ) :
    ∃ state', (enter v n below state).nodes.Sublist (n :: (below state').nodes) := by
  match hv : v n state with
  | (.stop outcome, state') =>
    rw [enter_of_stop below hv]
    exact ⟨state', (List.nil_sublist _).cons_cons n⟩
  | (.skip, state') =>
    rw [enter_of_skip below hv]
    exact ⟨state', (List.nil_sublist _).cons_cons n⟩
  | (.into, state') =>
    rw [enter_of_into below hv]
    exact ⟨state', List.Sublist.refl _⟩

end Tour

theorem Node.nodes_tourAll_sublist {ns : List Node}
    (h : ∀ n ∈ ns, ∀ state, (n.tour v state).nodes.Sublist n.preorder) (state : σ) :
    (Node.tourAll v ns state).nodes.Sublist (ns.flatMap Node.preorder) := by
  induction ns generalizing state with
  | nil => exact List.Sublist.refl _
  | cons n ns ih =>
    obtain ⟨state', hsub⟩ := Tour.nodes_append_sublist (n.tour v) (Node.tourAll v ns) state
    have hn := h n List.mem_cons_self state
    have hns := ih (fun m hm => h m (List.mem_cons_of_mem n hm)) state'
    exact hsub.trans (hn.append hns)

/-- A tour visits some of the nodes below its root, in their order. -/
theorem Node.nodes_tour_sublist (v : Visitor σ β) (n : Node) :
    ∀ state, (n.tour v state).nodes.Sublist n.preorder := by
  induction n using Node.ind with
  | step n ih =>
    intro state
    rw [Node.tour_eq, Node.preorder_eq]
    obtain ⟨state', hsub⟩ := Tour.nodes_enter_sublist v n (Node.tourAll v n.children) state
    exact hsub.trans ((Node.nodes_tourAll_sublist ih state').cons_cons n)

/-- A walk meets no other nodes than those of the tree, and none twice or out of order. -/
theorem walkedNodes_sublist (v : Visitor σ β) (root : Node) (state : σ) :
    (walkedNodes v root state).Sublist root.preorder := by
  rw [walkedNodes_eq_course]
  exact root.nodes_tour_sublist v state

/-! ## Visitors that leave nothing out

If no answer is to skip, what is below a node is always next.  So the tree does not matter any more,
but only the list of its nodes.
-/

namespace Tour

/-- Shows nodes to a visitor one after another, and not what is below them. -/
def through (v : Visitor σ β) (ns : List Node) : Tour σ β :=
  all (ns.map fun n => enter v n nothing)

@[simp] theorem through_nil (v : Visitor σ β) : through v [] = nothing := rfl

@[simp] theorem through_cons (v : Visitor σ β) (n : Node) (ns : List Node) :
    through v (n :: ns) = enter v n nothing ++ through v ns := rfl

theorem through_append (v : Visitor σ β) (ms ns : List Node) :
    through v (ms ++ ns) = through v ms ++ through v ns := by
  rw [through, List.map_append, all_append]
  rfl

/-- To enter a node is to show it, and then to go on with what is below it. -/
theorem enter_eq_append {n : Node} (h : ∀ state, (v n state).1 ≠ .skip) (below : Tour σ β) :
    enter v n below = enter v n nothing ++ below := by
  funext state
  match hv : v n state with
  | (.stop outcome, state') =>
    rw [append_of_some (enter_of_stop nothing hv), enter_of_stop below hv]
  | (.skip, state') => exact absurd (congrArg Prod.fst hv) (h state)
  | (.into, state') => rw [enter_append_of_into nothing hv, enter_of_into below hv, nothing_append]

end Tour

theorem Node.tourAll_eq_through {ns : List Node}
    (h : ∀ n ∈ ns, n.tour v = Tour.through v n.preorder) :
    Node.tourAll v ns = Tour.through v (ns.flatMap Node.preorder) := by
  induction ns with
  | nil => rfl
  | cons n ns ih =>
    rw [Node.tourAll_cons, List.flatMap_cons, Tour.through_append, h n List.mem_cons_self,
      ih fun m hm => h m (List.mem_cons_of_mem n hm)]

/-- The tour of a tree shows its nodes one after another. -/
theorem Node.tour_eq_through (hv : ∀ n state, (v n state).1 ≠ .skip) (n : Node) :
    n.tour v = Tour.through v n.preorder := by
  induction n using Node.ind with
  | step n ih =>
    rw [Node.tour_eq, Node.preorder_eq, Tour.through_cons, Tour.enter_eq_append (hv n),
      Node.tourAll_eq_through ih]

/-- What comes of a walk is what comes of showing the nodes one after another. -/
theorem walk_eq_through (hv : ∀ n state, (v n state).1 ≠ .skip) (root : Node) (state : σ) :
    walk v root state = ((Tour.through v root.preorder state).outcome,
      (Tour.through v root.preorder state).state) := by
  rw [walk_eq_course, Node.tour_eq_through hv]

/-- The walk shows them up to the one at which the visitor stops. -/
theorem walkedNodes_eq_through (hv : ∀ n state, (v n state).1 ≠ .skip) (root : Node) (state : σ) :
    walkedNodes v root state = (Tour.through v root.preorder state).nodes := by
  rw [walkedNodes_eq_course, Node.tour_eq_through hv]

theorem Tour.enter_nothing_cases (v : Visitor σ β) (n : Node) (state : σ) :
    (∃ outcome state', v n state = (.stop outcome, state')
        ∧ enter v n nothing state = ⟨[n], some outcome, state'⟩)
      ∨ ∃ state', enter v n nothing state = ⟨[n], none, state'⟩ := by
  match hv : v n state with
  | (.stop outcome, state') => exact .inl ⟨outcome, state', rfl, enter_of_stop nothing hv⟩
  | (.skip, state') => exact .inr ⟨state', enter_of_skip nothing hv⟩
  | (.into, state') => exact .inr ⟨state', enter_of_into nothing hv⟩

/-- What is shown ends with the node at which the visitor stops. -/
theorem Tour.through_of_some {ns : List Node} {state : σ} {outcome : β}
    (h : (through v ns state).outcome = some outcome) :
    ∃ before n after state' last, ns = before ++ n :: after
      ∧ through v before state = ⟨before, none, state'⟩ ∧ v n state' = (.stop outcome, last)
      ∧ (through v ns state).nodes = before ++ [n] := by
  induction ns generalizing state with
  | nil => cases h
  | cons n ns ih =>
    rw [through_cons] at h ⊢
    rcases enter_nothing_cases v n state with ⟨outcome', last, hv, hn⟩ | ⟨state', hn⟩
    · rw [append_of_some hn] at h ⊢
      cases h
      exact ⟨[], n, ns, state, last, rfl, rfl, hv, rfl⟩
    · rw [append_of_none hn] at h ⊢
      obtain ⟨before, m, after, mid, last, hsplit, hbefore, hm, hnodes⟩ := ih h
      refine ⟨n :: before, m, after, mid, last, ?_, ?_, hm, ?_⟩
      · rw [hsplit, List.cons_append]
      · rw [through_cons, append_of_none hn, hbefore, List.singleton_append]
      · rw [hnodes, List.singleton_append, List.cons_append]

/-! ## Visitors that go into every node

If the visitor never stops either, it is shown all nodes, and its state is folded over them.
-/

/-- Shown nodes one after another, such a visitor sees each of them. -/
theorem Tour.through_of_into (hv : ∀ n state, (v n state).1 = .into) (ns : List Node) (state : σ) :
    Tour.through v ns state = ⟨ns, none, ns.foldl (fun state n => (v n state).2) state⟩ := by
  induction ns generalizing state with
  | nil => rfl
  | cons n ns ih =>
    have hinto : v n state = (.into, (v n state).2) := Prod.ext (hv n state) rfl
    rw [Tour.through_cons, Tour.append_of_none (Tour.enter_of_into nothing hinto), ih]
    rfl

theorem ne_skip_of_into (hv : ∀ n state, (v n state).1 = .into) (n : Node) (state : σ) :
    (v n state).1 ≠ .skip := by
  rw [hv]
  intro h
  cases h

/-- A walk ends without an outcome, and its state is the fold over all nodes. -/
theorem walk_of_into (hv : ∀ n state, (v n state).1 = .into) (root : Node) (state : σ) :
    walk v root state = (none, root.preorder.foldl (fun state n => (v n state).2) state) := by
  rw [walk_eq_through (ne_skip_of_into hv), Tour.through_of_into hv]

/-- A walk shows all nodes. -/
theorem walkedNodes_of_into (hv : ∀ n state, (v n state).1 = .into) (root : Node) (state : σ) :
    walkedNodes v root state = root.preorder := by
  rw [walkedNodes_eq_through (ne_skip_of_into hv), Tour.through_of_into hv]

/-! ## Plain nodes

Calls and parameters are kinds of node of their own, but nothing keeps the node of a raw expression
from holding one; its children would then be lost.  No walk meets such a node below its root, and
none from a statement on meets one at all.
-/

namespace Node

/-- A node that is no call and no parameter in the guise of an expression. -/
def Plain (n : Node) : Prop := ∀ e, n = .expr e → e.node = .expr e

def AllPlain (ns : List Node) : Prop := ∀ n ∈ ns, n.Plain

@[simp] theorem allPlain_nil : AllPlain [] := by
  intro n hn
  cases hn

@[simp] theorem allPlain_cons {n : Node} {ns : List Node} :
    AllPlain (n :: ns) ↔ n.Plain ∧ AllPlain ns :=
  List.forall_mem_cons

@[simp] theorem allPlain_append {ms ns : List Node} :
    AllPlain (ms ++ ns) ↔ AllPlain ms ∧ AllPlain ns :=
  List.forall_mem_append

theorem allPlain_map {α : Type} {f : α → Node} (h : ∀ a, (f a).Plain) (xs : List α) :
    AllPlain (xs.map f) :=
  List.forall_mem_map.mpr fun a _ => h a

theorem allPlain_flatMap {α : Type} {f : α → List Node} {xs : List α}
    (h : ∀ a ∈ xs, AllPlain (f a)) : AllPlain (xs.flatMap f) := by
  intro n hn
  obtain ⟨a, ha, hn⟩ := List.mem_flatMap.mp hn
  exact h a ha n hn

@[simp] theorem plain_node (e : Expr) : e.node.Plain := by
  intro e' h
  cases e <;> cases h <;> rfl

@[simp] theorem allPlain_exprNodes (es : List Expr) : AllPlain (exprNodes es) :=
  allPlain_map plain_node es

@[simp] theorem allPlain_assignedNodes (as : List Assignment) : AllPlain (assignedNodes as) := by
  show AllPlain (as.map fun a => a.value.node)
  exact allPlain_map (fun a => plain_node a.value) as

@[simp] theorem plain_statement (s : Statement) : (Node.statement s).Plain := nofun
@[simp] theorem plain_select (q : Select) : (Node.select q).Plain := nofun
@[simp] theorem plain_call (c : Call) : (Node.call c).Plain := nofun
@[simp] theorem plain_source (f : FromItem) : (Node.source f).Plain := nofun

@[simp] theorem allPlain_ctes (cs : List Cte) : AllPlain (cs.map .cte) := allPlain_map nofun cs
@[simp] theorem allPlain_sortKeys (ks : List SortKey) : AllPlain (ks.map .sortKey) :=
  allPlain_map nofun ks
@[simp] theorem allPlain_targets (ts : List Target) : AllPlain (ts.map .target) :=
  allPlain_map nofun ts
@[simp] theorem allPlain_sources (fs : List FromItem) : AllPlain (fs.map .source) :=
  allPlain_map plain_source fs

end Node

open Node

theorem Body.allPlain_children (b : Body) : AllPlain b.children := by
  cases b <;> simp [Body.children]

theorem ConflictAction.allPlain_children (a : ConflictAction) : AllPlain a.children := by
  cases a <;> simp [ConflictAction.children]

theorem Window.allPlain_children (w : Window) : AllPlain w.children := by
  simp [Window.children]

theorem Expr.allPlain_children (e : Expr) : AllPlain e.children := by
  cases e with
  | caseOf operand arms otherwise span =>
    have harms : AllPlain (arms.flatMap fun a => [a.condition.node, a.result.node]) :=
      allPlain_flatMap fun a _ => by simp
    simp [Expr.children, harms]
  | _ => simp [Expr.children]

theorem FromItem.allPlain_children (f : FromItem) : AllPlain f.children := by
  cases f <;> simp [FromItem.children]

theorem Insert.allPlain_children (i : Insert) : AllPlain i.children := by
  have hquery : AllPlain (i.query?.toList.map .select) := allPlain_map plain_select _
  have hconflict : AllPlain (i.conflict.toList.flatMap fun c => c.action.children) :=
    allPlain_flatMap fun c _ => c.action.allPlain_children
  simp [Insert.children, hquery, hconflict]

theorem Call.allPlain_children (c : Call) : AllPlain c.children := by
  have hwindow : AllPlain (c.window.toList.flatMap Window.children) :=
    allPlain_flatMap fun w _ => w.allPlain_children
  simp [Call.children, hwindow]

namespace Node

/-- Whatever the node, its children are plain. -/
theorem allPlain_children (n : Node) : AllPlain n.children := by
  cases n with
  | statement s => cases s <;> simp [children, ofStatement, Plain]
  | select q => simp [children, Select.children, q.body.allPlain_children]
  | insert i => exact i.allPlain_children
  | update u => simp [children, Update.children]
  | delete d => simp [children, Delete.children]
  | cte c => simp [children]
  | source f => exact f.allPlain_children
  | target t => simp [children]
  | sortKey k => simp [children]
  | expr e => exact e.allPlain_children
  | call c => exact c.allPlain_children
  | parameter p => simp [children]

/-- Everything below a plain node is plain. -/
theorem allPlain_preorder (n : Node) (h : n.Plain) : AllPlain n.preorder :=
  forall_mem_preorder (fun m _ => m.allPlain_children) n h

end Node

/-- A walk from a plain node on meets plain nodes only, whatever the visitor. -/
theorem plain_of_mem_walkedNodes (v : Visitor σ β) {root : Node} (h : root.Plain)
    (state : σ) : AllPlain (walkedNodes v root state) :=
  fun m hm => root.allPlain_preorder h m ((walkedNodes_sublist v root state).mem hm)

end SqlVet
