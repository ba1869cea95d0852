import SqlVet.Proofs.Walk.Preorder
import SqlVet.Tree.Walk
import SqlVet.Tree.Equality

/-!
# Uses of calls and parameters

The calls and parameters in a statement, gathered by recursion over every part of a tree that can
hold an expression, without a look at nodes.  A call comes before the calls and parameters inside
it, everything else in the order in which it is written.

A walk that leaves nothing out observes exactly these, each as often as it occurs:

* `Statement.filterMap_use?_nodes` says so for the list of all nodes of a statement;
* `walk_observes_uses` says so for the nodes that a visitor is shown, and adds that no visitor ever
  meets a call or a parameter in the guise of an expression, where it would be lost with all that
  is inside it.
-/

namespace SqlVet

/-- A call with all its parts, or the number of a parameter. -/
inductive Use where
  | call (call : Call)
  | parameter (number : Nat)
deriving DecidableEq

namespace Use

def call? : Use → Option Call
  | .call c => some c
  | .parameter _ => none

def number? : Use → Option Nat
  | .call _ => none
  | .parameter number => some number

end Use

/-! ## Gathering

For each kind of piece, what is gathered from it is written out over its fields.
-/

mutual

def Expr.uses : Expr → List Use
  | .literal .. | .column _ | .star .. | .default _ => []
  | .parameter p => [.parameter p.number]
  | .call c => c.uses
  | .unary _ x _ | .cast x _ _ | .isNull x _ _ => x.uses
  | .binary _ x y _ => x.uses ++ y.uses
  | .caseOf x as y _ => Expr.usesOption x ++ WhenArm.usesAll as ++ Expr.usesOption y
  | .inList x xs _ _ => x.uses ++ Expr.usesAll xs
  | .inQuery x q _ _ => x.uses ++ q.uses
  | .subquery q _ | .existence q _ => q.uses
  | .array xs _ | .row xs _ => Expr.usesAll xs

def Expr.usesAll : List Expr → List Use
  | [] => []
  | x :: xs => x.uses ++ Expr.usesAll xs

def Expr.usesRows : List (List Expr) → List Use
  | [] => []
  | xs :: rows => Expr.usesAll xs ++ Expr.usesRows rows

def Expr.usesOption : Option Expr → List Use
  | none => []
  | some x => x.uses

def WhenArm.uses : WhenArm → List Use
  | ⟨condition, result, _⟩ => condition.uses ++ result.uses

def WhenArm.usesAll : List WhenArm → List Use
  | [] => []
  | a :: as => a.uses ++ WhenArm.usesAll as

def Call.uses : Call → List Use
  | ⟨name, args, star, distinct, order, filter, window, span⟩ =>
      .call ⟨name, args, star, distinct, order, filter, window, span⟩ ::
        (Expr.usesAll args ++ SortKey.usesAll order ++ Expr.usesOption filter
          ++ Window.usesOption window)

def Window.uses : Window → List Use
  | ⟨partition, order, _⟩ => Expr.usesAll partition ++ SortKey.usesAll order

def Window.usesOption : Option Window → List Use
  | none => []
  | some w => w.uses

def SortKey.uses : SortKey → List Use
  | ⟨x, _, _, _⟩ => x.uses

def SortKey.usesAll : List SortKey → List Use
  | [] => []
  | k :: ks => k.uses ++ SortKey.usesAll ks

def Select.uses : Select → List Use
  | ⟨ctes, body, order, limit, offset, _⟩ =>
      Cte.usesAll ctes ++ body.uses ++ SortKey.usesAll order ++ Expr.usesOption limit
        ++ Expr.usesOption offset

def Body.uses : Body → List Use
  | .values rows => Expr.usesRows rows
  | .query _ targets sources condition groups having =>
      Target.usesAll targets ++ FromItem.usesAll sources ++ Expr.usesOption condition
        ++ Expr.usesAll groups ++ Expr.usesOption having
  | .combine _ _ left right => left.uses ++ right.uses

def Cte.uses : Cte → List Use
  | ⟨_, _, query, _⟩ => query.uses

def Cte.usesAll : List Cte → List Use
  | [] => []
  | c :: cs => c.uses ++ Cte.usesAll cs

def Target.uses : Target → List Use
  | ⟨x, _, _⟩ => x.uses

def Target.usesAll : List Target → List Use
  | [] => []
  | t :: ts => t.uses ++ Target.usesAll ts

def FromItem.uses : FromItem → List Use
  | .table _ => []
  | .subquery q _ _ _ => q.uses
  | .call c _ _ => c.uses
  | .join _ left right condition _ _ => left.uses ++ right.uses ++ Expr.usesOption condition

def FromItem.usesAll : List FromItem → List Use
  | [] => []
  | f :: fs => f.uses ++ FromItem.usesAll fs

end

def Assignment.usesAll : List Assignment → List Use
  | [] => []
  | a :: as => a.value.uses ++ Assignment.usesAll as

def ConflictAction.uses : ConflictAction → List Use
  | .nothing => []
  | .update assignments condition => Assignment.usesAll assignments ++ Expr.usesOption condition

def Conflict.usesOption : Option Conflict → List Use
  | none => []
  | some c => c.action.uses

def RowSource.uses : RowSource → List Use
  | .select q => q.uses
  | .defaultValues => []

def Insert.uses (i : Insert) : List Use :=
  Cte.usesAll i.ctes ++ i.source.uses ++ Conflict.usesOption i.conflict
    ++ Target.usesAll i.returning

def Update.uses (u : Update) : List Use :=
  Cte.usesAll u.ctes ++ Assignment.usesAll u.assignments ++ FromItem.usesAll u.sources
    ++ Expr.usesOption u.condition ++ Target.usesAll u.returning

def Delete.uses (d : Delete) : List Use :=
  Cte.usesAll d.ctes ++ FromItem.usesAll d.sources ++ Expr.usesOption d.condition
    ++ Target.usesAll d.returning

def Statement.uses : Statement → List Use
  | .select q => q.uses
  | .insert i => i.uses
  | .update u => u.uses
  | .delete d => d.uses

/-- How often a call or a parameter number occurs in a statement. -/
def Statement.occurrences (s : Statement) (u : Use) : Nat := s.uses.count u

/-! ## Uses and nodes

The same gathered from children.  As in the tour of a tree, one lemma for each kind of piece says
that its fields and its children hold the same, in the same order.
-/

namespace Node

/-- The use that a node stands for. -/
def use? : Node → Option Use
  | .call c => some (.call c)
  | .parameter p => some (.parameter p.number)
  | _ => none

/-- The uses in what a node shows. -/
def uses : Node → List Use
  | .statement s => s.uses
  | .select q => q.uses
  | .insert i => i.uses
  | .update u => u.uses
  | .delete d => d.uses
  | .cte c => c.uses
  | .source f => f.uses
  | .target t => t.uses
  | .sortKey k => k.uses
  | .expr e => e.uses
  | .call c => c.uses
  | .parameter p => [.parameter p.number]

@[simp] theorem uses_node (e : Expr) : e.node.uses = e.uses := by
  cases e <;> rfl

@[simp] theorem uses_select (q : Select) : (Node.select q).uses = q.uses := rfl
@[simp] theorem uses_source (f : FromItem) : (Node.source f).uses = f.uses := rfl
@[simp] theorem uses_call (c : Call) : (Node.call c).uses = c.uses := rfl

/-- Gathering by recursion over a list, if each member is gathered from as a node. -/
theorem eq_flatMap_uses {α : Type} {f : List α → List Use} {g : α → Node} (hnil : f [] = [])
    (hcons : ∀ x xs, f (x :: xs) = (g x).uses ++ f xs) : ∀ xs, f xs = (xs.map g).flatMap uses
  | [] => hnil
  | x :: xs => by
    rw [hcons, eq_flatMap_uses hnil hcons xs, List.map_cons, List.flatMap_cons]

end Node

/-- Expressions in a row hold what their nodes hold, and the same goes for the other lists below. -/
theorem Expr.usesAll_eq (es : List Expr) : Expr.usesAll es = (exprNodes es).flatMap Node.uses :=
  Node.eq_flatMap_uses rfl (fun e _ => by rw [Node.uses_node]; rfl) es

theorem Expr.usesOption_eq (e : Option Expr) :
    Expr.usesOption e = (exprNodes e.toList).flatMap Node.uses := by
  cases e <;> simp [Expr.usesOption, exprNodes]

theorem Expr.usesRows_eq (rows : List (List Expr)) :
    Expr.usesRows rows = (exprNodes rows.flatten).flatMap Node.uses := by
  induction rows with
  | nil => rfl
  | cons row rows ih =>
    rw [Expr.usesRows, ih, Expr.usesAll_eq, ← List.flatMap_append, List.flatten_cons]
    simp only [exprNodes, List.map_append]

theorem WhenArm.usesAll_eq (arms : List WhenArm) :
    WhenArm.usesAll arms
      = (arms.flatMap fun a => [a.condition.node, a.result.node]).flatMap Node.uses := by
  induction arms with
  | nil => rfl
  | cons a arms ih =>
    obtain ⟨condition, result, span⟩ := a
    rw [WhenArm.usesAll, ih, List.flatMap_cons, List.flatMap_append]
    simp [WhenArm.uses]

theorem SortKey.usesAll_eq (ks : List SortKey) :
    SortKey.usesAll ks = (ks.map .sortKey).flatMap Node.uses :=
  Node.eq_flatMap_uses rfl (fun _ _ => rfl) ks

theorem Cte.usesAll_eq (cs : List Cte) : Cte.usesAll cs = (cs.map .cte).flatMap Node.uses :=
  Node.eq_flatMap_uses rfl (fun _ _ => rfl) cs

theorem Target.usesAll_eq (ts : List Target) :
    Target.usesAll ts = (ts.map .target).flatMap Node.uses :=
  Node.eq_flatMap_uses rfl (fun _ _ => rfl) ts

theorem FromItem.usesAll_eq (fs : List FromItem) :
    FromItem.usesAll fs = (fs.map .source).flatMap Node.uses :=
  Node.eq_flatMap_uses rfl (fun _ _ => rfl) fs

theorem Assignment.usesAll_eq (as : List Assignment) :
    Assignment.usesAll as = (assignedNodes as).flatMap Node.uses :=
  Node.eq_flatMap_uses rfl (fun a _ => by rw [Node.uses_node]; rfl) as

theorem Window.usesOption_eq (w : Option Window) :
    Window.usesOption w = (w.toList.flatMap Window.children).flatMap Node.uses := by
  cases w with
  | none => rfl
  | some w =>
    obtain ⟨partition, order, span⟩ := w
    simp [Window.usesOption, Window.uses, Window.children, Expr.usesAll_eq, SortKey.usesAll_eq]

theorem Conflict.usesOption_eq (c : Option Conflict) :
    Conflict.usesOption c = (c.toList.flatMap fun c => c.action.children).flatMap Node.uses := by
  cases c with
  | none => rfl
  | some c =>
    cases h : c.action <;>
      simp [Conflict.usesOption, ConflictAction.uses, ConflictAction.children, h,
        Assignment.usesAll_eq, Expr.usesOption_eq]

theorem RowSource.uses_eq (i : Insert) :
    i.source.uses = (i.query?.toList.map .select).flatMap Node.uses := by
  cases h : i.source <;> simp [Insert.query?, RowSource.uses, h]

theorem Body.uses_eq (b : Body) : b.uses = b.children.flatMap Node.uses := by
  cases b with
  | values rows => exact Expr.usesRows_eq rows
  | query distinct targets sources condition groups having =>
    simp only [Body.uses, Body.children, Target.usesAll_eq, FromItem.usesAll_eq,
      Expr.usesOption_eq, Expr.usesAll_eq, List.flatMap_append]
  | combine op all left right => simp [Body.uses, Body.children]

theorem Select.uses_eq (q : Select) : q.uses = q.children.flatMap Node.uses := by
  obtain ⟨ctes, body, order, limit, offset, span⟩ := q
  simp only [Select.uses, Select.children, Cte.usesAll_eq, Body.uses_eq, SortKey.usesAll_eq,
    Expr.usesOption_eq, List.flatMap_append]

/-- A call is a use itself, before those inside it. -/
theorem Call.uses_eq (c : Call) : c.uses = .call c :: c.children.flatMap Node.uses := by
  obtain ⟨name, args, star, distinct, order, filter, window, span⟩ := c
  simp only [Call.uses, Call.children, Expr.usesAll_eq, SortKey.usesAll_eq, Expr.usesOption_eq,
    Window.usesOption_eq, List.flatMap_append]

theorem Insert.uses_eq (i : Insert) : i.uses = i.children.flatMap Node.uses := by
  simp only [Insert.uses, Insert.children, Cte.usesAll_eq, RowSource.uses_eq,
    Conflict.usesOption_eq, Target.usesAll_eq, List.flatMap_append]

theorem Update.uses_eq (u : Update) : u.uses = u.children.flatMap Node.uses := by
  simp only [Update.uses, Update.children, Cte.usesAll_eq, Assignment.usesAll_eq,
    FromItem.usesAll_eq, Expr.usesOption_eq, Target.usesAll_eq, List.flatMap_append]

theorem Delete.uses_eq (d : Delete) : d.uses = d.children.flatMap Node.uses := by
  simp only [Delete.uses, Delete.children, Cte.usesAll_eq, FromItem.usesAll_eq,
    Expr.usesOption_eq, Target.usesAll_eq, List.flatMap_append]

theorem FromItem.uses_eq (f : FromItem) : f.uses = f.children.flatMap Node.uses := by
  cases f <;> simp [FromItem.uses, FromItem.children, Expr.usesOption_eq]

/-- Calls and parameters apart, which are uses themselves. -/
theorem Expr.uses_eq (e : Expr) (h : e.node = .expr e) :
    e.uses = e.children.flatMap Node.uses := by
  cases e with
  | call c => cases h
  | parameter p => cases h
  | caseOf operand arms otherwise span =>
    simp only [Expr.uses, Expr.children, Expr.usesOption_eq, WhenArm.usesAll_eq,
      List.flatMap_append]
  | _ => simp [Expr.uses, Expr.children, Expr.usesAll_eq]

namespace Node

/-- The uses in a plain node are the node itself, if it is one, and those in its children. -/
theorem uses_eq (n : Node) (h : n.Plain) :
    n.uses = n.use?.toList ++ n.children.flatMap uses := by
  cases n with
  | statement s => cases s <;> simp [uses, use?, children, ofStatement, Statement.uses]
  | select q => exact q.uses_eq
  | insert i => exact i.uses_eq
  | update u => exact u.uses_eq
  | delete d => exact d.uses_eq
  | cte c => cases c; simp [uses, use?, children, Cte.uses]
  | source f => exact f.uses_eq
  | target t =>
    obtain ⟨e, label, span⟩ := t
    show e.uses = [e.node].flatMap uses
    simp
  | sortKey k =>
    obtain ⟨e, direction, nulls, span⟩ := k
    show e.uses = [e.node].flatMap uses
    simp
  | expr e => exact e.uses_eq (h e rfl)
  | call c => exact c.uses_eq
  | parameter p => rfl

/-- The uses in a plain node are picked out of everything below it. -/
theorem filterMap_use?_preorder (n : Node) (h : n.Plain) :
    n.preorder.filterMap use? = n.uses := by
  induction n using Node.ind with
  | step n ih =>
    have hchildren : ∀ c ∈ n.children, c.preorder.filterMap use? = c.uses :=
      fun c hc => ih c hc (n.allPlain_children c hc)
    rw [preorder_eq, uses_eq n h, List.filterMap_cons, List.filterMap_flatMap, List.flatMap_def,
      List.map_congr_left hchildren, ← List.flatMap_def]
    cases n.use? <;> rfl

theorem eq_call_of_call? {n : Node} {c : Call} (h : n.call? = some c) : n = .call c := by
  cases n <;> cases h
  rfl

/-- Nodes that are calls are those whose use is a call. -/
theorem call?_eq (n : Node) : n.call? = n.use?.bind Use.call? := by
  cases n <;> rfl

theorem number?_eq (n : Node) : n.parameter?.map Parameter.number = n.use?.bind Use.number? := by
  cases n <;> rfl

end Node

/-- The uses in a statement are picked out of its nodes. -/
theorem Statement.filterMap_use?_nodes (s : Statement) : s.nodes.filterMap Node.use? = s.uses :=
  (Node.statement s).filterMap_use?_preorder (Node.plain_statement s)

/-! ## Observation

What a visitor observes is counted against how often it occurs in the statement.
-/

namespace Statement

/-- The calls in a statement, each before those inside it. -/
def calls (s : Statement) : List Call := s.uses.filterMap Use.call?

/-- The parameter numbers in a statement, as often as they are written. -/
def numbers (s : Statement) : List Nat := s.uses.filterMap Use.number?

/-- The calls in a statement are picked out of its nodes, in order. -/
theorem filterMap_call?_nodes (s : Statement) : s.nodes.filterMap Node.call? = s.calls := by
  rw [calls, ← filterMap_use?_nodes, List.filterMap_filterMap]
  exact congrArg (List.filterMap · s.nodes) (funext Node.call?_eq)

theorem call_mem_nodes {s : Statement} {c : Call} (h : c ∈ s.calls) : Node.call c ∈ s.nodes := by
  rw [← s.filterMap_call?_nodes] at h
  obtain ⟨n, hn, hc⟩ := List.mem_filterMap.mp h
  rw [← Node.eq_call_of_call? hc]
  exact hn

/-- So are the numbers of its parameters. -/
theorem filterMap_number?_nodes (s : Statement) :
    s.nodes.filterMap (fun n => n.parameter?.map Parameter.number) = s.numbers := by
  rw [numbers, ← filterMap_use?_nodes, List.filterMap_filterMap]
  exact congrArg (List.filterMap · s.nodes) (funext Node.number?_eq)

/-- A call is in the list as often as it occurs. -/
theorem count_calls (s : Statement) (c : Call) : s.calls.count c = s.occurrences (.call c) := by
  rw [calls, List.count_filterMap, occurrences, List.count]
  refine List.countP_congr fun u _ => ?_
  cases u <;> simp [Use.call?]

/-- A parameter number is in the list as often as it occurs. -/
theorem count_numbers (s : Statement) (k : Nat) :
    s.numbers.count k = s.occurrences (.parameter k) := by
  rw [numbers, List.count_filterMap, occurrences, List.count]
  refine List.countP_congr fun u _ => ?_
  cases u <;> simp [Use.number?]

end Statement

/-- A visitor that goes into every node is shown each call and each parameter as often as it occurs
in the statement.  No visitor is shown one in the guise of an expression. -/
theorem walk_observes_uses (s : Statement) {σ β : Type} (v : Visitor σ β) (state : σ) :
    let visited := walkedNodes v (.statement s) state
    ((∀ n state, (v n state).1 = .into) →
        (∀ c, (visited.filterMap Node.call?).count c = s.occurrences (.call c))
          ∧ ∀ k, (visited.filterMap fun n => n.parameter?.map Parameter.number).count k
              = s.occurrences (.parameter k))
      ∧ (∀ c, .expr (.call c) ∉ visited) ∧ ∀ p, .expr (.parameter p) ∉ visited := by
  intro visited
  have hplain : Node.AllPlain visited :=
    plain_of_mem_walkedNodes v (Node.plain_statement s) state
  refine ⟨?_, ?_, ?_⟩
  · intro hv
    have hvisited : visited = s.nodes := walkedNodes_of_into hv (.statement s) state
    rw [hvisited, s.filterMap_call?_nodes, s.filterMap_number?_nodes]
    exact ⟨s.count_calls, s.count_numbers⟩
  · intro c hc
    have h := hplain _ hc (.call c) rfl
    cases h
  · intro p hp
    have h := hplain _ hp (.parameter p) rfl
    cases h

/-- `SELECT f(g($1), $1)`, shown to a visitor that counts what it is shown. -/
theorem walk_observes_uses_nested :
    let g : Call := ⟨["g"], [.parameter ⟨1, ⟨11, 13⟩⟩], false, false, [], none, none, ⟨9, 14⟩⟩
    let f : Call :=
      ⟨["f"], [.call g, .parameter ⟨1, ⟨16, 18⟩⟩], false, false, [], none, none, ⟨7, 19⟩⟩
    let s : Statement := .select
      ⟨[], .query false [⟨.call f, none, ⟨7, 19⟩⟩] [] none [] none, [], none, none, ⟨0, 19⟩⟩
    let v : Visitor Nat Empty := fun _ seen => (.into, seen + 1)
    let visited := walkedNodes v (.statement s) 0
    (∀ n state, (v n state).1 = .into)
      ∧ (visited.filterMap Node.call?).count g = 1
      ∧ (visited.filterMap fun n => n.parameter?.map Parameter.number).count 1 = 2
      ∧ .expr (.call g) ∉ visited := by
  intro g f s v visited
  have hv : ∀ n state, (v n state).1 = .into := fun _ _ => rfl
  obtain ⟨hinto, hcall, -⟩ := walk_observes_uses s v 0
  obtain ⟨hcalls, hnumbers⟩ := hinto hv
  refine ⟨hv, ?_, ?_, hcall g⟩
  · rw [hcalls g]
    decide +kernel
  · rw [hnumbers 1]
    decide +kernel

end SqlVet
