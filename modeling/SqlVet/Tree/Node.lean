import SqlVet.Tree.Basic

/-!
# Nodes

A uniform view of a statement tree: what a walk meets, and in which order it meets the nodes below.
The children of a node come in the order in which the pieces are written in a statement.

* `Node.children`, the nodes directly below a node;
* `Node.totalSize_children_lt`, they are together smaller than the node itself, which is why
  every walk over a tree ends;
* `Node.ind`, induction from the children of a node to the node.
-/

namespace SqlVet

inductive Node where
  | statement (statement : Statement)
  | select (query : Select)
  | insert (insertion : Insert)
  | update (change : Update)
  | delete (deletion : Delete)
  | cte (cte : Cte)
  | source (source : FromItem)
  | target (target : Target)
  | sortKey (key : SortKey)
  | expr (expr : Expr)
  | call (call : Call)
  | parameter (parameter : Parameter)

/-- The node of an expression.  Calls and parameters are kinds of node of their own, so that whoever
looks for them need not look inside expressions. -/
def Expr.node : Expr → Node
  | .call c => .call c
  | .parameter p => .parameter p
  | e => .expr e

namespace Node

def span : Node → Span
  | .statement s => s.span
  | .select q => q.span
  | .insert i => i.span
  | .update u => u.span
  | .delete d => d.span
  | .cte c => c.span
  | .source f => f.span
  | .target t => t.span
  | .sortKey k => k.span
  | .expr e => e.span
  | .call c => c.span
  | .parameter p => p.span

/-! ## Children

Each kind of piece lists its children in the order in which a statement writes them.
-/

/-- The statement inside the envelope that every statement shares. -/
def ofStatement : Statement → Node
  | .select q => .select q
  | .insert i => .insert i
  | .update u => .update u
  | .delete d => .delete d

end Node

/-- The nodes of a list of expressions, in order. -/
def exprNodes (es : List Expr) : List Node := es.map Expr.node

/-- Only the assigned values are nodes; the assigned columns are names. -/
def assignedNodes (as : List Assignment) : List Node := as.map fun a => a.value.node

def ConflictAction.children : ConflictAction → List Node
  | .nothing => []
  | .update assignments condition => assignedNodes assignments ++ exprNodes condition.toList

def Body.children : Body → List Node
  | .values rows => exprNodes rows.flatten
  | .query _ targets sources condition groups having =>
      targets.map .target ++ sources.map .source ++ exprNodes condition.toList ++ exprNodes groups
        ++ exprNodes having.toList
  | .combine _ _ left right => [.select left, .select right]

def Select.children (q : Select) : List Node :=
  q.ctes.map .cte ++ q.body.children ++ q.order.map .sortKey ++ exprNodes q.limit.toList
    ++ exprNodes q.offset.toList

def Insert.children (i : Insert) : List Node :=
  i.ctes.map .cte ++ i.query?.toList.map .select
    ++ (i.conflict.toList.flatMap fun c => c.action.children) ++ i.returning.map .target

def Update.children (u : Update) : List Node :=
  u.ctes.map .cte ++ assignedNodes u.assignments ++ u.sources.map .source
    ++ exprNodes u.condition.toList ++ u.returning.map .target

def Delete.children (d : Delete) : List Node :=
  d.ctes.map .cte ++ d.sources.map .source ++ exprNodes d.condition.toList
    ++ d.returning.map .target

def FromItem.children : FromItem → List Node
  | .table _ => []
  | .subquery q _ _ _ => [.select q]
  | .call c _ _ => [.call c]
  | .join _ left right condition _ _ => .source left :: .source right :: exprNodes condition.toList

def Window.children (w : Window) : List Node :=
  exprNodes w.partition ++ w.order.map .sortKey

def Call.children (c : Call) : List Node :=
  exprNodes c.args ++ c.order.map .sortKey ++ exprNodes c.filter.toList
    ++ c.window.toList.flatMap Window.children

/-- A call or a parameter has none here: what is below it belongs to its own node. -/
def Expr.children : Expr → List Node
  | .literal .. | .column _ | .star .. | .default _ | .parameter _ | .call _ => []
  | .unary _ operand _ => [operand.node]
  | .binary _ left right _ => [left.node, right.node]
  | .cast operand _ _ => [operand.node]
  | .caseOf operand arms otherwise _ =>
      exprNodes operand.toList ++ (arms.flatMap fun a => [a.condition.node, a.result.node])
        ++ exprNodes otherwise.toList
  | .inList operand items _ _ => operand.node :: exprNodes items
  | .inQuery operand query _ _ => [operand.node, .select query]
  | .isNull operand _ _ => [operand.node]
  | .subquery query _ | .existence query _ => [.select query]
  | .array items _ | .row items _ => exprNodes items

namespace Node

/-- The nodes directly below a node, in the order in which a statement writes them. -/
def children : Node → List Node
  | .statement s => [ofStatement s]
  | .select q => q.children
  | .insert i => i.children
  | .update u => u.children
  | .delete d => d.children
  | .cte c => [.select c.query]
  | .source f => f.children
  | .target t => [t.expr.node]
  | .sortKey k => [k.expr.node]
  | .expr e => e.children
  | .call c => c.children
  | .parameter _ => []

/-! ## Children are smaller

A walk keeps a list of nodes to be seen.  It ends since taking a node off and putting its children
in makes the list smaller.  The bound is proved for each kind of piece from its fields.
-/

/-- The size of a list of nodes: the measure by which walks end. -/
noncomputable def totalSize (ns : List Node) : Nat :=
  -- the zero is named, since other imports bring other ways to it
  @List.sum Nat _ Zero.ofOfNat0 (ns.map sizeOf)

@[simp] theorem totalSize_nil : totalSize [] = 0 := rfl

@[simp] theorem totalSize_cons (n : Node) (ns : List Node) :
    totalSize (n :: ns) = sizeOf n + totalSize ns := rfl

@[simp] theorem totalSize_append (ms ns : List Node) :
    totalSize (ms ++ ns) = totalSize ms + totalSize ns := by
  simp [totalSize]

theorem sizeOf_exprNode_le (e : Expr) : sizeOf e.node ≤ 1 + sizeOf e := by
  cases e <;> simp [Expr.node]

theorem sizeOf_span_pos (s : Span) : 0 < sizeOf s := by
  cases s
  rw [Span.mk.sizeOf_spec]
  omega

/-- A list of nodes made from the members of a list is smaller than that list, if each node adds no
more than its own constructor. -/
theorem totalSize_map_lt {α : Type} [SizeOf α] {f : α → Node}
    (h : ∀ a, sizeOf (f a) ≤ 1 + sizeOf a) :
    ∀ xs : List α, totalSize (xs.map f) < sizeOf xs
  | [] => by simp
  | x :: xs => by
    have := h x
    have := totalSize_map_lt h xs
    simp only [List.map_cons, totalSize_cons, List.cons.sizeOf_spec]
    omega

/-- The same for what may be there or not. -/
theorem totalSize_map_toList_le {α : Type} [SizeOf α] {f : α → Node}
    (h : ∀ a, sizeOf (f a) ≤ 1 + sizeOf a) (x : Option α) :
    totalSize (x.toList.map f) ≤ sizeOf x := by
  cases x with
  | none => simp
  | some x =>
    have := h x
    simp only [Option.toList_some, List.map_cons, List.map_nil, totalSize_cons, totalSize_nil,
      Option.some.sizeOf_spec]
    omega

theorem totalSize_exprNodes_lt (es : List Expr) : totalSize (exprNodes es) < sizeOf es :=
  totalSize_map_lt sizeOf_exprNode_le es

theorem totalSize_exprNodes_toList_le (e : Option Expr) :
    totalSize (exprNodes e.toList) ≤ sizeOf e :=
  totalSize_map_toList_le sizeOf_exprNode_le e

theorem totalSize_exprNodes_flatten_lt :
    ∀ rows : List (List Expr), totalSize (exprNodes rows.flatten) < sizeOf rows
  | [] => by simp [exprNodes]
  | row :: rows => by
    have := totalSize_exprNodes_lt row
    have := totalSize_exprNodes_flatten_lt rows
    simp only [exprNodes, List.flatten_cons, List.map_append, totalSize_append,
      List.cons.sizeOf_spec] at *
    omega

theorem totalSize_assignedNodes_lt (as : List Assignment) :
    totalSize (assignedNodes as) < sizeOf as := by
  refine totalSize_map_lt (fun a => ?_) as
  have := sizeOf_exprNode_le a.value
  cases a
  simp at *
  omega

theorem totalSize_arms_lt :
    ∀ arms : List WhenArm,
      totalSize (arms.flatMap fun a => [a.condition.node, a.result.node]) < sizeOf arms
  | [] => by simp
  | ⟨c, r, _⟩ :: arms => by
    have := sizeOf_exprNode_le c
    have := sizeOf_exprNode_le r
    have := totalSize_arms_lt arms
    simp only [List.flatMap_cons, totalSize_append, totalSize_cons, totalSize_nil,
      List.cons.sizeOf_spec, WhenArm.mk.sizeOf_spec] at *
    omega

end Node

open Node

theorem Body.totalSize_children_lt (b : Body) : totalSize b.children < sizeOf b := by
  cases b with
  | values rows =>
    have := totalSize_exprNodes_flatten_lt rows
    simp [Body.children]; omega
  | query distinct targets sources condition groups having =>
    have := totalSize_map_lt (f := Node.target) (fun _ => by simp) targets
    have := totalSize_map_lt (f := Node.source) (fun _ => by simp) sources
    have := totalSize_exprNodes_toList_le condition
    have := totalSize_exprNodes_lt groups
    have := totalSize_exprNodes_toList_le having
    simp [Body.children]; omega
  | combine op all left right =>
    have : 0 < sizeOf op := by cases op <;> simp
    simp [Body.children]; omega

theorem Window.totalSize_children_lt (w : Window) : totalSize w.children < sizeOf w := by
  obtain ⟨partition, order, _⟩ := w
  have := totalSize_exprNodes_lt partition
  have := totalSize_map_lt (f := Node.sortKey) (fun _ => by simp) order
  simp [Window.children]; omega

theorem Call.totalSize_children_lt (c : Call) : totalSize c.children < sizeOf c := by
  obtain ⟨_, args, _, _, order, filter, window, _⟩ := c
  have := totalSize_exprNodes_lt args
  have := totalSize_map_lt (f := Node.sortKey) (fun _ => by simp) order
  have := totalSize_exprNodes_toList_le filter
  cases window with
  | none => simp [Call.children]; omega
  | some w =>
    have := w.totalSize_children_lt
    simp [Call.children]; omega

theorem Select.totalSize_children_lt (q : Select) : totalSize q.children < sizeOf q := by
  obtain ⟨ctes, body, order, limit, offset, _⟩ := q
  have := totalSize_map_lt (f := Node.cte) (fun _ => by simp) ctes
  have := body.totalSize_children_lt
  have := totalSize_map_lt (f := Node.sortKey) (fun _ => by simp) order
  have := totalSize_exprNodes_toList_le limit
  have := totalSize_exprNodes_toList_le offset
  simp [Select.children]; omega

theorem ConflictAction.totalSize_children_lt (a : ConflictAction) :
    totalSize a.children < sizeOf a := by
  cases a with
  | nothing => simp [ConflictAction.children]
  | update assignments condition =>
    have := totalSize_assignedNodes_lt assignments
    have := totalSize_exprNodes_toList_le condition
    simp [ConflictAction.children]; omega

theorem Insert.totalSize_children_lt (i : Insert) : totalSize i.children < sizeOf i := by
  obtain ⟨ctes, _, _, source, conflict, returning, _⟩ := i
  have := totalSize_map_lt (f := Node.cte) (fun _ => by simp) ctes
  have := totalSize_map_lt (f := Node.target) (fun _ => by simp) returning
  have : totalSize (conflict.toList.flatMap fun c => c.action.children) < sizeOf conflict := by
    cases conflict with
    | none => simp
    | some c =>
      obtain ⟨_, action, _⟩ := c
      have := action.totalSize_children_lt
      simp; omega
  cases source <;> simp [Insert.children, Insert.query?] <;> omega

theorem Update.totalSize_children_lt (u : Update) : totalSize u.children < sizeOf u := by
  obtain ⟨ctes, _, assignments, sources, condition, returning, _⟩ := u
  have := totalSize_map_lt (f := Node.cte) (fun _ => by simp) ctes
  have := totalSize_assignedNodes_lt assignments
  have := totalSize_map_lt (f := Node.source) (fun _ => by simp) sources
  have := totalSize_exprNodes_toList_le condition
  have := totalSize_map_lt (f := Node.target) (fun _ => by simp) returning
  simp [Update.children]; omega

theorem Delete.totalSize_children_lt (d : Delete) : totalSize d.children < sizeOf d := by
  obtain ⟨ctes, _, sources, condition, returning, _⟩ := d
  have := totalSize_map_lt (f := Node.cte) (fun _ => by simp) ctes
  have := totalSize_map_lt (f := Node.source) (fun _ => by simp) sources
  have := totalSize_exprNodes_toList_le condition
  have := totalSize_map_lt (f := Node.target) (fun _ => by simp) returning
  simp [Delete.children]; omega

theorem FromItem.totalSize_children_lt (f : FromItem) : totalSize f.children < sizeOf f := by
  have pos := sizeOf_span_pos
  cases f with
  | table _ => rw [FromItem.table.sizeOf_spec, FromItem.children, totalSize_nil]; omega
  | subquery query correlation lateral span => have := pos span; simp [FromItem.children]; omega
  | call call correlation span => have := pos span; simp [FromItem.children]; omega
  | join kind left right condition shared span =>
    have := pos span
    have : 0 < sizeOf kind := by cases kind <;> simp
    have := totalSize_exprNodes_toList_le condition
    simp [FromItem.children]; omega

theorem Expr.totalSize_children_lt (e : Expr) : totalSize e.children < sizeOf e := by
  have pos := sizeOf_span_pos
  have le := sizeOf_exprNode_le
  cases e with
  | unary op operand span =>
    have := pos span
    have := le operand
    simp [Expr.children]; omega
  | binary op left right span =>
    have := pos span
    have : 0 < sizeOf op := by cases op <;> simp
    have := le left
    have := le right
    simp [Expr.children]; omega
  | cast operand type span =>
    have := pos span
    have := le operand
    simp [Expr.children]; omega
  | caseOf operand arms otherwise span =>
    have := totalSize_exprNodes_toList_le operand
    have := totalSize_arms_lt arms
    have := totalSize_exprNodes_toList_le otherwise
    simp only [Expr.children, totalSize_append, Expr.caseOf.sizeOf_spec]; omega
  | inList operand items negated span =>
    have := le operand
    have := totalSize_exprNodes_lt items
    simp [Expr.children]; omega
  | inQuery operand query negated span =>
    have := pos span
    have := le operand
    simp [Expr.children]; omega
  | isNull operand negated span =>
    have := pos span
    have := le operand
    simp [Expr.children]; omega
  | subquery query span => have := pos span; simp [Expr.children]; omega
  | existence query span => have := pos span; simp [Expr.children]; omega
  | array items span =>
    have := totalSize_exprNodes_lt items
    simp [Expr.children]; omega
  | row items span =>
    have := totalSize_exprNodes_lt items
    simp [Expr.children]; omega
  | literal _ _ | column _ | star _ _ | parameter _ | call _ | default _ =>
    simp only [Expr.children, totalSize_nil, Expr.literal.sizeOf_spec, Expr.column.sizeOf_spec,
      Expr.star.sizeOf_spec, Expr.parameter.sizeOf_spec, Expr.call.sizeOf_spec,
      Expr.default.sizeOf_spec]
    omega

namespace Node

/-- All the children of a node together are smaller than the node. -/
theorem totalSize_children_lt (n : Node) : totalSize n.children < sizeOf n := by
  cases n with
  | statement s => cases s <;> simp [children, ofStatement]
  | select q => have := q.totalSize_children_lt; simp [children]; omega
  | insert i => have := i.totalSize_children_lt; simp [children]; omega
  | update u => have := u.totalSize_children_lt; simp [children]; omega
  | delete d => have := d.totalSize_children_lt; simp [children]; omega
  | cte c => cases c; simp [children]; omega
  | source f => have := f.totalSize_children_lt; simp [children]; omega
  | target t => have := sizeOf_exprNode_le t.expr; cases t; simp [children] at *; omega
  | sortKey k => have := sizeOf_exprNode_le k.expr; cases k; simp [children] at *; omega
  | expr e => have := e.totalSize_children_lt; simp [children]; omega
  | call c => have := c.totalSize_children_lt; simp [children]; omega
  | parameter p => rw [Node.parameter.sizeOf_spec, children, totalSize_nil]; omega

/-- No member is larger than its list. -/
theorem sizeOf_le_totalSize {n : Node} : ∀ {ns : List Node}, n ∈ ns → sizeOf n ≤ totalSize ns
  | m :: ns, h => by
    rcases List.mem_cons.mp h with rfl | h
    · simp
    · have := sizeOf_le_totalSize h
      simp; omega

/-- A child is smaller than its node, so that one can go down a tree by recursion. -/
theorem sizeOf_lt_of_mem_children {m n : Node} (h : m ∈ n.children) : sizeOf m < sizeOf n :=
  Nat.lt_of_le_of_lt (sizeOf_le_totalSize h) n.totalSize_children_lt

/-- What passes from the children of a node to the node holds of every node. -/
theorem ind {motive : Node → Prop} (step : ∀ n, (∀ c ∈ n.children, motive c) → motive n) :
    ∀ n, motive n := by
  intro n
  induction hk : sizeOf n using Nat.strongRecOn generalizing n with
  | _ k ih =>
    apply step
    intro c hc
    have hlt : sizeOf c < k := hk ▸ sizeOf_lt_of_mem_children hc
    exact ih _ hlt c rfl

end Node

end SqlVet
