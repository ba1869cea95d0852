import SqlVet.Tree.Walk

/-!
# Trees without spans

Erasing the spans of a tree makes all of them the same and leaves everything else as it is.  So two
trees that are equal once they are erased differ in their spans at most.

A walk does not look at spans: the children of an erased node are the erased children
(`Node.children_erase`), and so are all nodes below it (`Node.preorder_erase`).
-/

namespace SqlVet

/-! ## Erasing

Every span becomes the blank one, all the way down.
-/

/-- The span that stands for any other. -/
def Span.blank : Span := ⟨0, 0⟩

def Column.erase (c : Column) : Column := { c with span := .blank }

def Parameter.erase (p : Parameter) : Parameter := { p with span := .blank }

def TypeName.erase (t : TypeName) : TypeName := { t with span := .blank }

def TableName.erase (t : TableName) : TableName := { t with span := .blank }

def Spanned.erase {α : Type} (x : Spanned α) : Spanned α := { x with span := .blank }

mutual

def Expr.erase : Expr → Expr
  | .literal v _ => .literal v .blank
  | .column c => .column c.erase
  | .star t _ => .star t .blank
  | .parameter p => .parameter p.erase
  | .call c => .call c.erase
  | .unary o x _ => .unary o x.erase .blank
  | .binary o x y _ => .binary o x.erase y.erase .blank
  | .cast x t _ => .cast x.erase t.erase .blank
  | .caseOf x as y _ =>
      .caseOf (Expr.eraseOption x) (WhenArm.eraseAll as) (Expr.eraseOption y) .blank
  | .inList x xs n _ => .inList x.erase (Expr.eraseAll xs) n .blank
  | .inQuery x q n _ => .inQuery x.erase q.erase n .blank
  | .isNull x n _ => .isNull x.erase n .blank
  | .subquery q _ => .subquery q.erase .blank
  | .existence q _ => .existence q.erase .blank
  | .array xs _ => .array (Expr.eraseAll xs) .blank
  | .row xs _ => .row (Expr.eraseAll xs) .blank
  | .default _ => .default .blank

def Expr.eraseAll : List Expr → List Expr
  | [] => []
  | x :: xs => x.erase :: Expr.eraseAll xs

def Expr.eraseRows : List (List Expr) → List (List Expr)
  | [] => []
  | xs :: rows => Expr.eraseAll xs :: Expr.eraseRows rows

def Expr.eraseOption : Option Expr → Option Expr
  | none => none
  | some x => some x.erase

def WhenArm.erase : WhenArm → WhenArm
  | ⟨condition, result, _⟩ => ⟨condition.erase, result.erase, .blank⟩

def WhenArm.eraseAll : List WhenArm → List WhenArm
  | [] => []
  | a :: as => a.erase :: WhenArm.eraseAll as

def Call.erase : Call → Call
  | ⟨name, args, star, distinct, order, filter, window, _⟩ =>
      ⟨name, Expr.eraseAll args, star, distinct, SortKey.eraseAll order, Expr.eraseOption filter,
        Window.eraseOption window, .blank⟩

def Window.erase : Window → Window
  | ⟨partition, order, _⟩ => ⟨Expr.eraseAll partition, SortKey.eraseAll order, .blank⟩

def Window.eraseOption : Option Window → Option Window
  | none => none
  | some w => some w.erase

def SortKey.erase : SortKey → SortKey
  | ⟨x, direction, nulls, _⟩ => ⟨x.erase, direction, nulls, .blank⟩

def SortKey.eraseAll : List SortKey → List SortKey
  | [] => []
  | k :: ks => k.erase :: SortKey.eraseAll ks

def Select.erase : Select → Select
  | ⟨ctes, body, order, limit, offset, _⟩ =>
      ⟨Cte.eraseAll ctes, body.erase, SortKey.eraseAll order, Expr.eraseOption limit,
        Expr.eraseOption offset, .blank⟩

def Body.erase : Body → Body
  | .values rows => .values (Expr.eraseRows rows)
  | .query distinct targets sources condition groups having =>
      .query distinct (Target.eraseAll targets) (FromItem.eraseAll sources)
        (Expr.eraseOption condition) (Expr.eraseAll groups) (Expr.eraseOption having)
  | .combine op all left right => .combine op all left.erase right.erase

def Cte.erase : Cte → Cte
  | ⟨name, columns, query, _⟩ => ⟨name, columns, query.erase, .blank⟩

def Cte.eraseAll : List Cte → List Cte
  | [] => []
  | c :: cs => c.erase :: Cte.eraseAll cs

def Target.erase : Target → Target
  | ⟨x, label, _⟩ => ⟨x.erase, label, .blank⟩

def Target.eraseAll : List Target → List Target
  | [] => []
  | t :: ts => t.erase :: Target.eraseAll ts

def FromItem.erase : FromItem → FromItem
  | .table t => .table t.erase
  | .subquery q correlation lateral _ => .subquery q.erase correlation lateral .blank
  | .call c correlation _ => .call c.erase correlation .blank
  | .join kind left right condition shared _ =>
      .join kind left.erase right.erase (Expr.eraseOption condition) shared .blank

def FromItem.eraseAll : List FromItem → List FromItem
  | [] => []
  | f :: fs => f.erase :: FromItem.eraseAll fs

end

def Assignment.erase (a : Assignment) : Assignment := ⟨a.column.erase, a.value.erase⟩

def ConflictAction.erase : ConflictAction → ConflictAction
  | .nothing => .nothing
  | .update assignments condition =>
      .update (assignments.map Assignment.erase) (condition.map Expr.erase)

def Conflict.erase (c : Conflict) : Conflict := ⟨c.target, c.action.erase, .blank⟩

def RowSource.erase : RowSource → RowSource
  | .select q => .select q.erase
  | .defaultValues => .defaultValues

def Insert.erase (i : Insert) : Insert where
  ctes := i.ctes.map Cte.erase
  table := i.table.erase
  columns := i.columns.map Spanned.erase
  source := i.source.erase
  conflict := i.conflict.map Conflict.erase
  returning := i.returning.map Target.erase
  span := .blank

def Update.erase (u : Update) : Update where
  ctes := u.ctes.map Cte.erase
  table := u.table.erase
  assignments := u.assignments.map Assignment.erase
  sources := u.sources.map FromItem.erase
  condition := u.condition.map Expr.erase
  returning := u.returning.map Target.erase
  span := .blank

def Delete.erase (d : Delete) : Delete where
  ctes := d.ctes.map Cte.erase
  table := d.table.erase
  sources := d.sources.map FromItem.erase
  condition := d.condition.map Expr.erase
  returning := d.returning.map Target.erase
  span := .blank

/-- The statement with every span made the same: those of its nodes, and those of its names, types,
tables, columns, arms, windows and clauses. -/
def Statement.erase : Statement → Statement
  | .select q => .select q.erase
  | .insert i => .insert i.erase
  | .update u => .update u.erase
  | .delete d => .delete d.erase

def Node.erase : Node → Node
  | .statement s => .statement s.erase
  | .select q => .select q.erase
  | .insert i => .insert i.erase
  | .update u => .update u.erase
  | .delete d => .delete d.erase
  | .cte c => .cte c.erase
  | .source f => .source f.erase
  | .target t => .target t.erase
  | .sortKey k => .sortKey k.erase
  | .expr e => .expr e.erase
  | .call c => .call c.erase
  | .parameter p => .parameter p.erase

/-! ## Lists and options

Where erasing goes through a list by a recursion of its own, it is a map.
-/

/-- Erasing by recursion over a list, if each member is erased. -/
theorem eq_map_erase {α : Type} {f : List α → List α} {g : α → α} (hnil : f [] = [])
    (hcons : ∀ x xs, f (x :: xs) = g x :: f xs) : ∀ xs, f xs = xs.map g
  | [] => hnil
  | x :: xs => by rw [hcons, eq_map_erase hnil hcons xs, List.map_cons]

theorem Expr.eraseAll_eq (es : List Expr) : Expr.eraseAll es = es.map Expr.erase :=
  eq_map_erase rfl (fun _ _ => rfl) es

theorem Expr.eraseRows_eq (rows : List (List Expr)) :
    Expr.eraseRows rows = rows.map fun row => row.map Expr.erase :=
  eq_map_erase rfl (fun row _ => by rw [Expr.eraseRows, Expr.eraseAll_eq]) rows

theorem Expr.eraseOption_eq (e : Option Expr) : Expr.eraseOption e = e.map Expr.erase := by
  cases e <;> rfl

theorem WhenArm.eraseAll_eq (as : List WhenArm) : WhenArm.eraseAll as = as.map WhenArm.erase :=
  eq_map_erase rfl (fun _ _ => rfl) as

theorem Window.eraseOption_eq (w : Option Window) : Window.eraseOption w = w.map Window.erase := by
  cases w <;> rfl

theorem SortKey.eraseAll_eq (ks : List SortKey) : SortKey.eraseAll ks = ks.map SortKey.erase :=
  eq_map_erase rfl (fun _ _ => rfl) ks

theorem Cte.eraseAll_eq (cs : List Cte) : Cte.eraseAll cs = cs.map Cte.erase :=
  eq_map_erase rfl (fun _ _ => rfl) cs

theorem Target.eraseAll_eq (ts : List Target) : Target.eraseAll ts = ts.map Target.erase :=
  eq_map_erase rfl (fun _ _ => rfl) ts

theorem FromItem.eraseAll_eq (fs : List FromItem) : FromItem.eraseAll fs = fs.map FromItem.erase :=
  eq_map_erase rfl (fun _ _ => rfl) fs

/-! ## Children of erased nodes

Children are made from fields, and fields are erased as they are.  One lemma for each kind of piece.
-/

@[simp] theorem Expr.node_erase (e : Expr) : e.erase.node = e.node.erase := by
  cases e <;> rfl

@[simp] theorem exprNodes_erase (es : List Expr) :
    exprNodes (es.map Expr.erase) = (exprNodes es).map Node.erase := by
  simp [exprNodes]

@[simp] theorem exprNodes_toList_erase (e : Option Expr) :
    exprNodes (e.map Expr.erase).toList = (exprNodes e.toList).map Node.erase := by
  cases e <;> simp [exprNodes]

@[simp] theorem assignedNodes_erase (as : List Assignment) :
    assignedNodes (as.map Assignment.erase) = (assignedNodes as).map Node.erase := by
  simp [assignedNodes, Assignment.erase]

namespace Node

/-- Nodes made from the members of a list, if each is made from an erased member as it is erased
itself. -/
theorem map_erase {α : Type} (f : α → Node) {g : α → α} (h : ∀ a, f (g a) = (f a).erase)
    (xs : List α) : (xs.map g).map f = (xs.map f).map erase := by
  rw [List.map_map, List.map_map]
  exact List.map_congr_left fun a _ => h a

theorem ctes_erase (cs : List Cte) :
    (cs.map Cte.erase).map Node.cte = (cs.map Node.cte).map erase :=
  map_erase .cte (fun _ => rfl) cs

theorem sortKeys_erase (ks : List SortKey) :
    (ks.map SortKey.erase).map Node.sortKey = (ks.map Node.sortKey).map erase :=
  map_erase .sortKey (fun _ => rfl) ks

theorem targets_erase (ts : List Target) :
    (ts.map Target.erase).map Node.target = (ts.map Node.target).map erase :=
  map_erase .target (fun _ => rfl) ts

theorem sources_erase (fs : List FromItem) :
    (fs.map FromItem.erase).map Node.source = (fs.map Node.source).map erase :=
  map_erase .source (fun _ => rfl) fs

end Node

/-- Children are the same for any spans, here and for the other pieces. -/
theorem Body.children_erase (b : Body) : b.erase.children = b.children.map Node.erase := by
  cases b with
  | values rows =>
    rw [Body.erase, Body.children, Expr.eraseRows_eq, ← List.map_flatten, exprNodes_erase]
    rfl
  | query distinct targets sources condition groups having =>
    simp only [Body.erase, Body.children, Target.eraseAll_eq, FromItem.eraseAll_eq,
      Expr.eraseOption_eq, Expr.eraseAll_eq, Node.targets_erase, Node.sources_erase,
      exprNodes_erase, exprNodes_toList_erase, List.map_append]
  | combine op all left right => rfl

theorem Select.children_erase (q : Select) : q.erase.children = q.children.map Node.erase := by
  obtain ⟨ctes, body, order, limit, offset, span⟩ := q
  simp only [Select.erase, Select.children, Cte.eraseAll_eq, SortKey.eraseAll_eq,
    Expr.eraseOption_eq, Body.children_erase, Node.ctes_erase, Node.sortKeys_erase,
    exprNodes_toList_erase, List.map_append]

theorem Window.children_erase (w : Window) : w.erase.children = w.children.map Node.erase := by
  obtain ⟨partition, order, span⟩ := w
  simp only [Window.erase, Window.children, Expr.eraseAll_eq, SortKey.eraseAll_eq, exprNodes_erase,
    Node.sortKeys_erase, List.map_append]

theorem Call.children_erase (c : Call) : c.erase.children = c.children.map Node.erase := by
  obtain ⟨name, args, star, distinct, order, filter, window, span⟩ := c
  have hwindow : (Window.eraseOption window).toList.flatMap Window.children =
      (window.toList.flatMap Window.children).map Node.erase := by
    cases window with
    | none => rfl
    | some w => simp [Window.eraseOption, Window.children_erase]
  simp only [Call.erase, Call.children, Expr.eraseAll_eq, SortKey.eraseAll_eq, Expr.eraseOption_eq,
    hwindow, exprNodes_erase, exprNodes_toList_erase, Node.sortKeys_erase, List.map_append]

theorem ConflictAction.children_erase (a : ConflictAction) :
    a.erase.children = a.children.map Node.erase := by
  cases a with
  | nothing => rfl
  | update assignments condition => simp [ConflictAction.erase, ConflictAction.children]

/-- The query of an insertion is erased with it. -/
theorem Insert.query?_erase (i : Insert) : i.erase.query? = i.query?.map Select.erase := by
  cases h : i.source <;> simp [Insert.query?, Insert.erase, RowSource.erase, h]

theorem Insert.children_erase (i : Insert) : i.erase.children = i.children.map Node.erase := by
  have hquery : i.erase.query?.toList.map Node.select =
      (i.query?.toList.map Node.select).map Node.erase := by
    rw [Insert.query?_erase, Option.toList_map]
    exact Node.map_erase .select (fun _ => rfl) _
  have hconflict : (i.conflict.map Conflict.erase).toList.flatMap (fun c => c.action.children) =
      (i.conflict.toList.flatMap fun c => c.action.children).map Node.erase := by
    cases i.conflict with
    | none => rfl
    | some c => simp [Conflict.erase, ConflictAction.children_erase]
  rw [Insert.children, hquery]
  simp only [Insert.erase, Insert.children, hconflict, Node.ctes_erase, Node.targets_erase,
    List.map_append]

theorem Update.children_erase (u : Update) : u.erase.children = u.children.map Node.erase := by
  simp only [Update.erase, Update.children, Node.ctes_erase, assignedNodes_erase,
    Node.sources_erase, exprNodes_toList_erase, Node.targets_erase, List.map_append]

theorem Delete.children_erase (d : Delete) : d.erase.children = d.children.map Node.erase := by
  simp only [Delete.erase, Delete.children, Node.ctes_erase, Node.sources_erase,
    exprNodes_toList_erase, Node.targets_erase, List.map_append]

theorem FromItem.children_erase (f : FromItem) : f.erase.children = f.children.map Node.erase := by
  cases f with
  | join kind left right condition shared span =>
    simp [FromItem.erase, FromItem.children, Expr.eraseOption_eq, Node.erase]
  | _ => rfl

theorem Expr.children_erase (e : Expr) : e.erase.children = e.children.map Node.erase := by
  cases e with
  | caseOf operand arms otherwise span =>
    have harms : (arms.map WhenArm.erase).flatMap (fun a => [a.condition.node, a.result.node]) =
        (arms.flatMap fun a => [a.condition.node, a.result.node]).map Node.erase := by
      rw [List.flatMap_map, List.map_flatMap]
      congr 1
      funext a
      cases a
      simp [WhenArm.erase]
    simp only [Expr.erase, Expr.children, Expr.eraseOption_eq, WhenArm.eraseAll_eq, harms,
      exprNodes_toList_erase, List.map_append]
  | _ => simp [Expr.erase, Expr.children, Expr.eraseAll_eq, Node.erase]

namespace Node

/-- The children of an erased node are its erased children. -/
theorem children_erase (n : Node) : n.erase.children = n.children.map erase := by
  cases n with
  | statement s => cases s <;> rfl
  | select q => exact q.children_erase
  | insert i => exact i.children_erase
  | update u => exact u.children_erase
  | delete d => exact d.children_erase
  | cte c => cases c; rfl
  | source f => exact f.children_erase
  | target t =>
    obtain ⟨e, label, span⟩ := t
    exact congrArg (fun n => [n]) e.node_erase
  | sortKey k =>
    obtain ⟨e, direction, nulls, span⟩ := k
    exact congrArg (fun n => [n]) e.node_erase
  | expr e => exact e.children_erase
  | call c => exact c.children_erase
  | parameter p => rfl

/-- A walk that leaves nothing out meets the same nodes in the same order, erased. -/
theorem preorder_erase (n : Node) : n.erase.preorder = n.preorder.map erase := by
  induction n using Node.ind with
  | step n ih =>
    rw [preorder_eq, preorder_eq, children_erase, List.map_cons, List.flatMap_map, List.map_flatMap]
    congr 1
    rw [List.flatMap_def, List.flatMap_def, List.map_congr_left ih]

end Node

/-- The nodes of an erased statement are its nodes, erased. -/
theorem Statement.nodes_erase (s : Statement) : s.erase.nodes = s.nodes.map Node.erase :=
  (Node.statement s).preorder_erase

end SqlVet
