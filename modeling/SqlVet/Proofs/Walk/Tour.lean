import SqlVet.Tree.Walk

/-!
# Tours

A walk told by recursion over the tree instead of a stack.  A tour of a node visits the node and,
if the visitor goes into it, tours the pieces of the tree below it one after another, in the order
in which a statement writes them.  The order is spelled out here for each kind of piece.

Tours are put one behind another by `++`, which is associative with unit `Tour.nothing`.
`Node.tour_eq` says that a tour goes through the children of a node:

    n.tour v = Tour.enter v n (Tour.all (n.children.map (Node.tour v)))
-/

namespace SqlVet

variable {σ β : Type}

/-! ## Putting tours together

A tour is a function from the state at its beginning, so that tours can be put one behind another
before anything is known of the state.
-/

/-- What came of a stretch of a walk: the nodes that were visited, the outcome that ended the walk
on that stretch, if one did, and the visitor's state then. -/
structure Course (σ β : Type) where
  nodes : List Node
  outcome : Option β
  state : σ

/-- A stretch of a walk, from the visitor's state at its beginning. -/
def Tour (σ β : Type) := σ → Course σ β

namespace Tour

def nothing : Tour σ β := fun state => ⟨[], none, state⟩

/-- The second tour takes place only if the first did not end the walk. -/
def andThen (first second : Tour σ β) : Tour σ β := fun state =>
  match first state with
  | ⟨nodes, some outcome, state⟩ => ⟨nodes, some outcome, state⟩
  | ⟨nodes, none, state⟩ =>
    let next := second state
    ⟨nodes ++ next.nodes, next.outcome, next.state⟩

instance : Append (Tour σ β) := ⟨andThen⟩

/-- Visits a node and then, unless the visitor says otherwise, tours what is below it. -/
def enter (v : Visitor σ β) (n : Node) (below : Tour σ β) : Tour σ β := fun state =>
  match v n state with
  | (.stop outcome, state) => ⟨[n], some outcome, state⟩
  | (.skip, state) => ⟨[n], none, state⟩
  | (.into, state) =>
    let next := below state
    ⟨n :: next.nodes, next.outcome, next.state⟩

/-- Tours one after another. -/
def all (ts : List (Tour σ β)) : Tour σ β := ts.foldr (· ++ ·) nothing

end Tour

/-! ## The tour of a tree -/

open Tour (nothing enter)

mutual

/-- Calls and parameters are visited as what they are, every other form as an expression. -/
def Expr.tour (v : Visitor σ β) : Expr → Tour σ β
  | .call c => c.tour v
  | .parameter p => enter v (.parameter p) nothing
  | .literal x s => enter v (.expr (.literal x s)) nothing
  | .column c => enter v (.expr (.column c)) nothing
  | .star x s => enter v (.expr (.star x s)) nothing
  | .default s => enter v (.expr (.default s)) nothing
  | .unary o x s => enter v (.expr (.unary o x s)) (x.tour v)
  | .binary o x y s => enter v (.expr (.binary o x y s)) (x.tour v ++ y.tour v)
  | .cast x t s => enter v (.expr (.cast x t s)) (x.tour v)
  | .caseOf x as y s =>
      enter v (.expr (.caseOf x as y s))
        (Expr.tourOption v x ++ WhenArm.tourAll v as ++ Expr.tourOption v y)
  | .inList x xs b s => enter v (.expr (.inList x xs b s)) (x.tour v ++ Expr.tourAll v xs)
  | .inQuery x q b s => enter v (.expr (.inQuery x q b s)) (x.tour v ++ q.tour v)
  | .isNull x b s => enter v (.expr (.isNull x b s)) (x.tour v)
  | .subquery q s => enter v (.expr (.subquery q s)) (q.tour v)
  | .existence q s => enter v (.expr (.existence q s)) (q.tour v)
  | .array xs s => enter v (.expr (.array xs s)) (Expr.tourAll v xs)
  | .row xs s => enter v (.expr (.row xs s)) (Expr.tourAll v xs)

def Expr.tourAll (v : Visitor σ β) : List Expr → Tour σ β
  | [] => nothing
  | x :: xs => x.tour v ++ Expr.tourAll v xs

/-- Row by row. -/
def Expr.tourRows (v : Visitor σ β) : List (List Expr) → Tour σ β
  | [] => nothing
  | xs :: rows => Expr.tourAll v xs ++ Expr.tourRows v rows

def Expr.tourOption (v : Visitor σ β) : Option Expr → Tour σ β
  | none => nothing
  | some x => x.tour v

/-- An arm is no node: only its condition and its result are visited. -/
def WhenArm.tour (v : Visitor σ β) : WhenArm → Tour σ β
  | ⟨condition, result, _⟩ => condition.tour v ++ result.tour v

def WhenArm.tourAll (v : Visitor σ β) : List WhenArm → Tour σ β
  | [] => nothing
  | a :: as => a.tour v ++ WhenArm.tourAll v as

/-- Arguments, sort keys, filter, window. -/
def Call.tour (v : Visitor σ β) : Call → Tour σ β
  | ⟨name, args, star, distinct, order, filter, window, span⟩ =>
      enter v (.call ⟨name, args, star, distinct, order, filter, window, span⟩)
        (Expr.tourAll v args ++ SortKey.tourAll v order ++ Expr.tourOption v filter
          ++ Window.tourOption v window)

/-- A window is no node: only what it partitions and sorts by is visited. -/
def Window.tour (v : Visitor σ β) : Window → Tour σ β
  | ⟨partition, order, _⟩ => Expr.tourAll v partition ++ SortKey.tourAll v order

def Window.tourOption (v : Visitor σ β) : Option Window → Tour σ β
  | none => nothing
  | some w => w.tour v

def SortKey.tour (v : Visitor σ β) : SortKey → Tour σ β
  | ⟨x, d, n, s⟩ => enter v (.sortKey ⟨x, d, n, s⟩) (x.tour v)

def SortKey.tourAll (v : Visitor σ β) : List SortKey → Tour σ β
  | [] => nothing
  | k :: ks => k.tour v ++ SortKey.tourAll v ks

/-- Common tables, body, sort keys, limit, offset. -/
def Select.tour (v : Visitor σ β) : Select → Tour σ β
  | ⟨ctes, body, order, limit, offset, span⟩ =>
      enter v (.select ⟨ctes, body, order, limit, offset, span⟩)
        (Cte.tourAll v ctes ++ body.tour v ++ SortKey.tourAll v order ++ Expr.tourOption v limit
          ++ Expr.tourOption v offset)

/-- Of a plain query: targets, sources, condition, groups, condition on groups.  Of a combination
of queries: left, right. -/
def Body.tour (v : Visitor σ β) : Body → Tour σ β
  | .values rows => Expr.tourRows v rows
  | .query _ targets sources condition groups having =>
      Target.tourAll v targets ++ FromItem.tourAll v sources ++ Expr.tourOption v condition
        ++ Expr.tourAll v groups ++ Expr.tourOption v having
  | .combine _ _ left right => left.tour v ++ right.tour v

def Cte.tour (v : Visitor σ β) : Cte → Tour σ β
  | ⟨name, columns, query, span⟩ => enter v (.cte ⟨name, columns, query, span⟩) (query.tour v)

def Cte.tourAll (v : Visitor σ β) : List Cte → Tour σ β
  | [] => nothing
  | c :: cs => c.tour v ++ Cte.tourAll v cs

def Target.tour (v : Visitor σ β) : Target → Tour σ β
  | ⟨x, l, s⟩ => enter v (.target ⟨x, l, s⟩) (x.tour v)

def Target.tourAll (v : Visitor σ β) : List Target → Tour σ β
  | [] => nothing
  | t :: ts => t.tour v ++ Target.tourAll v ts

/-- Of a join: left, right, condition. -/
def FromItem.tour (v : Visitor σ β) : FromItem → Tour σ β
  | .table t => enter v (.source (.table t)) nothing
  | .subquery q c l s => enter v (.source (.subquery q c l s)) (q.tour v)
  | .call c n s => enter v (.source (.call c n s)) (c.tour v)
  | .join k l r c u s =>
      enter v (.source (.join k l r c u s)) (l.tour v ++ r.tour v ++ Expr.tourOption v c)

def FromItem.tourAll (v : Visitor σ β) : List FromItem → Tour σ β
  | [] => nothing
  | f :: fs => f.tour v ++ FromItem.tourAll v fs

end

/-- Of assignments only the values are visited. -/
def Assignment.tourAll (v : Visitor σ β) : List Assignment → Tour σ β
  | [] => nothing
  | a :: as => a.value.tour v ++ Assignment.tourAll v as

def ConflictAction.tour (v : Visitor σ β) : ConflictAction → Tour σ β
  | .nothing => Tour.nothing
  | .update assignments condition =>
      Assignment.tourAll v assignments ++ Expr.tourOption v condition

def RowSource.tour (v : Visitor σ β) : RowSource → Tour σ β
  | .select q => q.tour v
  | .defaultValues => nothing

def Conflict.tourOption (v : Visitor σ β) : Option Conflict → Tour σ β
  | none => nothing
  | some c => c.action.tour v

/-- Common tables, source, what to do on conflict, returned columns. -/
def Insert.tour (v : Visitor σ β) (i : Insert) : Tour σ β :=
  enter v (.insert i)
    (Cte.tourAll v i.ctes ++ i.source.tour v ++ Conflict.tourOption v i.conflict
      ++ Target.tourAll v i.returning)

/-- Common tables, assigned values, sources, condition, returned columns. -/
def Update.tour (v : Visitor σ β) (u : Update) : Tour σ β :=
  enter v (.update u)
    (Cte.tourAll v u.ctes ++ Assignment.tourAll v u.assignments ++ FromItem.tourAll v u.sources
      ++ Expr.tourOption v u.condition ++ Target.tourAll v u.returning)

/-- Common tables, sources, condition, returned columns. -/
def Delete.tour (v : Visitor σ β) (d : Delete) : Tour σ β :=
  enter v (.delete d)
    (Cte.tourAll v d.ctes ++ FromItem.tourAll v d.sources ++ Expr.tourOption v d.condition
      ++ Target.tourAll v d.returning)

def Statement.tour (v : Visitor σ β) (s : Statement) : Tour σ β :=
  enter v (.statement s) <|
    match s with
    | .select q => q.tour v
    | .insert i => i.tour v
    | .update u => u.tour v
    | .delete d => d.tour v

/-- The tour of any node.  A walk may be started at a call or a parameter in the guise of an
expression; nothing is below it then. -/
def Node.tour (v : Visitor σ β) : Node → Tour σ β
  | .statement s => s.tour v
  | .select q => q.tour v
  | .insert i => i.tour v
  | .update u => u.tour v
  | .delete d => d.tour v
  | .cte c => c.tour v
  | .source f => f.tour v
  | .target t => t.tour v
  | .sortKey k => k.tour v
  | .expr (.call c) => enter v (.expr (.call c)) nothing
  | .expr (.parameter p) => enter v (.expr (.parameter p)) nothing
  | .expr e => e.tour v
  | .call c => c.tour v
  | .parameter p => enter v (.parameter p) nothing

/-! ## Laws of tours

Tours are a monoid, and `Tour.all` is its product over a list.
-/

namespace Tour

@[simp] theorem nothing_append (t : Tour σ β) : nothing ++ t = t := by
  funext state
  show (⟨[] ++ (t state).nodes, (t state).outcome, (t state).state⟩ : Course σ β) = t state
  rw [List.nil_append]

/-- A stretch that did not end the walk, and what comes of the next one. -/
theorem append_of_none {first second : Tour σ β} {state state' : σ} {nodes : List Node}
    (h : first state = ⟨nodes, none, state'⟩) :
    (first ++ second) state
      = ⟨nodes ++ (second state').nodes, (second state').outcome, (second state').state⟩ := by
  show andThen first second state = _
  rw [andThen, h]

/-- A stretch that ended the walk, and nothing behind it. -/
theorem append_of_some {first second : Tour σ β} {state state' : σ} {nodes : List Node}
    {outcome : β} (h : first state = ⟨nodes, some outcome, state'⟩) :
    (first ++ second) state = ⟨nodes, some outcome, state'⟩ := by
  show andThen first second state = _
  rw [andThen, h]

@[simp] theorem append_nothing (t : Tour σ β) : t ++ nothing = t := by
  funext state
  match h : t state with
  | ⟨nodes, some outcome, state'⟩ => rw [append_of_some h]
  | ⟨nodes, none, state'⟩ => rw [append_of_none h, nothing, List.append_nil]

/-- However tours are grouped, the walk ends at the same place. -/
@[simp] theorem append_assoc (t₁ t₂ t₃ : Tour σ β) : t₁ ++ t₂ ++ t₃ = t₁ ++ (t₂ ++ t₃) := by
  funext state
  match h₁ : t₁ state with
  | ⟨nodes₁, some outcome, state₁⟩ =>
    rw [append_of_some (append_of_some h₁), append_of_some h₁]
  | ⟨nodes₁, none, state₁⟩ =>
    rw [append_of_none h₁]
    match h₂ : t₂ state₁ with
    | ⟨nodes₂, some outcome, state₂⟩ =>
      have h₁₂ : (t₁ ++ t₂) state = ⟨nodes₁ ++ nodes₂, some outcome, state₂⟩ := by
        rw [append_of_none h₁, h₂]
      rw [append_of_some h₂, append_of_some h₁₂]
    | ⟨nodes₂, none, state₂⟩ =>
      have h₁₂ : (t₁ ++ t₂) state = ⟨nodes₁ ++ nodes₂, none, state₂⟩ := by
        rw [append_of_none h₁, h₂]
      rw [append_of_none h₂, append_of_none h₁₂, List.append_assoc]

@[simp] theorem all_nil : all ([] : List (Tour σ β)) = nothing := rfl

@[simp] theorem all_cons (t : Tour σ β) (ts : List (Tour σ β)) : all (t :: ts) = t ++ all ts := rfl

/-- Two lists of tours in a row are toured one after the other. -/
theorem all_append (ts us : List (Tour σ β)) : all (ts ++ us) = all ts ++ all us := by
  induction ts with
  | nil => rw [List.nil_append, all_nil, nothing_append]
  | cons t ts ih => rw [List.cons_append, all_cons, ih, all_cons, append_assoc]

/-- A tour by recursion over a list is the tours of its members one after another. -/
theorem eq_all {α : Type} {f : List α → Tour σ β} {g : α → Tour σ β} (hnil : f [] = nothing)
    (hcons : ∀ x xs, f (x :: xs) = g x ++ f xs) : ∀ xs, f xs = all (xs.map g)
  | [] => hnil
  | x :: xs => by rw [hcons, eq_all hnil hcons xs, List.map_cons, all_cons]

end Tour

/-! ## A tour goes through the children

Each kind of piece has its order spelled out twice, by its tour and by its list of children.  One
lemma for each kind says that these orders are the same.
-/

namespace Node

variable (v : Visitor σ β)

/-- Tours nodes one after another. -/
def tourAll (ns : List Node) : Tour σ β := Tour.all (ns.map (Node.tour v))

@[simp] theorem tour_select (q : Select) : (Node.select q).tour v = q.tour v := rfl
@[simp] theorem tour_source (f : FromItem) : (Node.source f).tour v = f.tour v := rfl
@[simp] theorem tour_call (c : Call) : (Node.call c).tour v = c.tour v := rfl

@[simp] theorem tourAll_nil : tourAll v [] = nothing := rfl

@[simp] theorem tourAll_cons (n : Node) (ns : List Node) :
    tourAll v (n :: ns) = n.tour v ++ tourAll v ns := rfl

@[simp] theorem tourAll_append (ms ns : List Node) :
    tourAll v (ms ++ ns) = tourAll v ms ++ tourAll v ns := by
  rw [tourAll, List.map_append, Tour.all_append]
  rfl

/-- A tour by recursion over a list, if each member is toured as a node. -/
theorem eq_tourAll_map {α : Type} {f : List α → Tour σ β} {g : α → Node} (hnil : f [] = nothing)
    (hcons : ∀ x xs, f (x :: xs) = (g x).tour v ++ f xs) (xs : List α) :
    f xs = tourAll v (xs.map g) := by
  rw [tourAll, List.map_map]
  exact Tour.eq_all hnil hcons xs

end Node

section
variable (v : Visitor σ β)

/-- An expression is toured in the same way as its own node, calls and parameters included. -/
@[simp] theorem Expr.tour_node (e : Expr) : e.node.tour v = e.tour v := by
  cases e <;> rfl

/-- Expressions in a row are toured as their nodes are, and the same holds for the other lists
below. -/
theorem Expr.tourAll_eq (es : List Expr) :
    Expr.tourAll v es = Node.tourAll v (exprNodes es) :=
  Node.eq_tourAll_map v rfl (fun e _ => by rw [Expr.tour_node]; rfl) es

theorem Expr.tourOption_eq (e : Option Expr) :
    Expr.tourOption v e = Node.tourAll v (exprNodes e.toList) := by
  cases e with
  | none => rfl
  | some e => simp [Expr.tourOption, exprNodes]

theorem Expr.tourRows_eq (rows : List (List Expr)) :
    Expr.tourRows v rows = Node.tourAll v (exprNodes rows.flatten) := by
  induction rows with
  | nil => rfl
  | cons row rows ih =>
    rw [Expr.tourRows, ih, Expr.tourAll_eq, ← Node.tourAll_append, List.flatten_cons]
    simp only [exprNodes, List.map_append]

theorem WhenArm.tourAll_eq (arms : List WhenArm) :
    WhenArm.tourAll v arms
      = Node.tourAll v (arms.flatMap fun a => [a.condition.node, a.result.node]) := by
  induction arms with
  | nil => rfl
  | cons a arms ih =>
    obtain ⟨condition, result, span⟩ := a
    rw [WhenArm.tourAll, ih, List.flatMap_cons, Node.tourAll_append]
    simp [WhenArm.tour]

theorem SortKey.tourAll_eq (ks : List SortKey) :
    SortKey.tourAll v ks = Node.tourAll v (ks.map .sortKey) :=
  Node.eq_tourAll_map v rfl (fun _ _ => rfl) ks

theorem Cte.tourAll_eq (cs : List Cte) : Cte.tourAll v cs = Node.tourAll v (cs.map .cte) :=
  Node.eq_tourAll_map v rfl (fun _ _ => rfl) cs

theorem Target.tourAll_eq (ts : List Target) :
    Target.tourAll v ts = Node.tourAll v (ts.map .target) :=
  Node.eq_tourAll_map v rfl (fun _ _ => rfl) ts

theorem FromItem.tourAll_eq (fs : List FromItem) :
    FromItem.tourAll v fs = Node.tourAll v (fs.map .source) :=
  Node.eq_tourAll_map v rfl (fun _ _ => rfl) fs

theorem Assignment.tourAll_eq (as : List Assignment) :
    Assignment.tourAll v as = Node.tourAll v (assignedNodes as) :=
  Node.eq_tourAll_map v rfl (fun a _ => by rw [Expr.tour_node]; rfl) as

theorem Window.tourOption_eq (w : Option Window) :
    Window.tourOption v w = Node.tourAll v (w.toList.flatMap Window.children) := by
  cases w with
  | none => rfl
  | some w =>
    obtain ⟨partition, order, span⟩ := w
    simp [Window.tourOption, Window.tour, Window.children, Expr.tourAll_eq, SortKey.tourAll_eq]

theorem Conflict.tourOption_eq (c : Option Conflict) :
    Conflict.tourOption v c
      = Node.tourAll v (c.toList.flatMap fun c => c.action.children) := by
  cases c with
  | none => rfl
  | some c =>
    cases h : c.action <;>
      simp [Conflict.tourOption, ConflictAction.tour, ConflictAction.children, h,
        Assignment.tourAll_eq, Expr.tourOption_eq]

theorem RowSource.tour_eq (i : Insert) :
    i.source.tour v = Node.tourAll v (i.query?.toList.map .select) := by
  cases h : i.source <;> simp [Insert.query?, RowSource.tour, h]

/-- A body has no node of its own, so there is nothing to enter before what is in it. -/
theorem Body.tour_eq (b : Body) : b.tour v = Node.tourAll v b.children := by
  cases b with
  | values rows => exact Expr.tourRows_eq v rows
  | query distinct targets sources condition groups having =>
    simp [Body.tour, Body.children, Target.tourAll_eq, FromItem.tourAll_eq, Expr.tourOption_eq,
      Expr.tourAll_eq]
  | combine op all left right => simp [Body.tour, Body.children]

/-- A query is entered, and then its children are toured. -/
theorem Select.tour_eq (q : Select) :
    q.tour v = enter v (.select q) (Node.tourAll v q.children) := by
  obtain ⟨ctes, body, order, limit, offset, span⟩ := q
  simp [Select.tour, Select.children, Cte.tourAll_eq, Body.tour_eq, SortKey.tourAll_eq,
    Expr.tourOption_eq]

theorem Call.tour_eq (c : Call) : c.tour v = enter v (.call c) (Node.tourAll v c.children) := by
  obtain ⟨name, args, star, distinct, order, filter, window, span⟩ := c
  simp [Call.tour, Call.children, Expr.tourAll_eq, SortKey.tourAll_eq, Expr.tourOption_eq,
    Window.tourOption_eq]

theorem Insert.tour_eq (i : Insert) :
    i.tour v = enter v (.insert i) (Node.tourAll v i.children) := by
  simp [Insert.tour, Insert.children, Cte.tourAll_eq, RowSource.tour_eq, Conflict.tourOption_eq,
    Target.tourAll_eq]

theorem Update.tour_eq (u : Update) :
    u.tour v = enter v (.update u) (Node.tourAll v u.children) := by
  simp [Update.tour, Update.children, Cte.tourAll_eq, Assignment.tourAll_eq, FromItem.tourAll_eq,
    Expr.tourOption_eq, Target.tourAll_eq]

theorem Delete.tour_eq (d : Delete) :
    d.tour v = enter v (.delete d) (Node.tourAll v d.children) := by
  simp [Delete.tour, Delete.children, Cte.tourAll_eq, FromItem.tourAll_eq, Expr.tourOption_eq,
    Target.tourAll_eq]

/-- A join tours both its sides before its condition. -/
theorem FromItem.tour_eq (f : FromItem) :
    f.tour v = enter v (.source f) (Node.tourAll v f.children) := by
  cases f <;> simp [FromItem.tour, FromItem.children, Expr.tourOption_eq]

/-- Calls and parameters apart, which are toured as nodes of their own. -/
theorem Expr.tour_eq (e : Expr) (h : e.node = .expr e) :
    e.tour v = enter v (.expr e) (Node.tourAll v e.children) := by
  cases e with
  | call c => cases h
  | parameter p => cases h
  | literal _ _ | column _ | star _ _ | default _ => rfl
  | caseOf operand arms otherwise span =>
    simp [Expr.tour, Expr.children, Expr.tourOption_eq, WhenArm.tourAll_eq]
  | unary _ _ _ | binary _ _ _ _ | cast _ _ _ | inList _ _ _ _ | inQuery _ _ _ _ | isNull _ _ _
  | subquery _ _ | existence _ _ | array _ _ | row _ _ =>
    simp [Expr.tour, Expr.children, Expr.tourAll_eq]

/-- A tour of a node visits it and then goes through its children. -/
theorem Node.tour_eq (n : Node) : n.tour v = enter v n (Node.tourAll v n.children) := by
  cases n with
  | statement s =>
    show s.tour v = _
    cases s <;> simp [Statement.tour, Node.children, Node.ofStatement, Node.tour]
  | select q => exact q.tour_eq v
  | insert i => exact i.tour_eq v
  | update u => exact u.tour_eq v
  | delete d => exact d.tour_eq v
  | cte c =>
    obtain ⟨name, columns, query, span⟩ := c
    show enter v (.cte ⟨name, columns, query, span⟩) (query.tour v) = _
    simp [Node.children]
  | source f => exact f.tour_eq v
  | target t =>
    obtain ⟨e, label, span⟩ := t
    show enter v (.target ⟨e, label, span⟩) (e.tour v) = _
    simp [Node.children]
  | sortKey k =>
    obtain ⟨e, direction, nulls, span⟩ := k
    show enter v (.sortKey ⟨e, direction, nulls, span⟩) (e.tour v) = _
    simp [Node.children]
  | call c => exact c.tour_eq v
  | parameter p => rfl
  | expr e =>
    cases e with
    -- in this guise they have no children
    | call c => rfl
    | parameter p => rfl
    | literal _ _ | column _ | star _ _ | default _ | unary _ _ _ | binary _ _ _ _ | cast _ _ _
    | caseOf _ _ _ _ | inList _ _ _ _ | inQuery _ _ _ _ | isNull _ _ _ | subquery _ _
    | existence _ _ | array _ _ | row _ _ => exact Expr.tour_eq v _ rfl

end

end SqlVet
