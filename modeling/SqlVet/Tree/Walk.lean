import SqlVet.Tree.Node

/-!
# Walks

A walk shows the nodes of a tree to a visitor, parents before children and children in order.  At
each node the visitor decides how the walk goes on.

The nodes still to be seen are kept on a stack, so the depth of a tree costs no recursion:

* `Walk.turn` is one turn of the loop, and `walk` is the loop from a root on;
* `Walk.upcoming` lists what is on the stack in the order in which it will be taken off;
* `Node.preorder` lists a node and everything below it, as a walk meets them that leaves nothing
  out;
* `Collector` is a visitor that gathers what a matcher picks out of the nodes it is shown.
-/

namespace SqlVet

/-- What a visitor answers at a node: go on to the children, leave them out, or end the walk. -/
inductive Step (β : Type) where
  | into
  | skip
  | stop (outcome : β)
deriving DecidableEq

/-- A visitor answers at each node in the light of what it has seen so far, which is its state. -/
abbrev Visitor (σ β : Type) := Node → σ → Step β × σ

variable {σ β : Type}

theorem Node.sizeOf_pos (n : Node) : 0 < sizeOf n :=
  Nat.lt_of_le_of_lt (Nat.zero_le _) n.totalSize_children_lt

/-! ## The stack

The next node to be seen is on top, so the children of a node are pushed in reverse.
-/

/-- Reverses a stack from a position up to its top. -/
def reverseFrom (first : Nat) (stack : Array Node) : Array Node :=
  let above := stack.drop first
  stack.shrink first ++ above.reverse

/-- Pushes the children of a node.  What is pushed last is taken off first, so the children are
turned around once they are on the stack. -/
def pushChildren (n : Node) (stack : Array Node) : Array Node :=
  reverseFrom stack.size (stack ++ n.children)

/-- The stack stays as it is below the children, the first of which is on top. -/
theorem toList_pushChildren (n : Node) (stack : Array Node) :
    (pushChildren n stack).toList = stack.toList ++ n.children.reverse := by
  have hsize : (stack ++ n.children).size - stack.size = n.children.length := by
    rw [← Array.length_toList, Array.toList_appendList, List.length_append, Array.length_toList]
    omega
  simp [pushChildren, reverseFrom, hsize]

/-- Where a walk stands: the stack of the nodes still to be seen, and the visitor's state. -/
structure Walk (σ : Type) where
  pending : Array Node
  state : σ

namespace Walk

/-- The nodes on the stack, the next one first. -/
def upcoming (w : Walk σ) : List Node := w.pending.toList.reverse

@[simp] theorem upcoming_pop (stack : Array Node) (state : σ) :
    (Walk.mk stack.pop state).upcoming = (Walk.mk stack state).upcoming.tail := by
  simp [upcoming]

/-- Children come up in their own order, before what was there. -/
@[simp] theorem upcoming_pushChildren (n : Node) (stack : Array Node) (state : σ) :
    (Walk.mk (pushChildren n stack) state).upcoming
      = n.children ++ (Walk.mk stack state).upcoming := by
  simp [upcoming, toList_pushChildren]

/-! ## One turn

A turn is one round of the loop.  The two ways in which it can come out are told by the nodes that
come up, so that nothing further on looks at the stack.
-/

/-- Takes a node off the stack and shows it to the visitor.  The walk goes on from where it then
stands, or ends: with the visitor's outcome, if it gave one, and the last state. -/
def turn (visitor : Visitor σ β) (w : Walk σ) : Walk σ ⊕ (Option β × σ) :=
  match w.pending.back? with
  | none => .inr (none, w.state)
  | some n =>
    match visitor n w.state with
    | (.stop outcome, state) => .inr (some outcome, state)
    | (.skip, state) => .inl ⟨w.pending.pop, state⟩
    | (.into, state) => .inl ⟨pushChildren n w.pending.pop, state⟩

section
variable {visitor : Visitor σ β} {w next : Walk σ} {result : Option β × σ}

theorem back?_pending (w : Walk σ) : w.pending.back? = w.upcoming.head? := by
  simp [upcoming]

/-- The turns after which a walk goes on. -/
theorem turn_eq_inl (h : w.turn visitor = .inl next) :
    ∃ n rest, w.upcoming = n :: rest ∧
      ((visitor n w.state = (.skip, next.state) ∧ next.upcoming = rest) ∨
        (visitor n w.state = (.into, next.state) ∧ next.upcoming = n.children ++ rest)) := by
  rw [turn, back?_pending] at h
  cases hup : w.upcoming with
  | nil =>
    rw [hup] at h
    cases h
  | cons n rest =>
    have htail : (Walk.mk w.pending next.state).upcoming.tail = rest :=
      congrArg List.tail hup
    refine ⟨n, rest, rfl, ?_⟩
    simp only [hup, List.head?_cons] at h
    -- by the answer of the visitor: to stop, to skip, or to go into the node
    split at h
    · cases h
    · next state hv =>
      cases h
      exact .inl ⟨hv, (upcoming_pop ..).trans htail⟩
    · next state hv =>
      cases h
      refine .inr ⟨hv, ?_⟩
      rw [upcoming_pushChildren, upcoming_pop, htail]

/-- The turns that end a walk. -/
theorem turn_eq_inr (h : w.turn visitor = .inr result) :
    (w.upcoming = [] ∧ result = (none, w.state)) ∨
      ∃ n rest outcome state, w.upcoming = n :: rest ∧
        visitor n w.state = (.stop outcome, state) ∧ result = (some outcome, state) := by
  rw [turn, back?_pending] at h
  cases hup : w.upcoming with
  | nil =>
    rw [hup] at h
    cases h
    exact .inl ⟨rfl, rfl⟩
  | cons n rest =>
    simp only [hup, List.head?_cons] at h
    split at h
    · next outcome state hv =>
      cases h
      exact .inr ⟨n, rest, outcome, state, rfl, hv, rfl⟩
    · cases h
    · cases h

/-- A turn after which the walk goes on leaves less to be seen. -/
theorem totalSize_turn_lt (h : w.turn visitor = .inl next) :
    Node.totalSize next.upcoming < Node.totalSize w.upcoming := by
  obtain ⟨n, rest, hup, hnext⟩ := turn_eq_inl h
  have hpos := n.sizeOf_pos
  have hlt := n.totalSize_children_lt
  rw [hup, Node.totalSize_cons]
  rcases hnext with ⟨-, hrest⟩ | ⟨-, hrest⟩
  · rw [hrest]
    omega
  · rw [hrest, Node.totalSize_append]
    omega

end

/-! ## All turns

Turns are taken until one of them ends the walk.  That happens, as there is less to be seen after
each.
-/

/-- Takes turns until the walk ends. -/
def run (visitor : Visitor σ β) (w : Walk σ) : Option β × σ :=
  match _h : w.turn visitor with
  | .inl next => next.run visitor
  | .inr result => result
termination_by Node.totalSize w.upcoming
decreasing_by exact totalSize_turn_lt _h

end Walk

/-- Walks the tree under a node: the outcome that ended the walk, if one did, and the last state. -/
def walk (visitor : Visitor σ β) (root : Node) (state : σ) : Option β × σ :=
  Walk.run visitor ⟨#[root], state⟩

/-! ## The order of the nodes -/

/-- A node, then everything below its first child, then everything below its second, and so on. -/
def Node.preorder (n : Node) : List Node :=
  n :: n.children.attach.flatMap fun c => c.1.preorder
termination_by sizeOf n
decreasing_by exact Node.sizeOf_lt_of_mem_children c.2

/-- The equation of the recursion, without the proof that it ends. -/
theorem Node.preorder_eq (n : Node) : n.preorder = n :: n.children.flatMap Node.preorder := by
  rw [Node.preorder, List.flatMap_subtype (g := Node.preorder) (fun _ _ => rfl),
    List.unattach_attach]

/-- The nodes of a whole statement, its envelope first. -/
def Statement.nodes (s : Statement) : List Node := (Node.statement s).preorder

/-! ## Collectors

A collector never cuts a walk short, so it sees every node.  It can be walked over one statement
after another, and keeps what it found before.
-/

/-- What has been gathered so far, and the matcher's own state. -/
structure Collector (τ α : Type) where
  state : τ
  items : Array α

/-- A matcher picks out a node by answering with an item; its state lets it count or remember. -/
abbrev Matcher (τ α : Type) := Node → τ → Option α × τ

namespace Collector

variable {τ α : Type}

def start (state : τ) : Collector τ α := ⟨state, #[]⟩

/-- Shows one node to the matcher.  The item, if there is one, goes to the end. -/
def observe (matcher : Matcher τ α) (n : Node) : Collector τ α → Collector τ α
  | ⟨state, items⟩ =>
    match matcher n state with
    | (some item, state) => ⟨state, items.push item⟩
    | (none, state) => ⟨state, items⟩

/-- The collector as a visitor: it goes into every node and has no way to stop. -/
def visitor (matcher : Matcher τ α) : Visitor (Collector τ α) Empty :=
  fun n c => (.into, c.observe matcher n)

/-- Walks a collector over one more statement. -/
def walkOver (matcher : Matcher τ α) (c : Collector τ α) (s : Statement) : Collector τ α :=
  (walk (visitor matcher) (.statement s) c).2

/-- The items gathered from one statement. -/
def gather (matcher : Matcher τ α) (state : τ) (s : Statement) : List α :=
  (walkOver matcher (start state) s).items.toList

/-- A matcher that looks at the node alone. -/
def stateless (pick : Node → Option α) : Matcher Unit α :=
  fun n _ => (pick n, ())

/-- Walks a collector over statements in turn: how many items it held after each, and what it
became. -/
def walkOverAll (matcher : Matcher τ α) (c : Collector τ α) :
    List Statement → List Nat × Collector τ α
  | [] => ([], c)
  | s :: ss =>
    let c := walkOver matcher c s
    let size := c.items.size
    let (sizes, last) := walkOverAll matcher c ss
    (size :: sizes, last)

end Collector

namespace Node

/-! ## What is commonly picked out of nodes -/

def call? : Node → Option Call
  | .call c => some c
  | _ => none

def parameter? : Node → Option Parameter
  | .parameter p => some p
  | _ => none

def column? : Node → Option Column
  | .expr (.column c) => some c
  | _ => none

end Node

end SqlVet
