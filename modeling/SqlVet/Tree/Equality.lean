import SqlVet.Tree.Basic

/-!
# Equality of trees

Two statements are equal when they agree in every part, spans included.  For each kind of subtree
`same` decides it by going through both side by side, names, flags and spans before what is below;
`same_iff` says that it is the equality of the type.  The instances make every statement comparable.
The recursion is on the constructors of the first tree, so that an instance can be evaluated.
-/

namespace SqlVet

/-! ## Comparing side by side

Two trees of different form are not the same.  Of two trees of one form, all fields are compared.
-/

mutual

def Expr.same : Expr → Expr → Bool
  | .literal v s, e => match e with
    | .literal w t => v == w && s == t
    | _ => false
  | .column c, e => match e with
    | .column d => c == d
    | _ => false
  | .star v s, e => match e with
    | .star w t => v == w && s == t
    | _ => false
  | .parameter p, e => match e with
    | .parameter q => p == q
    | _ => false
  | .call c, e => match e with
    | .call d => c.same d
    | _ => false
  | .unary o x s, e => match e with
    | .unary o' x' s' => o == o' && s == s' && x.same x'
    | _ => false
  | .binary o x y s, e => match e with
    | .binary o' x' y' s' => o == o' && s == s' && x.same x' && y.same y'
    | _ => false
  | .cast x t s, e => match e with
    | .cast x' t' s' => t == t' && s == s' && x.same x'
    | _ => false
  | .caseOf x as y s, e => match e with
    | .caseOf x' as' y' s' => s == s' && Expr.sameOption x x' && WhenArm.sameAll as as' &&
        Expr.sameOption y y'
    | _ => false
  | .inList x xs n s, e => match e with
    | .inList x' xs' n' s' => n == n' && s == s' && x.same x' && Expr.sameAll xs xs'
    | _ => false
  | .inQuery x q n s, e => match e with
    | .inQuery x' q' n' s' => n == n' && s == s' && x.same x' && q.same q'
    | _ => false
  | .isNull x n s, e => match e with
    | .isNull x' n' s' => n == n' && s == s' && x.same x'
    | _ => false
  | .subquery q s, e => match e with
    | .subquery q' s' => s == s' && q.same q'
    | _ => false
  | .existence q s, e => match e with
    | .existence q' s' => s == s' && q.same q'
    | _ => false
  | .array xs s, e => match e with
    | .array xs' s' => s == s' && Expr.sameAll xs xs'
    | _ => false
  | .row xs s, e => match e with
    | .row xs' s' => s == s' && Expr.sameAll xs xs'
    | _ => false
  | .default s, e => match e with
    | .default s' => s == s'
    | _ => false
termination_by structural a => a

def Expr.sameAll : List Expr → List Expr → Bool
  | [], [] => true
  | x :: xs, y :: ys => x.same y && Expr.sameAll xs ys
  | [], _ :: _ => false
  | _ :: _, [] => false
termination_by structural a => a

def Expr.sameRows : List (List Expr) → List (List Expr) → Bool
  | [], [] => true
  | x :: xs, y :: ys => Expr.sameAll x y && Expr.sameRows xs ys
  | [], _ :: _ => false
  | _ :: _, [] => false
termination_by structural a => a

def Expr.sameOption : Option Expr → Option Expr → Bool
  | none, none => true
  | some x, some y => x.same y
  | none, some _ => false
  | some _, none => false
termination_by structural a => a

def WhenArm.same : WhenArm → WhenArm → Bool
  | ⟨c, r, s⟩, ⟨c', r', s'⟩ => s == s' && c.same c' && r.same r'
termination_by structural a => a

def WhenArm.sameAll : List WhenArm → List WhenArm → Bool
  | [], [] => true
  | x :: xs, y :: ys => x.same y && WhenArm.sameAll xs ys
  | [], _ :: _ => false
  | _ :: _, [] => false
termination_by structural a => a

def Call.same : Call → Call → Bool
  | ⟨name, args, star, distinct, order, filter, window, span⟩,
    ⟨name', args', star', distinct', order', filter', window', span'⟩ =>
      name == name' && star == star' && distinct == distinct' && span == span' &&
        Expr.sameAll args args' && SortKey.sameAll order order' && Expr.sameOption filter filter' &&
        Window.sameOption window window'
termination_by structural a => a

def Window.same : Window → Window → Bool
  | ⟨partition, order, span⟩, ⟨partition', order', span'⟩ =>
      span == span' && Expr.sameAll partition partition' && SortKey.sameAll order order'
termination_by structural a => a

def Window.sameOption : Option Window → Option Window → Bool
  | none, none => true
  | some x, some y => x.same y
  | none, some _ => false
  | some _, none => false
termination_by structural a => a

def SortKey.same : SortKey → SortKey → Bool
  | ⟨x, d, n, s⟩, ⟨x', d', n', s'⟩ => d == d' && n == n' && s == s' && x.same x'
termination_by structural a => a

def SortKey.sameAll : List SortKey → List SortKey → Bool
  | [], [] => true
  | x :: xs, y :: ys => x.same y && SortKey.sameAll xs ys
  | [], _ :: _ => false
  | _ :: _, [] => false
termination_by structural a => a

def Select.same : Select → Select → Bool
  | ⟨ctes, body, order, limit, offset, span⟩, ⟨ctes', body', order', limit', offset', span'⟩ =>
      span == span' && Cte.sameAll ctes ctes' && body.same body' && SortKey.sameAll order order' &&
        Expr.sameOption limit limit' && Expr.sameOption offset offset'
termination_by structural a => a

def Body.same : Body → Body → Bool
  | .values rows, b => match b with
    | .values rows' => Expr.sameRows rows rows'
    | _ => false
  | .query d ts fs c gs h, b => match b with
    | .query d' ts' fs' c' gs' h' =>
        d == d' && Target.sameAll ts ts' && FromItem.sameAll fs fs' && Expr.sameOption c c' &&
          Expr.sameAll gs gs' && Expr.sameOption h h'
    | _ => false
  | .combine o all l r, b => match b with
    | .combine o' all' l' r' => o == o' && all == all' && l.same l' && r.same r'
    | _ => false
termination_by structural a => a

def Cte.same : Cte → Cte → Bool
  | ⟨name, columns, query, span⟩, ⟨name', columns', query', span'⟩ =>
      name == name' && columns == columns' && span == span' && query.same query'
termination_by structural a => a

def Cte.sameAll : List Cte → List Cte → Bool
  | [], [] => true
  | x :: xs, y :: ys => x.same y && Cte.sameAll xs ys
  | [], _ :: _ => false
  | _ :: _, [] => false
termination_by structural a => a

def Target.same : Target → Target → Bool
  | ⟨x, l, s⟩, ⟨x', l', s'⟩ => l == l' && s == s' && x.same x'
termination_by structural a => a

def Target.sameAll : List Target → List Target → Bool
  | [], [] => true
  | x :: xs, y :: ys => x.same y && Target.sameAll xs ys
  | [], _ :: _ => false
  | _ :: _, [] => false
termination_by structural a => a

def FromItem.same : FromItem → FromItem → Bool
  | .table t, f => match f with
    | .table t' => t == t'
    | _ => false
  | .subquery q c l s, f => match f with
    | .subquery q' c' l' s' => c == c' && l == l' && s == s' && q.same q'
    | _ => false
  | .call c n s, f => match f with
    | .call c' n' s' => n == n' && s == s' && c.same c'
    | _ => false
  | .join k l r c u s, f => match f with
    | .join k' l' r' c' u' s' =>
        k == k' && u == u' && s == s' && l.same l' && r.same r' && Expr.sameOption c c'
    | _ => false
termination_by structural a => a

def FromItem.sameAll : List FromItem → List FromItem → Bool
  | [], [] => true
  | x :: xs, y :: ys => x.same y && FromItem.sameAll xs ys
  | [], _ :: _ => false
  | _ :: _, [] => false
termination_by structural a => a

end

/-! ## Same is equal

By the same recursion on the first tree.  In each case the second tree is of the same form or of
another one, and what is left are equations between fields.
-/

mutual

/-- Two expressions are the same side by side if they are equal. -/
theorem Expr.same_iff : ∀ a b : Expr, a.same b = true ↔ a = b
  | .literal v s, e => by cases e <;> simp [Expr.same]
  | .column c, e => by cases e <;> simp [Expr.same]
  | .star v s, e => by cases e <;> simp [Expr.same]
  | .parameter p, e => by cases e <;> simp [Expr.same]
  | .call c, e => by cases e <;> simp [Expr.same, c.same_iff]
  | .unary o x s, e => by cases e <;> simp [Expr.same, x.same_iff]; grind
  | .binary o x y s, e => by cases e <;> simp [Expr.same, x.same_iff, y.same_iff]; grind
  | .cast x t s, e => by cases e <;> simp [Expr.same, x.same_iff]; grind
  | .caseOf x as y s, e => by
    cases e <;>
      simp [Expr.same, Expr.sameOption_iff x, WhenArm.sameAll_iff as, Expr.sameOption_iff y]
    grind
  | .inList x xs n s, e => by
    cases e <;> simp [Expr.same, x.same_iff, Expr.sameAll_iff xs]; grind
  | .inQuery x q n s, e => by cases e <;> simp [Expr.same, x.same_iff, q.same_iff]; grind
  | .isNull x n s, e => by cases e <;> simp [Expr.same, x.same_iff]; grind
  | .subquery q s, e => by cases e <;> simp [Expr.same, q.same_iff]; grind
  | .existence q s, e => by cases e <;> simp [Expr.same, q.same_iff]; grind
  | .array xs s, e => by cases e <;> simp [Expr.same, Expr.sameAll_iff xs]; grind
  | .row xs s, e => by cases e <;> simp [Expr.same, Expr.sameAll_iff xs]; grind
  | .default s, e => by cases e <;> simp [Expr.same]
termination_by structural a => a

theorem Expr.sameAll_iff : ∀ xs ys : List Expr, Expr.sameAll xs ys = true ↔ xs = ys
  | [], ys => by cases ys <;> simp [Expr.sameAll]
  | x :: xs, ys => by cases ys <;> simp [Expr.sameAll, x.same_iff, Expr.sameAll_iff xs]
termination_by structural a => a

theorem Expr.sameRows_iff : ∀ xs ys : List (List Expr), Expr.sameRows xs ys = true ↔ xs = ys
  | [], ys => by cases ys <;> simp [Expr.sameRows]
  | x :: xs, ys => by cases ys <;> simp [Expr.sameRows, Expr.sameAll_iff x, Expr.sameRows_iff xs]
termination_by structural a => a

theorem Expr.sameOption_iff : ∀ x y : Option Expr, Expr.sameOption x y = true ↔ x = y
  | none, y => by cases y <;> simp [Expr.sameOption]
  | some x, y => by cases y <;> simp [Expr.sameOption, x.same_iff]
termination_by structural a => a

theorem WhenArm.same_iff : ∀ a b : WhenArm, a.same b = true ↔ a = b
  | ⟨c, r, s⟩, ⟨_, _, _⟩ => by simp [WhenArm.same, c.same_iff, r.same_iff]; grind
termination_by structural a => a

theorem WhenArm.sameAll_iff : ∀ xs ys : List WhenArm, WhenArm.sameAll xs ys = true ↔ xs = ys
  | [], ys => by cases ys <;> simp [WhenArm.sameAll]
  | x :: xs, ys => by cases ys <;> simp [WhenArm.sameAll, x.same_iff, WhenArm.sameAll_iff xs]
termination_by structural a => a

theorem Call.same_iff : ∀ a b : Call, a.same b = true ↔ a = b
  | ⟨_, args, _, _, order, filter, window, _⟩, ⟨_, _, _, _, _, _, _, _⟩ => by
    simp [Call.same, Expr.sameAll_iff args, SortKey.sameAll_iff order, Expr.sameOption_iff filter,
      Window.sameOption_iff window]
    grind
termination_by structural a => a

theorem Window.same_iff : ∀ a b : Window, a.same b = true ↔ a = b
  | ⟨partition, order, _⟩, ⟨_, _, _⟩ => by
    simp [Window.same, Expr.sameAll_iff partition, SortKey.sameAll_iff order]; grind
termination_by structural a => a

theorem Window.sameOption_iff : ∀ x y : Option Window, Window.sameOption x y = true ↔ x = y
  | none, y => by cases y <;> simp [Window.sameOption]
  | some x, y => by cases y <;> simp [Window.sameOption, x.same_iff]
termination_by structural a => a

theorem SortKey.same_iff : ∀ a b : SortKey, a.same b = true ↔ a = b
  | ⟨x, _, _, _⟩, ⟨_, _, _, _⟩ => by simp [SortKey.same, x.same_iff]; grind
termination_by structural a => a

theorem SortKey.sameAll_iff : ∀ xs ys : List SortKey, SortKey.sameAll xs ys = true ↔ xs = ys
  | [], ys => by cases ys <;> simp [SortKey.sameAll]
  | x :: xs, ys => by cases ys <;> simp [SortKey.sameAll, x.same_iff, SortKey.sameAll_iff xs]
termination_by structural a => a

theorem Select.same_iff : ∀ a b : Select, a.same b = true ↔ a = b
  | ⟨ctes, body, order, limit, offset, _⟩, ⟨_, _, _, _, _, _⟩ => by
    simp [Select.same, Cte.sameAll_iff ctes, body.same_iff, SortKey.sameAll_iff order,
      Expr.sameOption_iff limit, Expr.sameOption_iff offset]
    grind
termination_by structural a => a

theorem Body.same_iff : ∀ a b : Body, a.same b = true ↔ a = b
  | .values rows, b => by cases b <;> simp [Body.same, Expr.sameRows_iff rows]
  | .query _ ts fs c gs h, b => by
    cases b <;> simp [Body.same, Target.sameAll_iff ts, FromItem.sameAll_iff fs,
      Expr.sameOption_iff c, Expr.sameAll_iff gs, Expr.sameOption_iff h]
    grind
  | .combine _ _ l r, b => by cases b <;> simp [Body.same, l.same_iff, r.same_iff]; grind
termination_by structural a => a

theorem Cte.same_iff : ∀ a b : Cte, a.same b = true ↔ a = b
  | ⟨_, _, query, _⟩, ⟨_, _, _, _⟩ => by simp [Cte.same, query.same_iff]; grind
termination_by structural a => a

theorem Cte.sameAll_iff : ∀ xs ys : List Cte, Cte.sameAll xs ys = true ↔ xs = ys
  | [], ys => by cases ys <;> simp [Cte.sameAll]
  | x :: xs, ys => by cases ys <;> simp [Cte.sameAll, x.same_iff, Cte.sameAll_iff xs]
termination_by structural a => a

theorem Target.same_iff : ∀ a b : Target, a.same b = true ↔ a = b
  | ⟨x, _, _⟩, ⟨_, _, _⟩ => by simp [Target.same, x.same_iff]; grind
termination_by structural a => a

theorem Target.sameAll_iff : ∀ xs ys : List Target, Target.sameAll xs ys = true ↔ xs = ys
  | [], ys => by cases ys <;> simp [Target.sameAll]
  | x :: xs, ys => by cases ys <;> simp [Target.sameAll, x.same_iff, Target.sameAll_iff xs]
termination_by structural a => a

theorem FromItem.same_iff : ∀ a b : FromItem, a.same b = true ↔ a = b
  | .table _, f => by cases f <;> simp [FromItem.same]
  | .subquery q _ _ _, f => by cases f <;> simp [FromItem.same, q.same_iff]; grind
  | .call c _ _, f => by cases f <;> simp [FromItem.same, c.same_iff]; grind
  | .join _ l r c _ _, f => by
    cases f <;> simp [FromItem.same, l.same_iff, r.same_iff, Expr.sameOption_iff c]; grind
termination_by structural a => a

theorem FromItem.sameAll_iff : ∀ xs ys : List FromItem, FromItem.sameAll xs ys = true ↔ xs = ys
  | [], ys => by cases ys <;> simp [FromItem.sameAll]
  | x :: xs, ys => by cases ys <;> simp [FromItem.sameAll, x.same_iff, FromItem.sameAll_iff xs]
termination_by structural a => a

end

/-! ## The instances -/

instance : DecidableEq Expr := fun a b => decidable_of_iff _ (a.same_iff b)
instance : DecidableEq Call := fun a b => decidable_of_iff _ (a.same_iff b)
instance : DecidableEq SortKey := fun a b => decidable_of_iff _ (a.same_iff b)
instance : DecidableEq Select := fun a b => decidable_of_iff _ (a.same_iff b)
instance : DecidableEq Cte := fun a b => decidable_of_iff _ (a.same_iff b)
instance : DecidableEq Target := fun a b => decidable_of_iff _ (a.same_iff b)
instance : DecidableEq FromItem := fun a b => decidable_of_iff _ (a.same_iff b)

deriving instance DecidableEq for
  Assignment, ConflictAction, Conflict, RowSource, Insert, Update, Delete, Statement

end SqlVet
