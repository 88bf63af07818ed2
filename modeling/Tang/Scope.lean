import Tang.Value

/-! Scopes: each binds names to values and, except for a global one, lies inside a scope that is
older than it. A name belongs to the nearest scope around that binds it. -/

namespace Tang

structure Scope where
  parent : Option ScopeId
  bindings : List (String × Value)

namespace Scope

def get? (scope : Scope) (name : String) : Option Value :=
  scope.bindings.lookup name

/-- Binds a name, in place of the value it had. -/
def put (name : String) (value : Value) : List (String × Value) → List (String × Value)
  | [] => [(name, value)]
  | binding :: bindings =>
    if binding.1 = name then (name, value) :: bindings else binding :: put name value bindings

def set (scope : Scope) (name : String) (value : Value) : Scope :=
  { scope with bindings := put name value scope.bindings }

theorem lookup_cons (y : String) (binding : String × Value) (bindings : List (String × Value)) :
    (binding :: bindings).lookup y =
      if y = binding.1 then some binding.2 else bindings.lookup y := by
  obtain ⟨x, value⟩ := binding
  by_cases h : y = x
  · simp [h]
  · simp [List.lookup_cons, h, beq_false_of_ne h]

theorem lookup_put (x y : String) (value : Value) (bindings : List (String × Value)) :
    (put x value bindings).lookup y = if y = x then some value else bindings.lookup y := by
  induction bindings with
  | nil => exact lookup_cons y (x, value) []
  | cons binding bindings ih =>
    by_cases hx : binding.1 = x
    · rw [put, if_pos hx, lookup_cons, lookup_cons, hx]
      split <;> rfl
    · rw [put, if_neg hx, lookup_cons, lookup_cons, ih]
      by_cases hy : y = x
      · rw [if_pos hy, if_pos hy, if_neg (hy ▸ Ne.symm hx)]
      · rw [if_neg hy, if_neg hy]

/-- A scope shows the value it was given last. -/
theorem get?_set (scope : Scope) (x y : String) (value : Value) :
    (scope.set x value).get? y = if y = x then some value else scope.get? y :=
  lookup_put x y value scope.bindings

end Scope

/-- All scopes of a session, the oldest first. -/
abbrev Scopes := Array Scope

namespace Scopes

/-- A global scope without bindings. -/
def initial : Scopes := #[⟨none, []⟩]

/-- The nearest scope, from `id` outward, that binds a name. -/
def owner? (scopes : Scopes) (id : ScopeId) (name : String) : Option ScopeId :=
  match scopes[id]? with
  | none => none
  | some scope =>
    if (scope.get? name).isSome then some id
    else
      match scope.parent with
      | none => none
      | some parent => if parent < id then owner? scopes parent name else none
termination_by id

/-- The value of a name seen from a scope. -/
def get? (scopes : Scopes) (id : ScopeId) (name : String) : Option Value := do
  let owner ← owner? scopes id name
  let scope ← scopes[owner]?
  scope.get? name

/-- Binds a name in one scope. -/
def set (scopes : Scopes) (id : ScopeId) (name : String) (value : Value) : Scopes :=
  scopes.modify id fun scope => scope.set name value

/-- Rebinds a name where it is bound, or binds it here if it is bound nowhere. -/
def assign (scopes : Scopes) (id : ScopeId) (name : String) (value : Value) : Scopes :=
  scopes.set ((scopes.owner? id name).getD id) name value

/-- A new scope inside `parent`. Its number is the number of scopes before. -/
def enclose (scopes : Scopes) (parent : ScopeId) : Scopes :=
  scopes.push ⟨some parent, []⟩

end Scopes

end Tang
