import Tang.Builtin.Apply
import Tang.Scope

/-! The world that programs change, and the steps by which evaluation changes it. -/

namespace Tang

/-- What evaluation changes: the scopes, the number of functions created and the output. -/
structure World where
  scopes : Scopes
  created : Nat
  sink : Sink

namespace World

/-- The scope in which programs are run. -/
def global : ScopeId := 0

/-- A world before its first program. Functions are numbered from `created` on. -/
def initial (capacity : Option Nat) (created : Nat) : World :=
  ⟨.initial, created, .empty capacity⟩

/-- Runs an action on the output. -/
def onSink {ε α : Type} (action : EStateM ε Sink α) : EStateM ε World α :=
  fun ⟨scopes, created, sink⟩ =>
    match action sink with
    | .ok value sink => .ok value ⟨scopes, created, sink⟩
    | .error error sink => .error error ⟨scopes, created, sink⟩

end World

abbrev Eval := EStateM Signal World

namespace Eval

open Signal (fail)

/-! ### Steps -/

def declare (scope : ScopeId) (name : String) (value : Value) : Eval Unit :=
  fun ⟨scopes, created, sink⟩ => .ok () ⟨scopes.set scope name value, created, sink⟩

def assign (scope : ScopeId) (name : String) (value : Value) : Eval Unit :=
  fun ⟨scopes, created, sink⟩ => .ok () ⟨scopes.assign scope name value, created, sink⟩

/-- Opens a new scope inside another one. -/
def enclose (scope : ScopeId) : Eval ScopeId :=
  fun ⟨scopes, created, sink⟩ => .ok scopes.size ⟨scopes.enclose scope, created, sink⟩

/-- Binds parameters to arguments, from the first to the last. -/
def bindAll (scope : ScopeId) : List (String × Value) → Eval Unit
  | [] => pure ()
  | (name, value) :: rest => do
    declare scope name value
    bindAll scope rest

/-- Creates a function that is different from all others. -/
def create (params : List String) (body : List Stmt) (scope : ScopeId) : Eval Value :=
  fun ⟨scopes, created, sink⟩ =>
    .ok (.function ⟨created, params, body, scope⟩) ⟨scopes, created + 1, sink⟩

/-- The value of a name: that of its binding, or else the builtin function of that name. -/
def lookup (scope : ScopeId) (name : String) : Eval Value := do
  match (← get).scopes.get? scope name with
  | some value => return value
  | none =>
    match Builtin.ofName? name with
    | some builtin => return .builtin builtin
    | none => fail (.unboundName name)

/-- The value of a block, which is null unless its last statement has one. -/
@[inline] def orNull (body : Eval (Option Value)) : Eval Value :=
  return (← body).getD .null

/-- Ends a `return` at the boundary of a function. -/
@[inline] def returned (body : Eval Value) : Eval Value :=
  fun world =>
    match body world with
    | .error (.ret value) world => .ok value world
    | result => result

end Eval

end Tang
