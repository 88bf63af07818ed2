import Tang.Outcome

/-! A machine that evaluates without knowing that it will come to an end. It counts the active calls
in a counter that it raises and lowers, runs the body of a function where it is called, and walks
from scope to scope to find a name. Each recursion takes one unit of fuel, and the machine gives up
when there is none left. -/

namespace Tang.Machine

open Signal (fail lift)

/-! ### Runs -/

/-- A run starts in a world with a number of active calls. It ends in a result and a number of
active calls, unless the fuel runs out. -/
def Run (α : Type) := World → Nat → Option (EStateM.Result Signal World α × Nat)

namespace Run

variable {α β : Type}

def outOfFuel : Run α := fun _ _ => none

/-- An action that does not recurse. -/
def step (action : Eval α) : Run α := fun world depth => some (action world, depth)

def bind (run : Run α) (next : α → Run β) : Run β := fun world depth =>
  match run world depth with
  | none => none
  | some (.ok a world, depth) => next a world depth
  | some (.error signal world, depth) => some (.error signal world, depth)

instance : Monad Run where
  pure a := step (pure a)
  bind := bind

def activeCalls : Run Nat := fun world depth => some (.ok depth world, depth)

def setActiveCalls (depth : Nat) : Run Unit := fun world _ => some (.ok () world, depth)

/-- Goes on after a signal, with the signal as a result. -/
def attempt (run : Run α) : Run (Except Signal α) := fun world depth =>
  match run world depth with
  | none => none
  | some (.ok a world, depth) => some (.ok (.ok a) world, depth)
  | some (.error signal world, depth) => some (.ok (.error signal) world, depth)

end Run

open Run

/-! ### Names -/

/-- The nearest scope from `id` outward that binds a name. -/
def owner? (scopes : Scopes) (name : String) : (fuel : Nat) → ScopeId → Option (Option ScopeId)
  | 0, _ => none
  | fuel + 1, id =>
    match scopes[id]? with
    | none => some none
    | some scope =>
      if (scope.get? name).isSome then some (some id)
      else
        match scope.parent with
        | none => some none
        | some parent => owner? scopes name fuel parent

/-- The scope that binds a name, found from `scope` outward. -/
def find (fuel : Nat) (scope : ScopeId) (name : String) : Run (Option ScopeId) :=
  fun world depth => (owner? world.scopes name fuel scope).map fun owner => (.ok owner world, depth)

/-- The value that a name has in the scope that binds it, or else that of the builtin function. -/
def valueIn (owner : Option ScopeId) (name : String) : Eval Value := do
  let scopes := (← get).scopes
  match owner.bind fun id => scopes[id]?.bind (·.get? name) with
  | some value => return value
  | none =>
    match Builtin.ofName? name with
    | some builtin => return .builtin builtin
    | none => fail (.unboundName name)

def lookup (fuel : Nat) (scope : ScopeId) (name : String) : Run Value := do
  let owner ← find fuel scope name
  step (valueIn owner name)

def assign (fuel : Nat) (scope : ScopeId) (name : String) (value : Value) : Run Unit := do
  let owner ← find fuel scope name
  step (Eval.declare (owner.getD scope) name value)

/-! ### Evaluation -/

mutual

def expr (limit : Nat) : (fuel : Nat) → ScopeId → Expr → Run Value
  | 0, _, _ => outOfFuel
  | fuel + 1, scope, e =>
    match e with
    | .int n => return .int n
    | .str text => return .str text
    | .bool b => return .bool b
    | .null => return .null
    | .var name => lookup fuel scope name
    | .unary op a => do
      let value ← expr limit fuel scope a
      step (lift (Value.unary op value))
    | .binary op a b => do
      let l ← expr limit fuel scope a
      let r ← expr limit fuel scope b
      step (lift (Value.binary op l r))
    | .cond test body otherwise => do
      let value ← expr limit fuel scope test
      if value.truthy then
        let inner ← step (Eval.enclose scope)
        let last ← stmts limit fuel inner none body
        return last.getD .null
      else
        branch limit fuel scope otherwise
    | .fn params body => step (Eval.create params body scope)
    | .call callee args => do
      let f ← expr limit fuel scope callee
      let values ← exprs limit fuel scope args
      call limit fuel f values
    | .index target position => do
      let t ← expr limit fuel scope target
      let p ← expr limit fuel scope position
      step (lift (Value.index t p))
    | .list elements => return .list (← exprs limit fuel scope elements)
    | .tuple elements => return .tuple (← exprs limit fuel scope elements)
    | .map ps => return .map (← pairs limit fuel scope [] ps)
termination_by structural fuel => fuel

def exprs (limit : Nat) : (fuel : Nat) → ScopeId → List Expr → Run (List Value)
  | 0, _, _ => outOfFuel
  | _ + 1, _, [] => return []
  | fuel + 1, scope, e :: es => do
    let value ← expr limit fuel scope e
    return value :: (← exprs limit fuel scope es)
termination_by structural fuel => fuel

def pairs (limit : Nat) : (fuel : Nat) → ScopeId → Entries → List (Expr × Expr) → Run Entries
  | 0, _, _, _ => outOfFuel
  | _ + 1, _, entries, [] => return entries
  | fuel + 1, scope, entries, (a, b) :: ps => do
    let keyValue ← expr limit fuel scope a
    match keyValue.key? with
    | none => step (fail (.notKey keyValue.tag))
    | some key =>
      let value ← expr limit fuel scope b
      pairs limit fuel scope (Entries.insert key value entries) ps
termination_by structural fuel => fuel

def stmt (limit : Nat) : (fuel : Nat) → ScopeId → Stmt → Run (Option Value)
  | 0, _, _ => outOfFuel
  | fuel + 1, scope, s =>
    match s with
    | .declare name a => do
      let value ← expr limit fuel scope a
      step (Eval.declare scope name value)
      return none
    | .assign name a => do
      let value ← expr limit fuel scope a
      assign fuel scope name value
      return none
    | .ret none => step (throw (.ret .null))
    | .ret (some a) => do
      let value ← expr limit fuel scope a
      step (throw (.ret value))
    | .expr a => return some (← expr limit fuel scope a)
termination_by structural fuel => fuel

def stmts (limit : Nat) :
    (fuel : Nat) → ScopeId → Option Value → List Stmt → Run (Option Value)
  | 0, _, _, _ => outOfFuel
  | _ + 1, _, last, [] => return last
  | fuel + 1, scope, _, s :: ss => do
    let last ← stmt limit fuel scope s
    stmts limit fuel scope last ss
termination_by structural fuel => fuel

def branch (limit : Nat) : (fuel : Nat) → ScopeId → Option (List Stmt) → Run Value
  | 0, _, _ => outOfFuel
  | _ + 1, _, none => return .null
  | fuel + 1, scope, some body => do
    let inner ← step (Eval.enclose scope)
    let last ← stmts limit fuel inner none body
    return last.getD .null
termination_by structural fuel => fuel

/-- The counter is raised while the body of a function runs and then set back, whatever the body
ends in. -/
def call (limit : Nat) : (fuel : Nat) → Value → List Value → Run Value
  | 0, _, _ => outOfFuel
  | fuel + 1, callee, args =>
    match callee with
    | .builtin builtin => step (World.onSink (builtin.apply args))
    | .function f =>
      if args.length = f.params.length then do
        let depth ← activeCalls
        if limit ≤ depth then
          step (fail (.callTooDeep limit))
        else
          let inner ← step (Eval.enclose f.scope)
          step (Eval.bindAll inner (f.params.zip args))
          setActiveCalls (depth + 1)
          let result ← attempt (stmts limit fuel inner none f.body)
          setActiveCalls depth
          match result with
          | .ok last => return last.getD .null
          | .error (.ret value) => return value
          | .error signal => step (throw signal)
      else
        step (fail (.wrongArity f.params.length args.length))
    | value => step (fail (.notFunction value.tag))
termination_by structural fuel => fuel

end

/-- Runs a program with no call active. -/
def runProgram (limit fuel : Nat) (scope : ScopeId) (program : Program) (world : World) :
    Option (Outcome × World) :=
  (stmts limit fuel scope none program world 0).map fun result => Outcome.ofResult result.1

end Tang.Machine
