import Tang.Value.Operators
import Tang.World

/-! Evaluation. An expression is evaluated by recursion on its syntax, given a way to call a
function; a call is evaluated by recursion on the number of calls that may still be nested. So
every program comes to an end. -/

namespace Tang

/-! ### Expressions and statements -/

open Eval
open Signal (fail lift)

/-- How a value is called with arguments. -/
abbrev Caller := Value → List Value → Eval Value

mutual

def Expr.eval (call : Caller) (scope : ScopeId) : Expr → Eval Value
  | .int n => return .int n
  | .str text => return .str text
  | .bool b => return .bool b
  | .null => return .null
  | .var name => lookup scope name
  | .unary op operand => do
    let value ← operand.eval call scope
    lift (Value.unary op value)
  | .binary op left right => do
    let l ← left.eval call scope
    let r ← right.eval call scope
    lift (Value.binary op l r)
  | .cond test body otherwise => do
    let value ← test.eval call scope
    if value.truthy then
      let inner ← enclose scope
      orNull (Stmt.evalAll call inner none body)
    else
      Stmt.evalElse call scope otherwise
  | .fn params body => create params body scope
  | .call callee args => do
    let f ← callee.eval call scope
    let values ← Expr.evalAll call scope args
    call f values
  | .index target position => do
    let t ← target.eval call scope
    let p ← position.eval call scope
    lift (Value.index t p)
  | .list elements => return .list (← Expr.evalAll call scope elements)
  | .tuple elements => return .tuple (← Expr.evalAll call scope elements)
  | .map pairs => return .map (← Expr.evalPairs call scope [] pairs)

def Expr.evalAll (call : Caller) (scope : ScopeId) : List Expr → Eval (List Value)
  | [] => return []
  | expr :: exprs => do
    let value ← expr.eval call scope
    return value :: (← Expr.evalAll call scope exprs)

/-- Adds the pairs of a map literal to the entries before them. -/
def Expr.evalPairs (call : Caller) (scope : ScopeId) (entries : Entries) :
    List (Expr × Expr) → Eval Entries
  | [] => return entries
  | (keyExpr, valueExpr) :: pairs => do
    let keyValue ← keyExpr.eval call scope
    match keyValue.key? with
    | none => fail (.notKey keyValue.tag)
    | some key =>
      let value ← valueExpr.eval call scope
      Expr.evalPairs call scope (Entries.insert key value entries) pairs

/-- The value of a statement, if it is an expression. -/
def Stmt.eval (call : Caller) (scope : ScopeId) : Stmt → Eval (Option Value)
  | .declare name expr => do
    declare scope name (← expr.eval call scope)
    return none
  | .assign name expr => do
    assign scope name (← expr.eval call scope)
    return none
  | .ret none => throw (.ret .null)
  | .ret (some expr) => do
    throw (.ret (← expr.eval call scope))
  | .expr expr => return some (← expr.eval call scope)

/-- The value of the last of some statements; `last` is that of the statement before them. -/
def Stmt.evalAll (call : Caller) (scope : ScopeId) (last : Option Value) :
    List Stmt → Eval (Option Value)
  | [] => return last
  | stmt :: stmts => do
    let value ← stmt.eval call scope
    Stmt.evalAll call scope value stmts

def Stmt.evalElse (call : Caller) (scope : ScopeId) : Option (List Stmt) → Eval Value
  | none => return .null
  | some body => do
    let inner ← enclose scope
    orNull (Stmt.evalAll call inner none body)

end

/-! ### Calls -/

/-- Calls a value when at most `depth` more calls may be nested, of `limit` in all. -/
def callWithin (limit : Nat) : (depth : Nat) → Caller
  | _, .builtin builtin, args => World.onSink (builtin.apply args)
  | depth, .function f, args =>
    if args.length = f.params.length then
      match depth with
      | 0 => fail (.callTooDeep limit)
      | depth + 1 => do
        let inner ← enclose f.scope
        bindAll inner (f.params.zip args)
        returned (orNull (Stmt.evalAll (callWithin limit depth) inner none f.body))
    else
      fail (.wrongArity f.params.length args.length)
  | _, value, _ => fail (.notFunction value.tag)

end Tang
