import Mathlib.Logic.Relation
import Tang.Proofs.Unwinding

/-! The course of a session, moment by moment. A moment is what is done next, what waits for its
result, the world, and the programs that are still to be run. Each step does one thing only, so that
all there is at any time can be seen: the values computed so far, the arguments of every call, and
the scopes. -/

namespace Tang.Course

open Eval
open Signal (fail lift)

/-! ### Moments -/

/-- What the values of a row of expressions are for. -/
inductive Purpose where
  | list
  | tuple
  | call (f : Value)

/-- What is done next. -/
inductive Task where
  | expr (e : Expr) (scope : ScopeId)
  /-- The rest of a row of expressions, behind the values of those before. -/
  | row (purpose : Purpose) (values : List Value) (rest : List Expr) (scope : ScopeId)
  | pairs (entries : Entries) (rest : List (Expr × Expr)) (scope : ScopeId)
  /-- The rest of some statements; `last` is the value of the statement before. -/
  | block (last : Option Value) (rest : List Stmt) (scope : ScopeId)
  | call (f : Value) (args : List Value)
  /-- Hands a value to what waits for it. -/
  | value (value : Value)
  /-- Takes a signal through what waits. -/
  | signal (signal : Signal)

/-- What waits for a value. -/
inductive Frame where
  | operand (op : UnaryOp)
  | left (op : BinaryOp) (right : Expr) (scope : ScopeId)
  | right (op : BinaryOp) (left : Value)
  | test (body : List Stmt) (otherwise : Option (List Stmt)) (scope : ScopeId)
  | callee (args : List Expr) (scope : ScopeId)
  | row (purpose : Purpose) (values : List Value) (rest : List Expr) (scope : ScopeId)
  | target (position : Expr) (scope : ScopeId)
  | position (target : Value)
  | key (entries : Entries) (value : Expr) (rest : List (Expr × Expr)) (scope : ScopeId)
  | entry (entries : Entries) (key : Key) (rest : List (Expr × Expr)) (scope : ScopeId)
  | stmt (stub : Stub) (rest : List Stmt) (scope : ScopeId)
  /-- The end of a function. -/
  | function

/-- A moment of a session. The frame that waits for what is done next comes first. -/
structure Moment where
  task : Task
  waiting : List Frame
  world : World
  pending : List Program

/-- The number of calls that have not ended. -/
def active : List Frame → Nat
  | [] => 0
  | .function :: waiting => active waiting + 1
  | _ :: waiting => active waiting

/-! ### Steps -/

/-- The task that a step leads to, and a frame that begins to wait for its value. -/
abbrev Move := Task × List Frame

def Purpose.finish : Purpose → List Value → Task
  | .list, values => .value (.list values)
  | .tuple, values => .value (.tuple values)
  | .call f, values => .call f values

def start (scope : ScopeId) : Expr → Eval Move
  | .int n => return (.value (.int n), [])
  | .str text => return (.value (.str text), [])
  | .bool b => return (.value (.bool b), [])
  | .null => return (.value .null, [])
  | .var name => return (.value (← lookup scope name), [])
  | .unary op a => return (.expr a scope, [.operand op])
  | .binary op a b => return (.expr a scope, [.left op b scope])
  | .cond test body otherwise => return (.expr test scope, [.test body otherwise scope])
  | .fn params body => return (.value (← create params body scope), [])
  | .call callee args => return (.expr callee scope, [.callee args scope])
  | .index target position => return (.expr target scope, [.target position scope])
  | .list elements => return (.row .list [] elements scope, [])
  | .tuple elements => return (.row .tuple [] elements scope, [])
  | .map pairs => return (.pairs [] pairs scope, [])

/-- What a statement does with the value that it needs. -/
def finish (scope : ScopeId) (value : Value) : Stub → Eval (Option Value)
  | .declare name => do
    declare scope name value
    return none
  | .assign name => do
    assign scope name value
    return none
  | .ret => throw (.ret value)
  | .expr => return some value

/-- Goes on with a value. -/
def Frame.resume (v : Value) : Frame → Eval Move
  | .operand op => return (.value (← lift (v.unary op)), [])
  | .left op b scope => return (.expr b scope, [.right op v])
  | .right op l => return (.value (← lift (Value.binary op l v)), [])
  | .test body otherwise scope =>
    match if v.truthy then some body else otherwise with
    | some branch => return (.block none branch (← enclose scope), [])
    | none => return (.value .null, [])
  | .callee args scope => return (.row (.call v) [] args scope, [])
  | .row purpose values rest scope => return (.row purpose (values ++ [v]) rest scope, [])
  | .target p scope => return (.expr p scope, [.position v])
  | .position t => return (.value (← lift (t.index v)), [])
  | .key entries valueExpr rest scope =>
    match v.key? with
    | some k => return (.expr valueExpr scope, [.entry entries k rest scope])
    | none => fail (.notKey v.tag)
  | .entry entries k rest scope => return (.pairs (Entries.insert k v entries) rest scope, [])
  | .stmt stub rest scope => return (.block (← finish scope v stub) rest scope, [])
  | .function => return (.value v, [])

/-- Only the end of a function stops a signal, and only a `return`. -/
def Frame.unwind : Frame → Signal → Task
  | .function, .ret v => .value v
  | _, s => .signal s

/-- Calls a value when so many calls have not ended. -/
def enter (limit calls : Nat) (args : List Value) : Value → Eval Move
  | .builtin which => return (.value (← World.onSink (which.apply args)), [])
  | .function f =>
    if args.length = f.params.length then
      if calls < limit then
        return (.block none f.body (← f.enter args), [.function])
      else
        fail (.callTooDeep limit)
    else
      fail (.wrongArity f.params.length args.length)
  | value => fail (.notFunction value.tag)

/-- A step of a task that hands on neither a value nor a signal. -/
def Task.proceed (limit calls : Nat) : Task → Eval Move
  | .expr e scope => start scope e
  | .row purpose values [] _ => return (purpose.finish values, [])
  | .row purpose values (e :: es) scope => return (.expr e scope, [.row purpose values es scope])
  | .pairs entries [] _ => return (.value (.map entries), [])
  | .pairs entries ((a, b) :: rest) scope => return (.expr a scope, [.key entries b rest scope])
  | .block last [] _ => return (.value (last.getD .null), [])
  | .block _ (.declare name e :: rest) scope =>
    return (.expr e scope, [.stmt (.declare name) rest scope])
  | .block _ (.assign name e :: rest) scope =>
    return (.expr e scope, [.stmt (.assign name) rest scope])
  | .block _ (.ret none :: _) _ => throw (.ret .null)
  | .block _ (.ret (some e) :: rest) scope => return (.expr e scope, [.stmt .ret rest scope])
  | .block _ (.expr e :: rest) scope => return (.expr e scope, [.stmt .expr rest scope])
  | .call f args => enter limit calls args f
  | .value v => return (.value v, [])
  | .signal s => throw s

/-- The moment after a move. A signal goes to what waits. -/
def settle (waiting : List Frame) (pending : List Program) :
    EStateM.Result Signal World Move → Moment
  | .ok (task, frames) world => ⟨task, frames ++ waiting, world, pending⟩
  | .error s world => ⟨.signal s, waiting, world, pending⟩

namespace Moment

/-- What a program has come to at the moment, if it is at its end. -/
def outcome? : Moment → Option Outcome
  | ⟨.block last [] _, [], _, _⟩ => some (.value last)
  | ⟨.signal s, [], world, _⟩ => some (Outcome.ofResult (.error s world)).1
  | _ => none

/-- The next program is run in the global scope. -/
def next? (limit : Nat) : Moment → Option Moment
  | ⟨.value _, [], _, _⟩ => none
  | ⟨.value v, frame :: waiting, world, pending⟩ =>
    some (settle waiting pending (frame.resume v world))
  | ⟨.signal s, frame :: waiting, world, pending⟩ =>
    some ⟨frame.unwind s, waiting, world, pending⟩
  | ⟨.signal _, [], _, []⟩ | ⟨.block _ [] _, [], _, []⟩ => none
  | ⟨.signal _, [], world, program :: pending⟩ | ⟨.block _ [] _, [], world, program :: pending⟩ =>
    some ⟨.block none program World.global, [], world, pending⟩
  | ⟨task, waiting, world, pending⟩ =>
    some (settle waiting pending (task.proceed limit (active waiting) world))

/-- A session before its first program. -/
def begin (programs : List Program) (world : World) : Moment :=
  ⟨.block none [] World.global, [], world, programs⟩

end Moment

/-- One moment comes after another, or is the same. -/
def Steps (limit : Nat) : Moment → Moment → Prop :=
  Relation.ReflTransGen fun m m' => m.next? limit = some m'

end Tang.Course
