import Tang.Proofs.Congruence
import Tang.Proofs.Counters

/-! Calls with a counter. Evaluation may count the calls that are nested, where a call raises the
counter for the body of the function and sets it back behind the body. This is evaluation with as
many calls left as there are between the counter and the limit, and the counter is kept. -/

namespace Tang

open Counting (lift count setCount enter)
open Eval (declare assign enclose bindAll create lookup)
open Signal (fail)

/-! ### Evaluation with a counter -/

abbrev CountingEval := Counting Signal World

abbrev CountingCaller := Value → List Value → CountingEval Value

@[inline] def CountingEval.orNull (body : CountingEval (Option Value)) : CountingEval Value :=
  return (← body).getD .null

mutual

/-- The value of an expression. Only calls have to do with the counter. -/
def Expr.counted (call : CountingCaller) (scope : ScopeId) : Expr → CountingEval Value
  | .int n => return .int n
  | .str text => return .str text
  | .bool b => return .bool b
  | .null => return .null
  | .var name => lift (lookup scope name)
  | .unary op operand => do
    let value ← operand.counted call scope
    lift (Signal.lift (Value.unary op value))
  | .binary op left right => do
    let l ← left.counted call scope
    let r ← right.counted call scope
    lift (Signal.lift (Value.binary op l r))
  | .cond test body otherwise => do
    let value ← test.counted call scope
    if value.truthy then
      let inner ← lift (enclose scope)
      CountingEval.orNull (Stmt.countedAll call inner none body)
    else
      Stmt.countedElse call scope otherwise
  | .fn params body => lift (create params body scope)
  | .call callee args => do
    let f ← callee.counted call scope
    let values ← Expr.countedAll call scope args
    call f values
  | .index target position => do
    let t ← target.counted call scope
    let p ← position.counted call scope
    lift (Signal.lift (Value.index t p))
  | .list elements => return .list (← Expr.countedAll call scope elements)
  | .tuple elements => return .tuple (← Expr.countedAll call scope elements)
  | .map pairs => return .map (← Expr.countedPairs call scope [] pairs)

def Expr.countedAll (call : CountingCaller) (scope : ScopeId) :
    List Expr → CountingEval (List Value)
  | [] => return []
  | expr :: exprs => do
    let value ← expr.counted call scope
    return value :: (← Expr.countedAll call scope exprs)

def Expr.countedPairs (call : CountingCaller) (scope : ScopeId) (entries : Entries) :
    List (Expr × Expr) → CountingEval Entries
  | [] => return entries
  | (keyExpr, valueExpr) :: pairs => do
    let keyValue ← keyExpr.counted call scope
    match keyValue.key? with
    | none => lift (fail (.notKey keyValue.tag))
    | some key =>
      let value ← valueExpr.counted call scope
      Expr.countedPairs call scope (Entries.insert key value entries) pairs

def Stmt.counted (call : CountingCaller) (scope : ScopeId) : Stmt → CountingEval (Option Value)
  | .declare name expr => do
    lift (declare scope name (← expr.counted call scope))
    return none
  | .assign name expr => do
    lift (assign scope name (← expr.counted call scope))
    return none
  | .ret none => throw (.ret .null)
  | .ret (some expr) => do
    throw (.ret (← expr.counted call scope))
  | .expr expr => return some (← expr.counted call scope)

def Stmt.countedAll (call : CountingCaller) (scope : ScopeId) (last : Option Value) :
    List Stmt → CountingEval (Option Value)
  | [] => return last
  | stmt :: stmts => do
    let value ← stmt.counted call scope
    Stmt.countedAll call scope value stmts

def Stmt.countedElse (call : CountingCaller) (scope : ScopeId) :
    Option (List Stmt) → CountingEval Value
  | none => return .null
  | some body => do
    let inner ← lift (enclose scope)
    CountingEval.orNull (Stmt.countedAll call inner none body)

end

/-- What a function comes to, given what its body has come to. -/
def Signal.settled {σ : Type} : Except Signal Value → EStateM Signal σ Value
  | .error (.ret value) => return value
  | result => ofExcept result

/-- Calls a value with arguments, where the calls inside are made with `again`. -/
def nextCall (limit : Nat) (again : Value × List Value → CountingEval Value) :
    Value × List Value → CountingEval Value
  | (.builtin builtin, args) => lift (World.onSink (builtin.apply args))
  | (.function f, args) =>
    if args.length = f.params.length then do
      let depth ← count
      if limit ≤ depth then
        lift (fail (.callTooDeep limit))
      else
        let inner ← lift (enclose f.scope)
        lift (bindAll inner (f.params.zip args))
        setCount (depth + 1)
        enter
        let result ← observing
          (CountingEval.orNull (Stmt.countedAll (fun g args => again (g, args)) inner none f.body))
        -- whatever the body has come to
        setCount depth
        Signal.settled result
    else
      lift (fail (.wrongArity f.params.length args.length))
  | (value, _) => lift (fail (.notFunction value.tag))

/-- Calls a value, where the counter says how many calls are open. -/
def callCounted (limit : Nat) : CountingCaller := fun f args =>
  Counting.recurring limit (lift (fail (.callTooDeep limit))) (nextCall limit) (f, args)

/-! ### Balance -/

open Counting (Balanced)

variable {limit n : Nat}

theorem Counting.Balanced.orNull {x : CountingEval (Option Value)} {y : Eval (Option Value)}
    (h : Balanced limit n x y) : Balanced limit n (CountingEval.orNull x) (Eval.orNull y) :=
  h.bind fun _ => .pure _

section Evaluation

variable {call : CountingCaller} {call' : Caller}

mutual

theorem Expr.balanced (hc : ∀ f args, Balanced limit n (call f args) (call' f args)) :
    (e : Expr) → ∀ scope, Balanced limit n (e.counted call scope) (e.eval call' scope)
  | .int _, _ | .str _, _ | .bool _, _ | .null, _ => .pure _
  | .var _, _ => .lift _
  | .unary _ a, scope => (a.balanced hc scope).bind fun _ => .lift _
  | .binary _ a b, scope =>
    (a.balanced hc scope).bind fun _ => (b.balanced hc scope).bind fun _ => .lift _
  | .cond test body otherwise, scope => by
    refine (test.balanced hc scope).bind fun value => ?_
    split
    · exact .lift_bind fun inner =>
        (Stmt.balanced_all hc body inner none).orNull
    · exact Stmt.balanced_else hc otherwise scope
  | .fn _ _, _ => .lift _
  | .call callee args, scope =>
    (callee.balanced hc scope).bind fun f =>
      (Expr.balanced_all hc args scope).bind fun values => hc f values
  | .index target position, scope =>
    (target.balanced hc scope).bind fun _ => (position.balanced hc scope).bind fun _ => .lift _
  | .list elements, scope => (Expr.balanced_all hc elements scope).bind fun _ => .pure _
  | .tuple elements, scope => (Expr.balanced_all hc elements scope).bind fun _ => .pure _
  | .map pairs, scope => (Expr.balanced_pairs hc pairs scope []).bind fun _ => .pure _

theorem Expr.balanced_all (hc : ∀ f args, Balanced limit n (call f args) (call' f args)) :
    (es : List Expr) → ∀ scope,
      Balanced limit n (Expr.countedAll call scope es) (Expr.evalAll call' scope es)
  | [], _ => .pure _
  | e :: es, scope =>
    (e.balanced hc scope).bind fun _ => (Expr.balanced_all hc es scope).bind fun _ => .pure _

theorem Expr.balanced_pairs (hc : ∀ f args, Balanced limit n (call f args) (call' f args)) :
    (pairs : List (Expr × Expr)) → ∀ scope entries,
      Balanced limit n (Expr.countedPairs call scope entries pairs)
        (Expr.evalPairs call' scope entries pairs)
  | [], _, _ => .pure _
  | (a, b) :: pairs, scope, entries => by
    refine (a.balanced hc scope).bind fun keyValue => ?_
    cases keyValue.key? with
    | none => exact .lift _
    | some key =>
      exact (b.balanced hc scope).bind fun _ => Expr.balanced_pairs hc pairs scope _

theorem Stmt.balanced (hc : ∀ f args, Balanced limit n (call f args) (call' f args)) :
    (s : Stmt) → ∀ scope, Balanced limit n (s.counted call scope) (s.eval call' scope)
  | .declare _ a, scope =>
    (a.balanced hc scope).bind fun _ => .lift_bind fun _ => .pure _
  | .assign _ a, scope =>
    (a.balanced hc scope).bind fun _ => .lift_bind fun _ => .pure _
  | .ret none, _ => .throw _
  | .ret (some a), scope => (a.balanced hc scope).bind fun _ => .throw _
  | .expr a, scope => (a.balanced hc scope).bind fun _ => .pure _

theorem Stmt.balanced_all (hc : ∀ f args, Balanced limit n (call f args) (call' f args)) :
    (ss : List Stmt) → ∀ scope last,
      Balanced limit n (Stmt.countedAll call scope last ss) (Stmt.evalAll call' scope last ss)
  | [], _, _ => .pure _
  | s :: ss, scope, _ => (s.balanced hc scope).bind fun last => Stmt.balanced_all hc ss scope last

theorem Stmt.balanced_else (hc : ∀ f args, Balanced limit n (call f args) (call' f args)) :
    (body : Option (List Stmt)) → ∀ scope,
      Balanced limit n (Stmt.countedElse call scope body) (Stmt.evalElse call' scope body)
  | none, _ => .pure _
  | some body, _ =>
    .lift_bind fun inner => (Stmt.balanced_all hc body inner none).orNull

end

end Evaluation

/-! ### Calls -/

theorem Eval.returned_eq (body : Eval Value) :
    Eval.returned body = observing body >>= Signal.settled := by
  funext world
  cases h : body world with
  | ok value world' =>
    rw [Action.bind_of_ok (Action.observing_of_ok h)]
    simp only [Eval.returned, h]
    rfl
  | error signal world' =>
    rw [Action.bind_of_ok (Action.observing_of_error h)]
    cases signal <;> simp only [Eval.returned, h] <;> rfl

theorem balanced_settled (result : Except Signal Value) :
    Balanced limit n (Signal.settled result : CountingEval Value) (Signal.settled result) := by
  cases result with
  | ok value => exact .pure value
  | error signal => cases signal <;> first | exact .pure _ | exact .throw _

/-- One call takes one of the calls that are left. -/
theorem balanced_nextCall {again : Value × List Value → CountingEval Value}
    (h : n < limit → ∀ i : Value × List Value,
      Balanced limit (n + 1) (again i) (callWithin limit (limit - (n + 1)) i.1 i.2))
    (i : Value × List Value) :
    Balanced limit n (nextCall limit again i) (callWithin limit (limit - n) i.1 i.2) := by
  obtain ⟨f, args⟩ := i
  cases f with
  | builtin which =>
    simp only [nextCall, callWithin]
    exact .lift _
  | function f =>
    by_cases harity : args.length = f.params.length
    · simp only [nextCall, if_pos harity]
      refine .count ?_
      by_cases hdeep : limit ≤ n
      · have hleft : limit - n = 0 := Nat.sub_eq_zero_of_le hdeep
        simp only [if_pos hdeep, hleft, callWithin, if_pos harity]
        exact .lift _
      · have hlt : n < limit := Nat.lt_of_not_le hdeep
        have hleft : limit - n = limit - (n + 1) + 1 := by omega
        simp only [if_neg hdeep, hleft, callWithin, if_pos harity, Eval.returned_eq]
        refine .lift_bind fun inner => .lift_bind fun _ => ?_
        refine .guarded hlt ?_ (fun _ _ _ => rfl) balanced_settled
        exact (Stmt.balanced_all (fun g args => h hlt (g, args)) f.body inner none).orNull
    · rw [callWithin_of_arity_ne harity]
      simp only [nextCall, if_neg harity]
      exact .lift _
  | _ =>
    simp only [nextCall, callWithin]
    exact .lift _

theorem balanced_callCounted (limit n : Nat) (f : Value) (args : List Value) :
    Balanced limit n (callCounted limit f args) (callWithin limit (limit - n) f args) :=
  Counting.balanced_recurring (fun _ _ h => balanced_nextCall h) n (f, args)

end Tang
