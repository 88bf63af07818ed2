import Tang.Proofs.Units

/-! Unwinding. A context is an expression, or a block of statements, with a hole. If evaluation
comes to the hole and what stands there ends in a signal, then the whole ends in that signal, in the
world in which the hole has been left: nothing behind the hole is run. A signal passes through any
nesting of contexts up to one of two boundaries. The end of a function makes a `return` its value
and lets the other signals through, and the end of a program makes every signal its outcome. -/

namespace Tang

open Eval

/-! ### Contexts -/

/-- A statement without the expression whose value it needs. -/
inductive Stub where
  | declare (name : String)
  | assign (name : String)
  | ret
  | expr

def Stub.fill : Stub → Expr → Stmt
  | .declare x, e => .declare x e
  | .assign x, e => .assign x e
  | .ret, e => .ret (some e)
  | .expr, e => .expr e

/-- Statements with one missing between them. -/
structure Gap where
  before : List Stmt
  after : List Stmt

def Gap.fill (gap : Gap) (stmt : Stmt) : List Stmt :=
  gap.before ++ stmt :: gap.after

/-- An expression without one of the expressions it is made of. -/
inductive Layer where
  | operand (op : UnaryOp)
  | left (op : BinaryOp) (right : Expr)
  | right (op : BinaryOp) (left : Expr)
  | test (body : List Stmt) (otherwise : Option (List Stmt))
  | body (test : Expr) (gap : Gap) (stub : Stub) (otherwise : Option (List Stmt))
  | otherwise (test : Expr) (body : List Stmt) (gap : Gap) (stub : Stub)
  | callee (args : List Expr)
  | argument (callee : Expr) (before after : List Expr)
  | target (position : Expr)
  | position (target : Expr)
  | element (before after : List Expr)
  | component (before after : List Expr)
  | key (before : List (Expr × Expr)) (value : Expr) (after : List (Expr × Expr))
  | value (before : List (Expr × Expr)) (key : Expr) (after : List (Expr × Expr))

def Layer.fill (e : Expr) : Layer → Expr
  | .operand op => .unary op e
  | .left op b => .binary op e b
  | .right op a => .binary op a e
  | .test yes no => .cond e yes no
  | .body a gap stub no => .cond a (gap.fill (stub.fill e)) no
  | .otherwise a yes gap stub => .cond a yes (some (gap.fill (stub.fill e)))
  | .callee args => .call e args
  | .argument f before after => .call f (before ++ e :: after)
  | .target p => .index e p
  | .position t => .index t e
  | .element before after => .list (before ++ e :: after)
  | .component before after => .tuple (before ++ e :: after)
  | .key before v after => .map (before ++ (e, v) :: after)
  | .value before k after => .map (before ++ (k, e) :: after)

/-- Layers around a hole, the outermost first. -/
abbrev Context := List Layer

def Context.fill (context : Context) (e : Expr) : Expr :=
  context.foldr (fun layer e => layer.fill e) e

/-! ### Coming to the hole -/

/-- The statements before the gap, run in the scope from the first world on, end in the second
one. -/
def Gap.Reaches (call : Caller) (gap : Gap) (scope : ScopeId) (world world' : World) : Prop :=
  ∃ last, Stmt.evalAll call scope none gap.before world = .ok last world'

/-- Evaluation of the layer in a scope and a world comes to its hole, in a scope and a world: all
that is evaluated before the hole has a value, and a block with the hole is the branch that is
taken. -/
inductive Layer.Reaches (call : Caller) : Layer → ScopeId → World → ScopeId → World → Prop where
  | operand {op : UnaryOp} {scope : ScopeId} {world : World} :
    Reaches call (.operand op) scope world scope world
  | left {op : BinaryOp} {right : Expr} {scope : ScopeId} {world : World} :
    Reaches call (.left op right) scope world scope world
  | right {op : BinaryOp} {left : Expr} {scope : ScopeId} {world world' : World} {l : Value} :
    left.eval call scope world = .ok l world' →
      Reaches call (.right op left) scope world scope world'
  | test {body : List Stmt} {otherwise : Option (List Stmt)} {scope : ScopeId} {world : World} :
    Reaches call (.test body otherwise) scope world scope world
  | body {test : Expr} {gap : Gap} {stub : Stub} {otherwise : Option (List Stmt)}
      {scope inner : ScopeId} {world world₁ world₂ world' : World} {value : Value} :
    test.eval call scope world = .ok value world₁ → value.truthy = true →
      enclose scope world₁ = .ok inner world₂ → gap.Reaches call inner world₂ world' →
        Reaches call (.body test gap stub otherwise) scope world inner world'
  | otherwise {test : Expr} {body : List Stmt} {gap : Gap} {stub : Stub}
      {scope inner : ScopeId} {world world₁ world₂ world' : World} {value : Value} :
    test.eval call scope world = .ok value world₁ → value.truthy = false →
      enclose scope world₁ = .ok inner world₂ → gap.Reaches call inner world₂ world' →
        Reaches call (.otherwise test body gap stub) scope world inner world'
  | callee {args : List Expr} {scope : ScopeId} {world : World} :
    Reaches call (.callee args) scope world scope world
  | argument {callee : Expr} {before after : List Expr} {scope : ScopeId}
      {world world₁ world' : World} {f : Value} {values : List Value} :
    callee.eval call scope world = .ok f world₁ →
      Expr.evalAll call scope before world₁ = .ok values world' →
        Reaches call (.argument callee before after) scope world scope world'
  | target {position : Expr} {scope : ScopeId} {world : World} :
    Reaches call (.target position) scope world scope world
  | position {target : Expr} {scope : ScopeId} {world world' : World} {t : Value} :
    target.eval call scope world = .ok t world' →
      Reaches call (.position target) scope world scope world'
  | element {before after : List Expr} {scope : ScopeId} {world world' : World}
      {values : List Value} :
    Expr.evalAll call scope before world = .ok values world' →
      Reaches call (.element before after) scope world scope world'
  | component {before after : List Expr} {scope : ScopeId} {world world' : World}
      {values : List Value} :
    Expr.evalAll call scope before world = .ok values world' →
      Reaches call (.component before after) scope world scope world'
  | key {before after : List (Expr × Expr)} {value : Expr} {scope : ScopeId}
      {world world' : World} {entries : Entries} :
    Expr.evalPairs call scope [] before world = .ok entries world' →
      Reaches call (.key before value after) scope world scope world'
  | value {before after : List (Expr × Expr)} {key : Expr} {scope : ScopeId}
      {world world₁ world' : World} {entries : Entries} {keyValue : Value} {k : Key} :
    Expr.evalPairs call scope [] before world = .ok entries world₁ →
      key.eval call scope world₁ = .ok keyValue world' → keyValue.key? = some k →
        Reaches call (.value before key after) scope world scope world'

inductive Context.Reaches (call : Caller) :
    Context → ScopeId → World → ScopeId → World → Prop where
  | nil {scope : ScopeId} {world : World} : Reaches call [] scope world scope world
  | cons {layer : Layer} {context : Context} {scope scope₁ scope' : ScopeId}
      {world world₁ world' : World} :
    layer.Reaches call scope world scope₁ world₁ →
      Reaches call context scope₁ world₁ scope' world' →
        Reaches call (layer :: context) scope world scope' world'

/-! ### Unwinding -/

section Contexts

variable {call : Caller} {e : Expr} {scope scope' : ScopeId} {world world' after : World}
  {signal : Signal}

theorem Expr.evalAll_append (call : Caller) (scope : ScopeId) (before rest : List Expr) :
    Expr.evalAll call scope (before ++ rest) =
      Expr.evalAll call scope before >>= fun values =>
        Expr.evalAll call scope rest >>= fun others => pure (values ++ others) := by
  induction before with
  | nil => simp [Expr.evalAll]
  | cons e before ih => simp [Expr.evalAll, ih]

theorem Expr.evalPairs_append (call : Caller) (scope : ScopeId) (entries : Entries)
    (before rest : List (Expr × Expr)) :
    Expr.evalPairs call scope entries (before ++ rest) =
      Expr.evalPairs call scope entries before >>= fun entries =>
        Expr.evalPairs call scope entries rest := by
  induction before generalizing entries with
  | nil => simp [Expr.evalPairs]
  | cons pair before ih =>
    simp only [List.cons_append, Expr.evalPairs, bind_assoc]
    congr 1
    funext keyValue
    cases keyValue.key? with
    | none => rfl
    | some key => simp only [bind_assoc, ih]

theorem Expr.evalAll_of_error {before rest : List Expr} {values : List Value}
    (hb : Expr.evalAll call scope before world = .ok values world')
    (he : e.eval call scope world' = .error signal after) :
    Expr.evalAll call scope (before ++ e :: rest) world = .error signal after := by
  rw [Expr.evalAll_append, Action.bind_of_ok hb]
  exact Action.bind_of_error (Action.bind_of_error he)

theorem Stub.eval_fill_of_error (stub : Stub) (he : e.eval call scope world = .error signal after) :
    (stub.fill e).eval call scope world = .error signal after := by
  cases stub <;> exact Action.bind_of_error he

theorem Gap.evalAll_fill_of_error {gap : Gap} {stmt : Stmt}
    (hgap : gap.Reaches call scope world world')
    (hs : stmt.eval call scope world' = .error signal after) :
    Stmt.evalAll call scope none (gap.fill stmt) world = .error signal after := by
  obtain ⟨last, hbefore⟩ := hgap
  rw [Gap.fill, Stmt.evalAll_append, Action.bind_of_ok hbefore]
  exact Action.bind_of_error hs

/-- A block in which a statement unwinds. -/
theorem Gap.eval_block_of_error {gap : Gap} {stub : Stub} {inner : ScopeId} {world₁ : World}
    (henclose : enclose scope world = .ok inner world₁)
    (hgap : gap.Reaches call inner world₁ world')
    (he : e.eval call inner world' = .error signal after) :
    (enclose scope >>= fun inner =>
      orNull (Stmt.evalAll call inner none (gap.fill (stub.fill e)))) world =
        .error signal after := by
  rw [Action.bind_of_ok henclose]
  exact Action.bind_of_error (Gap.evalAll_fill_of_error hgap (stub.eval_fill_of_error he))

theorem Layer.eval_fill_of_error {layer : Layer}
    (hlayer : layer.Reaches call scope world scope' world')
    (he : e.eval call scope' world' = .error signal after) :
    (layer.fill e).eval call scope world = .error signal after := by
  cases hlayer with
  | operand | left | test | callee | target =>
    simp only [Layer.fill, Expr.eval]
    exact Action.bind_of_error he
  | right hleft =>
    simp only [Layer.fill, Expr.eval]
    rw [Action.bind_of_ok hleft]
    exact Action.bind_of_error he
  | body htest htruthy henclose hgap =>
    simp only [Layer.fill, Expr.eval]
    rw [Action.bind_of_ok htest, if_pos htruthy]
    exact Gap.eval_block_of_error henclose hgap he
  | otherwise htest htruthy henclose hgap =>
    simp only [Layer.fill, Expr.eval, Stmt.evalElse]
    rw [Action.bind_of_ok htest, if_neg (by simp [htruthy])]
    exact Gap.eval_block_of_error henclose hgap he
  | argument hcallee hbefore =>
    simp only [Layer.fill, Expr.eval]
    rw [Action.bind_of_ok hcallee]
    exact Action.bind_of_error (Expr.evalAll_of_error hbefore he)
  | position htarget =>
    simp only [Layer.fill, Expr.eval]
    rw [Action.bind_of_ok htarget]
    exact Action.bind_of_error he
  | element hbefore | component hbefore =>
    simp only [Layer.fill, Expr.eval]
    exact Action.bind_of_error (Expr.evalAll_of_error hbefore he)
  | key hbefore =>
    simp only [Layer.fill, Expr.eval]
    refine Action.bind_of_error ?_
    rw [Expr.evalPairs_append, Action.bind_of_ok hbefore]
    exact Action.bind_of_error he
  | value hbefore hkey hk =>
    simp only [Layer.fill, Expr.eval]
    refine Action.bind_of_error ?_
    rw [Expr.evalPairs_append, Action.bind_of_ok hbefore, Expr.evalPairs, Action.bind_of_ok hkey]
    simp only [hk]
    exact Action.bind_of_error he

/-- By induction on the layers, from the hole outward. -/
theorem Context.eval_fill_of_error {context : Context}
    (hcontext : context.Reaches call scope world scope' world')
    (he : e.eval call scope' world' = .error signal after) :
    (context.fill e).eval call scope world = .error signal after := by
  induction hcontext with
  | nil => exact he
  | cons hlayer _ ih => exact Layer.eval_fill_of_error hlayer (ih he)

end Contexts

/-! ### Boundaries -/

/-- Opens a scope for a call of the function and binds its parameters there. -/
def Closure.enter (f : Closure) (args : List Value) : Eval ScopeId := do
  let inner ← enclose f.scope
  bindAll inner (f.params.zip args)
  return inner

theorem callWithin_function {f : Closure} {args : List Value}
    (harity : args.length = f.params.length) (limit depth : Nat) :
    callWithin limit (depth + 1) (.function f) args =
      f.enter args >>= fun inner =>
        returned (orNull (Stmt.evalAll (callWithin limit depth) inner none f.body)) := by
  simp only [callWithin, if_pos harity, Closure.enter, bind_assoc, pure_bind]

/-- What a signal becomes at the end of a function. -/
def Signal.atCall (signal : Signal) (world : World) : EStateM.Result Signal World Value :=
  match signal with
  | .ret value => .ok value world
  | signal => .error signal world

theorem callWithin_of_error {f : Closure} {args : List Value} {limit depth : Nat} {inner : ScopeId}
    {world entered after : World} {signal : Signal} (harity : args.length = f.params.length)
    (henter : f.enter args world = .ok inner entered)
    (hbody : Stmt.evalAll (callWithin limit depth) inner none f.body entered =
      .error signal after) :
    callWithin limit (depth + 1) (.function f) args world = signal.atCall after := by
  have hnull : orNull (Stmt.evalAll (callWithin limit depth) inner none f.body) entered =
      .error signal after := Action.bind_of_error hbody
  rw [callWithin_function harity, Action.bind_of_ok henter, returned, hnull]
  cases signal <;> rfl

theorem returned_ne_ret (body : Eval Value) (world : World) (value : Value) (after : World) :
    returned body world ≠ .error (.ret value) after := by
  unfold returned
  split
  · nofun
  · next hbody => exact hbody value after

theorem exists_bindAll (scope : ScopeId) (bindings : List (String × Value)) (world : World) :
    ∃ world', bindAll scope bindings world = .ok () world' := by
  induction bindings generalizing world with
  | nil => exact ⟨world, rfl⟩
  | cons binding bindings ih => exact ih _

/-- A call gets a scope that comes after all others. -/
theorem Closure.exists_enter (f : Closure) (args : List Value) (world : World) :
    ∃ entered, f.enter args world = .ok world.scopes.size entered := by
  have henclose : enclose f.scope world =
      .ok world.scopes.size { world with scopes := world.scopes.enclose f.scope } := rfl
  obtain ⟨entered, hentered⟩ := exists_bindAll world.scopes.size (f.params.zip args)
    { world with scopes := world.scopes.enclose f.scope }
  refine ⟨entered, ?_⟩
  rw [enter, Action.bind_of_ok henclose, Action.bind_of_ok hentered]
  rfl

/-- No call ends in a `return`. -/
theorem callWithin_ne_ret (limit depth : Nat) (f : Value) (args : List Value) (world : World)
    (value : Value) (after : World) :
    callWithin limit depth f args world ≠ .error (.ret value) after := by
  intro h
  cases f with
  | builtin which =>
    have hyields := which.yields_apply args world.sink
    cases hr : which.apply args world.sink with
    | ok result sink =>
      rw [callWithin, Action.onSink_of_ok hr] at h
      cases h
    | error signal sink =>
      rw [hr] at hyields
      rw [callWithin, Action.onSink_of_error hr] at h
      cases h
      exact hyields value rfl
  | function f =>
    by_cases harity : args.length = f.params.length
    · cases depth with
      | zero =>
        rw [callWithin, if_pos harity] at h
        cases h
      | succ depth =>
        obtain ⟨entered, henter⟩ := f.exists_enter args world
        rw [callWithin_function harity, Action.bind_of_ok henter] at h
        exact returned_ne_ret _ _ _ _ h
    · rw [callWithin_of_arity_ne harity] at h
      cases h
  | _ => cases depth <;> cases h

/-- Evaluation that comes to the hole of a context and ends there in a signal ends in this signal as
a whole, in the same world: that of an expression, that of a statement, and that of a block,
whatever stands behind the hole. A function whose body ends in a `return` gives the value returned
and passes every other signal on, so that no call ends in a `return`. A program takes every signal
for its outcome. -/
theorem Context.unwinds (limit depth : Nat) :
    let call : Caller := callWithin limit depth
    (∀ (context : Context) (e : Expr) (scope scope' : ScopeId) (world world' after : World)
        (signal : Signal), context.Reaches call scope world scope' world' →
      e.eval call scope' world' = .error signal after →
        (context.fill e).eval call scope world = .error signal after ∧
        ∀ stub : Stub, (stub.fill (context.fill e)).eval call scope world = .error signal after) ∧
    (∀ (gap : Gap) (stmt : Stmt) (scope : ScopeId) (world world' after : World) (signal : Signal),
      gap.Reaches call scope world world' → stmt.eval call scope world' = .error signal after →
        Stmt.evalAll call scope none (gap.fill stmt) world = .error signal after ∧
        (depth = limit →
          Program.runIn limit scope (gap.fill stmt) world =
            Outcome.ofResult (.error signal after))) ∧
    (∀ (f : Closure) (args : List Value) (inner : ScopeId) (world entered after : World)
        (signal : Signal), args.length = f.params.length → f.enter args world = .ok inner entered →
      Stmt.evalAll call inner none f.body entered = .error signal after →
        callWithin limit (depth + 1) (.function f) args world = signal.atCall after) ∧
    (∀ (f : Value) (args : List Value) (world after : World) (value : Value),
      call f args world ≠ .error (.ret value) after) := by
  intro call
  refine ⟨?_, ?_, ?_, ?_⟩
  · intro context e scope scope' world world' after signal hcontext he
    have hfill := Context.eval_fill_of_error hcontext he
    exact ⟨hfill, fun stub => stub.eval_fill_of_error hfill⟩
  · intro gap stmt scope world world' after signal hgap hs
    have hblock := Gap.evalAll_fill_of_error hgap hs
    refine ⟨hblock, ?_⟩
    rintro rfl
    rw [Program.runIn, hblock]
  · intro f args inner world entered after signal harity henter hbody
    exact callWithin_of_error harity henter hbody
  · intro f args world after value
    exact callWithin_ne_ret limit depth f args world value after

/-- A block that returns. -/
def Expr.leaving : Expr :=
  .cond (.bool true) [.ret (some (.int 7))] none

def Expr.printing (text : String) : Expr :=
  .call (.var "print") [.str text]

/-- The second argument of a call that is the second element of a list. -/
def Context.printed : Context :=
  [.element [.int 1] [], .argument (.var "print") [.printing "a"] [.printing "b"]]

/-- A world with a global scope and one for a call. -/
def World.entered (sink : Sink) : World :=
  ⟨#[⟨none, []⟩, ⟨some 0, []⟩], 1, sink⟩

theorem World.lookup_print (sink : Sink) :
    lookup 1 "print" (entered sink) = .ok (.builtin .print) (entered sink) := by
  have hget : (get : Eval World) (entered sink) = .ok (entered sink) (entered sink) := rfl
  have hnone : Scopes.get? #[⟨none, []⟩, ⟨some 0, []⟩] 1 "print" = none := by decide +kernel
  rw [lookup, Action.bind_of_ok hget]
  simp only [entered, hnone]
  rfl

theorem Expr.eval_printing :
    (Expr.printing "a").eval (callWithin 1 0) 1 (.entered (.empty none)) =
      .ok .null (.entered ⟨"a\n".toUTF8, none⟩) := by
  rw [Expr.printing, Expr.eval, Expr.eval, Action.bind_of_ok (World.lookup_print _)]
  rfl

/-- The function ends with the first text printed and the value 7: neither is the other text printed
nor the call around it made nor the name bound. -/
theorem Context.unwinds_printed :
    let f : Closure := ⟨0, [], Gap.fill ⟨[], []⟩ (Stub.fill (.declare "x")
      (Context.printed.fill .leaving)), 0⟩
    let hole : World := .entered ⟨"a\n".toUTF8, none⟩
    let after : World := { hole with scopes := hole.scopes.enclose 1 }
    Context.printed.Reaches (callWithin 1 0) 1 (.entered (.empty none)) 1 hole ∧
      Expr.leaving.eval (callWithin 1 0) 1 hole = .error (.ret (.int 7)) after ∧
      callWithin 1 1 (.function f) [] (.initial none 1) = .ok (.int 7) after := by
  intro f hole after
  have hone : Expr.evalAll (callWithin 1 0) 1 [.int 1] (.entered (.empty none)) =
      .ok [.int 1] (.entered (.empty none)) := rfl
  have hprinted : Expr.evalAll (callWithin 1 0) 1 [.printing "a"] (.entered (.empty none)) =
      .ok [.null] hole := by
    rw [Expr.evalAll, Action.bind_of_ok Expr.eval_printing]
    rfl
  have hreaches : Context.printed.Reaches (callWithin 1 0) 1 (.entered (.empty none)) 1 hole :=
    .cons (.element hone) (.cons (.argument (World.lookup_print _) hprinted) .nil)
  have hleaving : Expr.leaving.eval (callWithin 1 0) 1 hole = .error (.ret (.int 7)) after := rfl
  obtain ⟨hexpr, hblock, hcall, -⟩ := Context.unwinds 1 0
  have hdeclare := (hexpr _ _ _ _ _ _ _ _ hreaches hleaving).2 (.declare "x")
  have hbody := (hblock ⟨[], []⟩ _ _ _ _ _ _ ⟨none, rfl⟩ hdeclare).1
  exact ⟨hreaches, hleaving, hcall f [] 1 _ _ _ _ rfl rfl hbody⟩

end Tang
