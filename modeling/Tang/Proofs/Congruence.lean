import Tang.Eval
import Tang.Proofs.Action
import Tang.Proofs.Causes

/-! Relations between actions that evaluation keeps. Such a relation holds between the steps of
evaluation and themselves and is kept by sequences of actions. If it also holds between the calls of
two callers, then it holds between the evaluations of the same syntax with one caller and with the
other. If it is kept where functions end and where calls are nested too deep, then it holds between
calls under two limits. -/

namespace Tang

/-! ### Actions on the output -/

namespace Action

variable {ε α β : Type}

theorem onSink_bind (action : EStateM ε Sink α) (next : α → EStateM ε Sink β) :
    World.onSink (action >>= next) = World.onSink action >>= fun a => World.onSink (next a) := by
  funext world
  cases h : action world.sink with
  | ok a sink =>
    rw [bind_of_ok (onSink_of_ok h)]
    simp only [World.onSink, bind_of_ok h]
  | error e sink =>
    rw [bind_of_error (onSink_of_error h), onSink_of_error (bind_of_error h)]

end Action

/-! ### Congruences -/

/-- A relation that the steps of evaluation and sequences of actions keep. -/
structure Congruence (R : (α : Type) → Eval α → Eval α → Prop) : Prop where
  pure {α : Type} (a : α) : R α (pure a) (pure a)
  throw {α : Type} (signal : Signal) : R α (throw signal) (throw signal)
  bind {α β : Type} {x y : Eval α} {f g : α → Eval β} :
    R α x y → (∀ a, R β (f a) (g a)) → R β (x >>= f) (y >>= g)
  lookup (scope : ScopeId) (name : String) :
    R Value (Eval.lookup scope name) (Eval.lookup scope name)
  declare (scope : ScopeId) (name : String) (value : Value) :
    R Unit (Eval.declare scope name value) (Eval.declare scope name value)
  assign (scope : ScopeId) (name : String) (value : Value) :
    R Unit (Eval.assign scope name value) (Eval.assign scope name value)
  enclose (scope : ScopeId) : R ScopeId (Eval.enclose scope) (Eval.enclose scope)
  create (params : List String) (body : List Stmt) (scope : ScopeId) :
    R Value (Eval.create params body scope) (Eval.create params body scope)
  print (text : String) :
    R Unit (World.onSink (Builtin.writeLine text)) (World.onSink (Builtin.writeLine text))

/-- A relation that the steps of evaluation, sequences of actions and the ends of functions keep. Of
the failures, only those with ordinary causes have to be related to themselves. -/
structure Compatible (R : (α : Type) → Eval α → Eval α → Prop) : Prop where
  pure {α : Type} (a : α) : R α (pure a) (pure a)
  ret {α : Type} (value : Value) : R α (throw (.ret value)) (throw (.ret value))
  exit {α : Type} (code : Int32) : R α (throw (.exit code)) (throw (.exit code))
  fail {α : Type} {cause : RuntimeError} : cause.Ordinary →
    R α (Signal.fail cause) (Signal.fail cause)
  bind {α β : Type} {x y : Eval α} {f g : α → Eval β} :
    R α x y → (∀ a, R β (f a) (g a)) → R β (x >>= f) (y >>= g)
  lookup (scope : ScopeId) (name : String) :
    R Value (Eval.lookup scope name) (Eval.lookup scope name)
  declare (scope : ScopeId) (name : String) (value : Value) :
    R Unit (Eval.declare scope name value) (Eval.declare scope name value)
  assign (scope : ScopeId) (name : String) (value : Value) :
    R Unit (Eval.assign scope name value) (Eval.assign scope name value)
  enclose (scope : ScopeId) : R ScopeId (Eval.enclose scope) (Eval.enclose scope)
  create (params : List String) (body : List Stmt) (scope : ScopeId) :
    R Value (Eval.create params body scope) (Eval.create params body scope)
  print (text : String) :
    R Unit (World.onSink (Builtin.writeLine text)) (World.onSink (Builtin.writeLine text))
  returned {x y : Eval Value} : R Value x y → R Value (Eval.returned x) (Eval.returned y)

theorem Congruence.compatible {R : (α : Type) → Eval α → Eval α → Prop} (hR : Congruence R)
    (hreturned : ∀ {x y : Eval Value}, R Value x y →
      R Value (Eval.returned x) (Eval.returned y)) : Compatible R :=
  { hR with
    ret := fun value => hR.throw (.ret value)
    exit := fun code => hR.throw (.exit code)
    fail := fun _ => hR.throw (.error _)
    returned := hreturned }

namespace Compatible

variable {R : (α : Type) → Eval α → Eval α → Prop} (hR : Compatible R)

include hR

theorem lift {α : Type} {result : Except RuntimeError α}
    (h : ∀ {cause}, result = .error cause → cause.Ordinary) :
    R α (Signal.lift result) (Signal.lift result) := by
  cases result with
  | ok a => exact hR.pure a
  | error cause => exact hR.fail (h rfl)

theorem orNull {x y : Eval (Option Value)} (h : R _ x y) :
    R Value (Eval.orNull x) (Eval.orNull y) :=
  hR.bind h fun _ => hR.pure _

theorem bindAll (scope : ScopeId) (bindings : List (String × Value)) :
    R Unit (Eval.bindAll scope bindings) (Eval.bindAll scope bindings) := by
  induction bindings with
  | nil => exact hR.pure ()
  | cons binding bindings ih => exact hR.bind (hR.declare ..) fun _ => ih

/-! ### Builtin functions -/

theorem printAll (values : List Value) :
    R Unit (World.onSink (Builtin.printAll values)) (World.onSink (Builtin.printAll values)) := by
  induction values with
  | nil => exact hR.pure ()
  | cons value values ih =>
    rw [Builtin.printAll, Action.onSink_bind]
    exact hR.bind (hR.print _) fun _ => ih

/-- A builtin function that does no more than compute a result. -/
theorem onSink_lift {α : Type} {result : Except RuntimeError α} {next : α → Builtin.Action Value}
    (h : ∀ {cause}, result = .error cause → cause.Ordinary)
    (hn : ∀ a, R Value (World.onSink (next a)) (World.onSink (next a))) :
    R Value (World.onSink (Signal.lift result >>= next))
      (World.onSink (Signal.lift result >>= next)) := by
  cases result with
  | ok a => exact hn a
  | error cause => exact hR.fail (h rfl)

theorem builtin (which : Builtin) (args : List Value) :
    R Value (World.onSink (which.apply args)) (World.onSink (which.apply args)) := by
  unfold Builtin.apply
  split
  · rw [Action.onSink_bind]
    exact hR.bind (hR.printAll _) fun _ => hR.pure _
  · exact hR.onSink_lift Builtin.ordinary_of_fill fun _ => hR.pure _
  · exact hR.fail trivial
  · next arg =>
    cases h : Builtin.length arg with
    | ok value => exact hR.pure value
    | error cause => exact hR.fail (Builtin.ordinary_of_length h)
  · exact hR.onSink_lift Builtin.ordinary_of_elements fun _ => hR.pure _
  · exact hR.onSink_lift Builtin.ordinary_of_elements fun _ => hR.pure _
  · exact hR.onSink_lift Builtin.ordinary_of_elements fun _ => hR.pure _
  · exact hR.onSink_lift Builtin.ordinary_of_elements fun _ => hR.pure _
  · exact hR.fail trivial
  · exact hR.onSink_lift Builtin.ordinary_of_exitCode fun _ => hR.exit _
  · rw [Action.onSink_bind]
    exact hR.bind (hR.print _) fun _ => hR.exit _
  · exact hR.fail trivial

end Compatible

/-! ### Evaluation -/

section Evaluation

variable {R : (α : Type) → Eval α → Eval α → Prop} {call call' : Caller}

mutual

theorem Expr.eval_congr (hR : Compatible R) (hc : ∀ f args, R Value (call f args) (call' f args)) :
    (e : Expr) → ∀ scope, R Value (e.eval call scope) (e.eval call' scope)
  | .int _, _ | .str _, _ | .bool _, _ | .null, _ => hR.pure _
  | .var name, scope => hR.lookup scope name
  | .unary _ a, scope => hR.bind (a.eval_congr hR hc scope) fun _ => hR.lift Value.ordinary_of_unary
  | .binary _ a b, scope =>
    hR.bind (a.eval_congr hR hc scope) fun _ => hR.bind (b.eval_congr hR hc scope) fun _ =>
      hR.lift Value.ordinary_of_binary
  | .cond test body otherwise, scope => by
    refine hR.bind (test.eval_congr hR hc scope) fun value => ?_
    split
    · exact hR.bind (hR.enclose scope) fun inner =>
        hR.orNull (Stmt.evalAll_congr hR hc body inner none)
    · exact Stmt.evalElse_congr hR hc otherwise scope
  | .fn params body, scope => hR.create params body scope
  | .call callee args, scope =>
    hR.bind (callee.eval_congr hR hc scope) fun f =>
      hR.bind (Expr.evalAll_congr hR hc args scope) fun values => hc f values
  | .index target position, scope =>
    hR.bind (target.eval_congr hR hc scope) fun _ =>
      hR.bind (position.eval_congr hR hc scope) fun _ => hR.lift Value.ordinary_of_index
  | .list elements, scope => hR.bind (Expr.evalAll_congr hR hc elements scope) fun _ => hR.pure _
  | .tuple elements, scope => hR.bind (Expr.evalAll_congr hR hc elements scope) fun _ => hR.pure _
  | .map pairs, scope => hR.bind (Expr.evalPairs_congr hR hc pairs scope []) fun _ => hR.pure _

theorem Expr.evalAll_congr (hR : Compatible R)
    (hc : ∀ f args, R Value (call f args) (call' f args)) :
    (es : List Expr) → ∀ scope, R _ (Expr.evalAll call scope es) (Expr.evalAll call' scope es)
  | [], _ => hR.pure _
  | e :: es, scope =>
    hR.bind (e.eval_congr hR hc scope) fun _ =>
      hR.bind (Expr.evalAll_congr hR hc es scope) fun _ => hR.pure _

theorem Expr.evalPairs_congr (hR : Compatible R)
    (hc : ∀ f args, R Value (call f args) (call' f args)) :
    (pairs : List (Expr × Expr)) → ∀ scope entries,
      R _ (Expr.evalPairs call scope entries pairs) (Expr.evalPairs call' scope entries pairs)
  | [], _, _ => hR.pure _
  | (a, b) :: pairs, scope, entries => by
    refine hR.bind (a.eval_congr hR hc scope) fun keyValue => ?_
    split
    · exact hR.fail trivial
    · exact hR.bind (b.eval_congr hR hc scope) fun _ => Expr.evalPairs_congr hR hc pairs scope _

theorem Stmt.eval_congr (hR : Compatible R) (hc : ∀ f args, R Value (call f args) (call' f args)) :
    (s : Stmt) → ∀ scope, R _ (s.eval call scope) (s.eval call' scope)
  | .declare name a, scope =>
    hR.bind (a.eval_congr hR hc scope) fun value =>
      hR.bind (hR.declare scope name value) fun _ => hR.pure _
  | .assign name a, scope =>
    hR.bind (a.eval_congr hR hc scope) fun value =>
      hR.bind (hR.assign scope name value) fun _ => hR.pure _
  | .ret none, _ => hR.ret _
  | .ret (some a), scope => hR.bind (a.eval_congr hR hc scope) fun _ => hR.ret _
  | .expr a, scope => hR.bind (a.eval_congr hR hc scope) fun _ => hR.pure _

theorem Stmt.evalAll_congr (hR : Compatible R)
    (hc : ∀ f args, R Value (call f args) (call' f args)) :
    (ss : List Stmt) → ∀ scope last,
      R _ (Stmt.evalAll call scope last ss) (Stmt.evalAll call' scope last ss)
  | [], _, _ => hR.pure _
  | s :: ss, scope, _ =>
    hR.bind (s.eval_congr hR hc scope) fun last => Stmt.evalAll_congr hR hc ss scope last

theorem Stmt.evalElse_congr (hR : Compatible R)
    (hc : ∀ f args, R Value (call f args) (call' f args)) :
    (body : Option (List Stmt)) → ∀ scope,
      R Value (Stmt.evalElse call scope body) (Stmt.evalElse call' scope body)
  | none, _ => hR.pure _
  | some body, scope =>
    hR.bind (hR.enclose scope) fun inner =>
      hR.orNull (Stmt.evalAll_congr hR hc body inner none)

end

theorem callWithin_of_arity_ne {f : Closure} {args : List Value}
    (h : args.length ≠ f.params.length) (limit depth : Nat) :
    callWithin limit depth (.function f) args =
      Signal.fail (.wrongArity f.params.length args.length) := by
  cases depth <;> simp only [callWithin, if_neg h]

/-- Calls under two limits are related if more of them may be nested on the right, and a call that
is nested too deep on the left is related to whatever happens on the right. -/
theorem callWithin_congr (hR : Compatible R) {limit limit' : Nat}
    (hdeep : ∀ (depth' : Nat) (f : Closure) (args : List Value),
      R Value (Signal.fail (.callTooDeep limit)) (callWithin limit' depth' (.function f) args))
    {depth depth' : Nat} (hle : depth ≤ depth') (f : Value) (args : List Value) :
    R Value (callWithin limit depth f args) (callWithin limit' depth' f args) := by
  induction depth generalizing depth' f args with
  | zero =>
    cases f with
    | builtin which =>
      simp only [callWithin]
      exact hR.builtin which args
    | function f =>
      by_cases harity : args.length = f.params.length
      · simpa only [callWithin, if_pos harity] using hdeep depth' f args
      · rw [callWithin_of_arity_ne harity, callWithin_of_arity_ne harity]
        exact hR.fail trivial
    | _ =>
      simp only [callWithin]
      exact hR.fail trivial
  | succ depth ih =>
    obtain ⟨depth', rfl⟩ : ∃ m, depth' = m + 1 := ⟨depth' - 1, by omega⟩
    cases f with
    | builtin which =>
      simp only [callWithin]
      exact hR.builtin which args
    | function f =>
      by_cases harity : args.length = f.params.length
      · simp only [callWithin, if_pos harity]
        refine hR.bind (hR.enclose _) fun inner => hR.bind (hR.bindAll _ _) fun _ => ?_
        exact hR.returned (hR.orNull
          (Stmt.evalAll_congr hR (ih (Nat.le_of_succ_le_succ hle)) f.body inner none))
      · rw [callWithin_of_arity_ne harity, callWithin_of_arity_ne harity]
        exact hR.fail trivial
    | _ =>
      simp only [callWithin]
      exact hR.fail trivial

end Evaluation

end Tang
