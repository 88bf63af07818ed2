import Mathlib.Data.Nat.Find
import Tang.Proofs.Heap.Evaluation
import Tang.Proofs.Machine.Stability

/-! Every program comes to an end. In sound scopes the machine needs only finitely much fuel, and it
ends in what evaluation says. The induction is on the number of calls that may still be nested, and
for each such number on the syntax. That the counter has its old value after each part is what makes
the two meet again: evaluation has no counter, only a number of calls left. -/

namespace Tang

namespace Machine

open Run

variable {α β : Type} {limit depth : Nat} {world : World}

/-- With enough fuel the run does what the action does, and leaves the counter as it was. -/
def Reaches (run : Nat → Run α) (action : Eval α) (world : World) (depth : Nat) : Prop :=
  ∃ fuel, ∀ n, fuel ≤ n → run n world depth = some (action world, depth)

namespace Reaches

theorem step (action : Eval α) : Reaches (fun _ => step action) action world depth :=
  ⟨0, fun _ _ => rfl⟩

theorem succ {run : Nat → Run α} {action : Eval α}
    (h : Reaches (fun n => run (n + 1)) action world depth) : Reaches run action world depth := by
  obtain ⟨fuel, h⟩ := h
  refine ⟨fuel + 1, fun n hn => ?_⟩
  obtain ⟨m, rfl⟩ : ∃ m, n = m + 1 := ⟨n - 1, by omega⟩
  exact h m (by omega)

theorem activeCalls {run : Nat → Nat → Run α} {action : Eval α}
    (h : Reaches (run depth) action world depth) :
    Reaches (fun n => Run.activeCalls >>= fun d => run d n) action world depth :=
  h

theorem bind {run : Nat → Run α} {action : Eval α} {next : α → Nat → Run β} {then' : α → Eval β}
    {rule : Rule} {fits : Nat → α → Prop} (h : Reaches run action world depth)
    (hs : Eval.Sound rule fits action world)
    (hn : ∀ a world', world'.scopes.Sound rule → world.scopes.Extends world'.scopes →
      fits world'.scopes.size a → Reaches (next a) (then' a) world' depth) :
    Reaches (fun n => run n >>= fun a => next a n) (action >>= then') world depth := by
  obtain ⟨fuel, h⟩ := h
  cases hr : action world with
  | error signal world' =>
    refine ⟨fuel, fun n hle => ?_⟩
    change Run.bind _ _ world depth = _
    rw [Run.bind, h n hle, Action.bind_of_error hr, hr]
  | ok a world' =>
    obtain ⟨hw, he, ha⟩ := hs.of_ok hr
    obtain ⟨fuel', h'⟩ := hn a world' hw he ha
    refine ⟨max fuel fuel', fun n hle => ?_⟩
    change Run.bind _ _ world depth = _
    rw [Run.bind, h n (by omega), Action.bind_of_ok hr, hr]
    exact h' n (by omega)

end Reaches

/-! ### Names -/

/-- In sound scopes the walk from scope `id` outward ends after at most `id + 1` scopes. -/
theorem owner?_eq {rule : Rule} {scopes : Scopes} (hw : scopes.Sound rule) (name : String)
    (id : ScopeId) {fuel : Nat} (hfuel : id < fuel) :
    owner? scopes name fuel id = some (scopes.owner? id name) := by
  induction fuel generalizing id with
  | zero => exact absurd hfuel (Nat.not_lt_zero id)
  | succ fuel ih =>
    rw [owner?, Scopes.owner?]
    cases hid : scopes[id]? with
    | none => rfl
    | some scope =>
      by_cases hx : (scope.get? name).isSome
      · simp only [hx, if_true]
      · simp only [hx]
        cases hp : scope.parent with
        | none => rfl
        | some parent =>
          have hlt : parent < id := hw.parent_lt hid hp
          simp only [hlt, if_true]
          exact ih parent (Nat.lt_of_lt_of_le hlt (Nat.le_of_lt_succ hfuel))

theorem reaches_lookup {rule : Rule} (hw : world.scopes.Sound rule) (scope : ScopeId)
    (name : String) :
    Reaches (fun n => lookup n scope name) (Eval.lookup scope name) world depth := by
  refine ⟨scope + 1, fun n hn => ?_⟩
  change Run.bind _ _ world depth = _
  simp only [Run.bind, find, owner?_eq hw name scope hn, Option.map_some, Run.step]
  rfl

theorem reaches_assign {rule : Rule} (hw : world.scopes.Sound rule) (scope : ScopeId)
    (name : String) (value : Value) :
    Reaches (fun n => assign n scope name value) (Eval.assign scope name value) world depth := by
  refine ⟨scope + 1, fun n hn => ?_⟩
  change Run.bind _ _ world depth = _
  simp only [Run.bind, find, owner?_eq hw name scope hn, Option.map_some, Run.step]
  rfl

/-! ### Expressions and statements -/

section Evaluation

variable {call : Caller}

/-- With enough fuel the machine calls as the caller does. -/
structure Follows (limit depth : Nat) (call : Caller) : Prop where
  sound : call.Sound .any
  reaches {f : Value} {args : List Value} {world : World} :
    world.scopes.Sound .any → f.Fits .any world.scopes.size →
      (∀ arg ∈ args, arg.Fits .any world.scopes.size) →
        Reaches (fun n => Machine.call limit n f args) (call f args) world depth

mutual

theorem reaches_expr (h : Follows limit depth call) :
    (e : Expr) → ∀ (scope : ScopeId) (world : World),
      world.scopes.Sound .any → scope < world.scopes.size →
      Reaches (fun n => expr limit n scope e) (e.eval call scope) world depth
  | .int n, _, _, _, _ => .succ (.step (pure (Value.int n)))
  | .str text, _, _, _, _ => .succ (.step (pure (Value.str text)))
  | .bool b, _, _, _, _ => .succ (.step (pure (Value.bool b)))
  | .null, _, _, _, _ => .succ (.step (pure Value.null))
  | .var name, scope, _, hw, _ => .succ (reaches_lookup hw scope name)
  | .unary op a, scope, world, hw, hi => by
    refine .succ (.bind (reaches_expr h a scope world hw hi)
      (a.eval_sound h.sound a.obeys_any scope world hw hi) ?_)
    intro value world' _ _ _
    exact .step _
  | .binary op a b, scope, world, hw, hi => by
    refine .succ (.bind (reaches_expr h a scope world hw hi)
      (a.eval_sound h.sound a.obeys_any scope world hw hi) ?_)
    intro l world₁ hw₁ he₁ _
    have hi₁ := he₁.lt_size hi
    refine .bind (reaches_expr h b scope world₁ hw₁ hi₁)
      (b.eval_sound h.sound b.obeys_any scope world₁ hw₁ hi₁) ?_
    intro r world₂ _ _ _
    exact .step _
  | .cond test body otherwise, scope, world, hw, hi => by
    refine .succ (.bind (reaches_expr h test scope world hw hi)
      (test.eval_sound h.sound test.obeys_any scope world hw hi) ?_)
    intro value world₁ hw₁ he₁ _
    have hi₁ := he₁.lt_size hi
    by_cases ht : value.truthy
    · simp only [ht, if_true]
      refine .bind (.step _) (Eval.sound_enclose hw₁ hi₁) ?_
      intro inner world₂ hw₂ _ hi₂
      refine .bind (reaches_stmts h body none inner world₂ hw₂ hi₂)
        (Stmt.evalAll_sound h.sound body (Stmt.obeyAll_any body) none inner world₂ hw₂ hi₂ nofun) ?_
      intro last world₃ _ _ _
      exact .step _
    · simp only [ht]
      exact reaches_branch h otherwise scope world₁ hw₁ hi₁
  | .fn params body, scope, _, _, _ => .succ (.step (Eval.create params body scope))
  | .call callee args, scope, world, hw, hi => by
    refine .succ (.bind (reaches_expr h callee scope world hw hi)
      (callee.eval_sound h.sound callee.obeys_any scope world hw hi) ?_)
    intro f world₁ hw₁ he₁ hfits
    have hi₁ := he₁.lt_size hi
    refine .bind (reaches_exprs h args scope world₁ hw₁ hi₁)
      (Expr.evalAll_sound h.sound args (Expr.obeyAll_any args) scope world₁ hw₁ hi₁) ?_
    intro values world₂ hw₂ he₂ hvalues
    exact h.reaches hw₂ (hfits.mono he₂.size_le) hvalues
  | .index target position, scope, world, hw, hi => by
    refine .succ (.bind (reaches_expr h target scope world hw hi)
      (target.eval_sound h.sound target.obeys_any scope world hw hi) ?_)
    intro t world₁ hw₁ he₁ _
    have hi₁ := he₁.lt_size hi
    refine .bind (reaches_expr h position scope world₁ hw₁ hi₁)
      (position.eval_sound h.sound position.obeys_any scope world₁ hw₁ hi₁) ?_
    intro p world₂ _ _ _
    exact .step _
  | .list elements, scope, world, hw, hi => by
    refine .succ (.bind (reaches_exprs h elements scope world hw hi)
      (Expr.evalAll_sound h.sound elements (Expr.obeyAll_any elements) scope world hw hi) ?_)
    intro values world' _ _ _
    exact .step _
  | .tuple elements, scope, world, hw, hi => by
    refine .succ (.bind (reaches_exprs h elements scope world hw hi)
      (Expr.evalAll_sound h.sound elements (Expr.obeyAll_any elements) scope world hw hi) ?_)
    intro values world' _ _ _
    exact .step _
  | .map ps, scope, world, hw, hi => by
    refine .succ (.bind (reaches_pairs h ps [] scope world hw hi)
      (Expr.evalPairs_sound h.sound ps (Expr.obeyPairs_any ps) [] scope world hw hi nofun) ?_)
    intro entries world' _ _ _
    exact .step _

theorem reaches_exprs (h : Follows limit depth call) :
    (es : List Expr) → ∀ (scope : ScopeId) (world : World),
      world.scopes.Sound .any → scope < world.scopes.size →
      Reaches (fun n => exprs limit n scope es) (Expr.evalAll call scope es) world depth
  | [], _, _, _, _ => .succ (.step (pure []))
  | e :: es, scope, world, hw, hi => by
    refine .succ (.bind (reaches_expr h e scope world hw hi)
      (e.eval_sound h.sound e.obeys_any scope world hw hi) ?_)
    intro value world₁ hw₁ he₁ _
    have hi₁ := he₁.lt_size hi
    refine .bind (reaches_exprs h es scope world₁ hw₁ hi₁)
      (Expr.evalAll_sound h.sound es (Expr.obeyAll_any es) scope world₁ hw₁ hi₁) ?_
    intro values world₂ _ _ _
    exact .step _

theorem reaches_pairs (h : Follows limit depth call) :
    (ps : List (Expr × Expr)) → ∀ (entries : Entries) (scope : ScopeId) (world : World),
      world.scopes.Sound .any → scope < world.scopes.size →
      Reaches (fun n => pairs limit n scope entries ps) (Expr.evalPairs call scope entries ps)
        world depth
  | [], entries, _, _, _, _ => .succ (.step (pure entries))
  | (a, b) :: ps, entries, scope, world, hw, hi => by
    refine .succ (.bind (reaches_expr h a scope world hw hi)
      (a.eval_sound h.sound a.obeys_any scope world hw hi) ?_)
    intro keyValue world₁ hw₁ he₁ _
    have hi₁ := he₁.lt_size hi
    cases hk : keyValue.key? with
    | none => exact .step _
    | some key =>
      refine .bind (reaches_expr h b scope world₁ hw₁ hi₁)
        (b.eval_sound h.sound b.obeys_any scope world₁ hw₁ hi₁) ?_
      intro value world₂ hw₂ he₂ _
      exact reaches_pairs h ps _ scope world₂ hw₂ (he₂.lt_size hi₁)

theorem reaches_stmt (h : Follows limit depth call) :
    (s : Stmt) → ∀ (scope : ScopeId) (world : World),
      world.scopes.Sound .any → scope < world.scopes.size →
      Reaches (fun n => stmt limit n scope s) (s.eval call scope) world depth
  | .declare name a, scope, world, hw, hi => by
    refine .succ (.bind (reaches_expr h a scope world hw hi)
      (a.eval_sound h.sound a.obeys_any scope world hw hi) ?_)
    intro value world' _ _ _
    exact .step (do Eval.declare scope name value; return none)
  | .assign name a, scope, world, hw, hi => by
    refine .succ (.bind (reaches_expr h a scope world hw hi)
      (a.eval_sound h.sound a.obeys_any scope world hw hi) ?_)
    intro value world₁ hw₁ _ hvalue
    refine .bind (reaches_assign hw₁ scope name value)
      (Eval.sound_assign hw₁ scope name hvalue) ?_
    intro _ world₂ _ _ _
    exact .step _
  | .ret none, _, _, _, _ => .succ (.step (throw (Signal.ret .null)))
  | .ret (some a), scope, world, hw, hi => by
    refine .succ (.bind (reaches_expr h a scope world hw hi)
      (a.eval_sound h.sound a.obeys_any scope world hw hi) ?_)
    intro value world' _ _ _
    exact .step _
  | .expr a, scope, world, hw, hi => by
    refine .succ (.bind (reaches_expr h a scope world hw hi)
      (a.eval_sound h.sound a.obeys_any scope world hw hi) ?_)
    intro value world' _ _ _
    exact .step _

theorem reaches_stmts (h : Follows limit depth call) :
    (ss : List Stmt) → ∀ (last : Option Value) (scope : ScopeId) (world : World),
      world.scopes.Sound .any → scope < world.scopes.size →
      Reaches (fun n => stmts limit n scope last ss) (Stmt.evalAll call scope last ss) world depth
  | [], last, _, _, _, _ => .succ (.step (pure last))
  | s :: ss, _, scope, world, hw, hi => by
    refine .succ (.bind (reaches_stmt h s scope world hw hi)
      (s.eval_sound h.sound s.obeys_any scope world hw hi) ?_)
    intro last world' hw' he _
    exact reaches_stmts h ss last scope world' hw' (he.lt_size hi)

theorem reaches_branch (h : Follows limit depth call) :
    (body : Option (List Stmt)) → ∀ (scope : ScopeId) (world : World),
      world.scopes.Sound .any → scope < world.scopes.size →
      Reaches (fun n => branch limit n scope body) (Stmt.evalElse call scope body) world depth
  | none, _, _, _, _ => .succ (.step (pure Value.null))
  | some body, scope, world, hw, hi => by
    refine .succ (.bind (.step _) (Eval.sound_enclose hw hi) ?_)
    intro inner world₁ hw₁ _ hi₁
    refine .bind (reaches_stmts h body none inner world₁ hw₁ hi₁)
      (Stmt.evalAll_sound h.sound body (Stmt.obeyAll_any body) none inner world₁ hw₁ hi₁ nofun) ?_
    intro last world₂ _ _ _
    exact .step _

end

end Evaluation

/-! ### Calls -/

/-- The body of a function runs with one more call active, and the counter is set back after it. -/
theorem reaches_body {body : List Stmt} {call : Caller} {inner : ScopeId}
    (h : Reaches (fun n => stmts limit n inner none body) (Stmt.evalAll call inner none body) world
      (depth + 1)) :
    Reaches
      (fun n => do
        setActiveCalls (depth + 1)
        let result ← attempt (stmts limit n inner none body)
        setActiveCalls depth
        match result with
        | .ok last => return last.getD .null
        | .error (.ret value) => return value
        | .error signal => step (throw signal))
      (Eval.returned (Eval.orNull (Stmt.evalAll call inner none body))) world depth := by
  obtain ⟨fuel, h⟩ := h
  refine ⟨fuel, fun n hn => ?_⟩
  simp only [Bind.bind, Run.bind, setActiveCalls, attempt, h n hn, Eval.returned, Eval.orNull,
    EStateM.bind]
  cases Stmt.evalAll call inner none body world with
  | ok last world' => rfl
  | error signal world' => cases signal <;> rfl

theorem follows_callWithin (limit : Nat) :
    ∀ budget depth, depth + budget = limit → Follows limit depth (callWithin limit budget) := by
  intro budget
  induction budget with
  | zero =>
    intro depth hd
    refine ⟨callWithin_sound .any limit 0, ?_⟩
    intro f args world hw hfits hargs
    refine .succ ?_
    cases f with
    | function f =>
      by_cases harity : args.length = f.params.length
      · simp only [Machine.call, callWithin, harity, if_true]
        refine .activeCalls ?_
        simp only [if_pos (show limit ≤ depth by omega)]
        exact .step _
      · simp only [Machine.call, callWithin, harity, if_false]
        exact .step _
    | _ => exact .step _
  | succ budget ih =>
    intro depth hd
    refine ⟨callWithin_sound .any limit (budget + 1), ?_⟩
    intro f args world hw hfits hargs
    refine .succ ?_
    cases f with
    | function f =>
      by_cases harity : args.length = f.params.length
      · obtain ⟨hscope, -⟩ := Value.fits_function.1 hfits
        simp only [Machine.call, callWithin, harity, if_true]
        refine .activeCalls ?_
        simp only [if_neg (show ¬ limit ≤ depth by omega)]
        refine .bind (.step _) (Eval.sound_enclose hw hscope) ?_
        intro inner world₁ hw₁ he₁ hi₁
        have hzip : ∀ binding ∈ f.params.zip args, binding.2.Fits .any world₁.scopes.size :=
          fun binding hb => (hargs _ (List.of_mem_zip hb).2).mono he₁.size_le
        refine .bind (.step _) (Eval.sound_bindAll hw₁ inner hzip) ?_
        intro _ world₂ hw₂ he₂ _
        exact reaches_body
          (reaches_stmts (ih (depth + 1) (by omega)) f.body none inner world₂ hw₂ (he₂.lt_size hi₁))
      · simp only [Machine.call, callWithin, harity, if_false]
        exact .step _
    | _ => exact .step _

/-! ### Programs -/

theorem reaches_program (limit : Nat) {scope : ScopeId} (program : Program)
    (hw : world.scopes.Sound .any) (hs : scope < world.scopes.size) :
    ∃ fuel, runProgram limit fuel scope program world = some (program.runIn limit scope world) := by
  have hf := follows_callWithin limit limit 0 (by omega)
  obtain ⟨fuel, h⟩ := reaches_stmts hf program none scope world hw hs
  refine ⟨fuel, ?_⟩
  simp only [runProgram, h fuel le_rfl, Option.map_some, Program.runIn]

end Machine

/-- Every program terminates: in scopes that are sound, whatever functions they hold, there is a
least amount of fuel with which the machine comes to an end, and with that much or more it ends in
the outcome, the output and the scopes that evaluation gives. -/
theorem Program.terminates (limit : Nat) (program : Program) (scope : ScopeId) (world : World)
    (hw : world.scopes.Sound .any) (hs : scope < world.scopes.size) :
    ∃ fuel, ∀ n, Machine.runProgram limit n scope program world =
      if fuel ≤ n then some (program.runIn limit scope world) else none := by
  classical
  have hex := Machine.reaches_program limit program hw hs
  refine ⟨Nat.find hex, fun n => ?_⟩
  split
  · next hle => exact Machine.runProgram_mono hle (Nat.find_spec hex)
  · next hlt =>
    cases hn : Machine.runProgram limit n scope program world with
    | none => rfl
    | some result =>
      -- a run that ends with less fuel ends in the same result, so less fuel would be enough
      have hmore := Machine.runProgram_mono (Nat.le_of_not_le hlt) hn
      rw [Nat.find_spec hex] at hmore
      exact absurd (hn.trans hmore.symm) (Nat.find_min hex (Nat.lt_of_not_le hlt))

/-- A global scope that binds a function which does nothing but call itself. -/
def Scopes.looping : Scopes :=
  #[⟨none, [("f", .function ⟨0, [], [.expr (.call (.var "f") [])], 0⟩)]⟩]

theorem Scopes.sound_looping : looping.Sound .any where
  parent_lt {i p scope} hi hp := by
    obtain ⟨_, rfl⟩ := Array.getElem?_eq_some_iff.1 hi
    simp [looping] at hp
  fits {i scope x value} hi hx := by
    obtain ⟨_, rfl⟩ := Array.getElem?_eq_some_iff.1 hi
    obtain ⟨-, rfl⟩ : x = "f" ∧ value = _ := by simpa [looping] using hx
    exact Value.fits_function.2 ⟨by decide, Expr.obeys_any _⟩

theorem Program.terminates_looping :
    Scopes.looping.Sound .any ∧ 0 < Scopes.looping.size ∧
      ∃ fuel, ∀ n,
        Machine.runProgram 1024 n 0 [.expr (.call (.var "f") [])] ⟨.looping, 1, .empty none⟩ =
          if fuel ≤ n then
            some (Program.runIn 1024 0 [.expr (.call (.var "f") [])] ⟨.looping, 1, .empty none⟩)
          else none :=
  ⟨Scopes.sound_looping, by decide,
    Program.terminates 1024 _ 0 ⟨.looping, 1, .empty none⟩ Scopes.sound_looping (by decide)⟩

end Tang
