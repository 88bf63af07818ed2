import Tang.Proofs.Course

/-! Steps lead where evaluation leads. Whatever waits for its value, an expression is evaluated in
steps that end in the value, or the signal, and the world that evaluation ends in. So the moments at
which the programs of a session end show the outcomes and the worlds in which they end when they are
run, and no others. -/

namespace Tang

/-- What the programs of a session come to, one after the other, with the worlds they leave. -/
def Program.session (limit : Nat) : List Program → World → List (Outcome × World)
  | [], _ => []
  | program :: programs, world =>
    let ended := program.run limit world
    ended :: session limit programs ended.2

namespace Course

open Eval
open Signal (fail lift)

variable {limit budget : Nat} {task task' : Task} {frame : Frame}
  {inner inner' outer waiting : List Frame} {pending : List Program} {world : World}

/-! ### Steps to a value -/

/-- The moment at which a result has been found for what waits. -/
def ended (waiting : List Frame) (pending : List Program) :
    EStateM.Result Signal World Value → Moment
  | .ok value world => ⟨.value value, waiting, world, pending⟩
  | .error s world => ⟨.signal s, waiting, world, pending⟩

theorem Frame.unwind_of_ne (h : frame ≠ .function) (s : Signal) : frame.unwind s = .signal s := by
  cases frame with
  | function => exact absurd rfl h
  | _ => rfl

/-- While `inner` waits, steps lead from the task to the result of the action, for which `outer`
waits. -/
def Runs (limit : Nat) (task : Task) (inner outer : List Frame) (action : Eval Value) : Prop :=
  ∀ pending world, Steps limit ⟨task, inner, world, pending⟩ (ended outer pending (action world))

namespace Runs

variable {action : Eval Value}

theorem value (value : Value) : Runs limit (.value value) waiting waiting (pure value) :=
  fun _ _ => .refl

/-- A step that changes nothing in the world. -/
theorem head (h : ∀ pending world, Moment.next? limit ⟨task, inner, world, pending⟩ =
      some ⟨task', inner', world, pending⟩)
    (hr : Runs limit task' inner' outer action) : Runs limit task inner outer action :=
  fun pending world => Relation.ReflTransGen.head (h pending world) (hr pending world)

/-- A step that does something in the world. A signal raised there goes to what waits outside. -/
theorem step {α : Type} {does : Eval α} {then' : α → Task} {next : α → Eval Value}
    (frames : List Frame)
    (h : ∀ pending world, Moment.next? limit ⟨task, inner, world, pending⟩ =
      some (settle waiting pending (((do return (then' (← does), frames)) : Eval Move) world)))
    (hn : ∀ a, Runs limit (then' a) (frames ++ waiting) waiting (next a)) :
    Runs limit task inner waiting (does >>= next) := by
  intro pending world
  refine .head (h pending world) ?_
  cases hr : does world with
  | ok a world' =>
    rw [Action.bind_of_ok hr, Action.bind_of_ok hr]
    exact hn a pending world'
  | error s world' =>
    rw [Action.bind_of_error hr, Action.bind_of_error hr]
    exact .refl

/-- A step that leads to a value. -/
theorem last (h : ∀ pending world, Moment.next? limit ⟨task, inner, world, pending⟩ =
      some (settle waiting pending (((do return (.value (← action), [])) : Eval Move) world))) :
    Runs limit task inner waiting action := by
  rw [← bind_pure action]
  exact step [] h value

/-- The value that a task comes to is handed to the frame that waits for it. A signal passes the
frame, as long as it is not the end of a function. -/
theorem bind {next : Value → Eval Value}
    (h : Runs limit task (frame :: waiting) (frame :: waiting) action) (hframe : frame ≠ .function)
    (hn : ∀ value, Runs limit (.value value) (frame :: waiting) waiting (next value)) :
    Runs limit task (frame :: waiting) waiting (action >>= next) := by
  intro pending world
  have hs := h pending world
  cases hr : action world with
  | ok value world' =>
    rw [hr] at hs
    rw [Action.bind_of_ok hr]
    exact hs.trans (hn value pending world')
  | error s world' =>
    rw [hr] at hs
    rw [Action.bind_of_error hr]
    refine hs.trans (.single ?_)
    simp only [ended, Moment.next?, Frame.unwind_of_ne hframe]

end Runs

/-! ### Steps to the end of statements -/

/-- The moment at which statements have ended. -/
def ceased (scope : ScopeId) (waiting : List Frame) (pending : List Program) :
    EStateM.Result Signal World (Option Value) → Moment
  | .ok last world => ⟨.block last [] scope, waiting, world, pending⟩
  | .error s world => ⟨.signal s, waiting, world, pending⟩

/-- Steps lead from the task to the end of the statements that the action runs. -/
def Ceases (limit : Nat) (task : Task) (waiting : List Frame) (scope : ScopeId)
    (action : Eval (Option Value)) : Prop :=
  ∀ pending world,
    Steps limit ⟨task, waiting, world, pending⟩ (ceased scope waiting pending (action world))

theorem eval_fill (call : Caller) (scope : ScopeId) (stub : Stub) (e : Expr) :
    (stub.fill e).eval call scope =
      e.eval call scope >>= fun value => finish scope value stub := by
  cases stub with
  | declare | assign | ret => rfl
  | expr => simp [Stub.fill, Stmt.eval, finish]

theorem next?_fill (stub : Stub) (e : Expr) (last : Option Value) (rest : List Stmt)
    (scope : ScopeId) :
    Moment.next? limit ⟨.block last (stub.fill e :: rest) scope, waiting, world, pending⟩ =
      some ⟨.expr e scope, .stmt stub rest scope :: waiting, world, pending⟩ := by
  cases stub <;> rfl

/-- The value for a statement is found first, and the statements behind it are run at the end. -/
theorem Ceases.cons {call : Caller} {scope : ScopeId} {e : Expr} {rest : List Stmt}
    {last : Option Value} (stub : Stub)
    (h : Runs limit (.expr e scope) (.stmt stub rest scope :: waiting)
      (.stmt stub rest scope :: waiting) (e.eval call scope))
    (hrest : ∀ last, Ceases limit (.block last rest scope) waiting scope
      (Stmt.evalAll call scope last rest)) :
    Ceases limit (.block last (stub.fill e :: rest) scope) waiting scope
      (Stmt.evalAll call scope last (stub.fill e :: rest)) := by
  intro pending world
  refine .head (next?_fill stub e last rest scope) ?_
  rw [Stmt.evalAll, eval_fill, bind_assoc]
  have hs := h pending world
  cases hr : e.eval call scope world with
  | ok value world' =>
    rw [hr] at hs
    rw [Action.bind_of_ok hr]
    refine hs.trans (.head rfl ?_)
    cases hf : finish scope value stub world' with
    | ok last world'' =>
      rw [Action.bind_of_ok hf, Frame.resume, Action.bind_of_ok hf]
      exact hrest last pending world''
    | error s world'' =>
      rw [Action.bind_of_error hf, Frame.resume, Action.bind_of_error hf]
      exact .refl
  | error s world' =>
    rw [hr] at hs
    rw [Action.bind_of_error hr]
    exact hs.trans (.single rfl)

/-- The value of a block. -/
theorem Ceases.orNull {scope : ScopeId} {action : Eval (Option Value)}
    (h : Ceases limit task waiting scope action) (hne : waiting ≠ []) :
    Runs limit task waiting waiting (orNull action) := by
  intro pending world
  have hs := h pending world
  obtain ⟨frame, waiting, rfl⟩ := List.exists_cons_of_ne_nil hne
  cases hr : action world with
  | ok last world' =>
    rw [hr] at hs
    rw [Eval.orNull, Action.bind_of_ok hr]
    exact hs.trans (.single rfl)
  | error s world' =>
    rw [hr] at hs
    rw [Eval.orNull, Action.bind_of_error hr]
    exact hs

/-! ### Expressions and statements -/

/-- What the values of a row are made into. -/
def Purpose.apply (call : Caller) : Purpose → List Value → Eval Value
  | .list, values => pure (.list values)
  | .tuple, values => pure (.tuple values)
  | .call f, values => call f values

/-- Calls that may nest so many more are made in steps. -/
def CallsRun (limit budget : Nat) : Prop :=
  ∀ (f : Value) (args : List Value) (waiting : List Frame), waiting ≠ [] →
    active waiting + budget = limit →
      Runs limit (.call f args) waiting waiting (callWithin limit budget f args)

theorem runs_finish (hcall : CallsRun limit budget) (purpose : Purpose) (values : List Value)
    (hne : waiting ≠ []) (hactive : active waiting + budget = limit) :
    Runs limit (purpose.finish values) waiting waiting
      (purpose.apply (callWithin limit budget) values) := by
  cases purpose with
  | list => exact .value _
  | tuple => exact .value _
  | call f => exact hcall f values waiting hne hactive

mutual

theorem runs_expr (hcall : CallsRun limit budget) :
    (e : Expr) → ∀ (scope : ScopeId) (waiting : List Frame), waiting ≠ [] →
      active waiting + budget = limit →
        Runs limit (.expr e scope) waiting waiting (e.eval (callWithin limit budget) scope)
  | .int _, _, _, _, _ | .str _, _, _, _, _ | .bool _, _, _, _, _ | .null, _, _, _, _
  | .var _, _, _, _, _ | .fn _ _, _, _, _, _ => .last fun _ _ => rfl
  | .unary op a, scope, waiting, _, hactive => by
    rw [Expr.eval]
    have hoperand := runs_expr hcall a scope (.operand op :: waiting) nofun hactive
    refine .head (fun _ _ => rfl) (hoperand.bind nofun fun value => ?_)
    exact .last fun _ _ => rfl
  | .binary op a b, scope, waiting, _, hactive => by
    rw [Expr.eval]
    have hleft := runs_expr hcall a scope (.left op b scope :: waiting) nofun hactive
    refine .head (fun _ _ => rfl) (hleft.bind nofun fun l => ?_)
    have hright := runs_expr hcall b scope (.right op l :: waiting) nofun hactive
    refine .head (fun _ _ => rfl) (hright.bind nofun fun r => ?_)
    exact .last fun _ _ => rfl
  | .cond test body otherwise, scope, waiting, hne, hactive => by
    rw [Expr.eval]
    have htest := runs_expr hcall test scope (.test body otherwise scope :: waiting) nofun hactive
    refine .head (fun _ _ => rfl) (htest.bind nofun fun value => ?_)
    by_cases htruthy : value.truthy
    · rw [if_pos htruthy]
      refine .step [] (fun _ _ => ?_) fun inner =>
        (ceases_stmts hcall body none inner waiting hactive).orNull hne
      rw [Moment.next?, Frame.resume, if_pos htruthy]
    · rw [if_neg htruthy]
      exact runs_else hcall otherwise body scope waiting hne hactive htruthy
  | .call callee args, scope, waiting, hne, hactive => by
    rw [Expr.eval]
    have hcallee := runs_expr hcall callee scope (.callee args scope :: waiting) nofun hactive
    refine .head (fun _ _ => rfl) (hcallee.bind nofun fun f => ?_)
    exact .head (fun _ _ => rfl) (runs_row hcall args (.call f) [] scope waiting hne hactive)
  | .index target position, scope, waiting, _, hactive => by
    rw [Expr.eval]
    have htarget := runs_expr hcall target scope (.target position scope :: waiting) nofun hactive
    refine .head (fun _ _ => rfl) (htarget.bind nofun fun t => ?_)
    have hposition := runs_expr hcall position scope (.position t :: waiting) nofun hactive
    refine .head (fun _ _ => rfl) (hposition.bind nofun fun p => ?_)
    exact .last fun _ _ => rfl
  | .list elements, scope, waiting, hne, hactive => by
    rw [Expr.eval]
    exact .head (fun _ _ => rfl) (runs_row hcall elements .list [] scope waiting hne hactive)
  | .tuple elements, scope, waiting, hne, hactive => by
    rw [Expr.eval]
    exact .head (fun _ _ => rfl) (runs_row hcall elements .tuple [] scope waiting hne hactive)
  | .map pairs, scope, waiting, hne, hactive => by
    rw [Expr.eval]
    exact .head (fun _ _ => rfl) (runs_pairs hcall pairs [] scope waiting hne hactive)

theorem runs_row (hcall : CallsRun limit budget) :
    (es : List Expr) → ∀ (purpose : Purpose) (values : List Value) (scope : ScopeId)
      (waiting : List Frame), waiting ≠ [] → active waiting + budget = limit →
        Runs limit (.row purpose values es scope) waiting waiting
          (Expr.evalAll (callWithin limit budget) scope es >>= fun others =>
            purpose.apply (callWithin limit budget) (values ++ others))
  | [], purpose, values, _, _, hne, hactive => by
    rw [Expr.evalAll, pure_bind, List.append_nil]
    exact .head (fun _ _ => rfl) (runs_finish hcall purpose values hne hactive)
  | e :: es, purpose, values, scope, waiting, hne, hactive => by
    simp only [Expr.evalAll, bind_assoc, pure_bind]
    have hfirst := runs_expr hcall e scope (.row purpose values es scope :: waiting) nofun hactive
    refine .head (fun _ _ => rfl) (hfirst.bind nofun fun value => .head (fun _ _ => rfl) ?_)
    simpa using runs_row hcall es purpose (values ++ [value]) scope waiting hne hactive

theorem runs_pairs (hcall : CallsRun limit budget) :
    (pairs : List (Expr × Expr)) → ∀ (entries : Entries) (scope : ScopeId)
      (waiting : List Frame), waiting ≠ [] → active waiting + budget = limit →
        Runs limit (.pairs entries pairs scope) waiting waiting
          (Expr.evalPairs (callWithin limit budget) scope entries pairs >>= fun entries =>
            pure (.map entries))
  | [], entries, _, _, _, _ => by
    rw [Expr.evalPairs, pure_bind]
    exact .last fun _ _ => rfl
  | (a, b) :: pairs, entries, scope, waiting, hne, hactive => by
    simp only [Expr.evalPairs, bind_assoc]
    have hkey := runs_expr hcall a scope (.key entries b pairs scope :: waiting) nofun hactive
    refine .head (fun _ _ => rfl) (hkey.bind nofun fun keyValue => ?_)
    cases hk : keyValue.key? with
    | none =>
      refine .step [] (fun _ _ => ?_) fun entries => .value (.map entries)
      rw [Moment.next?, Frame.resume, hk]
      rfl
    | some key =>
      rw [bind_assoc]
      -- the frame for the value needs the key, so the two halves are put together by hand
      have hvalue :=
        runs_expr hcall b scope (.entry entries key pairs scope :: waiting) nofun hactive
      have hrest := hvalue.bind nofun fun value => .head (fun _ _ => rfl)
        (runs_pairs hcall pairs (Entries.insert key value entries) scope waiting hne hactive)
      refine .head (fun _ _ => ?_) hrest
      rw [Moment.next?, Frame.resume, hk]
      rfl

theorem runs_else (hcall : CallsRun limit budget) :
    (otherwise : Option (List Stmt)) → ∀ (body : List Stmt) (scope : ScopeId)
      (waiting : List Frame), waiting ≠ [] → active waiting + budget = limit →
        ∀ {value : Value}, ¬ value.truthy →
          Runs limit (.value value) (.test body otherwise scope :: waiting) waiting
            (Stmt.evalElse (callWithin limit budget) scope otherwise)
  | none, _, _, _, _, _, _, hfalsy => by
    refine .last fun _ _ => ?_
    rw [Moment.next?, Frame.resume, if_neg hfalsy]
    rfl
  | some branch, _, _, waiting, hne, hactive, _, hfalsy => by
    rw [Stmt.evalElse]
    refine .step [] (fun _ _ => ?_) fun inner =>
      (ceases_stmts hcall branch none inner waiting hactive).orNull hne
    rw [Moment.next?, Frame.resume, if_neg hfalsy]

theorem ceases_stmts (hcall : CallsRun limit budget) :
    (stmts : List Stmt) → ∀ (last : Option Value) (scope : ScopeId) (waiting : List Frame),
      active waiting + budget = limit →
        Ceases limit (.block last stmts scope) waiting scope
          (Stmt.evalAll (callWithin limit budget) scope last stmts)
  | [], _, _, _, _ => fun _ _ => .refl
  | .ret none :: _, _, _, _, _ => fun _ _ => .single rfl
  | .declare x e :: stmts, _, scope, waiting, hactive =>
    .cons (.declare x)
      (runs_expr hcall e scope (.stmt (.declare x) stmts scope :: waiting) nofun hactive)
      fun last => ceases_stmts hcall stmts last scope waiting hactive
  | .assign x e :: stmts, _, scope, waiting, hactive =>
    .cons (.assign x)
      (runs_expr hcall e scope (.stmt (.assign x) stmts scope :: waiting) nofun hactive)
      fun last => ceases_stmts hcall stmts last scope waiting hactive
  | .ret (some e) :: stmts, _, scope, waiting, hactive =>
    .cons .ret (runs_expr hcall e scope (.stmt .ret stmts scope :: waiting) nofun hactive)
      fun last => ceases_stmts hcall stmts last scope waiting hactive
  | .expr e :: stmts, _, scope, waiting, hactive =>
    .cons .expr (runs_expr hcall e scope (.stmt .expr stmts scope :: waiting) nofun hactive)
      fun last => ceases_stmts hcall stmts last scope waiting hactive

end

/-! ### Calls -/

/-- The end of a function. -/
theorem Runs.returned {action : Eval Value}
    (h : Runs limit task (.function :: waiting) (.function :: waiting) action) :
    Runs limit task (.function :: waiting) waiting (returned action) := by
  intro pending world
  have hs := h pending world
  cases hr : action world with
  | ok value world' =>
    rw [hr] at hs
    rw [Eval.returned, hr]
    exact hs.trans (.single rfl)
  | error s world' =>
    rw [hr] at hs
    rw [Eval.returned, hr]
    cases s <;> exact hs.trans (.single rfl)

theorem next?_call (f : Value) (args : List Value) :
    Moment.next? limit ⟨.call f args, waiting, world, pending⟩ =
      some (settle waiting pending (enter limit (active waiting) args f world)) := rfl

/-- By induction on the number of calls that may still be nested. -/
theorem callsRun (limit budget : Nat) : CallsRun limit budget := by
  intro f args waiting hne hactive
  cases f with
  | function f =>
    by_cases harity : args.length = f.params.length
    · cases budget with
      | zero =>
        have hlt : ¬ active waiting < limit := by omega
        refine .last fun _ _ => ?_
        rw [next?_call, enter, if_pos harity, if_neg hlt, callWithin, if_pos harity]
        rfl
      | succ budget =>
        have hlt : active waiting < limit := by omega
        -- inside the function one more call has not ended and one less may be nested
        have hfunction : active (.function :: waiting) + budget = limit := by
          simp only [active]
          omega
        have hbody (inner : ScopeId) :=
          (ceases_stmts (callsRun limit budget) f.body none inner _ hfunction).orNull
            (List.cons_ne_nil _ _)
        rw [callWithin_function harity]
        refine .step [.function] (fun _ _ => ?_) fun inner => (hbody inner).returned
        rw [next?_call, enter, if_pos harity, if_pos hlt]
    · rw [callWithin_of_arity_ne harity]
      refine .last fun _ _ => ?_
      rw [next?_call, enter, if_neg harity]
      rfl
  | _ => cases budget <;> exact .last fun _ _ => rfl

/-! ### Sessions -/

theorem outcome?_ceased (pending : List Program)
    (result : EStateM.Result Signal World (Option Value)) :
    (ceased World.global [] pending result).outcome? = some (Outcome.ofResult result).1 := by
  rcases result with _ | s
  · rfl
  · cases s <;> rfl

theorem world_ceased (pending : List Program)
    (result : EStateM.Result Signal World (Option Value)) :
    (ceased World.global [] pending result).world = (Outcome.ofResult result).2 := by
  rcases result with _ | s
  · rfl
  · cases s <;> rfl

theorem pending_ceased (pending : List Program)
    (result : EStateM.Result Signal World (Option Value)) :
    (ceased World.global [] pending result).pending = pending := by
  cases result <;> rfl

/-- After one program the next one is begun, whatever the first one has come to. -/
theorem next?_of_outcome? (limit : Nat) {m : Moment} {outcome : Outcome}
    (hm : m.outcome? = some outcome) :
    m.next? limit =
      match m.pending with
      | [] => none
      | program :: pending => some ⟨.block none program World.global, [], m.world, pending⟩ := by
  obtain ⟨task, waiting, world, pending⟩ := m
  unfold Moment.outcome? at hm
  split at hm
  · next heq =>
    cases heq
    cases pending <;> rfl
  · next heq =>
    cases heq
    cases pending <;> rfl
  · cases hm

/-- The next program is run to its end. -/
theorem exists_end (limit : Nat) {m : Moment} {outcome : Outcome} {program : Program}
    (hm : m.outcome? = some outcome) (hp : m.pending = program :: pending) :
    ∃ m', Steps limit m m' ∧ m'.outcome? = some (program.run limit m.world).1 ∧
      m'.world = (program.run limit m.world).2 ∧ m'.pending = pending := by
  have hbegin := next?_of_outcome? limit hm
  rw [hp] at hbegin
  have hends := ceases_stmts (callsRun limit limit) program none World.global []
    (Nat.zero_add limit) pending m.world
  exact ⟨_, .head hbegin hends, outcome?_ceased .., world_ceased .., pending_ceased ..⟩

theorem pending_settle (waiting : List Frame) (pending : List Program)
    (result : EStateM.Result Signal World Move) :
    (settle waiting pending result).pending = pending := by
  cases result <;> rfl

theorem pending_le {m m' : Moment} (h : Steps limit m m') :
    m'.pending.length ≤ m.pending.length := by
  induction h with
  | refl => exact Nat.le_refl _
  | tail _ hn ih =>
    refine Nat.le_trans ?_ ih
    unfold Moment.next? at hn
    split at hn <;> cases hn
    · rw [pending_settle]
    · exact Nat.le_refl _
    · exact Nat.le_succ _
    · exact Nat.le_succ _
    · rw [pending_settle]

/-- At the end of a program, steps begin another one or there are none. -/
theorem eq_of_steps {m m' : Moment} {outcome : Outcome} (hm : m.outcome? = some outcome)
    (h : Steps limit m m') (hp : m.pending.length ≤ m'.pending.length) : m' = m := by
  rcases Relation.ReflTransGen.cases_head h with rfl | ⟨m₁, hn, h⟩
  · rfl
  · rw [next?_of_outcome? limit hm] at hn
    have hle := pending_le h
    split at hn
    · cases hn
    · next heq =>
      cases hn
      rw [heq, List.length_cons] at hp
      exact absurd hp (Nat.not_le_of_lt (Nat.lt_succ_of_le hle))

/-- By induction on the programs. Each end of a program is the next one or comes after it, since one
moment leads to no more than one other. -/
theorem mem_session_iff_of_outcome? {m : Moment} {outcome : Outcome}
    (hm : m.outcome? = some outcome) (ended : Outcome × World) :
    ended ∈ Program.session limit m.pending m.world ↔
      ∃ m', Steps limit m m' ∧ m'.pending.length < m.pending.length ∧
        m'.outcome? = some ended.1 ∧ m'.world = ended.2 := by
  generalize hp : m.pending = programs
  induction programs generalizing m outcome with
  | nil => simp [Program.session]
  | cons program programs ih =>
    obtain ⟨e, hsteps, he, hworld, hpending⟩ := exists_end limit hm hp
    rw [Program.session, List.mem_cons, ← hworld]
    have ih := ih he hpending
    constructor
    · rintro (rfl | hlater)
      · exact ⟨e, hsteps, by simp [hpending], he, hworld⟩
      · obtain ⟨m', hsteps', hlt, hm'⟩ := ih.1 hlater
        exact ⟨m', hsteps.trans hsteps', by rw [List.length_cons]; omega, hm'⟩
    · rintro ⟨m', hsteps', hlt, hm', hworld'⟩
      have hends : m' = e → ended = program.run limit m.world := by
        rintro rfl
        exact Prod.ext (Option.some.inj (hm'.symm.trans he)) (hworld'.symm.trans hworld)
      rw [List.length_cons] at hlt
      -- both ends lie on one course, and the one with fewer programs to come is the later one
      have hunique : Relator.RightUnique fun m m' => Moment.next? limit m = some m' :=
        fun _ _ _ h h' => Option.some.inj (h.symm.trans h')
      rcases hsteps.total_of_right_unique hunique hsteps' with hafter | hbefore
      · by_cases hlt' : m'.pending.length < programs.length
        · exact .inr (ih.2 ⟨m', hafter, hlt', hm', hworld'⟩)
        · exact .inl (hends (eq_of_steps he hafter (by rw [hpending]; omega)))
      · exact .inl (hends (eq_of_steps hm' hbefore (by rw [hpending]; omega)).symm)

/-- What the programs of a session come to, and the worlds they leave, is what there is at the
moments at which a program ends. -/
theorem mem_session_iff (limit : Nat) (programs : List Program) (world : World)
    (ended : Outcome × World) :
    ended ∈ Program.session limit programs world ↔
      ∃ m, Steps limit (.begin programs world) m ∧ m.pending.length < programs.length ∧
        m.outcome? = some ended.1 ∧ m.world = ended.2 :=
  mem_session_iff_of_outcome? (m := .begin programs world) rfl ended

end Course

end Tang
