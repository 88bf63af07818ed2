import Mathlib.Data.ENat.Basic
import Tang.Proofs.Growth

/-! The limit of nested calls. A program that is not stopped by the limit does not depend on it, and
one that is stopped has by then written the beginning of what it would write under a higher limit.
Nothing catches the failure with which a call ends that is nested too deep, so two runs under
different limits are the same up to this failure. -/

namespace Tang

open Tang.Action (final final_error)

/-! ### Two runs -/

def Signal.Ordinary : Signal → Prop
  | .error cause => cause.Ordinary
  | _ => True

variable {α β : Type}

/-- In each world the first action, which runs under `limit`, does the same as the second one and
does not fail for a limit. Or it fails for its limit, and then the second one adds to the output
that there is. -/
structure Overtakes (limit : Nat) (x y : Eval α) : Prop where
  appends : y.Appends
  agrees (world : World) :
    (x world = y world ∧ ∀ signal world', x world = .error signal world' → signal.Ordinary) ∨
      ∃ world', x world = .error (.error (.callTooDeep limit)) world' ∧
        world'.Grows (final (y world))

namespace Overtakes

variable {limit : Nat}

theorem refl {x : Eval α} (h : x.Appends)
    (hx : ∀ world signal world', x world = .error signal world' → signal.Ordinary) :
    Overtakes limit x x :=
  ⟨h, fun world => .inl ⟨rfl, hx world⟩⟩

/-- An action that always succeeds. -/
theorem of_ok {x : Eval α} (h : x.Appends) (hx : ∀ world, ∃ a world', x world = .ok a world') :
    Overtakes limit x x := by
  refine refl h fun world signal world' hr => ?_
  obtain ⟨a, world'', hok⟩ := hx world
  rw [hok] at hr
  cases hr

theorem throw {signal : Signal} (h : signal.Ordinary) :
    Overtakes limit (throw signal : Eval α) (throw signal) := by
  refine refl (.of_silent fun _ => rfl) fun world signal' world' hr => ?_
  cases hr
  exact h

theorem bind {x y : Eval α} {f g : α → Eval β} (h : Overtakes limit x y)
    (hn : ∀ a, Overtakes limit (f a) (g a)) : Overtakes limit (x >>= f) (y >>= g) := by
  refine ⟨h.appends.bind fun a => (hn a).appends, fun world => ?_⟩
  rcases h.agrees world with ⟨heq, hordinary⟩ | ⟨world', hdeep, hgrows⟩
  · cases hr : x world with
    | ok a world₁ =>
      rw [Action.bind_of_ok hr, Action.bind_of_ok (heq.symm.trans hr)]
      exact (hn a).agrees world₁
    | error signal world₁ =>
      rw [Action.bind_of_error hr, Action.bind_of_error (heq.symm.trans hr)]
      refine .inl ⟨rfl, fun signal' world' he => ?_⟩
      cases he
      exact hordinary signal world₁ hr
  · refine .inr ⟨world', Action.bind_of_error hdeep, ?_⟩
    -- the second action has gone on, and what follows it only adds to the output
    cases hr : y world with
    | ok a world₁ =>
      rw [hr] at hgrows
      rw [Action.bind_of_ok hr]
      exact hgrows.trans ((hn a).appends world₁)
    | error signal world₁ =>
      rw [hr] at hgrows
      rw [Action.bind_of_error hr]
      exact hgrows

theorem lookup (scope : ScopeId) (name : String) :
    Overtakes limit (Eval.lookup scope name) (Eval.lookup scope name) := by
  refine refl (.lookup scope name) fun world signal world' hr => ?_
  have hget : (get : Eval World) world = .ok world world := rfl
  rw [Eval.lookup, Action.bind_of_ok hget] at hr
  cases hv : world.scopes.get? scope name with
  | some value => simp only [hv] at hr; cases hr
  | none =>
    cases hb : Builtin.ofName? name with
    | some builtin => simp only [hv, hb] at hr; cases hr
    | none =>
      simp only [hv, hb] at hr
      cases hr
      trivial

theorem print (text : String) :
    Overtakes limit (World.onSink (Builtin.writeLine text))
      (World.onSink (Builtin.writeLine text)) := by
  refine refl (.print text) fun world signal world' hr => ?_
  cases hw : Sink.writeLine text world.sink with
  | ok _ sink => simp only [World.onSink, Builtin.writeLine, hw] at hr; cases hr
  | error error sink =>
    simp only [World.onSink, Builtin.writeLine, hw] at hr
    cases hr
    trivial

/-- The failure for the limit is not the end of a function. -/
theorem returned {x y : Eval Value} (h : Overtakes limit x y) :
    Overtakes limit (Eval.returned x) (Eval.returned y) := by
  refine ⟨h.appends.returned, fun world => ?_⟩
  rcases h.agrees world with ⟨heq, hordinary⟩ | ⟨world', hdeep, hgrows⟩
  · refine .inl ⟨by simp only [Eval.returned, heq], fun signal world' hr => ?_⟩
    unfold Eval.returned at hr
    split at hr
    · cases hr
    · exact hordinary signal world' hr
  · refine .inr ⟨world', by simp only [Eval.returned, hdeep], ?_⟩
    unfold Eval.returned
    split
    · next hr => rwa [hr] at hgrows
    · exact hgrows

theorem compatible (limit : Nat) : Compatible fun _ x y => Overtakes limit x y where
  pure _ := of_ok (.of_silent fun _ => rfl) fun _ => ⟨_, _, rfl⟩
  ret _ := throw trivial
  exit _ := throw trivial
  fail h := throw h
  bind := bind
  lookup := lookup
  declare _ _ _ := of_ok (.of_silent fun _ => rfl) fun _ => ⟨_, _, rfl⟩
  assign _ _ _ := of_ok (.of_silent fun _ => rfl) fun _ => ⟨_, _, rfl⟩
  enclose _ := of_ok (.of_silent fun _ => rfl) fun _ => ⟨_, _, rfl⟩
  create _ _ _ := of_ok (.of_silent fun _ => rfl) fun _ => ⟨_, _, rfl⟩
  print := print
  returned := returned

/-- Where calls are nested too deep under the lower limit, they go on under the higher one. -/
theorem callWithin {limit limit' depth depth' : Nat} (hle : depth ≤ depth') (f : Value)
    (args : List Value) : Overtakes limit (Tang.callWithin limit depth f args)
      (Tang.callWithin limit' depth' f args) := by
  refine callWithin_congr (compatible limit) (fun depth' f args => ?_) hle f args
  have happends := Eval.appends_callWithin limit' depth' (.function f) args
  exact ⟨happends, fun world => .inr ⟨world, rfl, happends world⟩⟩

theorem evalAll {limit limit' : Nat} (hle : limit ≤ limit') (stmts : List Stmt) (scope : ScopeId)
    (last : Option Value) :
    Overtakes limit (Stmt.evalAll (Tang.callWithin limit limit) scope last stmts)
      (Stmt.evalAll (Tang.callWithin limit' limit') scope last stmts) :=
  Stmt.evalAll_congr (compatible limit) (callWithin hle) stmts scope last

end Overtakes

/-! ### Programs -/

/-- The program has failed because calls were nested deeper than the limit. -/
def Outcome.TooDeep (limit : Nat) (outcome : Outcome) : Prop :=
  ∃ cause, outcome = .error cause ∧
    cause.message = "maximum call depth exceeded (" ++ toString limit ++ ")"

section Programs

variable {limit limit' : Nat} {scope : ScopeId} {program : Program} {world : World}

/-- Under a higher limit a program does the same, or it goes on where it was stopped. -/
theorem Program.runIn_of_limit_le (hle : limit ≤ limit') :
    (program.runIn limit' scope world = program.runIn limit scope world ∧
      ∀ cause, (program.runIn limit scope world).1 = .error cause → cause.Ordinary) ∨
    (program.runIn limit scope world).1 = .error (.callTooDeep limit) ∧
      (program.runIn limit scope world).2.Grows (program.runIn limit' scope world).2 := by
  rcases (Overtakes.evalAll hle program scope none).agrees world with ⟨heq, h⟩ | ⟨world', hr, h⟩
  · refine .inl ⟨by simp only [runIn, heq], fun cause hc => ?_⟩
    cases hr : Stmt.evalAll (callWithin limit limit) scope none program world with
    | ok last world' => simp only [runIn, hr, Outcome.ofResult] at hc; cases hc
    | error signal world' =>
      have hsignal := h signal world' hr
      cases signal <;> simp only [runIn, hr, Outcome.ofResult] at hc <;> cases hc
      exact hsignal
  · refine .inr ?_
    rw [runIn, runIn, hr, Outcome.ofResult_snd (Stmt.evalAll _ _ _ _ _)]
    exact ⟨rfl, h⟩

theorem Outcome.tooDeep_callTooDeep (limit : Nat) :
    (Outcome.error (.callTooDeep limit)).TooDeep limit :=
  ⟨.callTooDeep limit, rfl, rfl⟩

/-- The message of the failure tells it from all others that a run can end in. -/
theorem Outcome.not_tooDeep_of_ordinary {outcome : Outcome}
    (h : ∀ cause, outcome = .error cause → cause.Ordinary) (limit : Nat) :
    ¬ outcome.TooDeep limit := by
  rintro ⟨cause, hc, hmessage⟩
  exact (h cause hc).message_ne limit hmessage

theorem Program.runIn_eq_of_not_tooDeep (hle : limit ≤ limit')
    (h : ¬ (program.runIn limit scope world).1.TooDeep limit) :
    program.runIn limit' scope world = program.runIn limit scope world ∧
      ∀ m, ¬ (program.runIn limit' scope world).1.TooDeep m := by
  rcases runIn_of_limit_le hle with ⟨heq, hordinary⟩ | ⟨hdeep, -⟩
  · exact ⟨heq, heq ▸ Outcome.not_tooDeep_of_ordinary hordinary⟩
  · rw [hdeep] at h
    exact absurd (Outcome.tooDeep_callTooDeep limit) h

/-- The numbers with a property that passes to smaller ones are those below a threshold. -/
theorem exists_threshold {p : ℕ → Prop} (h : ∀ {m n}, m ≤ n → ¬ p m → ¬ p n) :
    ∃ threshold : ℕ∞, ∀ n : ℕ, p n ↔ n < threshold := by
  classical
  by_cases hall : ∃ n, ¬ p n
  · refine ⟨Nat.find hall, fun n => ?_⟩
    rw [Nat.cast_lt, Nat.lt_find_iff]
    constructor
    · intro hn m hm hp
      exact h hm hp hn
    · intro hn
      exact Classical.not_not.1 (hn n (Nat.le_refl n))
  · refine ⟨⊤, fun n => ⟨fun _ => ENat.natCast_lt_top n, fun _ => ?_⟩⟩
    exact Classical.byContradiction fun hn => hall ⟨n, hn⟩

/-- Raising the limit of nested calls does not change a run that did not hit it, and lets a run that
did hit it go on from the output it has written. The limits that are hit are those below a
threshold. -/
theorem Program.runIn_raise_limit (program : Program) (scope : ScopeId) (world : World) :
    (∀ limit limit', limit ≤ limit' →
      let low := program.runIn limit scope world
      let high := program.runIn limit' scope world
      (¬ low.1.TooDeep limit → high = low) ∧
      (low.1.TooDeep limit → ∃ more, high.2.output = low.2.output ++ more)) ∧
    ∃ threshold : ℕ∞, ∀ limit : ℕ,
      (program.runIn limit scope world).1.TooDeep limit ↔ limit < threshold := by
  refine ⟨fun limit limit' hle => ⟨fun hlow => ?_, fun hlow => ?_⟩, exists_threshold ?_⟩
  · exact (runIn_eq_of_not_tooDeep hle hlow).1
  · rcases runIn_of_limit_le hle with ⟨heq, -⟩ | ⟨-, hgrows⟩
    · rw [heq]
      exact World.Grows.refl _
    · exact hgrows
  · intro limit limit' hle hlow
    exact (runIn_eq_of_not_tooDeep hle hlow).2 limit'

/-- A function that prints its argument and calls itself once more if the argument is true. -/
def Program.twoCalls : Program :=
  [.declare "f" (.fn ["again"]
    [.expr (.call (.var "print") [.var "again"]),
     .expr (.cond (.var "again") [.expr (.call (.var "f") [.bool false])] none)]),
   .expr (.call (.var "f") [.bool true])]

theorem Program.runIn_raise_limit_twoCalls :
    let run (limit : Nat) := twoCalls.runIn limit World.global (.initial none 0)
    (run 1).1.TooDeep 1 ∧ (∃ more, (run 1024).2.output = (run 1).2.output ++ more) ∧
      ¬ (run 2).1.TooDeep 2 ∧ run 1024 = run 2 := by
  intro run
  have hone : (twoCalls.runIn 1 World.global (.initial none 0)).1 = .error (.callTooDeep 1) := by
    decide +kernel
  have htwo : (twoCalls.runIn 2 World.global (.initial none 0)).1 = .value (some .null) := by
    decide +kernel
  have hdeep : (run 1).1.TooDeep 1 := hone ▸ Outcome.tooDeep_callTooDeep 1
  have hend : ¬ (run 2).1.TooDeep 2 := by
    rintro ⟨cause, hc, -⟩
    rw [htwo] at hc
    cases hc
  obtain ⟨hraise, -⟩ := runIn_raise_limit twoCalls World.global (.initial none 0)
  exact ⟨hdeep, (hraise 1 1024 (by decide)).2 hdeep, hend, (hraise 2 1024 (by decide)).1 hend⟩

end Programs

end Tang
