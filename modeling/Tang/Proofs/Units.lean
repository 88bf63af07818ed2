import Tang.Proofs.Growth
import Tang.Proofs.Heap.Session
import Tang.Proofs.Termination

/-! Programs as units. It makes no difference whether statements are run as one program or as two
programs one after the other, as long as the first ones run to their end. A machine that counts the
active calls sets its counter to zero at the start of a program, and not between two statements; the
statements before have set it back to zero themselves. -/

namespace Tang

open Tang.Action (final)

/-! ### Statements in sequence -/

theorem Stmt.evalAll_append (call : Caller) (scope : ScopeId) (last : Option Value)
    (first second : List Stmt) :
    Stmt.evalAll call scope last (first ++ second) =
      Stmt.evalAll call scope last first >>= fun last => Stmt.evalAll call scope last second := by
  induction first generalizing last with
  | nil => rfl
  | cons stmt first ih =>
    simp only [List.cons_append, Stmt.evalAll, bind_assoc]
    congr 1
    funext value
    exact ih value

/-- What the statement before has come to is forgotten if another one follows. -/
theorem Stmt.evalAll_of_ne_nil {stmts : List Stmt} (h : stmts ≠ []) (call : Caller)
    (scope : ScopeId) (last : Option Value) :
    Stmt.evalAll call scope last stmts = Stmt.evalAll call scope none stmts := by
  cases stmts with
  | nil => exact absurd rfl h
  | cons stmt stmts => simp only [Stmt.evalAll]

namespace Program

/-- The program runs to its end: none of its statements returns, fails or exits. -/
def Completes (limit : Nat) (scope : ScopeId) (program : Program) (world : World) : Prop :=
  ∃ last world',
    Stmt.evalAll (callWithin limit limit) scope none program world = .ok last world'

variable {limit : Nat} {scope : ScopeId} {first second : Program} {world : World}

theorem runIn_append_of_completes (h : first.Completes limit scope world) :
    (first ++ second).runIn limit scope world =
      (if second.isEmpty then (first.runIn limit scope world).1
        else (second.runIn limit scope (first.runIn limit scope world).2).1,
        (second.runIn limit scope (first.runIn limit scope world).2).2) := by
  obtain ⟨last, world', hfirst⟩ := h
  simp only [runIn, Stmt.evalAll_append, Action.bind_of_ok hfirst, hfirst, Outcome.ofResult]
  cases second with
  | nil => rfl
  | cons stmt second => rw [Stmt.evalAll_of_ne_nil (List.cons_ne_nil stmt second)]; rfl

theorem runIn_append_of_not_completes (h : ¬ first.Completes limit scope world) :
    (first ++ second).runIn limit scope world = first.runIn limit scope world := by
  cases hfirst : Stmt.evalAll (callWithin limit limit) scope none first world with
  | ok last world' => exact absurd ⟨last, world', hfirst⟩ h
  | error signal world' =>
    simp only [runIn, Stmt.evalAll_append, Action.bind_of_error hfirst, hfirst]

/-- The machine runs two programs, and their statements as one, as evaluation does. -/
theorem exists_fuel_append (hw : world.scopes.Sound .any) (hs : scope < world.scopes.size) :
    ∃ fuel, ∀ n, fuel ≤ n →
      Machine.runProgram limit n scope first world = some (first.runIn limit scope world) ∧
      Machine.runProgram limit n scope second (first.runIn limit scope world).2 =
        some (second.runIn limit scope (first.runIn limit scope world).2) ∧
      Machine.runProgram limit n scope (first ++ second) world =
        some ((first ++ second).runIn limit scope world) := by
  have hw' := (runIn_sound (Stmt.obeyAll_any first) hw hs
    (rfl : first.runIn limit scope world = _)).1
  have hs' : scope < (first.runIn limit scope world).2.scopes.size :=
    (runIn_extends (Stmt.obeyAll_any first) hw hs).lt_size hs
  obtain ⟨fuel₁, h₁⟩ := Machine.reaches_program limit first hw hs
  obtain ⟨fuel₂, h₂⟩ := Machine.reaches_program limit second hw' hs'
  obtain ⟨fuel₃, h₃⟩ := Machine.reaches_program limit (first ++ second) hw hs
  refine ⟨max fuel₁ (max fuel₂ fuel₃), fun n hn => ⟨?_, ?_, ?_⟩⟩
  · exact Machine.runProgram_mono (by omega) h₁
  · exact Machine.runProgram_mono (by omega) h₂
  · exact Machine.runProgram_mono (by omega) h₃

/-- Statements run as one program leave the world that two programs leave, write what these write,
and come to what the second one comes to, or the first one if the second one is empty. If the first
program does not run to its end, nothing of the second one is run. In sound scopes this is so too
for the machine that counts the active calls. -/
theorem runIn_append (limit : Nat) (scope : ScopeId) (first second : Program) (world : World) :
    let one := first.runIn limit scope world
    let two := second.runIn limit scope one.2
    let whole := (first ++ second).runIn limit scope world
    (first.Completes limit scope world →
      whole.2.scopes = two.2.scopes ∧ whole.1 = (if second.isEmpty then one.1 else two.1) ∧
      ∃ written written', one.2.output = world.output ++ written ∧
        two.2.output = one.2.output ++ written' ∧
        whole.2.output = world.output ++ (written ++ written')) ∧
    (¬ first.Completes limit scope world → whole = one) ∧
    (world.scopes.Sound .any → scope < world.scopes.size → ∃ fuel, ∀ n, fuel ≤ n →
      Machine.runProgram limit n scope first world = some one ∧
      Machine.runProgram limit n scope second one.2 = some two ∧
      Machine.runProgram limit n scope (first ++ second) world = some whole) := by
  intro one two whole
  refine ⟨fun h => ?_, runIn_append_of_not_completes, exists_fuel_append⟩
  have hwhole : whole = (if second.isEmpty then one.1 else two.1, two.2) :=
    runIn_append_of_completes h
  obtain ⟨written, hone⟩ := runIn_grows limit scope first world
  obtain ⟨written', htwo⟩ := runIn_grows limit scope second one.2
  refine ⟨by rw [hwhole], by rw [hwhole], written, written', hone, htwo, ?_⟩
  rw [hwhole, ← ByteArray.append_assoc, ← hone]
  exact htwo

/-- A declaration runs to its end, and what follows sees the name; nothing follows a `return`. -/
theorem runIn_append_declare :
    Completes 1 0 [.declare "x" (.int 1)] (.initial none 0) ∧
      (runIn 1 0 ([.declare "x" (.int 1)] ++ [.expr (.var "x")]) (.initial none 0)).1 =
        .value (some (.int 1)) ∧
      ¬ Completes 1 0 [.ret none] (.initial none 0) ∧
      runIn 1 0 ([.ret none] ++ [.expr (.var "x")]) (.initial none 0) =
        runIn 1 0 [.ret none] (.initial none 0) := by
  have hcompletes : Completes 1 0 [.declare "x" (.int 1)] (.initial none 0) := ⟨none, _, rfl⟩
  have hreturns : ¬ Completes 1 0 [.ret none] (.initial none 0) := by
    rintro ⟨last, world', h⟩
    cases h
  have hdeclare := (runIn_append 1 0 _ [.expr (.var "x")] _).1 hcompletes
  have hret := (runIn_append 1 0 _ [.expr (.var "x")] _).2.1 hreturns
  exact ⟨hcompletes, hdeclare.2.1.trans (by decide +kernel), hreturns, hret⟩

end Program

end Tang
