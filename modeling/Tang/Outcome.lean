import Tang.Eval

/-! Programs are run one after another in a world, each to an outcome. -/

namespace Tang

/-- What a program comes to. It has no value if its last statement has none. -/
inductive Outcome where
  | value (value : Option Value)
  | error (cause : RuntimeError)
  | exit (code : Int32)
  deriving DecidableEq

/-- What a program has come to when its statements have ended, with a value or a signal. -/
def Outcome.ofResult : EStateM.Result Signal World (Option Value) → Outcome × World
  | .ok last world => (.value last, world)
  | .error (.ret result) world => (.value (some result), world)
  | .error (.error failure) world => (.error failure, world)
  | .error (.exit status) world => (.exit status, world)

/-- Runs a program in a scope. At most `limit` calls may be nested. -/
def Program.runIn (limit : Nat) (scope : ScopeId) (program : Program) (world : World) :
    Outcome × World :=
  Outcome.ofResult (Stmt.evalAll (callWithin limit limit) scope none program world)

/-- Runs a program in the global scope. -/
def Program.run (limit : Nat) (program : Program) (world : World) : Outcome × World :=
  program.runIn limit World.global world

end Tang
