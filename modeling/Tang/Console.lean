import Tang.Outcome
import Tang.Syntax.Source

/-! Running programs with their results shown on the output. -/

namespace Tang

/-- Console actions fail when input or output does. -/
abbrev Console := EStateM IoError World

namespace Console

def write (text : String) : Console Unit :=
  World.onSink (Sink.write text)

def writeLine (text : String) : Console Unit :=
  World.onSink (Sink.writeLine text)

/-- Shows each diagnostic on a line that starts with a tab. -/
def showAll : List Diagnostic → Console Unit
  | [] => pure ()
  | diagnostic :: diagnostics => do
    writeLine ("\t" ++ diagnostic.render)
    showAll diagnostics

/-- Shows what a program has come to. An exit gives its code. -/
def report : Outcome → Console (Option Int32)
  | .value (some value) => do
    writeLine value.render
    return none
  | .value none => return none
  | .error cause => do
    writeLine cause.render
    return none
  | .exit code => return some code

def run (limit : Nat) (program : Program) : Console Outcome :=
  fun world =>
    let (outcome, world) := program.run limit world
    .ok outcome world

/-- Runs the program with the given text. A text that is not a program is only diagnosed. -/
def runSource (limit : Nat) (file source : String) : Console (Option Int32) := do
  match Program.parse file source with
  | .ok program => report (← run limit program)
  | .error diagnostics =>
    showAll diagnostics
    return none

end Console

end Tang
