import Tang.Console
import Tang.Settings

/-! The interactive loop: each line of the input is a program, and bindings last from line to
line. -/

namespace Tang.Repl

def newline : UInt8 := 10

def carriageReturn : UInt8 := 13

/-- The lines of an input, each with its line end. The last one may lack it. -/
def lines : List UInt8 → List (List UInt8)
  | [] => []
  | byte :: bytes =>
    if byte = newline then [byte] :: lines bytes
    else
      match lines bytes with
      | [] => [[byte]]
      | line :: rest => (byte :: line) :: rest

/-- A line without its line end, which may have a carriage return before it. -/
def chomp (line : List UInt8) : List UInt8 :=
  match line.reverse with
  | [] => []
  | byte :: rest =>
    if byte = newline then
      match rest with
      | [] => []
      | before :: rest' => if before = carriageReturn then rest'.reverse else rest.reverse
    else line

def decode (line : List UInt8) : Except IoError String :=
  match String.fromUTF8? ⟨(chomp line).toArray⟩ with
  | some text => .ok text
  | none => .error .invalidUtf8

/-- The name under which diagnostics mention the input. -/
def inputName : String := "<stdin>"

/-- Runs one line. -/
def step (settings : Settings) (line : List UInt8) : Console (Option Int32) :=
  match decode line with
  | .ok text => Console.runSource settings.callLimit inputName text
  | .error error => throw error

/-- Runs lines until one exits, with a prompt before each and before the end of the input. -/
def loop (settings : Settings) : List (List UInt8) → Console (Option Int32)
  | [] => do
    Console.write settings.prompt
    return none
  | line :: lines => do
    Console.write settings.prompt
    match ← step settings line with
    | some code => return some code
    | none => loop settings lines

def run (settings : Settings) (input : ByteArray) : Console (Option Int32) :=
  loop settings (lines input.data.toList)

end Tang.Repl
