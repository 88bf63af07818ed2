import Tang.Repl
import Tang.Script

/-! The command line: what it asks for, and what is written and returned in answer. -/

namespace Tang

def version : String := "0.1.0"

inductive Command where
  | repl
  | script (path : String)
  | help
  | version
  deriving DecidableEq

namespace Command

def ofArgs : List String → Except Diagnostic Command
  | [] => .ok .repl
  | ["-h"] | ["--help"] => .ok .help
  | ["-V"] | ["--version"] => .ok .version
  | [arg] =>
    if arg.toList.head? = some '-' then .error (.usage ("unknown option '" ++ arg ++ "'"))
    else .ok (.script arg)
  | _ => .error (.usage "too many arguments")

end Command

namespace CommandLine

def usage : String :=
  "Tang scripting language\n" ++
  "\n" ++
  "Usage:\n" ++
  "  tang                 Start the interactive prompt\n" ++
  "  tang <file>          Run a Tang program\n" ++
  "  tang -h, --help      Show this help message\n" ++
  "  tang -V, --version   Show version information\n" ++
  "\n" ++
  "Environment:\n" ++
  "  TANG_MAX_CALL_DEPTH  Nested call limit (default 1024)\n" ++
  "  RUST_LOG             Log filter, e.g. tang_lang=debug\n"

def versionLine : String := "tang " ++ version ++ "\n"

/-- The first line of an interactive session. -/
def banner : String := "Tang " ++ version ++ "\n"

def complaint (diagnostic : Diagnostic) : String :=
  "Error: " ++ diagnostic.render ++ "\n"

/-- The command and the settings asked for, or what to answer on the error output instead. -/
def interpret (args : List String) (limitText : Option String) :
    Except String (Command × Settings) :=
  match Command.ofArgs args with
  | .error diagnostic => .error (complaint diagnostic ++ usage)
  | .ok command =>
    match Settings.ofVariable limitText with
    | .error diagnostic => .error (complaint diagnostic)
    | .ok settings => .ok (command, settings)

/-- The status of a command line that is not understood. -/
def misuse : UInt8 := 2

/-- What a process leaves behind. -/
structure Transcript where
  stdout : ByteArray
  stderr : String
  status : UInt8

/-- An exit code keeps its low eight bits. -/
def statusOf (code : Int32) : UInt8 :=
  UInt8.ofInt code.toInt

/-- Ends a process with the output and result of a console action. -/
def finish : EStateM.Result IoError World (Option Int32) → Transcript
  | .ok none world => ⟨world.sink.written, "", 0⟩
  | .ok (some code) world => ⟨world.sink.written, "", statusOf code⟩
  | .error error world => ⟨world.sink.written, complaint (.io error.message), 1⟩

def perform (settings : Settings) (read : String → Except ReadError ByteArray)
    (input : ByteArray) : Command → Transcript
  | .help => ⟨.empty, usage, 0⟩
  | .version => ⟨versionLine.toUTF8, "", 0⟩
  | .repl =>
    finish ((do Console.write banner; Repl.run settings input) (World.initial none 0))
  | .script path => finish (Script.run settings path (read path) (World.initial none 0))

/-- Runs a process with its arguments, the text of the limit variable, files and input. -/
def run (args : List String) (limitText : Option String)
    (read : String → Except ReadError ByteArray) (input : ByteArray) : Transcript :=
  match interpret args limitText with
  | .ok (command, settings) => perform settings read input command
  | .error text => ⟨.empty, text, misuse⟩

end CommandLine

end Tang
