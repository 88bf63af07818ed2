/-! Messages about what keeps a program from being run, and the places they point at. -/

namespace Tang

/-- A line of a file. -/
structure Location where
  file : String
  line : Nat
  deriving DecidableEq

namespace Location

/-- The last part of a path that names a file; the whole path when its last part is not a name. -/
def fileName (path : String) : String :=
  match ((path.splitOn "/").filter fun part => part != "" && part != ".").getLast? with
  | some part => if part = ".." then path else part
  | none => path

def render (location : Location) : String :=
  fileName location.file ++ " line " ++ toString location.line

end Location

inductive Diagnostic where
  | lexical (message : String) (location : Option Location)
  | syntactic (message : String) (location : Option Location)
  | io (message : String)
  | usage (message : String)
  deriving DecidableEq

namespace Diagnostic

def place : Option Location → String
  | some location => " (" ++ location.render ++ ")"
  | none => ""

def render : Diagnostic → String
  | .lexical message location => "Lex error: " ++ message ++ place location
  | .syntactic message location => "Parse error: " ++ message ++ place location
  | .io message => "I/O error: " ++ message
  | .usage message => message

def renderAll (diagnostics : List Diagnostic) : String :=
  "\n".intercalate (diagnostics.map render)

end Diagnostic

end Tang
