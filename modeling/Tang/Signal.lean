import Tang.Sink
import Tang.Value.Printer

/-! What ends an evaluation before it has a value. -/

namespace Tang

/-- Why a program cannot go on. -/
inductive RuntimeError where
  | unboundName (name : String)
  | divisionByZero
  | negationOverflow (n : Int64)
  | overflow (op : BinaryOp) (left right : Int64)
  | badOperand (operand : Tag)
  | badOperands (op : BinaryOp) (left right : Tag)
  | typeMismatch (op : BinaryOp) (left right : Tag)
  | indexOutOfRange (index : Int64) (length : Nat)
  | badIndex (target index : Tag)
  | notIndexable (target : Tag)
  | notKey (tag : Tag)
  | notFunction (tag : Tag)
  | wrongArity (wanted got : Nat)
  | callTooDeep (limit : Nat)
  | wrongCount (got wanted : Nat)
  | noLength (tag : Tag)
  | wrongArgument (builtin : Builtin) (wanted got : Tag)
  | notTemplate
  | missingArgument
  | badVerb (verb : Option Char)
  | exitOutOfRange (code : Int64)
  | writeFailed (error : IoError)
  /-- An error with a text of the host's own. -/
  | custom (message : String)
  deriving DecidableEq

namespace RuntimeError

def inTicks (text : String) : String :=
  "`" ++ text ++ "`"

def message : RuntimeError → String
  | .unboundName name => "identifier not found: " ++ name
  | .divisionByZero => "division by zero"
  | .negationOverflow n => "integer overflow: -" ++ Integer.render n
  | .overflow op left right =>
    "integer overflow: " ++ Integer.render left ++ " " ++ op.sign.text ++ " " ++
      Integer.render right
  | .badOperand operand => "unknown operator: -" ++ operand.name
  | .badOperands op left right =>
    "unknown operator: " ++ left.name ++ " " ++ op.sign.text ++ " " ++ right.name
  | .typeMismatch op left right =>
    "type mismatch: " ++ left.name ++ " " ++ op.sign.text ++ " " ++ right.name
  | .indexOutOfRange index length =>
    "index out of range: " ++ Integer.render index ++ " (len " ++ toString length ++ ")"
  | .badIndex target index =>
    "index operator not supported: " ++ target.name ++ "[" ++ index.name ++ "]"
  | .notIndexable target => "index operator not supported: " ++ target.name
  | .notKey tag => "unusable as map key: " ++ tag.name
  | .notFunction tag => "not a function: " ++ tag.name
  | .wrongArity wanted got =>
    "wrong number of arguments: want=" ++ toString wanted ++ ", got=" ++ toString got
  | .callTooDeep limit => "maximum call depth exceeded (" ++ toString limit ++ ")"
  | .wrongCount got wanted =>
    "wrong number of arguments. got=" ++ toString got ++ ", want=" ++ toString wanted
  | .noLength tag => "argument to " ++ inTicks "len" ++ " not supported, got " ++ tag.name
  | .wrongArgument builtin wanted got =>
    "argument to " ++ inTicks builtin.name ++ " must be " ++ wanted.name ++ ", got " ++ got.name
  | .notTemplate =>
    "first argument to " ++ inTicks "format" ++ " must be " ++ Tag.string.name
  | .missingArgument => "not enough arguments for format verb " ++ inTicks "%v"
  | .badVerb (some verb) => "invalid format verb " ++ inTicks ("%" ++ verb.toString)
  | .badVerb none => "invalid format verb " ++ inTicks "%"
  | .exitOutOfRange code => "exit code out of range: " ++ Integer.render code
  | .writeFailed error => "failed to write output: " ++ error.message
  | .custom message => message

def render (error : RuntimeError) : String :=
  "ERROR: " ++ error.message

end RuntimeError

/-- A `return` ends a function, an error the program, and an exit the whole session. -/
inductive Signal where
  | ret (value : Value)
  | error (cause : RuntimeError)
  | exit (code : Int32)

namespace Signal

def tag? : Signal → Option Tag
  | .ret _ => some .returnValue
  | .error _ => some .error
  | .exit _ => none

def render : Signal → String
  | .ret value => value.render
  | .error cause => cause.render
  | .exit code => "exit(" ++ toString code.toInt ++ ")"

/-! ### Raising signals -/

variable {σ α : Type}

def fail (cause : RuntimeError) : EStateM Signal σ α :=
  throw (.error cause)

/-- Continues with a result or stops with its error. -/
def lift : Except RuntimeError α → EStateM Signal σ α
  | .ok value => pure value
  | .error cause => fail cause

end Signal

end Tang
