import Tang.Builtin.Template

/-! What the builtin functions do. They see their arguments and the output, and nothing else. -/

namespace Tang.Builtin

open Signal (fail lift)

abbrev Action := EStateM Signal Sink

def writeLine (text : String) : Action Unit :=
  fun sink =>
    match Sink.writeLine text sink with
    | .ok () sink => .ok () sink
    | .error error sink => .error (.error (.writeFailed error)) sink

/-- Writes each value on a line of its own. -/
def printAll : List Value → Action Unit
  | [] => pure ()
  | value :: values => do
    writeLine value.render
    printAll values

/-- The elements of an argument that must be a list. -/
def elements (builtin : Builtin) : Value → Except RuntimeError (List Value)
  | .list elements => .ok elements
  | value => .error (.wrongArgument builtin .list value.tag)

/-- Lists are measured in elements, texts in bytes. -/
def length : Value → Except RuntimeError Value
  | .list elements => .ok (.int (Int64.ofNat elements.length))
  | .str text => .ok (.int (Int64.ofNat text.utf8ByteSize))
  | value => .error (.noLength value.tag)

def tailOrNull : List Value → Value
  | [] => .null
  | _ :: values => .list values

/-- Exit codes have 32 bits. -/
def exitCode : Value → Except RuntimeError Int32
  | .int n =>
    if -0x80000000 ≤ n.toInt ∧ n.toInt < 0x80000000 then .ok (Int32.ofInt n.toInt)
    else .error (.exitOutOfRange n)
  | value => .error (.wrongArgument .exit .integer value.tag)

def apply : Builtin → List Value → Action Value
  | .print, args => do
    printAll args
    return .null
  | .format, .str template :: args => do
    return .str (String.ofList (← lift (Template.fill template.toList args)))
  | .format, _ => fail .notTemplate
  | .len, [arg] => lift (length arg)
  | .first, [arg] => do
    return (← lift (elements .first arg)).head?.getD .null
  | .last, [arg] => do
    return (← lift (elements .last arg)).getLast?.getD .null
  | .rest, [arg] => do
    return tailOrNull (← lift (elements .rest arg))
  | .append, [arg, value] => do
    return .list ((← lift (elements .append arg)) ++ [value])
  | .append, args => fail (.wrongCount args.length 2)
  | .exit, [arg] => do
    throw (.exit (← lift (exitCode arg)))
  | .panic, [arg] => do
    writeLine ("PANIC: " ++ arg.render)
    throw (.exit 1)
  | _, args => fail (.wrongCount args.length 1)

end Tang.Builtin
