import Tang.Syntax.Parser.Expression

/-! Programs. A statement that cannot be read does not keep the next ones from being read, so that
all failures of a program are found together. -/

namespace Tang

/-- A failure to read a statement, at the token with the given index. -/
structure ParseError where
  cause : ParseCause
  index : Nat
  deriving DecidableEq

/-- The byte at which a failure is reported: where its token starts, or where the last token stops
if there is none. -/
def ParseError.offset? (tokens : List Token) (error : ParseError) : Option Nat :=
  match tokens[error.index]? with
  | some token => some token.start
  | none => tokens.getLast?.map (·.stop)

namespace Parser

/-- A statement of the program, up to its end. -/
def topLevel : Parser Stmt := do
  let first ← statement (expression maxNesting)
  expectEnd false
  return first

/-- The statements of a program and the failures to read one. -/
structure Reading where
  statements : Array Stmt
  errors : Array ParseError

/-- After a failure, reading goes on at the next separator. -/
def recover (tokens : List Token) : List Token :=
  tokens.dropWhile fun token => !token.kind.isSeparator && token.kind != .endOfInput

/-- Reads statements until the end of the input, from a list of `total` tokens. -/
def readFrom (total : Nat) (reading : Reading) (tokens : List Token) : Reading :=
  let start := tokens.dropWhile (·.kind.isSeparator)
  if headKind start = .endOfInput then reading
  else
    match topLevel start with
    | .ok first rest =>
      if rest.length < tokens.length then
        readFrom total { reading with statements := reading.statements.push first } rest
      else reading
    | .error cause failed =>
      let error : ParseError := ⟨cause, total - failed.length⟩
      let reading := { reading with errors := reading.errors.push error }
      let rest := recover failed
      if rest.length < tokens.length then readFrom total reading rest else reading
termination_by tokens.length

end Parser

/-- The program that a list of tokens spells, or all failures to read one of its statements. -/
def Program.ofTokens (tokens : List Token) : Except (List ParseError) Program :=
  let reading := Parser.readFrom tokens.length ⟨#[], #[]⟩ tokens
  if reading.errors.isEmpty then .ok reading.statements.toList
  else .error reading.errors.toList

end Tang
