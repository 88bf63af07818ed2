import Tang.Syntax

/-! Parsers: they read from the front of a list of tokens, or fail at one of its places. -/

namespace Tang

open Token (Kind)

/-- Why a list of tokens is not a program. -/
inductive ParseCause where
  | expected (wanted found : Kind)
  | expectedExpression (found : Kind)
  | expectedParameter (found : Kind)
  | expectedEnd (found : Kind)
  | duplicateParameter (name : String)
  | nestedTooDeep
  deriving DecidableEq

/-- How deep expressions may be nested in a statement. -/
def maxNesting : Nat := 1000

def ParseCause.message : ParseCause → String
  | .expected wanted found => "expected " ++ wanted.describe ++ " but found " ++ found.describe
  | .expectedExpression found => "expected an expression but found " ++ found.describe
  | .expectedParameter found => "expected a parameter name but found " ++ found.describe
  | .expectedEnd found => "expected end of statement but found " ++ found.describe
  | .duplicateParameter name => "duplicate parameter '" ++ name ++ "'"
  | .nestedTooDeep => "expression nested more than " ++ toString maxNesting ++ " levels deep"

/-- A parser works on the tokens not yet read; when it fails, they start where it failed. -/
abbrev Parser := EStateM ParseCause (List Token)

namespace Parser

/-! ### Single tokens -/

/-- The kind of the first token. A list that has run out is at the end of the input. -/
def headKind : List Token → Kind
  | [] => .endOfInput
  | token :: _ => token.kind

def peek : Parser Kind :=
  fun tokens => .ok (headKind tokens) tokens

/-- The kind of the token after the first. -/
def peekNext : Parser Kind :=
  fun tokens => .ok (headKind tokens.tail) tokens

def advance : Parser Unit :=
  fun tokens => .ok () tokens.tail

def skipNewlines : Parser Unit :=
  fun tokens => .ok () (tokens.dropWhile (·.kind.isNewline))

def skipSeparators : Parser Unit :=
  fun tokens => .ok () (tokens.dropWhile (·.kind.isSeparator))

/-- Reads a token of the given kind, if it comes next. -/
def take? (kind : Kind) : Parser Bool := do
  if (← peek) = kind then
    advance
    return true
  else
    return false

def expect (kind : Kind) : Parser Unit := do
  let found ← peek
  if found = kind then advance else throw (.expected kind found)

/-- Reads the word `else`, if it is the next token that does not end a line. -/
def takeElse? : Parser Bool :=
  fun tokens =>
    let rest := tokens.dropWhile (·.kind.isNewline)
    if headKind rest = .keyword .elseWord then .ok true rest.tail else .ok false tokens

/-- A statement ends where a separator or the end of the input follows, in a block also before the
closing brace. -/
def expectEnd (inBlock : Bool) : Parser Unit := do
  let found ← peek
  if found.isSeparator || found == .endOfInput || (inBlock && found == .symbol .closeBrace) then
    return ()
  else
    throw (.expectedEnd found)

/-! ### Repetition -/

/-- The parser `body`, which may use itself again after it has read a token. -/
def repeated {σ α : Type} (body : (σ → Parser α) → σ → Parser α) (s : σ) : Parser α :=
  fun tokens =>
    body (fun s' rest =>
      if rest.length < tokens.length then repeated body s' rest
      else .error (.expectedExpression (headKind rest)) rest) s tokens
termination_by tokens => tokens.length

end Parser

end Tang
