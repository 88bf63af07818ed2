import Tang.Syntax.Parser.Basic

/-! Expressions. An operand is followed by suffixes: a list of arguments, an index, or a binary
operator with its right operand. A suffix belongs to the operand if it binds tighter than the
operator before it, so that operators of the same level associate to the left. -/

namespace Tang.Parser

open Token (Kind)

/-! ### Suffixes -/

/-- How tightly an operator binds. -/
abbrev Level := Nat

def lowest : Level := 0

def unaryLevel : Level := 5

inductive Suffix where
  | call
  | index
  | binary (op : BinaryOp)

namespace Suffix

def level : Suffix → Level
  | .binary .eq | .binary .ne => 1
  | .binary .lt | .binary .le | .binary .gt | .binary .ge => 2
  | .binary .add | .binary .sub => 3
  | .binary .mul | .binary .div | .binary .rem => 4
  | .call | .index => 6

/-- The suffix that a token begins. -/
def ofKind? : Kind → Option Suffix
  | .symbol .openParen => some .call
  | .symbol .openBracket => some .index
  | .symbol .plus => some (.binary .add)
  | .symbol .minus => some (.binary .sub)
  | .symbol .star => some (.binary .mul)
  | .symbol .slash => some (.binary .div)
  | .symbol .percent => some (.binary .rem)
  | .symbol .equal => some (.binary .eq)
  | .symbol .notEqual => some (.binary .ne)
  | .symbol .less => some (.binary .lt)
  | .symbol .lessEqual => some (.binary .le)
  | .symbol .greater => some (.binary .gt)
  | .symbol .greaterEqual => some (.binary .ge)
  | _ => none

end Suffix

/-! ### Parts of expressions

Each part is read with a parser `sub` for the expressions inside it. -/

section Parts

variable (sub : Level → Parser Expr)

/-- One element of a list and those after it, up to the closing symbol. -/
def nextElements (closing : Symbol) (next : Unit → Parser (List Expr)) (_ : Unit) :
    Parser (List Expr) := do
  skipNewlines
  if ← take? (.symbol closing) then
    return []
  else
    let element ← sub lowest
    skipNewlines
    if ← take? (.symbol .comma) then
      return element :: (← next ())
    else
      expect (.symbol closing)
      return [element]

/-- Expressions between commas up to the closing symbol; the last one may be followed by a
comma. -/
def elements (closing : Symbol) : Parser (List Expr) :=
  repeated (nextElements sub closing) ()

/-- One key with its value and those after it, up to the closing brace. -/
def nextPairs (next : Unit → Parser (List (Expr × Expr))) (_ : Unit) :
    Parser (List (Expr × Expr)) := do
  skipNewlines
  if ← take? (.symbol .closeBrace) then
    return []
  else
    let key ← sub lowest
    skipNewlines
    expect (.symbol .colon)
    skipNewlines
    let value ← sub lowest
    skipNewlines
    if ← take? (.symbol .comma) then
      return (key, value) :: (← next ())
    else
      expect (.symbol .closeBrace)
      return [(key, value)]

def pairs : Parser (List (Expr × Expr)) :=
  repeated (nextPairs sub) ()

/-- A name with its value, a `return`, or an expression. -/
def statement : Parser Stmt := do
  match ← peek, ← peekNext with
  | .keyword .returnWord, _ =>
    advance
    let found ← peek
    if found.isSeparator || found == .symbol .closeBrace || found == .endOfInput then
      return .ret none
    else
      return .ret (some (← sub lowest))
  | .name x, .symbol .declare =>
    advance
    advance
    skipNewlines
    return .declare x (← sub lowest)
  | .name x, .symbol .assign =>
    advance
    advance
    skipNewlines
    return .assign x (← sub lowest)
  | _, _ => return .expr (← sub lowest)

/-- One statement of a block and those after it, up to the closing brace. -/
def nextStatements (next : Unit → Parser (List Stmt)) (_ : Unit) : Parser (List Stmt) := do
  skipSeparators
  match ← peek with
  | .symbol .closeBrace =>
    advance
    return []
  | .endOfInput => throw (.expected (.symbol .closeBrace) .endOfInput)
  | _ =>
    let first ← statement sub
    expectEnd true
    return first :: (← next ())

/-- Statements between braces. -/
def block : Parser (List Stmt) := do
  expect (.symbol .openBrace)
  repeated (nextStatements sub) ()

/-- What follows an opening parenthesis: one expression in parentheses, or the elements of a
tuple, which has a comma or is empty. -/
def group : Parser Expr := do
  skipNewlines
  if ← take? (.symbol .closeParen) then
    return .tuple []
  else
    let first ← sub lowest
    skipNewlines
    if ← take? (.symbol .comma) then
      return .tuple (first :: (← elements sub .closeParen))
    else
      expect (.symbol .closeParen)
      return first

/-- A condition with its block, and what follows if the condition does not hold. -/
def nextCondition (next : Unit → Parser Expr) (_ : Unit) : Parser Expr := do
  let test ← sub lowest
  let body ← block sub
  if ← takeElse? then
    if ← take? (.keyword .ifWord) then
      return .cond test body (some [.expr (← next ())])
    else
      return .cond test body (some (← block sub))
  else
    return .cond test body none

/-- What follows the word `if`. -/
def conditional : Parser Expr :=
  repeated (nextCondition sub) ()

/-- The names of the parameters after `params`, all different, up to the closing parenthesis. -/
def nextParameters (next : List String → Parser (List String)) (params : List String) :
    Parser (List String) := do
  skipNewlines
  match ← peek with
  | .symbol .closeParen =>
    advance
    return params
  | .name x =>
    if x ∈ params then
      throw (.duplicateParameter x)
    else
      advance
      skipNewlines
      if ← take? (.symbol .comma) then
        next (params ++ [x])
      else
        expect (.symbol .closeParen)
        return params ++ [x]
  | found => throw (.expectedParameter found)

def parameters : Parser (List String) :=
  repeated nextParameters []

/-- What follows the word `fn`. -/
def function : Parser Expr := do
  expect (.symbol .openParen)
  let params ← parameters
  return .fn params (← block sub)

def operand : Parser Expr := do
  match ← peek with
  | .int n =>
    advance
    return .int n
  | .str text =>
    advance
    return .str text
  | .keyword .trueWord =>
    advance
    return .bool true
  | .keyword .falseWord =>
    advance
    return .bool false
  | .keyword .nullWord =>
    advance
    return .null
  | .name x =>
    advance
    return .var x
  | .symbol .bang =>
    advance
    return .unary .not (← sub unaryLevel)
  | .symbol .minus =>
    advance
    return .unary .negate (← sub unaryLevel)
  | .symbol .openParen =>
    advance
    group sub
  | .symbol .openBracket =>
    advance
    return .list (← elements sub .closeBracket)
  | .symbol .openBrace =>
    advance
    return .map (← pairs sub)
  | .keyword .ifWord =>
    advance
    conditional sub
  | .keyword .fnWord =>
    advance
    function sub
  | found => throw (.expectedExpression found)

/-- The operand `left` with a suffix whose first token has been read. -/
def grown (left : Expr) : Suffix → Parser Expr
  | .call => return .call left (← elements sub .closeParen)
  | .index => do
    skipNewlines
    let position ← sub lowest
    skipNewlines
    expect (.symbol .closeBracket)
    return .index left position
  | .binary op => do
    skipNewlines
    return .binary op left (← sub (Suffix.binary op).level)

/-- The operand `left` with the suffixes after it that bind tighter than `level`. -/
def nextSuffixes (level : Level) (next : Expr → Parser Expr) (left : Expr) : Parser Expr := do
  match Suffix.ofKind? (← peek) with
  | some suffix =>
    if level < suffix.level then
      advance
      next (← grown sub left suffix)
    else
      return left
  | none => return left

def operators (level : Level) : Parser Expr := do
  let first ← operand sub
  repeated (nextSuffixes sub level) first

end Parts

/-- An expression whose operators bind tighter than `level`, nested at most `depth` deep. -/
def expression : (depth : Nat) → Level → Parser Expr
  | 0, _ => throw .nestedTooDeep
  | depth + 1, level => operators (expression depth) level

end Tang.Parser
