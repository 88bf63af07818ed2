import Tang.Syntax

/-! The grammar of programs: which rows of tokens derive which syntax trees. Nothing is said here
about how the rows are read.

Binary operators come in four strata, from loosest to tightest, and associate to the left; then come
operators before their operand, and then calls, indices and the expressions without an operator at
their border. An expression inside another one is derived from a relation `Sub` that stands for the
grammar with one level of nesting less, so that the rules below do not refer to each other in a
circle. -/

namespace Tang

open Token (Kind)

/-- The stratum of a binary operator: its left operand is of the same stratum, its right one of the
next. -/
def BinaryOp.stratum : BinaryOp → Nat
  | .eq | .ne => 0
  | .lt | .le | .gt | .ge => 1
  | .add | .sub => 2
  | .mul | .div | .rem => 3

namespace Grammar

/-- The stratum of an operator that stands before its operand. -/
def unary : Nat := 4

/-- The stratum of calls, indices and all expressions without an operator at their border. -/
def postfixed : Nat := 5

/-- Line ends only, or nothing. -/
def Newlines (w : List Kind) : Prop :=
  ∀ kind ∈ w, kind.isNewline = true

def Separators (w : List Kind) : Prop :=
  ∀ kind ∈ w, kind.isSeparator = true

section Rules

variable (Sub : Nat → List Kind → Expr → Prop)

/-! ### Elements, pairs and parameters

What stands after an opening bracket or after a comma, up to and with the closing bracket. -/

inductive Elements (closing : Symbol) : List Kind → List Expr → Prop
  | none {n : List Kind} : Newlines n → Elements closing (n ++ [.symbol closing]) []
  | last {n w n' : List Kind} {e : Expr} : Newlines n → Sub 0 w e → Newlines n' →
    Elements closing (n ++ (w ++ (n' ++ [.symbol closing]))) [e]
  | next {n w n' w' : List Kind} {e : Expr} {es : List Expr} :
    Newlines n → Sub 0 w e → Newlines n' → Elements closing w' es →
    Elements closing (n ++ (w ++ (n' ++ .symbol .comma :: w'))) (e :: es)

/-- A key with its value. -/
inductive Pair : List Kind → Expr × Expr → Prop
  | mk {w n n' w' : List Kind} {a b : Expr} :
    Sub 0 w a → Newlines n → Newlines n' → Sub 0 w' b →
    Pair (w ++ (n ++ .symbol .colon :: (n' ++ w'))) (a, b)

inductive Pairs : List Kind → List (Expr × Expr) → Prop
  | none {n : List Kind} : Newlines n → Pairs (n ++ [.symbol .closeBrace]) []
  | last {n w n' : List Kind} {p : Expr × Expr} : Newlines n → Pair Sub w p → Newlines n' →
    Pairs (n ++ (w ++ (n' ++ [.symbol .closeBrace]))) [p]
  | next {n w n' w' : List Kind} {p : Expr × Expr} {ps : List (Expr × Expr)} :
    Newlines n → Pair Sub w p → Newlines n' → Pairs w' ps →
    Pairs (n ++ (w ++ (n' ++ .symbol .comma :: w'))) (p :: ps)

inductive Parameters : List Kind → List String → Prop
  | none {n : List Kind} : Newlines n → Parameters (n ++ [.symbol .closeParen]) []
  | last {n n' : List Kind} {x : String} : Newlines n → Newlines n' →
    Parameters (n ++ .name x :: (n' ++ [.symbol .closeParen])) [x]
  | next {n n' w : List Kind} {x : String} {xs : List String} :
    Newlines n → Newlines n' → Parameters w xs →
    Parameters (n ++ .name x :: (n' ++ .symbol .comma :: w)) (x :: xs)

/-! ### Statements -/

inductive Statement : List Kind → Stmt → Prop
  | ret : Statement [.keyword .returnWord] (.ret none)
  | retValue {w : List Kind} {e : Expr} : Sub 0 w e →
    Statement (.keyword .returnWord :: w) (.ret (some e))
  | declare {n w : List Kind} {x : String} {e : Expr} : Newlines n → Sub 0 w e →
    Statement (.name x :: .symbol .declare :: (n ++ w)) (.declare x e)
  | assign {n w : List Kind} {x : String} {e : Expr} : Newlines n → Sub 0 w e →
    Statement (.name x :: .symbol .assign :: (n ++ w)) (.assign x e)
  | expr {w : List Kind} {e : Expr} : Sub 0 w e → Statement w (.expr e)

/-- Statements with at least one separator between two of them, and any number before the first and
after the last one. -/
inductive Statements : List Kind → List Stmt → Prop
  | none {s : List Kind} : Separators s → Statements s []
  | last {s w : List Kind} {first : Stmt} : Separators s → Statement Sub w first →
    Statements (s ++ w) [first]
  | next {s w w' : List Kind} {k : Kind} {first : Stmt} {others : List Stmt} :
    Separators s → Statement Sub w first → k.isSeparator = true → Statements w' others →
    Statements (s ++ (w ++ k :: w')) (first :: others)

inductive Block : List Kind → List Stmt → Prop
  | mk {w : List Kind} {body : List Stmt} : Statements Sub w body →
    Block (.symbol .openBrace :: (w ++ [.symbol .closeBrace])) body

/-- What stands after the word `if`. -/
inductive Conditional : List Kind → Expr → Prop
  | plain {w b : List Kind} {test : Expr} {body : List Stmt} : Sub 0 w test → Block Sub b body →
    Conditional (w ++ b) (.cond test body none)
  | otherwise {w b n b' : List Kind} {test : Expr} {body body' : List Stmt} :
    Sub 0 w test → Block Sub b body → Newlines n → Block Sub b' body' →
    Conditional (w ++ (b ++ (n ++ .keyword .elseWord :: b'))) (.cond test body (some body'))
  | chain {w b n w' : List Kind} {test e : Expr} {body : List Stmt} :
    Sub 0 w test → Block Sub b body → Newlines n → Conditional w' e →
    Conditional (w ++ (b ++ (n ++ .keyword .elseWord :: .keyword .ifWord :: w')))
      (.cond test body (some [.expr e]))

/-! ### Expressions -/

inductive Phrase : Nat → List Kind → Expr → Prop
  | weaken {k : Nat} {w : List Kind} {e : Expr} : Phrase (k + 1) w e → Phrase k w e
  | binary {op : BinaryOp} {w n w' : List Kind} {a b : Expr} :
    Phrase op.stratum w a → Newlines n → Sub (op.stratum + 1) w' b →
    Phrase op.stratum (w ++ .symbol op.sign :: (n ++ w')) (.binary op a b)
  | unary (op : UnaryOp) {w : List Kind} {a : Expr} : Sub unary w a →
    Phrase unary (.symbol op.sign :: w) (.unary op a)
  | call {w w' : List Kind} {f : Expr} {args : List Expr} :
    Phrase postfixed w f → Elements Sub .closeParen w' args →
    Phrase postfixed (w ++ .symbol .openParen :: w') (.call f args)
  | index {w n w' n' : List Kind} {target position : Expr} :
    Phrase postfixed w target → Newlines n → Sub 0 w' position → Newlines n' →
    Phrase postfixed (w ++ .symbol .openBracket :: (n ++ (w' ++ (n' ++ [.symbol .closeBracket]))))
      (.index target position)
  | int {i : Int64} : Phrase postfixed [.int i] (.int i)
  | str {text : String} : Phrase postfixed [.str text] (.str text)
  | true : Phrase postfixed [.keyword .trueWord] (.bool true)
  | false : Phrase postfixed [.keyword .falseWord] (.bool false)
  | null : Phrase postfixed [.keyword .nullWord] .null
  | var {x : String} : Phrase postfixed [.name x] (.var x)
  | group {n w n' : List Kind} {e : Expr} : Newlines n → Sub 0 w e → Newlines n' →
    Phrase postfixed (.symbol .openParen :: (n ++ (w ++ (n' ++ [.symbol .closeParen])))) e
  | unit {n : List Kind} : Newlines n →
    Phrase postfixed (.symbol .openParen :: (n ++ [.symbol .closeParen])) (.tuple [])
  | tuple {n w n' w' : List Kind} {e : Expr} {es : List Expr} :
    Newlines n → Sub 0 w e → Newlines n' → Elements Sub .closeParen w' es →
    Phrase postfixed (.symbol .openParen :: (n ++ (w ++ (n' ++ .symbol .comma :: w'))))
      (.tuple (e :: es))
  | list {w : List Kind} {es : List Expr} : Elements Sub .closeBracket w es →
    Phrase postfixed (.symbol .openBracket :: w) (.list es)
  | map {w : List Kind} {ps : List (Expr × Expr)} : Pairs Sub w ps →
    Phrase postfixed (.symbol .openBrace :: w) (.map ps)
  | cond {w : List Kind} {e : Expr} : Conditional Sub w e →
    Phrase postfixed (.keyword .ifWord :: w) e
  | fn {w b : List Kind} {params : List String} {body : List Stmt} :
    Parameters w params → params.Nodup → Block Sub b body →
    Phrase postfixed (.keyword .fnWord :: .symbol .openParen :: (w ++ b)) (.fn params body)

end Rules

/-- Expressions of a stratum whose parts are nested at most `depth` deep. Each operand after an
operator, each expression between brackets, each condition and each expression of a statement is one
level deeper than what it stands in. -/
def Expression : (depth : Nat) → Nat → List Kind → Expr → Prop
  | 0 => fun _ _ _ => False
  | depth + 1 => Phrase (Expression depth)

/-- The programs whose expressions are nested at most `depth` deep. -/
def Derives (depth : Nat) (w : List Kind) (program : Program) : Prop :=
  Statements (Expression depth) w program

end Grammar

end Tang
