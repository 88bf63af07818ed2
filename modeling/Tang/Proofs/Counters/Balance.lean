import Tang.Proofs.Counters.Calls
import Tang.Proofs.Counters.Parsing
import Tang.Proofs.Truncation

/-! Both counters are balanced on every path. Evaluation has one for the calls that are open, and
parsing has one for the expressions that are open. Whatever part of the syntax is evaluated or
parsed, and whatever comes of it, the counter is at its old value in the end, and has not been above
the limit on the way. What is left at a value of the counter is what the definitions that have no
counter are given. -/

namespace Tang

open Counting (Balanced)

/-- With `n` calls open, all that is evaluated keeps the counter. -/
structure EvaluationBalanced (limit n : Nat) : Prop where
  call (f : Value) (args : List Value) :
    Balanced limit n (callCounted limit f args) (callWithin limit (limit - n) f args)
  expr (e : Expr) (scope : ScopeId) :
    Balanced limit n (e.counted (callCounted limit) scope)
      (e.eval (callWithin limit (limit - n)) scope)
  exprs (es : List Expr) (scope : ScopeId) :
    Balanced limit n (Expr.countedAll (callCounted limit) scope es)
      (Expr.evalAll (callWithin limit (limit - n)) scope es)
  pairs (pairs : List (Expr × Expr)) (scope : ScopeId) (entries : Entries) :
    Balanced limit n (Expr.countedPairs (callCounted limit) scope entries pairs)
      (Expr.evalPairs (callWithin limit (limit - n)) scope entries pairs)
  stmt (s : Stmt) (scope : ScopeId) :
    Balanced limit n (s.counted (callCounted limit) scope)
      (s.eval (callWithin limit (limit - n)) scope)
  stmts (ss : List Stmt) (scope : ScopeId) (last : Option Value) :
    Balanced limit n (Stmt.countedAll (callCounted limit) scope last ss)
      (Stmt.evalAll (callWithin limit (limit - n)) scope last ss)
  block (body : List Stmt) (scope : ScopeId) :
    Balanced limit n (CountingEval.orNull (Stmt.countedAll (callCounted limit) scope none body))
      (Eval.orNull (Stmt.evalAll (callWithin limit (limit - n)) scope none body))
  otherwise (body : Option (List Stmt)) (scope : ScopeId) :
    Balanced limit n (Stmt.countedElse (callCounted limit) scope body)
      (Stmt.evalElse (callWithin limit (limit - n)) scope body)

theorem evaluationBalanced (limit n : Nat) : EvaluationBalanced limit n :=
  have hcall := balanced_callCounted limit n
  { call := hcall
    expr := Expr.balanced hcall
    exprs := Expr.balanced_all hcall
    pairs := Expr.balanced_pairs hcall
    stmt := Stmt.balanced hcall
    stmts := Stmt.balanced_all hcall
    block := fun body scope => (Stmt.balanced_all hcall body scope none).orNull
    otherwise := Stmt.balanced_else hcall }

/-- With `n` expressions open, all that is parsed keeps the counter. Parsers that only look at tokens
have nothing to do with it. -/
structure ParsingBalanced (n : Nat) : Prop where
  expression (level : Parser.Level) :
    Balanced maxNesting n (Parser.Counted.expression level)
      (Parser.expression (maxNesting - n) level)
  operators (level : Parser.Level) :
    Balanced maxNesting n (Parser.Counted.operators Parser.Counted.expression level)
      (Parser.operators (Parser.expression (maxNesting - n)) level)
  operand :
    Balanced maxNesting n (Parser.Counted.operand Parser.Counted.expression)
      (Parser.operand (Parser.expression (maxNesting - n)))
  grown (left : Expr) (suffix : Parser.Suffix) :
    Balanced maxNesting n (Parser.Counted.grown Parser.Counted.expression left suffix)
      (Parser.grown (Parser.expression (maxNesting - n)) left suffix)
  group :
    Balanced maxNesting n (Parser.Counted.group Parser.Counted.expression)
      (Parser.group (Parser.expression (maxNesting - n)))
  elements (closing : Symbol) :
    Balanced maxNesting n (Parser.Counted.elements Parser.Counted.expression closing)
      (Parser.elements (Parser.expression (maxNesting - n)) closing)
  pairs :
    Balanced maxNesting n (Parser.Counted.pairs Parser.Counted.expression)
      (Parser.pairs (Parser.expression (maxNesting - n)))
  conditional :
    Balanced maxNesting n (Parser.Counted.conditional Parser.Counted.expression)
      (Parser.conditional (Parser.expression (maxNesting - n)))
  function :
    Balanced maxNesting n (Parser.Counted.function Parser.Counted.expression)
      (Parser.function (Parser.expression (maxNesting - n)))
  block :
    Balanced maxNesting n (Parser.Counted.block Parser.Counted.expression)
      (Parser.block (Parser.expression (maxNesting - n)))
  statement :
    Balanced maxNesting n (Parser.Counted.statement Parser.Counted.expression)
      (Parser.statement (Parser.expression (maxNesting - n)))

open Parser.Counted in
theorem parsingBalanced (n : Nat) : ParsingBalanced n :=
  have hexpr := balanced_expression n
  { expression := hexpr
    operators := balanced_operators hexpr
    operand := balanced_operand hexpr
    grown := balanced_grown hexpr
    group := balanced_group hexpr
    elements := balanced_elements hexpr
    pairs := balanced_pairs hexpr
    conditional := balanced_conditional hexpr
    function := balanced_function hexpr
    block := balanced_block hexpr
    statement := balanced_statement hexpr }

/-- From wherever the counter is, evaluation and parsing keep it, on every path. Statements of a
program are all read from where the counter was before the first one, so with the full depth if it
was at zero. -/
theorem counters_balanced :
    (∀ limit n, EvaluationBalanced limit n) ∧ (∀ n, ParsingBalanced n) ∧
      ∀ total reading tokens counter,
        let read := Parser.Counted.readFrom total reading tokens counter
        counter.Kept maxNesting read.2 ∧
          (counter.value = 0 → read.1 = Parser.readFrom total reading tokens) :=
  ⟨evaluationBalanced, parsingBalanced, Parser.Counted.readFrom_kept⟩

/-- A call of a function that calls an integer. -/
def Expr.callsOne : Expr := .call (.fn [] [.expr (.call (.int 1) [])]) []

/-- A sign with its operand. -/
def Token.minusOne : List Token := [⟨.symbol .minus, 0, 1⟩, ⟨.int 1, 1, 2⟩]

/-- A sign without an operand, and an integer. -/
def Token.minusAndOne : List Token :=
  [⟨.symbol .minus, 0, 1⟩, ⟨.symbol .semicolon, 1, 2⟩, ⟨.int 1, 2, 3⟩]

/-- A function fails in its body, an operand is nested too deep, and a program has a statement that
cannot be read. The counter is set back behind each of these. -/
theorem counters_balanced_failures :
    let start : Counter := ⟨0, [], []⟩
    let world := World.initial none 0
    let called := Expr.callsOne.counted (callCounted 1) World.global (world, start)
    let deep : Counter := ⟨999, [], []⟩
    let parsed := Parser.Counted.expression Parser.lowest (Token.minusOne, deep)
    let read := Parser.Counted.readFrom 3 ⟨#[], #[]⟩ Token.minusAndOne start
    (∃ counter, start.Kept 1 counter ∧ called =
      Counting.lift (Expr.callsOne.eval (callWithin 1 1) World.global) (world, counter)) ∧
    (Action.final called).2 = ⟨0, [0, 1], [1]⟩ ∧
    (∃ counter, deep.Kept maxNesting counter ∧ parsed =
      Counting.lift (Parser.expression 1 Parser.lowest) (Token.minusOne, counter)) ∧
    (Action.final parsed).2 = ⟨999, [999, 1000], [1000]⟩ ∧
    start.Kept maxNesting read.2 ∧ read.1 = Parser.readFrom 3 ⟨#[], #[]⟩ Token.minusAndOne ∧
    read.2 = ⟨0, [0, 1, 0, 1, 2, 1], [1, 2, 1]⟩ := by
  intro start world called deep parsed read
  obtain ⟨hevaluation, hparsing, hread⟩ := counters_balanced
  obtain ⟨hkept, hsame⟩ := hread 3 ⟨#[], #[]⟩ Token.minusAndOne start
  have hcalled := (hevaluation 1 0).expr Expr.callsOne World.global world start rfl
  have hparsed := (hparsing 999).expression Parser.lowest Token.minusOne deep rfl
  exact ⟨hcalled, by decide +kernel, hparsed, by decide +kernel, hkept, hsame rfl,
    by decide +kernel⟩

end Tang
