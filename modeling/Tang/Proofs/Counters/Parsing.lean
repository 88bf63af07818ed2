import Tang.Proofs.Counters
import Tang.Syntax.Parser.Program

/-! Parsers with a counter. They may count the expressions that are open, where an expression raises
the counter and sets it back behind itself. This is parsing with as much depth left as there is
between the counter and the limit, and the counter is kept. So every statement of a program is read
at the depth that the program began at. -/

namespace Tang

abbrev CountingParser := Counting ParseCause (List Token)

namespace Parser.Counted

open Counting (lift count setCount lower enter Balanced)

/-! ### Parsers with a counter -/

/-- The parser `body`, which may use itself again after it has read a token. -/
def repeated {σ α : Type} (body : (σ → CountingParser α) → σ → CountingParser α) (s : σ) :
    CountingParser α := fun start =>
  body (fun s' now =>
    if now.1.length < start.1.length then repeated body s' now
    else .error (.expectedExpression (headKind now.1)) now) s start
termination_by start => start.1.length

section Parts

variable (sub : Level → CountingParser Expr)

def nextElements (closing : Symbol) (next : Unit → CountingParser (List Expr)) (_ : Unit) :
    CountingParser (List Expr) := do
  lift skipNewlines
  if ← lift (take? (.symbol closing)) then
    return []
  else
    let element ← sub lowest
    lift skipNewlines
    if ← lift (take? (.symbol .comma)) then
      return element :: (← next ())
    else
      lift (expect (.symbol closing))
      return [element]

def elements (closing : Symbol) : CountingParser (List Expr) :=
  repeated (nextElements sub closing) ()

def nextPairs (next : Unit → CountingParser (List (Expr × Expr))) (_ : Unit) :
    CountingParser (List (Expr × Expr)) := do
  lift skipNewlines
  if ← lift (take? (.symbol .closeBrace)) then
    return []
  else
    let key ← sub lowest
    lift skipNewlines
    lift (expect (.symbol .colon))
    lift skipNewlines
    let value ← sub lowest
    lift skipNewlines
    if ← lift (take? (.symbol .comma)) then
      return (key, value) :: (← next ())
    else
      lift (expect (.symbol .closeBrace))
      return [(key, value)]

def pairs : CountingParser (List (Expr × Expr)) :=
  repeated (nextPairs sub) ()

def statement : CountingParser Stmt := do
  match ← lift peek, ← lift peekNext with
  | .keyword .returnWord, _ =>
    lift advance
    let found ← lift peek
    if found.isSeparator || found == .symbol .closeBrace || found == .endOfInput then
      return .ret none
    else
      return .ret (some (← sub lowest))
  | .name x, .symbol .declare =>
    lift advance
    lift advance
    lift skipNewlines
    return .declare x (← sub lowest)
  | .name x, .symbol .assign =>
    lift advance
    lift advance
    lift skipNewlines
    return .assign x (← sub lowest)
  | _, _ => return .expr (← sub lowest)

def nextStatements (next : Unit → CountingParser (List Stmt)) (_ : Unit) :
    CountingParser (List Stmt) := do
  lift skipSeparators
  match ← lift peek with
  | .symbol .closeBrace =>
    lift advance
    return []
  | .endOfInput => throw (.expected (.symbol .closeBrace) .endOfInput)
  | _ =>
    let first ← statement sub
    lift (expectEnd true)
    return first :: (← next ())

def block : CountingParser (List Stmt) := do
  lift (expect (.symbol .openBrace))
  repeated (nextStatements sub) ()

def group : CountingParser Expr := do
  lift skipNewlines
  if ← lift (take? (.symbol .closeParen)) then
    return .tuple []
  else
    let first ← sub lowest
    lift skipNewlines
    if ← lift (take? (.symbol .comma)) then
      return .tuple (first :: (← elements sub .closeParen))
    else
      lift (expect (.symbol .closeParen))
      return first

def nextCondition (next : Unit → CountingParser Expr) (_ : Unit) : CountingParser Expr := do
  let test ← sub lowest
  let body ← block sub
  if ← lift takeElse? then
    if ← lift (take? (.keyword .ifWord)) then
      return .cond test body (some [.expr (← next ())])
    else
      return .cond test body (some (← block sub))
  else
    return .cond test body none

def conditional : CountingParser Expr :=
  repeated (nextCondition sub) ()

def function : CountingParser Expr := do
  lift (expect (.symbol .openParen))
  let params ← lift parameters
  return .fn params (← block sub)

def operand : CountingParser Expr := do
  match ← lift peek with
  | .int n =>
    lift advance
    return .int n
  | .str text =>
    lift advance
    return .str text
  | .keyword .trueWord =>
    lift advance
    return .bool true
  | .keyword .falseWord =>
    lift advance
    return .bool false
  | .keyword .nullWord =>
    lift advance
    return .null
  | .name x =>
    lift advance
    return .var x
  | .symbol .bang =>
    lift advance
    return .unary .not (← sub unaryLevel)
  | .symbol .minus =>
    lift advance
    return .unary .negate (← sub unaryLevel)
  | .symbol .openParen =>
    lift advance
    group sub
  | .symbol .openBracket =>
    lift advance
    return .list (← elements sub .closeBracket)
  | .symbol .openBrace =>
    lift advance
    return .map (← pairs sub)
  | .keyword .ifWord =>
    lift advance
    conditional sub
  | .keyword .fnWord =>
    lift advance
    function sub
  | found => throw (.expectedExpression found)

def grown (left : Expr) : Suffix → CountingParser Expr
  | .call => return .call left (← elements sub .closeParen)
  | .index => do
    lift skipNewlines
    let position ← sub lowest
    lift skipNewlines
    lift (expect (.symbol .closeBracket))
    return .index left position
  | .binary op => do
    lift skipNewlines
    return .binary op left (← sub (Suffix.binary op).level)

def nextSuffixes (level : Level) (next : Expr → CountingParser Expr) (left : Expr) :
    CountingParser Expr := do
  match Suffix.ofKind? (← lift peek) with
  | some suffix =>
    if level < suffix.level then
      lift advance
      next (← grown sub left suffix)
    else
      return left
  | none => return left

def operators (level : Level) : CountingParser Expr := do
  let first ← operand sub
  repeated (nextSuffixes sub level) first

end Parts

/-- One expression, where those inside it are read with `again`. -/
def nextExpression (again : Level → CountingParser Expr) (level : Level) : CountingParser Expr := do
  let nesting ← count
  if maxNesting ≤ nesting then
    throw .nestedTooDeep
  else
    setCount (nesting + 1)
    enter
    let result ← observing (operators again level)
    lower
    ofExcept result

/-- An expression, where the counter says how many expressions are open. -/
def expression (level : Level) : CountingParser Expr :=
  Counting.recurring maxNesting (throw .nestedTooDeep) nextExpression level

def topLevel : CountingParser Stmt := do
  let first ← statement expression
  lift (expectEnd false)
  return first

/-- Reads statements until the end of the input. The counter is not set back between them. -/
def readFrom (total : Nat) (reading : Reading) (tokens : List Token) (counter : Counter) :
    Reading × Counter :=
  let start := tokens.dropWhile (·.kind.isSeparator)
  if headKind start = .endOfInput then (reading, counter)
  else
    match topLevel (start, counter) with
    | .ok first (rest, counter) =>
      if rest.length < tokens.length then
        readFrom total { reading with statements := reading.statements.push first } rest counter
      else (reading, counter)
    | .error cause (failed, counter) =>
      let error : ParseError := ⟨cause, total - failed.length⟩
      let reading := { reading with errors := reading.errors.push error }
      let rest := recover failed
      if rest.length < tokens.length then readFrom total reading rest counter
      else (reading, counter)
termination_by tokens.length

/-! ### Balance -/

variable {limit n : Nat}

theorem balanced_repeated {σ α : Type} {body : (σ → CountingParser α) → σ → CountingParser α}
    {body' : (σ → Parser α) → σ → Parser α}
    (h : ∀ next next', (∀ s, Balanced limit n (next s) (next' s)) →
      ∀ s, Balanced limit n (body next s) (body' next' s)) (s : σ) :
    Balanced limit n (repeated body s) (Parser.repeated body' s) := by
  intro tokens counter hn
  induction hl : tokens.length using Nat.strongRecOn generalizing s tokens counter with
  | ind l ih =>
    subst hl
    have hrun : Parser.repeated body' s tokens =
        body' (fun s' rest =>
          if rest.length < tokens.length then Parser.repeated body' s' rest
          else .error (.expectedExpression (headKind rest)) rest) s tokens := by
      rw [Parser.repeated]
    -- the same test of lengths decides on both sides whether the body is used again
    rw [repeated]
    simp only [lift, hrun]
    refine h _ _ (fun s' rest counter' hn' => ?_) s tokens counter hn
    by_cases hlt : rest.length < tokens.length
    · simp only [lift, if_pos hlt]
      exact ih _ hlt s' rest counter' hn' rfl
    · simp only [lift, if_neg hlt]
      exact ⟨counter', .refl limit counter', rfl⟩

section Parts

variable {sub : Level → CountingParser Expr} {sub' : Level → Parser Expr}
  (hsub : ∀ level, Balanced limit n (sub level) (sub' level))

include hsub

theorem balanced_elements (closing : Symbol) :
    Balanced limit n (elements sub closing) (Parser.elements sub' closing) := by
  refine balanced_repeated (fun next next' hnext _ => ?_) ()
  refine .lift_bind fun _ => .lift_bind fun closed => ?_
  split
  · exact .pure []
  · refine (hsub lowest).bind fun element => .lift_bind fun _ => ?_
    refine .lift_bind fun more => ?_
    split
    · exact (hnext ()).bind fun others => .pure _
    · exact .lift_bind fun _ => .pure _

theorem balanced_pairs : Balanced limit n (pairs sub) (Parser.pairs sub') := by
  refine balanced_repeated (fun next next' hnext _ => ?_) ()
  refine .lift_bind fun _ => .lift_bind fun closed => ?_
  split
  · exact .pure []
  · refine (hsub lowest).bind fun key => .lift_bind fun _ => ?_
    refine .lift_bind fun _ => .lift_bind fun _ => ?_
    refine (hsub lowest).bind fun value => .lift_bind fun _ => ?_
    refine .lift_bind fun more => ?_
    split
    · exact (hnext ()).bind fun others => .pure _
    · exact .lift_bind fun _ => .pure _

theorem balanced_statement : Balanced limit n (statement sub) (Parser.statement sub') := by
  have hexpr : Balanced limit n (do return .expr (← sub lowest) : CountingParser Stmt)
      (do return .expr (← sub' lowest)) := (hsub lowest).bind fun _ => .pure _
  have hbinding (f : Expr → Stmt) :
      Balanced limit n
        (do lift advance; lift advance; lift skipNewlines; return f (← sub lowest))
        (do advance; advance; skipNewlines; return f (← sub' lowest)) :=
    .lift_bind fun _ => .lift_bind fun _ => .lift_bind fun _ =>
      (hsub lowest).bind fun value => .pure _
  refine .lift_bind fun kind => .lift_bind fun kind' => ?_
  cases kind with
  | keyword word =>
    cases word with
    | returnWord =>
      refine .lift_bind fun _ => .lift_bind fun found => ?_
      split
      · exact .pure _
      · exact (hsub lowest).bind fun _ => .pure _
    | _ => exact hexpr
  | name x =>
    cases kind' with
    | symbol sign =>
      cases sign with
      | declare => exact hbinding (.declare x)
      | assign => exact hbinding (.assign x)
      | _ => exact hexpr
    | _ => exact hexpr
  | _ => exact hexpr

theorem balanced_block : Balanced limit n (block sub) (Parser.block sub') := by
  refine .lift_bind fun _ => balanced_repeated (fun next next' hnext _ => ?_) ()
  have hmore : Balanced limit n
      (do
        let first ← statement sub
        lift (expectEnd true)
        return first :: (← next ()))
      (do
        let first ← Parser.statement sub'
        expectEnd true
        return first :: (← next' ())) :=
    (balanced_statement hsub).bind fun first => .lift_bind fun _ =>
      (hnext ()).bind fun others => .pure _
  refine .lift_bind fun _ => .lift_bind fun kind => ?_
  cases kind with
  | symbol sign =>
    cases sign with
    | closeBrace => exact .lift_bind fun _ => .pure []
    | _ => exact hmore
  | endOfInput => exact .throw _
  | _ => exact hmore

theorem balanced_group : Balanced limit n (group sub) (Parser.group sub') := by
  refine .lift_bind fun _ => .lift_bind fun closed => ?_
  split
  · exact .pure _
  · refine (hsub lowest).bind fun first => .lift_bind fun _ => ?_
    refine .lift_bind fun more => ?_
    split
    · exact (balanced_elements hsub _).bind fun others => .pure _
    · exact .lift_bind fun _ => .pure _

theorem balanced_conditional :
    Balanced limit n (conditional sub) (Parser.conditional sub') := by
  refine balanced_repeated (fun next next' hnext _ => ?_) ()
  refine (hsub lowest).bind fun test => (balanced_block hsub).bind fun body => ?_
  refine .lift_bind fun otherwise => ?_
  split
  · refine .lift_bind fun again => ?_
    split
    · exact (hnext ()).bind fun e => .pure _
    · exact (balanced_block hsub).bind fun body' => .pure _
  · exact .pure _

theorem balanced_function : Balanced limit n (function sub) (Parser.function sub') :=
  .lift_bind fun _ => .lift_bind fun _ =>
    (balanced_block hsub).bind fun _ => .pure _

theorem balanced_operand : Balanced limit n (operand sub) (Parser.operand sub') := by
  refine .lift_bind fun kind => ?_
  cases kind with
  | int _ | str _ | name _ => exact .lift_bind fun _ => .pure _
  | keyword word =>
    cases word with
    | trueWord | falseWord | nullWord => exact .lift_bind fun _ => .pure _
    | ifWord => exact .lift_bind fun _ => balanced_conditional hsub
    | fnWord => exact .lift_bind fun _ => balanced_function hsub
    | _ => exact .throw _
  | symbol sign =>
    cases sign with
    | bang | minus =>
      exact .lift_bind fun _ => (hsub unaryLevel).bind fun e => .pure _
    | openParen => exact .lift_bind fun _ => balanced_group hsub
    | openBracket =>
      exact .lift_bind fun _ => (balanced_elements hsub _).bind fun es => .pure _
    | openBrace =>
      exact .lift_bind fun _ => (balanced_pairs hsub).bind fun entries => .pure _
    | _ => exact .throw _
  | _ => exact .throw _

theorem balanced_grown (left : Expr) (suffix : Suffix) :
    Balanced limit n (grown sub left suffix) (Parser.grown sub' left suffix) := by
  cases suffix with
  | call => exact (balanced_elements hsub _).bind fun args => .pure _
  | index =>
    exact .lift_bind fun _ => (hsub lowest).bind fun position =>
      .lift_bind fun _ => .lift_bind fun _ => .pure _
  | binary op => exact .lift_bind fun _ => (hsub _).bind fun right => .pure _

theorem balanced_operators (level : Level) :
    Balanced limit n (operators sub level) (Parser.operators sub' level) := by
  refine (balanced_operand hsub).bind fun first => ?_
  refine balanced_repeated (fun next next' hnext left => ?_) first
  refine .lift_bind fun kind => ?_
  cases Suffix.ofKind? kind with
  | none => exact .pure left
  | some suffix =>
    by_cases hlevel : level < suffix.level
    · simp only [if_pos hlevel]
      exact .lift_bind fun _ => (balanced_grown hsub left suffix).bind hnext
    · simp only [if_neg hlevel]
      exact .pure left

end Parts

/-- One expression takes one of the levels that are left. -/
theorem balanced_nextExpression {again : Level → CountingParser Expr}
    (h : n < maxNesting → ∀ level,
      Balanced maxNesting (n + 1) (again level) (Parser.expression (maxNesting - (n + 1)) level))
    (level : Level) :
    Balanced maxNesting n (nextExpression again level)
      (Parser.expression (maxNesting - n) level) := by
  refine .count ?_
  by_cases hdeep : maxNesting ≤ n
  · have hleft : maxNesting - n = 0 := Nat.sub_eq_zero_of_le hdeep
    simp only [if_pos hdeep, hleft]
    exact .throw _
  · have hlt : n < maxNesting := Nat.lt_of_not_le hdeep
    have hleft : maxNesting - n = maxNesting - (n + 1) + 1 := by omega
    simp only [if_neg hdeep, hleft]
    rw [Parser.expression, ← Action.observing_ofExcept (Parser.operators _ level)]
    refine .guarded hlt (balanced_operators (h hlt) level) (fun tokens counter hn => ?_) ?_
    · show EStateM.Result.ok () (tokens, counter.set (counter.value - 1)) = _
      rw [hn, Nat.add_sub_cancel]
    · intro result
      cases result with
      | ok e => exact .pure e
      | error cause => exact .throw cause

theorem balanced_expression (n : Nat) (level : Level) :
    Balanced maxNesting n (expression level) (Parser.expression (maxNesting - n) level) :=
  Counting.balanced_recurring (fun _ _ h => balanced_nextExpression h) n level

theorem balanced_topLevel (n : Nat) :
    Balanced maxNesting n topLevel
      (do
        let first ← Parser.statement (Parser.expression (maxNesting - n))
        expectEnd false
        return first) :=
  (balanced_statement (balanced_expression n)).bind fun _ => .lift_bind fun _ =>
    .pure _

theorem topLevel_of_ok {tokens rest : List Token} {counter counter' : Counter} {first : Stmt}
    (h : topLevel (tokens, counter) = .ok first (rest, counter')) :
    counter.Kept maxNesting counter' ∧
      (counter.value = 0 → Parser.topLevel tokens = .ok first rest) := by
  obtain ⟨hkept, hfirst⟩ := (balanced_topLevel counter.value).of_ok h
  refine ⟨hkept, fun hzero => ?_⟩
  rw [hzero] at hfirst
  exact hfirst

theorem topLevel_of_error {tokens failed : List Token} {counter counter' : Counter}
    {cause : ParseCause} (h : topLevel (tokens, counter) = .error cause (failed, counter')) :
    counter.Kept maxNesting counter' ∧
      (counter.value = 0 → Parser.topLevel tokens = .error cause failed) := by
  obtain ⟨hkept, hfail⟩ := (balanced_topLevel counter.value).of_error h
  refine ⟨hkept, fun hzero => ?_⟩
  rw [hzero] at hfail
  exact hfail

/-- A program is read without loss of depth from one statement to the next, also over failures. -/
theorem readFrom_kept (total : Nat) (reading : Reading) (tokens : List Token) (counter : Counter) :
    counter.Kept maxNesting (readFrom total reading tokens counter).2 ∧
      (counter.value = 0 →
        (readFrom total reading tokens counter).1 = Parser.readFrom total reading tokens) := by
  fun_induction readFrom total reading tokens counter with
  | case1 reading tokens counter start hstart =>
    refine ⟨.refl _ _, fun _ => ?_⟩
    rw [Parser.readFrom, if_pos hstart]
  | case2 reading tokens counter start hstart first rest counter' h hlt ih =>
    obtain ⟨hkept, hfirst⟩ := topLevel_of_ok h
    refine ⟨hkept.trans ih.1, fun hzero => ?_⟩
    rw [ih.2 (hkept.value.trans hzero)]
    conv => rhs; rw [Parser.readFrom, if_neg hstart, hfirst hzero]
    simp only [if_pos hlt]
  | case3 reading tokens counter start hstart first rest counter' h hnlt =>
    obtain ⟨hkept, hfirst⟩ := topLevel_of_ok h
    refine ⟨hkept, fun hzero => ?_⟩
    rw [Parser.readFrom, if_neg hstart, hfirst hzero]
    simp only [if_neg hnlt]
  | case4 reading tokens counter start hstart cause failed counter' h error reading₁ rest hlt ih =>
    obtain ⟨hkept, hfail⟩ := topLevel_of_error h
    refine ⟨hkept.trans ih.1, fun hzero => ?_⟩
    rw [ih.2 (hkept.value.trans hzero)]
    conv => rhs; rw [Parser.readFrom, if_neg hstart, hfail hzero]
    simp only [rest, if_pos hlt]
    rfl
  | case5 reading tokens counter start hstart cause failed counter' h error reading₁ rest hnlt =>
    obtain ⟨hkept, hfail⟩ := topLevel_of_error h
    refine ⟨hkept, fun hzero => ?_⟩
    rw [Parser.readFrom, if_neg hstart, hfail hzero]
    simp only [rest, if_neg hnlt]
    rfl

end Parser.Counted

end Tang
