import Mathlib.Logic.Function.Iterate
import Tang.Proofs.Written.RoundTrip

/-! How far the limit on nesting bounds the trees of accepted programs. Operators, calls and indices
that follow one another are read at one level of nesting, and so are the branches of a condition
that goes on with `else if`. Rows of them may be as long as they like, and each adds to the height
of the tree on its left or last side. All other steps down a tree lead one level deeper, and on a
path there are no more of these than the limit allows. -/

namespace Tang

open Token (Kind EndsWord AnyChar)
open Grammar
open Item (kinds chars sign word name within)

/-! ### Nesting -/

/-- How tightly the outermost part of an expression binds. -/
def Expr.stratum : Expr → Nat
  | .binary op _ _ => op.stratum
  | .unary _ _ => Grammar.unary
  | _ => Grammar.postfixed

/-- One, if the expression needs parentheses where this stratum is called for. -/
def Expr.parens (k : Nat) (e : Expr) : Nat :=
  if e.stratum < k then 1 else 0

/-- The statements are a single condition. -/
def Stmt.isCondition : List Stmt → Bool
  | [.expr (.cond _ _ _)] => true
  | _ => false

mutual

/-- The greatest number of expressions on a path down a tree. A left operand, a callee or the target
of an index is not counted unless it needs parentheses, and neither is a condition that is a whole
`else` branch. -/
def Expr.nesting : Expr → Nat
  | .int _ | .str _ | .bool _ | .null | .var _ => 1
  | .unary _ a => a.nesting + 1
  | .binary op a b => max (a.nesting + a.parens op.stratum) (b.nesting + 1)
  | .cond test body otherwise =>
    max (max test.nesting (Stmt.nestingAll body) + 1) (Stmt.nestingElse otherwise)
  | .fn _ body => Stmt.nestingAll body + 1
  | .call callee args =>
    max (callee.nesting + callee.parens postfixed) (Expr.nestingAll args + 1)
  | .index target position =>
    max (target.nesting + target.parens postfixed) (position.nesting + 1)
  | .list elements => Expr.nestingAll elements + 1
  | .tuple elements => Expr.nestingAll elements + 1
  | .map pairs => Expr.nestingPairs pairs + 1

def Expr.nestingAll : List Expr → Nat
  | [] => 0
  | a :: as => max a.nesting (Expr.nestingAll as)

def Expr.nestingPairs : List (Expr × Expr) → Nat
  | [] => 0
  | (a, b) :: pairs => max (max a.nesting b.nesting) (Expr.nestingPairs pairs)

def Stmt.nesting : Stmt → Nat
  | .declare _ a | .assign _ a | .ret (some a) | .expr a => a.nesting
  | .ret none => 0

def Stmt.nestingAll : List Stmt → Nat
  | [] => 0
  | a :: as => max a.nesting (Stmt.nestingAll as)

def Stmt.nestingElse : Option (List Stmt) → Nat
  | none => 0
  | some body => Stmt.nestingAll body + if Stmt.isCondition body then 0 else 1

end

theorem Expr.parens_le_one (k : Nat) (e : Expr) : e.parens k ≤ 1 := by
  unfold Expr.parens
  split <;> omega

theorem Expr.parens_le_succ (k : Nat) (e : Expr) : e.parens k ≤ e.parens (k + 1) := by
  unfold Expr.parens
  split <;> split <;> omega

theorem Expr.parens_eq_zero {k : Nat} {e : Expr} (h : k ≤ e.stratum) : e.parens k = 0 :=
  if_neg (Nat.not_lt.2 h)

/-! ### Derived trees -/

namespace Grammar

variable {Sub : Nat → List Kind → Expr → Prop} {n : Nat}
  (hSub : ∀ ⦃k w e⦄, Sub k w e → e.nesting + e.parens k ≤ n)

include hSub

theorem nesting_le_of_sub {k : Nat} {w : List Kind} {e : Expr} (h : Sub k w e) : e.nesting ≤ n :=
  Nat.le_of_add_right_le (hSub h)

theorem Elements.nesting_le {closing : Symbol} {w : List Kind} {es : List Expr}
    (h : Elements Sub closing w es) : Expr.nestingAll es ≤ n := by
  induction h with
  | none _ => exact Nat.zero_le n
  | last _ h _ => exact Nat.max_le.2 ⟨nesting_le_of_sub hSub h, Nat.zero_le n⟩
  | next _ h _ _ ih => exact Nat.max_le.2 ⟨nesting_le_of_sub hSub h, ih⟩

theorem Pairs.nesting_le {w : List Kind} {ps : List (Expr × Expr)} (h : Pairs Sub w ps) :
    Expr.nestingPairs ps ≤ n := by
  have hpair {w : List Kind} {a b : Expr} (h : Pair Sub w (a, b)) :
      max a.nesting b.nesting ≤ n := by
    obtain ⟨ha, -, -, hb⟩ := h
    exact Nat.max_le.2 ⟨nesting_le_of_sub hSub ha, nesting_le_of_sub hSub hb⟩
  induction h with
  | none _ => exact Nat.zero_le n
  | last _ h _ => exact Nat.max_le.2 ⟨hpair h, Nat.zero_le n⟩
  | next _ h _ _ ih => exact Nat.max_le.2 ⟨hpair h, ih⟩

theorem Statement.nesting_le {w : List Kind} {first : Stmt} (h : Statement Sub w first) :
    first.nesting ≤ n := by
  cases h with
  | ret => exact Nat.zero_le n
  | retValue h | declare _ h | assign _ h | expr h => exact nesting_le_of_sub hSub h

theorem Statements.nesting_le {w : List Kind} {body : List Stmt} (h : Statements Sub w body) :
    Stmt.nestingAll body ≤ n := by
  induction h with
  | none _ => exact Nat.zero_le n
  | last _ h => exact Nat.max_le.2 ⟨h.nesting_le hSub, Nat.zero_le n⟩
  | next _ h _ _ ih => exact Nat.max_le.2 ⟨h.nesting_le hSub, ih⟩

theorem Block.nesting_le {w : List Kind} {body : List Stmt} (h : Block Sub w body) :
    Stmt.nestingAll body ≤ n := by
  obtain ⟨h⟩ := h
  exact h.nesting_le hSub

/-- All conditions of a row that goes on with `else if` are read at one level of nesting. -/
theorem Conditional.nesting_le {w : List Kind} {e : Expr} (h : Conditional Sub w e) :
    e.nesting ≤ n + 1 ∧ Stmt.isCondition [.expr e] = true := by
  have hhead {w b : List Kind} {test : Expr} {body : List Stmt} (h : Sub 0 w test)
      (hb : Block Sub b body) : max test.nesting (Stmt.nestingAll body) + 1 ≤ n + 1 :=
    Nat.succ_le_succ (Nat.max_le.2 ⟨nesting_le_of_sub hSub h, hb.nesting_le hSub⟩)
  induction h with
  | plain h hb => exact ⟨Nat.max_le.2 ⟨hhead h hb, Nat.zero_le _⟩, rfl⟩
  | @otherwise _ _ _ _ _ _ body' h hb _ hb' =>
    refine ⟨Nat.max_le.2 ⟨hhead h hb, ?_⟩, rfl⟩
    have hle := hb'.nesting_le hSub
    rw [Stmt.nestingElse]
    split <;> omega
  | chain h hb _ _ ih =>
    refine ⟨Nat.max_le.2 ⟨hhead h hb, ?_⟩, rfl⟩
    rw [Stmt.nestingElse, if_pos ih.2]
    exact Nat.max_le.2 ⟨ih.1, Nat.zero_le _⟩

/-- The rules for what stands to the left of an operator, a call or an index stay at one level of
nesting, and all others lead to the next. -/
theorem Phrase.nesting_le {k : Nat} {w : List Kind} {e : Expr} (h : Phrase Sub k w e) :
    e.nesting + e.parens k ≤ n + 1 := by
  induction h with
  | @weaken k _ e _ ih =>
    have hparens := e.parens_le_succ k
    omega
  | @binary op _ _ _ a b _ _ hb ih =>
    have hparens : (Expr.binary op a b).parens op.stratum = 0 :=
      Expr.parens_eq_zero (Nat.le_refl _)
    rw [hparens]
    exact Nat.max_le.2 ⟨ih, Nat.succ_le_succ (nesting_le_of_sub hSub hb)⟩
  | @unary op _ a h =>
    have hparens : (Expr.unary op a).parens Grammar.unary = 0 :=
      Expr.parens_eq_zero (Nat.le_refl _)
    rw [hparens]
    exact Nat.succ_le_succ (nesting_le_of_sub hSub h)
  | call _ hargs ih => exact Nat.max_le.2 ⟨ih, Nat.succ_le_succ (hargs.nesting_le hSub)⟩
  | index _ _ h _ ih => exact Nat.max_le.2 ⟨ih, Nat.succ_le_succ (nesting_le_of_sub hSub h)⟩
  | int | str | true | false | null | var => exact Nat.succ_le_succ (Nat.zero_le n)
  | @group _ _ _ e _ h _ =>
    have hle := nesting_le_of_sub hSub h
    have hparens := e.parens_le_one postfixed
    omega
  | unit _ => exact Nat.succ_le_succ (Nat.zero_le n)
  | tuple _ h _ hs =>
    exact Nat.succ_le_succ (Nat.max_le.2 ⟨nesting_le_of_sub hSub h, hs.nesting_le hSub⟩)
  | list h => exact Nat.succ_le_succ (h.nesting_le hSub)
  | map h => exact Nat.succ_le_succ (h.nesting_le hSub)
  | @cond _ e h =>
    obtain ⟨hle, hcond⟩ := h.nesting_le hSub
    have hparens : e.parens postfixed = 0 := by
      cases e <;> first | rfl | simp [Stmt.isCondition] at hcond
    rw [hparens]
    exact hle
  | fn _ _ hb => exact Nat.succ_le_succ (hb.nesting_le hSub)

end Grammar

theorem Grammar.Expression.nesting_le {depth k : Nat} {w : List Kind} {e : Expr}
    (h : Expression depth k w e) : e.nesting + e.parens k ≤ depth := by
  induction depth generalizing k w e with
  | zero => exact h.elim
  | succ depth ih => exact Phrase.nesting_le (fun _ _ _ => ih) h

/-! ### Rows at one level -/

/-- Items that may stand between a word and whatever ends a word. -/
structure Joins (items : List Item) : Prop where
  scans : Scans True items EndsWord
  first : ∀ cs : List Char, (∀ d ∈ cs.head?, EndsWord d) →
    ∀ d ∈ (chars items ++ cs).head?, EndsWord d

/-- The items so many times one after the other. -/
def Item.times (n : Nat) (items : List Item) : List Item :=
  (List.replicate n items).flatten

open Item (times)

theorem Item.times_succ (n : Nat) (items : List Item) :
    times (n + 1) items = items ++ times n items := by
  simp [times, List.replicate_succ]

theorem Item.render_append (a b : List Item) :
    Item.render (a ++ b) = Item.render a ++ Item.render b := by
  rw [Item.render, List.map_append, String.join_append]
  rfl

theorem Item.render_times (n : Nat) (items : List Item) :
    Item.render (times n items) = String.join (List.replicate n (Item.render items)) := by
  induction n with
  | zero => rfl
  | succ n ih => rw [times_succ, Item.render_append, ih, List.replicate_succ, String.join_cons]

namespace Joins

variable {a b items : List Item}

theorem of_solid (h : Solid a) : Joins a where
  scans := h.scans.endsWord
  first cs _ d hd := by
    obtain ⟨c, ds, hc, hends⟩ := h.first
    obtain rfl : c = d := by simpa [hc] using hd
    exact hends

theorem append_word (ha : Solid a) (hb : Scans True b EndsWord) : Joins (a ++ b) where
  scans := ha.scans.append_left hb
  first cs _ d hd := by
    obtain ⟨c, ds, hc, hends⟩ := ha.first
    obtain rfl : c = d := by simpa [hc] using hd
    exact hends

theorem nil : Joins [] where
  scans := .nil EndsWord
  first _ hcs := hcs

theorem append (ha : Joins a) (hb : Joins b) : Joins (a ++ b) where
  scans := (ha.scans.seq hb.scans hb.first).congr (iff_of_eq (and_self True))
  first cs hcs := by
    rw [Item.chars_append, List.append_assoc]
    exact ha.first _ (hb.first cs hcs)

theorem times (h : Joins items) (n : Nat) : Joins (Item.times n items) := by
  induction n with
  | zero => exact nil
  | succ n ih =>
    rw [Item.times_succ]
    exact h.append ih

theorem scans_append (h : Joins b) (ha : Scans True a EndsWord) : Scans True (a ++ b) EndsWord :=
  (ha.seq h.scans h.first).congr (iff_of_eq (and_self True))

end Joins

theorem Solid.within {opening closing : Symbol} {items : List Item}
    (ho : opening ∈ Symbol.solid) (hc : closing ∈ Symbol.solid)
    (h : Scans True items EndsWord) : Solid (Item.within opening closing items) where
  scans := .within ho hc h
  first := by
    obtain ⟨c, cs, hchars, hends⟩ := first_sign opening
    refine ⟨c, cs ++ chars (items ++ [sign closing]), ?_, hends⟩
    rw [Item.within, ← List.singleton_append, Item.chars_append, hchars, List.cons_append]

/-- What grows on the right of an expression may grow there any number of times. -/
theorem Grammar.Phrase.times {Sub : Nat → List Kind → Expr → Prop} {k : Nat} {items : List Item}
    {grow : Expr → Expr}
    (hgrow : ∀ {w e}, Phrase Sub k w e → Phrase Sub k (w ++ kinds items) (grow e))
    {w : List Kind} {e : Expr} (h : Phrase Sub k w e) (n : Nat) :
    Phrase Sub k (w ++ kinds (Item.times n items)) (grow^[n] e) := by
  induction n generalizing w e with
  | zero => simpa [Item.times] using h
  | succ n ih =>
    rw [Item.times_succ, Item.kinds_append, ← List.append_assoc, Function.iterate_succ_apply]
    exact ih (hgrow h)

theorem Grammar.Conditional.times {Sub : Nat → List Kind → Expr → Prop} {items : List Item}
    {grow : Expr → Expr}
    (hgrow : ∀ {w e}, Conditional Sub w e → Conditional Sub (kinds items ++ w) (grow e))
    {w : List Kind} {e : Expr} (h : Conditional Sub w e) (n : Nat) :
    Conditional Sub (kinds (Item.times n items) ++ w) (grow^[n] e) := by
  induction n with
  | zero => simpa [Item.times] using h
  | succ n ih =>
    rw [Item.times_succ, Item.kinds_append, List.append_assoc, Function.iterate_succ_apply']
    exact hgrow ih

theorem Expr.height_iterate {grow : Expr → Expr} (hgrow : ∀ e, (grow e).height = e.height + 1)
    (n : Nat) (e : Expr) : (grow^[n] e).height = e.height + n := by
  induction n with
  | zero => rfl
  | succ n ih => rw [Function.iterate_succ_apply', hgrow, ih, Nat.add_assoc]

theorem Program.parse_of_phrase {items : List Item} {k : Nat} {e : Expr}
    (hs : Scans True items EndsWord) (h : Phrase (Expression 999) k (kinds items) e)
    (file : String) : Program.parse file (Item.render items) = .ok [.expr e] := by
  have he : Expression 1000 0 (kinds items) e := Expression.weaken_le (Nat.zero_le k) h
  have hd : Derives maxNesting (kinds items) [.expr e] := .last (s := []) separators_nil (.expr he)
  exact Program.parse_render_items hs trivial hd file

theorem Program.parse_row {head piece : List Item} {k : Nat} {a : Expr} {grow : Expr → Expr}
    (hhead : Scans True head EndsWord) (hpiece : Joins piece)
    (ha : Phrase (Expression 999) k (kinds head) a)
    (hgrow : ∀ {w e}, Phrase (Expression 999) k w e →
      Phrase (Expression 999) k (w ++ kinds piece) (grow e)) (file : String) (n : Nat) :
    Program.parse file (Item.render head ++ String.join (List.replicate n (Item.render piece))) =
      .ok [.expr (grow^[n] a)] := by
  rw [← Item.render_times, ← Item.render_append]
  have hrow := ha.times hgrow n
  rw [← Item.kinds_append] at hrow
  exact Program.parse_of_phrase ((hpiece.times n).scans_append hhead) hrow file

section Rows

variable (file : String) (n : Nat)

theorem Program.parse_sum :
    Program.parse file ("1" ++ String.join (List.replicate n " + 1")) =
      .ok [.expr ((fun a => .binary .add a (.int 1))^[n] (.int 1))] := by
  have hint : Scans True [.token (.int 1)] EndsWord := .int (by decide)
  have hplus : Solid ([.space] ++ [sign .plus, .space]) := Solid.space.append (.symbol_space .plus)
  have hfirst : Phrase (Expression 999) postfixed [.int 1] (.int 1) := .int
  have hmore : Expression 999 postfixed [.int 1] (.int 1) := .of_phrase (by decide) .int
  refine Program.parse_row hint (.append_word hplus hint) (k := BinaryOp.add.stratum)
    (hfirst.weaken_le (by decide)) (fun h => ?_) file n
  exact .binary h newlines_nil (hmore.weaken_le (by decide))

theorem Program.parse_calls :
    Program.parse file ("f" ++ String.join (List.replicate n "()")) =
      .ok [.expr ((fun f => .call f [])^[n] (.var "f"))] := by
  have hname : Scans True [name "f"] EndsWord := .name ⟨⟨'f', [], rfl, rfl, by simp⟩, rfl⟩
  have hargs : Solid (within .openParen .closeParen []) :=
    .within (by decide) (by decide) (.nil EndsWord)
  refine Program.parse_row hname (.of_solid hargs) .var (fun h => ?_) file n
  exact .call h (.none newlines_nil)

theorem Program.parse_indices :
    Program.parse file ("x" ++ String.join (List.replicate n "[0]")) =
      .ok [.expr ((fun a => .index a (.int 0))^[n] (.var "x"))] := by
  have hname : Scans True [name "x"] EndsWord := .name ⟨⟨'x', [], rfl, rfl, by simp⟩, rfl⟩
  have hindex : Solid (within .openBracket .closeBracket [.token (.int 0)]) :=
    .within (by decide) (by decide) (.int (by decide))
  have hzero : Expression 999 postfixed [.int 0] (.int 0) := .of_phrase (by decide) .int
  refine Program.parse_row hname (.of_solid hindex) .var (fun h => ?_) file n
  exact .index h newlines_nil (hzero.weaken_le (by decide)) newlines_nil

theorem Program.parse_elseIfs :
    Program.parse file ("if" ++ (String.join (List.replicate n " x \x7b\x7d else if") ++
        " x \x7b\x7d")) =
      .ok [.expr ((fun e => .cond (.var "x") [] (some [.expr e]))^[n]
        (.cond (.var "x") [] none))] := by
  let head : List Item := [.space, name "x", .space, sign .openBrace, sign .closeBrace]
  let otherwise : List Item := [.space, word .elseWord, .space, word .ifWord]
  have hname : Scans True [name "x"] EndsWord := .name ⟨⟨'x', [], rfl, rfl, by simp⟩, rfl⟩
  have hbraces : Solid (within .openBrace .closeBrace []) :=
    .within (by decide) (by decide) (.nil EndsWord)
  have hhead : Joins head :=
    (Joins.append_word .space hname).append (.of_solid (Solid.space.append hbraces))
  have helse : Joins otherwise :=
    (Joins.append_word .space (.keyword _)).append (.append_word .space (.keyword _))
  have hx : Expression 999 0 [.name "x"] (.var "x") :=
    Expression.weaken_le (Nat.zero_le postfixed) (.of_phrase (by decide) .var)
  have hbody : Block (Expression 999) [.symbol .openBrace, .symbol .closeBrace] [] :=
    .mk (w := []) (.none separators_nil)
  have hlast : Conditional (Expression 999) (kinds head) (.cond (.var "x") [] none) :=
    .plain hx hbody
  have hmore {w : List Kind} {e : Expr} (h : Conditional (Expression 999) w e) :
      Conditional (Expression 999) (kinds (head ++ otherwise) ++ w)
        (.cond (.var "x") [] (some [.expr e])) :=
    .chain (n := []) hx hbody newlines_nil h
  have hrow : Conditional (Expression 999) (kinds (times n (head ++ otherwise)) ++ kinds head)
      ((fun e => .cond (.var "x") [] (some [.expr e]))^[n] (.cond (.var "x") [] none)) :=
    hlast.times hmore n
  rw [← Item.kinds_append] at hrow
  have hscans := (((hhead.append helse).times n).append hhead).scans_append (.keyword .ifWord)
  have hparse := Program.parse_of_phrase hscans (.cond hrow) file
  rwa [Item.render_append, Item.render_append, Item.render_times] at hparse

end Rows

/-! ### Accepted programs -/

/-- The limit on nesting does not bound the height of trees: rows of operators, calls, indices and
conditions may be longer. -/
theorem Program.height_beyond_limit :
    let file := "test.tang"
    (∃ e, Program.parse file ("1" ++ String.join (List.replicate 1000 " + 1")) = .ok [.expr e] ∧
      e.height = 1001) ∧
    (∃ e, Program.parse file ("f" ++ String.join (List.replicate 1000 "()")) = .ok [.expr e] ∧
      e.height = 1001) ∧
    (∃ e, Program.parse file ("x" ++ String.join (List.replicate 1000 "[0]")) = .ok [.expr e] ∧
      e.height = 1001) ∧
    ∃ e, Program.parse file ("if" ++ (String.join (List.replicate 1000 " x \x7b\x7d else if") ++
      " x \x7b\x7d")) = .ok [.expr e] ∧ e.height = 1002 := by
  intro file
  refine ⟨⟨_, Program.parse_sum file 1000, ?_⟩, ⟨_, Program.parse_calls file 1000, ?_⟩,
    ⟨_, Program.parse_indices file 1000, ?_⟩, ⟨_, Program.parse_elseIfs file 1000, ?_⟩⟩
  · refine Expr.height_iterate (fun a => ?_) 1000 (.int 1)
    exact congrArg (· + 1) (Nat.max_eq_left a.height_pos)
  · refine Expr.height_iterate (fun f => ?_) 1000 (.var "f")
    exact congrArg (· + 1) (Nat.max_eq_left (Nat.zero_le f.height))
  · refine Expr.height_iterate (fun a => ?_) 1000 (.var "x")
    exact congrArg (· + 1) (Nat.max_eq_left a.height_pos)
  · refine Expr.height_iterate (fun e => ?_) 1000 (.cond (.var "x") [] none)
    have hpos := e.height_pos
    simp only [Expr.height, Stmt.heightElse, Stmt.heightAll, Stmt.height]
    omega

/-- In the tree of an accepted program no path down from a statement has more than 1000 expressions
on it, apart from left operands, callees and targets of indices that need no parentheses and from
conditions that are a whole `else` branch. -/
theorem Program.nesting_le_of_parse {file source : String} {program : Program}
    (h : Program.parse file source = .ok program) : Stmt.nestingAll program ≤ 1000 := by
  obtain ⟨tokens, last, -, -, -, hderives⟩ := Program.derives_of_parse h
  exact Statements.nesting_le (fun _ _ _ h => Expression.nesting_le h) hderives

/-- The tree of a sum with more terms than the limit. -/
theorem Program.nesting_le_of_parse_sum :
    ∃ e, Program.parse "f" ("1" ++ String.join (List.replicate 1000 " + 1")) = .ok [.expr e] ∧
      Stmt.nestingAll [.expr e] ≤ 1000 := by
  have hparse := Program.parse_sum "f" 1000
  exact ⟨_, hparse, Program.nesting_le_of_parse hparse⟩

end Tang
