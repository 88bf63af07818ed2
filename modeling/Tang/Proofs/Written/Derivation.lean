import Tang.Proofs.Written.Readable
import Tang.Syntax.Printer

/-! The grammar derives a tree from its written form. Operators are written in parentheses, so that
every part of a tree may stand wherever an operand without operators may, and a tree of height `h`
is nested at most `2 * h - 1` deep. -/

namespace Tang

open Token (Kind)
open Grammar

/-! ### Height -/

mutual

/-- The height of a tree, in which the expressions inside the blocks of an expression count as its
children. -/
def Expr.height : Expr → Nat
  | .int _ | .str _ | .bool _ | .null | .var _ => 1
  | .unary _ a => a.height + 1
  | .binary _ a b => max a.height b.height + 1
  | .cond test body otherwise =>
    max test.height (max (Stmt.heightAll body) (Stmt.heightElse otherwise)) + 1
  | .fn _ body => Stmt.heightAll body + 1
  | .call callee args => max callee.height (Expr.heightAll args) + 1
  | .index target position => max target.height position.height + 1
  | .list elements => Expr.heightAll elements + 1
  | .tuple elements => Expr.heightAll elements + 1
  | .map pairs => Expr.heightPairs pairs + 1

/-- The greatest height of some trees. -/
def Expr.heightAll : List Expr → Nat
  | [] => 0
  | a :: as => max a.height (Expr.heightAll as)

def Expr.heightPairs : List (Expr × Expr) → Nat
  | [] => 0
  | (a, b) :: pairs => max (max a.height b.height) (Expr.heightPairs pairs)

def Stmt.height : Stmt → Nat
  | .declare _ a | .assign _ a | .ret (some a) | .expr a => a.height
  | .ret none => 0

def Stmt.heightAll : List Stmt → Nat
  | [] => 0
  | a :: as => max a.height (Stmt.heightAll as)

def Stmt.heightElse : Option (List Stmt) → Nat
  | none => 0
  | some body => Stmt.heightAll body

end

/-! ### Rows of tokens -/

def Item.kind? : Item → Option Kind
  | .token kind => some kind
  | .space => none

/-- The tokens among some items. -/
def Item.kinds (items : List Item) : List Kind :=
  items.filterMap kind?

namespace Item

@[simp] theorem kinds_nil : kinds [] = [] := rfl

@[simp] theorem kinds_token (kind : Kind) (items : List Item) :
    kinds (.token kind :: items) = kind :: kinds items := rfl

@[simp] theorem kinds_space (items : List Item) : kinds (.space :: items) = kinds items := rfl

@[simp] theorem kinds_append (items items' : List Item) :
    kinds (items ++ items') = kinds items ++ kinds items' := List.filterMap_append

@[simp] theorem kinds_within (opening closing : Symbol) (items : List Item) :
    kinds (within opening closing items) =
      .symbol opening :: (kinds items ++ [.symbol closing]) := by
  simp [within]

theorem kinds_intercalate {separator a b : List Item} {parts : List (List Item)} :
    kinds (separator.intercalate (a :: b :: parts)) =
      kinds a ++ (kinds separator ++ kinds (separator.intercalate (b :: parts))) := by
  rw [List.intercalate_cons_cons]
  simp

@[simp] theorem kinds_commas_nil : kinds (commas []) = [] := rfl

@[simp] theorem kinds_commas_singleton (a : List Item) : kinds (commas [a]) = kinds a := by
  rw [commas, List.intercalate_singleton]

@[simp] theorem kinds_commas_cons (a b : List Item) (parts : List (List Item)) :
    kinds (commas (a :: b :: parts)) =
      kinds a ++ .symbol .comma :: kinds (commas (b :: parts)) :=
  kinds_intercalate

end Item

open Item (kinds commas)

/-! ### Derivations -/

theorem Expr.height_pos (e : Expr) : 0 < e.height := by
  cases e <;> simp [Expr.height]

theorem Grammar.Expression.of_phrase {n k : Nat} {w : List Kind} {e : Expr} (hn : 0 < n)
    (h : Phrase (Expression (n - 1)) k w e) : Expression n k w e := by
  obtain ⟨m, rfl⟩ : ∃ m, n = m + 1 := ⟨n - 1, by omega⟩
  exact h

theorem Grammar.Expression.phrase {n k : Nat} {w : List Kind} {e : Expr}
    (h : Expression n k w e) : Phrase (Expression (n - 1)) k w e := by
  cases n with
  | zero => exact h.elim
  | succ n => exact h

theorem Grammar.Expression.weaken_le {n k k' : Nat} {w : List Kind} {e : Expr} (hk : k ≤ k')
    (h : Expression n k' w e) : Expression n k w e := by
  cases n with
  | zero => exact h.elim
  | succ n => exact Phrase.weaken_le hk h

theorem BinaryOp.stratum_lt_postfixed (op : BinaryOp) : op.stratum < postfixed := by
  cases op <;> decide

theorem newlines_nil : Newlines [] := nofun

theorem separators_nil : Separators [] := nofun

theorem separators_space : Separators (kinds [.space]) := nofun

theorem block_of_statements {n : Nat} {gap : Item} {body : List Stmt}
    (h : Statements (Expression n) (kinds [gap] ++
      (kinds ([Item.sign .semicolon, .space].intercalate (Stmt.itemsAll body)) ++ kinds [gap]))
      body) :
    Block (Expression n) (kinds (Item.block gap (Stmt.itemsAll body))) body := by
  have hkinds (items : List Item) : kinds (gap :: items) = kinds [gap] ++ kinds items :=
    Item.kinds_append [gap] items
  rw [Item.block, Item.kinds_within, hkinds, Item.kinds_append]
  exact .mk h

theorem parameters_commas (params : List String) :
    Parameters (kinds (commas (params.map fun p => [.name p])) ++ [.symbol .closeParen])
      params := by
  induction params with
  | nil => exact .none newlines_nil
  | cons x params ih =>
    cases params with
    | nil => exact .last newlines_nil newlines_nil
    | cons y params =>
      simp only [List.map_cons, Item.kinds_commas_cons] at ih ⊢
      exact .next newlines_nil newlines_nil ih

mutual

theorem Expr.derives : (e : Expr) → e.Obeys .readable → ∀ n, 2 * e.height ≤ n + 1 →
    Expression n postfixed (kinds e.items) e
  | .int _, _, n, hn => .of_phrase (by simp [Expr.height] at hn; omega) .int
  | .str _, _, n, hn => .of_phrase (by simp [Expr.height] at hn; omega) .str
  | .bool true, _, n, hn => .of_phrase (by simp [Expr.height] at hn; omega) .true
  | .bool false, _, n, hn => .of_phrase (by simp [Expr.height] at hn; omega) .false
  | .null, _, n, hn => .of_phrase (by simp [Expr.height] at hn; omega) .null
  | .var _, _, n, hn => .of_phrase (by simp [Expr.height] at hn; omega) .var
  | .unary op a, ho, n, hn => by
    rw [Expr.height] at hn
    have hpos := a.height_pos
    -- one level of nesting for the parentheses, one for the operand of the sign
    have ha := (a.derives ho.2 (n - 1 - 1) (by omega)).weaken_le (Nat.le_succ _)
    have hop := (Expression.of_phrase (by omega) (.unary op ha)).weaken_le (Nat.zero_le _)
    rw [Expr.items, Item.kinds_within]
    exact .of_phrase (by omega) (.group newlines_nil hop newlines_nil)
  | .binary op a b, ho, n, hn => by
    rw [Expr.height] at hn
    have hpos := a.height_pos
    have hop := op.stratum_lt_postfixed
    -- only the right operand is a level deeper than the parentheses
    have ha := (a.derives ho.2.1 (n - 1) (by omega)).weaken_le (Nat.le_of_lt hop)
    have hb := (b.derives ho.2.2 (n - 1 - 1) (by omega)).weaken_le hop
    have hboth := (Expression.of_phrase (by omega) (.binary ha.phrase newlines_nil hb)).weaken_le
      (Nat.zero_le _)
    refine .of_phrase (by omega) ?_
    simpa [Expr.items] using Phrase.group newlines_nil hboth newlines_nil
  | .cond test body none, ho, n, hn => by
    rw [Expr.height, Stmt.heightElse] at hn
    have hpos := test.height_pos
    have htest := (test.derives ho.2.1 (n - 1) (by omega)).weaken_le (Nat.zero_le _)
    have hbody := block_of_statements (Stmt.derives_all body ho.2.2.1 (n - 1) (by omega) _ rfl rfl
      separators_space separators_space)
    refine .of_phrase (by omega) ?_
    simpa [Expr.items, Stmt.itemsElse] using Phrase.cond (.plain htest hbody)
  | .cond test body (some body'), ho, n, hn => by
    rw [Expr.height, Stmt.heightElse] at hn
    have hpos := test.height_pos
    have htest := (test.derives ho.2.1 (n - 1) (by omega)).weaken_le (Nat.zero_le _)
    have hbody := block_of_statements (Stmt.derives_all body ho.2.2.1 (n - 1) (by omega) _ rfl rfl
      separators_space separators_space)
    have hbody' := block_of_statements (Stmt.derives_all body' ho.2.2.2 (n - 1) (by omega) _ rfl rfl
      separators_space separators_space)
    refine .of_phrase (by omega) ?_
    simpa [Expr.items, Stmt.itemsElse] using
      Phrase.cond (.otherwise htest hbody newlines_nil hbody')
  | .fn params body, ho, n, hn => by
    rw [Expr.height] at hn
    have hbody := block_of_statements (Stmt.derives_all body ho.2 (n - 1) (by omega) _ rfl rfl
      separators_space separators_space)
    refine .of_phrase (by omega) ?_
    simpa [Expr.items, Item.signature] using Phrase.fn (parameters_commas params) ho.1.1 hbody
  | .call callee args, ho, n, hn => by
    rw [Expr.height] at hn
    -- a callee is written bare, at the level of the call itself
    have hcallee := callee.derives ho.2.1 n (by omega)
    have hargs := Expr.derives_all args ho.2.2 .closeParen (n - 1) (by omega)
    refine .of_phrase (by omega) ?_
    simpa [Expr.items] using Phrase.call hcallee.phrase hargs
  | .index target position, ho, n, hn => by
    rw [Expr.height] at hn
    have hpos := target.height_pos
    have htarget := target.derives ho.2.1 (n - 1) (by omega)
    have hposition := (position.derives ho.2.2 (n - 1 - 1) (by omega)).weaken_le (Nat.zero_le _)
    have hindex := (Expression.of_phrase (by omega)
      (.index htarget.phrase newlines_nil hposition newlines_nil)).weaken_le (Nat.zero_le _)
    refine .of_phrase (by omega) ?_
    simpa [Expr.items] using Phrase.group newlines_nil hindex newlines_nil
  | .list elements, ho, n, hn => by
    rw [Expr.height] at hn
    have hs := Expr.derives_all elements ho.2 .closeBracket (n - 1) (by omega)
    rw [Expr.items, Item.kinds_within]
    exact .of_phrase (by omega) (.list hs)
  | .tuple [], _, n, hn => by
    rw [Expr.height] at hn
    exact .of_phrase (by omega) (.unit newlines_nil)
  | .tuple [a], ho, n, hn => by
    rw [Expr.height, Expr.heightAll, Expr.heightAll] at hn
    have ha := (a.derives ho.2.1 (n - 1) (by omega)).weaken_le (Nat.zero_le _)
    refine .of_phrase (by omega) ?_
    simpa [Expr.items] using Phrase.tuple newlines_nil ha newlines_nil (.none newlines_nil)
  | .tuple (a :: b :: es), ho, n, hn => by
    rw [Expr.height, Expr.heightAll] at hn
    have ha := (a.derives ho.2.1 (n - 1) (by omega)).weaken_le (Nat.zero_le _)
    have hs := Expr.derives_all (b :: es) ho.2.2 .closeParen (n - 1) (by omega)
    refine .of_phrase (by omega) ?_
    simpa [Expr.items, Expr.itemsAll] using Phrase.tuple newlines_nil ha newlines_nil hs
  | .map pairs, ho, n, hn => by
    rw [Expr.height] at hn
    have hs := Expr.derives_pairs pairs ho.2 (n - 1) (by omega)
    rw [Expr.items, Item.kinds_within]
    exact .of_phrase (by omega) (.map hs)

theorem Expr.derives_all : (es : List Expr) → Expr.ObeyAll .readable es → ∀ closing n,
    2 * Expr.heightAll es ≤ n + 1 →
      Elements (Expression n) closing (kinds (commas (Expr.itemsAll es)) ++ [.symbol closing]) es
  | [], _, _, n, _ => .none newlines_nil
  | [a], ho, closing, n, hn => by
    rw [Expr.heightAll, Expr.heightAll] at hn
    have ha := (a.derives ho.1 n (by omega)).weaken_le (Nat.zero_le _)
    rw [Expr.itemsAll, Expr.itemsAll, Item.kinds_commas_singleton]
    exact .last newlines_nil ha newlines_nil
  | a :: b :: es, ho, closing, n, hn => by
    rw [Expr.heightAll] at hn
    have ha := (a.derives ho.1 n (by omega)).weaken_le (Nat.zero_le _)
    have hs := Expr.derives_all (b :: es) ho.2 closing n (by omega)
    rw [Expr.itemsAll] at hs ⊢
    rw [Expr.itemsAll, Item.kinds_commas_cons, List.append_assoc]
    exact .next newlines_nil ha newlines_nil hs

theorem Expr.derives_pairs : (pairs : List (Expr × Expr)) → Expr.ObeyPairs .readable pairs → ∀ n,
    2 * Expr.heightPairs pairs ≤ n + 1 →
      Pairs (Expression n) (kinds (commas (Expr.itemsPairs pairs)) ++ [.symbol .closeBrace]) pairs
  | [], _, n, _ => .none newlines_nil
  | [(a, b)], ho, n, hn => by
    rw [Expr.heightPairs, Expr.heightPairs] at hn
    have ha := (a.derives ho.1 n (by omega)).weaken_le (Nat.zero_le _)
    have hb := (b.derives ho.2.1 n (by omega)).weaken_le (Nat.zero_le _)
    have hpair := Pair.mk ha newlines_nil newlines_nil hb
    simpa [Expr.itemsPairs] using Pairs.last newlines_nil hpair newlines_nil
  | (a, b) :: pair :: pairs, ho, n, hn => by
    rw [Expr.heightPairs] at hn
    have ha := (a.derives ho.1 n (by omega)).weaken_le (Nat.zero_le _)
    have hb := (b.derives ho.2.1 n (by omega)).weaken_le (Nat.zero_le _)
    have hpair := Pair.mk ha newlines_nil newlines_nil hb
    have hs := Expr.derives_pairs (pair :: pairs) ho.2.2 n (by omega)
    simpa [Expr.itemsPairs] using Pairs.next newlines_nil hpair newlines_nil hs

theorem Stmt.derives : (s : Stmt) → s.Obeys .readable → ∀ n, 2 * s.height ≤ n + 1 →
    Statement (Expression n) (kinds s.items) s
  | .declare _ a, ho, n, hn =>
    .declare newlines_nil ((a.derives ho.2 n hn).weaken_le (Nat.zero_le _))
  | .assign _ a, ho, n, hn =>
    .assign newlines_nil ((a.derives ho.2 n hn).weaken_le (Nat.zero_le _))
  | .ret none, _, _, _ => .ret
  | .ret (some a), ho, n, hn => .retValue ((a.derives ho.2 n hn).weaken_le (Nat.zero_le _))
  | .expr a, ho, n, hn => .expr ((a.derives ho.2 n hn).weaken_le (Nat.zero_le _))

theorem Stmt.derives_all : (body : List Stmt) → Stmt.ObeyAll .readable body → ∀ n,
    2 * Stmt.heightAll body ≤ n + 1 → ∀ (separator : List Item) {k : Kind} {s s' : List Kind},
      kinds separator = [k] → k.isSeparator = true → Separators s → Separators s' →
        Statements (Expression n)
          (s ++ (kinds (separator.intercalate (Stmt.itemsAll body)) ++ s')) body
  | [], _, _, _, _, _, _, _, _, _, hs, hs' => .none (hs.append hs')
  | [a], ho, n, hn, _, _, s, s', _, _, hs, hs' => by
    rw [Stmt.heightAll, Stmt.heightAll] at hn
    have ha := a.derives ho.1 n (by omega)
    rw [Stmt.itemsAll, Stmt.itemsAll, List.intercalate_singleton]
    refine .cons Expression.starts hs ha (.none hs') fun kind hm => ?_
    exact not_startsStatement_of_end (.inl (hs' kind (List.mem_of_mem_head? hm)))
  | a :: b :: body, ho, n, hn, separator, k, s, s', hk, hsep, hs, hs' => by
    rw [Stmt.heightAll] at hn
    have ha := a.derives ho.1 n (by omega)
    have hsep' : Separators [k] := by simpa [Separators] using hsep
    have hrest := Stmt.derives_all (b :: body) ho.2 n (by omega) separator hk hsep hsep' hs'
    rw [Stmt.itemsAll, Stmt.itemsAll, Item.kinds_intercalate, hk, List.append_assoc,
      List.append_assoc]
    refine .cons Expression.starts hs ha hrest fun kind hm => ?_
    obtain rfl : k = kind := by simpa using hm
    exact not_startsStatement_of_end (.inl hsep)

end

end Tang
