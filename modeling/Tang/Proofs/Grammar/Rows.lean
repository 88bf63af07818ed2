import Tang.Proofs.Grammar

/-! What rows of tokens that the grammar derives look like: with which tokens they start, and that
the end of the input is not among them. -/

namespace Tang.Grammar

open Token (Kind)

variable {Sub : Nat → List Kind → Expr → Prop}

theorem Phrase.weaken_le {k k' : Nat} {w : List Kind} {e : Expr} (hk : k ≤ k')
    (h : Phrase Sub k' w e) : Phrase Sub k w e := by
  induction hk with
  | refl => exact h
  | step _ ih => exact ih h.weaken

/-! ### First tokens -/

/-- Whether an expression may start with a token. -/
def starts : Kind → Bool
  | .int _ | .str _ | .name _ => true
  | .keyword .trueWord | .keyword .falseWord | .keyword .nullWord => true
  | .keyword .ifWord | .keyword .fnWord => true
  | .symbol .bang | .symbol .minus => true
  | .symbol .openParen | .symbol .openBracket | .symbol .openBrace => true
  | _ => false

def Starts (w : List Kind) : Prop :=
  ∃ kind w', w = kind :: w' ∧ starts kind = true

theorem Starts.append {w : List Kind} (h : Starts w) (w' : List Kind) : Starts (w ++ w') := by
  obtain ⟨kind, tail, rfl, hk⟩ := h
  exact ⟨kind, tail ++ w', rfl, hk⟩

theorem starts_sign (op : UnaryOp) : starts (.symbol op.sign) = true := by
  cases op <;> rfl

theorem Phrase.starts {k : Nat} {w : List Kind} {e : Expr} (h : Phrase Sub k w e) : Starts w := by
  induction h with
  | weaken _ ih => exact ih
  | binary _ _ _ ih | call _ _ ih | index _ _ _ _ ih => exact ih.append _
  | unary op _ => exact ⟨_, _, rfl, starts_sign op⟩
  | _ => exact ⟨_, _, rfl, rfl⟩

theorem Expression.starts {depth k : Nat} {w : List Kind} {e : Expr}
    (h : Expression depth k w e) : Starts w := by
  cases depth with
  | zero => exact h.elim
  | succ depth => exact Phrase.starts h

/-- An expression that starts with a name does not go on as a statement that binds the name. -/
theorem Phrase.second {k : Nat} {w : List Kind} {e : Expr} (h : Phrase Sub k w e) :
    ∀ x w', w = .name x :: w' →
      w'.head? ≠ some (.symbol .declare) ∧ w'.head? ≠ some (.symbol .assign) := by
  have hcat {w n : List Kind} {kind : Kind} (hk : kind ≠ .symbol .declare ∧ kind ≠ .symbol .assign)
      (hw : Starts w) (ih : ∀ x w', w = .name x :: w' →
        w'.head? ≠ some (.symbol .declare) ∧ w'.head? ≠ some (.symbol .assign)) :
      ∀ x w', w ++ kind :: n = .name x :: w' →
        w'.head? ≠ some (.symbol .declare) ∧ w'.head? ≠ some (.symbol .assign) := by
    obtain ⟨first, tail, rfl, -⟩ := hw
    rintro x w' ⟨⟩
    cases tail with
    | nil => simpa using hk
    | cons second tail => exact ih x (second :: tail) rfl
  induction h with
  | weaken _ ih => exact ih
  | @binary op _ _ _ _ _ h _ _ ih => exact hcat (by cases op <;> decide) h.starts ih
  | call h _ ih => exact hcat (by decide) h.starts ih
  | index h _ _ _ ih => exact hcat (by decide) h.starts ih
  | var => rintro x w' ⟨⟩; simp
  | _ => nofun

theorem Expression.second {depth k : Nat} {x : String} {w : List Kind} {e : Expr}
    (h : Expression depth k (.name x :: w) e) :
    w.head? ≠ some (.symbol .declare) ∧ w.head? ≠ some (.symbol .assign) := by
  cases depth with
  | zero => exact h.elim
  | succ depth => exact Phrase.second h x w rfl

/-- Whether a statement may start with a token. -/
def startsStatement (kind : Kind) : Bool :=
  starts kind || kind == .keyword .returnWord

theorem not_isSeparator_of_startsStatement {kind : Kind} (h : startsStatement kind = true) :
    kind.isSeparator = false := by
  cases kind with
  | newline => cases h
  | symbol s => cases s <;> first | rfl | cases h
  | _ => rfl

/-- Where a statement ends, no other one starts. -/
theorem not_startsStatement_of_end {kind : Kind}
    (h : kind.isSeparator = true ∨ kind = .endOfInput ∨ kind = .symbol .closeBrace) :
    startsStatement kind = false := by
  rcases h with h | rfl | rfl
  · refine Bool.eq_false_iff.2 fun hs => ?_
    rw [not_isSeparator_of_startsStatement hs] at h
    cases h
  · rfl
  · rfl

theorem Separators.append {s s' : List Kind} (hs : Separators s) (hs' : Separators s') :
    Separators (s ++ s') :=
  fun kind hm => (List.mem_append.1 hm).elim (hs kind) (hs' kind)

theorem Statement.starts {w : List Kind} {first : Stmt}
    (hSub : ∀ {k w e}, Sub k w e → Starts w) (h : Statement Sub w first) :
    ∃ kind w', w = kind :: w' ∧ startsStatement kind = true := by
  cases h with
  | ret | retValue _ | declare _ _ | assign _ _ => exact ⟨_, _, rfl, rfl⟩
  | expr h =>
    obtain ⟨kind, w', rfl, hk⟩ := hSub h
    exact ⟨kind, w', rfl, by simp [startsStatement, hk]⟩

/-- A token before a statement and its separators is a separator, or the statement starts with
it. -/
theorem Statement.leading {s w w' : List Kind} {k : Kind} {first : Stmt}
    (hSub : ∀ {k w e}, Sub k w e → Starts w) (hs : Separators s) (h : Statement Sub w first)
    (after : List Kind) (hw : k :: w' = s ++ (w ++ after)) :
    (∃ s', Separators s' ∧ k.isSeparator = true ∧ s = k :: s') ∨ startsStatement k = true := by
  cases s with
  | nil =>
    obtain ⟨kind, tail, rfl, hk⟩ := h.starts hSub
    obtain ⟨rfl, -⟩ := List.cons.inj hw
    exact .inr hk
  | cons kind s =>
    obtain ⟨rfl, -⟩ := List.cons.inj hw
    exact .inl ⟨s, fun kind hm => hs kind (List.mem_cons_of_mem _ hm), hs _ List.mem_cons_self, rfl⟩

namespace Statements

variable {k : Kind} {w : List Kind} {body : List Stmt}

/-- The token before the statements and what follows it, if it is a separator. -/
theorem of_cons (hSub : ∀ {k w e}, Sub k w e → Starts w) (h : Statements Sub (k :: w) body) :
    (k.isSeparator = true ∧ Statements Sub w body) ∨ startsStatement k = true := by
  generalize hv : k :: w = v at h
  cases h with
  | none hs =>
    subst hv
    exact .inl ⟨hs k List.mem_cons_self, .none fun kind hm => hs kind (List.mem_cons_of_mem k hm)⟩
  | last hs h =>
    rcases h.leading hSub hs [] (by rwa [List.append_nil]) with ⟨s', hs', hk, rfl⟩ | hk
    · obtain ⟨-, rfl⟩ := List.cons.inj hv
      exact .inl ⟨hk, .last hs' h⟩
    · exact .inr hk
  | next hs h hk' ht =>
    rcases h.leading hSub hs _ hv with ⟨s', hs', hk, rfl⟩ | hk
    · obtain ⟨-, rfl⟩ := List.cons.inj hv
      exact .inl ⟨hk, .next hs' h hk' ht⟩
    · exact .inr hk

theorem eq_nil (hSub : ∀ {k w e}, Sub k w e → Starts w) (h : Statements Sub [] body) :
    body = [] := by
  generalize hv : [] = v at h
  cases h with
  | none => rfl
  | last _ h | next _ h _ _ =>
    obtain ⟨kind, w', rfl, -⟩ := h.starts hSub
    simp at hv

/-- A statement before others that do not follow it directly. -/
theorem cons {s w w' : List Kind} {first : Stmt} (hSub : ∀ {k w e}, Sub k w e → Starts w)
    (hs : Separators s) (hfirst : Statement Sub w first) (h : Statements Sub w' body)
    (hend : ∀ k ∈ w'.head?, startsStatement k = false) :
    Statements Sub (s ++ (w ++ w')) (first :: body) := by
  cases w' with
  | nil =>
    rw [eq_nil hSub h, List.append_nil]
    exact .last hs hfirst
  | cons k w' =>
    rcases of_cons hSub h with ⟨hk, h⟩ | hk
    · exact .next hs hfirst hk h
    · rw [hend k rfl] at hk
      cases hk

end Statements

/-! ### The end of the input -/

section End

theorem Newlines.noEnd {n : List Kind} (hn : Newlines n) : .endOfInput ∉ n :=
  fun h => absurd (hn _ h) (by decide)

theorem Separators.noEnd {s : List Kind} (hs : Separators s) : .endOfInput ∉ s :=
  fun h => absurd (hs _ h) (by decide)

variable (hSub : ∀ {k w e}, Sub k w e → .endOfInput ∉ w)

include hSub

theorem Elements.noEnd {closing : Symbol} {w : List Kind} {es : List Expr}
    (h : Elements Sub closing w es) : .endOfInput ∉ w := by
  induction h with
  | none hn => simp [hn.noEnd]
  | last hn h hn' => simp [hn.noEnd, hSub h, hn'.noEnd]
  | next hn h hn' _ ih => simp [hn.noEnd, hSub h, hn'.noEnd, ih]

theorem Pair.noEnd {w : List Kind} {p : Expr × Expr} (h : Pair Sub w p) : .endOfInput ∉ w := by
  obtain ⟨ha, hn, hn', hb⟩ := h
  simp [hSub ha, hn.noEnd, hn'.noEnd, hSub hb]

theorem Pairs.noEnd {w : List Kind} {ps : List (Expr × Expr)} (h : Pairs Sub w ps) :
    .endOfInput ∉ w := by
  induction h with
  | none hn => simp [hn.noEnd]
  | last hn h hn' => simp [hn.noEnd, h.noEnd hSub, hn'.noEnd]
  | next hn h hn' _ ih => simp [hn.noEnd, h.noEnd hSub, hn'.noEnd, ih]

omit hSub in
theorem Parameters.noEnd {w : List Kind} {xs : List String} (h : Parameters w xs) :
    .endOfInput ∉ w := by
  induction h with
  | none hn => simp [hn.noEnd]
  | last hn hn' => simp [hn.noEnd, hn'.noEnd]
  | next hn hn' _ ih => simp [hn.noEnd, hn'.noEnd, ih]

theorem Statement.noEnd {w : List Kind} {first : Stmt} (h : Statement Sub w first) :
    .endOfInput ∉ w := by
  cases h with
  | ret => simp
  | retValue h => simp [hSub h]
  | declare hn h | assign hn h => simp [hn.noEnd, hSub h]
  | expr h => exact hSub h

theorem Statements.noEnd {w : List Kind} {body : List Stmt} (h : Statements Sub w body) :
    .endOfInput ∉ w := by
  induction h with
  | none hs => exact hs.noEnd
  | last hs h => simp [hs.noEnd, h.noEnd hSub]
  | @next _ _ _ k _ _ hs h hk _ ih =>
    have hne : .endOfInput ≠ k := by
      rintro rfl
      cases hk
    simp [hs.noEnd, h.noEnd hSub, hne, ih]

theorem Block.noEnd {w : List Kind} {body : List Stmt} (h : Block Sub w body) :
    .endOfInput ∉ w := by
  obtain ⟨h⟩ := h
  simp [h.noEnd hSub]

theorem Conditional.noEnd {w : List Kind} {e : Expr} (h : Conditional Sub w e) :
    .endOfInput ∉ w := by
  induction h with
  | plain h hb => simp [hSub h, hb.noEnd hSub]
  | otherwise h hb hn hb' => simp [hSub h, hb.noEnd hSub, hn.noEnd, hb'.noEnd hSub]
  | chain h hb hn _ ih => simp [hSub h, hb.noEnd hSub, hn.noEnd, ih]

theorem Phrase.noEnd {k : Nat} {w : List Kind} {e : Expr} (h : Phrase Sub k w e) :
    .endOfInput ∉ w := by
  induction h with
  | weaken _ ih => exact ih
  | binary _ hn h ih => simp [ih, hn.noEnd, hSub h]
  | unary _ h => simp [hSub h]
  | call _ h ih => simp [ih, h.noEnd hSub]
  | index _ hn h hn' ih => simp [ih, hn.noEnd, hSub h, hn'.noEnd]
  | group hn h hn' => simp [hn.noEnd, hSub h, hn'.noEnd]
  | unit hn => simp [hn.noEnd]
  | tuple hn h hn' hs => simp [hn.noEnd, hSub h, hn'.noEnd, hs.noEnd hSub]
  | list h => simp [h.noEnd hSub]
  | map h => simp [h.noEnd hSub]
  | cond h => simp [h.noEnd hSub]
  | fn h _ hb => simp [h.noEnd, hb.noEnd hSub]
  | _ => simp

end End

theorem Expression.noEnd {depth k : Nat} {w : List Kind} {e : Expr}
    (h : Expression depth k w e) : .endOfInput ∉ w := by
  induction depth generalizing k w e with
  | zero => exact h.elim
  | succ depth ih => exact Phrase.noEnd ih h

end Tang.Grammar
