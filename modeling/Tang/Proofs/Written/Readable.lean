import Tang.Proofs.Grammar.Recognition
import Tang.Proofs.Occurrence

/-! Trees that can be read: those whose names and numbers a text can hold. The tokens of a text have
such names and numbers, and so have all trees that the grammar derives from them. -/

namespace Tang

open Token (Kind)

/-! ### Names and numbers -/

/-- A text that is scanned as a name. -/
structure IsName (x : String) : Prop where
  chars : ∃ c cs, x.toList = c :: cs ∧ Token.isNameStart c = true ∧
    ∀ d ∈ cs, Token.isNameChar d = true
  free : Keyword.ofText? x = none

/-- A token that a text can hold, apart from the characters in its string literals. -/
def Token.Kind.Scanned : Kind → Prop
  | .name x => IsName x
  | .int n => 0 ≤ n.toInt
  | .endOfInput => False
  | _ => True

/-- Names and numbers are such as texts can hold, and parameters differ. -/
def Rule.readable : Rule where
  expr
    | .int n => 0 ≤ n.toInt
    | .var x => IsName x
    | .fn params _ => params.Nodup ∧ ∀ x ∈ params, IsName x
    | _ => True
  stmt
    | .declare x _ | .assign x _ => IsName x
    | _ => True

/-- A row of tokens that a text can hold. -/
def Scannable (w : List Kind) : Prop :=
  ∀ kind ∈ w, kind.Scanned

@[simp] theorem scannable_cons {kind : Kind} {w : List Kind} :
    Scannable (kind :: w) ↔ kind.Scanned ∧ Scannable w :=
  List.forall_mem_cons

@[simp] theorem scannable_append {w w' : List Kind} :
    Scannable (w ++ w') ↔ Scannable w ∧ Scannable w' :=
  List.forall_mem_append

/-! ### Derived trees -/

namespace Grammar

variable {Sub : Nat → List Kind → Expr → Prop}
  (hSub : ∀ {k w e}, Sub k w e → Scannable w → e.Obeys .readable)

include hSub

theorem Elements.readable {closing : Symbol} {w : List Kind} {es : List Expr}
    (h : Elements Sub closing w es) (hw : Scannable w) : Expr.ObeyAll .readable es := by
  induction h with
  | none _ => trivial
  | last _ h _ =>
    simp only [scannable_append, scannable_cons] at hw
    exact ⟨hSub h hw.2.1, trivial⟩
  | next _ h _ _ ih =>
    simp only [scannable_append, scannable_cons] at hw
    exact ⟨hSub h hw.2.1, ih hw.2.2.2.2⟩

theorem Pair.readable {w : List Kind} {p : Expr × Expr} (h : Pair Sub w p) (hw : Scannable w) :
    p.1.Obeys .readable ∧ p.2.Obeys .readable := by
  obtain ⟨ha, -, -, hb⟩ := h
  simp only [scannable_append, scannable_cons] at hw
  exact ⟨hSub ha hw.1, hSub hb hw.2.2.2.2⟩

theorem Pairs.readable {w : List Kind} {ps : List (Expr × Expr)} (h : Pairs Sub w ps)
    (hw : Scannable w) : Expr.ObeyPairs .readable ps := by
  induction h with
  | none _ => trivial
  | last _ h _ =>
    simp only [scannable_append, scannable_cons] at hw
    obtain ⟨ha, hb⟩ := h.readable hSub hw.2.1
    exact ⟨ha, hb, trivial⟩
  | next _ h _ _ ih =>
    simp only [scannable_append, scannable_cons] at hw
    obtain ⟨ha, hb⟩ := h.readable hSub hw.2.1
    exact ⟨ha, hb, ih hw.2.2.2.2⟩

omit hSub in
theorem Parameters.readable {w : List Kind} {xs : List String} (h : Parameters w xs)
    (hw : Scannable w) : ∀ x ∈ xs, IsName x := by
  induction h with
  | none _ => simp
  | last _ _ =>
    simp only [scannable_append, scannable_cons] at hw
    exact List.forall_mem_cons.2 ⟨hw.2.1, by simp⟩
  | next _ _ _ ih =>
    simp only [scannable_append, scannable_cons] at hw
    exact List.forall_mem_cons.2 ⟨hw.2.1, ih hw.2.2.2.2⟩

theorem Statement.readable {w : List Kind} {first : Stmt} (h : Statement Sub w first)
    (hw : Scannable w) : first.Obeys .readable := by
  cases h with
  | ret => trivial
  | retValue h =>
    rw [scannable_cons] at hw
    exact ⟨trivial, hSub h hw.2⟩
  | declare _ h | assign _ h =>
    simp only [scannable_append, scannable_cons] at hw
    exact ⟨hw.1, hSub h hw.2.2.2⟩
  | expr h => exact ⟨trivial, hSub h hw⟩

theorem Statements.readable {w : List Kind} {body : List Stmt} (h : Statements Sub w body)
    (hw : Scannable w) : Stmt.ObeyAll .readable body := by
  induction h with
  | none _ => trivial
  | last _ h =>
    rw [scannable_append] at hw
    exact ⟨h.readable hSub hw.2, trivial⟩
  | next _ h _ _ ih =>
    simp only [scannable_append, scannable_cons] at hw
    exact ⟨h.readable hSub hw.2.1, ih hw.2.2.2⟩

theorem Block.readable {w : List Kind} {body : List Stmt} (h : Block Sub w body)
    (hw : Scannable w) : Stmt.ObeyAll .readable body := by
  obtain ⟨h⟩ := h
  simp only [scannable_append, scannable_cons] at hw
  exact h.readable hSub hw.2.1

theorem Conditional.readable {w : List Kind} {e : Expr} (h : Conditional Sub w e)
    (hw : Scannable w) : e.Obeys .readable := by
  induction h with
  | plain h hb =>
    rw [scannable_append] at hw
    exact ⟨trivial, hSub h hw.1, hb.readable hSub hw.2, trivial⟩
  | otherwise h hb _ hb' =>
    simp only [scannable_append, scannable_cons] at hw
    exact ⟨trivial, hSub h hw.1, hb.readable hSub hw.2.1, hb'.readable hSub hw.2.2.2.2⟩
  | chain h hb _ _ ih =>
    simp only [scannable_append, scannable_cons] at hw
    exact ⟨trivial, hSub h hw.1, hb.readable hSub hw.2.1, ⟨trivial, ih hw.2.2.2.2.2⟩, trivial⟩

theorem Phrase.readable {k : Nat} {w : List Kind} {e : Expr} (h : Phrase Sub k w e)
    (hw : Scannable w) : e.Obeys .readable := by
  induction h with
  | weaken _ ih => exact ih hw
  | binary _ _ h ih =>
    simp only [scannable_append, scannable_cons] at hw
    exact ⟨trivial, ih hw.1, hSub h hw.2.2.2⟩
  | unary _ h =>
    rw [scannable_cons] at hw
    exact ⟨trivial, hSub h hw.2⟩
  | call _ h ih =>
    simp only [scannable_append, scannable_cons] at hw
    exact ⟨trivial, ih hw.1, h.readable hSub hw.2.2⟩
  | index _ _ h _ ih =>
    simp only [scannable_append, scannable_cons] at hw
    exact ⟨trivial, ih hw.1, hSub h hw.2.2.2.1⟩
  | int | var => exact (scannable_cons.1 hw).1
  | group _ h _ =>
    simp only [scannable_append, scannable_cons] at hw
    exact hSub h hw.2.2.1
  | unit _ => exact ⟨trivial, trivial⟩
  | tuple _ h _ hs =>
    simp only [scannable_append, scannable_cons] at hw
    exact ⟨trivial, hSub h hw.2.2.1, hs.readable hSub hw.2.2.2.2.2⟩
  | list h =>
    rw [scannable_cons] at hw
    exact ⟨trivial, h.readable hSub hw.2⟩
  | map h =>
    rw [scannable_cons] at hw
    exact ⟨trivial, h.readable hSub hw.2⟩
  | cond h =>
    rw [scannable_cons] at hw
    exact h.readable hSub hw.2
  | fn hp hnd hb =>
    simp only [scannable_append, scannable_cons] at hw
    exact ⟨⟨hnd, hp.readable hw.2.2.1⟩, hb.readable hSub hw.2.2.2⟩
  | _ => trivial

end Grammar

theorem Grammar.Expression.readable {depth k : Nat} {w : List Kind} {e : Expr}
    (h : Expression depth k w e) (hw : Scannable w) : e.Obeys .readable := by
  induction depth generalizing k w e with
  | zero => exact h.elim
  | succ depth ih => exact Phrase.readable ih h hw

/-! ### Scanned tokens -/

namespace Token

theorem scanned_ofWord {c : Char} {cs : List Char} (hc : isNameStart c = true)
    (hcs : ∀ d ∈ cs, isNameChar d = true) : (Kind.ofWord (String.ofList (c :: cs))).Scanned := by
  unfold Kind.ofWord
  split
  · trivial
  · next hfree => exact ⟨⟨c, cs, String.toList_ofList, hc, hcs⟩, hfree⟩

theorem scanned_of_symbol? {c : Char} {cs : List Char} {p : Piece} {kind : Kind}
    (h : symbol? c cs = some p) (hk : p.kind? = some kind) : kind.Scanned := by
  have single {o : Option Symbol}
      (h : o.map (fun s => Piece.mk (some (.symbol s)) [c] cs) = some p) :
      kind.Scanned := by
    obtain ⟨s, -, rfl⟩ := Option.map_eq_some_iff.1 h
    obtain rfl := Option.some.inj hk
    trivial
  unfold symbol? at h
  split at h
  · exact single h
  · split at h
    · obtain rfl := Option.some.inj h
      obtain rfl := Option.some.inj hk
      trivial
    · exact single h

theorem scanned_of_piece {offset : Nat} {c : Char} {cs : List Char} {p : Piece} {kind : Kind}
    (h : piece offset c cs = .ok p) (hk : p.kind? = some kind) : kind.Scanned := by
  unfold piece at h
  split at h
  · cases h; cases hk; trivial
  split at h
  · cases h; cases hk
  split at h
  · next hc =>
    cases h; cases hk
    exact scanned_ofWord hc fun d hd => List.all_eq_true.1 List.all_takeWhile d hd
  split at h
  · unfold number at h
    split at h
    · next n hn =>
      cases h; cases hk
      show 0 ≤ n.toInt
      rw [Integer.toInt_of_ofInt?_eq_some hn]
      exact Int.natCast_nonneg _
    · cases h
  split at h
  · cases hl : literal offset (offset + 1) cs with
    | error e => simp [hl, Except.map] at h
    | ok l =>
      simp only [hl, Except.map, Except.ok.injEq] at h
      subst h
      cases hk
      trivial
  split at h
  · cases h; cases hk
  split at h
  · next hs =>
    cases h
    exact scanned_of_symbol? hs hk
  · cases h

theorem scanned_of_scanFrom {offset : Nat} {tokens tokens' : Array Token} {cs : List Char}
    (h : scanFrom offset tokens cs = .ok tokens') :
    ∃ more last, tokens'.toList = tokens.toList ++ (more ++ [last]) ∧ last.kind = .endOfInput ∧
      ∀ token ∈ more, token.kind.Scanned := by
  fun_induction scanFrom offset tokens cs with
  | case1 offset tokens =>
    obtain rfl := Except.ok.inj h
    exact ⟨[], ⟨.endOfInput, offset, offset⟩, by simp, rfl, nofun⟩
  | case2 offset tokens c cs error hp => cases h
  | case3 offset tokens c cs p hp hle stop kind hk ih =>
    obtain ⟨more, last, htokens, hlast, hmore⟩ := ih h
    refine ⟨⟨kind, offset, stop⟩ :: more, last, by simp [htokens], hlast, ?_⟩
    rw [List.forall_mem_cons]
    exact ⟨scanned_of_piece hp hk, hmore⟩
  | case4 offset tokens c cs p hp hle stop hk ih => exact ih h

theorem scanned_of_scan {source : String} {tokens : List Token} (h : scan source = .ok tokens) :
    ∃ more last, tokens = more ++ [last] ∧ last.kind = .endOfInput ∧
      ∀ token ∈ more, token.kind.Scanned := by
  unfold scan at h
  cases hs : scanFrom 0 #[] source.toList with
  | error error => rw [hs] at h; cases h
  | ok all =>
    rw [hs] at h
    obtain rfl := Except.ok.inj h
    obtain ⟨more, last, htokens, hlast, hmore⟩ := scanned_of_scanFrom hs
    exact ⟨more, last, by simpa using htokens, hlast, hmore⟩

end Token

/-- The tokens of a text that is accepted, of which the grammar derives the program. -/
theorem Program.derives_of_parse {file source : String} {program : Program}
    (h : Program.parse file source = .ok program) :
    ∃ tokens last, Token.scan source = .ok (tokens ++ [last]) ∧ last.kind = .endOfInput ∧
      (∀ token ∈ tokens, token.kind.Scanned) ∧
      Grammar.Derives maxNesting (tokens.map Token.kind) program := by
  unfold Program.parse at h
  split at h
  · next tokens hscan =>
    obtain ⟨more, last, rfl, hlast, hmore⟩ := Token.scanned_of_scan hscan
    have hend : ∀ token ∈ more, token.kind ≠ .endOfInput := by
      intro token hm he
      have hscanned := hmore token hm
      rw [he] at hscanned
      exact hscanned
    have hread := Program.ofTokens_of_parseTokens.1 h
    exact ⟨more, last, hscan, hlast, hmore, (Program.ofTokens_eq_ok_iff hend hlast).1 hread⟩
  · cases h

/-- A text that is accepted is a program that can be read. -/
theorem Program.readable_of_parse {file source : String} {program : Program}
    (h : Program.parse file source = .ok program) : Stmt.ObeyAll .readable program := by
  obtain ⟨tokens, last, -, -, hscanned, hderives⟩ := Program.derives_of_parse h
  refine hderives.readable Grammar.Expression.readable fun kind hm => ?_
  obtain ⟨token, ht, rfl⟩ := List.mem_map.1 hm
  exact hscanned token ht

end Tang
