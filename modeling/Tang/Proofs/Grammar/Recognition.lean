import Tang.Proofs.Grammar.Completeness
import Tang.Syntax.Source

/-! Programs are accepted exactly if the grammar derives them. Reading goes on after a failure, so
that a list of tokens is accepted only if no statement of it has failed. -/

namespace Tang

open Token (Kind)
open Grammar (Expression Statement Statements Separators)

namespace Parser

/-! ### One statement -/

theorem ensures_topLevel : Ensures topLevel fun w first r =>
    Statement (Expression maxNesting) w first ∧
      ((next r).isSeparator = true ∨ next r = .endOfInput) := by
  refine (ensures_statement (ensures_expression maxNesting)).and_then fun first w hfirst => ?_
  refine (ensures_expectEnd false).bind fun _ we => ?_
  refine ensures_pure fun r ⟨hwe, hend⟩ => ?_
  subst hwe
  exact ⟨by simpa using hfirst, by simpa using hend⟩

theorem reads_topLevel {w : List Kind} {first : Stmt} {rest : List Token}
    (h : Statement (Expression maxNesting) w first)
    (hend : (next (kinds rest)).isSeparator = true ∨ next (kinds rest) = .endOfInput)
    (hne : NoElse (kinds rest)) : Reads topLevel w first rest := by
  have hend' : AtEnd (kinds rest) := by
    rcases hend with h | h
    · exact .inl h
    · exact .inr (.inl h)
  apply (reads_statement (accepts_expression maxNesting) h hend' hne).last
  exact reads_expectEnd (by simpa using hend) (reads_pure _)

/-! ### All statements -/

variable {total : Nat} {reading : Reading} {tokens : List Token}

theorem readFrom_sound (h : (readFrom total reading tokens).errors.isEmpty = true) :
    reading.errors.isEmpty = true ∧ ∃ body used rest, tokens = used ++ rest ∧
      next (kinds rest) = .endOfInput ∧ Statements (Expression maxNesting) (kinds used) body ∧
      (readFrom total reading tokens).statements.toList = reading.statements.toList ++ body := by
  fun_induction readFrom total reading tokens with
  | case1 reading tokens start hstart =>
    obtain ⟨used, hused, hs⟩ :=
      ensures_skipSeparators (show skipSeparators tokens = .ok () start from rfl)
    rw [headKind_eq] at hstart
    exact ⟨h, [], used, start, hused, hstart, .none hs, by rw [List.append_nil]⟩
  | case2 reading tokens start hstart first rest hfirst hlt ih =>
    obtain ⟨hempty, body, used, rest', rfl, hend, hbody, hall⟩ := ih h
    obtain ⟨used₀, hused₀, hs⟩ :=
      ensures_skipSeparators (show skipSeparators tokens = .ok () start from rfl)
    obtain ⟨used₁, hused₁, hstmt, hnext⟩ := ensures_topLevel hfirst
    refine ⟨hempty, first :: body, used₀ ++ (used₁ ++ used), rest', ?_, hend, ?_, ?_⟩
    · simp only [hused₀, hused₁, List.append_assoc]
    · rw [kinds_append, kinds_append]
      refine .cons Expression.starts hs hstmt hbody fun k hk => ?_
      obtain ⟨w, hw⟩ : ∃ w, kinds used = k :: w := by
        simpa [List.head?_eq_some_iff] using hk
      rw [kinds_append, hw] at hnext
      apply Grammar.not_startsStatement_of_end
      rcases hnext with hk | hk
      · exact .inl hk
      · exact .inr (.inl hk)
    · rw [hall, Array.toList_push, List.append_assoc]
      rfl
  | case3 reading tokens start hstart first rest hfirst hnlt =>
    -- a statement is not empty, so that the rest is shorter
    obtain ⟨used, hused, hs⟩ :=
      ensures_skipSeparators (show skipSeparators tokens = .ok () start from rfl)
    obtain ⟨used₁, hused₁, hstmt, -⟩ := ensures_topLevel hfirst
    refine absurd ?_ hnlt
    obtain ⟨kind, w, hw, -⟩ := hstmt.starts Expression.starts
    obtain ⟨token, used₁, rfl, -⟩ := List.map_eq_cons_iff.1 hw
    rw [hused, hused₁]
    simp only [List.length_append, List.length_cons]
    omega
  | case4 reading tokens start hstart cause failed hfail error reading' rest hlt ih =>
    have hempty := (ih h).1
    simp [reading'] at hempty
  | case5 reading tokens start hstart cause failed hfail error reading' rest hnlt =>
    simp [reading'] at h

theorem readFrom_of_end (h : headKind (tokens.dropWhile (·.kind.isSeparator)) = .endOfInput) :
    readFrom total reading tokens = reading := by
  rw [readFrom]
  exact if_pos h

/-- A statement after separators is read first. -/
theorem readFrom_of_statement {s w : List Kind} {first : Stmt} {used rest : List Token}
    (hs : Separators s) (h : Statement (Expression maxNesting) w first)
    (hend : (next (kinds rest)).isSeparator = true ∨ next (kinds rest) = .endOfInput)
    (hne : NoElse (kinds rest)) (hu : kinds used = s ++ w) :
    readFrom total reading (used ++ rest) =
      readFrom total { reading with statements := reading.statements.push first } rest := by
  obtain ⟨used₁, used₂, rfl, rfl, h₂⟩ := List.map_eq_append_iff.1 hu
  have hstarts := next_of_statement (accepts_expression maxNesting) h (kinds rest)
  have hstart : (used₁ ++ used₂ ++ rest).dropWhile (·.kind.isSeparator) = used₂ ++ rest := by
    rw [List.append_assoc, dropWhile_append hs]
    apply dropWhile_eq_self
    rw [kinds_append, kinds, h₂]
    exact Grammar.not_isSeparator_of_startsStatement hstarts
  have hhead : headKind (used₂ ++ rest) ≠ .endOfInput := by
    rw [headKind_append h₂]
    intro he
    rw [he] at hstarts
    cases hstarts
  have hlt : rest.length < (used₁ ++ used₂ ++ rest).length := by
    obtain ⟨kind, w, rfl, -⟩ := h.starts Expression.starts
    obtain ⟨token, used₂, rfl, -⟩ := List.map_eq_cons_iff.1 h₂
    simp only [List.length_append, List.length_cons]
    omega
  conv => lhs; rw [readFrom]
  simp only [hstart, if_neg hhead, reads_topLevel h hend hne h₂, if_pos hlt]

/-- Statements are read in front of what may follow a statement. Separators after the last one are
left to be skipped. -/
theorem readFrom_append {w : List Kind} {body : List Stmt} {rest : List Token}
    (h : Statements (Expression maxNesting) w body)
    (hend : (next (kinds rest)).isSeparator = true ∨ next (kinds rest) = .endOfInput)
    (hne : NoElse (kinds rest)) {s : List Kind} (hs : Separators s) {used : List Token}
    (hu : kinds used = s ++ w) :
    ∃ left, Separators (kinds left) ∧ readFrom total reading (used ++ rest) =
      readFrom total { reading with statements := reading.statements ++ body.toArray }
        (left ++ rest) := by
  induction h generalizing s used reading with
  | none hs' =>
    refine ⟨used, ?_, by simp⟩
    rw [hu]
    exact hs.append hs'
  | last hs' h =>
    rw [← List.append_assoc] at hu
    refine ⟨[], nofun, ?_⟩
    rw [readFrom_of_statement (hs.append hs') h hend hne hu]
    simp
  | @next s' w w' k first others hs' h hk ht ih =>
    have hw : s ++ (s' ++ (w ++ k :: w')) = s ++ s' ++ w ++ ([k] ++ w') := by simp
    rw [hw] at hu
    obtain ⟨used₁, used₂, rfl, h₁, h₂⟩ := List.map_eq_append_iff.1 hu
    have hrest : kinds (used₂ ++ rest) = [k] ++ (w' ++ kinds rest) := by
      rw [kinds_append, kinds, h₂, List.append_assoc]
    have hk' : Separators [k] := by simpa [Separators] using hk
    have hend' : (next (kinds (used₂ ++ rest))).isSeparator = true := by rw [hrest]; exact hk
    have hne' : NoElse (kinds (used₂ ++ rest)) := by
      rw [hrest]
      apply noElse_separators hk'
      exact noElse_statements (accepts_expression maxNesting) ht hne
    obtain ⟨left, hleft, hread⟩ := @ih { reading with statements := reading.statements.push first }
      _ hk' _ h₂
    refine ⟨left, hleft, ?_⟩
    rw [List.append_assoc, readFrom_of_statement (hs.append hs') h (.inl hend') hne' h₁, hread]
    simp

theorem readFrom_complete {w : List Kind} {body : List Stmt} {last : Token}
    (h : Statements (Expression maxNesting) w body) (hlast : last.kind = .endOfInput)
    {used : List Token} (hu : kinds used = w) :
    readFrom total reading (used ++ [last]) =
      { reading with statements := reading.statements ++ body.toArray } := by
  have hkinds : kinds [last] = [.endOfInput] := by rw [kinds, List.map_singleton, hlast]
  have hend : next (kinds [last]) = .endOfInput := by rw [hkinds]; rfl
  have hne : NoElse (kinds [last]) := by rw [hkinds]; exact noElse_cons rfl (by decide)
  have hnil : Separators [] := by simp [Separators]
  obtain ⟨left, hleft, hread⟩ := @readFrom_append total reading _ _ _ h (.inr hend) hne [] hnil _ hu
  rw [hread, readFrom_of_end]
  rw [dropWhile_append hleft, dropWhile_eq_self (by rw [hkinds]; rfl)]
  exact hlast

/-- The tokens before the first end of the input. -/
theorem eq_of_append_end {used rest : List Token} {last : Token}
    (htokens : ∀ token ∈ tokens, token.kind ≠ .endOfInput) (hlast : last.kind = .endOfInput)
    (hsplit : tokens ++ [last] = used ++ rest) (hrest : next (kinds rest) = .endOfInput)
    (hused : .endOfInput ∉ kinds used) : used = tokens := by
  rcases List.append_eq_append_iff.1 hsplit with ⟨more, rfl, hmore⟩ | ⟨more, rfl, hmore⟩
  · cases more with
    | nil => rw [List.append_nil]
    | cons token more =>
      obtain ⟨rfl, -⟩ := List.cons.inj hmore
      exact absurd (List.mem_map.2 ⟨last, by simp, hlast⟩) hused
  · cases more with
    | nil => rw [List.append_nil]
    | cons token more =>
      rw [hmore] at hrest
      exact absurd hrest (htokens token (by simp))

end Parser

/-! ### Programs -/

theorem Program.ofTokens_eq_ok_iff {tokens : List Token} {last : Token} {program : Program}
    (htokens : ∀ token ∈ tokens, token.kind ≠ .endOfInput) (hlast : last.kind = .endOfInput) :
    Program.ofTokens (tokens ++ [last]) = .ok program ↔
      Grammar.Derives maxNesting (tokens.map Token.kind) program := by
  simp only [Program.ofTokens]
  constructor
  · intro h
    split at h
    · next hempty =>
      obtain ⟨-, body, used, rest, hsplit, hend, hbody, hall⟩ := Parser.readFrom_sound hempty
      obtain rfl := Parser.eq_of_append_end htokens hlast hsplit hend
        (hbody.noEnd Expression.noEnd)
      obtain rfl := Except.ok.inj h
      rw [hall]
      exact hbody
    · cases h
  · intro h
    rw [Parser.readFrom_complete h hlast rfl]
    simp

theorem Program.ofTokens_of_parseTokens {file source : String} {tokens : List Token}
    {program : Program} :
    Program.parseTokens file source tokens = .ok program ↔
      Program.ofTokens tokens = .ok program := by
  unfold Program.parseTokens
  cases Program.ofTokens tokens with
  | ok body =>
    show Except.ok body = .ok program ↔ Except.ok body = .ok program
    rw [Except.ok.injEq, Except.ok.injEq]
  | error errors => exact ⟨nofun, nofun⟩

/-- The parser accepts exactly the lists of tokens that the grammar derives, with the tree of the
derivation. -/
theorem Program.parseTokens_eq_ok_iff (file source : String) (tokens : List Token) (last : Token)
    (htokens : ∀ token ∈ tokens, token.kind ≠ .endOfInput) (hlast : last.kind = .endOfInput)
    (program : Program) :
    Program.parseTokens file source (tokens ++ [last]) = .ok program ↔
      Grammar.Derives maxNesting (tokens.map Token.kind) program := by
  rw [ofTokens_of_parseTokens, ofTokens_eq_ok_iff htokens hlast]

theorem Program.parseTokens_difference :
    Program.parseTokens "" "a - b -\nc"
      ([⟨.name "a", 0, 1⟩, ⟨.symbol .minus, 2, 3⟩, ⟨.name "b", 4, 5⟩, ⟨.symbol .minus, 6, 7⟩,
        ⟨.newline, 7, 8⟩, ⟨.name "c", 8, 9⟩] ++ [⟨.endOfInput, 9, 9⟩]) =
      .ok [.expr (.binary .sub (.binary .sub (.var "a") (.var "b")) (.var "c"))] := by
  apply (parseTokens_eq_ok_iff _ _ _ _ (by decide) rfl _).2
  have hvar (depth : Nat) (x : String) : Expression (depth + 1) 3 [.name x] (.var x) :=
    Grammar.Phrase.var.weaken.weaken
  have hleft : Expression 1000 2 [.name "a", .symbol .minus, .name "b"]
      (.binary .sub (.var "a") (.var "b")) :=
    @Grammar.Phrase.binary _ .sub _ [] _ _ _ (hvar 999 "a").weaken nofun (hvar 998 "b")
  have hall : Expression 1000 2
      [.name "a", .symbol .minus, .name "b", .symbol .minus, .newline, .name "c"]
      (.binary .sub (.binary .sub (.var "a") (.var "b")) (.var "c")) :=
    @Grammar.Phrase.binary _ .sub _ [.newline] _ _ _ hleft
      (by simp [Grammar.Newlines, Kind.isNewline]) (hvar 998 "c")
  exact @Statements.last _ [] _ _ nofun (.expr hall.weaken.weaken)

end Tang
