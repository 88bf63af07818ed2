import Mathlib.Tactic.Common
import Tang.Proofs.Joined.Scanning
import Tang.Proofs.Lockstep
import Tang.Proofs.Written.Readable

/-! Programs joined by a line end. A statement ends at a line end as it does at the end of the
input, with one exception: after a block the parser looks for the word `else` beyond line ends. If
the second text does not begin with this word, the two texts are read as they are read alone. What
is said about the second text stays the same, apart from the lines that are pointed at. -/

namespace Tang

open Token (Kind)

/-! ### Lines -/

namespace Text

/-- A place behind some characters is as many lines further down as they have line ends. -/
theorem lineFrom_append (line : Nat) (cs ds : List Char) (offset : Nat) :
    lineFrom line (cs ++ ds) (offset + width cs) = lineFrom (line + cs.count '\n') ds offset := by
  induction cs generalizing line with
  | nil => simp
  | cons c cs ih =>
    have hpos : offset + width (c :: cs) ≠ 0 := by
      have := c.utf8Size_pos
      simp only [width_cons]
      omega
    have hrest : offset + width (c :: cs) - c.utf8Size = offset + width cs := by
      simp only [width_cons]
      omega
    rw [List.cons_append, lineFrom, if_neg hpos, hrest, ih]
    by_cases hc : c = '\n'
    · simp [hc, Nat.add_comm, Nat.add_left_comm]
    · simp [hc]

theorem lineFrom_add (line more : Nat) (cs : List Char) (offset : Nat) :
    lineFrom (line + more) cs offset = lineFrom line cs offset + more := by
  induction cs generalizing line offset with
  | nil => rfl
  | cons c cs ih =>
    simp only [lineFrom]
    split
    · rfl
    · split
      · rw [Nat.add_right_comm, ih]
      · exact ih ..

theorem lineAt_append_newline (a b : String) (offset : Nat) :
    lineAt (a ++ "\n" ++ b) (offset + (width a.toList + 1)) =
      lineAt b offset + (1 + a.toList.count '\n') := by
  have hjoined : (a ++ "\n" ++ b).toList = (a.toList ++ ['\n']) ++ b.toList := by simp
  have hwidth : width a.toList + 1 = width (a.toList ++ ['\n']) := by
    rw [width_append]
    rfl
  rw [lineAt, lineAt, hjoined, hwidth, lineFrom_append, lineFrom_add]
  simp [Nat.add_comm]

end Text

namespace Diagnostic

/-- The diagnostic for a text that begins so many lines further down. -/
def below (lines : Nat) : Diagnostic → Diagnostic
  | .lexical message location =>
    .lexical message (location.map fun l => { l with line := l.line + lines })
  | .syntactic message location =>
    .syntactic message (location.map fun l => { l with line := l.line + lines })
  | .io message => .io message
  | .usage message => .usage message

end Diagnostic

/-! ### Tokens further on -/

namespace Parser

/-- Tokens look like the same tokens further on, as far as there are at most `total`. -/
theorem lockstep_shift (distance total : Nat) :
    Lockstep fun s t => t = s.map (Token.shift distance) ∧ s.length ≤ total where
  head {s t} h := by
    rw [h.1]
    cases s <;> rfl
  tail {s t} h _ := by
    refine ⟨by rw [h.1, List.map_tail], ?_⟩
    rw [List.length_tail]
    omega
  shorter h h' := by rw [h.1, h'.1, List.length_map, List.length_map]

/-- A program that stands behind `before` other tokens. -/
theorem readFrom_shift (distance before : Nat) (reading : Reading) (tokens : List Token) :
    ∃ statements errors,
      readFrom tokens.length ⟨#[], #[]⟩ tokens = ⟨statements, errors⟩ ∧
      readFrom (before + tokens.length) reading (tokens.map (Token.shift distance)) =
        reading.add statements
          (errors.map fun error => { error with index := error.index + before }) := by
  have hplace (s t : List Token) (h : t = s.map (Token.shift distance) ∧ s.length ≤ tokens.length) :
      before + tokens.length - t.length = tokens.length - s.length + before := by
    obtain ⟨rfl, hs⟩ := h
    rw [List.length_map]
    omega
  obtain ⟨statements, errors, hread, hread'⟩ :=
    (lockstep_shift distance tokens.length).readFrom (· + before) hplace ⟨#[], #[]⟩ reading
      ⟨rfl, Nat.le_refl tokens.length⟩
  exact ⟨statements, errors, by simpa [Reading.add] using hread, hread'⟩

end Parser

/-! ### Programs -/

namespace Program

/-- Tokens that spell a program, a separator and other tokens further on are read as the tokens on
both sides of the separator are. -/
theorem ofTokens_append {before tokens : List Token} (line : Token) {program : Program}
    (hd : Grammar.Derives maxNesting (Parser.kinds before) program)
    (hline : line.kind.isSeparator = true) (hne : Parser.NoElse (Parser.kinds tokens))
    (distance : Nat) :
    ofTokens (before ++ line :: tokens.map (Token.shift distance)) =
      ((ofTokens tokens).map (program ++ ·)).mapError
        (List.map fun error => { error with index := error.index + (before.length + 1) }) := by
  have hkinds : Parser.kinds (line :: tokens.map (Token.shift distance)) =
      [line.kind] ++ Parser.kinds tokens := by
    simp [Parser.kinds, Function.comp_def]
  have hseparator : Grammar.Separators [line.kind] := by simpa [Grammar.Separators] using hline
  have hne' : Parser.NoElse (Parser.kinds (line :: tokens.map (Token.shift distance))) := by
    rw [hkinds]
    exact Parser.noElse_separators hseparator hne
  have htotal : (before ++ line :: tokens.map (Token.shift distance)).length =
      before.length + 1 + tokens.length := by
    simp only [List.length_append, List.length_cons, List.length_map]
    omega
  have hend : (Parser.next (Parser.kinds (line :: tokens.map (Token.shift distance)))).isSeparator =
      true := hline
  obtain ⟨left, hleft, hread⟩ := @Parser.readFrom_append (before.length + 1 + tokens.length)
    ⟨#[], #[]⟩ _ _ _ hd (.inl hend) hne' [] (by simp [Grammar.Separators]) before rfl
  -- only separators are left of the first program, and they are skipped together with the line end
  have hline' : Grammar.Separators (Parser.kinds [line]) := hseparator
  rw [Parser.readFrom_separators _ _ hleft, ← List.singleton_append,
    Parser.readFrom_separators _ _ hline', List.singleton_append] at hread
  obtain ⟨statements, errors, halone, hshift⟩ := Parser.readFrom_shift distance (before.length + 1)
    ⟨program.toArray, #[]⟩ tokens
  simp only [Array.empty_append, hshift] at hread
  simp only [ofTokens, htotal, hread, halone, Parser.Reading.add]
  by_cases hempty : errors = #[]
  · simp [hempty, Except.map]
  · simp [hempty, Except.map]

end Program

theorem ParseError.offset?_append {before tokens : List Token} (line : Token) (hne : tokens ≠ [])
    (distance : Nat) (error : ParseError) :
    ParseError.offset? (before ++ line :: tokens.map (Token.shift distance))
        { error with index := error.index + (before.length + 1) } =
      (error.offset? tokens).map (· + distance) := by
  have hindex : error.index + (before.length + 1) - before.length = error.index + 1 := by omega
  have hget : (before ++ line :: tokens.map (Token.shift distance))[error.index +
      (before.length + 1)]? = tokens[error.index]?.map (Token.shift distance) := by
    rw [List.getElem?_append_right (by omega), hindex, List.getElem?_cons_succ, List.getElem?_map]
  have hlast : (before ++ line :: tokens.map (Token.shift distance)).getLast? =
      tokens.getLast?.map (Token.shift distance) := by
    rw [List.append_cons, List.getLast?_append, List.getLast?_map,
      List.getLast?_eq_some_getLast hne]
    rfl
  simp only [ParseError.offset?, hget, hlast]
  cases tokens[error.index]? with
  | some token => rfl
  | none => simp [Function.comp_def, Token.shift]

/-- What is said about the second of two joined texts. -/
theorem Diagnostic.ofParseError_append (file a b : String) {before tokens : List Token}
    (line : Token) (hne : tokens ≠ []) (error : ParseError) :
    ofParseError file (a ++ "\n" ++ b)
        (before ++ line :: tokens.map (Token.shift (Text.width a.toList + 1)))
        { error with index := error.index + (before.length + 1) } =
      (ofParseError file b tokens error).below (1 + a.toList.count '\n') := by
  simp only [ofParseError, ParseError.offset?_append line hne, below, Option.map_map,
    Function.comp_def, Text.lineAt_append_newline]

/-- The word `else` is not the first token that does not end a line. -/
theorem Parser.noElse_iff (tokens : List Token) :
    NoElse (kinds tokens) ↔
      headKind (tokens.dropWhile (·.kind.isNewline)) ≠ .keyword .elseWord := by
  rw [NoElse, headKind_eq, kinds, kinds, List.dropWhile_map]
  rfl

theorem Program.noElse_of_parse {file source : String} {program : Program} {tokens : List Token}
    (h : Program.parse file source = .ok program) (hscan : Token.scan source = .ok tokens) :
    Parser.NoElse (Parser.kinds tokens) := by
  obtain ⟨more, last, hscan', hlast, -, hderives⟩ := Program.derives_of_parse h
  obtain rfl := Except.ok.inj (hscan.symm.trans hscan')
  rw [Parser.kinds_append]
  apply Parser.noElse_statements (Parser.accepts_expression maxNesting) hderives
  rw [Parser.kinds, List.map_singleton, hlast]
  exact Parser.noElse_cons rfl (by decide)

/-- A text that is accepted, a line end and a text that can be divided into tokens are read as the
two texts are read alone: the program is the two programs one after the other, and what keeps the
second text from being accepted is reported alike, as many lines further down as the first text has,
provided that the second text does not begin with the word `else`. A text that is accepted does
not. -/
theorem Program.parse_append_newline (file a b : String) (first : Program) (tokens : List Token)
    (ha : Program.parse file a = .ok first) (hb : Token.scan b = .ok tokens) :
    (Parser.headKind (tokens.dropWhile (·.kind.isNewline)) ≠ .keyword .elseWord →
      Program.parse file (a ++ "\n" ++ b) =
        match Program.parse file b with
        | .ok second => .ok (first ++ second)
        | .error diagnostics =>
          .error (diagnostics.map (.below (1 + a.toList.count '\n')))) ∧
    ((∃ second, Program.parse file b = .ok second) →
      Parser.headKind (tokens.dropWhile (·.kind.isNewline)) ≠ .keyword .elseWord) := by
  constructor
  · intro helse
    obtain ⟨before, last, hscan, -, -, hderives⟩ := Program.derives_of_parse ha
    obtain ⟨before', hbefore, hjoined⟩ := Token.scan_append_newline hscan b
    obtain ⟨rfl, -⟩ := List.append_inj' hbefore rfl
    obtain ⟨more, last', hmore, -⟩ := Token.scanned_of_scan hb
    have hne : tokens ≠ [] := by simp [hmore]
    rw [hb] at hjoined
    have hread := Program.ofTokens_append
      ⟨.newline, Text.width a.toList, Text.width a.toList + 1⟩ hderives rfl
      ((Parser.noElse_iff tokens).2 helse) (Text.width a.toList + 1)
    unfold Program.parse
    rw [hjoined, hb]
    simp only [Except.map, Token.mapError_ok, Program.parseTokens, hread]
    cases Program.ofTokens tokens with
    | ok second => rfl
    | error errors => simp [Diagnostic.ofParseError_append, hne]
  · rintro ⟨second, hsecond⟩
    exact (Parser.noElse_iff tokens).1 (Program.noElse_of_parse hsecond hb)

/-- A condition that an `else` could follow, and a text whose second line is no statement. -/
theorem Program.parse_append_newline_closeParen :
    Program.parse "f" "if x \x7b\x7d\n" = .ok [.expr (.cond (.var "x") [] none)] ∧
      Program.parse "f" "y\n)" = .error [.syntactic
        (ParseCause.expectedExpression (.symbol .closeParen)).message (some ⟨"f", 2⟩)] ∧
      Program.parse "f" ("if x \x7b\x7d\n" ++ "\n" ++ "y\n)") = .error [.syntactic
        (ParseCause.expectedExpression (.symbol .closeParen)).message (some ⟨"f", 4⟩)] := by
  have ha : Program.parse "f" "if x \x7b\x7d\n" = .ok [.expr (.cond (.var "x") [] none)] := by
    decide +kernel
  have hb : Token.scan "y\n)" = .ok [⟨.name "y", 0, 1⟩, ⟨.newline, 1, 2⟩,
      ⟨.symbol .closeParen, 2, 3⟩, ⟨.endOfInput, 3, 3⟩] := by decide +kernel
  have hparse : Program.parse "f" "y\n)" = .error [.syntactic
      (ParseCause.expectedExpression (.symbol .closeParen)).message (some ⟨"f", 2⟩)] := by
    decide +kernel
  have hjoined := (Program.parse_append_newline "f" _ _ _ _ ha hb).1 (by decide)
  rw [hparse] at hjoined
  exact ⟨ha, hparse, hjoined⟩

/-- The word `else` belongs to a condition before the line end. -/
example : Program.parse "f" ("if x \x7b\x7d" ++ "\n" ++ "else \x7b\x7d") =
    .ok [.expr (.cond (.var "x") [] (some []))] := by decide +kernel

end Tang
