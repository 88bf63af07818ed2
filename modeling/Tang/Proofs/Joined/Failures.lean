import Tang.Proofs.Diagnostics.Places
import Tang.Proofs.Joined

/-! Failures to divide two texts that are joined by a line end. What fails in the first text fails
there alike, unless its end is within a string literal, for this literal may go on in the second
text. What fails in the second text fails at the same place of it. -/

namespace Tang

/-! ### Lines -/

/-- Text behind a place does not change the line of the place. -/
theorem Text.lineFrom_append_of_le (line : Nat) {cs : List Char} (ds : List Char) {offset : Nat}
    (h : offset ≤ width cs) : lineFrom line (cs ++ ds) offset = lineFrom line cs offset := by
  induction cs generalizing line offset with
  | nil =>
    obtain rfl : offset = 0 := Nat.le_zero.1 h
    cases ds <;> simp [lineFrom]
  | cons c cs ih =>
    rw [List.cons_append, lineFrom, lineFrom]
    split
    · rfl
    · refine ih _ ?_
      rw [width_cons] at h
      omega

namespace Diagnostic

theorem ofLexError_append (file : String) {a : String} {error : LexError}
    (h : Token.scan a = .error error) (b : String) :
    ofLexError file (a ++ b) error = ofLexError file a error := by
  have hle := (Token.between_of_scan h).le_width
  rw [Nat.zero_add] at hle
  rw [ofLexError, ofLexError, Text.lineAt, Text.lineAt, String.toList_append,
    Text.lineFrom_append_of_le 1 b.toList hle]

end Diagnostic

namespace Token

/-! ### Failures -/

theorem scanFrom_append_newline_of_error {offset : Nat} {tokens : Array Token} {cs : List Char}
    {error : LexError} (h : scanFrom offset tokens cs = .error error) (hopen : ¬ error.Open)
    (ds : List Char) : scanFrom offset tokens (cs ++ '\n' :: ds) = .error error := by
  fun_induction scanFrom offset tokens cs with
  | case1 => cases h
  | case2 offset tokens c cs error' hp =>
    cases h
    have hsettled : Settled (piece offset c cs) := fun error' hp' => by
      obtain rfl := Except.error.inj (hp.symm.trans hp')
      exact hopen
    have hp' := piece_append_newline hsettled ds
    rw [hp] at hp'
    rw [List.cons_append, scanFrom_of_error hp']
  | case3 offset tokens c cs p hp hle stop kind hk ih =>
    have hp' := piece_append_newline_of_ok hp ds
    rw [Piece.followed, hk] at hp'
    rw [List.cons_append, scanFrom_of_token hp', ← ih h]
  | case4 offset tokens c cs p hp hle stop hk ih =>
    have hp' := piece_append_newline_of_ok hp ds
    rw [Piece.followed, hk] at hp'
    rw [List.cons_append, scanFrom_of_blank hp', ← ih h]

theorem scan_append_newline_of_error {a : String} {error : LexError} (h : scan a = .error error)
    (hopen : ¬ error.Open) (b : String) : scan (a ++ "\n" ++ b) = .error error := by
  have hscan := scanFrom_append_newline_of_error (error_of_map_eq_error h) hopen b.toList
  have hjoined : (a ++ "\n" ++ b).toList = a.toList ++ '\n' :: b.toList := by simp
  rw [scan, hjoined, hscan]
  rfl

theorem message_shift (distance : Nat) {error : LexError} (h : ∀ c, error.cause ≠ .unexpected c) :
    (error.shift distance).message = error.message := by
  unfold LexError.message LexError.shift
  cases hcause : error.cause with
  | unexpected c => exact absurd hcause (h c)
  | _ => rfl

/-- Two texts joined by a line end. If both can be divided into tokens, the tokens of the whole are
those of the first text without the end of the input, one for the line end and those of the second
text moved behind it. A failure in the second text stays, so many bytes and lines further on, and
its message is the same unless it shows the place. A failure in the first text stays as it is,
unless the text ends within a string literal. -/
theorem scan_joined (file a b : String) :
    (∀ tokens, scan a = .ok tokens →
      let size := Text.width a.toList
      let joined := a ++ "\n" ++ b
      ∃ before, tokens = before ++ [⟨.endOfInput, size, size⟩] ∧
        (∀ more, scan b = .ok more →
          scan joined = .ok (before ++ ⟨.newline, size, size + 1⟩ :: more.map (shift (size + 1)))) ∧
        ∀ error, scan b = .error error →
          ∃ error', scan joined = .error error' ∧ error'.cause = error.cause ∧
            error'.offset = error.offset + (size + 1) ∧
            ((∀ c, error.cause ≠ .unexpected c) → error'.message = error.message) ∧
            Diagnostic.ofLexError file joined error' = .lexical error'.message
              (some ⟨file, Text.lineAt b error.offset + (1 + a.toList.count '\n')⟩)) ∧
    ∀ error, scan a = .error error →
      error.cause ≠ .unterminatedString → error.cause ≠ .unterminatedEscape →
        scan (a ++ "\n" ++ b) = .error error ∧
          Diagnostic.ofLexError file (a ++ "\n" ++ b) error =
            Diagnostic.ofLexError file a error := by
  constructor
  · intro tokens ha size joined
    obtain ⟨before, hbefore, hjoined⟩ := scan_append_newline ha b
    refine ⟨before, hbefore, ?_, ?_⟩
    · intro more hb
      rw [hb] at hjoined
      exact hjoined
    · intro error hb
      rw [hb] at hjoined
      refine ⟨error.shift (size + 1), hjoined, rfl, rfl, message_shift (size + 1), ?_⟩
      exact congrArg (fun line => Diagnostic.lexical _ (some ⟨file, line⟩))
        (Text.lineAt_append_newline a b error.offset)
  · intro error ha hstring hescape
    refine ⟨scan_append_newline_of_error ha (not_or.2 ⟨hstring, hescape⟩) b, ?_⟩
    rw [String.append_assoc, Diagnostic.ofLexError_append file ha]

/-- A text that ends in a comment, and one that fails on its second line, in both orders. -/
theorem scan_joined_unexpected :
    let good := "x // \""
    let bad := "\n\"é\" $"
    let error : LexError := ⟨.unexpected '$', 6⟩
    scan good = .ok [⟨.name "x", 0, 1⟩, ⟨.endOfInput, 6, 6⟩] ∧ scan bad = .error error ∧
      error.cause ≠ .unterminatedString ∧ error.cause ≠ .unterminatedEscape ∧
      (∃ error', scan (good ++ "\n" ++ bad) = .error error' ∧
        error'.message = "Unexpected character '$' at 13" ∧
        Diagnostic.ofLexError "f" (good ++ "\n" ++ bad) error' =
          .lexical error'.message (some ⟨"f", 3⟩)) ∧
      scan (bad ++ "\n" ++ good) = .error error ∧
      Diagnostic.ofLexError "f" (bad ++ "\n" ++ good) error =
        Diagnostic.ofLexError "f" bad error := by
  intro good bad error
  have hgood : scan good = .ok [⟨.name "x", 0, 1⟩, ⟨.endOfInput, 6, 6⟩] := by decide +kernel
  have hbad : scan bad = .error error := by decide +kernel
  have hstring : error.cause ≠ .unterminatedString := by decide
  have hescape : error.cause ≠ .unterminatedEscape := by decide
  obtain ⟨-, -, -, hfail⟩ := (scan_joined "f" good bad).1 _ hgood
  obtain ⟨⟨cause, offset⟩, hjoined, hcause, hoffset, -, hline⟩ := hfail error hbad
  have hcause : cause = .unexpected '$' := hcause
  have hoffset : offset = 13 := hoffset.trans (by decide +kernel)
  have hlines : Text.lineAt bad error.offset + (1 + good.toList.count '\n') = 3 := by
    decide +kernel
  rw [hlines] at hline
  subst hcause hoffset
  exact ⟨hgood, hbad, hstring, hescape, ⟨_, hjoined, by decide +kernel, hline⟩,
    (scan_joined "f" bad good).2 error hbad hstring hescape⟩

end Token

end Tang
