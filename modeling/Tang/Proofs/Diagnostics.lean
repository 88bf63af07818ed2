import Mathlib.Tactic.Common
import Tang.Proofs.Diagnostics.Places
import Tang.Proofs.Lockstep

/-! Diagnostics come in the order of the source. A text is kept from being a program by one place
that is no token or else by statements that cannot be read. In the second case reading goes on
behind the next separator, so that each failure lies behind a separator that lies behind the failure
before. -/

namespace Tang

namespace Parser

variable {all tokens rest failed : List Token} {last : Token} {errors : List ParseError}

/-! ### What is left of the tokens -/

/-- These tokens are left of all, and the end of the input is still to come. -/
structure Left (all : List Token) (last : Token) (tokens : List Token) : Prop where
  suffix : tokens <:+ all
  last : [last] <:+ tokens

theorem lockstep_left (all : List Token) (hlast : last.kind = .endOfInput) :
    Lockstep fun s t => s = t ∧ Left all last s where
  head h := by rw [h.1]
  tail {s t} h hkind := by
    obtain ⟨rfl, hsuffix, hend⟩ := h
    refine ⟨rfl, (List.tail_suffix s).trans hsuffix, ?_⟩
    cases s with
    | nil => simp at hend
    | cons token s =>
      rcases List.suffix_cons_iff.1 hend with heq | hend
      · cases heq
        exact absurd hlast hkind
      · exact hend
  shorter h h' := by rw [h.1, h'.1]

theorem Left.ne_nil (h : Left all last tokens) : tokens ≠ [] := by
  rintro rfl
  simpa using h.last

theorem Left.trans (h : Left all last tokens) (hrest : Left tokens last rest) :
    Left all last rest :=
  ⟨hrest.suffix.trans h.suffix, hrest.last⟩

theorem Left.of_topLevel (h : Left all last tokens) (hlast : last.kind = .endOfInput) {first : Stmt}
    (hfirst : topLevel tokens = .ok first rest) : Left tokens last rest := by
  have hagree := tracks_topLevel (lockstep_left tokens hlast) ⟨rfl, List.suffix_refl _, h.last⟩
  rw [hfirst] at hagree
  exact hagree.2.2

theorem Left.of_failure (h : Left all last tokens) (hlast : last.kind = .endOfInput)
    {cause : ParseCause} (hfail : topLevel tokens = .error cause failed) :
    Left tokens last failed := by
  have hagree := tracks_topLevel (lockstep_left tokens hlast) ⟨rfl, List.suffix_refl _, h.last⟩
  rw [hfail] at hagree
  exact hagree.2.2

/-- Where the next statement starts. -/
def start (tokens : List Token) : List Token :=
  tokens.dropWhile (·.kind.isSeparator)

theorem start_suffix (tokens : List Token) : start tokens <:+ tokens :=
  List.dropWhile_suffix _

theorem start_cons_of_separator {token : Token} (h : token.kind.isSeparator = true)
    (rest : List Token) : start (token :: rest) = start rest :=
  List.dropWhile_cons_of_pos (p := fun token : Token => token.kind.isSeparator) h

theorem start_cons_of_not_separator {token : Token} (h : token.kind.isSeparator = false)
    (rest : List Token) : start (token :: rest) = token :: rest :=
  List.dropWhile_cons_of_neg (p := fun token : Token => token.kind.isSeparator) (by simp [h])

theorem Left.start (h : Left all last tokens) (hlast : last.kind = .endOfInput) :
    Left all last (start tokens) :=
  ((lockstep_left all hlast).dropWhile (q := Token.Kind.isSeparator) rfl ⟨rfl, h⟩).2

theorem Left.recover (h : Left all last failed) (hlast : last.kind = .endOfInput) :
    Left all last (recover failed) :=
  ((lockstep_left all hlast).recover ⟨rfl, h⟩).2

theorem recover_suffix (failed : List Token) : recover failed <:+ failed :=
  List.dropWhile_suffix _

/-- If a statement starts behind a failure, then it starts behind a separator. -/
theorem exists_separator_of_recover (h : headKind (start (recover failed)) ≠ .endOfInput) :
    ∃ token rest, token.kind.isSeparator = true ∧ token :: rest <:+ failed ∧
      start (recover failed) = start rest := by
  have hstop := List.head?_dropWhile_not
    (fun token : Token => !token.kind.isSeparator && token.kind != .endOfInput) failed
  have hsuffix := recover_suffix failed
  rw [← recover] at hstop
  cases hrecover : recover failed with
  | nil => exact absurd (by rw [hrecover]; rfl) h
  | cons token rest =>
    rw [hrecover] at h hstop hsuffix
    cases hsep : token.kind.isSeparator with
    | true => exact ⟨token, rest, hsep, hsuffix, start_cons_of_separator hsep rest⟩
    | false =>
      rw [start_cons_of_not_separator hsep] at h
      simp_all [headKind]

theorem getElem?_of_suffix {token : Token} (h : token :: rest <:+ all) :
    all[all.length - (token :: rest).length]? = some token := by
  obtain ⟨before, rfl⟩ := h
  simp

/-- The number of separators. -/
def separators (tokens : List Token) : Nat :=
  tokens.countP (·.kind.isSeparator)

theorem separators_le {tokens tokens' : List Token} (h : tokens <:+ tokens') :
    separators tokens ≤ separators tokens' :=
  h.sublist.countP_le

theorem separators_cons {token : Token} (h : token.kind.isSeparator = true) (rest : List Token) :
    separators (token :: rest) = separators rest + 1 :=
  List.countP_cons_of_pos (p := fun token : Token => token.kind.isSeparator) h

/-! ### Failures in order -/

/-- A separator stands at the place of the first failure or behind it, and before the second. -/
def Apart (all : List Token) (a b : ParseError) : Prop :=
  ∃ j token, a.index ≤ j ∧ j < b.index ∧ all[j]? = some token ∧ token.kind.isSeparator = true

/-- The failures to read a statement in the tokens that are left of all. -/
structure Ordered (all tokens : List Token) (errors : List ParseError) : Prop where
  unread : errors ≠ [] → headKind (start tokens) ≠ .endOfInput
  within : ∀ error ∈ errors,
    all.length - (start tokens).length ≤ error.index ∧ error.index < all.length
  apart : errors.Pairwise (Apart all)
  few : errors.length ≤ 1 + separators (start tokens)

theorem ordered_nil (all tokens : List Token) : Ordered all tokens [] where
  unread h := absurd rfl h
  within _ he := absurd he List.not_mem_nil
  apart := .nil
  few := Nat.zero_le _

/-- The failures behind a statement. -/
theorem Ordered.of_suffix (h : Ordered all rest errors) (hrest : rest <:+ start tokens)
    (hstart : headKind (start tokens) ≠ .endOfInput) : Ordered all tokens errors where
  unread _ := hstart
  within error he := by
    have hle := ((start_suffix rest).trans hrest).length_le
    have hwithin := h.within error he
    omega
  apart := h.apart
  few := by
    have hle := separators_le ((start_suffix rest).trans hrest)
    have hfew := h.few
    omega

/-- A failure, and the failures behind the place where reading goes on. -/
theorem Ordered.cons {cause : ParseCause} (hfailed : Left all last failed)
    (hsuffix : failed <:+ start tokens) (hstart : headKind (start tokens) ≠ .endOfInput)
    (h : Ordered all (recover failed) errors) :
    Ordered all tokens (⟨cause, all.length - failed.length⟩ :: errors) := by
  have hlater := h.of_suffix ((recover_suffix failed).trans hsuffix) hstart
  have hlength := hfailed.suffix.length_le
  refine ⟨fun _ => hstart, ?_, ?_, ?_⟩
  · refine List.forall_mem_cons.2 ⟨?_, hlater.within⟩
    have hle := hsuffix.length_le
    have hpos := List.length_pos_iff.2 hfailed.ne_nil
    dsimp only
    omega
  · refine List.pairwise_cons.2 ⟨fun error he => ?_, h.apart⟩
    obtain ⟨token, rest, hsep, hrest, hrecover⟩ :=
      exists_separator_of_recover (h.unread (List.ne_nil_of_mem he))
    -- later failures lie behind all separators at which reading goes on, so behind the first one
    have hwithin := h.within error he
    rw [hrecover] at hwithin
    have hle := hrest.length_le
    have hle' := (start_suffix rest).length_le
    rw [List.length_cons] at hle
    refine ⟨all.length - (token :: rest).length, token, ?_, ?_,
      getElem?_of_suffix (hrest.trans hfailed.suffix), hsep⟩
    · dsimp only [List.length_cons]
      omega
    · rw [List.length_cons]
      omega
  · cases errors with
    | nil => exact Nat.le_add_right 1 _
    | cons error errors =>
      -- the separator between this failure and the next makes room for one more
      obtain ⟨token, rest, hsep, hrest, hrecover⟩ := exists_separator_of_recover (h.unread nofun)
      have hfew := h.few
      rw [hrecover] at hfew
      have hle := separators_le (hrest.trans hsuffix)
      have hle' := separators_le (start_suffix rest)
      rw [separators_cons hsep] at hle
      rw [List.length_cons]
      omega

/-- By induction on the reading of the tokens that are left. -/
theorem exists_failures (hlast : last.kind = .endOfInput) (hleft : Left all last tokens)
    (reading : Reading) :
    ∃ more, (readFrom all.length reading tokens).errors.toList = reading.errors.toList ++ more ∧
      Ordered all tokens more := by
  generalize htotal : all.length = total
  fun_induction readFrom total reading tokens with
  | case1 reading tokens start hstart => exact ⟨[], by simp, ordered_nil all tokens⟩
  | case2 reading tokens start hstart first rest hfirst hlt ih =>
    have hstart' := hleft.start hlast
    have hrest := hstart'.of_topLevel hlast hfirst
    obtain ⟨more, herrors, hmore⟩ := ih (hstart'.trans hrest)
    exact ⟨more, herrors, hmore.of_suffix hrest.suffix hstart⟩
  | case3 reading tokens start hstart first rest hfirst hnlt =>
    exact ⟨[], by simp, ordered_nil all tokens⟩
  | case4 reading tokens start hstart cause failed hfail error reading' rest hlt ih =>
    subst htotal
    have hstart' := hleft.start hlast
    have hfailed := hstart'.of_failure hlast hfail
    obtain ⟨more, herrors, hmore⟩ := ih ((hstart'.trans hfailed).recover hlast)
    exact ⟨error :: more, by simp [herrors, reading'],
      hmore.cons (hstart'.trans hfailed) hfailed.suffix hstart⟩
  | case5 reading tokens start hstart cause failed hfail error reading' rest hnlt =>
    subst htotal
    have hstart' := hleft.start hlast
    have hfailed := hstart'.of_failure hlast hfail
    exact ⟨[error], by simp [reading'],
      (ordered_nil all (recover failed)).cons (hstart'.trans hfailed) hfailed.suffix hstart⟩

end Parser

/-! ### Sources -/

/-- The line that a failure is reported at. -/
def ParseError.line (source : String) (tokens : List Token) (error : ParseError) : Nat :=
  Text.lineAt source ((error.offset? tokens).getD 0)

namespace Program

variable {source : String} {tokens : List Token} {errors : List ParseError}

theorem ordered_of_ofTokens (hscan : Token.scan source = .ok tokens)
    (h : ofTokens tokens = .error errors) : errors ≠ [] ∧ Parser.Ordered tokens tokens errors := by
  obtain ⟨more, last, htokens, hlast, -⟩ := Token.scanned_of_scan hscan
  have hleft : Parser.Left tokens last tokens :=
    ⟨List.suffix_refl tokens, htokens ▸ List.suffix_append more [last]⟩
  obtain ⟨failures, hfailures, hordered⟩ := Parser.exists_failures hlast hleft ⟨#[], #[]⟩
  simp only [ofTokens] at h
  split at h
  · cases h
  · next hne =>
    cases h
    simp only [List.nil_append] at hfailures
    rw [hfailures]
    refine ⟨?_, hordered⟩
    rintro rfl
    simp_all

/-- A failure is reported where its token starts. -/
theorem exists_token (source : String) (hordered : Parser.Ordered tokens tokens errors)
    {error : ParseError} (he : error ∈ errors) :
    ∃ token, tokens[error.index]? = some token ∧ error.offset? tokens = some token.start ∧
      error.line source tokens = Text.lineAt source token.start := by
  have hlt := (hordered.within error he).2
  have hget := List.getElem?_eq_getElem hlt
  have hoffset : error.offset? tokens = some tokens[error.index].start := by
    rw [ParseError.offset?, hget]
  exact ⟨tokens[error.index], hget, hoffset, by rw [ParseError.line, hoffset]; rfl⟩

theorem ofParseError_eq (file source : String) (hordered : Parser.Ordered tokens tokens errors)
    {error : ParseError} (he : error ∈ errors) :
    Diagnostic.ofParseError file source tokens error =
      .syntactic error.cause.message (some ⟨file, error.line source tokens⟩) := by
  obtain ⟨token, -, hoffset, hline⟩ := exists_token source hordered he
  rw [Diagnostic.ofParseError, hoffset, hline]
  rfl

theorem lineAt?_offset? (hlaid : Token.Laid 0 source.toList tokens)
    (hordered : Parser.Ordered tokens tokens errors) {error : ParseError} (he : error ∈ errors) :
    (error.offset? tokens).bind (Text.lineAt? source) = some (error.line source tokens) := by
  obtain ⟨token, htoken, hoffset, hline⟩ := exists_token source hordered he
  rw [hoffset, hline]
  exact (hlaid.starts token (List.mem_of_getElem? htoken)).lineAt?

theorem line_le_of_index_lt (hlaid : Token.Laid 0 source.toList tokens)
    (hordered : Parser.Ordered tokens tokens errors) {a b : ParseError} (ha : a ∈ errors)
    (hb : b ∈ errors) (h : a.index < b.index) :
    a.line source tokens ≤ b.line source tokens := by
  obtain ⟨first, hfirst, -, hline⟩ := exists_token source hordered ha
  obtain ⟨second, hsecond, -, hline'⟩ := exists_token source hordered hb
  obtain ⟨hlt, rfl⟩ := List.getElem?_eq_some_iff.1 hfirst
  obtain ⟨hlt', rfl⟩ := List.getElem?_eq_some_iff.1 hsecond
  rw [hline, hline']
  exact Text.lineFrom_mono 1 _ (List.pairwise_iff_getElem.1 hlaid.ordered _ _ hlt hlt' h)

/-- A text that is no program has a place that is no token, or tokens that are not read. -/
theorem parse_error_cases {file : String} {diagnostics : List Diagnostic}
    (h : Program.parse file source = .error diagnostics) :
    (∃ error, Token.scan source = .error error ∧
      diagnostics = [.ofLexError file source error]) ∨
    (∃ tokens errors, Token.scan source = .ok tokens ∧ ofTokens tokens = .error errors ∧
      diagnostics = errors.map (.ofParseError file source tokens)) := by
  unfold Program.parse at h
  split at h
  · next tokens hscan =>
    cases herrors : ofTokens tokens with
    | ok program =>
      rw [parseTokens, herrors] at h
      cases h
    | error errors =>
      rw [parseTokens, herrors] at h
      cases h
      exact .inr ⟨tokens, errors, hscan, herrors, rfl⟩
  · next error hscan =>
    cases h
    exact .inl ⟨error, hscan, rfl⟩

end Program

/-- Every place at which the scanner fails and every place at which a token starts or stops lies
between two characters of the source, so that a line can be found for it. If the source is no
program, then there is either one diagnostic for a place that is no token, or there are diagnostics
for statements that cannot be read. All have lines of the source. Those of the second kind are about
tokens further and further on, on lines that do not decrease, and between any two of them stands a
separator, so that there is at most one more of them than there are separators. -/
theorem Program.parse_reports_in_order (file source : String) :
    let lines := 1 + source.toList.count '\n'
    (∀ error, Token.scan source = .error error →
      (String.Pos.Raw.mk error.offset).IsValid source) ∧
    (∀ tokens, Token.scan source = .ok tokens → ∀ token ∈ tokens,
      (String.Pos.Raw.mk token.start).IsValid source ∧
        (String.Pos.Raw.mk token.stop).IsValid source) ∧
    (∀ diagnostics, Program.parse file source = .error diagnostics →
      (∃ error line, Token.scan source = .error error ∧
        Text.lineAt? source error.offset = some line ∧ 1 ≤ line ∧ line ≤ lines ∧
        diagnostics = [.lexical error.message (some ⟨file, line⟩)]) ∨
      (∃ tokens errors, Token.scan source = .ok tokens ∧ ofTokens tokens = .error errors ∧
        errors ≠ [] ∧
        diagnostics = errors.map (fun error =>
          .syntactic error.cause.message (some ⟨file, error.line source tokens⟩)) ∧
        (∀ error ∈ errors, error.index < tokens.length ∧
          (error.offset? tokens).bind (Text.lineAt? source) = some (error.line source tokens) ∧
          1 ≤ error.line source tokens ∧ error.line source tokens ≤ lines) ∧
        errors.Pairwise (fun a b => a.index < b.index ∧
          a.line source tokens ≤ b.line source tokens ∧
          ∃ j token, a.index ≤ j ∧ j < b.index ∧ tokens[j]? = some token ∧
            token.kind.isSeparator = true) ∧
        errors.length ≤ 1 + tokens.countP (·.kind.isSeparator))) := by
  intro lines
  refine ⟨?_, ?_, ?_⟩
  · intro error herror
    exact (Token.between_of_scan herror).isValid
  · intro tokens hscan token htoken
    have hlaid := Token.laid_of_scan hscan
    exact ⟨(hlaid.starts token htoken).isValid, (hlaid.stops token htoken).isValid⟩
  · intro diagnostics hparse
    rcases parse_error_cases hparse with ⟨error, hscan, rfl⟩ | ⟨tokens, errors, hscan, herrors, rfl⟩
    · exact .inl ⟨error, Text.lineAt source error.offset, hscan,
        (Token.between_of_scan hscan).lineAt?, Text.le_lineFrom 1 _ _, Text.lineFrom_le 1 _ _, rfl⟩
    · have hlaid := Token.laid_of_scan hscan
      obtain ⟨hne, hordered⟩ := ordered_of_ofTokens hscan herrors
      refine .inr ⟨tokens, errors, hscan, herrors, hne, ?_, ?_, ?_, ?_⟩
      · exact List.map_congr_left fun error he => ofParseError_eq file source hordered he
      · intro error he
        exact ⟨(hordered.within error he).2, lineAt?_offset? hlaid hordered he,
          Text.le_lineFrom 1 _ _, Text.lineFrom_le 1 _ _⟩
      · refine hordered.apart.imp_of_mem fun ha hb hapart => ?_
        obtain ⟨j, token, hle, hlt, htoken⟩ := hapart
        have hindex := Nat.lt_of_le_of_lt hle hlt
        exact ⟨hindex, line_le_of_index_lt hlaid hordered ha hb hindex, j, token, hle, hlt, htoken⟩
      · have hle := Parser.separators_le (Parser.start_suffix tokens)
        exact Nat.le_trans hordered.few (Nat.add_le_add_left hle 1)

/-- Two statements that cannot be read, the first one behind a character of two bytes. -/
theorem Program.parse_reports_in_order_twice :
    let source := "\"é\" 1\n)"
    Program.parse "f" source = .error [
        .syntactic (ParseCause.expectedEnd (.int 1)).message (some ⟨"f", 1⟩),
        .syntactic (ParseCause.expectedExpression (.symbol .closeParen)).message
          (some ⟨"f", 2⟩)] ∧
      ∃ tokens errors, Token.scan source = .ok tokens ∧ ofTokens tokens = .error errors ∧
        errors.length = 2 ∧ errors.Pairwise (fun a b => ∃ j token, a.index ≤ j ∧ j < b.index ∧
          tokens[j]? = some token ∧ token.kind.isSeparator = true) := by
  intro source
  have hparse : Program.parse "f" source = .error [
      .syntactic (ParseCause.expectedEnd (.int 1)).message (some ⟨"f", 1⟩),
      .syntactic (ParseCause.expectedExpression (.symbol .closeParen)).message
        (some ⟨"f", 2⟩)] := by
    decide +kernel
  refine ⟨hparse, ?_⟩
  rcases (Program.parse_reports_in_order "f" source).2.2 _ hparse with
    ⟨_, _, _, _, _, _, hlexical⟩ | ⟨tokens, errors, hscan, herrors, _, hmap, _, hpairwise, _⟩
  · simp at hlexical
  · refine ⟨tokens, errors, hscan, herrors, ?_, hpairwise.imp fun h => h.2.2⟩
    simpa using (congrArg List.length hmap).symm

end Tang
