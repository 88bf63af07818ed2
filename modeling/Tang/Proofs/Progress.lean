import Tang.Proofs.Diagnostics
import Tang.Proofs.Progress.Loops

/-! Reading ends at the first end of the input, whatever tokens there are. No parser goes past it or
past the end of the list, each round of the loop over statements uses up a token before it, and what
stands behind it makes no difference. -/

namespace Tang

namespace Parser

variable {α : Type} {all tokens left : List Token} {total n : Nat}

/-! ### Places -/

/-- The second list is what is left of the first one when some tokens have been read, among which is
no end of the input. -/
def Remains (all left : List Token) : Prop :=
  ∃ read, all = read ++ left ∧ ∀ token ∈ read, token.kind ≠ .endOfInput

theorem Remains.refl (tokens : List Token) : Remains tokens tokens :=
  ⟨[], rfl, nofun⟩

theorem Remains.trans (h : Remains all tokens) (h' : Remains tokens left) : Remains all left := by
  obtain ⟨read, rfl, hread⟩ := h
  obtain ⟨read', rfl, hread'⟩ := h'
  refine ⟨read ++ read', (List.append_assoc _ _ _).symm, fun token ht => ?_⟩
  exact (List.mem_append.1 ht).elim (hread token) (hread' token)

theorem lockstep_remains (all : List Token) : Lockstep fun s t => s = t ∧ Remains all s where
  head h := by rw [h.1]
  tail {s t} h hkind := by
    obtain ⟨rfl, hall⟩ := h
    cases s with
    | nil => exact absurd rfl hkind
    | cons token s => exact ⟨rfl, hall.trans ⟨[token], rfl, by simpa [headKind] using hkind⟩⟩
  shorter h h' := by rw [h.1, h'.1]

/-- Whether it succeeds or fails, the parser stops at the first end of the input at the latest. -/
def Stays (p : Parser α) : Prop :=
  ∀ tokens, match p tokens with
    | .ok _ left => Remains tokens left
    | .error _ left => Remains tokens left

theorem Stays.of_tracks {p : Parser α}
    (h : ∀ {R : List Token → List Token → Prop}, Lockstep R → Tracks R p p) : Stays p := by
  intro tokens
  have hagree := h (lockstep_remains tokens) ⟨rfl, .refl tokens⟩
  cases hp : p tokens with
  | ok a left => exact (hp ▸ hagree).2.2
  | error cause left => exact (hp ▸ hagree).2.2

theorem Stays.remains_of_ok {p : Parser α} (h : Stays p) {a : α} (hp : p tokens = .ok a left) :
    Remains tokens left := by
  have hstays := h tokens
  rwa [hp] at hstays

theorem Stays.remains_of_error {p : Parser α} (h : Stays p) {cause : ParseCause}
    (hp : p tokens = .error cause left) : Remains tokens left := by
  have hstays := h tokens
  rwa [hp] at hstays

/-- The parsers of statements and their parts, as far as expressions are read with `sub`. -/
structure AllStay (sub : Level → Parser Expr) : Prop where
  statement : Stays (statement sub)
  block : Stays (block sub)
  expression (level : Level) : Stays (sub level)
  operators (level : Level) : Stays (operators sub level)
  operand : Stays (operand sub)
  group : Stays (group sub)
  elements (closing : Symbol) : Stays (elements sub closing)
  pairs : Stays (pairs sub)
  conditional : Stays (conditional sub)
  function : Stays (function sub)
  parameters : Stays parameters
  grown (left : Expr) (suffix : Suffix) : Stays (grown sub left suffix)

theorem allStay_expression (depth : Nat) : AllStay (expression depth) where
  statement := .of_tracks fun hR => tracks_statement hR (tracks_expression hR depth)
  block := .of_tracks fun hR => tracks_block hR (tracks_expression hR depth)
  expression level := .of_tracks fun hR => tracks_expression hR depth level
  operators level := .of_tracks fun hR => tracks_operators hR (tracks_expression hR depth) level
  operand := .of_tracks fun hR => tracks_operand hR (tracks_expression hR depth)
  group := .of_tracks fun hR => tracks_group hR (tracks_expression hR depth)
  elements closing := .of_tracks fun hR => tracks_elements hR (tracks_expression hR depth) closing
  pairs := .of_tracks fun hR => tracks_pairs hR (tracks_expression hR depth)
  conditional := .of_tracks fun hR => tracks_conditional hR (tracks_expression hR depth)
  function := .of_tracks fun hR => tracks_function hR (tracks_expression hR depth)
  parameters := .of_tracks tracks_parameters
  grown left suffix := .of_tracks fun hR => tracks_grown hR (tracks_expression hR depth) left suffix

/-! ### The loop over statements -/

/-- The reading of a program goes on from one moment to another in `n` rounds. In each of them a
statement is read, or fails and is left for the next one. -/
inductive Reaches (total : Nat) : Nat → Reading → List Token → Reading → List Token → Prop
  | refl {reading : Reading} {tokens : List Token} : Reaches total 0 reading tokens reading tokens
  | statement {n : Nat} {reading reading' : Reading} {tokens rest tokens' : List Token}
      {first : Stmt} : headKind (start tokens) ≠ .endOfInput →
    topLevel (start tokens) = .ok first rest →
    Reaches total n { reading with statements := reading.statements.push first } rest reading'
      tokens' →
    Reaches total (n + 1) reading tokens reading' tokens'
  | failure {n : Nat} {reading reading' : Reading} {tokens failed tokens' : List Token}
      {cause : ParseCause} : headKind (start tokens) ≠ .endOfInput →
    topLevel (start tokens) = .error cause failed →
    Reaches total n
      { reading with errors := reading.errors.push ⟨cause, total - failed.length⟩ }
      (recover failed) reading' tokens' →
    Reaches total (n + 1) reading tokens reading' tokens'

variable {reading reading' : Reading} {tokens' : List Token}

theorem Reaches.size_eq (h : Reaches total n reading tokens reading' tokens') :
    reading'.statements.size + reading'.errors.size =
      reading.statements.size + reading.errors.size + n := by
  induction h with
  | refl => rfl
  | statement _ _ _ ih =>
    simp only [ih, Array.size_push]
    omega
  | failure _ _ _ ih =>
    simp only [ih, Array.size_push]
    omega

theorem stays_topLevel : Stays topLevel :=
  .of_tracks tracks_topLevel

theorem remains_start (tokens : List Token) : Remains tokens (start tokens) :=
  ((lockstep_remains tokens).dropWhile (q := Token.Kind.isSeparator) rfl ⟨rfl, .refl tokens⟩).2

theorem remains_recover (tokens : List Token) : Remains tokens (recover tokens) :=
  ((lockstep_remains tokens).recover ⟨rfl, .refl tokens⟩).2

theorem Remains.length_le (h : Remains all left) : left.length ≤ all.length := by
  obtain ⟨read, rfl, -⟩ := h
  simp

/-- Each round reads a token at least, and none that ends the input. -/
theorem Reaches.remains (h : Reaches total n reading tokens reading' tokens') :
    Remains tokens tokens' ∧ tokens'.length + n ≤ tokens.length := by
  induction h with
  | refl => exact ⟨.refl _, Nat.le_refl _⟩
  | @statement n _ _ tokens rest _ first hstart hfirst _ ih =>
    have hrest := stays_topLevel.remains_of_ok hfirst
    have hlt := length_lt_of_topLevel hfirst
    have hle := (remains_start tokens).length_le
    exact ⟨(remains_start tokens).trans (hrest.trans ih.1), by omega⟩
  | @failure n _ _ tokens failed _ cause hstart hfail _ ih =>
    have hfailed := stays_topLevel.remains_of_error hfail
    have hlt := length_recover_lt (isSeparator_dropWhile tokens) hstart hfail
    have hle := (remains_start tokens).length_le
    exact ⟨(remains_start tokens).trans (hfailed.trans ((remains_recover failed).trans ih.1)),
      by rw [← start] at hlt; omega⟩

theorem exists_reaches (total : Nat) (reading : Reading) (tokens : List Token) :
    ∃ n left, Reaches total n reading tokens (readFrom total reading tokens) left ∧
      headKind (start left) = .endOfInput := by
  fun_induction readFrom total reading tokens with
  | case1 reading tokens start hstart => exact ⟨0, tokens, .refl, hstart⟩
  | case2 reading tokens start hstart first rest hfirst hlt ih =>
    obtain ⟨n, left, hreaches, hleft⟩ := ih
    exact ⟨n + 1, left, .statement hstart hfirst hreaches, hleft⟩
  | case3 reading tokens start hstart first rest hfirst hnlt =>
    -- a statement that has been read is not empty
    have hlt := length_lt_of_topLevel hfirst
    have hle := (remains_start tokens).length_le
    exact absurd (Nat.lt_of_lt_of_le hlt hle) hnlt
  | case4 reading tokens start hstart cause failed hfail error reading' rest hlt ih =>
    obtain ⟨n, left, hreaches, hleft⟩ := ih
    exact ⟨n + 1, left, .failure hstart hfail hreaches, hleft⟩
  | case5 reading tokens start hstart cause failed hfail error reading' rest hnlt =>
    have hlt := length_recover_lt (isSeparator_dropWhile tokens) hstart hfail
    have hle := (remains_start tokens).length_le
    exact absurd (Nat.lt_of_lt_of_le hlt hle) hnlt

/-! ### Behind the end of the input -/

/-- Tokens look alike up to the end of the input, whatever stands behind it. -/
theorem lockstep_end {last : Token} (hlast : last.kind = .endOfInput) (post : List Token) :
    Lockstep fun s t => ∃ before, s = before ++ [last] ∧ t = before ++ last :: post where
  head {s t} h := by
    obtain ⟨before, rfl, rfl⟩ := h
    cases before <;> rfl
  tail {s t} h hkind := by
    obtain ⟨before, rfl, rfl⟩ := h
    cases before with
    | nil => exact absurd hlast hkind
    | cons token before => exact ⟨before, rfl, rfl⟩
  shorter h h' := by
    obtain ⟨before, rfl, rfl⟩ := h
    obtain ⟨before', rfl, rfl⟩ := h'
    simp only [List.length_append, List.length_cons, List.length_nil]
    omega

theorem readFrom_end {last : Token} (hlast : last.kind = .endOfInput) (before post : List Token) :
    readFrom (before ++ last :: post).length ⟨#[], #[]⟩ (before ++ last :: post) =
      readFrom (before ++ [last]).length ⟨#[], #[]⟩ (before ++ [last]) := by
  have hplace (s t : List Token) (h : ∃ mid, s = mid ++ [last] ∧ t = mid ++ last :: post) :
      (before ++ last :: post).length - t.length = id ((before ++ [last]).length - s.length) := by
    obtain ⟨mid, rfl, rfl⟩ := h
    simp only [List.length_append, List.length_cons, List.length_nil, id_eq]
    omega
  obtain ⟨statements, errors, hread, hread'⟩ :=
    (lockstep_end hlast post).readFrom id hplace ⟨#[], #[]⟩ ⟨#[], #[]⟩ ⟨before, rfl, rfl⟩
  rw [hread, hread']
  simp

end Parser

namespace Program

variable {last : Token} {before : List Token}

theorem ofTokens_end (hlast : last.kind = .endOfInput) (before post : List Token) :
    ofTokens (before ++ last :: post) = ofTokens (before ++ [last]) := by
  simp only [ofTokens, Parser.readFrom_end hlast]

/-- Every failure is at a token up to the end of the input. -/
theorem index_lt_of_ofTokens (hlast : last.kind = .endOfInput) {errors : List ParseError}
    (h : ofTokens (before ++ [last]) = .error errors) :
    ∀ error ∈ errors, error.index < (before ++ [last]).length := by
  have hleft : Parser.Left (before ++ [last]) last (before ++ [last]) :=
    ⟨List.suffix_refl _, List.suffix_append before [last]⟩
  obtain ⟨failures, hfailures, hordered⟩ := Parser.exists_failures hlast hleft ⟨#[], #[]⟩
  simp only [ofTokens] at h
  split at h
  · cases h
  · cases h
    rw [hfailures]
    exact fun error he => (hordered.within error (by simpa using he)).2

theorem offset?_end {post : List Token} {error : ParseError}
    (h : error.index < (before ++ [last]).length) :
    error.offset? (before ++ last :: post) = error.offset? (before ++ [last]) := by
  have hget : (before ++ last :: post)[error.index]? = (before ++ [last])[error.index]? := by
    rw [List.append_cons, List.getElem?_append_left h]
  simp only [ParseError.offset?, hget, List.getElem?_eq_getElem h]

theorem parseTokens_end (hlast : last.kind = .endOfInput) (file source : String)
    (before post : List Token) :
    parseTokens file source (before ++ last :: post) =
      parseTokens file source (before ++ [last]) := by
  rw [parseTokens, parseTokens, ofTokens_end hlast]
  cases herrors : ofTokens (before ++ [last]) with
  | ok program => rfl
  | error errors =>
    refine congrArg Except.error (List.map_congr_left fun error he => ?_)
    have hlt := index_lt_of_ofTokens hlast herrors error he
    rw [Diagnostic.ofParseError, Diagnostic.ofParseError, offset?_end hlt]

theorem locatable_end (hlast : last.kind = .endOfInput) (source : String)
    (before post : List Token) :
    locatable source (before ++ last :: post) = locatable source (before ++ [last]) := by
  rw [locatable, locatable, ofTokens_end hlast]
  cases herrors : ofTokens (before ++ [last]) with
  | ok program => rfl
  | error errors =>
    rw [Bool.eq_iff_iff, List.all_eq_true, List.all_eq_true]
    refine forall₂_congr fun error he => ?_
    rw [offset?_end (index_lt_of_ofTokens hlast herrors error he)]

/-- Reading a program comes to an end for every list of tokens. The loop over statements goes round
as often as there are statements and failures in the end, each time with a token less before the
first end of the input, and stops there or at the end of the list. At all times the tokens left are
the last ones of the list, and no end of the input lies before them. The parsers of statements and
of all their parts stop at the first end of the input at the latest, and their loops make no more
rounds than there are tokens, and one. What stands behind the first end of the input changes
neither the program nor what is reported and where. -/
theorem parse_stops_at_end (file source : String) :
    (∀ tokens, ∃ n left read ending,
      let reading := Parser.readFrom tokens.length ⟨#[], #[]⟩ tokens
      Parser.Reaches tokens.length n ⟨#[], #[]⟩ tokens reading left ∧
        left.dropWhile (·.kind.isSeparator) = ending ∧
        tokens = read ++ ending ∧ (∀ token ∈ read, token.kind ≠ .endOfInput) ∧
        (ending = [] ∨ ∃ last post, ending = last :: post ∧ last.kind = .endOfInput) ∧
        reading.statements.size + reading.errors.size = n ∧ n ≤ read.length) ∧
    (∀ tokens n reading left, Parser.Reaches tokens.length n ⟨#[], #[]⟩ tokens reading left →
      ∃ read, tokens = read ++ left ∧ n ≤ read.length ∧
        ∀ token ∈ read, token.kind ≠ .endOfInput) ∧
    (∀ depth, Parser.AllStay (Parser.expression depth) ∧
      Parser.AllSettle (Parser.expression depth)) ∧
    (∀ before last post, last.kind = .endOfInput →
      parseTokens file source (before ++ last :: post) =
          parseTokens file source (before ++ [last]) ∧
        locatable source (before ++ last :: post) = locatable source (before ++ [last])) := by
  refine ⟨fun tokens => ?_, fun tokens n reading left h => ?_, fun depth => ?_, ?_⟩
  · obtain ⟨n, left, hreaches, hend⟩ := Parser.exists_reaches tokens.length ⟨#[], #[]⟩ tokens
    obtain ⟨hleft, hlength⟩ := hreaches.remains
    obtain ⟨read, htokens, hread⟩ := hleft.trans (Parser.remains_start left)
    have hle := (Parser.remains_start left).length_le
    refine ⟨n, left, read, Parser.start left, hreaches, rfl, htokens, hread, ?_, ?_, ?_⟩
    · cases hstart : Parser.start left with
      | nil => exact .inl rfl
      | cons last post => exact .inr ⟨last, post, rfl, by rwa [hstart] at hend⟩
    · simpa using hreaches.size_eq
    · have htotal := congrArg List.length htokens
      rw [List.length_append] at htotal
      omega
  · obtain ⟨⟨read, htokens, hread⟩, hlength⟩ := h.remains
    have htotal := congrArg List.length htokens
    rw [List.length_append] at htotal
    exact ⟨read, htokens, by omega, hread⟩
  · exact ⟨Parser.allStay_expression depth, Parser.allSettle_expression depth⟩
  · intro before last post hlast
    exact ⟨parseTokens_end hlast file source before post, locatable_end hlast source before post⟩

/-- A bracket that closes nothing, and a name behind the end of the input. -/
theorem parse_stops_at_end_closeParen :
    let last : Token := ⟨.endOfInput, 1, 1⟩
    let tokens : List Token := [⟨.symbol .closeParen, 0, 1⟩, last, ⟨.name "x", 1, 2⟩, last]
    let cause := ParseCause.expectedExpression (.symbol .closeParen)
    last.kind = .endOfInput ∧
      Parser.Reaches 4 1 ⟨#[], #[]⟩ tokens ⟨#[], #[⟨cause, 0⟩]⟩ (tokens.drop 1) ∧
      (∃ read, tokens = read ++ tokens.drop 1 ∧ 1 ≤ read.length) ∧
      parseTokens "f" ")" tokens = .error [.syntactic cause.message (some ⟨"f", 1⟩)] := by
  intro last tokens cause
  have hfail : Parser.topLevel (Parser.start tokens) = .error cause tokens := rfl
  have hreaches : Parser.Reaches 4 1 ⟨#[], #[]⟩ tokens ⟨#[], #[⟨cause, 0⟩]⟩ (tokens.drop 1) :=
    .failure (by decide) hfail .refl
  obtain ⟨-, hreached, -, hbehind⟩ := parse_stops_at_end "f" ")"
  obtain ⟨read, htokens, hle, -⟩ := hreached tokens 1 _ _ hreaches
  have hparse := (hbehind [⟨.symbol .closeParen, 0, 1⟩] last [⟨.name "x", 1, 2⟩, last] rfl).1
  exact ⟨rfl, hreaches, ⟨read, htokens, hle⟩, hparse.trans (by decide +kernel)⟩

end Program

end Tang
