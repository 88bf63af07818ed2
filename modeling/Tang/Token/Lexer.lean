import Tang.Text.Alphanumeric
import Tang.Text.Blank
import Tang.Text.Line
import Tang.Token

/-! Division of a text into tokens. A text is cut into pieces, each as long as it can be: a token,
a run of blanks or a comment. A piece and what is left make up the text again. -/

namespace Tang

/-- Why a text is not a sequence of tokens. -/
inductive LexCause where
  | unexpected (c : Char)
  | integerTooLarge (digits : String)
  | unsupportedEscape (c : Char)
  | unterminatedEscape
  | unterminatedString
  deriving DecidableEq

structure LexError where
  cause : LexCause
  offset : Nat
  deriving DecidableEq

def LexError.message (error : LexError) : String :=
  match error.cause with
  | .unexpected c => "Unexpected character '" ++ c.toString ++ "' at " ++ toString error.offset
  | .integerTooLarge digits =>
    "Invalid integer literal '" ++ digits ++ "': number too large to fit in target type"
  | .unsupportedEscape c => "Unsupported escape sequence '\\" ++ c.toString ++ "'"
  | .unterminatedEscape => "Unterminated escape sequence in string"
  | .unterminatedString => "Unterminated string literal"

namespace Token

/-! ### Pieces -/

/-- The next piece of a text: the characters taken, what they mean, and what is left. -/
structure Piece where
  kind? : Option Kind
  taken : List Char
  rest : List Char

/-- The next piece when it is the longest run of `p` after its first character `c`. -/
def Piece.run (c : Char) (p : Char → Bool) (cs : List Char) (kind? : List Char → Option Kind) :
    Piece :=
  let taken := c :: cs.takeWhile p
  ⟨kind? taken, taken, cs.dropWhile p⟩

def isNameStart (c : Char) : Bool :=
  c.isAlpha || c == '_'

def isNameChar (c : Char) : Bool :=
  Text.isAlphanumeric c || c == '_'

/-- A word is a keyword or else a name. -/
def Kind.ofWord (word : String) : Kind :=
  match Keyword.ofText? word with
  | some reserved => .keyword reserved
  | none => .name word

/-- The value of a row of decimal digits, if it is an integer of the language. -/
def integer? (digits : List Char) : Option Int64 :=
  Integer.ofInt? (Nat.ofDigitChars 10 digits 0)

/-- The piece whose characters are a row of digits. -/
def number (offset : Nat) (digits rest : List Char) : Except LexError Piece :=
  match integer? digits with
  | some n => .ok ⟨some (.int n), digits, rest⟩
  | none => .error ⟨.integerTooLarge (String.ofList digits), offset⟩

/-- The longest symbol at the start of a text. -/
def symbol? (c : Char) (cs : List Char) : Option Piece :=
  let single := (Symbol.ofChars? [c]).map fun symbol => ⟨some (.symbol symbol), [c], cs⟩
  match cs with
  | [] => single
  | d :: rest =>
    match Symbol.ofChars? [c, d] with
    | some symbol => some ⟨some (.symbol symbol), [c, d], rest⟩
    | none => single

/-- The character that stands behind a backslash for another one. -/
def unescape? : Char → Option Char
  | '"' => some '"'
  | 'n' => some '\n'
  | 't' => some '\t'
  | '\\' => some '\\'
  | 'r' => some '\r'
  | _ => none

/-- The rest of a string literal after its opening mark: its meaning, the characters taken up to
the closing mark, and what is left. -/
structure Literal where
  text : List Char
  taken : List Char
  rest : List Char

def Literal.cons (c : Char) (written : List Char) (literal : Literal) : Literal :=
  ⟨c :: literal.text, written ++ literal.taken, literal.rest⟩

/-- Reads a string literal that began at `start` from byte `offset` on. -/
def literal (start offset : Nat) : List Char → Except LexError Literal
  | [] => .error ⟨.unterminatedString, start⟩
  | ['\\'] => .error ⟨.unterminatedEscape, offset + 1⟩
  | '\\' :: e :: cs =>
    match unescape? e with
    | some c => (literal start (offset + 2) cs).map (Literal.cons c ['\\', e])
    | none => .error ⟨.unsupportedEscape e, offset + 1⟩
  | c :: cs =>
    if c = '"' then .ok ⟨[], ['"'], cs⟩
    else (literal start (offset + c.utf8Size) cs).map (Literal.cons c [c])

/-- The piece at the start of a text that begins with `c` at byte `offset`. -/
def piece (offset : Nat) (c : Char) (cs : List Char) : Except LexError Piece :=
  if c = '\n' then
    .ok ⟨some .newline, ['\n'], cs⟩
  else if Text.isBlank c then
    .ok (.run c (fun d => Text.isBlank d && d != '\n') cs fun _ => none)
  else if isNameStart c then
    .ok (.run c isNameChar cs fun word => some (.ofWord (String.ofList word)))
  else if c.isDigit then
    number offset (c :: cs.takeWhile Char.isDigit) (cs.dropWhile Char.isDigit)
  else if c = '"' then
    (literal offset (offset + 1) cs).map fun l =>
      ⟨some (.str (String.ofList l.text)), '"' :: l.taken, l.rest⟩
  else if c = '/' ∧ cs.head? = some '/' then
    .ok (.run c (· != '\n') cs fun _ => none)
  else
    match symbol? c cs with
    | some piece => .ok piece
    | none => .error ⟨.unexpected c, offset⟩

/-! ### Pieces make up the text -/

theorem ok_of_map_eq_ok {x : Except LexError Literal} {f : Literal → Literal} {l : Literal}
    (h : x.map f = .ok l) : ∃ m, x = .ok m ∧ f m = l := by
  cases x with
  | error e => cases h
  | ok m => exact ⟨m, rfl, Except.ok.inj h⟩

theorem taken_append_rest_of_literal {start offset : Nat} {cs : List Char} {l : Literal}
    (h : literal start offset cs = .ok l) : l.taken ++ l.rest = cs := by
  fun_induction literal start offset cs generalizing l with
  | case1 => cases h
  | case2 => cases h
  | case3 offset e cs c _ ih =>
    obtain ⟨m, hm, rfl⟩ := ok_of_map_eq_ok h
    simp [Literal.cons, ih hm]
  | case4 => cases h
  | case5 => cases h; simp_all
  | case6 offset c cs _ _ _ ih =>
    obtain ⟨m, hm, rfl⟩ := ok_of_map_eq_ok h
    simp [Literal.cons, ih hm]

theorem taken_append_rest_of_number {offset : Nat} {digits rest : List Char} {p : Piece}
    (h : number offset digits rest = .ok p) : p.taken = digits ∧ p.rest = rest := by
  unfold number at h
  split at h
  · cases h; exact ⟨rfl, rfl⟩
  · cases h

theorem taken_append_rest_of_symbol? {c : Char} {cs : List Char} {p : Piece}
    (h : symbol? c cs = some p) : p.taken ++ p.rest = c :: cs ∧ p.taken ≠ [] := by
  have single {o : Option Symbol}
      (h : o.map (fun s => Piece.mk (some (.symbol s)) [c] cs) = some p) :
      p.taken ++ p.rest = c :: cs ∧ p.taken ≠ [] := by
    obtain ⟨s, _, rfl⟩ := Option.map_eq_some_iff.1 h
    simp
  unfold symbol? at h
  split at h
  · exact single h
  · split at h
    · cases h; simp
    · exact single h

/-- A piece takes at least one character, and what it takes and what it leaves is the text. -/
theorem taken_append_rest {offset : Nat} {c : Char} {cs : List Char} {p : Piece}
    (h : piece offset c cs = .ok p) : p.taken ++ p.rest = c :: cs ∧ p.taken ≠ [] := by
  have run (q : Char → Bool) (k : List Char → Option Kind) :
      (Piece.run c q cs k).taken ++ (Piece.run c q cs k).rest = c :: cs ∧
        (Piece.run c q cs k).taken ≠ [] := by
    simp [Piece.run, List.takeWhile_append_dropWhile]
  unfold piece at h
  split at h
  · cases h; simp_all
  split at h
  · cases h; exact run _ _
  split at h
  · cases h; exact run _ _
  split at h
  · obtain ⟨ht, hr⟩ := taken_append_rest_of_number h
    simp [ht, hr, List.takeWhile_append_dropWhile]
  split at h
  · cases hl : literal offset (offset + 1) cs with
    | error e => simp [hl, Except.map] at h
    | ok l =>
      simp only [hl, Except.map, Except.ok.injEq] at h
      subst h
      simp_all [taken_append_rest_of_literal hl]
  split at h
  · cases h; exact run _ _
  split at h
  · cases h; exact taken_append_rest_of_symbol? ‹_›
  · cases h

theorem rest_length_le {offset : Nat} {c : Char} {cs : List Char} {p : Piece}
    (h : piece offset c cs = .ok p) : p.rest.length ≤ cs.length := by
  obtain ⟨happ, hne⟩ := taken_append_rest h
  have hpos := List.length_pos_iff.2 hne
  have hlen := congrArg List.length happ
  rw [List.length_append, List.length_cons] at hlen
  omega

/-! ### The tokens of a text -/

/-- Appends the tokens of a text that starts at byte `offset`. -/
def scanFrom (offset : Nat) (tokens : Array Token) (cs : List Char) :
    Except LexError (Array Token) :=
  match cs with
  | [] => .ok (tokens.push ⟨.endOfInput, offset, offset⟩)
  | c :: cs =>
    match h : piece offset c cs with
    | .error error => .error error
    | .ok p =>
      have := rest_length_le h
      let stop := offset + Text.width p.taken
      match p.kind? with
      | some kind => scanFrom stop (tokens.push ⟨kind, offset, stop⟩) p.rest
      | none => scanFrom stop tokens p.rest
termination_by cs.length
decreasing_by all_goals exact Nat.lt_succ_of_le this

/-- The tokens of a text, the end of the input last. -/
def scan (source : String) : Except LexError (List Token) :=
  (scanFrom 0 #[] source.toList).map Array.toList

end Token

end Tang
