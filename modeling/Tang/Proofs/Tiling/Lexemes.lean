import Tang.Proofs.Joined.Scanning

/-! Lexemes and the gaps between them. A piece of a text is either passed over, and then it is a run
of blanks or a comment, or it is a lexeme: by itself it is the same token, and the character behind
it cannot make it longer. -/

namespace Tang.Token

/-! ### Gaps -/

/-- The characters are blanks and comments in front of `rest`. A comment goes up to the end of its
line. -/
inductive Gap : List Char → List Char → Prop where
  | nil (rest : List Char) : Gap [] rest
  | blank {c : Char} {cs rest : List Char} :
    Text.isBlank c = true → c ≠ '\n' → Gap cs rest → Gap (c :: cs) rest
  | comment {body cs rest : List Char} :
    '\n' ∉ body → (∀ d ∈ (cs ++ rest).head?, d = '\n') → Gap cs rest →
      Gap ('/' :: '/' :: (body ++ cs)) rest

namespace Gap

variable {cs ds rest : List Char}

theorem append (h : Gap cs (ds ++ rest)) (h' : Gap ds rest) : Gap (cs ++ ds) rest := by
  generalize hrest : ds ++ rest = rest' at h
  induction h with
  | nil => exact h'
  | blank hblank hline _ ih => exact .blank hblank hline (ih hrest)
  | comment hbody hend _ ih =>
    subst hrest
    rw [← List.append_assoc] at hend
    rw [List.cons_append, List.cons_append, List.append_assoc]
    exact .comment hbody hend (ih rfl)

theorem newline_not_mem (h : Gap cs rest) : '\n' ∉ cs := by
  induction h with
  | nil => exact List.not_mem_nil
  | blank _ hline _ ih => simp [Ne.symm hline, ih]
  | comment hbody _ _ ih => simp [hbody, ih]

theorem of_blanks (h : ∀ c ∈ cs, Text.isBlank c = true ∧ c ≠ '\n') (rest : List Char) :
    Gap cs rest := by
  induction cs with
  | nil => exact .nil rest
  | cons c cs ih =>
    rw [List.forall_mem_cons] at h
    exact .blank h.1.1 h.1.2 (ih h.2)

end Gap

theorem head?_dropWhile {q : Char → Bool} {cs : List Char} :
    ∀ d ∈ (cs.dropWhile q).head?, q d = false := by
  intro d hd
  have hnot := List.head?_dropWhile_not q cs
  rw [Option.mem_def.1 hd] at hnot
  simpa using hnot

theorem Gap.of_comment (cs : List Char) :
    Gap ('/' :: '/' :: cs.takeWhile (· != '\n')) (cs.dropWhile (· != '\n')) := by
  have hbody : '\n' ∉ cs.takeWhile (· != '\n') := fun hmem => by
    simpa using List.all_eq_true.1 List.all_takeWhile _ hmem
  have hend : ∀ d ∈ (cs.dropWhile (· != '\n')).head?, d = '\n' := fun d hd => by
    simpa using head?_dropWhile d hd
  have hgap := @Gap.comment _ [] _ hbody hend (.nil _)
  rwa [List.append_nil] at hgap

/-! ### Symbols -/

/-- The character right behind the token would make it longer. -/
def Kind.Extends (c : Char) : Kind → Prop
  | .name _ | .keyword _ => isNameChar c = true
  | .int _ => c.isDigit = true
  | .symbol .colon | .symbol .assign | .symbol .bang | .symbol .less | .symbol .greater => c = '='
  | .symbol .slash => c = '/'
  | _ => False

theorem extends_ofWord {word : String} {c : Char} :
    (Kind.ofWord word).Extends c ↔ isNameChar c = true := by
  unfold Kind.ofWord
  split <;> rfl

/-- Two slashes begin a comment, and all other symbols that grow become other symbols. -/
theorem extends_symbol {sign : Symbol} {c : Char} (h : (Kind.symbol sign).Extends c) :
    sign = .slash ∧ c = '/' ∨ ∃ longer : Symbol, longer.chars = sign.chars ++ [c] := by
  cases sign with
  | slash => exact .inl ⟨rfl, h⟩
  | colon => obtain rfl := h; exact .inr ⟨.declare, rfl⟩
  | assign => obtain rfl := h; exact .inr ⟨.equal, rfl⟩
  | bang => obtain rfl := h; exact .inr ⟨.notEqual, rfl⟩
  | less => obtain rfl := h; exact .inr ⟨.lessEqual, rfl⟩
  | greater => obtain rfl := h; exact .inr ⟨.greaterEqual, rfl⟩
  | _ => exact h.elim

theorem length_chars_le (sign : Symbol) : sign.chars.length ≤ 2 := by
  cases sign <;> decide

theorem newline_not_mem_chars (sign : Symbol) : '\n' ∉ sign.chars := by
  cases sign <;> decide

/-- A symbol is taken as long as it can be. -/
theorem longest_of_symbol? {c : Char} {cs : List Char} {p : Piece} (h : symbol? c cs = some p)
    (hcomment : ¬ (c = '/' ∧ cs.head? = some '/')) :
    ∃ sign : Symbol, p.kind? = some (.symbol sign) ∧ p.taken = sign.chars ∧
      ∀ d ∈ p.rest.head?, ¬ (Kind.symbol sign).Extends d := by
  have hsingle
      (h : (Symbol.ofChars? [c]).map (fun s => Piece.mk (some (.symbol s)) [c] cs) = some p)
      (htwo : ∀ d ∈ cs.head?, Symbol.ofChars? [c, d] = none) :
      ∃ sign : Symbol, p.kind? = some (.symbol sign) ∧ p.taken = sign.chars ∧
        ∀ d ∈ p.rest.head?, ¬ (Kind.symbol sign).Extends d := by
    obtain ⟨sign, hsign, rfl⟩ := Option.map_eq_some_iff.1 h
    have hchars := chars_of_ofChars? hsign
    refine ⟨sign, rfl, hchars.symm, fun d hd hextends => ?_⟩
    rcases extends_symbol hextends with ⟨rfl, rfl⟩ | ⟨longer, hlonger⟩
    · obtain rfl : '/' = c := by simpa [Symbol.chars] using hchars
      exact hcomment ⟨rfl, hd⟩
    · have hfound := Symbol.ofChars?_chars longer
      rw [hlonger, hchars] at hfound
      exact Option.some_ne_none longer (hfound.symm.trans (htwo d hd))
  unfold symbol? at h
  split at h
  · exact hsingle h (by simp)
  · next d rest =>
    split at h
    · next sign hsign =>
      obtain rfl := Option.some.inj h
      have hchars := chars_of_ofChars? hsign
      refine ⟨sign, rfl, hchars.symm, fun e _ hextends => ?_⟩
      rcases extends_symbol hextends with ⟨rfl, rfl⟩ | ⟨longer, hlonger⟩
      · simp [Symbol.chars] at hchars
      · have hlength := length_chars_le longer
        rw [hlonger, hchars] at hlength
        simp at hlength
    · next hnone => exact hsingle h fun e he => by obtain rfl := Option.some.inj he; exact hnone

/-! ### String literals -/

/-- The characters of a literal are read alike without those behind its closing mark. -/
theorem literal_taken {start offset : Nat} {cs : List Char} {l : Literal}
    (h : literal start offset cs = .ok l) (start' offset' : Nat) :
    literal start' offset' l.taken = .ok ⟨l.text, l.taken, []⟩ := by
  fun_induction literal start offset cs generalizing l offset' with
  | case1 => cases h
  | case2 => cases h
  | case3 offset e cs c he ih =>
    obtain ⟨m, hm, rfl⟩ := ok_of_map_eq_ok h
    simp only [Literal.cons, List.cons_append, List.nil_append]
    rw [literal, he]
    simp only
    rw [ih hm]
    rfl
  | case4 => cases h
  | case5 =>
    cases h
    exact literal_quote _ _ _
  | case6 offset c cs hone hmore hquote ih =>
    obtain ⟨m, hm, rfl⟩ := ok_of_map_eq_ok h
    simp only [Literal.cons, List.singleton_append]
    rw [literal_plain _ _ _ (ne_backslash hone hmore) hquote, ih hm]
    rfl

/-! ### Lexemes -/

/-- The characters are a token of the kind: alone they are that token, and in front of `rest` they
are not too few. Only line ends and string literals reach over the end of a line. -/
structure Lexeme (kind : Kind) (taken rest : List Char) : Prop where
  alone : ∃ c cs, taken = c :: cs ∧ piece 0 c cs = .ok ⟨some kind, taken, []⟩
  longest : ∀ d ∈ rest.head?, ¬ kind.Extends d
  newline : '\n' ∈ taken → kind = .newline ∨ ∃ text, kind = .str text

namespace Lexeme

variable {kind : Kind} {taken rest : List Char}

theorem ne_nil (h : Lexeme kind taken rest) : taken ≠ [] := by
  obtain ⟨c, cs, rfl, -⟩ := h.alone
  exact List.cons_ne_nil c cs

theorem ne_endOfInput (h : Lexeme kind taken rest) : kind ≠ .endOfInput := by
  rintro rfl
  obtain ⟨c, cs, -, hpiece⟩ := h.alone
  exact scanned_of_piece hpiece rfl

theorem width_pos (h : Lexeme kind taken rest) : 0 < Text.width taken := by
  obtain ⟨c, cs, rfl, -⟩ := h.alone
  exact Nat.add_pos_left c.utf8Size_pos _

/-- Scanned by itself, a lexeme gives its token and the end of the input. -/
theorem scan_ofList (h : Lexeme kind taken rest) :
    scan (String.ofList taken) = .ok [⟨kind, 0, Text.width taken⟩,
      ⟨.endOfInput, Text.width taken, Text.width taken⟩] := by
  obtain ⟨c, cs, htaken, hpiece⟩ := h.alone
  rw [scan, String.toList_ofList, htaken, scanFrom_of_token hpiece, ← htaken, scanFrom,
    Nat.zero_add]
  rfl

theorem word {c : Char} (hc : isNameStart c = true) (cs : List Char) :
    Lexeme (.ofWord (String.ofList (c :: cs.takeWhile isNameChar))) (c :: cs.takeWhile isNameChar)
      (cs.dropWhile isNameChar) where
  alone := by
    have hcs : ∀ d ∈ cs.takeWhile isNameChar, isNameChar d = true :=
      fun d hd => List.all_eq_true.1 List.all_takeWhile d hd
    exact (spells_word hc hcs).alone
  longest d hd hextends := by
    rw [extends_ofWord, head?_dropWhile d hd] at hextends
    cases hextends
  newline hmem := by
    exfalso
    rcases List.mem_cons.1 hmem with rfl | hmem
    · exact absurd hc (by decide)
    · exact absurd (List.all_eq_true.1 List.all_takeWhile _ hmem) (by decide)

theorem digits {c : Char} (hc : c.isDigit = true) (cs : List Char) {n : Int64}
    (hn : integer? (c :: cs.takeWhile Char.isDigit) = some n) :
    Lexeme (.int n) (c :: cs.takeWhile Char.isDigit) (cs.dropWhile Char.isDigit) where
  alone := by
    have hcs : ∀ d ∈ c :: cs.takeWhile Char.isDigit, d.isDigit = true :=
      List.forall_mem_cons.2 ⟨hc, fun d hd => List.all_eq_true.1 List.all_takeWhile d hd⟩
    exact (spells_digits hcs (List.cons_ne_nil _ _) hn).alone
  longest d hd hextends := Bool.false_ne_true ((head?_dropWhile d hd).symm.trans hextends)
  newline hmem := by
    exfalso
    rcases List.mem_cons.1 hmem with rfl | hmem
    · exact absurd hc (by decide)
    · exact absurd (List.all_eq_true.1 List.all_takeWhile _ hmem) (by decide)

theorem lineEnd (cs : List Char) : Lexeme .newline ['\n'] cs :=
  ⟨spells_newline.alone, fun _ _ => id, fun _ => .inl rfl⟩

theorem string {start offset : Nat} {cs : List Char} {l : Literal}
    (h : literal start offset cs = .ok l) :
    Lexeme (.str (String.ofList l.text)) ('"' :: l.taken) l.rest where
  alone := by
    refine ⟨'"', l.taken, rfl, ?_⟩
    rw [piece_quote, literal_taken h]
    rfl
  longest _ _ := id
  newline _ := .inr ⟨_, rfl⟩

theorem symbol {c : Char} {cs : List Char} {p : Piece} (h : symbol? c cs = some p)
    (hcomment : ¬ (c = '/' ∧ cs.head? = some '/')) :
    ∃ sign, p.kind? = some (.symbol sign) ∧ Lexeme (.symbol sign) p.taken p.rest := by
  obtain ⟨sign, hsign, htaken, hlongest⟩ := longest_of_symbol? h hcomment
  refine ⟨sign, hsign, ?_⟩
  rw [htaken]
  exact ⟨(spells_symbol sign).alone, hlongest,
    fun hmem => absurd hmem (newline_not_mem_chars sign)⟩

end Lexeme

/-! ### Pieces -/

/-- The piece is a lexeme if it has a meaning, and else fills a gap. -/
def Classified (p : Piece) : Prop :=
  (∀ kind, p.kind? = some kind → Lexeme kind p.taken p.rest) ∧
    (p.kind? = none → Gap p.taken p.rest)

theorem Lexeme.classified {p : Piece} {kind : Kind} (h : Lexeme kind p.taken p.rest)
    (hkind : p.kind? = some kind) : Classified p := by
  constructor
  · intro kind' hkind'
    obtain rfl := Option.some.inj (hkind.symm.trans hkind')
    exact h
  · exact fun hnone => absurd (hkind.symm.trans hnone) (Option.some_ne_none kind)

theorem Gap.classified {p : Piece} (h : Gap p.taken p.rest) (hkind : p.kind? = none) :
    Classified p :=
  ⟨fun kind hkind' => absurd (hkind'.symm.trans hkind) (Option.some_ne_none kind), fun _ => h⟩

theorem classified_of_piece {offset : Nat} {c : Char} {cs : List Char} {p : Piece}
    (h : piece offset c cs = .ok p) : Classified p := by
  unfold piece at h
  split at h
  · cases h
    exact (Lexeme.lineEnd cs).classified rfl
  split at h
  · next hline hblank =>
    cases h
    refine (Gap.of_blanks (List.forall_mem_cons.2 ⟨⟨hblank, hline⟩, ?_⟩) _).classified rfl
    intro d hd
    simpa using List.all_eq_true.1 List.all_takeWhile d hd
  split at h
  · next hname =>
    cases h
    exact (Lexeme.word hname cs).classified rfl
  split at h
  · next hdigit =>
    unfold number at h
    split at h
    · next n hn =>
      cases h
      exact (Lexeme.digits hdigit cs hn).classified rfl
    · cases h
  split at h
  · cases hl : literal offset (offset + 1) cs with
    | error e =>
      rw [hl] at h
      cases h
    | ok l =>
      rw [hl] at h
      cases h
      exact (Lexeme.string hl).classified rfl
  split at h
  · next hcomment =>
    cases h
    obtain ⟨rfl, hslash⟩ := hcomment
    obtain ⟨ds, rfl⟩ := List.head?_eq_some_iff.1 hslash
    exact (Gap.of_comment ds).classified rfl
  · next hcomment =>
    split at h
    · next hs =>
      cases h
      obtain ⟨sign, hsign, hlexeme⟩ := Lexeme.symbol hs hcomment
      exact hlexeme.classified hsign
    · cases h

end Tang.Token
