import Tang.Proofs.Written.Readable

/-! The written form of a token is the next piece of every text that does not make it longer. Of the
escape sequences that are written in string literals, only some are read. -/

namespace Tang

/-! ### Characters of string literals -/

namespace Text

/-- The character is written between quotation marks in a way that can be read again: as itself or
as one of five escape sequences. -/
def Legible (c : Char) : Prop :=
  escape c ∈ [[c], ['\\', '"'], ['\\', '\\'], ['\\', 'n'], ['\\', 'r'], ['\\', 't']]

instance : DecidablePred Legible := fun _ => inferInstanceAs (Decidable (_ ∈ _))

end Text

namespace Token

open Text (Legible escape)

/-- The characters that have an escape sequence, with the letter that stands for them. -/
def escapes : List (Char × Char) :=
  [('"', '"'), ('\\', '\\'), ('\n', 'n'), ('\t', 't'), ('\r', 'r')]

/-- The characters can stand between the marks of a string literal for the text. Quotation marks
and backslashes have to be escaped. -/
inductive Quotes : List Char → List Char → Prop where
  | nil : Quotes [] []
  | plain {c : Char} {text cs : List Char} :
    c ≠ '"' → c ≠ '\\' → Quotes text cs → Quotes (c :: text) (c :: cs)
  | escaped {c e : Char} {text cs : List Char} :
    (c, e) ∈ escapes → Quotes text cs → Quotes (c :: text) ('\\' :: e :: cs)

theorem unescape?_of_mem_escapes {c e : Char} (h : (c, e) ∈ escapes) : unescape? e = some c := by
  simp only [escapes, List.mem_cons, Prod.mk.injEq, List.not_mem_nil, or_false] at h
  rcases h with ⟨rfl, rfl⟩ | ⟨rfl, rfl⟩ | ⟨rfl, rfl⟩ | ⟨rfl, rfl⟩ | ⟨rfl, rfl⟩ <;> rfl

theorem literal_plain (start offset : Nat) {c : Char} (cs : List Char) (hslash : c ≠ '\\')
    (hquote : c ≠ '"') : literal start offset (c :: cs) =
      (literal start (offset + c.utf8Size) cs).map (.cons c [c]) := by
  rw [literal, if_neg hquote]
  · exact fun h => absurd h hslash
  · exact fun _ _ h => absurd h hslash

theorem literal_quote (start offset : Nat) (cs : List Char) :
    literal start offset ('"' :: cs) = .ok ⟨[], ['"'], cs⟩ := by
  simp [literal]

/-- A literal is read up to its closing mark as the text that it is written for. -/
theorem Quotes.literal_eq {text cs : List Char} (h : Quotes text cs) (start offset : Nat)
    (rest : List Char) :
    literal start offset (cs ++ '"' :: rest) = .ok ⟨text, cs ++ ['"'], rest⟩ := by
  induction h generalizing offset with
  | nil => exact literal_quote start offset rest
  | plain hquote hslash _ ih =>
    rw [List.cons_append, literal_plain start offset _ hslash hquote, ih]
    rfl
  | escaped he _ ih =>
    rw [List.cons_append, List.cons_append, literal, unescape?_of_mem_escapes he]
    simp only
    rw [ih]
    rfl

/-- Every character is written as itself, as an escape sequence that means it, or as one that
means nothing. -/
theorem escape_cases (c : Char) :
    (Legible c ∧ escape c = [c] ∧ c ≠ '\\' ∧ c ≠ '"') ∨
    (Legible c ∧ ∃ e, escape c = ['\\', e] ∧ (c, e) ∈ escapes) ∨
    (¬ Legible c ∧ ∃ e more, escape c = '\\' :: e :: more ∧ (e = '0' ∨ e = 'u')) := by
  unfold Legible escape
  split
  · exact .inr (.inl ⟨by simp, '"', rfl, by simp [escapes]⟩)
  · exact .inr (.inl ⟨by simp, '\\', rfl, by simp [escapes]⟩)
  · exact .inr (.inl ⟨by simp, 'n', rfl, by simp [escapes]⟩)
  · exact .inr (.inl ⟨by simp, 'r', rfl, by simp [escapes]⟩)
  · exact .inr (.inl ⟨by simp, 't', rfl, by simp [escapes]⟩)
  · exact .inr (.inr ⟨by simp, '0', [], rfl, .inl rfl⟩)
  · next hquote hslash _ _ _ _ =>
    split
    · exact .inl ⟨by simp, rfl, hslash, hquote⟩
    · exact .inr (.inr ⟨by simp, 'u', _, rfl, .inr rfl⟩)

/-- The escaped form of a text stands for it if all its characters are legible. -/
theorem quotes_of_legible {text : List Char} (h : ∀ c ∈ text, Legible c) :
    Quotes text (text.flatMap escape) := by
  induction text with
  | nil => exact .nil
  | cons c text ih =>
    rw [List.forall_mem_cons] at h
    rw [List.flatMap_cons]
    obtain ⟨-, hc, hslash, hquote⟩ | ⟨-, e, hc, he⟩ | ⟨hno, -⟩ := escape_cases c
    · rw [hc]
      exact .plain hquote hslash (ih h.2)
    · rw [hc]
      exact .escaped he (ih h.2)
    · exact absurd h.1 hno

/-- Otherwise the literal cannot be read on at the first character that is not legible. -/
theorem literal_of_not_legible (start : Nat) (rest : List Char) {text : List Char}
    (h : ¬ ∀ c ∈ text, Legible c) (offset : Nat) :
    ∃ e place, (e = '0' ∨ e = 'u') ∧
      literal start offset (text.flatMap escape ++ '"' :: rest) =
        .error ⟨.unsupportedEscape e, place⟩ := by
  induction text generalizing offset with
  | nil => exact absurd nofun h
  | cons c text ih =>
    rw [List.flatMap_cons, List.append_assoc]
    obtain ⟨hyes, hc, hslash, hquote⟩ | ⟨hyes, e, hc, he⟩ | ⟨-, e, more, hc, he⟩ := escape_cases c
    · have hrest : ¬ ∀ d ∈ text, Legible d := fun hrest =>
        h (List.forall_mem_cons.2 ⟨hyes, hrest⟩)
      obtain ⟨e, place, he, herror⟩ := ih hrest (offset + c.utf8Size)
      refine ⟨e, place, he, ?_⟩
      rw [hc, List.singleton_append, literal_plain start offset _ hslash hquote, herror]
      rfl
    · have hrest : ¬ ∀ d ∈ text, Legible d := fun hrest =>
        h (List.forall_mem_cons.2 ⟨hyes, hrest⟩)
      obtain ⟨e', place, he', herror⟩ := ih hrest (offset + 2)
      refine ⟨e', place, he', ?_⟩
      rw [hc, List.cons_append, List.singleton_append, literal, unescape?_of_mem_escapes he]
      simp only
      rw [herror]
      rfl
    · refine ⟨e, offset + 1, he, ?_⟩
      rw [hc, List.cons_append, List.cons_append, literal]
      rcases he with rfl | rfl <;> rfl

end Token

/-! ### Pieces -/

namespace Token

theorem scanFrom_of_token {offset : Nat} {tokens : Array Token} {c : Char} {cs : List Char}
    {kind : Kind} {taken rest : List Char} (h : piece offset c cs = .ok ⟨some kind, taken, rest⟩) :
    scanFrom offset tokens (c :: cs) =
      scanFrom (offset + Text.width taken)
        (tokens.push ⟨kind, offset, offset + Text.width taken⟩) rest := by
  rw [scanFrom]
  split
  · next error he => rw [h] at he; cases he
  · next p hp =>
    rw [h] at hp
    cases hp
    rfl

theorem scanFrom_of_blank {offset : Nat} {tokens : Array Token} {c : Char} {cs : List Char}
    {taken rest : List Char} (h : piece offset c cs = .ok ⟨none, taken, rest⟩) :
    scanFrom offset tokens (c :: cs) = scanFrom (offset + Text.width taken) tokens rest := by
  rw [scanFrom]
  split
  · next error he => rw [h] at he; cases he
  · next p hp =>
    rw [h] at hp
    cases hp
    rfl

theorem scanFrom_of_error {offset : Nat} {tokens : Array Token} {c : Char} {cs : List Char}
    {error : LexError} (h : piece offset c cs = .error error) :
    scanFrom offset tokens (c :: cs) = .error error := by
  rw [scanFrom]
  split
  · next error' he =>
    rw [h] at he
    cases he
    rfl
  · next p hp => rw [h] at hp; cases hp

/-- A character that begins neither a line end, nor blanks, a word, a number or a string. -/
def isPlain (c : Char) : Bool :=
  c != '\n' && !Text.isBlank c && !isNameStart c && !c.isDigit && c != '"'

theorem piece_of_isPlain {offset : Nat} {c : Char} {cs : List Char} {p : Piece}
    (hc : isPlain c = true) (hcs : ¬ (c = '/' ∧ cs.head? = some '/'))
    (hp : symbol? c cs = some p) : piece offset c cs = .ok p := by
  simp only [isPlain, Bool.and_eq_true, bne_iff_ne, Bool.not_eq_true'] at hc
  obtain ⟨⟨⟨⟨hline, hblank⟩, hname⟩, hdigit⟩, hquote⟩ := hc
  simp [piece, hline, hblank, hname, hdigit, hquote, hcs, hp]

/-- The character does not make a longer piece of a symbol that it follows. -/
def SymbolEnds (sign : Symbol) (d : Char) : Prop :=
  Symbol.ofChars? (sign.chars ++ [d]) = none ∧ (sign = .slash → d ≠ '/')

theorem symbol?_of_ends {sign : Symbol} {c : Char} {cs : List Char} (hsign : sign.chars = [c])
    (h : ∀ d ∈ cs.head?, SymbolEnds sign d) :
    symbol? c cs = some ⟨some (.symbol sign), [c], cs⟩ := by
  have hsingle : Symbol.ofChars? [c] = some sign := by rw [← hsign, Symbol.ofChars?_chars]
  cases cs with
  | nil => simp [symbol?, hsingle]
  | cons d cs =>
    have hd := (h d rfl).1
    rw [hsign] at hd
    simp only [List.cons_append, List.nil_append] at hd
    simp [symbol?, hsingle, hd]

theorem symbol?_of_two {sign : Symbol} {c d : Char} (cs : List Char) (hsign : sign.chars = [c, d]) :
    symbol? c (d :: cs) = some ⟨some (.symbol sign), [c, d], cs⟩ := by
  have hboth : Symbol.ofChars? [c, d] = some sign := by rw [← hsign, Symbol.ofChars?_chars]
  simp [symbol?, hboth]

theorem takeWhile_of_ends {q : Char → Bool} {cs rest : List Char} (hcs : ∀ d ∈ cs, q d = true)
    (hrest : ∀ d ∈ rest.head?, q d = false) :
    (cs ++ rest).takeWhile q = cs ∧ (cs ++ rest).dropWhile q = rest := by
  rw [List.takeWhile_append_of_pos hcs, List.dropWhile_append_of_pos hcs]
  cases rest with
  | nil => simp
  | cons d rest => simp [hrest d rfl]

theorem toNat_of_isDigit {c : Char} (h : c.isDigit = true) : 48 ≤ c.toNat ∧ c.toNat ≤ 57 := by
  simpa [Char.isDigit, UInt32.le_iff_toNat_le] using h

theorem toNat_of_isNameStart {c : Char} (h : isNameStart c = true) :
    65 ≤ c.toNat ∧ c.toNat ≤ 122 := by
  rw [isNameStart, Bool.or_eq_true, beq_iff_eq] at h
  rcases h with h | rfl
  · rcases (Bool.or_eq_true c.isUpper c.isLower).mp h with h | h
    · obtain ⟨hlow, hhigh⟩ := of_decide_eq_true h
      have hlow : 65 ≤ c.toNat := UInt32.le_iff_toNat_le.1 hlow
      have hhigh : c.toNat ≤ 90 := UInt32.le_iff_toNat_le.1 hhigh
      omega
    · obtain ⟨hlow, hhigh⟩ := (Bool.and_eq_true _ _).mp h
      have hlow : 97 ≤ c.toNat := UInt32.le_iff_toNat_le.1 (of_decide_eq_true hlow)
      have hhigh : c.toNat ≤ 122 := UInt32.le_iff_toNat_le.1 (of_decide_eq_true hhigh)
      omega
  · decide

theorem not_isBlank {c : Char} (h₁ : 0x21 ≤ c.toNat) (h₂ : c.toNat ≤ 0x7e) :
    Text.isBlank c = false := by
  refine Bool.eq_false_iff.2 fun h => ?_
  obtain ⟨r, hr, hlow, hhigh⟩ := Text.Ranges.has_iff.1 h
  simp only [Text.blankRanges, List.mem_cons, List.not_mem_nil, or_false] at hr
  rcases hr with rfl | rfl | rfl | rfl | rfl | rfl | rfl | rfl | rfl | rfl <;>
    simp at hlow hhigh <;> omega

theorem piece_word {offset : Nat} {c : Char} {cs rest : List Char} (hc : isNameStart c = true)
    (hcs : ∀ d ∈ cs, isNameChar d = true) (hrest : ∀ d ∈ rest.head?, isNameChar d = false) :
    piece offset c (cs ++ rest) =
      .ok ⟨some (.ofWord (String.ofList (c :: cs))), c :: cs, rest⟩ := by
  obtain ⟨hlow, hhigh⟩ := toNat_of_isNameStart hc
  have hline : c ≠ '\n' := by
    rintro rfl
    cases hc
  have hblank : Text.isBlank c = false := not_isBlank (by omega) (by omega)
  obtain ⟨htake, hdrop⟩ := takeWhile_of_ends hcs hrest
  simp [piece, hline, hblank, hc, Piece.run, htake, hdrop]

theorem piece_digits {offset : Nat} {c : Char} {cs rest : List Char} {n : Int64}
    (hc : c.isDigit = true) (hcs : ∀ d ∈ cs, d.isDigit = true)
    (hrest : ∀ d ∈ rest.head?, d.isDigit = false) (hn : integer? (c :: cs) = some n) :
    piece offset c (cs ++ rest) = .ok ⟨some (.int n), c :: cs, rest⟩ := by
  obtain ⟨hlow, hhigh⟩ := toNat_of_isDigit hc
  have hline : c ≠ '\n' := by
    rintro rfl
    cases hc
  have hblank : Text.isBlank c = false := not_isBlank (by omega) (by omega)
  have hname : isNameStart c = false := by
    refine Bool.eq_false_iff.2 fun h => ?_
    have := toNat_of_isNameStart h
    omega
  obtain ⟨htake, hdrop⟩ := takeWhile_of_ends hcs hrest
  simp [piece, hline, hblank, hname, hc, htake, hdrop, number, hn]

theorem piece_quote (offset : Nat) (cs : List Char) :
    piece offset '"' cs = (literal offset (offset + 1) cs).map fun l =>
      ⟨some (.str (String.ofList l.text)), '"' :: l.taken, l.rest⟩ := by
  have hblank : Text.isBlank '"' = false := by decide
  have hname : isNameStart '"' = false := by decide
  simp [piece, hblank, hname]

theorem piece_newline (offset : Nat) (cs : List Char) :
    piece offset '\n' cs = .ok ⟨some .newline, ['\n'], cs⟩ := by
  simp [piece]

/-- Blanks are passed over one by one. -/
theorem scanFrom_blank (offset : Nat) (tokens : Array Token) {c : Char} (cs : List Char)
    (hblank : Text.isBlank c = true) (hline : c ≠ '\n') :
    scanFrom offset tokens (c :: cs) = scanFrom (offset + c.utf8Size) tokens cs := by
  have hpiece (offset : Nat) {c : Char} (cs : List Char) (hblank : Text.isBlank c = true)
      (hline : c ≠ '\n') : piece offset c cs =
        .ok (.run c (fun d => Text.isBlank d && d != '\n') cs fun _ => none) := by
    simp [piece, hblank, hline]
  rw [scanFrom_of_blank (hpiece offset cs hblank hline)]
  cases cs with
  | nil => rfl
  | cons d cs =>
    cases hd : Text.isBlank d && d != '\n' with
    | false => simp [hd]
    | true =>
      -- The blanks that follow are taken at once on both sides.
      obtain ⟨hblank', hline'⟩ : Text.isBlank d = true ∧ d ≠ '\n' := by simpa using hd
      rw [scanFrom_of_blank (hpiece (offset + c.utf8Size) cs hblank' hline')]
      simp [hd, Nat.add_assoc]

/-! ### Spellings -/

/-- The character ends a word or a number that it follows. -/
def EndsWord (d : Char) : Prop := isNameChar d = false

/-- Any character at all. -/
def AnyChar (_ : Char) : Prop := True

theorem chars_of_ofChars? {cs : List Char} {sign : Symbol} (h : Symbol.ofChars? cs = some sign) :
    sign.chars = cs := by
  simpa using List.find?_some h

theorem isBlank_of_isAlphanumeric {d : Char} (h : Text.isAlphanumeric d = true) :
    Text.isBlank d = false := by
  rw [Text.isAlphanumeric] at h
  split at h
  · -- The letters and digits of ASCII lie above its blanks.
    have hbounds : 48 ≤ d.toNat ∧ d.toNat ≤ 122 := by
      rcases (Bool.or_eq_true _ _).mp h with halpha | hdigit
      · have := @toNat_of_isNameStart d (by rw [isNameStart, halpha, Bool.true_or])
        omega
      · have := toNat_of_isDigit hdigit
        omega
    exact not_isBlank (by omega) (by omega)
  · -- No two of the other ranges meet.
    have hapart : (Text.blankRanges.all fun r => Text.alphanumericRanges.all fun s =>
        decide (r.2 < s.1) || decide (s.2 < r.1)) = true := by decide +kernel
    refine Bool.eq_false_iff.2 fun hblank => ?_
    obtain ⟨r, hr, hrlow, hrhigh⟩ := Text.Ranges.has_iff.1 hblank
    obtain ⟨s, hs, hslow, hshigh⟩ := Text.Ranges.has_iff.1 h
    have hrs := List.all_eq_true.1 (List.all_eq_true.1 hapart r hr) s hs
    simp only [Bool.or_eq_true, decide_eq_true_eq] at hrs
    omega

theorem endsWord_of_isBlank {d : Char} (h : Text.isBlank d = true) : EndsWord d := by
  refine Bool.eq_false_iff.2 fun hname => ?_
  rw [isNameChar, Bool.or_eq_true, beq_iff_eq] at hname
  rcases hname with hname | rfl
  · exact Bool.false_ne_true ((isBlank_of_isAlphanumeric hname).symm.trans h)
  · exact absurd h (by decide)

theorem symbolEnds_of_isBlank (sign : Symbol) {d : Char} (h : Text.isBlank d = true) :
    SymbolEnds sign d := by
  have hnot (longer : Symbol) : d ∉ longer.chars := fun hmem => by
    have hplain : (longer.chars.all fun c => !Text.isBlank c) = true := by cases longer <;> rfl
    have hd := List.all_eq_true.1 hplain d hmem
    rw [h] at hd
    cases hd
  constructor
  · refine Option.eq_none_iff_forall_ne_some.2 fun longer hlonger => hnot longer ?_
    rw [chars_of_ofChars? hlonger]
    exact List.mem_append_right _ (List.mem_singleton_self d)
  · rintro - rfl
    exact hnot .slash (List.mem_singleton_self _)

/-- In front of every text whose first character may follow, the characters are a token of the
kind. -/
def Spells (kind : Kind) (taken : List Char) (follow : Char → Prop) : Prop :=
  ∃ c cs, taken = c :: cs ∧ ∀ offset rest, (∀ d ∈ rest.head?, follow d) →
    piece offset c (cs ++ rest) = .ok ⟨some kind, taken, rest⟩

theorem Spells.alone {kind : Kind} {taken : List Char} {follow : Char → Prop}
    (h : Spells kind taken follow) :
    ∃ c cs, taken = c :: cs ∧ piece 0 c cs = .ok ⟨some kind, taken, []⟩ := by
  obtain ⟨c, cs, htaken, hpiece⟩ := h
  refine ⟨c, cs, htaken, ?_⟩
  have halone := hpiece 0 [] nofun
  rwa [List.append_nil] at halone

theorem Spells.mono {kind : Kind} {taken : List Char} {f g : Char → Prop}
    (h : Spells kind taken f) (hfg : ∀ d, g d → f d) : Spells kind taken g := by
  obtain ⟨c, cs, htaken, hpiece⟩ := h
  exact ⟨c, cs, htaken, fun offset rest hrest =>
    hpiece offset rest fun d hd => hfg d (hrest d hd)⟩

theorem Spells.scanFrom_append {kind : Kind} {taken rest : List Char} {follow : Char → Prop}
    (h : Spells kind taken follow) (hrest : ∀ d ∈ rest.head?, follow d) (offset : Nat)
    (tokens : Array Token) :
    scanFrom offset tokens (taken ++ rest) =
      scanFrom (offset + Text.width taken)
        (tokens.push ⟨kind, offset, offset + Text.width taken⟩) rest := by
  obtain ⟨c, cs, rfl, hpiece⟩ := h
  exact scanFrom_of_token (hpiece offset rest hrest)

theorem spells_newline : Spells .newline ['\n'] AnyChar :=
  ⟨'\n', [], rfl, fun offset rest _ => piece_newline offset rest⟩

theorem spells_symbol (sign : Symbol) : Spells (.symbol sign) sign.chars (SymbolEnds sign) := by
  have hone (c : Char) (hsign : sign.chars = [c]) (hc : isPlain c = true)
      (hslash : c = '/' → sign = .slash) : Spells (.symbol sign) sign.chars (SymbolEnds sign) := by
    refine ⟨c, [], hsign, fun offset rest h => ?_⟩
    rw [hsign]
    refine piece_of_isPlain hc (fun ⟨he, hcs⟩ => ?_) (symbol?_of_ends hsign h)
    exact (h '/' hcs).2 (hslash he) rfl
  have htwo (c d : Char) (hsign : sign.chars = [c, d]) (hc : isPlain c = true)
      (hd : d ≠ '/') : Spells (.symbol sign) sign.chars (SymbolEnds sign) := by
    refine ⟨c, [d], hsign, fun offset rest _ => ?_⟩
    rw [hsign]
    exact piece_of_isPlain hc (by simp [hd]) (symbol?_of_two rest hsign)
  cases sign with
  | declare | equal | notEqual | lessEqual | greaterEqual =>
    exact htwo _ _ rfl (by decide) (by decide)
  | _ => exact hone _ rfl (by decide) (by decide)

theorem spells_word {c : Char} {cs : List Char} (hc : isNameStart c = true)
    (hcs : ∀ d ∈ cs, isNameChar d = true) :
    Spells (.ofWord (String.ofList (c :: cs))) (c :: cs) EndsWord :=
  ⟨c, cs, rfl, fun _ _ hrest => piece_word hc hcs hrest⟩

theorem spells_keyword (word : Keyword) : Spells (.keyword word) word.text.toList EndsWord := by
  obtain ⟨c, cs, hc, hstart, hchars⟩ : ∃ c cs, word.text.toList = c :: cs ∧
      isNameStart c = true ∧ ∀ d ∈ cs, isNameChar d = true := by
    cases word <;> exact ⟨_, _, rfl, rfl, List.all_eq_true.1 rfl⟩
  have hword := spells_word hstart hchars
  rwa [← hc, String.ofList_toList, Kind.ofWord, Keyword.ofText?_text] at hword

theorem spells_name {x : String} (h : IsName x) : Spells (.name x) x.toList EndsWord := by
  obtain ⟨⟨c, cs, hc, hstart, hchars⟩, hfree⟩ := h
  have hword := spells_word hstart hchars
  rwa [← hc, String.ofList_toList, Kind.ofWord, hfree] at hword

theorem isDigit_of_endsWord {d : Char} (h : EndsWord d) : d.isDigit = false := by
  refine Bool.eq_false_iff.2 fun hd => ?_
  have hascii : d.toNat < 0x80 := by
    have := toNat_of_isDigit hd
    omega
  have hchar : isNameChar d = true := by
    simp [isNameChar, Text.isAlphanumeric, hascii, Char.isAlphanum, hd]
  rw [h] at hchar
  cases hchar

theorem spells_digits {digits : List Char} {n : Int64} (hdigits : ∀ d ∈ digits, d.isDigit = true)
    (hne : digits ≠ []) (hn : integer? digits = some n) : Spells (.int n) digits EndsWord := by
  obtain ⟨c, cs, rfl⟩ := List.exists_cons_of_ne_nil hne
  rw [List.forall_mem_cons] at hdigits
  refine ⟨c, cs, rfl, fun offset rest hrest => ?_⟩
  exact piece_digits hdigits.1 hdigits.2 (fun d hd => isDigit_of_endsWord (hrest d hd)) hn

/-- An integer that is not negative is shown by its digits. -/
theorem digits_of_nonneg {n : Int64} (h : 0 ≤ n.toInt) :
    (Integer.render n).toList ≠ [] ∧ (∀ d ∈ (Integer.render n).toList, d.isDigit = true) ∧
      integer? (Integer.render n).toList = some n := by
  obtain ⟨m, hm⟩ := Int.eq_ofNat_of_zero_le h
  have hdigits : (Integer.render n).toList = Nat.toDigits 10 m := by
    rw [Integer.render, hm]
    exact Nat.toList_repr
  rw [hdigits]
  refine ⟨Nat.toDigits_ne_nil, fun d hd => Nat.isDigit_of_mem_toDigits (by decide) (by decide) hd,
    ?_⟩
  rw [integer?, Nat.ofDigitChars_ten_toDigits, Integer.ofInt?_eq_some_iff, hm]

theorem spells_str {text written : List Char} (h : Quotes text written) :
    Spells (.str (String.ofList text)) ('"' :: (written ++ ['"'])) AnyChar := by
  refine ⟨'"', written ++ ['"'], rfl, fun offset rest _ => ?_⟩
  rw [List.append_assoc, List.singleton_append, piece_quote, h.literal_eq]
  rfl

end Token

end Tang
