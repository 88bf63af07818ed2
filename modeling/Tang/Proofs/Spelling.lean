import Tang.Proofs.Written.Pieces

/-! Tokens can be spelled in more than one way: an integer with zeros in front, a string literal
with its line ends and tabs escaped or not, and any run of blanks between two tokens. Every spelling
of a row of tokens is scanned as that row. -/

namespace Tang.Token

/-! ### Spellings -/

/-- The characters are a spelling of the token. -/
def Kind.Spelling : Kind → List Char → Prop
  | .str text, cs => ∃ written, Quotes text.toList written ∧ cs = '"' :: (written ++ ['"'])
  | .int n, cs => ∃ zeros, cs = List.replicate zeros '0' ++ (Integer.render n).toList
  | kind, cs => cs = kind.spelling.toList

/-- A blank that stands within a line. -/
def isSpace (c : Char) : Bool :=
  Text.isBlank c && c != '\n'

theorem isSpace_iff {c : Char} : isSpace c = true ↔ Text.isBlank c = true ∧ c ≠ '\n' := by
  simp [isSpace]

/-- The characters are spellings of the tokens, with blanks between each two of them. -/
inductive Spelled : List Kind → List Char → Prop where
  | nil : Spelled [] []
  | last {kind : Kind} {cs : List Char} : kind.Spelling cs → Spelled [kind] cs
  | next {kind : Kind} {kinds : List Kind} {cs gap ds : List Char} :
    kind.Spelling cs → gap ≠ [] → (∀ c ∈ gap, isSpace c) → kinds ≠ [] → Spelled kinds ds →
      Spelled (kind :: kinds) (cs ++ (gap ++ ds))

/-! ### Every row has a spelling -/

theorem exists_quotes (text : List Char) : ∃ cs, Quotes text cs := by
  induction text with
  | nil => exact ⟨[], .nil⟩
  | cons c text ih =>
    obtain ⟨cs, hcs⟩ := ih
    by_cases hquote : c = '"'
    · exact ⟨_, .escaped (e := '"') (by simp [hquote, escapes]) hcs⟩
    by_cases hslash : c = '\\'
    · exact ⟨_, .escaped (e := '\\') (by simp [hslash, escapes]) hcs⟩
    exact ⟨_, .plain hquote hslash hcs⟩

theorem Kind.exists_spelling (kind : Kind) : ∃ cs, kind.Spelling cs := by
  cases kind with
  | str text =>
    obtain ⟨written, hwritten⟩ := exists_quotes text.toList
    exact ⟨_, written, hwritten, rfl⟩
  | int n => exact ⟨_, 0, rfl⟩
  | _ => exact ⟨_, rfl⟩

theorem exists_spelled (kinds : List Kind) : ∃ cs, Spelled kinds cs := by
  induction kinds with
  | nil => exact ⟨[], .nil⟩
  | cons kind kinds ih =>
    obtain ⟨cs, hcs⟩ := kind.exists_spelling
    obtain ⟨ds, hds⟩ := ih
    cases kinds with
    | nil => exact ⟨cs, .last hcs⟩
    | cons =>
      have hgap : ∀ c ∈ [' '], isSpace c := List.all_eq_true.1 rfl
      exact ⟨_, .next hcs (List.cons_ne_nil _ _) hgap (List.cons_ne_nil _ _) hds⟩

/-! ### Spellings are read -/

theorem integer?_zeros (zeros : Nat) (digits : List Char) :
    integer? (List.replicate zeros '0' ++ digits) = integer? digits := by
  rw [integer?, Nat.ofDigitChars_append, Nat.ofDigitChars_replicate_zero, Nat.mul_zero, integer?]

/-- In front of a blank every spelling is the whole next piece of the text. -/
theorem Kind.Spelling.spells {kind : Kind} {cs : List Char} (h : kind.Spelling cs)
    (hkind : kind.Scanned) : Spells kind cs (isSpace ·) := by
  have hword (d : Char) (hd : isSpace d) : EndsWord d := endsWord_of_isBlank (isSpace_iff.1 hd).1
  cases kind with
  | name x =>
    obtain rfl := h
    exact (spells_name hkind).mono hword
  | int n =>
    obtain ⟨zeros, rfl⟩ := h
    obtain ⟨hne, hdigits, hn⟩ := digits_of_nonneg hkind
    refine (spells_digits ?_ (List.append_ne_nil_of_right_ne_nil _ hne) ?_).mono hword
    · refine List.forall_mem_append.2 ⟨fun d hd => ?_, hdigits⟩
      rw [List.eq_of_mem_replicate hd]
      rfl
    · rw [integer?_zeros, hn]
  | str text =>
    obtain ⟨written, hwritten, rfl⟩ := h
    have hspells := spells_str hwritten
    rw [String.ofList_toList] at hspells
    exact hspells.mono fun _ _ => trivial
  | keyword word =>
    obtain rfl := h
    exact (spells_keyword word).mono hword
  | symbol sign =>
    obtain rfl : cs = sign.chars := h.trans String.toList_ofList
    exact (spells_symbol sign).mono fun d hd => symbolEnds_of_isBlank sign (isSpace_iff.1 hd).1
  | newline =>
    obtain rfl := h
    exact spells_newline.mono fun _ _ => trivial
  | endOfInput => exact hkind.elim

theorem scanFrom_spaces {gap : List Char} (hgap : ∀ c ∈ gap, isSpace c) (offset : Nat)
    (tokens : Array Token) (cs : List Char) :
    scanFrom offset tokens (gap ++ cs) = scanFrom (offset + Text.width gap) tokens cs := by
  induction gap generalizing offset with
  | nil => rfl
  | cons c gap ih =>
    rw [List.forall_mem_cons] at hgap
    obtain ⟨hblank, hline⟩ := isSpace_iff.1 hgap.1
    rw [List.cons_append, scanFrom_blank offset tokens _ hblank hline, ih hgap.2, Text.width_cons,
      Nat.add_assoc]

/-- The tokens of a spelling are added one by one, each in front of its gap. -/
theorem Spelled.scanFrom_eq {kinds : List Kind} {cs : List Char} (h : Spelled kinds cs)
    (hkinds : Scannable kinds) (offset : Nat) (tokens : Array Token) :
    ∃ all, scanFrom offset tokens cs = .ok all ∧
      all.toList.map Token.kind = tokens.toList.map Token.kind ++ (kinds ++ [.endOfInput]) := by
  induction h generalizing offset tokens with
  | nil => exact ⟨_, by rw [scanFrom], by simp⟩
  | last h =>
    have hspells := h.spells (scannable_cons.1 hkinds).1
    have hscan := @Spells.scanFrom_append _ _ [] _ hspells (by simp) offset tokens
    rw [List.append_nil, scanFrom] at hscan
    exact ⟨_, hscan, by simp⟩
  | @next kind kinds cs gap ds h hne hgap _ _ ih =>
    obtain ⟨hkind, hkinds⟩ := scannable_cons.1 hkinds
    have hfollow : ∀ d ∈ (gap ++ ds).head?, isSpace d := by
      obtain ⟨c, gap, rfl⟩ := List.exists_cons_of_ne_nil hne
      exact fun d hd => hgap d (List.mem_of_mem_head? hd)
    rw [(h.spells hkind).scanFrom_append hfollow, scanFrom_spaces hgap]
    obtain ⟨all, hscan, hall⟩ := ih hkinds _ _
    exact ⟨all, hscan, by simpa using hall⟩

/-- Every row of tokens that a text can hold can be spelled, and each of its spellings is scanned
as the row. -/
theorem scan_spelled {kinds : List Kind} (hkinds : Scannable kinds) :
    (∃ cs, Spelled kinds cs) ∧ ∀ cs, Spelled kinds cs →
      ∃ tokens, scan (String.ofList cs) = .ok tokens ∧
        tokens.map Token.kind = kinds ++ [.endOfInput] := by
  refine ⟨exists_spelled kinds, fun cs h => ?_⟩
  obtain ⟨all, hscan, hall⟩ := h.scanFrom_eq hkinds 0 #[]
  refine ⟨all.toList, ?_, hall⟩
  rw [scan, String.toList_ofList, hscan]
  rfl

/-- Two slashes that are no comment, a colon apart from an equals sign, zeros in front of a number,
a name that begins with a keyword, and a string of a mark and two line ends, one of them escaped. -/
theorem scan_spelled_crowded :
    let kinds : List Kind := [.symbol .slash, .symbol .slash, .symbol .colon, .symbol .assign,
      .int 7, .keyword .fnWord, .name "fnx", .str "\"\n\n"]
    let source := "/ /\t: =\u00a0007  fn fnx \"\\\"\n\\n\""
    Scannable kinds ∧ Spelled kinds source.toList ∧
      ∃ tokens, scan source = .ok tokens ∧ tokens.map Token.kind = kinds ++ [.endOfInput] := by
  intro kinds source
  have hname : IsName "fnx" := ⟨⟨'f', ['n', 'x'], rfl, rfl, List.all_eq_true.1 rfl⟩, rfl⟩
  have hseven : 0 ≤ (7 : Int64).toInt := by decide
  have hkinds : Scannable kinds := by
    simp only [kinds, scannable_cons]
    exact ⟨trivial, trivial, trivial, trivial, hseven, trivial, hname, trivial,
      List.forall_mem_nil _⟩
  have hquotes : Quotes "\"\n\n".toList ['\\', '"', '\n', '\\', 'n'] :=
    .escaped (by decide) (.plain (by decide) (by decide) (.escaped (by decide) .nil))
  have hnext {kind after : Kind} {kinds : List Kind} {cs ds : List Char} (c : Char)
      (gap : List Char) (hgap : (c :: gap).all isSpace = true) (h : kind.Spelling cs)
      (hrest : Spelled (after :: kinds) ds) :
      Spelled (kind :: after :: kinds) (cs ++ ((c :: gap) ++ ds)) :=
    .next h (List.cons_ne_nil _ _) (List.all_eq_true.1 hgap) (List.cons_ne_nil _ _) hrest
  have hspelled : Spelled kinds _ :=
    hnext ' ' [] rfl rfl <| hnext '\t' [] rfl rfl <| hnext ' ' [] rfl rfl <|
      hnext '\u00a0' [] rfl rfl <| hnext ' ' [' '] rfl ⟨2, rfl⟩ <| hnext ' ' [] rfl rfl <|
      hnext ' ' [] rfl rfl <| .last ⟨_, hquotes, rfl⟩
  have hsource : Spelled kinds (String.ofList _).toList :=
    (congrArg (Spelled kinds) String.toList_ofList).mpr hspelled
  exact ⟨hkinds, hsource, (scan_spelled hkinds).2 _ hspelled⟩

end Tang.Token
