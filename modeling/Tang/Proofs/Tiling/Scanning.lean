import Tang.Proofs.Tiling

/-! The tokens of a text are its only tiling. A lexeme is the next piece in front of every text that
does not make it longer, and a gap is passed over, so the scanner finds each tiling that there
is. -/

namespace Tang.Token

open Text (width)

/-! ### Lexemes in front of other texts -/

theorem chars_of_longer {longer : Symbol} {cs : List Char} {d : Char}
    (h : longer.chars = cs ++ [d]) (hne : cs ≠ []) :
    d = '=' ∧ cs ∈ [[':'], ['='], ['!'], ['<'], ['>']] := by
  obtain ⟨c, cs, rfl⟩ := List.exists_cons_of_ne_nil hne
  cases cs with
  | nil => cases longer <;> simp_all [Symbol.chars, eq_comm]
  | cons e cs =>
    have hlength := length_chars_le longer
    rw [h] at hlength
    simp at hlength

theorem symbolEnds_of_not_extends {sign : Symbol} {d : Char}
    (h : ¬ (Kind.symbol sign).Extends d) : SymbolEnds sign d := by
  constructor
  · refine Option.eq_none_iff_forall_ne_some.2 fun longer hlonger => h ?_
    have hne : sign.chars ≠ [] := by cases sign <;> exact List.cons_ne_nil _ _
    obtain ⟨rfl, hchars⟩ := chars_of_longer (chars_of_ofChars? hlonger) hne
    cases sign <;> first | rfl | exact absurd hchars (by decide)
  · rintro rfl rfl
    exact h rfl

/-- What is alone a token of the kind is one in front of every text that does not make it longer. -/
theorem Lexeme.spells {kind : Kind} {taken rest : List Char} (h : Lexeme kind taken rest) :
    Spells kind taken fun d => ¬ kind.Extends d := by
  obtain ⟨c, cs, rfl, hpiece⟩ := h.alone
  unfold piece at hpiece
  split at hpiece
  · next hc =>
    cases hpiece
    exact spells_newline.mono fun _ _ => trivial
  split at hpiece
  · cases hpiece
  split at hpiece
  · next hc =>
    simp only [Piece.run, Except.ok.injEq, Piece.mk.injEq, Option.some.injEq] at hpiece
    obtain ⟨rfl, hcs, -⟩ := hpiece
    have hchars : ∀ d ∈ cs, isNameChar d = true := by
      rw [← (List.cons.inj hcs).2]
      exact fun d hd => List.all_eq_true.1 List.all_takeWhile d hd
    rw [hcs]
    exact (spells_word hc hchars).mono fun d hd => Bool.eq_false_iff.2 (mt extends_ofWord.2 hd)
  split at hpiece
  · next hc =>
    unfold number at hpiece
    split at hpiece
    · next n hn =>
      simp only [Except.ok.injEq, Piece.mk.injEq, Option.some.injEq] at hpiece
      obtain ⟨rfl, hcs, -⟩ := hpiece
      have hdigits : ∀ d ∈ cs, d.isDigit = true := by
        rw [← (List.cons.inj hcs).2]
        exact fun d hd => List.all_eq_true.1 List.all_takeWhile d hd
      rw [hcs] at hn
      refine ⟨c, cs, rfl, fun offset rest hrest => piece_digits hc hdigits (fun d hd => ?_) hn⟩
      exact Bool.eq_false_iff.2 (hrest d hd)
    · cases hpiece
  split at hpiece
  · next hc =>
    subst hc
    cases hl : literal 0 (0 + 1) cs with
    | error error =>
      rw [hl] at hpiece
      cases hpiece
    | ok l =>
      rw [hl] at hpiece
      simp only [Except.map, Except.ok.injEq, Piece.mk.injEq, Option.some.injEq, List.cons.injEq,
        true_and] at hpiece
      obtain ⟨rfl, rfl, -⟩ := hpiece
      refine ⟨'"', l.taken, rfl, fun offset rest _ => ?_⟩
      have halone := literal_taken hl offset (offset + 1)
      rw [piece_quote, literal_append (halone ▸ settled_ok _), halone]
      rfl
  split at hpiece
  · cases hpiece
  split at hpiece
  · next hcomment _ p hp =>
    cases hpiece
    obtain ⟨sign, hsign, htaken, -⟩ := longest_of_symbol? hp hcomment
    obtain rfl := Option.some.inj hsign
    rw [show c :: cs = sign.chars from htaken]
    exact (spells_symbol sign).mono fun d hd => symbolEnds_of_not_extends hd
  · cases hpiece

/-! ### Gaps -/

theorem piece_comment (offset : Nat) {body rest : List Char} (hbody : '\n' ∉ body)
    (hrest : ∀ d ∈ rest.head?, d = '\n') :
    piece offset '/' ('/' :: (body ++ rest)) = .ok ⟨none, '/' :: '/' :: body, rest⟩ := by
  have hblank : Text.isBlank '/' = false := by decide
  have hname : isNameStart '/' = false := by decide
  have hchars : ∀ d ∈ body, (d != '\n') = true := fun d hd => by
    rw [bne_iff_ne]
    rintro rfl
    exact hbody hd
  have hend : ∀ d ∈ rest.head?, (d != '\n') = false := fun d hd => by rw [hrest d hd]; rfl
  obtain ⟨htake, hdrop⟩ := takeWhile_of_ends hchars hend
  simp [piece, hblank, hname, Piece.run, htake, hdrop]

theorem Gap.scanFrom_append {gap rest : List Char} (h : Gap gap rest) (offset : Nat)
    (tokens : Array Token) :
    scanFrom offset tokens (gap ++ rest) = scanFrom (offset + width gap) tokens rest := by
  induction h generalizing offset with
  | nil => rfl
  | @blank c cs rest hblank hline _ ih =>
    rw [List.cons_append, scanFrom_blank offset tokens _ hblank hline, ih, Text.width_cons,
      Nat.add_assoc]
  | @comment body cs rest hbody hend _ ih =>
    rw [List.cons_append, List.cons_append, List.append_assoc,
      scanFrom_of_blank (piece_comment offset hbody hend), ih]
    simp only [Text.width_cons, Text.width_append, Nat.add_assoc]

/-! ### Tilings are scanned -/

theorem Tiles.scanFrom_eq {offset : Nat} {cs : List Char} {tokens : List Token}
    (h : Tiles offset cs tokens) (before : Array Token) :
    scanFrom offset before cs = .ok (before ++ tokens.toArray) := by
  induction h generalizing before with
  | @last offset gap hgap =>
    have hscan := hgap.scanFrom_append offset before
    rw [List.append_nil] at hscan
    rw [hscan, scanFrom]
    simp
  | @token offset gap taken rest kind tokens hgap hlexeme _ ih =>
    rw [hgap.scanFrom_append, hlexeme.spells.scanFrom_append hlexeme.longest, ih]
    simp

/-- A text has a tiling if and only if it can be divided into tokens, and no tiling but its
tokens. -/
theorem scan_eq_ok_iff {source : String} {tokens : List Token} :
    scan source = .ok tokens ↔ Tiles 0 source.toList tokens := by
  refine ⟨tiles_of_scan, fun h => ?_⟩
  rw [scan, h.scanFrom_eq #[]]
  simp [Except.map]

end Tang.Token
