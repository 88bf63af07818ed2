import Tang.Proofs.Written.Pieces

/-! Two texts joined by a line end. No piece of a text reaches over a line end that is not inside a
string literal, so the first text is cut into the pieces that it has alone. The second text is cut
as it is alone, too: what a piece is does not depend on where it stands. -/

namespace Tang

/-- The token so many bytes further on. -/
def Token.shift (distance : Nat) (token : Token) : Token :=
  { token with start := token.start + distance, stop := token.stop + distance }

def LexError.shift (distance : Nat) (error : LexError) : LexError :=
  { error with offset := error.offset + distance }

/-- The text ends within a string literal, which more text may continue. -/
def LexError.Open (error : LexError) : Prop :=
  error.cause = .unterminatedString ∨ error.cause = .unterminatedEscape

namespace Token

@[simp] theorem kind_shift (distance : Nat) (token : Token) :
    (token.shift distance).kind = token.kind := rfl

/-! ### Pieces further on in a text -/

variable {α β ε ε' : Type}

@[simp] theorem mapError_ok (a : α) (g : ε → ε') :
    (Except.ok a : Except ε α).mapError g = .ok a := rfl

@[simp] theorem mapError_error (e : ε) (g : ε → ε') :
    (Except.error e : Except ε α).mapError g = .error (g e) := rfl

theorem mapError_map (x : Except ε α) (f : α → β) (g : ε → ε') :
    (x.map f).mapError g = (x.mapError g).map f := by
  cases x <;> rfl

theorem ne_backslash {c : Char} {cs : List Char} (hone : c = '\\' → cs = [] → False)
    (hmore : ∀ e ds, c = '\\' → cs = e :: ds → False) : c ≠ '\\' := by
  intro hc
  cases cs with
  | nil => exact hone hc rfl
  | cons e ds => exact hmore e ds hc rfl

theorem literal_shift (distance start offset : Nat) (cs : List Char) :
    literal (start + distance) (offset + distance) cs =
      (literal start offset cs).mapError (.shift distance) := by
  fun_induction literal start offset cs with
  | case1 => rfl
  | case2 offset => simp [literal, LexError.shift, Nat.add_right_comm]
  | case3 offset e cs c he ih =>
    rw [literal, he, mapError_map, ← ih, Nat.add_right_comm]
  | case4 offset e cs he =>
    rw [literal, he]
    simp [LexError.shift, Nat.add_right_comm]
  | case5 => exact literal_quote _ _ _
  | case6 offset c cs hone hmore hquote ih =>
    rw [literal_plain _ _ cs (ne_backslash hone hmore) hquote, mapError_map, ← ih,
      Nat.add_right_comm]

theorem number_shift (distance offset : Nat) (digits rest : List Char) :
    number (offset + distance) digits rest =
      (number offset digits rest).mapError (.shift distance) := by
  unfold number
  split <;> rfl

theorem piece_shift (distance offset : Nat) (c : Char) (cs : List Char) :
    piece (offset + distance) c cs = (piece offset c cs).mapError (.shift distance) := by
  unfold piece
  split
  · rfl
  split
  · rfl
  split
  · rfl
  split
  · exact number_shift ..
  split
  · rw [mapError_map, ← literal_shift, Nat.add_right_comm]
  split
  · rfl
  split <;> rfl

/-- The tokens of a text that begins further on, behind other tokens. -/
theorem scanFrom_shift (distance : Nat) (before : Array Token) (offset : Nat)
    (tokens : Array Token) (cs : List Char) :
    scanFrom (offset + distance) (before ++ tokens.map (shift distance)) cs =
      ((scanFrom offset tokens cs).map fun all => before ++ all.map (shift distance)).mapError
        (.shift distance) := by
  fun_induction scanFrom offset tokens cs with
  | case1 offset tokens => simp [scanFrom, Except.map, shift]
  | case2 offset tokens c cs error hp =>
    have hp' := piece_shift distance offset c cs
    rw [hp] at hp'
    rw [scanFrom_of_error hp']
    rfl
  | case3 offset tokens c cs p hp hle stop kind hk ih =>
    have hp' : piece (offset + distance) c cs = .ok ⟨some kind, p.taken, p.rest⟩ := by
      rw [piece_shift, hp, ← hk]
      rfl
    rw [scanFrom_of_token hp', ← ih]
    simp [stop, shift, Nat.add_right_comm]
  | case4 offset tokens c cs p hp hle stop hk ih =>
    have hp' : piece (offset + distance) c cs = .ok ⟨none, p.taken, p.rest⟩ := by
      rw [piece_shift, hp, ← hk]
      rfl
    rw [scanFrom_of_blank hp', ← ih, Nat.add_right_comm]

/-! ### Pieces before a line end -/

theorem takeWhile_append_of_stop {q : Char → Bool} {stop : Char} (hstop : q stop = false)
    (cs ds : List Char) :
    (cs ++ stop :: ds).takeWhile q = cs.takeWhile q ∧
      (cs ++ stop :: ds).dropWhile q = cs.dropWhile q ++ stop :: ds := by
  induction cs with
  | nil => simp [hstop]
  | cons c cs ih =>
    by_cases hc : q c = true
    · simp [hc, ih]
    · simp [hc]

/-- The piece when other characters follow what it leaves. -/
def Piece.followed (ds : List Char) (p : Piece) : Piece :=
  { p with rest := p.rest ++ ds }

def Literal.followed (ds : List Char) (l : Literal) : Literal :=
  { l with rest := l.rest ++ ds }

/-- The result stands whatever text follows: it is no failure within a string literal. -/
def Settled (x : Except LexError α) : Prop :=
  ∀ error, x = .error error → ¬ error.Open

theorem settled_ok (a : α) : Settled (.ok a) :=
  nofun

theorem Settled.of_map {x : Except LexError α} {f : α → β} (h : Settled (x.map f)) : Settled x :=
  fun error hx => h error (by rw [hx]; rfl)

theorem map_map (x : Except ε α) (f : α → β) {γ : Type} (g : β → γ) :
    (x.map f).map g = x.map (g ∘ f) := by
  cases x <;> rfl

theorem run_append_of_stop {q : Char → Bool} {stop : Char} (hstop : q stop = false) (c : Char)
    (cs ds : List Char) (kind? : List Char → Option Kind) :
    Piece.run c q (cs ++ stop :: ds) kind? = (Piece.run c q cs kind?).followed (stop :: ds) := by
  obtain ⟨htake, hdrop⟩ := takeWhile_append_of_stop hstop cs ds
  simp [Piece.run, Piece.followed, htake, hdrop]

/-- A string literal is read alike before any text, unless the end of the text is in it. -/
theorem literal_append {start offset : Nat} {cs : List Char} (h : Settled (literal start offset cs))
    (ds : List Char) :
    literal start offset (cs ++ ds) = (literal start offset cs).map (.followed ds) := by
  fun_induction literal start offset cs with
  | case1 => exact absurd (.inl rfl) (h _ rfl)
  | case2 => exact absurd (.inr rfl) (h _ rfl)
  | case3 offset e cs c he ih =>
    rw [List.cons_append, List.cons_append, literal, he]
    simp only [ih h.of_map, map_map]
    rfl
  | case4 offset e cs he =>
    rw [List.cons_append, List.cons_append, literal, he]
    rfl
  | case5 => exact literal_quote _ _ _
  | case6 offset c cs hone hmore hquote ih =>
    rw [List.cons_append, literal_plain _ _ _ (ne_backslash hone hmore) hquote, ih h.of_map,
      map_map, map_map]
    rfl

theorem number_append (offset : Nat) (digits rest ds : List Char) :
    number offset digits (rest ++ ds) = (number offset digits rest).map (.followed ds) := by
  unfold number
  split <;> rfl

theorem ofChars?_newline (c : Char) : Symbol.ofChars? [c, '\n'] = none := by
  rw [Symbol.ofChars?, List.find?_eq_none]
  intro sign _
  cases sign <;> simp [Symbol.chars]

theorem symbol?_append_newline (c : Char) (cs ds : List Char) :
    symbol? c (cs ++ '\n' :: ds) = (symbol? c cs).map (.followed ('\n' :: ds)) := by
  cases cs with
  | nil =>
    rw [List.nil_append, symbol?, symbol?]
    simp only [ofChars?_newline, Option.map_map]
    rfl
  | cons d cs =>
    rw [List.cons_append, symbol?, symbol?]
    cases Symbol.ofChars? [c, d] with
    | none =>
      simp only [Option.map_map]
      rfl
    | some sign => rfl

theorem head?_append_newline (cs ds : List Char) :
    (cs ++ '\n' :: ds).head? = some '/' ↔ cs.head? = some '/' := by
  cases cs <;> simp

/-- What is at the start of a text is the same before a line end, whatever follows there. Only a
string literal may go on behind the line end. -/
theorem piece_append_newline {offset : Nat} {c : Char} {cs : List Char}
    (h : Settled (piece offset c cs)) (ds : List Char) :
    piece offset c (cs ++ '\n' :: ds) = (piece offset c cs).map (.followed ('\n' :: ds)) := by
  unfold piece at h ⊢
  simp only [head?_append_newline]
  by_cases hline : c = '\n'
  · rw [if_pos hline, if_pos hline]
    rfl
  rw [if_neg hline] at h ⊢
  rw [if_neg hline]
  by_cases hblank : Text.isBlank c = true
  · rw [if_pos hblank, if_pos hblank, run_append_of_stop (by decide)]
    rfl
  rw [if_neg hblank] at h ⊢
  rw [if_neg hblank]
  by_cases hname : isNameStart c = true
  · rw [if_pos hname, if_pos hname, run_append_of_stop (by decide)]
    rfl
  rw [if_neg hname] at h ⊢
  rw [if_neg hname]
  by_cases hdigit : c.isDigit = true
  · have hstop : Char.isDigit '\n' = false := by decide
    obtain ⟨htake, hdrop⟩ := takeWhile_append_of_stop hstop cs ds
    rw [if_pos hdigit, if_pos hdigit, htake, hdrop, number_append]
  rw [if_neg hdigit] at h ⊢
  rw [if_neg hdigit]
  by_cases hquote : c = '"'
  · rw [if_pos hquote] at h ⊢
    rw [if_pos hquote, literal_append h.of_map, map_map, map_map]
    rfl
  rw [if_neg hquote, if_neg hquote]
  by_cases hcomment : c = '/' ∧ cs.head? = some '/'
  · rw [if_pos hcomment, if_pos hcomment, run_append_of_stop (by decide)]
    rfl
  rw [if_neg hcomment, if_neg hcomment, symbol?_append_newline]
  cases symbol? c cs <;> rfl

theorem piece_append_newline_of_ok {offset : Nat} {c : Char} {cs : List Char} {p : Piece}
    (h : piece offset c cs = .ok p) (ds : List Char) :
    piece offset c (cs ++ '\n' :: ds) = .ok (p.followed ('\n' :: ds)) := by
  rw [piece_append_newline (h ▸ settled_ok p), h]
  rfl

theorem width_of_piece {offset : Nat} {c : Char} {cs : List Char} {p : Piece}
    (h : piece offset c cs = .ok p) :
    offset + Text.width p.taken + Text.width p.rest = offset + Text.width (c :: cs) := by
  rw [← (taken_append_rest h).1, Text.width_append, Nat.add_assoc]

/-- A text that is scanned to its end is scanned alike before a line end. -/
theorem scanFrom_append_newline {offset : Nat} {tokens all : Array Token} {cs : List Char}
    (h : scanFrom offset tokens cs = .ok all) :
    ∃ before : Array Token,
      all = before.push ⟨.endOfInput, offset + Text.width cs, offset + Text.width cs⟩ ∧
      ∀ ds, scanFrom offset tokens (cs ++ '\n' :: ds) =
        scanFrom (offset + Text.width cs + 1)
          (before.push ⟨.newline, offset + Text.width cs, offset + Text.width cs + 1⟩) ds := by
  fun_induction scanFrom offset tokens cs with
  | case1 offset tokens =>
    obtain rfl := Except.ok.inj h
    exact ⟨tokens, rfl, fun ds => scanFrom_of_token (piece_newline offset ds)⟩
  | case2 => cases h
  | case3 offset tokens c cs p hp hle stop kind hk ih =>
    obtain ⟨before, hall, hscan⟩ := ih h
    rw [width_of_piece hp] at hall hscan
    refine ⟨before, hall, fun ds => ?_⟩
    have hp' := piece_append_newline_of_ok hp ds
    rw [Piece.followed, hk] at hp'
    rw [List.cons_append, scanFrom_of_token hp', ← hscan]
  | case4 offset tokens c cs p hp hle stop hk ih =>
    obtain ⟨before, hall, hscan⟩ := ih h
    rw [width_of_piece hp] at hall hscan
    refine ⟨before, hall, fun ds => ?_⟩
    have hp' := piece_append_newline_of_ok hp ds
    rw [Piece.followed, hk] at hp'
    rw [List.cons_append, scanFrom_of_blank hp', ← hscan]

/-- The tokens of a text, a line end and another text: those of the first one without the end of the
input, one for the line end, and those of the second one moved behind it. If the second text fails,
so does the whole, at the same place of the second text. -/
theorem scan_append_newline {a : String} {tokens : List Token} (h : scan a = .ok tokens)
    (b : String) :
    let size := Text.width a.toList
    ∃ before : List Token, tokens = before ++ [⟨.endOfInput, size, size⟩] ∧
      scan (a ++ "\n" ++ b) =
        ((scan b).map fun more => before ++ ⟨.newline, size, size + 1⟩ ::
          more.map (shift (size + 1))).mapError (.shift (size + 1)) := by
  intro size
  unfold scan at h ⊢
  cases hs : scanFrom 0 #[] a.toList with
  | error error =>
    rw [hs] at h
    cases h
  | ok all =>
    rw [hs] at h
    obtain rfl := Except.ok.inj h
    obtain ⟨before, hall, hscan⟩ := scanFrom_append_newline hs
    rw [Nat.zero_add] at hall hscan
    refine ⟨before.toList, by simp [hall, size], ?_⟩
    have hjoined : (a ++ "\n" ++ b).toList = a.toList ++ '\n' :: b.toList := by simp
    have hshift := scanFrom_shift (size + 1) (before.push ⟨.newline, size, size + 1⟩) 0 #[] b.toList
    rw [Nat.zero_add, Array.map_empty, Array.append_empty] at hshift
    rw [hjoined, hscan, hshift]
    cases scanFrom 0 #[] b.toList with
    | error error => rfl
    | ok more => simp [Except.map]

end Token

end Tang
