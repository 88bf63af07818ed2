import Tang.Proofs.Written.Readable

/-! Places in a text. The scanner adds up the bytes of the characters it has read, so each place
that it records, where a token starts or stops or where a text is wrong, lies between two characters
or at an end of the text. Such a place has a line, and places further on have no smaller ones. -/

namespace Tang

/-! ### Places between characters -/

namespace Text

/-- The place lies between two characters, or at an end, of a text that starts at byte `offset`. -/
def Between (offset : Nat) (cs : List Char) (place : Nat) : Prop :=
  ∃ before after, cs = before ++ after ∧ place = offset + width before

variable {offset place : Nat} {cs : List Char}

theorem between_start (offset : Nat) (cs : List Char) : Between offset cs offset :=
  ⟨[], cs, rfl, rfl⟩

theorem between_width (offset : Nat) (before after : List Char) :
    Between offset (before ++ after) (offset + width before) :=
  ⟨before, after, rfl, rfl⟩

theorem Between.le (h : Between offset cs place) : offset ≤ place := by
  obtain ⟨before, -, -, rfl⟩ := h
  exact Nat.le_add_right offset (width before)

theorem Between.le_width (h : Between offset cs place) : place ≤ offset + width cs := by
  obtain ⟨before, after, rfl, rfl⟩ := h
  rw [width_append]
  omega

/-- A place in a text is one in a longer text that begins further left. -/
theorem Between.append (before : List Char) (h : Between (offset + width before) cs place) :
    Between offset (before ++ cs) place := by
  obtain ⟨before', after, rfl, rfl⟩ := h
  exact ⟨before ++ before', after, by simp, by rw [width_append, Nat.add_assoc]⟩

theorem utf8ByteSize_ofList (cs : List Char) : (String.ofList cs).utf8ByteSize = width cs := by
  induction cs with
  | nil => rfl
  | cons c cs ih =>
    rw [String.ofList_cons, String.utf8ByteSize_append, String.utf8ByteSize_singleton, ih,
      width_cons]

/-- No character is cut at such a place. -/
theorem Between.isValid {source : String} (h : Between 0 source.toList place) :
    (String.Pos.Raw.mk place).IsValid source := by
  obtain ⟨before, after, hsource, rfl⟩ := h
  rw [String.Pos.Raw.isValid_iff_exists_append]
  refine ⟨String.ofList before, String.ofList after, ?_, ?_⟩
  · rw [← String.ofList_append, ← hsource, String.ofList_toList]
  · refine String.Pos.Raw.ext ?_
    rw [String.byteIdx_rawEndPos, utf8ByteSize_ofList, Nat.zero_add]

theorem onBoundary_append (before after : List Char) :
    onBoundary (before ++ after) (width before) = true := by
  induction before with
  | nil => cases after <;> simp [onBoundary]
  | cons c before ih => simp [onBoundary, ih]

theorem Between.lineAt? {source : String} (h : Between 0 source.toList place) :
    lineAt? source place = some (lineAt source place) := by
  obtain ⟨before, after, hsource, rfl⟩ := h
  rw [Text.lineAt?, hsource, Nat.zero_add, onBoundary_append, if_pos rfl]

/-! ### Lines -/

theorem le_lineFrom (line : Nat) (cs : List Char) (offset : Nat) :
    line ≤ lineFrom line cs offset := by
  induction cs generalizing line offset with
  | nil => exact Nat.le_refl line
  | cons c cs ih =>
    rw [lineFrom]
    split
    · exact Nat.le_refl line
    · refine Nat.le_trans ?_ (ih _ _)
      split <;> omega

theorem lineFrom_le (line : Nat) (cs : List Char) (offset : Nat) :
    lineFrom line cs offset ≤ line + cs.count '\n' := by
  induction cs generalizing line offset with
  | nil => exact Nat.le_refl line
  | cons c cs ih =>
    rw [lineFrom]
    split
    · exact Nat.le_add_right line _
    · refine Nat.le_trans (ih _ _) ?_
      by_cases hc : c = '\n'
      · simp [hc]
        omega
      · simp [hc]

theorem lineFrom_mono (line : Nat) (cs : List Char) {offset offset' : Nat}
    (h : offset ≤ offset') : lineFrom line cs offset ≤ lineFrom line cs offset' := by
  induction cs generalizing line offset offset' with
  | nil => exact Nat.le_refl line
  | cons c cs ih =>
    by_cases hzero : offset = 0
    · rw [lineFrom, if_pos hzero]
      exact le_lineFrom line (c :: cs) offset'
    · have hzero' : offset' ≠ 0 := by omega
      simp only [lineFrom, if_neg hzero, if_neg hzero']
      exact ih _ (Nat.sub_le_sub_right h _)

end Text

/-! ### Places that the scanner records -/

namespace Token

open Text (Between between_start between_width)

theorem utf8Size_of_unescape? {e c : Char} (h : unescape? e = some c) : e.utf8Size = 1 := by
  unfold unescape? at h
  split at h
  any_goals rfl
  cases h

theorem error_of_map_eq_error {α β : Type} {x : Except LexError α} {f : α → β} {error : LexError}
    (h : x.map f = .error error) : x = .error error := by
  cases x with
  | error error' => exact congrArg _ (Except.error.inj h)
  | ok a => cases h

/-- A string literal fails where it starts or between two of its characters. -/
theorem between_of_literal {start offset : Nat} {cs : List Char} {error : LexError}
    (h : literal start offset cs = .error error) :
    error.offset = start ∨ Between offset cs error.offset := by
  fun_induction literal start offset cs with
  | case1 => cases h; exact .inl rfl
  | case2 offset => cases h; exact .inr (between_width offset ['\\'] [])
  | case3 offset e cs c he ih =>
    refine (ih (error_of_map_eq_error h)).imp_right fun hplace => ?_
    -- the characters that may stand behind a backslash have one byte
    have hwidth : offset + 2 = offset + Text.width ['\\', e] := by
      rw [Text.width_cons, Text.width_cons, utf8Size_of_unescape? he]
      rfl
    rw [hwidth] at hplace
    exact hplace.append ['\\', e]
  | case4 offset e cs he => cases h; exact .inr (between_width offset ['\\'] (e :: cs))
  | case5 => cases h
  | case6 offset c cs _ _ _ ih =>
    exact (ih (error_of_map_eq_error h)).imp_right fun hplace => hplace.append [c]

theorem between_of_piece {offset : Nat} {c : Char} {cs : List Char} {error : LexError}
    (h : piece offset c cs = .error error) : Between offset (c :: cs) error.offset := by
  unfold piece at h
  split at h
  · cases h
  split at h
  · cases h
  split at h
  · cases h
  split at h
  · unfold number at h
    split at h <;> cases h
    exact between_start offset _
  split at h
  · next hquote =>
    rcases between_of_literal (error_of_map_eq_error h) with hstart | hplace
    · rw [hstart]
      exact between_start offset _
    · subst hquote
      exact hplace.append ['"']
  split at h
  · cases h
  split at h <;> cases h
  exact between_start offset _

theorem between_of_scanFrom {offset : Nat} {tokens : Array Token} {cs : List Char}
    {error : LexError} (h : scanFrom offset tokens cs = .error error) :
    Between offset cs error.offset := by
  fun_induction scanFrom offset tokens cs with
  | case1 => cases h
  | case2 offset tokens c cs error' hp =>
    cases h
    exact between_of_piece hp
  | case3 offset tokens c cs p hp hle stop kind hk ih =>
    rw [← (taken_append_rest hp).1]
    exact (ih h).append p.taken
  | case4 offset tokens c cs p hp hle stop hk ih =>
    rw [← (taken_append_rest hp).1]
    exact (ih h).append p.taken

/-- The tokens start and stop between characters of a text that starts at byte `offset`, each not
before the one in front of it. -/
structure Laid (offset : Nat) (cs : List Char) (tokens : List Token) : Prop where
  starts : ∀ token ∈ tokens, Between offset cs token.start
  stops : ∀ token ∈ tokens, Between offset cs token.stop
  ordered : tokens.Pairwise fun a b => a.start ≤ b.start

theorem Laid.append {offset : Nat} {cs : List Char} {tokens : List Token} (before : List Char)
    (h : Laid (offset + Text.width before) cs tokens) : Laid offset (before ++ cs) tokens where
  starts token ht := (h.starts token ht).append before
  stops token ht := (h.stops token ht).append before
  ordered := h.ordered

theorem laid_of_scanFrom {offset : Nat} {tokens all : Array Token} {cs : List Char}
    (h : scanFrom offset tokens cs = .ok all) :
    ∃ more, all.toList = tokens.toList ++ more ∧ Laid offset cs more := by
  fun_induction scanFrom offset tokens cs with
  | case1 offset tokens =>
    cases h
    refine ⟨[⟨.endOfInput, offset, offset⟩], by simp, ?_, ?_, by simp⟩
    · simpa using between_start offset []
    · simpa using between_start offset []
  | case2 => cases h
  | case3 offset tokens c cs p hp hle stop kind hk ih =>
    obtain ⟨more, hall, hmore⟩ := ih h
    refine ⟨⟨kind, offset, stop⟩ :: more, by simp [hall], ?_⟩
    rw [← (taken_append_rest hp).1]
    have hlaid := hmore.append p.taken
    refine ⟨?_, ?_, ?_⟩
    · exact List.forall_mem_cons.2 ⟨between_start offset _, hlaid.starts⟩
    · exact List.forall_mem_cons.2 ⟨between_width offset _ _, hlaid.stops⟩
    · exact List.pairwise_cons.2 ⟨fun token ht => (hlaid.starts token ht).le, hlaid.ordered⟩
  | case4 offset tokens c cs p hp hle stop hk ih =>
    obtain ⟨more, hall, hmore⟩ := ih h
    refine ⟨more, hall, ?_⟩
    rw [← (taken_append_rest hp).1]
    exact hmore.append p.taken

theorem between_of_scan {source : String} {error : LexError} (h : scan source = .error error) :
    Between 0 source.toList error.offset :=
  between_of_scanFrom (error_of_map_eq_error h)

theorem laid_of_scan {source : String} {tokens : List Token} (h : scan source = .ok tokens) :
    Laid 0 source.toList tokens := by
  unfold scan at h
  cases hs : scanFrom 0 #[] source.toList with
  | error error => rw [hs] at h; cases h
  | ok all =>
    rw [hs] at h
    obtain rfl := Except.ok.inj h
    obtain ⟨more, hall, hlaid⟩ := laid_of_scanFrom hs
    rw [hall]
    exact hlaid

end Token

end Tang
