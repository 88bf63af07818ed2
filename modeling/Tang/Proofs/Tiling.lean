import Mathlib.Data.String.Basic
import Tang.Proofs.Diagnostics.Places
import Tang.Proofs.Tiling.Lexemes

/-! Tokens tile their text. From left to right a text consists of lexemes with gaps between them,
and the places recorded with the tokens are where the lexemes start and stop. Each lexeme is as long
as it can be, and is the same token by itself. -/

namespace Tang

/-! ### Parts of a text -/

namespace Text

/-- The part of a text between two byte offsets. -/
def slice (source : String) (start stop : Nat) : String :=
  String.Pos.Raw.extract source ⟨start⟩ ⟨stop⟩

theorem utf8Len_eq_width (cs : List Char) : String.utf8Len cs = width cs := by
  induction cs with
  | nil => rfl
  | cons c cs ih => rw [String.utf8Len_cons, ih, width_cons, Nat.add_comm]

theorem slice_of_append {source : String} {before part after : List Char}
    (h : source.toList = before ++ (part ++ after)) :
    slice source (width before) (width before + width part) = String.ofList part := by
  have hextract := String.extract_of_valid before part after
  rw [List.append_assoc, ← h, String.ofList_toList] at hextract
  simpa only [slice, utf8Len_eq_width] using hextract

theorem width_toList (source : String) : width source.toList = source.utf8ByteSize := by
  rw [← utf8ByteSize_ofList, String.ofList_toList]

/-- The part up to the end of the text. -/
theorem slice_of_suffix {source : String} {before part : List Char}
    (h : source.toList = before ++ part) :
    slice source (width before) source.utf8ByteSize = String.ofList part := by
  rw [← width_toList, h, width_append]
  exact slice_of_append (by rw [h, List.append_nil])

/-- A character of two texts joined is in the first one or in the second one. -/
theorem cons_of_append_eq {cs ds before after : List Char} {c : Char}
    (h : cs ++ ds = before ++ c :: after) :
    (∃ more, cs = before ++ c :: more) ∨
      ∃ more, before = cs ++ more ∧ ds = more ++ c :: after := by
  rcases List.append_eq_append_iff.1 h with ⟨more, hbefore, hds⟩ | ⟨more, hcs, hmore⟩
  · exact .inr ⟨more, hbefore, hds⟩
  · cases more with
    | nil => exact .inr ⟨[], by simp [hcs], hmore.symm⟩
    | cons d more =>
      obtain ⟨rfl, -⟩ := List.cons.inj hmore
      exact .inl ⟨more, hcs⟩

end Text

namespace Token

open Text (width slice Between)

/-! ### Tilings -/

/-- The characters, from byte `offset` on, are lexemes with gaps between them, and the tokens are
those of the lexemes. -/
inductive Tiles : Nat → List Char → List Token → Prop where
  | last {offset : Nat} {gap : List Char} :
    Gap gap [] → Tiles offset gap [⟨.endOfInput, offset + width gap, offset + width gap⟩]
  | token {offset : Nat} {gap taken rest : List Char} {kind : Kind} {tokens : List Token} :
    Gap gap (taken ++ rest) → Lexeme kind taken rest →
      Tiles (offset + width gap + width taken) rest tokens →
        Tiles offset (gap ++ (taken ++ rest))
          (⟨kind, offset + width gap, offset + width gap + width taken⟩ :: tokens)

/-- A gap in front makes the first gap longer. -/
theorem Tiles.skip {offset : Nat} {skipped cs : List Char} {tokens : List Token}
    (hskipped : Gap skipped cs) (h : Tiles (offset + width skipped) cs tokens) :
    Tiles offset (skipped ++ cs) tokens := by
  cases h with
  | last hgap =>
    have hlast : Gap (skipped ++ cs) [] := .append (by rwa [List.append_nil]) hgap
    simpa only [Text.width_append, Nat.add_assoc] using @Tiles.last offset _ hlast
  | @token _ gap taken rest kind tokens hgap hlexeme htiles =>
    have htiles' : Tiles (offset + width (skipped ++ gap) + width taken) rest tokens := by
      simpa only [Text.width_append, Nat.add_assoc] using htiles
    have htoken := Tiles.token (hskipped.append hgap) hlexeme htiles'
    simpa only [Text.width_append, Nat.add_assoc, List.append_assoc] using htoken

theorem tiles_of_scanFrom {offset : Nat} {tokens all : Array Token} {cs : List Char}
    (h : scanFrom offset tokens cs = .ok all) :
    ∃ more, all.toList = tokens.toList ++ more ∧ Tiles offset cs more := by
  fun_induction scanFrom offset tokens cs with
  | case1 offset tokens =>
    obtain rfl := Except.ok.inj h
    exact ⟨_, by simp, .last (.nil [])⟩
  | case2 => cases h
  | case3 offset tokens c cs p hp hle stop kind hk ih =>
    obtain ⟨more, hall, hmore⟩ := ih h
    have hlexeme := (classified_of_piece hp).1 kind hk
    refine ⟨⟨kind, offset, stop⟩ :: more, by simp [hall], ?_⟩
    rw [← (taken_append_rest hp).1]
    exact .token (.nil _) hlexeme hmore
  | case4 offset tokens c cs p hp hle stop hk ih =>
    obtain ⟨more, hall, hmore⟩ := ih h
    refine ⟨more, hall, ?_⟩
    rw [← (taken_append_rest hp).1]
    exact hmore.skip ((classified_of_piece hp).2 hk)

theorem tiles_of_scan {source : String} {tokens : List Token} (h : scan source = .ok tokens) :
    Tiles 0 source.toList tokens := by
  unfold scan at h
  cases hs : scanFrom 0 #[] source.toList with
  | error error => rw [hs] at h; cases h
  | ok all =>
    rw [hs] at h
    obtain rfl := Except.ok.inj h
    obtain ⟨more, hall, htiles⟩ := tiles_of_scanFrom hs
    rw [hall]
    exact htiles

/-! ### Single tokens of a tiling -/

/-- The place of a token: the characters that end where the token before stops, the gap in front of
the token, its own characters and those behind it. -/
structure Placed (offset : Nat) (cs : List Char) (previous : Nat) (token : Token)
    (front gap taken rest : List Char) : Prop where
  chars : cs = front ++ (gap ++ (taken ++ rest))
  reached : previous = offset + width front
  start : token.start = previous + width gap
  stop : token.stop = token.start + width taken
  gap : Gap gap (taken ++ rest)

namespace Tiles

variable {offset : Nat} {cs : List Char} {tokens : List Token}

theorem exists_placed {before after : List Token} {token : Token}
    (h : Tiles offset cs (before ++ token :: after)) :
    ∃ front gap taken rest,
      Placed offset cs ((before.map Token.stop).getLastD offset) token front gap taken rest ∧
        (Lexeme token.kind taken rest ∧ after ≠ [] ∨
          token.kind = .endOfInput ∧ taken = [] ∧ rest = [] ∧ after = []) := by
  induction before generalizing offset cs with
  | nil =>
    cases h with
    | last hgap =>
      exact ⟨[], cs, [], [], ⟨by simp, rfl, rfl, rfl, hgap⟩, .inr ⟨rfl, rfl, rfl, rfl⟩⟩
    | @token _ gap taken rest _ _ hgap hlexeme htiles =>
      refine ⟨[], gap, taken, rest, ⟨rfl, rfl, rfl, rfl, hgap⟩, .inl ⟨hlexeme, ?_⟩⟩
      cases htiles <;> exact List.cons_ne_nil _ _
  | cons first before ih =>
    rw [List.cons_append] at h
    generalize htokens : before ++ token :: after = more at h
    cases h with
    | last => exact absurd htokens (by simp)
    | @token _ gap taken rest _ _ hgap hlexeme htiles =>
      subst htokens
      obtain ⟨front, gap', taken', rest', hplaced, hkind⟩ := ih htiles
      refine ⟨gap ++ (taken ++ front), gap', taken', rest', ⟨?_, ?_, ?_, ?_, ?_⟩, hkind⟩
      · rw [hplaced.chars]
        simp only [List.append_assoc]
      · rw [List.map_cons, List.getLastD_cons, hplaced.reached]
        simp only [Text.width_append, Nat.add_assoc]
      · rw [List.map_cons, List.getLastD_cons, hplaced.start]
      · exact hplaced.stop
      · exact hplaced.gap

theorem start_ge (h : Tiles offset cs tokens) : ∀ token ∈ tokens, offset ≤ token.start := by
  induction h with
  | last => simp
  | token _ _ _ ih =>
    refine List.forall_mem_cons.2 ⟨Nat.le_add_right _ _, fun token ht => ?_⟩
    have hle := ih token ht
    omega

theorem ordered (h : Tiles offset cs tokens) :
    tokens.Pairwise fun s t => s.stop ≤ t.start := by
  induction h with
  | last => simp
  | token _ _ htiles ih => exact List.pairwise_cons.2 ⟨htiles.start_ge, ih⟩

theorem eq_append_last (h : Tiles offset cs tokens) :
    ∃ body, tokens = body ++ [⟨.endOfInput, offset + width cs, offset + width cs⟩] ∧
      ∀ token ∈ body, token.kind ≠ .endOfInput ∧ token.start < token.stop := by
  induction h with
  | last => exact ⟨[], rfl, nofun⟩
  | @token offset gap taken rest kind tokens _ hlexeme _ ih =>
    obtain ⟨body, rfl, hbody⟩ := ih
    refine ⟨⟨kind, offset + width gap, offset + width gap + width taken⟩ :: body, ?_,
      List.forall_mem_cons.2 ⟨⟨hlexeme.ne_endOfInput, ?_⟩, hbody⟩⟩
    · simp only [Text.width_append, Nat.add_assoc, List.cons_append]
    · exact Nat.lt_add_of_pos_right hlexeme.width_pos

/-- A line end is not in a gap, so a lexeme has it, which is the line end or a string literal. -/
theorem newline (h : Tiles offset cs tokens) {before after : List Char}
    (hcs : cs = before ++ '\n' :: after) :
    ∃ token ∈ tokens, token.start ≤ offset + width before ∧ offset + width before < token.stop ∧
      (token.kind = .newline ∨ ∃ text, token.kind = .str text) := by
  induction h generalizing before with
  | last hgap => exact absurd (by simp [hcs]) hgap.newline_not_mem
  | @token offset gap taken rest kind tokens hgap hlexeme _ ih =>
    rcases Text.cons_of_append_eq hcs with ⟨more, rfl⟩ | ⟨front, rfl, hfront⟩
    · exact absurd (by simp) hgap.newline_not_mem
    rcases Text.cons_of_append_eq hfront with ⟨more, rfl⟩ | ⟨front, rfl, hrest⟩
    · refine ⟨_, List.mem_cons_self, ?_, ?_, hlexeme.newline (by simp)⟩
      · simp only [Text.width_append]
        omega
      · have hpos := Char.utf8Size_pos '\n'
        simp only [Text.width_append, Text.width_cons]
        omega
    · obtain ⟨token, ht, hstart, hstop, hkind⟩ := ih hrest
      refine ⟨token, List.mem_cons_of_mem _ ht, ?_, ?_, hkind⟩
      · simp only [Text.width_append]
        omega
      · simp only [Text.width_append]
        omega

end Tiles

/-! ### The tokens of a text -/

/-- How tokens cover a text. All places are byte offsets. -/
structure Covers (tokens : List Token) (source : String) : Prop where
  /-- The end of the input comes last, and only there is nothing. -/
  finish : ∃ body,
    tokens = body ++ [⟨.endOfInput, source.utf8ByteSize, source.utf8ByteSize⟩] ∧
      ∀ token ∈ body, token.kind ≠ .endOfInput ∧ token.start < token.stop
  ordered : tokens.Pairwise fun s t => s.stop ≤ t.start
  boundaries : ∀ token ∈ tokens, (String.Pos.Raw.mk token.start).IsValid source ∧
    (String.Pos.Raw.mk token.stop).IsValid source
  /-- From the stop of the token before, or from the start of the text, there is only a gap. -/
  gaps : ∀ before token after, tokens = before ++ token :: after →
    Gap (slice source ((before.map Token.stop).getLastD 0) token.start).toList
      (slice source token.start source.utf8ByteSize).toList
  /-- By itself, the part of the text from its start to its stop is the same token. -/
  alone : ∀ token ∈ tokens, token.kind ≠ .endOfInput →
    scan (slice source token.start token.stop) =
      .ok [⟨token.kind, 0, token.stop - token.start⟩,
        ⟨.endOfInput, token.stop - token.start, token.stop - token.start⟩]
  longest : ∀ token ∈ tokens, ∀ c ∈ (slice source token.stop source.utf8ByteSize).toList.head?,
    ¬ token.kind.Extends c
  newlines : ∀ before after, source.toList = before ++ '\n' :: after →
    ∃ token ∈ tokens, token.start ≤ width before ∧ width before < token.stop ∧
      (token.kind = .newline ∨ ∃ text, token.kind = .str text)

namespace Placed

variable {source : String} {previous : Nat} {token : Token} {front gap taken rest : List Char}

theorem slice_gap (h : Placed 0 source.toList previous token front gap taken rest) :
    slice source previous token.start = String.ofList gap := by
  rw [h.start, h.reached, Nat.zero_add]
  exact Text.slice_of_append h.chars

theorem slice_taken (h : Placed 0 source.toList previous token front gap taken rest) :
    slice source token.start token.stop = String.ofList taken := by
  have hchars : source.toList = (front ++ gap) ++ (taken ++ rest) := by
    rw [h.chars, List.append_assoc]
  rw [h.stop, h.start, h.reached, Nat.zero_add, ← Text.width_append]
  exact Text.slice_of_append hchars

theorem slice_from_start (h : Placed 0 source.toList previous token front gap taken rest) :
    slice source token.start source.utf8ByteSize = String.ofList (taken ++ rest) := by
  have hchars : source.toList = (front ++ gap) ++ (taken ++ rest) := by
    rw [h.chars, List.append_assoc]
  rw [h.start, h.reached, Nat.zero_add, ← Text.width_append]
  exact Text.slice_of_suffix hchars

theorem slice_from_stop (h : Placed 0 source.toList previous token front gap taken rest) :
    slice source token.stop source.utf8ByteSize = String.ofList rest := by
  have hchars : source.toList = (front ++ gap ++ taken) ++ rest := by
    rw [h.chars, List.append_assoc, List.append_assoc]
  rw [h.stop, h.start, h.reached, Nat.zero_add, ← Text.width_append, ← Text.width_append]
  exact Text.slice_of_suffix hchars

end Placed

/-- The tokens of a text cover it. -/
theorem covers_of_scan (source : String) (tokens : List Token) (h : scan source = .ok tokens) :
    Covers tokens source := by
  have htiles := tiles_of_scan h
  have hlaid := laid_of_scan h
  refine ⟨?_, htiles.ordered, fun token ht => ⟨(hlaid.starts token ht).isValid,
    (hlaid.stops token ht).isValid⟩, ?_, ?_, ?_, ?_⟩
  · obtain ⟨body, htokens, hbody⟩ := htiles.eq_append_last
    rw [Nat.zero_add, Text.width_toList] at htokens
    exact ⟨body, htokens, hbody⟩
  · rintro before token after rfl
    obtain ⟨front, gap, taken, rest, hplaced, -⟩ := htiles.exists_placed
    rw [hplaced.slice_gap, hplaced.slice_from_start, String.toList_ofList, String.toList_ofList]
    exact hplaced.gap
  · intro token ht hkind
    obtain ⟨before, after, rfl⟩ := List.append_of_mem ht
    obtain ⟨front, gap, taken, rest, hplaced, ⟨hlexeme, -⟩ | ⟨hend, -⟩⟩ := htiles.exists_placed
    · have hwidth : token.stop - token.start = width taken := by
        rw [hplaced.stop, Nat.add_sub_cancel_left]
      rw [hplaced.slice_taken, hwidth]
      exact hlexeme.scan_ofList
    · exact absurd hend hkind
  · intro token ht c hc
    obtain ⟨before, after, rfl⟩ := List.append_of_mem ht
    obtain ⟨front, gap, taken, rest, hplaced, hkind⟩ := htiles.exists_placed
    rw [hplaced.slice_from_stop, String.toList_ofList] at hc
    rcases hkind with ⟨hlexeme, -⟩ | ⟨-, -, rfl, -⟩
    · exact hlexeme.longest c hc
    · cases hc
  · intro before after hsource
    simpa only [Nat.zero_add] using htiles.newline hsource

/-- A comment, a line end in a string literal and characters of two bytes. -/
theorem covers_of_scan_twoLines :
    let source := "xé1<=// é\n\"é\n\\\"\"===1"
    let tokens : List Token := [⟨.name "xé1", 0, 4⟩, ⟨.symbol .lessEqual, 4, 6⟩, ⟨.newline, 11, 12⟩,
      ⟨.str "é\n\"", 12, 19⟩, ⟨.symbol .equal, 19, 21⟩, ⟨.symbol .assign, 21, 22⟩, ⟨.int 1, 22, 23⟩,
      ⟨.endOfInput, 23, 23⟩]
    scan source = .ok tokens ∧ Covers tokens source := by
  intro source tokens
  have hscan : scan source = .ok tokens := by decide +kernel
  exact ⟨hscan, covers_of_scan source tokens hscan⟩

end Token

end Tang
