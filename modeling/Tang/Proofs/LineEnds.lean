import Mathlib.Data.List.Forall2
import Tang.Proofs.Joined
import Tang.Proofs.Stream
import Tang.Proofs.Tiling.Scanning

/-! Line ends with a carriage return. It is a blank, so it goes into the gap in front of the line
end, be it behind a token or at the end of a comment. Only in a string literal it would be one more
character. All tokens behind it move, but none to another line, and the parser sees no more of a
token than its kind. The interactive loop takes it away together with the line end. -/

namespace Tang

namespace Text

/-- The characters with a carriage return in front of each line end. -/
def withReturns (cs : List Char) : List Char :=
  cs.flatMap fun c => if c = '\n' then ['\r', '\n'] else [c]

/-- The text with a carriage return in front of each line end. -/
def returned (source : String) : String :=
  String.ofList (withReturns source.toList)

theorem withReturns_append (cs ds : List Char) :
    withReturns (cs ++ ds) = withReturns cs ++ withReturns ds :=
  List.flatMap_append

theorem withReturns_newline (cs : List Char) :
    withReturns ('\n' :: cs) = '\r' :: '\n' :: withReturns cs := rfl

theorem withReturns_of_not_mem {cs : List Char} (h : '\n' ∉ cs) : withReturns cs = cs := by
  induction cs with
  | nil => rfl
  | cons c cs ih =>
    simp only [List.mem_cons, not_or] at h
    rw [withReturns, List.flatMap_cons, if_neg (Ne.symm h.1), ← withReturns, ih h.2]
    rfl

theorem head?_withReturns {cs : List Char} :
    ∀ d ∈ (withReturns cs).head?, d = '\r' ∨ cs.head? = some d := by
  cases cs with
  | nil => nofun
  | cons c cs =>
    intro d hd
    by_cases hc : c = '\n'
    · subst hc
      exact .inl (Option.some.inj hd).symm
    · rw [withReturns, List.flatMap_cons, if_neg hc] at hd
      exact .inr hd

/-! ### Places on the same line -/

/-- The places stand between characters of texts that start at bytes `offset` and `offset'`, behind
equally many line ends. -/
def Abreast (offset offset' : Nat) (cs cs' : List Char) (place place' : Nat) : Prop :=
  ∃ before after before' after', cs = before ++ after ∧ cs' = before' ++ after' ∧
    place = offset + width before ∧ place' = offset' + width before' ∧
      before.count '\n' = before'.count '\n'

theorem Abreast.append {offset offset' place place' : Nat} {cs cs' : List Char}
    {front front' : List Char} (hcount : front.count '\n' = front'.count '\n')
    (h : Abreast (offset + width front) (offset' + width front') cs cs' place place') :
    Abreast offset offset' (front ++ cs) (front' ++ cs') place place' := by
  obtain ⟨before, after, before', after', rfl, rfl, rfl, rfl, hbefore⟩ := h
  refine ⟨front ++ before, after, front' ++ before', after', by simp, by simp, ?_, ?_, ?_⟩
  · rw [width_append, Nat.add_assoc]
  · rw [width_append, Nat.add_assoc]
  · rw [List.count_append, List.count_append, hcount, hbefore]

theorem Abreast.lineAt_eq {source source' : String} {place place' : Nat}
    (h : Abreast 0 0 source.toList source'.toList place place') :
    lineAt source place = lineAt source' place' := by
  obtain ⟨before, after, before', after', hsource, hsource', rfl, rfl, hcount⟩ := h
  have hline (cs ds : List Char) : lineFrom 1 (cs ++ ds) (0 + width cs) = 1 + cs.count '\n' := by
    rw [lineFrom_append]
    cases ds <;> rfl
  rw [lineAt, lineAt, hsource, hsource', hline, hline, hcount]

end Text

/-! ### Tokens on the same lines -/

namespace Token

open Text (width withReturns Abreast lineAt)

/-- The kind of a token and the lines on which it starts and stops. -/
def lined (source : String) (token : Token) : Kind × Nat × Nat :=
  (token.kind, lineAt source token.start, lineAt source token.stop)

/-- The tokens have one kind, and start and stop behind equally many line ends. -/
structure Alike (offset offset' : Nat) (cs cs' : List Char) (token token' : Token) : Prop where
  kind : token.kind = token'.kind
  start : Abreast offset offset' cs cs' token.start token'.start
  stop : Abreast offset offset' cs cs' token.stop token'.stop

theorem Alike.append {offset offset' : Nat} {cs cs' front front' : List Char}
    (hcount : front.count '\n' = front'.count '\n') {token token' : Token}
    (h : Alike (offset + width front) (offset' + width front') cs cs' token token') :
    Alike offset offset' (front ++ cs) (front' ++ cs') token token' :=
  ⟨h.kind, h.start.append hcount, h.stop.append hcount⟩

/-- The first token behind a gap. -/
theorem alike_first (offset offset' : Nat) (kind : Kind) {gap gap' taken : List Char}
    (hgap : gap.count '\n' = gap'.count '\n') (rest rest' : List Char) :
    Alike offset offset' (gap ++ (taken ++ rest)) (gap' ++ (taken ++ rest'))
      ⟨kind, offset + width gap, offset + width gap + width taken⟩
      ⟨kind, offset' + width gap', offset' + width gap' + width taken⟩ where
  kind := rfl
  start := ⟨gap, taken ++ rest, gap', taken ++ rest', rfl, rfl, rfl, rfl, hgap⟩
  stop := by
    refine ⟨gap ++ taken, rest, gap' ++ taken, rest', by simp, by simp, ?_, ?_, ?_⟩
    · rw [Text.width_append, Nat.add_assoc]
    · rw [Text.width_append, Nat.add_assoc]
    · rw [List.count_append, List.count_append, hgap]

theorem lined_eq_of_alike {source source' : String} {tokens tokens' : List Token}
    (h : List.Forall₂ (Alike 0 0 source.toList source'.toList) tokens tokens') :
    tokens.map (lined source) = tokens'.map (lined source') := by
  induction h with
  | nil => rfl
  | cons halike _ ih =>
    rw [List.map_cons, List.map_cons, ih, lined, lined, halike.kind, halike.start.lineAt_eq,
      halike.stop.lineAt_eq]

/-! ### Carriage returns in gaps -/

theorem Gap.congr_head {cs rest rest' : List Char} (h : Gap cs rest)
    (hhead : rest.head? = rest'.head?) : Gap cs rest' := by
  induction h with
  | nil => exact .nil rest'
  | blank hblank hline _ ih => exact .blank hblank hline (ih hhead)
  | @comment body cs rest hbody hend _ ih =>
    refine .comment hbody (fun d hd => hend d ?_) (ih hhead)
    rwa [List.head?_append, hhead, ← List.head?_append]

/-- In front of a line end, a carriage return makes a gap longer. At the end of a comment it is one
more character of the comment. -/
theorem Gap.append_return {cs rest : List Char} (h : Gap cs ('\n' :: rest)) :
    Gap (cs ++ ['\r']) ('\n' :: rest) := by
  generalize hrest : '\n' :: rest = rest' at h
  induction h with
  | nil => exact .blank (by decide) (by decide) (.nil _)
  | blank hblank hline _ ih => exact .blank hblank hline (ih hrest)
  | @comment body cs rest' hbody hend hgap _ =>
    subst hrest
    cases cs with
    | nil =>
      have hbody' : '\n' ∉ body ++ ['\r'] := by simp [hbody]
      simpa using @Gap.comment _ [] _ hbody' hend (.nil _)
    | cons d cs => exact absurd (by simp [hend d rfl]) hgap.newline_not_mem

theorem not_extends_return (kind : Kind) : ¬ kind.Extends '\r' := by
  cases kind with
  | name | keyword => exact (by decide : ¬ isNameChar '\r' = true)
  | int => exact (by decide : ¬ '\r'.isDigit = true)
  | symbol sign =>
    intro h
    rcases extends_symbol h with ⟨-, hslash⟩ | ⟨longer, hlonger⟩
    · exact absurd hslash (by decide)
    · have hmem : '\r' ∈ longer.chars := by
        rw [hlonger]
        exact List.mem_append_right _ (List.mem_singleton.2 rfl)
      cases longer <;> exact absurd hmem (by decide)
  | _ => exact id

theorem Lexeme.of_returned {kind : Kind} {taken rest : List Char} (h : Lexeme kind taken rest) :
    Lexeme kind taken (withReturns rest) where
  alone := h.alone
  longest d hd := by
    rcases Text.head?_withReturns d hd with rfl | hd
    · exact not_extends_return kind
    · exact h.longest d hd
  newline := h.newline

/-- Nothing else is a line end. -/
theorem taken_of_newline {offset : Nat} {c : Char} {cs : List Char} {p : Piece}
    (h : piece offset c cs = .ok p) (hkind : p.kind? = some .newline) : p.taken = ['\n'] := by
  unfold piece at h
  split at h
  · cases h
    rfl
  split at h
  · cases h
    cases hkind
  split at h
  · cases h
    simp only [Piece.run, Kind.ofWord, Option.some.injEq] at hkind
    split at hkind <;> cases hkind
  split at h
  · unfold number at h
    split at h <;> cases h
    cases hkind
  split at h
  · cases hl : literal offset (offset + 1) cs with
    | error error =>
      rw [hl] at h
      cases h
    | ok l =>
      rw [hl] at h
      cases h
      cases hkind
  split at h
  · cases h
    cases hkind
  split at h
  · next hcomment _ p hp =>
    cases h
    obtain ⟨sign, hsign, -⟩ := longest_of_symbol? hp hcomment
    cases hkind.symm.trans hsign
  · cases h

theorem Lexeme.eq_newline {taken rest : List Char} (h : Lexeme .newline taken rest) :
    taken = ['\n'] := by
  obtain ⟨c, cs, rfl, hpiece⟩ := h.alone
  exact taken_of_newline hpiece rfl

/-! ### Tilings with carriage returns -/

/-- If the token is a string literal, no line end is among its characters. -/
def Inline (offset : Nat) (cs : List Char) (token : Token) : Prop :=
  ∀ text, token.kind = .str text → ∀ before part after, cs = before ++ (part ++ after) →
    token.start = offset + width before → token.stop = token.start + width part → '\n' ∉ part

theorem Inline.of_append {offset : Nat} {front cs : List Char} {token : Token}
    (h : Inline offset (front ++ cs) token) : Inline (offset + width front) cs token := by
  intro text hkind before part after hcs hstart hstop
  refine h text hkind (front ++ before) part after ?_ ?_ hstop
  · rw [hcs, List.append_assoc]
  · rw [hstart, Text.width_append, Nat.add_assoc]

/-- A carriage return in front of a lexeme that is a line end goes into the gap before it. There is
none in front of other lexemes and in gaps. -/
theorem Lexeme.exists_gap {kind : Kind} {gap taken rest : List Char} (h : Lexeme kind taken rest)
    (hgap : Gap gap (taken ++ rest)) (hstr : ∀ text, kind = .str text → '\n' ∉ taken) :
    ∃ gap', withReturns (gap ++ (taken ++ rest)) = gap' ++ (taken ++ withReturns rest) ∧
      Gap gap' (taken ++ withReturns rest) ∧ gap.count '\n' = gap'.count '\n' := by
  by_cases hline : '\n' ∈ taken
  · obtain rfl : kind = .newline := (h.newline hline).resolve_right fun ⟨text, hkind⟩ =>
      hstr text hkind hline
    obtain rfl := h.eq_newline
    have hgap' : Gap gap ('\n' :: withReturns rest) := hgap.congr_head rfl
    refine ⟨gap ++ ['\r'], ?_, hgap'.append_return, by simp⟩
    rw [Text.withReturns_append, Text.withReturns_of_not_mem hgap.newline_not_mem,
      List.singleton_append, Text.withReturns_newline]
    simp
  · have hhead : (taken ++ rest).head? = (taken ++ withReturns rest).head? := by
      obtain ⟨c, cs, rfl⟩ := List.exists_cons_of_ne_nil h.ne_nil
      rfl
    refine ⟨gap, ?_, hgap.congr_head hhead, rfl⟩
    rw [Text.withReturns_append, Text.withReturns_append,
      Text.withReturns_of_not_mem hgap.newline_not_mem, Text.withReturns_of_not_mem hline]

/-- The text with carriage returns has a tiling of the same kinds, on the same lines. -/
theorem Tiles.returned {offset : Nat} {cs : List Char} {tokens : List Token}
    (h : Tiles offset cs tokens) (hinline : ∀ token ∈ tokens, Inline offset cs token)
    (offset' : Nat) :
    ∃ tokens', Tiles offset' (withReturns cs) tokens' ∧
      List.Forall₂ (Alike offset offset' cs (withReturns cs)) tokens tokens' := by
  induction h generalizing offset' with
  | @last offset gap hgap =>
    rw [Text.withReturns_of_not_mem hgap.newline_not_mem]
    have halike := @alike_first offset offset' .endOfInput gap gap [] rfl [] []
    simp only [List.append_nil, Text.width_nil, Nat.add_zero] at halike
    exact ⟨_, .last hgap, .cons halike .nil⟩
  | @token offset gap taken rest kind tokens hgap hlexeme _ ih =>
    rw [List.forall_mem_cons] at hinline
    obtain ⟨hfirst, hrest⟩ := hinline
    obtain ⟨gap', hcs, hgap', hcount⟩ := hlexeme.exists_gap hgap fun text hkind =>
      hfirst text hkind gap taken rest rfl rfl rfl
    have hrest' : ∀ token ∈ tokens, Inline (offset + width gap + width taken) rest token := by
      intro token ht
      have htoken := hrest token ht
      rw [← List.append_assoc] at htoken
      simpa only [Text.width_append, Nat.add_assoc] using htoken.of_append
    obtain ⟨tokens', htiles', halike⟩ := ih hrest' (offset' + width gap' + width taken)
    rw [hcs]
    refine ⟨_, .token hgap' hlexeme.of_returned htiles',
      .cons (alike_first offset offset' kind hcount rest _) (halike.imp fun token token' ht => ?_)⟩
    have hcount' : (gap ++ taken).count '\n' = (gap' ++ taken).count '\n' := by
      rw [List.count_append, List.count_append, hcount]
    rw [Nat.add_assoc, Nat.add_assoc, ← Text.width_append, ← Text.width_append] at ht
    rw [← List.append_assoc, ← List.append_assoc]
    exact ht.append hcount'

/-- If no string literal has a line end among its characters, the text with carriage returns has the
same kinds of tokens on the same lines. -/
theorem scan_returned {source : String} {tokens : List Token} (h : scan source = .ok tokens)
    (hinline : ∀ token ∈ tokens, ∀ text, token.kind = .str text →
      '\n' ∉ (Text.slice source token.start token.stop).toList) :
    ∃ tokens', scan (Text.returned source) = .ok tokens' ∧
      tokens'.map (lined (Text.returned source)) = tokens.map (lined source) := by
  have hinline' : ∀ token ∈ tokens, Inline 0 source.toList token := by
    intro token ht text hkind before part after hcs hstart hstop
    have hslice := hinline token ht text hkind
    rw [hstop, hstart, Nat.zero_add, Text.slice_of_append hcs, String.toList_ofList] at hslice
    exact hslice
  obtain ⟨tokens', htiles, halike⟩ := (tiles_of_scan h).returned hinline' 0
  have hreturned : (Text.returned source).toList = withReturns source.toList :=
    String.toList_ofList
  rw [← hreturned] at htiles halike
  exact ⟨tokens', scan_eq_ok_iff.2 htiles, (lined_eq_of_alike halike).symm⟩

end Token

/-! ### Programs from tokens on the same lines -/

namespace Parser

/-- Lists of tokens look alike if they have the same kinds. -/
theorem lockstep_kinds : Lockstep fun s t => kinds s = kinds t where
  head h := by rw [headKind_eq, headKind_eq, h]
  tail {s t} h _ := by rw [kinds, kinds, List.map_tail, List.map_tail, ← kinds, ← kinds, h]
  shorter {s t s' t'} h h' := by
    have hlength := congrArg List.length h
    have hlength' := congrArg List.length h'
    simp only [kinds, List.length_map] at hlength hlength'
    omega

end Parser

/-- The line of a failure is known from the lines of the tokens. -/
theorem ParseError.line?_eq (source : String) (tokens : List Token) (error : ParseError) :
    (error.offset? tokens).map (Text.lineAt source) =
      match (tokens.map (Token.lined source))[error.index]? with
      | some (_, start, _) => some start
      | none => (tokens.map (Token.lined source)).getLast?.map fun (_, _, stop) => stop := by
  rw [List.getElem?_map, List.getLast?_map, offset?]
  cases tokens[error.index]? with
  | some token => rfl
  | none =>
    simp only [Option.map_none, Option.map_map]
    rfl

namespace Program

theorem ofTokens_congr {tokens tokens' : List Token}
    (h : Parser.kinds tokens = Parser.kinds tokens') : ofTokens tokens = ofTokens tokens' := by
  have hlength {s t : List Token} (h : Parser.kinds s = Parser.kinds t) : s.length = t.length := by
    simpa [Parser.kinds] using congrArg List.length h
  have hplace (s t : List Token) (hst : Parser.kinds s = Parser.kinds t) :
      tokens'.length - t.length = id (tokens.length - s.length) := by
    rw [hlength h, hlength hst, id_eq]
  obtain ⟨statements, errors, hread, hread'⟩ :=
    Parser.lockstep_kinds.readFrom id hplace ⟨#[], #[]⟩ ⟨#[], #[]⟩ h
  simp only [ofTokens, hread, hread', id_eq, Array.map_id_fun']

/-- Of the tokens and the text, a program and its diagnostics show only the kinds and the lines. -/
theorem parseTokens_congr {source source' : String} {tokens tokens' : List Token}
    (h : tokens.map (Token.lined source) = tokens'.map (Token.lined source')) (file : String) :
    parseTokens file source tokens = parseTokens file source' tokens' := by
  have hkinds : Parser.kinds tokens = Parser.kinds tokens' := by
    simpa [Parser.kinds, Function.comp_def, Token.lined] using congrArg (List.map Prod.fst) h
  have hreport (error : ParseError) : Diagnostic.ofParseError file source tokens error =
      Diagnostic.ofParseError file source' tokens' error := by
    have hline := error.line?_eq source tokens
    rw [h, ← error.line?_eq source' tokens'] at hline
    have hplace := congrArg (Option.map (Location.mk file)) hline
    simp only [Option.map_map, Function.comp_def] at hplace
    rw [Diagnostic.ofParseError, Diagnostic.ofParseError, hplace]
  rw [parseTokens, parseTokens, ofTokens_congr hkinds]
  congr 2
  exact funext hreport

end Program

/-! ### Lines of the interactive loop -/

namespace Repl

/-- The input that consists of the lines, each of them with the ending. -/
def ended (ending : List UInt8) (lines : List (List UInt8)) : ByteArray :=
  ⟨(lines.flatMap (· ++ ending)).toArray⟩

theorem lines_ended (more : List UInt8) (hmore : newline ∉ more) {input : List (List UInt8)}
    (h : ∀ line ∈ input, newline ∉ line) :
    lines (ended (more ++ [newline]) input).data.toList = input.map (· ++ (more ++ [newline])) := by
  rw [ended, List.toList_toArray]
  induction input with
  | nil => rfl
  | cons line input ih =>
    rw [List.forall_mem_cons] at h
    have hcomplete : Complete (line ++ (more ++ [newline])) := by simp [Complete]
    have hline : newline ∉ line ++ more := by simp [h.1, hmore]
    have hfirst : lines (line ++ (more ++ [newline])) = [line ++ (more ++ [newline])] := by
      rw [← List.append_assoc, lines_of_newline hline]
    rw [List.flatMap_cons, lines_append hcomplete, hfirst, ih h.2]
    rfl

theorem chomp_append_return (line : List UInt8) :
    chomp (line ++ [carriageReturn, newline]) = line := by
  simp [chomp]

/-- The loop sees of each line only the text without its ending. -/
theorem loop_congr (settings : Settings) {input : List (List UInt8)}
    {f g : List UInt8 → List UInt8} (h : ∀ line ∈ input, decode (f line) = decode (g line)) :
    loop settings (input.map f) = loop settings (input.map g) := by
  induction input with
  | nil => rfl
  | cons line input ih =>
    rw [List.forall_mem_cons] at h
    rw [List.map_cons, List.map_cons, loop, loop, ih h.2, step, step, h.1]

theorem run_ended (settings : Settings) {input : List (List UInt8)}
    (h : ∀ line ∈ input, newline ∉ line ∧ line.getLast? ≠ some carriageReturn) :
    run settings (ended [carriageReturn, newline] input) = run settings (ended [newline] input) := by
  have hlines (line : List UInt8) (hline : line ∈ input) : newline ∉ line := (h line hline).1
  have hreturn := lines_ended [carriageReturn] (by decide) hlines
  have hplain := lines_ended [] (by decide) hlines
  simp only [List.cons_append, List.nil_append] at hreturn hplain
  rw [run, run, hreturn, hplain]
  refine loop_congr settings fun line hline => ?_
  rw [decode, decode, chomp_append_return, chomp_append_newline (h line hline).2]

end Repl

/-! ### Texts and sessions -/

/-- Carriage returns in front of the line ends change nothing. A text that can be divided into
tokens, none of which is a string literal with a line end among its characters, has the same kinds
of tokens with them, and is the same program or fails with the same diagnostics. The interactive
loop does the same on lines that end in a carriage return and a line feed as on lines that end in a
line feed. -/
theorem carriage_returns_inert (file source : String) (settings : Settings) :
    (∀ tokens, Token.scan source = .ok tokens →
      (∀ token ∈ tokens, ∀ text, token.kind = .str text →
        '\n' ∉ (Text.slice source token.start token.stop).toList) →
      (∃ tokens', Token.scan (Text.returned source) = .ok tokens' ∧
        tokens'.map Token.kind = tokens.map Token.kind) ∧
      Program.parse file (Text.returned source) = Program.parse file source) ∧
    ∀ lines : List (List UInt8),
      (∀ line ∈ lines, Repl.newline ∉ line ∧ line.getLast? ≠ some Repl.carriageReturn) →
      Repl.run settings (Repl.ended [Repl.carriageReturn, Repl.newline] lines) =
        Repl.run settings (Repl.ended [Repl.newline] lines) := by
  refine ⟨fun tokens hscan hinline => ?_, fun lines => Repl.run_ended settings⟩
  obtain ⟨tokens', hscan', hlined⟩ := Token.scan_returned hscan hinline
  refine ⟨⟨tokens', hscan', ?_⟩, ?_⟩
  · simpa [Function.comp_def, Token.lined] using congrArg (List.map Prod.fst) hlined
  · rw [Program.parse, Program.parse, hscan, hscan']
    exact Program.parseTokens_congr hlined file

/-- A string literal with an escaped line end, a comment, and half of an operator on each of two
lines, and three lines of a session, one of which is empty. -/
theorem carriage_returns_inert_halves :
    let source := "\"\\n\" <//\n= 2"
    let tokens : List Token := [⟨.str "\n", 0, 4⟩, ⟨.symbol .less, 5, 6⟩, ⟨.newline, 8, 9⟩,
      ⟨.symbol .assign, 9, 10⟩, ⟨.int 2, 11, 12⟩, ⟨.endOfInput, 12, 12⟩]
    let lines : List (List UInt8) := [[0x78], [], [0x0d, 0x29]]
    Token.scan source = .ok tokens ∧
      (∀ token ∈ tokens, ∀ text, token.kind = .str text →
        '\n' ∉ (Text.slice source token.start token.stop).toList) ∧
      Text.returned source = "\"\\n\" <//\r\n= 2" ∧
      Program.parse "f" (Text.returned source) = .error [.syntactic
        (ParseCause.expectedExpression (.symbol .assign)).message (some ⟨"f", 2⟩)] ∧
      (∀ line ∈ lines, Repl.newline ∉ line ∧ line.getLast? ≠ some Repl.carriageReturn) ∧
      Repl.ended [Repl.carriageReturn, Repl.newline] lines = "x\r\n\r\n\r)\r\n".toUTF8 ∧
      Repl.run .default "x\r\n\r\n\r)\r\n".toUTF8 = Repl.run .default "x\n\n\r)\n".toUTF8 := by
  intro source tokens lines
  have hscan : Token.scan source = .ok tokens := by decide +kernel
  have hinline : ∀ token ∈ tokens, ∀ text, token.kind = .str text →
      '\n' ∉ (Text.slice source token.start token.stop).toList := by
    have hstr : '\n' ∉ (Text.slice source 0 4).toList := by decide +kernel
    simp only [tokens, List.forall_mem_cons]
    exact ⟨fun _ _ => hstr, nofun, nofun, nofun, nofun, nofun, List.forall_mem_nil _⟩
  have hlines : ∀ line ∈ lines, Repl.newline ∉ line ∧ line.getLast? ≠ some Repl.carriageReturn := by
    decide
  have hreturn : Repl.ended [Repl.carriageReturn, Repl.newline] lines =
      "x\r\n\r\n\r)\r\n".toUTF8 := by decide +kernel
  have hplain : Repl.ended [Repl.newline] lines = "x\n\n\r)\n".toUTF8 := by decide +kernel
  obtain ⟨htext, hrun⟩ := carriage_returns_inert "f" source .default
  have hparse : Program.parse "f" source = .error [.syntactic
      (ParseCause.expectedExpression (.symbol .assign)).message (some ⟨"f", 2⟩)] := by
    decide +kernel
  rw [← hreturn, ← hplain]
  exact ⟨hscan, hinline, by decide +kernel, (htext tokens hscan hinline).2.trans hparse, hlines,
    rfl, hrun lines hlines⟩

end Tang
