import Tang.Proofs.Written.Derivation
import Tang.Proofs.Written.Pieces

/-! Scanning the written form of a tree gives its tokens again, or fails at an escape sequence that
is written but not read. The items of a tree are joined so that no token runs on into the next: a
word or a number always stands before a character that ends it. -/

namespace Tang

open Token (Kind Spells EndsWord AnyChar piece scanFrom)
open Item (kinds commas sign word within)

/-- The characters of the items. -/
def Item.chars (items : List Item) : List Char :=
  items.flatMap fun item => item.text.toList

open Item (chars)

@[simp] theorem Item.chars_append (items items' : List Item) :
    chars (items ++ items') = chars items ++ chars items' := List.flatMap_append

theorem Item.toList_render (items : List Item) : (render items).toList = chars items := by
  rw [render, String.toList_join, List.flatMap_map]
  rfl

/-! ### Scanned items -/

/-- The items are scanned in front of every text whose first character is one that may follow: their
tokens are added if the items are legible, and otherwise the scan fails at an escape sequence. -/
structure Scans (legible : Prop) (items : List Item) (follow : Char → Prop) : Prop where
  ok : legible → ∀ (offset : Nat) (tokens : Array Token) (cs : List Char),
    (∀ d ∈ cs.head?, follow d) → ∃ offset' more, more.toList.map Token.kind = kinds items ∧
      scanFrom offset tokens (chars items ++ cs) = scanFrom offset' (tokens ++ more) cs
  error : ¬ legible → ∀ (offset : Nat) (tokens : Array Token) (cs : List Char),
    (∀ d ∈ cs.head?, follow d) → ∃ e place, (e = '0' ∨ e = 'u') ∧
      scanFrom offset tokens (chars items ++ cs) = .error ⟨.unsupportedEscape e, place⟩

namespace Scans

variable {P Q : Prop} {a b items : List Item} {f g : Char → Prop}

theorem nil (f : Char → Prop) : Scans True [] f where
  ok _ offset tokens cs _ := ⟨offset, #[], rfl, by simp [chars]⟩
  error h := absurd trivial h

theorem congr (h : Scans P items f) (hPQ : P ↔ Q) : Scans Q items f :=
  propext hPQ ▸ h

theorem mono (h : Scans P items f) (hfg : ∀ d, g d → f d) : Scans P items g where
  ok hP offset tokens cs hcs := h.ok hP offset tokens cs fun d hd => hfg d (hcs d hd)
  error hP offset tokens cs hcs := h.error hP offset tokens cs fun d hd => hfg d (hcs d hd)

/-- Items are scanned one after the other if the second ones begin with what may follow the
first. -/
theorem seq (ha : Scans P a f) (hb : Scans Q b g)
    (h : ∀ cs, (∀ d ∈ cs.head?, g d) → ∀ d ∈ (chars b ++ cs).head?, f d) :
    Scans (P ∧ Q) (a ++ b) g where
  ok := by
    rintro ⟨hP, hQ⟩ offset tokens cs hcs
    obtain ⟨offset', more, hmore, hscan⟩ := ha.ok hP offset tokens _ (h cs hcs)
    obtain ⟨offset'', more', hmore', hscan'⟩ := hb.ok hQ offset' (tokens ++ more) cs hcs
    refine ⟨offset'', more ++ more', by simp [hmore, hmore'], ?_⟩
    rw [Item.chars_append, List.append_assoc, hscan, hscan', Array.append_assoc]
  error := by
    intro hPQ offset tokens cs hcs
    rw [Item.chars_append, List.append_assoc]
    by_cases hP : P
    · obtain ⟨offset', more, hmore, hscan⟩ := ha.ok hP offset tokens _ (h cs hcs)
      rw [hscan]
      exact hb.error (fun hQ => hPQ ⟨hP, hQ⟩) offset' (tokens ++ more) cs hcs
    · exact ha.error hP offset tokens _ (h cs hcs)

theorem append (ha : Scans P a AnyChar) (hb : Scans Q b g) : Scans (P ∧ Q) (a ++ b) g :=
  ha.seq hb fun _ _ _ _ => trivial

theorem append_left (ha : Scans True a AnyChar) (hb : Scans Q b g) : Scans Q (a ++ b) g :=
  (ha.append hb).congr (iff_of_eq (true_and Q))

/-- Where there are no items, nothing is illegible. -/
theorem of_nil (h : Scans P [] f) : P := by
  refine Classical.byContradiction fun hP => ?_
  obtain ⟨e, place, -, hscan⟩ := h.error hP 0 #[] [] nofun
  rw [chars, List.flatMap_nil, List.nil_append, scanFrom] at hscan
  cases hscan

theorem chars_token (kind : Kind) : chars [.token kind] = kind.spelling.toList := by
  simp [chars, Item.text]

theorem ok_of_spells {kind : Kind} (h : Spells kind kind.spelling.toList f) (offset : Nat)
    (tokens : Array Token) (cs : List Char) (hcs : ∀ d ∈ cs.head?, f d) :
    ∃ offset' more, more.toList.map Token.kind = kinds [.token kind] ∧
      scanFrom offset tokens (chars [.token kind] ++ cs) =
        scanFrom offset' (tokens ++ more) cs := by
  have hscan := h.scanFrom_append hcs offset tokens
  rw [Array.push_eq_append, ← chars_token] at hscan
  exact ⟨_, _, rfl, hscan⟩

theorem of_spells {kind : Kind} (h : Spells kind kind.spelling.toList f) :
    Scans True [.token kind] f where
  ok _ := ok_of_spells h
  error hP := absurd trivial hP

theorem space : Scans True [.space] AnyChar where
  ok _ offset tokens cs _ := ⟨offset + ' '.utf8Size, #[], rfl, by
    simpa [chars, Item.text] using
      Token.scanFrom_blank offset tokens cs (c := ' ') (by decide) (by decide)⟩
  error hP := absurd trivial hP

theorem newline : Scans True [.token .newline] AnyChar :=
  of_spells Token.spells_newline

theorem symbol (s : Symbol) : Scans True [sign s] (Token.SymbolEnds s) := by
  have h := Token.spells_symbol s
  rw [← @String.toList_ofList s.chars] at h
  exact of_spells h

theorem keyword (reserved : Keyword) : Scans True [word reserved] EndsWord :=
  of_spells (Token.spells_keyword reserved)

theorem name {x : String} (h : IsName x) : Scans True [.name x] EndsWord :=
  of_spells (Token.spells_name h)

theorem int {n : Int64} (h : 0 ≤ n.toInt) : Scans True [.token (.int n)] EndsWord := by
  obtain ⟨hne, hdigits, hn⟩ := Token.digits_of_nonneg h
  exact of_spells (Token.spells_digits hdigits hne hn)

theorem str (text : String) :
    Scans (∀ c ∈ text.toList, Text.Legible c) [.token (.str text)] AnyChar := by
  have hc : (Kind.spelling (.str text)).toList =
      '"' :: (text.toList.flatMap Text.escape ++ ['"']) := String.toList_ofList
  refine ⟨fun h => ?_, fun h offset tokens cs _ => ?_⟩
  · have hspells := Token.spells_str (Token.quotes_of_legible h)
    rw [String.ofList_toList, ← hc] at hspells
    exact ok_of_spells hspells
  · obtain ⟨e, place, he, herror⟩ := Token.literal_of_not_legible offset cs h (offset + 1)
    refine ⟨e, place, he, ?_⟩
    rw [chars_token, hc, List.cons_append]
    apply Token.scanFrom_of_error
    rw [List.append_assoc, List.singleton_append, Token.piece_quote, herror, Except.map]

end Scans

/-! ### Joined items -/

/-- Items that end a word before them and may stand before anything. -/
structure Solid (items : List Item) : Prop where
  scans : Scans True items AnyChar
  first : ∃ c cs, chars items = c :: cs ∧ EndsWord c

/-- The symbols that begin no longer one. -/
def Symbol.solid : List Symbol :=
  [.semicolon, .comma, .openParen, .closeParen, .openBrace, .closeBrace, .openBracket,
   .closeBracket]

theorem symbolEnds_of_solid {s : Symbol} (h : s ∈ Symbol.solid) (d : Char) :
    Token.SymbolEnds s d := by
  refine ⟨?_, by rintro rfl; simp [Symbol.solid] at h⟩
  simp only [Symbol.solid, List.mem_cons, List.not_mem_nil, or_false] at h
  rcases h with rfl | rfl | rfl | rfl | rfl | rfl | rfl | rfl <;>
    simp [Symbol.ofChars?, Symbol.all, Symbol.chars]

theorem symbolEnds_space (s : Symbol) : Token.SymbolEnds s ' ' :=
  Token.symbolEnds_of_isBlank s (by decide)

theorem first_sign (s : Symbol) : ∃ c cs, chars [sign s] = c :: cs ∧ EndsWord c := by
  have hchars (c : Char) (cs : List Char) (hs : s.chars = c :: cs) : chars [sign s] = c :: cs :=
    (Scans.chars_token _).trans (String.toList_ofList.trans hs)
  cases s <;> exact ⟨_, _, hchars _ _ rfl, rfl⟩

namespace Solid

variable {a b : List Item}

theorem append (ha : Solid a) (hb : Solid b) : Solid (a ++ b) where
  scans := ha.scans.append_left hb.scans
  first := by
    obtain ⟨c, cs, hc, hends⟩ := ha.first
    exact ⟨c, cs ++ chars b, by rw [Item.chars_append, hc, List.cons_append], hends⟩

theorem space : Solid [.space] := ⟨.space, ' ', [], rfl, rfl⟩

theorem newline : Solid [.token .newline] := ⟨.newline, '\n', [], rfl, rfl⟩

theorem symbol {s : Symbol} (h : s ∈ Symbol.solid) : Solid [sign s] where
  scans := (Scans.symbol s).mono fun d _ => symbolEnds_of_solid h d
  first := first_sign s

/-- Every symbol may stand before a space. -/
theorem symbol_space (s : Symbol) : Solid [sign s, .space] where
  scans := by
    have h := (Scans.symbol s).seq Scans.space fun cs _ d hd => by
      obtain rfl : ' ' = d := by simpa [chars, Item.text] using hd
      exact symbolEnds_space s
    exact h.congr (by simp)
  first := by
    obtain ⟨c, cs, hc, hends⟩ := first_sign s
    have hchars : chars ([sign s] ++ [.space]) = c :: (cs ++ chars [.space]) := by
      rw [Item.chars_append, hc, List.cons_append]
    exact ⟨c, cs ++ chars [.space], hchars, hends⟩

end Solid

namespace Scans

variable {P Q : Prop} {a b items : List Item} {parts : List (List Item)}

theorem append_solid (ha : Scans P a EndsWord) (hb : Solid b) : Scans P (a ++ b) AnyChar := by
  refine (ha.seq hb.scans fun cs _ d hd => ?_).congr (iff_of_eq (and_true P))
  obtain ⟨c, ds, hc, hends⟩ := hb.first
  obtain rfl : c = d := by simpa [hc] using hd
  exact hends

theorem endsWord {f : Char → Prop} (h : Scans P items AnyChar) : Scans P items f :=
  h.mono fun _ _ => trivial

theorem within {opening closing : Symbol} (ho : opening ∈ Symbol.solid)
    (hc : closing ∈ Symbol.solid) (h : Scans P items EndsWord) :
    Scans P (within opening closing items) AnyChar :=
  (Solid.symbol ho).scans.append_left (h.append_solid (.symbol hc))

theorem append_within {opening closing : Symbol} (ho : opening ∈ Symbol.solid)
    (hc : closing ∈ Symbol.solid) (ha : Scans P a EndsWord) (h : Scans Q items EndsWord) :
    Scans (P ∧ Q) (a ++ Item.within opening closing items) AnyChar := by
  have hopen := ha.append_solid (.symbol ho)
  have hclose := h.append_solid (.symbol hc)
  have hboth := hopen.append hclose
  rwa [List.append_assoc] at hboth

theorem intercalate {separator : List Item} (hsep : Solid separator) (ha : Scans P a EndsWord)
    (hparts : Scans Q (separator.intercalate parts) EndsWord) :
    Scans (P ∧ Q) (separator.intercalate (a :: parts)) EndsWord := by
  cases parts with
  | nil =>
    -- the condition on the other parts is not lost, for there are none
    have hQ : Q := hparts.of_nil
    rw [List.intercalate_singleton]
    exact ha.congr (by simp [hQ])
  | cons b parts =>
    rw [List.intercalate_cons_cons]
    exact (ha.append_solid hsep).append hparts

theorem block {gap : Item} (hgap : Solid [gap])
    (h : Scans P ([sign .semicolon, .space].intercalate parts) EndsWord) :
    Scans P (Item.block gap parts) AnyChar :=
  within (by decide) (by decide) (hgap.scans.append_left (h.append_solid hgap)).endsWord

theorem names {params : List String} (h : ∀ x ∈ params, IsName x) :
    Scans True (commas (params.map fun x => [.name x])) EndsWord := by
  induction params with
  | nil => exact .nil EndsWord
  | cons x params ih =>
    rw [List.forall_mem_cons] at h
    exact (intercalate (.symbol_space .comma) (name h.1) (ih h.2)).congr (by simp)

theorem signature {params : List String} (h : ∀ x ∈ params, IsName x) :
    Scans True (Item.signature params) AnyChar := by
  have hword := (keyword .fnWord).append_solid (.symbol (s := .openParen) (by decide))
  have hparams := (names h).append_solid (.symbol (s := .closeParen) (by decide))
  rw [Item.signature, Item.within, List.cons_append]
  exact hword.append_left (hparams.append_left space)

end Scans

/-! ### Trees -/

/-- The characters of all string literals are legible. -/
def Rule.legible : Rule where
  expr
    | .str text => ∀ c ∈ text.toList, Text.Legible c
    | _ => True
  stmt _ := True

theorem first_of_spelling {kind : Kind} {c : Char} {cs : List Char} (items : List Item)
    (hc : kind.spelling.toList = c :: cs) (hne : c ≠ '=') :
    ∃ c cs, chars (.token kind :: items) = c :: cs ∧ c ≠ '=' := by
  refine ⟨c, cs ++ chars items, ?_, hne⟩
  simp [chars, Item.text, hc]

theorem first_within {opening : Symbol} {c : Char} (closing : Symbol) (items : List Item)
    (hc : opening.chars = [c]) (hne : c ≠ '=') :
    ∃ c cs, chars (within opening closing items) = c :: cs ∧ c ≠ '=' :=
  first_of_spelling _ (String.toList_ofList.trans hc) hne

theorem first_word (reserved : Keyword) (items : List Item) :
    ∃ c cs, chars (word reserved :: items) = c :: cs ∧ c ≠ '=' := by
  cases reserved <;> exact first_of_spelling items rfl (by decide)

/-- No expression begins with the character that would make a longer symbol of a sign before it. -/
theorem Expr.first_ne_equal : (e : Expr) → e.Obeys .readable →
    ∃ c cs, chars e.items = c :: cs ∧ c ≠ '='
  | .int n, ho => by
    obtain ⟨hne, hdigits, -⟩ := Token.digits_of_nonneg ho
    obtain ⟨c, cs, hc⟩ := List.exists_cons_of_ne_nil hne
    refine first_of_spelling [] hc ?_
    rintro rfl
    cases hdigits '=' (hc ▸ List.mem_cons_self)
  | .str _, _ => first_of_spelling [] String.toList_ofList (by decide)
  | .bool true, _ => first_word .trueWord []
  | .bool false, _ => first_word .falseWord []
  | .null, _ => first_word .nullWord []
  | .var x, ho => by
    obtain ⟨⟨c, cs, hc, hstart, -⟩, -⟩ := ho
    refine first_of_spelling [] hc ?_
    rintro rfl
    cases hstart
  | .unary _ _, _ => by rw [Expr.items]; exact first_within _ _ rfl (by decide)
  | .binary _ _ _, _ => by rw [Expr.items]; exact first_within _ _ rfl (by decide)
  | .cond _ _ _, _ => by rw [Expr.items]; exact first_word .ifWord _
  | .fn _ _, _ => by rw [Expr.items]; exact first_word .fnWord _
  | .call callee args, ho => by
    obtain ⟨c, cs, hc, hne⟩ := callee.first_ne_equal ho.2.1
    exact ⟨c, _, by rw [Expr.items, Item.chars_append, hc, List.cons_append], hne⟩
  | .index _ _, _ => by rw [Expr.items]; exact first_within _ _ rfl (by decide)
  | .list _, _ => by rw [Expr.items]; exact first_within _ _ rfl (by decide)
  | .tuple [], _ => by rw [Expr.items]; exact first_within _ _ rfl (by decide); nofun
  | .tuple [_], _ => by rw [Expr.items]; exact first_within _ _ rfl (by decide)
  | .tuple (_ :: _ :: _), _ => by rw [Expr.items]; exact first_within _ _ rfl (by decide); nofun
  | .map _, _ => by rw [Expr.items]; exact first_within _ _ rfl (by decide)

theorem Scans.unary (op : UnaryOp) {P : Prop} {a : Expr} (ho : a.Obeys .readable)
    (h : Scans P a.items EndsWord) : Scans P (sign op.sign :: a.items) EndsWord := by
  refine ((Scans.symbol op.sign).seq h fun cs _ d hd => ?_).congr (iff_of_eq (true_and P))
  -- no space stands between the sign and its operand, so `!` must not run on into `!=`
  obtain ⟨c, ds, hc, hne⟩ := a.first_ne_equal ho
  obtain rfl : c = d := by simpa [hc] using hd
  refine ⟨?_, by cases op <;> nofun⟩
  cases op <;> simp [UnaryOp.sign, Symbol.ofChars?, Symbol.all, Symbol.chars, Ne.symm hne]

mutual

theorem Expr.scans : (e : Expr) → e.Obeys .readable →
    Scans (e.Obeys .legible) e.items EndsWord
  | .int _, ho => .int ho
  | .str text, _ => (Scans.str text).endsWord
  | .bool true, _ => .keyword .trueWord
  | .bool false, _ => .keyword .falseWord
  | .null, _ => .keyword .nullWord
  | .var _, ho => .name ho
  | .unary op a, ho => by
    have ha := (a.scans ho.2).unary op ho.2
    rw [Expr.items]
    exact (ha.within (by decide) (by decide)).endsWord.congr (by simp [Expr.Obeys, Rule.legible])
  | .binary op a b, ho => by
    have ha := (a.scans ho.2.1).append_solid (Solid.space.append (.symbol_space op.sign))
    have hab := ha.append (b.scans ho.2.2)
    rw [Expr.items]
    exact (hab.within (by decide) (by decide)).endsWord.congr (by simp [Expr.Obeys, Rule.legible])
  | .cond test body otherwise, ho => by
    have hif := (Scans.keyword .ifWord).append_solid .space
    have htest := (test.scans ho.2.1).append_solid .space
    have hbody := Scans.block .space (Stmt.scans_all body ho.2.2.1 (.symbol_space .semicolon))
    have helse := Stmt.scans_else otherwise ho.2.2.2
    rw [Expr.items]
    exact (hif.append_left ((htest.append hbody).append helse)).endsWord.congr
      (by simp [Expr.Obeys, Rule.legible, and_assoc])
  | .fn params body, ho => by
    have hbody := Scans.block .space (Stmt.scans_all body ho.2 (.symbol_space .semicolon))
    rw [Expr.items]
    exact ((Scans.signature ho.1.2).append_left hbody).endsWord.congr
      (by simp [Expr.Obeys, Rule.legible])
  | .call callee args, ho => by
    have hargs := Expr.scans_all args ho.2.2
    rw [Expr.items]
    exact ((callee.scans ho.2.1).append_within (by decide) (by decide) hargs).endsWord.congr
      (by simp [Expr.Obeys, Rule.legible])
  | .index target position, ho => by
    have hopen : Symbol.openBracket ∈ Symbol.solid := by decide
    have hclose : Symbol.closeBracket ∈ Symbol.solid := by decide
    have hs := (target.scans ho.2.1).append_within hopen hclose (position.scans ho.2.2)
    rw [Expr.items]
    exact (hs.endsWord.within (by decide) (by decide)).endsWord.congr
      (by simp [Expr.Obeys, Rule.legible])
  | .list elements, ho => by
    have hs := Expr.scans_all elements ho.2
    rw [Expr.items]
    exact (hs.within (by decide) (by decide)).endsWord.congr (by simp [Expr.Obeys, Rule.legible])
  | .tuple [], ho => by
    have hs : Scans True (within .openParen .closeParen []) AnyChar :=
      (Scans.nil EndsWord).within (by decide) (by decide)
    exact hs.endsWord.congr (by simp [Expr.Obeys, Rule.legible, Expr.ObeyAll])
  | .tuple [a], ho => by
    have ha := (a.scans ho.2.1).append_solid (.symbol (s := .comma) (by decide))
    rw [Expr.items]
    exact (ha.endsWord.within (by decide) (by decide)).endsWord.congr
      (by simp [Expr.Obeys, Rule.legible, Expr.ObeyAll])
  | .tuple (a :: b :: es), ho => by
    have hs := (a.scans ho.2.1).intercalate (.symbol_space .comma) (Expr.scans_all (b :: es) ho.2.2)
    rw [Expr.items, Expr.itemsAll]
    exact (hs.within (by decide) (by decide)).endsWord.congr
      (by simp [Expr.Obeys, Rule.legible, Expr.ObeyAll])
    nofun
  | .map pairs, ho => by
    have hs := Expr.scans_pairs pairs ho.2
    rw [Expr.items]
    exact (hs.within (by decide) (by decide)).endsWord.congr (by simp [Expr.Obeys, Rule.legible])

theorem Expr.scans_all : (es : List Expr) → Expr.ObeyAll .readable es →
    Scans (Expr.ObeyAll .legible es) (commas (Expr.itemsAll es)) EndsWord
  | [], _ => .nil EndsWord
  | a :: es, ho => (a.scans ho.1).intercalate (.symbol_space .comma) (Expr.scans_all es ho.2)

theorem Expr.scans_pairs : (pairs : List (Expr × Expr)) → Expr.ObeyPairs .readable pairs →
    Scans (Expr.ObeyPairs .legible pairs) (commas (Expr.itemsPairs pairs)) EndsWord
  | [], _ => .nil EndsWord
  | (a, b) :: pairs, ho => by
    have hpair := ((a.scans ho.1).append_solid (.symbol_space .colon)).append (b.scans ho.2.1)
    exact (hpair.intercalate (.symbol_space .comma) (Expr.scans_pairs pairs ho.2.2)).congr and_assoc

theorem Stmt.scans : (s : Stmt) → s.Obeys .readable → Scans (s.Obeys .legible) s.items EndsWord
  | .declare x a, ho => by
    have hname := (Scans.name ho.1).append_solid (Solid.space.append (.symbol_space .declare))
    exact (hname.append (a.scans ho.2)).congr (by simp [Stmt.Obeys, Rule.legible])
  | .assign x a, ho => by
    have hname := (Scans.name ho.1).append_solid (Solid.space.append (.symbol_space .assign))
    exact (hname.append (a.scans ho.2)).congr (by simp [Stmt.Obeys, Rule.legible])
  | .ret none, _ => .keyword .returnWord
  | .ret (some a), ho => by
    have hword := (Scans.keyword .returnWord).append_solid .space
    exact (hword.append (a.scans ho.2)).congr (by simp [Stmt.Obeys, Rule.legible])
  | .expr a, ho => (a.scans ho.2).congr (by simp [Stmt.Obeys, Rule.legible])

theorem Stmt.scans_all : (body : List Stmt) → Stmt.ObeyAll .readable body →
    ∀ {separator : List Item}, Solid separator →
      Scans (Stmt.ObeyAll .legible body) (separator.intercalate (Stmt.itemsAll body)) EndsWord
  | [], _, _, _ => .nil EndsWord
  | a :: body, ho, _, hsep => (a.scans ho.1).intercalate hsep (Stmt.scans_all body ho.2 hsep)

theorem Stmt.scans_else : (otherwise : Option (List Stmt)) → Stmt.ObeyElse .readable otherwise →
    Scans (Stmt.ObeyElse .legible otherwise) (Stmt.itemsElse otherwise) AnyChar
  | none, _ => .nil AnyChar
  | some body, ho => by
    have helse := Solid.space.scans.append_left ((Scans.keyword .elseWord).append_solid .space)
    have hbody := Scans.block .space (Stmt.scans_all body ho (.symbol_space .semicolon))
    exact helse.append_left hbody

end

end Tang
