import Tang.Proofs.Heap.Session
import Tang.Proofs.Written.Scanning
import Tang.Value.Printer

/-! A program that has been read is written and read again as the same program, unless one of its
string literals has a character that is written in a way that is not read. The same holds of the
functions that programs create. -/

namespace Tang

open Token (scanFrom EndsWord AnyChar)
open Item (kinds chars)

/-! ### Texts of items -/

theorem Scans.scan_ok {P : Prop} {items : List Item} {f : Char → Prop} (h : Scans P items f)
    (hP : P) : ∃ tokens last, Token.scan (Item.render items) = .ok (tokens ++ [last]) ∧
      last.kind = .endOfInput ∧ tokens.map Token.kind = kinds items := by
  obtain ⟨offset, more, hmore, hscan⟩ := h.ok hP 0 #[] [] nofun
  refine ⟨more.toList, ⟨.endOfInput, offset, offset⟩, ?_, rfl, hmore⟩
  rw [List.append_nil, Array.empty_append, scanFrom] at hscan
  rw [Token.scan, Item.toList_render, hscan]
  simp [Except.map]

theorem Scans.scan_error {P : Prop} {items : List Item} {f : Char → Prop} (h : Scans P items f)
    (hP : ¬ P) : ∃ e place, (e = '0' ∨ e = 'u') ∧
      Token.scan (Item.render items) = .error ⟨.unsupportedEscape e, place⟩ := by
  obtain ⟨e, place, he, hscan⟩ := h.error hP 0 #[] [] nofun
  refine ⟨e, place, he, ?_⟩
  rw [List.append_nil] at hscan
  rw [Token.scan, Item.toList_render, hscan]
  rfl

/-- A text is read as the program that the grammar derives from its tokens. -/
theorem Program.parse_of_scan {source : String} {tokens : List Token} {last : Token}
    {program : Program} (hscan : Token.scan source = .ok (tokens ++ [last]))
    (hlast : last.kind = .endOfInput)
    (hd : Grammar.Derives maxNesting (tokens.map Token.kind) program) (file : String) :
    Program.parse file source = .ok program := by
  have hend (token : Token) (ht : token ∈ tokens) : token.kind ≠ .endOfInput := by
    intro he
    exact hd.noEnd Grammar.Expression.noEnd (he ▸ List.mem_map_of_mem ht)
  have hread : Program.ofTokens (tokens ++ [last]) = .ok program :=
    (Program.ofTokens_eq_ok_iff hend hlast).2 hd
  unfold Program.parse
  rw [hscan]
  exact Program.ofTokens_of_parseTokens.2 hread

/-- Legible items from which the grammar derives a program are read as this program. -/
theorem Program.parse_render_items {P : Prop} {items : List Item} {f : Char → Prop}
    {program : Program} (hs : Scans P items f) (hP : P)
    (hd : Grammar.Derives maxNesting (kinds items) program) (file : String) :
    Program.parse file (Item.render items) = .ok program := by
  obtain ⟨tokens, last, hscan, hlast, hkinds⟩ := hs.scan_ok hP
  rw [← hkinds] at hd
  exact Program.parse_of_scan hscan hlast hd file

/-! ### Written trees -/

theorem Program.derives_items {program : Program} (ho : Stmt.ObeyAll .readable program)
    (hh : Stmt.heightAll program ≤ 500) :
    Grammar.Derives maxNesting (kinds program.items) program := by
  have hn : 2 * Stmt.heightAll program ≤ maxNesting + 1 := by
    show 2 * Stmt.heightAll program ≤ 1000 + 1
    omega
  have hs : Grammar.Statements (Grammar.Expression maxNesting)
      ([] ++ (kinds ([.token .newline].intercalate (Stmt.itemsAll program)) ++ [])) program :=
    Stmt.derives_all program ho maxNesting hn [.token .newline] rfl rfl separators_nil
      separators_nil
  rw [List.nil_append, List.append_nil] at hs
  exact hs

theorem Item.derives_function {params : List String} {body : List Stmt}
    (ho : (Expr.fn params body).Obeys .readable) (hh : Stmt.heightAll body ≤ 500) :
    Grammar.Derives maxNesting (kinds (Item.function params body)) [.expr (.fn params body)] := by
  have hn : 2 * Stmt.heightAll body ≤ 999 + 1 := by omega
  have hgap : Grammar.Separators (kinds [.token .newline]) := by
    simp [Grammar.Separators, Token.Kind.isSeparator]
  have hbody := block_of_statements (Stmt.derives_all body ho.2 999 hn _ rfl rfl hgap hgap)
  have hfn : Grammar.Expression maxNesting Grammar.postfixed
      (kinds (Item.function params body)) (.fn params body) := by
    refine .of_phrase (by decide) ?_
    show Grammar.Phrase (Grammar.Expression 999) _ _ _
    simpa [Item.function, Item.signature] using
      Grammar.Phrase.fn (parameters_commas params) ho.1.1 hbody
  exact .last (s := []) separators_nil (.expr (hfn.weaken_le (Nat.zero_le _)))

/-! ### The round trip -/

theorem Program.scans_items {program : Program} (ho : Stmt.ObeyAll .readable program) :
    Scans (Stmt.ObeyAll .legible program) program.items EndsWord :=
  Stmt.scans_all program ho .newline

theorem Item.scans_function {params : List String} {body : List Stmt}
    (ho : (Expr.fn params body).Obeys .readable) :
    Scans (Stmt.ObeyAll .legible body) (Item.function params body) AnyChar :=
  (Scans.signature ho.1.2).append_left
    (.block .newline (Stmt.scans_all body ho.2 (.symbol_space .semicolon)))

/-- The functions that there can be: those made from a function literal of a program that is
accepted, and those that a session holds in a binding or as what a program came to. -/
inductive Closure.Arises (f : Closure) : Prop where
  | literal {file source : String} {program : Program} :
    Program.parse file source = .ok program →
      Stmt.ContainAll (.fn f.params f.body) program → f.Arises
  | bound {world : World} {scope : ScopeId} {x : String} {value : Value} : Session world →
      world.scopes.get? scope x = some value → value.Holds f → f.Arises
  | outcome {world world' : World} {file source : String} {program : Program} {scope : ScopeId}
      {limit : Nat} {value : Value} : Session world → Program.parse file source = .ok program →
      scope < world.scopes.size →
      program.runIn limit scope world = (.value (some value), world') → value.Holds f → f.Arises

theorem Closure.Arises.readable {f : Closure} (h : f.Arises) :
    (Expr.fn f.params f.body).Obeys .readable := by
  cases h with
  | literal hp hf => exact hf.obeys (Program.readable_of_parse hp)
  | bound hw hv hf =>
    have hsound := hw.sound Program.readable_of_parse
    exact (hsound.fits_of_get? hv f hf).2
  | outcome hw hp hs hrun hf =>
    have hsound := hw.sound Program.readable_of_parse
    have hfits := (Program.runIn_sound (Program.readable_of_parse hp) hsound hs hrun).2 _ rfl
    exact (hfits f hf).2

/-- The written form of an accepted program whose trees have heights of at most 500 is read as the
same program if the string literals are legible, and is otherwise rejected with one diagnostic for
an escape sequence. The written form of a function with such a body is read as the literal that
makes the function. -/
theorem Program.parse_render (file : String) :
    (∀ file' source program, Program.parse file' source = .ok program →
      Stmt.heightAll program ≤ 500 →
        (Stmt.ObeyAll .legible program → Program.parse file program.render = .ok program) ∧
        (¬ Stmt.ObeyAll .legible program → ∃ e line, (e = '0' ∨ e = 'u') ∧
          Program.parse file program.render = .error [.lexical
            ("Unsupported escape sequence '\\" ++ e.toString ++ "'") (some ⟨file, line⟩)])) ∧
    (∀ f : Closure, f.Arises → Stmt.heightAll f.body ≤ 500 → Stmt.ObeyAll .legible f.body →
      Program.parse file (Value.function f).render = .ok [.expr (.fn f.params f.body)]) := by
  constructor
  · intro file' source program hp hh
    have ho := Program.readable_of_parse hp
    have hs := Program.scans_items ho
    constructor
    · intro hlegible
      exact Program.parse_render_items hs hlegible (Program.derives_items ho hh) file
    · intro hlegible
      obtain ⟨e, place, he, hscan⟩ := hs.scan_error hlegible
      refine ⟨e, Text.lineAt program.render place, he, ?_⟩
      unfold Program.parse Program.render
      rw [hscan]
      rfl
  · intro f hf hh hlegible
    have ho := hf.readable
    exact Program.parse_render_items (Item.scans_function ho) hlegible
      (Item.derives_function ho hh) file

theorem Program.parse_render_lineBreak :
    Program.parse "a" "fn(x)\x7b\"\\n\"\x7d" = .ok [.expr (.fn ["x"] [.expr (.str "\n")])] ∧
      Program.parse "b" (Program.render [.expr (.fn ["x"] [.expr (.str "\n")])]) =
        .ok [.expr (.fn ["x"] [.expr (.str "\n")])] ∧
      Program.parse "b" (Value.function ⟨0, ["x"], [.expr (.str "\n")], World.global⟩).render =
        .ok [.expr (.fn ["x"] [.expr (.str "\n")])] ∧
      Program.parse "a" "\"\x01\"" = .ok [.expr (.str "\x01")] ∧
      ∃ e line, (e = '0' ∨ e = 'u') ∧ Program.parse "b" (Program.render [.expr (.str "\x01")]) =
        .error [.lexical ("Unsupported escape sequence '\\" ++ e.toString ++ "'")
          (some ⟨"b", line⟩)] := by
  have hscan : Token.scan "fn(x)\x7b\"\\n\"\x7d" =
      .ok ([⟨.keyword .fnWord, 0, 2⟩, ⟨.symbol .openParen, 2, 3⟩, ⟨.name "x", 3, 4⟩,
        ⟨.symbol .closeParen, 4, 5⟩, ⟨.symbol .openBrace, 5, 6⟩, ⟨.str "\n", 6, 10⟩,
        ⟨.symbol .closeBrace, 10, 11⟩] ++ [⟨.endOfInput, 11, 11⟩]) := by decide +kernel
  have hscan' : Token.scan "\"\x01\"" = .ok ([⟨.str "\x01", 0, 3⟩] ++ [⟨.endOfInput, 3, 3⟩]) := by
    decide +kernel
  have hname : IsName "x" := ⟨⟨'x', [], rfl, rfl, by simp⟩, rfl⟩
  have hreadable : Stmt.ObeyAll .readable [.expr (.fn ["x"] [.expr (.str "\n")])] :=
    ⟨⟨trivial, ⟨by simp, by simpa using hname⟩, ⟨trivial, trivial⟩, trivial⟩, trivial⟩
  have hreadable' : Stmt.ObeyAll .readable [.expr (.str "\x01")] := ⟨⟨trivial, trivial⟩, trivial⟩
  have hderives := Program.derives_items hreadable (by decide)
  have hderives' := Program.derives_items hreadable' (by decide)
  have hparse := Program.parse_of_scan hscan rfl hderives "a"
  have hparse' := Program.parse_of_scan hscan' rfl hderives' "a"
  have htext : Text.Legible '\n' := by decide +kernel
  have htext' : ¬ Text.Legible '\x01' := by decide +kernel
  have hbody : Stmt.ObeyAll .legible [.expr (.str "\n")] :=
    ⟨⟨trivial, fun c hc => by simp_all⟩, trivial⟩
  have hcontains : Stmt.ContainAll (.fn ["x"] [.expr (.str "\n")])
      [.expr (.fn ["x"] [.expr (.str "\n")])] := fun h => h.1.2.1 rfl
  obtain ⟨hprograms, hfunctions⟩ := Program.parse_render "b"
  have hprogram := (hprograms "a" _ _ hparse (by decide)).1 ⟨⟨trivial, trivial, hbody⟩, trivial⟩
  have hfunction := hfunctions ⟨0, ["x"], [.expr (.str "\n")], World.global⟩
    (.literal hparse hcontains) (by decide) hbody
  have herror := (hprograms "a" _ _ hparse' (by decide)).2 fun h => htext' (h.1.2 _ (by simp))
  exact ⟨hparse, hprogram, hfunction, hparse', herror⟩

end Tang
