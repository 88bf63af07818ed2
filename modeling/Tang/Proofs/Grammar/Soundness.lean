import Tang.Proofs.Grammar.Reading
import Tang.Proofs.Grammar.Rows
import Tang.Syntax.Parser.Expression

/-! Whatever the parsers of expressions accept is derived by the grammar. The loop over the suffixes
of an operand keeps this invariant: what has been read is of the stratum that the next suffix, if
there is one, requires of its left operand. -/

namespace Tang.Parser

open Token (Kind)
open Grammar

/-- The next token does not begin a suffix that binds tighter than `level`. -/
def Stops (level : Level) (r : List Kind) : Prop :=
  ∀ suffix, Suffix.ofKind? (next r) = some suffix → suffix.level ≤ level

/-- The stratum of what is read at a level. -/
def stratum (level : Level) : Nat :=
  min level Grammar.unary

section Parts

variable {sub : Level → Parser Expr} {Sub : Nat → List Kind → Expr → Prop}
  (hsub : ∀ level, Ensures (sub level) fun w e r => Sub (stratum level) w e ∧ Stops level r)

include hsub

theorem ensures_sub : Ensures (sub lowest) fun w e _ => Sub 0 w e :=
  (hsub lowest).imp fun _ _ _ h => h.1

theorem ensures_elements (closing : Symbol) :
    Ensures (elements sub closing) fun w es _ => Elements Sub closing w es := by
  refine ensures_repeated (Q := fun _ w es _ => Elements Sub closing w es)
    (fun next hnext _ => ?_) ()
  refine ensures_skipNewlines.and_then fun _ n hn => ?_
  refine ensures_take?_then nofun (ensures_pure fun r => .none hn) ?_
  refine (ensures_sub hsub).and_then fun e w he => ?_
  refine ensures_skipNewlines.and_then fun _ n' hn' => ?_
  refine ensures_take?_then nofun ?_ ?_
  · exact (hnext ()).map fun w' es _ hs => .next hn he hn' hs
  · refine ensures_expect_then nofun ?_
    exact ensures_pure fun r => .last hn he hn'

theorem ensures_pairs : Ensures (pairs sub) fun w ps _ => Pairs Sub w ps := by
  refine ensures_repeated (Q := fun _ w ps _ => Pairs Sub w ps) (fun next hnext _ => ?_) ()
  refine ensures_skipNewlines.and_then fun _ n hn => ?_
  refine ensures_take?_then nofun (ensures_pure fun r => .none hn) ?_
  refine (ensures_sub hsub).and_then fun a wa ha => ?_
  refine ensures_skipNewlines.and_then fun _ n₁ hn₁ => ?_
  refine ensures_expect_then nofun ?_
  refine ensures_skipNewlines.and_then fun _ n₂ hn₂ => ?_
  refine (ensures_sub hsub).and_then fun b wb hb => ?_
  have hpair := Pair.mk ha hn₁ hn₂ hb
  refine ensures_skipNewlines.and_then fun _ n' hn' => ?_
  refine ensures_take?_then nofun ?_ ?_
  · exact (hnext ()).map fun w' ps _ hs => by simpa using Pairs.next hn hpair hn' hs
  · refine ensures_expect_then nofun ?_
    exact ensures_pure fun r => by simpa using Pairs.last hn hpair hn'

omit hsub in
theorem ensures_nextParameters (params : List String) :
    Ensures (repeated nextParameters params) fun w xs _ =>
      ∃ ys, Parameters w ys ∧ xs = params ++ ys ∧ (params.Nodup → xs.Nodup) := by
  refine ensures_repeated (Q := fun params w xs _ => ∃ ys, Parameters w ys ∧ xs = params ++ ys ∧
    (params.Nodup → xs.Nodup)) (fun next hnext params => ?_) params
  refine ensures_skipNewlines.and_then fun _ n hn => ?_
  refine ensures_peek_then fun kind => ?_
  split
  · refine ensures_advance_then nofun (ensures_pure fun r => ?_)
    exact ⟨[], .none hn, (List.append_nil params).symm, id⟩
  · next x =>
    split
    · exact ensures_throw _
    · next hx =>
      have hnd (h : params.Nodup) : (params ++ [x]).Nodup := by
        rw [List.nodup_append]
        exact ⟨h, by simp, fun y hy z hz => by rintro rfl; exact hx (by simp_all)⟩
      refine ensures_advance_then nofun ?_
      refine ensures_skipNewlines.and_then fun _ n' hn' => ?_
      refine ensures_take?_then nofun ?_ ?_
      · refine (hnext _).imp fun w xs _ ⟨ys, hw, hxs, hxnd⟩ => ?_
        exact ⟨x :: ys, .next hn hn' hw, by rw [hxs]; simp, fun h => hxnd (hnd h)⟩
      · refine ensures_expect_then nofun (ensures_pure fun r => ?_)
        exact ⟨[x], .last hn hn', rfl, hnd⟩
  · exact ensures_throw _

omit hsub in
theorem ensures_parameters : Ensures parameters fun w xs _ => Parameters w xs ∧ xs.Nodup :=
  (ensures_nextParameters []).imp fun w xs _ ⟨ys, hw, hxs, hnd⟩ =>
    ⟨by rwa [hxs], hnd .nil⟩

theorem ensures_statement : Ensures (statement sub) fun w first _ => Statement Sub w first := by
  refine ensures_peek_peekNext_then fun kind kind' => ?_
  split
  · refine Ensures.imp (P := fun w first r => .keyword .returnWord = next (w ++ r) →
      Statement Sub w first) ?_ fun _ _ _ h he _ => h he
    refine ensures_advance_then nofun ?_
    refine ensures_peek_then fun found => ?_
    split
    · exact ensures_pure fun r _ => .ret
    · exact (ensures_sub hsub).map fun w e _ he _ => .retValue he
  · refine ensures_advance_then nofun (ensures_advance_then nofun ?_)
    refine ensures_skipNewlines.and_then fun _ n hn => ?_
    exact (ensures_sub hsub).map fun w e _ he => .declare hn he
  · refine ensures_advance_then nofun (ensures_advance_then nofun ?_)
    refine ensures_skipNewlines.and_then fun _ n hn => ?_
    exact (ensures_sub hsub).map fun w e _ he => .assign hn he
  · exact (ensures_sub hsub).map fun w e _ he _ _ => .expr he

theorem ensures_block (hstarts : ∀ {k w e}, Sub k w e → Starts w) :
    Ensures (block sub) fun w body _ => Block Sub w body := by
  have hall : Ensures (repeated (nextStatements sub) ()) fun w body _ =>
      ∃ v, w = v ++ [.symbol .closeBrace] ∧ Statements Sub v body := by
    refine ensures_repeated (Q := fun _ w body _ => ∃ v, w = v ++ [.symbol .closeBrace] ∧
      Statements Sub v body) (fun next hnext _ => ?_) ()
    refine ensures_skipSeparators.and_then fun _ s hs => ?_
    refine ensures_peek_then fun kind => ?_
    split
    · exact ensures_advance_then nofun (ensures_pure fun r => ⟨s, rfl, .none hs⟩)
    · exact ensures_throw _
    · refine (ensures_statement hsub).and_then fun first w hfirst => ?_
      refine (ensures_expectEnd true).bind fun _ we => ?_
      refine (hnext ()).map fun w' body r ⟨v, hv, hbody⟩ ⟨hwe, hend⟩ _ => ?_
      subst hv hwe
      refine ⟨s ++ (w ++ v), by simp, .cons hstarts hs hfirst hbody fun k hk => ?_⟩
      obtain ⟨v', rfl⟩ : ∃ v', v = k :: v' := by simpa [List.head?_eq_some_iff] using hk
      exact not_startsStatement_of_end (by simpa using hend)
  refine ensures_expect_then nofun (hall.imp ?_)
  rintro _ body r ⟨v, rfl, hbody⟩
  exact .mk hbody

theorem ensures_group :
    Ensures (group sub) fun w e _ => Phrase Sub postfixed (.symbol .openParen :: w) e := by
  refine ensures_skipNewlines.and_then fun _ n hn => ?_
  refine ensures_take?_then nofun (ensures_pure fun r => .unit hn) ?_
  refine (ensures_sub hsub).and_then fun e w he => ?_
  refine ensures_skipNewlines.and_then fun _ n' hn' => ?_
  refine ensures_take?_then nofun ?_ ?_
  · exact (ensures_elements hsub _).map fun w' es _ hs => .tuple hn he hn' hs
  · exact ensures_expect_then nofun (ensures_pure fun r => .group hn he hn')

theorem ensures_conditional (hstarts : ∀ {k w e}, Sub k w e → Starts w) :
    Ensures (conditional sub) fun w e _ => Conditional Sub w e := by
  refine ensures_repeated (Q := fun _ w e _ => Conditional Sub w e) (fun next hnext _ => ?_) ()
  refine (ensures_sub hsub).and_then fun test w htest => ?_
  refine (ensures_block hsub hstarts).and_then fun body b hbody => ?_
  refine ensures_takeElse?.and_then fun taken n hn => ?_
  cases taken with
  | false =>
    obtain rfl : n = [] := hn
    exact ensures_pure fun r => by simpa using .plain htest hbody
  | true =>
    obtain ⟨n, hn, rfl⟩ := hn
    refine ensures_take?_then nofun ?_ ?_
    · exact (hnext ()).map fun w' e _ he => by simpa using .chain htest hbody hn he
    · exact (ensures_block hsub hstarts).map fun b' body' _ hbody' => by
        simpa using .otherwise htest hbody hn hbody'

theorem ensures_function (hstarts : ∀ {k w e}, Sub k w e → Starts w) :
    Ensures (function sub) fun w e _ => Phrase Sub postfixed (.keyword .fnWord :: w) e := by
  refine ensures_expect_then nofun ?_
  refine ensures_parameters.and_then fun params w hparams => ?_
  exact (ensures_block hsub hstarts).map fun b body _ hbody => .fn hparams.1 hparams.2 hbody

/-- Only an operator before its operand leaves an operand that no call and no index may follow. -/
theorem ensures_operand (hstarts : ∀ {k w e}, Sub k w e → Starts w) :
    Ensures (operand sub) fun w e r => Phrase Sub postfixed w e ∨
      Phrase Sub Grammar.unary w e ∧ Stops unaryLevel r := by
  refine ensures_peek_then fun kind => ?_
  cases kind with
  | int => exact ensures_advance_then nofun (ensures_pure fun r => .inl .int)
  | str => exact ensures_advance_then nofun (ensures_pure fun r => .inl .str)
  | name => exact ensures_advance_then nofun (ensures_pure fun r => .inl .var)
  | keyword word =>
    cases word with
    | trueWord => exact ensures_advance_then nofun (ensures_pure fun r => .inl .true)
    | falseWord => exact ensures_advance_then nofun (ensures_pure fun r => .inl .false)
    | nullWord => exact ensures_advance_then nofun (ensures_pure fun r => .inl .null)
    | ifWord =>
      exact ensures_advance_then nofun
        ((ensures_conditional hsub hstarts).imp fun w e r h => .inl (.cond h))
    | fnWord =>
      exact ensures_advance_then nofun ((ensures_function hsub hstarts).imp fun w e r h => .inl h)
    | elseWord | returnWord => exact ensures_throw _
  | symbol s =>
    cases s with
    | bang =>
      exact ensures_advance_then nofun
        ((hsub unaryLevel).map fun w e r h => .inr ⟨.unary .not h.1, h.2⟩)
    | minus =>
      exact ensures_advance_then nofun
        ((hsub unaryLevel).map fun w e r h => .inr ⟨.unary .negate h.1, h.2⟩)
    | openParen => exact ensures_advance_then nofun ((ensures_group hsub).imp fun w e r h => .inl h)
    | openBracket =>
      exact ensures_advance_then nofun
        ((ensures_elements hsub _).map fun w es r h => .inl (.list h))
    | openBrace =>
      exact ensures_advance_then nofun ((ensures_pairs hsub).map fun w ps r h => .inl (.map h))
    | _ => exact ensures_throw _
  | newline | endOfInput => exact ensures_throw _

end Parts

/-! ### Suffixes -/

namespace Suffix

/-- The token that begins a suffix. -/
def kind : Suffix → Kind
  | .call => .symbol .openParen
  | .index => .symbol .openBracket
  | .binary op => .symbol op.sign

theorem ofKind?_eq_some_iff {kind : Kind} {suffix : Suffix} :
    ofKind? kind = some suffix ↔ kind = suffix.kind := by
  constructor
  · intro h
    unfold ofKind? at h
    split at h <;> cases h <;> rfl
  · rintro rfl
    rcases suffix with _ | _ | op
    · rfl
    · rfl
    · cases op <;> rfl

theorem kind_ne_endOfInput (suffix : Suffix) : suffix.kind ≠ .endOfInput := by
  cases suffix <;> nofun

theorem level_binary (op : BinaryOp) : (Suffix.binary op).level = op.stratum + 1 := by
  cases op <;> rfl

theorem stratum_lt_unary (op : BinaryOp) : op.stratum < Grammar.unary := by
  cases op <;> decide

end Suffix

section Suffixes

variable {sub : Level → Parser Expr} {Sub : Nat → List Kind → Expr → Prop}
  (hsub : ∀ level, Ensures (sub level) fun w e r => Sub (stratum level) w e ∧ Stops level r)

/-- What has been read may be the left operand of the next suffix. -/
def Ready (Sub : Nat → List Kind → Expr → Prop) (w : List Kind) (e : Expr) (r : List Kind) : Prop :=
  ∀ suffix, Suffix.ofKind? (next r) = some suffix → Phrase Sub (suffix.level - 1) w e

theorem ready_of_postfixed {w : List Kind} {e : Expr} {r : List Kind}
    (h : Phrase Sub postfixed w e) : Ready Sub w e r := by
  intro suffix _
  apply h.weaken_le
  rcases suffix with _ | _ | op
  · decide
  · decide
  · cases op <;> decide

include hsub

theorem ensures_grown (left : Expr) (suffix : Suffix) :
    Ensures (grown sub left suffix) fun w e r =>
      ∀ w₀, Phrase Sub (suffix.level - 1) w₀ left →
        Phrase Sub (suffix.level - 1) (w₀ ++ suffix.kind :: w) e ∧
          Ready Sub (w₀ ++ suffix.kind :: w) e r := by
  rcases suffix with _ | _ | op
  · refine (ensures_elements hsub _).map fun w args r hargs w₀ hleft => ?_
    have hcall : Phrase Sub postfixed _ _ := .call hleft hargs
    exact ⟨hcall, ready_of_postfixed hcall⟩
  · refine ensures_skipNewlines.and_then fun _ n hn => ?_
    refine (ensures_sub hsub).and_then fun position w hposition => ?_
    refine ensures_skipNewlines.and_then fun _ n' hn' => ?_
    refine ensures_expect_then nofun (ensures_pure fun r w₀ hleft => ?_)
    have hindex : Phrase Sub postfixed _ _ := .index hleft hn hposition hn'
    exact ⟨hindex, ready_of_postfixed hindex⟩
  · refine ensures_skipNewlines.and_then fun _ n hn => ?_
    refine (hsub _).map fun w right r ⟨hright, hstops⟩ w₀ hleft => ?_
    rw [Suffix.level_binary] at hright hleft ⊢
    have hlt := Suffix.stratum_lt_unary op
    rw [stratum, Nat.min_eq_left (by omega)] at hright
    have hbinary : Phrase Sub op.stratum _ _ := .binary hleft hn hright
    refine ⟨hbinary, fun suffix' hs => hbinary.weaken_le ?_⟩
    have hle := hstops suffix' hs
    rw [Suffix.level_binary] at hle
    exact Nat.sub_le_of_le_add hle

theorem ensures_nextSuffixes (level : Level) (left : Expr) :
    Ensures (repeated (nextSuffixes sub level) left) fun w e r =>
      ∀ w₀, Phrase Sub (stratum level) w₀ left → Ready Sub w₀ left (w ++ r) →
        Phrase Sub (stratum level) (w₀ ++ w) e ∧ Stops level r := by
  refine ensures_repeated (Q := fun left w e r =>
    ∀ w₀, Phrase Sub (stratum level) w₀ left → Ready Sub w₀ left (w ++ r) →
      Phrase Sub (stratum level) (w₀ ++ w) e ∧ Stops level r) (fun next hnext left => ?_) left
  refine ensures_peek_then fun kind => ?_
  split
  · next suffix hsuffix =>
    split
    · next hlt =>
      obtain rfl := Suffix.ofKind?_eq_some_iff.1 hsuffix
      have hbase : stratum level ≤ suffix.level - 1 :=
        Nat.le_trans (Nat.min_le_left _ _) (Nat.le_sub_one_of_lt hlt)
      apply ensures_advance_then (Suffix.kind_ne_endOfInput suffix)
      refine (ensures_grown hsub left suffix).bind fun left' w₁ => ?_
      refine (hnext left').imp fun w e r hloop hgrown w₀ _ hready => ?_
      have hleft := hready suffix (by simp [hsuffix])
      obtain ⟨hleft', hready'⟩ := hgrown w₀ hleft
      have hend := hloop _ (hleft'.weaken_le hbase) hready'
      rwa [List.append_assoc] at hend
    · next hle =>
      refine ensures_pure fun r hkind w₀ hleft _ => ⟨by rwa [List.append_nil], ?_⟩
      intro suffix' hs'
      rw [List.nil_append] at hkind
      rw [← hkind, hsuffix] at hs'
      obtain rfl := Option.some.inj hs'
      exact Nat.le_of_not_lt hle
  · next hsuffix =>
    refine ensures_pure fun r hkind w₀ hleft _ => ⟨by rwa [List.append_nil], ?_⟩
    intro suffix' hs'
    rw [List.nil_append] at hkind
    rw [← hkind, hsuffix] at hs'
    cases hs'

theorem ensures_operators (hstarts : ∀ {k w e}, Sub k w e → Starts w) (level : Level) :
    Ensures (operators sub level) fun w e r =>
      Phrase Sub (stratum level) w e ∧ Stops level r := by
  refine (ensures_operand hsub hstarts).bind fun first w₀ => ?_
  refine (ensures_nextSuffixes hsub level first).imp fun w e r hloop hfirst => ?_
  have hstratum : stratum level ≤ Grammar.unary := Nat.min_le_right _ _
  rcases hfirst with hfirst | ⟨hfirst, hstops⟩
  · exact hloop w₀ (hfirst.weaken_le (Nat.le_succ_of_le hstratum)) (ready_of_postfixed hfirst)
  · refine hloop w₀ (hfirst.weaken_le hstratum) fun suffix hs => hfirst.weaken_le ?_
    exact Nat.sub_le_of_le_add (hstops suffix hs)

end Suffixes

/-- An expression that is accepted is derived, and no suffix that belongs to it follows. -/
theorem ensures_expression (depth : Nat) (level : Level) :
    Ensures (expression depth level) fun w e r =>
      Expression depth (stratum level) w e ∧ Stops level r := by
  induction depth generalizing level with
  | zero => exact ensures_throw _
  | succ depth ih => exact ensures_operators ih Expression.starts level

end Tang.Parser
