import Tang.Proofs.Grammar.Soundness

/-! Whatever the grammar derives is accepted, with the tree of the derivation, provided that what
follows does not belong to it as well: a suffix that binds tightly enough, or the word `else` after
an `if` without one. -/

namespace Tang.Parser

open Token (Kind)
open Grammar

/-! ### What follows -/

/-- Neither a suffix tighter than `level` nor the word `else` comes next. -/
def Ends (level : Level) (r : List Kind) : Prop :=
  Stops level r ∧ NoElse r

theorem Stops.mono {level level' : Level} {r : List Kind} (h : Stops level r)
    (hle : level ≤ level') : Stops level' r :=
  fun suffix hs => Nat.le_trans (h suffix hs) hle

theorem noElse_cons {kind : Kind} {r : List Kind} (hn : kind.isNewline = false)
    (he : kind ≠ .keyword .elseWord) : NoElse (kind :: r) := by
  rw [NoElse, List.dropWhile_cons_of_neg (by simp [hn])]
  exact he

theorem noElse_append {n r : List Kind} (hn : Newlines n) (h : NoElse r) : NoElse (n ++ r) := by
  rw [NoElse, List.dropWhile_append_of_pos hn]
  exact h

theorem noElse_separators {s r : List Kind} (hs : Separators s) (h : NoElse r) :
    NoElse (s ++ r) := by
  induction s with
  | nil => exact h
  | cons kind s ih =>
    have hkind := hs kind List.mem_cons_self
    have ih := ih fun kind hm => hs kind (List.mem_cons_of_mem _ hm)
    by_cases hn : kind.isNewline = true
    · exact noElse_append (n := [kind]) (by simpa [Newlines] using hn) ih
    · apply noElse_cons (by simpa using hn)
      rintro rfl
      cases hkind

/-- A symbol, possibly after line ends, that begins no suffix. -/
theorem ends_symbol {level : Level} {n r : List Kind} {sign : Symbol} (hn : Newlines n)
    (hs : Suffix.ofKind? (.symbol sign) = none) : Ends level (n ++ .symbol sign :: r) := by
  refine ⟨fun suffix h => ?_, noElse_append hn (noElse_cons rfl nofun)⟩
  cases n with
  | nil =>
    rw [List.nil_append, next_cons, hs] at h
    cases h
  | cons kind n =>
    have hkind : kind = .newline := by simpa [Kind.isNewline] using hn kind List.mem_cons_self
    rw [hkind] at h
    cases h

theorem ends_suffix (suffix : Suffix) (r : List Kind) :
    Ends suffix.level (suffix.kind :: r) := by
  refine ⟨fun suffix' hs => ?_, noElse_cons ?_ ?_⟩
  · rw [next_cons, Suffix.ofKind?_eq_some_iff.2 rfl] at hs
    obtain rfl := Option.some.inj hs
    exact Nat.le_refl _
  · cases suffix <;> rfl
  · cases suffix <;> nofun

/-! ### First tokens -/

theorem starts_next {w : List Kind} (h : Starts w) (r : List Kind) :
    starts (next (w ++ r)) = true := by
  obtain ⟨kind, w', rfl, hk⟩ := h
  exact hk

theorem ne_of_starts {kind kind' : Kind} (h : starts kind = true) (h' : starts kind' = false) :
    kind ≠ kind' := by
  rintro rfl
  rw [h] at h'
  cases h'

theorem not_isNewline_of_starts {kind : Kind} (h : starts kind = true) :
    kind.isNewline = false := by
  refine Bool.eq_false_iff.2 fun hn => ?_
  exact ne_of_starts h (show starts .newline = false from rfl) (by simpa [Kind.isNewline] using hn)

/-! ### Parts of expressions -/

/-- What the parser of the nested expressions has to satisfy. -/
structure Accepts (sub : Level → Parser Expr) (Sub : Nat → List Kind → Expr → Prop) : Prop where
  starts {k : Nat} {w : List Kind} {e : Expr} : Sub k w e → Starts w
  second {k : Nat} {x : String} {w : List Kind} {e : Expr} : Sub k (.name x :: w) e →
    w.head? ≠ some (.symbol .declare) ∧ w.head? ≠ some (.symbol .assign)
  reads {level : Level} {w : List Kind} {e : Expr} {rest : List Token} : level ≤ unaryLevel →
    Sub (stratum level) w e → Ends level (kinds rest) → Reads (sub level) w e rest

section Parts

variable {sub : Level → Parser Expr} {Sub : Nat → List Kind → Expr → Prop} (hsub : Accepts sub Sub)
  {β : Type} {w w' : List Kind} {e : Expr} {b : β} {rest : List Token}

include hsub

theorem reads_sub {f : Expr → Parser β} (he : Sub 0 w e) (hends : Ends lowest (w' ++ kinds rest))
    (hf : Reads (f e) w' b rest) : Reads (sub lowest >>= f) (w ++ w') b rest := by
  refine Reads.bind (fun used hu => ?_) hf
  exact hsub.reads (Nat.zero_le _) he (by rwa [kinds_append, hu])

/-- Line ends before an expression are skipped. -/
theorem reads_skipNewlines_sub {f : Unit → Parser β} {n : List Kind} (hn : Newlines n)
    (he : Sub 0 w e) (hf : Reads (f ()) (w ++ w') b rest) :
    Reads (skipNewlines >>= f) (n ++ (w ++ w')) b rest := by
  refine reads_skipNewlines hn ?_ hf
  rw [List.append_assoc]
  exact not_isNewline_of_starts (starts_next (hsub.starts he) _)

/-- A token with which no expression starts does not come next. -/
theorem reads_not_take?_sub {p q : Parser β} {kind : Kind} (hk : starts kind = false)
    (he : Sub 0 w e) (hq : Reads q (w ++ w') b rest) :
    Reads (take? kind >>= fun taken => if taken = true then p else q) (w ++ w') b rest := by
  refine reads_not_take? ?_ hq
  rw [List.append_assoc]
  exact ne_of_starts (starts_next (hsub.starts he) _) hk

theorem reads_elements {closing : Symbol} {es : List Expr}
    (hc : closing = .closeParen ∨ closing = .closeBracket) (h : Elements Sub closing w es) :
    Reads (elements sub closing) w es rest := by
  have hends {n r : List Kind} (hn : Newlines n) :
      Ends lowest (n ++ .symbol closing :: r) := by
    rcases hc with rfl | rfl <;> exact ends_symbol hn rfl
  have hstarts : starts (.symbol closing) = false := by rcases hc with rfl | rfl <;> rfl
  have hcomma : Kind.symbol closing ≠ .symbol .comma := by rcases hc with rfl | rfl <;> nofun
  induction h with
  | none hn =>
    refine reads_repeated fun next _ => ?_
    exact reads_skipNewlines hn rfl (reads_take? (reads_pure _))
  | last hn he hn' =>
    refine reads_repeated fun next _ => ?_
    apply reads_skipNewlines_sub hsub hn he
    refine reads_not_take?_sub hsub hstarts he ?_
    apply reads_sub hsub he (by rw [List.append_assoc]; exact hends hn')
    apply reads_skipNewlines hn' rfl
    exact reads_not_take? hcomma (reads_expect (reads_pure _))
  | next hn he hn' hs ih =>
    refine reads_repeated fun next hnext => ?_
    apply reads_skipNewlines_sub hsub hn he
    refine reads_not_take?_sub hsub hstarts he ?_
    apply reads_sub hsub he (by rw [List.append_assoc]; exact ends_symbol hn' rfl)
    apply reads_skipNewlines hn' rfl
    refine reads_take? (Reads.map (hnext () _ _ ?_ ih))
    simp only [List.length_append, List.length_cons]
    omega

/-- One key with its value, before a comma or the closing brace. -/
theorem reads_nextPairs {n n' : List Kind} {p : Expr × Expr} {ps : List (Expr × Expr)}
    {sign : Symbol} {more : Unit → Parser (List (Expr × Expr))} (hn : Newlines n)
    (hpair : Pair Sub w p) (hn' : Newlines n') (hs : Suffix.ofKind? (.symbol sign) = none)
    (hmore : Reads (do
      if ← take? (.symbol .comma) then
        return p :: (← more ())
      else
        expect (.symbol .closeBrace)
        return [p]) (.symbol sign :: w') ps rest) :
    Reads (nextPairs sub more ()) (n ++ (w ++ (n' ++ .symbol sign :: w'))) ps rest := by
  obtain ⟨ha, hn₁, hn₂, hb⟩ := hpair
  simp only [List.append_assoc, List.cons_append]
  apply reads_skipNewlines_sub hsub hn ha
  refine reads_not_take?_sub hsub rfl ha ?_
  apply reads_sub hsub ha (by simpa using ends_symbol hn₁ rfl)
  refine reads_skipNewlines hn₁ rfl (reads_expect ?_)
  apply reads_skipNewlines_sub hsub hn₂ hb
  apply reads_sub hsub hb (by simpa using ends_symbol hn' hs)
  exact reads_skipNewlines hn' rfl hmore

theorem reads_pairs {ps : List (Expr × Expr)} (h : Pairs Sub w ps) :
    Reads (pairs sub) w ps rest := by
  induction h with
  | none hn =>
    refine reads_repeated fun next _ => ?_
    exact reads_skipNewlines hn rfl (reads_take? (reads_pure _))
  | last hn hpair hn' =>
    refine reads_repeated fun next _ => ?_
    apply reads_nextPairs hsub hn hpair hn' rfl
    exact reads_not_take? nofun (reads_expect (reads_pure _))
  | next hn hpair hn' _ ih =>
    refine reads_repeated fun next hnext => ?_
    apply reads_nextPairs hsub hn hpair hn' rfl
    refine reads_take? (Reads.map (hnext () _ _ ?_ ih))
    simp only [List.length_append, List.length_cons]
    omega

omit hsub in
theorem reads_parameters (params : List String) {xs : List String} (h : Parameters w xs)
    (hnd : (params ++ xs).Nodup) :
    Reads (repeated nextParameters params) w (params ++ xs) rest := by
  have hfresh {params xs : List String} {x : String} (hnd : (params ++ x :: xs).Nodup) :
      x ∉ params := by
    intro hx
    have hne := (List.nodup_append.1 hnd).2.2
    exact hne x hx x List.mem_cons_self rfl
  induction h generalizing params with
  | none hn =>
    refine reads_repeated fun next _ => ?_
    refine reads_skipNewlines hn rfl (reads_peek (reads_advance ?_))
    rw [List.append_nil]
    exact reads_pure _
  | last hn hn' =>
    refine reads_repeated fun next _ => ?_
    refine reads_skipNewlines hn rfl (reads_peek ?_)
    simp only [List.cons_append, next_cons, if_neg (hfresh hnd)]
    refine reads_advance (reads_skipNewlines hn' rfl ?_)
    exact reads_not_take? nofun (reads_expect (reads_pure _))
  | @next _ _ _ x xs hn hn' _ ih =>
    refine reads_repeated fun next hnext => ?_
    refine reads_skipNewlines hn rfl (reads_peek ?_)
    simp only [List.cons_append, next_cons, if_neg (hfresh hnd)]
    refine reads_advance (reads_skipNewlines hn' rfl (reads_take? (hnext _ _ _ ?_ ?_)))
    · simp only [List.length_append, List.length_cons]
      omega
    · have hassoc : params ++ x :: xs = params ++ [x] ++ xs := by simp
      rw [hassoc] at hnd ⊢
      exact ih _ hnd

/-! ### Statements -/

/-- Where a statement may end. -/
def AtEnd (r : List Kind) : Prop :=
  (next r).isSeparator = true ∨ next r = .endOfInput ∨ next r = .symbol .closeBrace

omit hsub in
theorem AtEnd.stops {r : List Kind} (h : AtEnd r) (level : Level) : Stops level r := by
  intro suffix hs
  rw [Suffix.ofKind?_eq_some_iff] at hs
  rw [AtEnd, hs] at h
  rcases suffix with _ | _ | op
  · simp [Suffix.kind, Kind.isSeparator] at h
  · simp [Suffix.kind, Kind.isSeparator] at h
  · cases op <;> simp [Suffix.kind, Kind.isSeparator, BinaryOp.sign] at h

omit hsub in
theorem not_atEnd_of_starts {r : List Kind} (h : starts (next r) = true) : ¬ AtEnd r := by
  intro hend
  have hs := not_startsStatement_of_end hend
  rw [startsStatement, h] at hs
  cases hs

/-- The token after a name with which an expression starts binds the name neither in the expression
nor behind it. -/
theorem next_tail_of_sub {k : Nat} {r : List Kind} {x : String} (he : Sub k w e) (hend : AtEnd r)
    (hx : next (w ++ r) = .name x) :
    next (w ++ r).tail ≠ .symbol .declare ∧ next (w ++ r).tail ≠ .symbol .assign := by
  obtain ⟨kind, tail, rfl, -⟩ := hsub.starts he
  obtain rfl : kind = .name x := hx
  cases tail with
  | nil =>
    constructor <;> intro (hr : next r = _) <;> simp [AtEnd, hr, Kind.isSeparator] at hend
  | cons kind tail => simpa using hsub.second he

theorem reads_statement {first : Stmt} (h : Statement Sub w first) (hend : AtEnd (kinds rest))
    (hne : NoElse (kinds rest)) : Reads (statement sub) w first rest := by
  have hends : Ends lowest (kinds rest) := ⟨hend.stops lowest, hne⟩
  have hread {w : List Kind} {e : Expr} (he : Sub 0 w e) : Reads (sub lowest) w e rest :=
    hsub.reads (Nat.zero_le _) he hends
  apply reads_peek_peekNext
  cases h with
  | ret =>
    refine reads_advance (reads_peek ?_)
    rw [if_pos (by simpa [AtEnd, or_assoc, or_comm, or_left_comm] using hend)]
    exact reads_pure _
  | @retValue w e he =>
    refine reads_advance (reads_peek ?_)
    have hnot : ¬ AtEnd (w ++ kinds rest) := not_atEnd_of_starts (starts_next (hsub.starts he) _)
    rw [if_neg (by simpa [AtEnd, or_assoc, or_comm, or_left_comm] using hnot)]
    exact (hread he).map
  | @declare n w x e hn he =>
    refine reads_advance (reads_advance ?_)
    have hw : n ++ w = n ++ (w ++ []) := by rw [List.append_nil]
    rw [hw]
    apply reads_skipNewlines_sub hsub hn he
    rw [List.append_nil]
    exact (hread he).map
  | @assign n w x e hn he =>
    refine reads_advance (reads_advance ?_)
    have hw : n ++ w = n ++ (w ++ []) := by rw [List.append_nil]
    rw [hw]
    apply reads_skipNewlines_sub hsub hn he
    rw [List.append_nil]
    exact (hread he).map
  | expr he =>
    have hs := starts_next (hsub.starts he) (kinds rest)
    have hsecond {x : String} := next_tail_of_sub (x := x) hsub he hend
    split
    · next hk => exact absurd hk (ne_of_starts hs rfl)
    · next hk hk' => exact absurd hk' (hsecond hk).1
    · next hk hk' => exact absurd hk' (hsecond hk).2
    · exact (hread he).map

theorem next_of_statement {first : Stmt} (h : Statement Sub w first) (r : List Kind) :
    startsStatement (next (w ++ r)) = true := by
  obtain ⟨kind, tail, rfl, hk⟩ := h.starts hsub.starts
  exact hk

theorem noElse_statement {first : Stmt} (h : Statement Sub w first) (r : List Kind) :
    NoElse (w ++ r) := by
  obtain ⟨kind, tail, rfl, hk⟩ := h.starts hsub.starts
  refine noElse_cons (Bool.eq_false_iff.2 fun hn => ?_) ?_
  · obtain rfl : kind = .newline := by simpa [Kind.isNewline] using hn
    cases hk
  · rintro rfl
    cases hk

theorem noElse_statements {body : List Stmt} {r : List Kind} (h : Statements Sub w body)
    (hr : NoElse r) : NoElse (w ++ r) := by
  cases h with
  | none hs => exact noElse_separators hs hr
  | last hs h | next hs h _ _ =>
    simp only [List.append_assoc]
    exact noElse_separators hs (noElse_statement hsub h _)

/-- One statement of a block, before the rest of the block. -/
theorem reads_nextStatements {s : List Kind} {first : Stmt} {others : List Stmt}
    {more : Unit → Parser (List Stmt)} (hs : Separators s) (h : Statement Sub w first)
    (hend : AtEnd (w' ++ kinds rest)) (hne : NoElse (w' ++ kinds rest))
    (hmore : Reads (more ()) w' others rest) :
    Reads (nextStatements sub more ()) (s ++ (w ++ w')) (first :: others) rest := by
  have hk := next_of_statement hsub h (w' ++ kinds rest)
  rw [← List.append_assoc] at hk
  refine reads_skipSeparators hs (not_isSeparator_of_startsStatement hk) (reads_peek ?_)
  split
  · next he => rw [he] at hk; cases hk
  · next he => rw [he] at hk; cases hk
  · refine Reads.bind (fun used hu => ?_) (reads_expectEnd ?_ hmore.map)
    · exact reads_statement hsub h (by rwa [kinds_append, hu]) (by rwa [kinds_append, hu])
    · simpa [AtEnd] using hend

theorem reads_statements {body : List Stmt} (h : Statements Sub w body) {s : List Kind}
    (hs : Separators s) :
    Reads (repeated (nextStatements sub) ()) (s ++ (w ++ [.symbol .closeBrace])) body rest := by
  have hnone {s : List Kind} (hs : Separators s) :
      Reads (repeated (nextStatements sub) ()) (s ++ [.symbol .closeBrace]) [] rest :=
    reads_repeated fun next _ =>
      reads_skipSeparators hs rfl (reads_peek (reads_advance (reads_pure _)))
  induction h generalizing s with
  | none hs' =>
    rw [← List.append_assoc]
    exact hnone (hs.append hs')
  | @last s' w _ hs' h =>
    refine reads_repeated fun next hnext => ?_
    have hw : s ++ (s' ++ w ++ [.symbol .closeBrace]) =
        s ++ s' ++ (w ++ [.symbol .closeBrace]) := by
      simp
    rw [hw] at hnext ⊢
    refine reads_nextStatements hsub (hs.append hs') h (.inr (.inr rfl)) (noElse_cons rfl nofun) ?_
    refine hnext () _ _ ?_ (hnone (s := []) nofun)
    obtain ⟨kind, tail, rfl, -⟩ := h.starts hsub.starts
    simp only [List.length_append, List.length_cons]
    omega
  | @next s' w w' k _ _ hs' h hk ht ih =>
    refine reads_repeated fun next hnext => ?_
    have hw : s ++ (s' ++ (w ++ k :: w') ++ [.symbol .closeBrace]) =
        s ++ s' ++ (w ++ ([k] ++ (w' ++ [.symbol .closeBrace]))) := by simp
    have hk' : Separators [k] := by simpa [Separators] using hk
    rw [hw] at hnext ⊢
    refine reads_nextStatements hsub (hs.append hs') h (.inl hk) ?_ ?_
    · simp only [List.append_assoc]
      exact noElse_separators hk' (noElse_statements hsub ht (noElse_cons rfl nofun))
    · refine hnext () _ _ ?_ (ih hk')
      obtain ⟨kind, tail, rfl, -⟩ := h.starts hsub.starts
      simp only [List.length_append, List.length_cons]
      omega

theorem reads_block {body : List Stmt} (h : Block Sub w body) : Reads (block sub) w body rest := by
  obtain ⟨h⟩ := h
  exact reads_expect (reads_statements hsub h (s := []) nofun)

/-! ### Operands -/

omit hsub in
theorem ends_block {level : Level} {body : List Stmt} (h : Block Sub w body) (r : List Kind) :
    Ends level (w ++ r) := by
  obtain ⟨h⟩ := h
  exact ends_symbol (n := []) nofun rfl

theorem reads_block_then {body : List Stmt} {f : List Stmt → Parser β} (h : Block Sub w body)
    (hf : Reads (f body) w' b rest) : Reads (block sub >>= f) (w ++ w') b rest :=
  Reads.bind (fun _ _ => reads_block hsub h) hf

theorem reads_conditional (h : Conditional Sub w e) (hne : NoElse (kinds rest)) :
    Reads (conditional sub) w e rest := by
  induction h with
  | plain htest hbody =>
    refine reads_repeated fun next _ => ?_
    apply reads_sub hsub htest (ends_block hbody _)
    exact (reads_block hsub hbody).last (reads_not_takeElse? hne (reads_pure _))
  | otherwise htest hbody hn hbody' =>
    refine reads_repeated fun next _ => ?_
    apply reads_sub hsub htest (by rw [List.append_assoc]; exact ends_block hbody _)
    refine reads_block_then hsub hbody (reads_takeElse? hn ?_)
    refine reads_not_take? ?_ (reads_block hsub hbody').map
    obtain ⟨-⟩ := hbody'
    nofun
  | chain htest hbody hn _ ih =>
    refine reads_repeated fun next hnext => ?_
    apply reads_sub hsub htest (by rw [List.append_assoc]; exact ends_block hbody _)
    refine reads_block_then hsub hbody (reads_takeElse? hn (reads_take? ?_))
    refine Reads.map (hnext () _ _ ?_ ih)
    simp only [List.length_append, List.length_cons]
    omega

theorem reads_grown_call {f : Expr} {args : List Expr} (h : Elements Sub .closeParen w args) :
    Reads (grown sub f .call) w (.call f args) rest :=
  (reads_elements hsub (.inl rfl) h).map

theorem reads_grown_index {n n' : List Kind} {target position : Expr} (hn : Newlines n)
    (h : Sub 0 w position) (hn' : Newlines n') :
    Reads (grown sub target .index) (n ++ (w ++ (n' ++ [.symbol .closeBracket])))
      (.index target position) rest := by
  apply reads_skipNewlines_sub hsub hn h
  apply reads_sub hsub h (by simpa using ends_symbol hn' rfl)
  exact reads_skipNewlines hn' rfl (reads_expect (reads_pure _))

theorem reads_grown_binary {op : BinaryOp} {n : List Kind} {left right : Expr} (hn : Newlines n)
    (h : Sub (op.stratum + 1) w right) (hends : Ends (op.stratum + 1) (kinds rest)) :
    Reads (grown sub left (.binary op)) (n ++ w) (.binary op left right) rest := by
  have hlt := Suffix.stratum_lt_unary op
  refine reads_skipNewlines hn ?_ (Reads.map (hsub.reads ?_ ?_ ?_))
  · exact not_isNewline_of_starts (starts_next (hsub.starts h) _)
  · rw [Suffix.level_binary]
    exact Nat.le_succ_of_le hlt
  · rw [Suffix.level_binary, stratum, Nat.min_eq_left hlt]
    exact h
  · rw [Suffix.level_binary]
    exact hends

/-! ### Operators -/

omit hsub in
theorem nextSuffixes_of_stops {level : Level} {more : Expr → Parser Expr}
    (h : Stops level (kinds rest)) : nextSuffixes sub level more e rest = .ok e rest := by
  have hpeek : peek rest = .ok (next (kinds rest)) rest := by rw [peek, headKind_eq]
  unfold nextSuffixes
  rw [Action.bind_of_ok hpeek]
  cases hs : Suffix.ofKind? (next (kinds rest)) with
  | some suffix => exact congrFun (if_neg (Nat.not_lt.2 (h suffix hs))) rest
  | none => rfl

omit hsub in
theorem nextSuffixes_of_lt {level : Level} {more : Expr → Parser Expr} {left : Expr}
    {suffix : Suffix} {used : List Token} (hlt : level < suffix.level)
    (hgrown : Reads (grown sub left suffix) w e rest) (hu : kinds used = suffix.kind :: w) :
    nextSuffixes sub level more left (used ++ rest) = more e rest := by
  obtain ⟨token, used, rfl, hkind, hw⟩ := List.map_eq_cons_iff.1 hu
  have hpeek : peek (token :: used ++ rest) = .ok suffix.kind (token :: used ++ rest) := by
    rw [peek, ← hkind]
    rfl
  have hadvance : advance (token :: used ++ rest) = .ok () (used ++ rest) := rfl
  unfold nextSuffixes
  rw [Action.bind_of_ok hpeek, Suffix.ofKind?_eq_some_iff.2 rfl]
  simp only [if_pos hlt]
  rw [Action.bind_of_ok hadvance, Action.bind_of_ok (hgrown hw)]

omit hsub in
theorem repeated_nextSuffixes {level : Level} {left : Expr} {suffix : Suffix} {used : List Token}
    (hlt : level < suffix.level) (hgrown : Reads (grown sub left suffix) w e rest)
    (hu : kinds used = suffix.kind :: w) :
    repeated (nextSuffixes sub level) left (used ++ rest) =
      repeated (nextSuffixes sub level) e rest := by
  conv => lhs; rw [repeated]
  refine (nextSuffixes_of_lt hlt hgrown hu).trans (if_pos ?_)
  obtain ⟨token, used, rfl, -⟩ := List.map_eq_cons_iff.1 hu
  simp only [List.length_append, List.length_cons]
  omega

omit hsub in
theorem operators_of_operand {level : Level} {used : List Token}
    (h : Reads (operand sub) w e rest) (hu : kinds used = w) :
    operators sub level (used ++ rest) = repeated (nextSuffixes sub level) e rest := by
  rw [operators, Action.bind_of_ok (h hu)]

omit hsub in
theorem le_of_stratum_le {level k : Nat} (hk : k < Grammar.unary) (h : stratum level ≤ k) :
    level ≤ k := by
  unfold stratum at h
  omega

omit hsub in
theorem le_stratum_succ {level : Nat} (h : level ≤ unaryLevel) : level ≤ stratum level + 1 := by
  have hunary : level ≤ Grammar.unary + 1 := h
  unfold stratum
  omega

/-- Reading a phrase comes to the point where it has been read and its suffixes may go on. -/
theorem operators_eq {k : Nat} {level : Level} (h : Phrase Sub k w e) (hlevel : level ≤ unaryLevel)
    (hk : stratum level ≤ k) {used : List Token} (hu : kinds used = w)
    (hstops : Stops (k + 1) (kinds rest)) (hne : NoElse (kinds rest)) :
    operators sub level (used ++ rest) = repeated (nextSuffixes sub level) e rest := by
  induction h generalizing used rest with
  | weaken _ ih => exact ih (Nat.le_succ_of_le hk) hu (hstops.mono (Nat.le_succ _)) hne
  | @binary op w n w' a b _ hn hb ih =>
    obtain ⟨used₁, used₂, rfl, h₁, h₂⟩ := List.map_eq_append_iff.1 hu
    have hlt : level < (Suffix.binary op).level := by
      rw [Suffix.level_binary]
      exact Nat.lt_succ_of_le (le_of_stratum_le (Suffix.stratum_lt_unary op) hk)
    have hends : Ends (op.stratum + 1) (kinds (used₂ ++ rest)) := by
      rw [kinds_append, kinds, h₂, ← Suffix.level_binary]
      exact ends_suffix (.binary op) _
    rw [List.append_assoc, ih hk h₁ hends.1 hends.2]
    exact repeated_nextSuffixes hlt (reads_grown_binary hsub hn hb ⟨hstops, hne⟩) h₂
  | @unary op w a ha =>
    refine operators_of_operand ?_ hu
    have hread : Reads (sub unaryLevel) w a rest := hsub.reads (Nat.le_refl _) ha ⟨hstops, hne⟩
    cases op
    · exact reads_peek (reads_advance hread.map)
    · exact reads_peek (reads_advance hread.map)
  | call _ hargs ih =>
    obtain ⟨used₁, used₂, rfl, h₁, h₂⟩ := List.map_eq_append_iff.1 hu
    have hends : Ends Suffix.call.level (kinds (used₂ ++ rest)) := by
      rw [kinds_append, kinds, h₂]
      exact ends_suffix .call _
    rw [List.append_assoc, ih hk h₁ hends.1 hends.2]
    have hlt : level < Suffix.call.level := Nat.lt_succ_of_le hlevel
    exact repeated_nextSuffixes hlt (reads_grown_call hsub hargs) h₂
  | index _ hn hp hn' ih =>
    obtain ⟨used₁, used₂, rfl, h₁, h₂⟩ := List.map_eq_append_iff.1 hu
    have hends : Ends Suffix.index.level (kinds (used₂ ++ rest)) := by
      rw [kinds_append, kinds, h₂]
      exact ends_suffix .index _
    rw [List.append_assoc, ih hk h₁ hends.1 hends.2]
    have hlt : level < Suffix.index.level := Nat.lt_succ_of_le hlevel
    exact repeated_nextSuffixes hlt (reads_grown_index hsub hn hp hn') h₂
  | int | str | true | false | null | var =>
    refine operators_of_operand ?_ hu
    exact reads_peek (reads_advance (reads_pure _))
  | group hn he hn' =>
    refine operators_of_operand ?_ hu
    refine reads_peek (reads_advance ?_)
    apply reads_skipNewlines_sub hsub hn he
    refine reads_not_take?_sub hsub rfl he ?_
    apply reads_sub hsub he (by simpa using ends_symbol hn' rfl)
    apply reads_skipNewlines hn' rfl
    exact reads_not_take? (by rintro ⟨⟩) (reads_expect (reads_pure _))
  | unit hn =>
    refine operators_of_operand ?_ hu
    refine reads_peek (reads_advance ?_)
    exact reads_skipNewlines hn rfl (reads_take? (reads_pure _))
  | tuple hn he hn' hs =>
    refine operators_of_operand ?_ hu
    refine reads_peek (reads_advance ?_)
    apply reads_skipNewlines_sub hsub hn he
    refine reads_not_take?_sub hsub rfl he ?_
    apply reads_sub hsub he (by simpa using ends_symbol hn' rfl)
    refine reads_skipNewlines hn' rfl (reads_take? ?_)
    exact (reads_elements hsub (.inl rfl) hs).map
  | list h =>
    refine operators_of_operand ?_ hu
    refine reads_peek (reads_advance ?_)
    exact (reads_elements hsub (.inr rfl) h).map
  | map h =>
    refine operators_of_operand ?_ hu
    exact reads_peek (reads_advance (reads_pairs hsub h).map)
  | cond h =>
    refine operators_of_operand ?_ hu
    exact reads_peek (reads_advance (reads_conditional hsub h hne))
  | fn hp hnd hb =>
    refine operators_of_operand ?_ hu
    refine reads_peek (reads_advance (reads_expect ?_))
    refine Reads.bind (fun used hu => ?_) (reads_block hsub hb).map
    exact reads_parameters [] hp hnd

theorem reads_operators {level : Level} (h : Phrase Sub (stratum level) w e)
    (hlevel : level ≤ unaryLevel) (hends : Ends level (kinds rest)) :
    Reads (operators sub level) w e rest := by
  intro used hu
  have hstops := hends.1.mono (le_stratum_succ hlevel)
  rw [operators_eq hsub h hlevel (Nat.le_refl _) hu hstops hends.2, repeated]
  exact nextSuffixes_of_stops hends.1

end Parts

theorem accepts_expression (depth : Nat) : Accepts (expression depth) (Expression depth) where
  starts := Expression.starts
  second := Expression.second
  reads {level} {w} {e} {rest} hlevel h hends := by
    induction depth generalizing level w e rest with
    | zero => exact h.elim
    | succ depth ih =>
      have hsub : Accepts (expression depth) (Expression depth) :=
        ⟨Expression.starts, Expression.second, ih⟩
      exact reads_operators hsub h hlevel hends

end Tang.Parser
