import Tang.Proofs.Grammar.Recognition

/-! Parsers in lockstep. A parser sees of the tokens only their kinds, one after the other, and
nothing behind the end of the input. So on two lists of tokens that look alike it gives the same
value or fails for the same cause, and what it leaves looks alike again. Lists may look alike in
many ways; what is asked of such a relation is said in `Lockstep`. -/

namespace Tang

open Token (Kind)

namespace Parser

/-- The lists begin with tokens of the same kind, and look alike again without these. Of two pairs
of lists that look alike, the same one is shorter on both sides. -/
structure Lockstep (R : List Token → List Token → Prop) : Prop where
  head {s t : List Token} : R s t → headKind s = headKind t
  tail {s t : List Token} : R s t → headKind s ≠ .endOfInput → R s.tail t.tail
  shorter {s t s' t' : List Token} :
    R s t → R s' t' → (s'.length < s.length ↔ t'.length < t.length)

variable {α β σ : Type} {R : List Token → List Token → Prop}

/-- The results are the same, apart from the tokens left, which look alike. -/
def Agree (R : List Token → List Token → Prop) :
    EStateM.Result ParseCause (List Token) α → EStateM.Result ParseCause (List Token) α → Prop
  | .ok a s, .ok b t => a = b ∧ R s t
  | .error cause s, .error cause' t => cause = cause' ∧ R s t
  | _, _ => False

def Tracks (R : List Token → List Token → Prop) (p q : Parser α) : Prop :=
  ∀ ⦃s t⦄, R s t → Agree R (p s) (q t)

/-- The parsers agree on lists that begin with a token of this kind. -/
def TracksAt (R : List Token → List Token → Prop) (kind : Kind) (p q : Parser α) : Prop :=
  ∀ ⦃s t⦄, R s t → headKind s = kind → Agree R (p s) (q t)

/-! ### Single tokens -/

theorem tracks_pure (a : α) : Tracks R (pure a : Parser α) (pure a) :=
  fun _ _ h => ⟨rfl, h⟩

theorem tracks_throw (cause : ParseCause) : Tracks R (throw cause : Parser α) (throw cause) :=
  fun _ _ h => ⟨rfl, h⟩

theorem Tracks.at {p q : Parser α} (h : Tracks R p q) (kind : Kind) : TracksAt R kind p q :=
  fun _ _ hst _ => h hst

theorem Agree.of_ok {a : α} {s : List Token}
    {result : EStateM.Result ParseCause (List Token) α} (h : Agree R (.ok a s) result) :
    ∃ t, result = .ok a t ∧ R s t := by
  cases result with
  | ok b t =>
    obtain ⟨rfl, hst⟩ := h
    exact ⟨t, rfl, hst⟩
  | error cause t => exact h.elim

theorem Agree.of_error {cause : ParseCause} {s : List Token}
    {result : EStateM.Result ParseCause (List Token) α} (h : Agree R (.error cause s) result) :
    ∃ t, result = .error cause t ∧ R s t := by
  cases result with
  | ok b t => exact h.elim
  | error cause' t =>
    obtain ⟨rfl, hst⟩ := h
    exact ⟨t, rfl, hst⟩

theorem Tracks.bind {p q : Parser α} {f g : α → Parser β} (h : Tracks R p q)
    (hf : ∀ a, Tracks R (f a) (g a)) : Tracks R (p >>= f) (q >>= g) := by
  intro s t hst
  have hagree := h hst
  cases hp : p s with
  | ok a s' =>
    rw [hp] at hagree
    obtain ⟨t', hq, hst'⟩ := hagree.of_ok
    rw [Action.bind_of_ok hp, Action.bind_of_ok hq]
    exact hf a hst'
  | error cause s' =>
    rw [hp] at hagree
    obtain ⟨t', hq, hst'⟩ := hagree.of_error
    rw [Action.bind_of_error hp, Action.bind_of_error hq]
    exact ⟨rfl, hst'⟩

section Steps

variable (hR : Lockstep R)

include hR

theorem tracks_peek_then {f g : Kind → Parser β} (h : ∀ kind, TracksAt R kind (f kind) (g kind)) :
    Tracks R (peek >>= f) (peek >>= g) := by
  intro s t hst
  have hpeek : (peek >>= g) t = g (headKind s) t := by
    rw [hR.head hst]
    rfl
  rw [hpeek]
  exact h (headKind s) hst rfl

theorem tracks_peek : Tracks R peek peek :=
  fun _ _ hst => ⟨hR.head hst, hst⟩

/-- The second token is looked at only if the first one is not the end of the input. -/
theorem tracks_peek_peekNext_then {f g : Kind → Kind → Parser β}
    (hend : ∀ kind kind', Tracks R (f .endOfInput kind) (g .endOfInput kind'))
    (h : ∀ kind kind', kind ≠ .endOfInput → ∀ ⦃s t⦄, R s t → headKind s = kind →
      headKind s.tail = kind' → Agree R (f kind kind' s) (g kind kind' t)) :
    Tracks R (peek >>= fun kind => peekNext >>= fun kind' => f kind kind')
      (peek >>= fun kind => peekNext >>= fun kind' => g kind kind') := by
  intro s t hst
  show Agree R (f (headKind s) (headKind s.tail) s) (g (headKind t) (headKind t.tail) t)
  rw [← hR.head hst]
  by_cases he : headKind s = .endOfInput
  · rw [he]
    exact hend _ _ hst
  · rw [← hR.head (hR.tail hst he)]
    exact h _ _ he hst rfl rfl

theorem tracksAt_advance_then {f g : Unit → Parser β} {kind : Kind} (hk : kind ≠ .endOfInput)
    (h : Tracks R (f ()) (g ())) : TracksAt R kind (advance >>= f) (advance >>= g) := by
  intro s t hst hkind
  exact h (hR.tail hst (hkind ▸ hk))

theorem tracks_take? {kind : Kind} (hk : kind ≠ .endOfInput) :
    Tracks R (take? kind) (take? kind) := by
  apply tracks_peek_then hR
  intro found
  by_cases hfound : found = kind
  · simp only [if_pos hfound]
    exact tracksAt_advance_then hR (hfound ▸ hk) (tracks_pure true)
  · simp only [if_neg hfound]
    exact (tracks_pure false).at found

/-- Either a token comes next on both sides, or on none. -/
theorem tracks_take?_then {p q p' q' : Parser β} {kind : Kind} (hk : kind ≠ .endOfInput)
    (hp : Tracks R p p') (hq : Tracks R q q') :
    Tracks R (take? kind >>= fun taken => if taken = true then p else q)
      (take? kind >>= fun taken => if taken = true then p' else q') := by
  apply (tracks_take? hR hk).bind
  intro taken
  cases taken with
  | true => exact hp
  | false => exact hq

theorem tracks_expect_then {f g : Unit → Parser β} {kind : Kind} (hk : kind ≠ .endOfInput)
    (h : Tracks R (f ()) (g ())) : Tracks R (expect kind >>= f) (expect kind >>= g) := by
  have hexpect : Tracks R (expect kind) (expect kind) := by
    apply tracks_peek_then hR
    intro found s t hst hfound
    by_cases heq : found = kind
    · simp only [if_pos heq]
      exact ⟨rfl, hR.tail hst (hfound ▸ heq ▸ hk)⟩
    · simp only [if_neg heq]
      exact ⟨rfl, hst⟩
  exact hexpect.bind fun _ => h

theorem tracks_expectEnd (inBlock : Bool) : Tracks R (expectEnd inBlock) (expectEnd inBlock) := by
  apply (tracks_peek hR).bind
  intro found
  split
  · exact tracks_pure ()
  · exact tracks_throw _

/-- Tokens are skipped up to the end of the input at most. -/
theorem Lockstep.dropWhile {q : Kind → Bool} (hq : q .endOfInput = false) {s t : List Token}
    (hst : R s t) : R (s.dropWhile (q ·.kind)) (t.dropWhile (q ·.kind)) := by
  induction s generalizing t with
  | nil =>
    have ht : q (headKind t) = false := by rw [← hR.head hst]; exact hq
    rw [headKind_eq] at ht
    rw [dropWhile_eq_self ht]
    exact hst
  | cons token s ih =>
    have hkind : token.kind = headKind t := hR.head hst
    cases hskip : q token.kind with
    | false =>
      have ht : q (headKind t) = false := hkind ▸ hskip
      rw [headKind_eq] at ht
      rw [dropWhile_eq_self (show q (next (kinds (token :: s))) = false from hskip),
        dropWhile_eq_self ht]
      exact hst
    | true =>
      have hne : token.kind ≠ .endOfInput := by
        intro he
        rw [he, hq] at hskip
        cases hskip
      cases t with
      | nil => exact absurd hkind hne
      | cons token' t =>
        have hkind' : token.kind = token'.kind := hkind
        have hskip' : q token'.kind = true := hkind' ▸ hskip
        simp only [List.dropWhile_cons, hskip, hskip', if_true]
        exact ih (hR.tail hst hne)

theorem tracks_skipNewlines : Tracks R skipNewlines skipNewlines :=
  fun _ _ hst => ⟨rfl, hR.dropWhile rfl hst⟩

theorem tracks_skipSeparators : Tracks R skipSeparators skipSeparators :=
  fun _ _ hst => ⟨rfl, hR.dropWhile rfl hst⟩

theorem tracks_takeElse? : Tracks R takeElse? takeElse? := by
  intro s t hst
  have hrest := hR.dropWhile (q := Kind.isNewline) rfl hst
  simp only [takeElse?, ← hR.head hrest]
  split
  · next helse => exact ⟨rfl, hR.tail hrest (by simp [helse])⟩
  · exact ⟨rfl, hst⟩

theorem tracks_repeated {body : (σ → Parser α) → σ → Parser α}
    (h : ∀ next next', (∀ s, Tracks R (next s) (next' s)) →
      ∀ s, Tracks R (body next s) (body next' s)) (s : σ) :
    Tracks R (repeated body s) (repeated body s) := by
  intro tokens tokens' hst
  induction hl : tokens.length using Nat.strongRecOn generalizing s tokens tokens' with
  | ind l ih =>
    subst hl
    -- the same test of lengths decides on both sides whether the body is used again
    rw [repeated, repeated.eq_def body s tokens']
    refine h _ _ (fun s' rest rest' hrest => ?_) s hst
    have hshorter := hR.shorter hst hrest
    by_cases hlt : rest.length < tokens.length
    · simp only [if_pos hlt, if_pos (hshorter.1 hlt)]
      exact ih _ hlt s' hrest rfl
    · simp only [if_neg hlt, if_neg (mt hshorter.2 hlt), hR.head hrest]
      exact ⟨rfl, hrest⟩

end Steps

/-! ### Expressions and statements -/

section Parts

variable (hR : Lockstep R) {sub : Level → Parser Expr}
  (hsub : ∀ level, Tracks R (sub level) (sub level))

include hR hsub

theorem tracks_elements (closing : Symbol) :
    Tracks R (elements sub closing) (elements sub closing) := by
  refine tracks_repeated hR (fun next next' hnext _ => ?_) ()
  refine (tracks_skipNewlines hR).bind fun _ => tracks_take?_then hR nofun (tracks_pure []) ?_
  refine (hsub lowest).bind fun element => (tracks_skipNewlines hR).bind fun _ => ?_
  refine tracks_take?_then hR nofun ?_ ?_
  · exact (hnext ()).bind fun others => tracks_pure _
  · exact tracks_expect_then hR nofun (tracks_pure _)

theorem tracks_pairs : Tracks R (pairs sub) (pairs sub) := by
  refine tracks_repeated hR (fun next next' hnext _ => ?_) ()
  refine (tracks_skipNewlines hR).bind fun _ => tracks_take?_then hR nofun (tracks_pure []) ?_
  refine (hsub lowest).bind fun key => (tracks_skipNewlines hR).bind fun _ => ?_
  refine tracks_expect_then hR nofun ((tracks_skipNewlines hR).bind fun _ => ?_)
  refine (hsub lowest).bind fun value => (tracks_skipNewlines hR).bind fun _ => ?_
  refine tracks_take?_then hR nofun ?_ ?_
  · exact (hnext ()).bind fun others => tracks_pure _
  · exact tracks_expect_then hR nofun (tracks_pure _)

/-- A name with a sign behind it, and the value after these. -/
theorem agree_binding {f : Expr → Stmt} {x : String} {sign : Symbol} {s t : List Token}
    (hst : R s t) (hname : headKind s = .name x) (hsign : headKind s.tail = .symbol sign) :
    Agree R
      ((do advance; advance; skipNewlines; return f (← sub lowest) : Parser Stmt) s)
      ((do advance; advance; skipNewlines; return f (← sub lowest) : Parser Stmt) t) := by
  have hvalue : Tracks R (do skipNewlines; return f (← sub lowest) : Parser Stmt)
      (do skipNewlines; return f (← sub lowest)) :=
    (tracks_skipNewlines hR).bind fun _ => (hsub lowest).bind fun value => tracks_pure _
  have htail : R s.tail t.tail := hR.tail hst (by simp [hname])
  exact hvalue (hR.tail htail (by simp [hsign]))

theorem tracks_statement : Tracks R (statement sub) (statement sub) := by
  have hexpr : Tracks R (do return .expr (← sub lowest) : Parser Stmt)
      (do return .expr (← sub lowest)) := (hsub lowest).bind fun _ => tracks_pure _
  refine tracks_peek_peekNext_then hR (fun _ _ => hexpr) fun kind kind' hkind s t hst h h' => ?_
  split
  · refine tracksAt_advance_then hR hkind ?_ hst h
    apply (tracks_peek hR).bind
    intro found
    split
    · exact tracks_pure _
    · exact (hsub lowest).bind fun _ => tracks_pure _
  · exact agree_binding hR hsub hst h h'
  · exact agree_binding hR hsub hst h h'
  · exact hexpr hst

theorem tracks_block : Tracks R (block sub) (block sub) := by
  refine tracks_expect_then hR nofun ?_
  refine tracks_repeated hR (fun next next' hnext _ => ?_) ()
  refine (tracks_skipSeparators hR).bind fun _ => tracks_peek_then hR fun kind => ?_
  split
  · exact tracksAt_advance_then hR nofun (tracks_pure [])
  · exact (tracks_throw _).at _
  · refine Tracks.at ((tracks_statement hR hsub).bind fun first => ?_) _
    refine (tracks_expectEnd hR true).bind fun _ => ?_
    exact (hnext ()).bind fun others => tracks_pure _

theorem tracks_group : Tracks R (group sub) (group sub) := by
  refine (tracks_skipNewlines hR).bind fun _ => tracks_take?_then hR nofun (tracks_pure _) ?_
  refine (hsub lowest).bind fun first => (tracks_skipNewlines hR).bind fun _ => ?_
  refine tracks_take?_then hR nofun ?_ ?_
  · exact (tracks_elements hR hsub _).bind fun others => tracks_pure _
  · exact tracks_expect_then hR nofun (tracks_pure _)

theorem tracks_conditional : Tracks R (conditional sub) (conditional sub) := by
  refine tracks_repeated hR (fun next next' hnext _ => ?_) ()
  refine (hsub lowest).bind fun test => (tracks_block hR hsub).bind fun body => ?_
  refine (tracks_takeElse? hR).bind fun otherwise => ?_
  split
  · refine tracks_take?_then hR nofun ?_ ?_
    · exact (hnext ()).bind fun e => tracks_pure _
    · exact (tracks_block hR hsub).bind fun body' => tracks_pure _
  · exact tracks_pure _

omit hsub in
theorem tracks_parameters : Tracks R parameters parameters := by
  refine tracks_repeated hR (fun next next' hnext params => ?_) []
  refine (tracks_skipNewlines hR).bind fun _ => tracks_peek_then hR fun kind => ?_
  split
  · exact tracksAt_advance_then hR nofun (tracks_pure params)
  · next x =>
    split
    · exact (tracks_throw _).at _
    · refine tracksAt_advance_then hR nofun ((tracks_skipNewlines hR).bind fun _ => ?_)
      refine tracks_take?_then hR nofun ?_ ?_
      · exact hnext _
      · exact tracks_expect_then hR nofun (tracks_pure _)
  · exact (tracks_throw _).at _

theorem tracks_function : Tracks R (function sub) (function sub) := by
  refine tracks_expect_then hR nofun ((tracks_parameters hR).bind fun params => ?_)
  exact (tracks_block hR hsub).bind fun body => tracks_pure _

theorem tracks_operand : Tracks R (operand sub) (operand sub) := by
  apply tracks_peek_then hR
  intro kind
  have hvalue (e : Expr) (hk : kind ≠ .endOfInput) :
      TracksAt R kind (do advance; return e : Parser Expr) (do advance; return e) :=
    tracksAt_advance_then hR hk (tracks_pure e)
  cases kind with
  | int n => exact hvalue (.int n) nofun
  | str text => exact hvalue (.str text) nofun
  | name x => exact hvalue (.var x) nofun
  | keyword word =>
    cases word with
    | trueWord => exact hvalue (.bool true) nofun
    | falseWord => exact hvalue (.bool false) nofun
    | nullWord => exact hvalue .null nofun
    | ifWord => exact tracksAt_advance_then hR nofun (tracks_conditional hR hsub)
    | fnWord => exact tracksAt_advance_then hR nofun (tracks_function hR hsub)
    | elseWord | returnWord => exact (tracks_throw _).at _
  | symbol sign =>
    cases sign with
    | bang | minus =>
      exact tracksAt_advance_then hR nofun ((hsub unaryLevel).bind fun _ => tracks_pure _)
    | openParen => exact tracksAt_advance_then hR nofun (tracks_group hR hsub)
    | openBracket =>
      exact tracksAt_advance_then hR nofun
        ((tracks_elements hR hsub _).bind fun _ => tracks_pure _)
    | openBrace =>
      exact tracksAt_advance_then hR nofun ((tracks_pairs hR hsub).bind fun _ => tracks_pure _)
    | _ => exact (tracks_throw _).at _
  | newline | endOfInput => exact (tracks_throw _).at _

theorem tracks_grown (left : Expr) (suffix : Suffix) :
    Tracks R (grown sub left suffix) (grown sub left suffix) := by
  cases suffix with
  | call => exact (tracks_elements hR hsub _).bind fun _ => tracks_pure _
  | index =>
    refine (tracks_skipNewlines hR).bind fun _ => (hsub lowest).bind fun position => ?_
    exact (tracks_skipNewlines hR).bind fun _ => tracks_expect_then hR nofun (tracks_pure _)
  | binary op =>
    exact (tracks_skipNewlines hR).bind fun _ => (hsub _).bind fun _ => tracks_pure _

theorem tracks_operators (level : Level) :
    Tracks R (operators sub level) (operators sub level) := by
  refine (tracks_operand hR hsub).bind fun first => ?_
  refine tracks_repeated hR (fun next next' hnext left => ?_) first
  refine tracks_peek_then hR fun kind => ?_
  split
  · next suffix hsuffix =>
    split
    · have hkind : kind ≠ .endOfInput := by
        rintro rfl
        cases hsuffix
      exact tracksAt_advance_then hR hkind ((tracks_grown hR hsub left suffix).bind hnext)
    · exact (tracks_pure left).at kind
  · exact (tracks_pure left).at kind

end Parts

theorem tracks_expression (hR : Lockstep R) (depth : Nat) (level : Level) :
    Tracks R (expression depth level) (expression depth level) := by
  induction depth generalizing level with
  | zero => exact tracks_throw _
  | succ depth ih => exact tracks_operators hR ih level

theorem tracks_topLevel (hR : Lockstep R) : Tracks R topLevel topLevel := by
  refine (tracks_statement hR (tracks_expression hR maxNesting)).bind fun first => ?_
  exact (tracks_expectEnd hR false).bind fun _ => tracks_pure first

/-! ### Programs -/

/-- What has been read so far, and more statements and failures. -/
def Reading.add (reading : Reading) (statements : Array Stmt) (errors : Array ParseError) :
    Reading :=
  ⟨reading.statements ++ statements, reading.errors ++ errors⟩

theorem Lockstep.recover (hR : Lockstep R) {s t : List Token} (hst : R s t) :
    R (recover s) (recover t) :=
  hR.dropWhile (q := fun kind => !kind.isSeparator && kind != .endOfInput) rfl hst

/-- Programs are read alike from lists that look alike: the same statements are found, and the same
failures at places that correspond. -/
theorem Lockstep.readFrom (hR : Lockstep R) {total total' : Nat} (place : Nat → Nat)
    (hplace : ∀ s t, R s t → total' - t.length = place (total - s.length))
    (reading reading' : Reading) {s t : List Token} (hst : R s t) :
    ∃ statements errors, Parser.readFrom total reading s = reading.add statements errors ∧
      Parser.readFrom total' reading' t = reading'.add statements
        (errors.map fun error => { error with index := place error.index }) := by
  have hstart' {s t : List Token} (hst : R s t) :
      R (s.dropWhile (·.kind.isSeparator)) (t.dropWhile (·.kind.isSeparator)) :=
    hR.dropWhile rfl hst
  fun_induction Parser.readFrom total reading s generalizing t reading' with
  | case1 reading s start hstart =>
    rw [hR.head (hstart' hst)] at hstart
    refine ⟨#[], #[], by simp [Reading.add], ?_⟩
    rw [Parser.readFrom, if_pos hstart]
    simp [Reading.add]
  | case2 reading s start hstart first rest hfirst hlt ih =>
    obtain ⟨rest', hfirst', hrest⟩ := (hfirst ▸ tracks_topLevel hR (hstart' hst)).of_ok
    obtain ⟨statements, errors, hread, hread'⟩ := ih
      { reading' with statements := reading'.statements.push first } hrest
    refine ⟨#[first] ++ statements, errors, by rw [hread]; simp [Reading.add], ?_⟩
    rw [Parser.readFrom, ← hR.head (hstart' hst), if_neg hstart, hfirst']
    simp only [if_pos ((hR.shorter hst hrest).1 hlt), hread']
    simp [Reading.add]
  | case3 reading s start hstart first rest hfirst hnlt =>
    obtain ⟨rest', hfirst', hrest⟩ := (hfirst ▸ tracks_topLevel hR (hstart' hst)).of_ok
    refine ⟨#[], #[], by simp [Reading.add], ?_⟩
    rw [Parser.readFrom, ← hR.head (hstart' hst), if_neg hstart, hfirst']
    simp only [if_neg (mt (hR.shorter hst hrest).2 hnlt)]
    simp [Reading.add]
  | case4 reading s start hstart cause failed hfail error reading₁ rest hlt =>
    rename_i ih
    obtain ⟨failed', hfail', hfailed⟩ := (hfail ▸ tracks_topLevel hR (hstart' hst)).of_error
    obtain ⟨statements, errors, hread, hread'⟩ := ih
      { reading' with errors := reading'.errors.push ⟨cause, total' - failed'.length⟩ }
      (hR.recover hfailed)
    refine ⟨statements, #[error] ++ errors, by rw [hread]; simp [Reading.add, reading₁], ?_⟩
    rw [Parser.readFrom, ← hR.head (hstart' hst), if_neg hstart, hfail']
    simp only [if_pos ((hR.shorter hst (hR.recover hfailed)).1 hlt), hread']
    simp [Reading.add, error, hplace _ _ hfailed]
  | case5 reading s start hstart cause failed hfail error reading₁ rest =>
    rename_i hnlt
    obtain ⟨failed', hfail', hfailed⟩ := (hfail ▸ tracks_topLevel hR (hstart' hst)).of_error
    refine ⟨#[], #[error], by simp [Reading.add, reading₁], ?_⟩
    rw [Parser.readFrom, ← hR.head (hstart' hst), if_neg hstart, hfail']
    simp only [if_neg (mt (hR.shorter hst (hR.recover hfailed)).2 hnlt)]
    simp [Reading.add, error, hplace _ _ hfailed]

/-! ### Progress -/

theorem lockstep_suffix (tokens : List Token) :
    Lockstep fun s t => s = t ∧ s <:+ tokens where
  head h := by rw [h.1]
  tail h _ := ⟨by rw [h.1], (List.tail_suffix _).trans h.2⟩
  shorter h h' := by rw [h.1, h'.1]

theorem length_lt_of_topLevel {tokens rest : List Token} {first : Stmt}
    (h : topLevel tokens = .ok first rest) : rest.length < tokens.length := by
  obtain ⟨used, rfl, hstmt, -⟩ := ensures_topLevel h
  obtain ⟨kind, w, hw, -⟩ := hstmt.starts Grammar.Expression.starts
  obtain ⟨token, used, rfl, -⟩ := List.map_eq_cons_iff.1 hw
  simp only [List.cons_append, List.length_cons, List.length_append]
  omega

/-- After a failure reading goes on behind the token at which the statement began. -/
theorem length_recover_lt {tokens failed : List Token} {cause : ParseCause}
    (hhead : (headKind tokens).isSeparator = false) (hend : headKind tokens ≠ .endOfInput)
    (h : topLevel tokens = .error cause failed) : (recover failed).length < tokens.length := by
  have htracks := tracks_topLevel (lockstep_suffix tokens) ⟨rfl, List.suffix_refl tokens⟩
  rw [h] at htracks
  have hsuffix : failed <:+ tokens := htracks.2.2
  have hle : (recover failed).length ≤ failed.length :=
    (List.dropWhile_suffix _).length_le
  by_cases hlt : failed.length < tokens.length
  · omega
  · obtain rfl : failed = tokens := hsuffix.eq_of_length_le (by omega)
    cases failed with
    | nil => exact absurd rfl hend
    | cons token failed =>
      have hskip : (!token.kind.isSeparator && token.kind != .endOfInput) = true := by
        simp_all [headKind]
      simp only [recover, List.dropWhile_cons, hskip, if_true]
      exact Nat.lt_succ_of_le (List.dropWhile_suffix _).length_le

theorem isSeparator_dropWhile (tokens : List Token) :
    (headKind (tokens.dropWhile (·.kind.isSeparator))).isSeparator = false := by
  have hhead := List.head?_dropWhile_not (fun token : Token => token.kind.isSeparator) tokens
  cases hdrop : tokens.dropWhile (·.kind.isSeparator) with
  | nil => rfl
  | cons token rest =>
    rw [hdrop] at hhead
    exact hhead

/-- Reading a statement, or recovering from a failure to, leaves a shorter list. So reading goes on
until the input ends. -/
theorem readFrom_eq (total : Nat) (reading : Reading) (tokens : List Token) :
    readFrom total reading tokens =
      let start := tokens.dropWhile (·.kind.isSeparator)
      if headKind start = .endOfInput then reading
      else
        match topLevel start with
        | .ok first rest =>
          readFrom total { reading with statements := reading.statements.push first } rest
        | .error cause failed =>
          readFrom total
            { reading with errors := reading.errors.push ⟨cause, total - failed.length⟩ }
            (recover failed) := by
  have hle : (tokens.dropWhile (·.kind.isSeparator)).length ≤ tokens.length :=
    (List.dropWhile_suffix _).length_le
  conv => lhs; rw [readFrom]
  by_cases hend : headKind (tokens.dropWhile (·.kind.isSeparator)) = .endOfInput
  · simp only [if_pos hend]
  · simp only [if_neg hend]
    cases h : topLevel (tokens.dropWhile (·.kind.isSeparator)) with
    | ok first rest =>
      have hlt := length_lt_of_topLevel h
      simp only
      rw [if_pos (by omega)]
    | error cause failed =>
      have hlt := length_recover_lt (isSeparator_dropWhile tokens) hend h
      simp only
      rw [if_pos (by omega)]

theorem readFrom_dropWhile (total : Nat) (reading : Reading) (tokens : List Token) :
    readFrom total reading (tokens.dropWhile (·.kind.isSeparator)) =
      readFrom total reading tokens := by
  have hidem : (tokens.dropWhile (·.kind.isSeparator)).dropWhile (·.kind.isSeparator) =
      tokens.dropWhile (·.kind.isSeparator) := by
    apply dropWhile_eq_self
    rw [← headKind_eq]
    exact isSeparator_dropWhile tokens
  rw [readFrom_eq, readFrom_eq total reading tokens, hidem]

theorem readFrom_separators (total : Nat) (reading : Reading) {left : List Token}
    (h : Grammar.Separators (kinds left)) (rest : List Token) :
    readFrom total reading (left ++ rest) = readFrom total reading rest := by
  rw [← readFrom_dropWhile, dropWhile_append h, readFrom_dropWhile]

end Parser

end Tang
