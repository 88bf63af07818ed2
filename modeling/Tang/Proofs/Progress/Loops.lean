import Tang.Proofs.Grammar.Soundness

/-! The loops of the parser come to an end. Whenever the body of a loop goes on with another round,
it has read a token since the round began. So a loop makes at most one round more than there are
tokens, and it does not matter what would be done in a round after these. -/

namespace Tang.Parser

open Token (Kind)
open Grammar (Expression)

variable {α β σ : Type} {n : Nat}

/-! ### Rounds -/

/-- The parsers give the same results on all lists of fewer than `n` tokens. -/
def Same (n : Nat) (p q : Parser α) : Prop :=
  ∀ ⦃tokens : List Token⦄, tokens.length < n → p tokens = q tokens

/-- The first `n` rounds of a loop. Instead of any later one `otherwise` is run. -/
def rounds (body : (σ → Parser α) → σ → Parser α) (otherwise : σ → Parser α) : Nat → σ → Parser α
  | 0 => otherwise
  | n + 1 => body (rounds body otherwise n)

/-- The loop is settled after one round more than there are tokens. -/
def Settles (body : (σ → Parser α) → σ → Parser α) : Prop :=
  ∀ (otherwise : σ → Parser α) (n : Nat) (s : σ),
    Same n (rounds body otherwise n s) (repeated body s)

/-- The body goes on with another round only where fewer tokens are left. -/
def Progresses (body : (σ → Parser α) → σ → Parser α) : Prop :=
  ∀ ⦃next next' : σ → Parser α⦄ ⦃n : Nat⦄, (∀ s, Same n (next s) (next' s)) →
    ∀ s, Same (n + 1) (body next s) (body next' s)

theorem Progresses.settles {body : (σ → Parser α) → σ → Parser α} (h : Progresses body) :
    Settles body := by
  intro otherwise n
  induction n with
  | zero => exact fun s tokens hlt => absurd hlt (Nat.not_lt_zero _)
  | succ n ih =>
    intro s tokens hlt
    rw [repeated]
    refine h (n := tokens.length) (fun s' rest hrest => ?_) s (Nat.lt_succ_self _)
    rw [if_pos hrest]
    exact ih s' (Nat.lt_of_lt_of_le hrest (Nat.le_of_lt_succ hlt))

/-! ### Steps of a round -/

section Steps

variable {p q : Parser α} {f g : α → Parser β} {P : List Kind → α → List Kind → Prop}

theorem Same.refl (p : Parser α) : Same n p p :=
  fun _ _ => rfl

theorem Same.then (h : Same n p q) (f : α → Parser β) : Same n (p >>= f) (q >>= f) := by
  intro tokens hlt
  simp only [bind, EStateM.bind, h hlt]

/-- Behind a parser fewer tokens are left, as many as it has read. -/
theorem Same.bind_of_le {m : Nat} (hp : Ensures p fun w _ _ => m ≤ n + w.length)
    (h : ∀ a, Same n (f a) (g a)) : Same m (p >>= f) (p >>= g) := by
  intro tokens hlt
  cases hr : p tokens with
  | ok a rest =>
    obtain ⟨used, rfl, hused⟩ := hp hr
    rw [kinds, List.length_map] at hused
    rw [List.length_append] at hlt
    rw [Action.bind_of_ok hr, Action.bind_of_ok hr]
    exact h a (by omega)
  | error cause rest => rw [Action.bind_of_error hr, Action.bind_of_error hr]

theorem Same.bind (hp : Ensures p P) (h : ∀ a, Same n (f a) (g a)) :
    Same n (p >>= f) (p >>= g) :=
  .bind_of_le (hp.imp fun w _ _ _ => Nat.le_add_right n w.length) h

theorem Same.bind_of_reads (hp : Ensures p fun w _ _ => w ≠ []) (h : ∀ a, Same n (f a) (g a)) :
    Same (n + 1) (p >>= f) (p >>= g) :=
  .bind_of_le (hp.imp fun _ _ _ hw => Nat.add_le_add_left (List.length_pos_iff.2 hw) n) h

/-- The parsers agree on such lists if they begin with a token of this kind. -/
def SameAt (n : Nat) (kind : Kind) (p q : Parser α) : Prop :=
  ∀ ⦃tokens : List Token⦄, tokens.length < n → headKind tokens = kind → p tokens = q tokens

theorem Same.at {p q : Parser α} (h : Same n p q) (kind : Kind) : SameAt n kind p q :=
  fun _ hlt _ => h hlt

theorem same_peek_then {f g : Kind → Parser β} (h : ∀ kind, SameAt n kind (f kind) (g kind)) :
    Same n (peek >>= f) (peek >>= g) :=
  fun _ hlt => h _ hlt rfl

theorem sameAt_advance_then {f g : Unit → Parser β} {kind : Kind} (hk : kind ≠ .endOfInput)
    (h : Same n (f ()) (g ())) : SameAt (n + 1) kind (advance >>= f) (advance >>= g) := by
  intro tokens hlt hkind
  cases tokens with
  | nil => exact absurd hkind.symm hk
  | cons token tokens => exact h (Nat.lt_of_succ_lt_succ hlt)

theorem same_take?_then {p q p' q' : Parser β} {kind : Kind} (hk : kind ≠ .endOfInput)
    (hp : Same n p p') (hq : Same n q q') :
    Same n (take? kind >>= fun taken => if taken = true then p else q)
      (take? kind >>= fun taken => if taken = true then p' else q') := by
  refine Same.bind (ensures_take? hk) fun taken => ?_
  cases taken with
  | true => exact hp
  | false => exact hq

end Steps

/-! ### Bodies -/

section Bodies

variable (depth : Nat)

theorem ensures_expression_ne_nil (level : Level) :
    Ensures (expression depth level) fun w _ _ => w ≠ [] := by
  refine (ensures_expression depth level).imp fun w e r h => ?_
  obtain ⟨kind, w', rfl, -⟩ := h.1.starts
  exact List.cons_ne_nil kind w'

theorem ensures_statement_ne_nil :
    Ensures (statement (expression depth)) fun w _ _ => w ≠ [] := by
  refine (ensures_statement (ensures_expression depth)).imp fun w first r h => ?_
  obtain ⟨kind, w', rfl, -⟩ := h.starts Expression.starts
  exact List.cons_ne_nil kind w'

theorem progresses_nextElements (closing : Symbol) :
    Progresses (nextElements (expression depth) closing) := by
  intro next next' n hnext _
  refine .bind ensures_skipNewlines fun _ => same_take?_then nofun (.refl _) ?_
  refine .bind_of_reads (ensures_expression_ne_nil depth lowest) fun element => ?_
  refine .bind ensures_skipNewlines fun _ => same_take?_then nofun ?_ (.refl _)
  exact (hnext ()).then _

theorem progresses_nextPairs : Progresses (nextPairs (expression depth)) := by
  intro next next' n hnext _
  refine .bind ensures_skipNewlines fun _ => same_take?_then nofun (.refl _) ?_
  refine .bind_of_reads (ensures_expression_ne_nil depth lowest) fun key => ?_
  refine .bind ensures_skipNewlines fun _ => .bind (ensures_expect nofun) fun _ => ?_
  refine .bind ensures_skipNewlines fun _ => ?_
  refine .bind (ensures_expression_ne_nil depth lowest) fun value => ?_
  refine .bind ensures_skipNewlines fun _ => same_take?_then nofun ?_ (.refl _)
  exact (hnext ()).then _

theorem progresses_nextStatements : Progresses (nextStatements (expression depth)) := by
  intro next next' n hnext _
  refine .bind ensures_skipSeparators fun _ => same_peek_then fun kind => ?_
  split
  · exact (Same.refl _).at _
  · exact (Same.refl _).at _
  · refine Same.at (.bind_of_reads (ensures_statement_ne_nil depth) fun first => ?_) _
    exact .bind (ensures_expectEnd true) fun _ => (hnext ()).then _

theorem progresses_nextCondition : Progresses (nextCondition (expression depth)) := by
  intro next next' n hnext _
  refine .bind_of_reads (ensures_expression_ne_nil depth lowest) fun test => ?_
  refine .bind (ensures_block (ensures_expression depth) Expression.starts) fun body => ?_
  refine .bind ensures_takeElse? fun otherwise => ?_
  split
  · exact same_take?_then nofun ((hnext ()).then _) (.refl _)
  · exact .refl _

theorem progresses_nextParameters : Progresses nextParameters := by
  intro next next' n hnext params
  refine .bind ensures_skipNewlines fun _ => same_peek_then fun kind => ?_
  split
  · exact (Same.refl _).at _
  · next x =>
    split
    · exact (Same.refl _).at _
    · refine sameAt_advance_then nofun (.bind ensures_skipNewlines fun _ => ?_)
      exact same_take?_then nofun (hnext _) (.refl _)
  · exact (Same.refl _).at _

theorem progresses_nextSuffixes (level : Level) :
    Progresses (nextSuffixes (expression depth) level) := by
  intro next next' n hnext left
  refine same_peek_then fun kind => ?_
  split
  · next suffix hsuffix =>
    split
    · have hkind : kind ≠ .endOfInput := by
        rintro rfl
        cases hsuffix
      exact sameAt_advance_then hkind
        (.bind (ensures_grown (ensures_expression depth) left suffix) hnext)
    · exact (Same.refl _).at _
  · exact (Same.refl _).at _

/-- The loops inside a statement, as far as its expressions are read with `sub`. -/
structure AllSettle (sub : Level → Parser Expr) : Prop where
  elements (closing : Symbol) : Settles (nextElements sub closing)
  pairs : Settles (nextPairs sub)
  statements : Settles (nextStatements sub)
  conditions : Settles (nextCondition sub)
  parameters : Settles nextParameters
  suffixes (level : Level) : Settles (nextSuffixes sub level)

theorem allSettle_expression : AllSettle (expression depth) where
  elements closing := (progresses_nextElements depth closing).settles
  pairs := (progresses_nextPairs depth).settles
  statements := (progresses_nextStatements depth).settles
  conditions := (progresses_nextCondition depth).settles
  parameters := progresses_nextParameters.settles
  suffixes level := (progresses_nextSuffixes depth level).settles

end Bodies

end Tang.Parser
