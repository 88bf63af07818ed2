import Tang.Proofs.Action
import Tang.Proofs.Grammar
import Tang.Syntax.Parser.Basic

/-! How parsers relate to rows of tokens. `Ensures` says what is known about the tokens that a
parser has read whenever it succeeds; `Reads` says that it succeeds on a given row and stops behind
it. Both are derived step by step along the text of a parser. -/

namespace Tang.Parser

open Token (Kind)
open Grammar (Newlines Separators)

variable {α β σ : Type}

def kinds (tokens : List Token) : List Kind :=
  tokens.map Token.kind

@[simp] theorem kinds_append (tokens rest : List Token) :
    kinds (tokens ++ rest) = kinds tokens ++ kinds rest := List.map_append

/-- The kind of the next token. -/
def next (w : List Kind) : Kind :=
  w.headD .endOfInput

@[simp] theorem next_cons (kind : Kind) (w : List Kind) : next (kind :: w) = kind := rfl

theorem headKind_eq (tokens : List Token) : headKind tokens = next (kinds tokens) := by
  cases tokens <;> rfl

/-! ### What has been read -/

/-- Whenever the parser succeeds, its value and the rows of what it has read and of what it has left
are related by `Q`. -/
def Ensures (p : Parser α) (Q : List Kind → α → List Kind → Prop) : Prop :=
  ∀ ⦃tokens a rest⦄, p tokens = .ok a rest →
    ∃ used, tokens = used ++ rest ∧ Q (kinds used) a (kinds rest)

section Ensures

variable {p : Parser α} {f : α → Parser β} {P : List Kind → α → List Kind → Prop}
  {Q : List Kind → β → List Kind → Prop}

theorem Ensures.imp {P' : List Kind → α → List Kind → Prop} (h : Ensures p P)
    (hi : ∀ w a r, P w a r → P' w a r) : Ensures p P' := by
  intro tokens a rest hp
  obtain ⟨used, rfl, ha⟩ := h hp
  exact ⟨used, rfl, hi _ _ _ ha⟩

theorem Ensures.bind (h : Ensures p P)
    (hf : ∀ a w, Ensures (f a) fun w' b r => P w a (w' ++ r) → Q (w ++ w') b r) :
    Ensures (p >>= f) Q := by
  intro tokens b rest hpf
  obtain ⟨a, tokens', ha, hb⟩ := Action.bind_eq_ok_iff.1 hpf
  obtain ⟨used, rfl, hP⟩ := h ha
  obtain ⟨used', rfl, hQ⟩ := hf a (kinds used) hb
  rw [kinds_append] at hP
  exact ⟨used ++ used', (List.append_assoc _ _ _).symm, by rw [kinds_append]; exact hQ hP⟩

/-- A step of which only the tokens read matter. -/
theorem Ensures.and_then {P : List Kind → α → Prop} (h : Ensures p fun w a _ => P w a)
    (hf : ∀ a w, P w a → Ensures (f a) fun w' b r => Q (w ++ w') b r) : Ensures (p >>= f) Q := by
  intro tokens b rest hpf
  obtain ⟨a, tokens', ha, hb⟩ := Action.bind_eq_ok_iff.1 hpf
  obtain ⟨used, rfl, hP⟩ := h ha
  obtain ⟨used', rfl, hQ⟩ := hf a (kinds used) hP hb
  exact ⟨used ++ used', (List.append_assoc _ _ _).symm, by rw [kinds_append]; exact hQ⟩

theorem ensures_pure {a : α} (h : ∀ r, P [] a r) : Ensures (pure a) P := by
  rintro tokens _ _ ⟨⟩
  exact ⟨[], rfl, h _⟩

theorem Ensures.map {g : α → β} (h : Ensures p P) (hg : ∀ w a r, P w a r → Q w (g a) r) :
    Ensures (p >>= fun a => pure (g a)) Q :=
  h.bind fun a w => ensures_pure fun r ha => by simpa using hg w a r ha

theorem ensures_throw (cause : ParseCause) : Ensures (throw cause : Parser α) P := nofun

theorem ensures_peek : Ensures peek fun w kind r => w = [] ∧ kind = next r := by
  rintro tokens _ _ ⟨⟩
  exact ⟨[], rfl, rfl, headKind_eq tokens⟩

theorem ensures_peek_then {f : Kind → Parser β}
    (hf : ∀ kind, Ensures (f kind) fun w b r => kind = next (w ++ r) → Q w b r) :
    Ensures (peek >>= f) Q := by
  refine ensures_peek.bind fun kind w => (hf kind).imp fun w' b r hQ hpeek => ?_
  rw [hpeek.1]
  exact hQ hpeek.2

/-- The next two tokens are looked at. -/
theorem ensures_peek_peekNext_then {f : Kind → Kind → Parser β}
    (hf : ∀ kind kind', Ensures (f kind kind') fun w b r =>
      kind = next (w ++ r) → kind' = next (w ++ r).tail → Q w b r) :
    Ensures (peek >>= fun kind => peekNext >>= fun kind' => f kind kind') Q := by
  intro tokens b rest h
  obtain ⟨used, rfl, hQ⟩ := hf (headKind tokens) (headKind tokens.tail) h
  refine ⟨used, rfl, hQ ?_ ?_⟩
  · rw [headKind_eq, kinds_append]
  · rw [headKind_eq, ← kinds_append, kinds, kinds, List.map_tail]

theorem ensures_advance {kind : Kind} (hk : kind ≠ .endOfInput) :
    Ensures advance fun w _ r => kind = next (w ++ r) → w = [kind] := by
  rintro tokens _ _ ⟨⟩
  cases tokens with
  | nil => exact ⟨[], rfl, fun he => absurd he hk⟩
  | cons token tokens => exact ⟨[token], rfl, fun he => by rw [he]; rfl⟩

/-- A token whose kind has been looked at is read. -/
theorem ensures_advance_then {f : Unit → Parser β} {kind : Kind} (hk : kind ≠ .endOfInput)
    (hf : Ensures (f ()) fun w b r => Q (kind :: w) b r) :
    Ensures (advance >>= f) fun w b r => kind = next (w ++ r) → Q w b r := by
  refine (ensures_advance hk).bind fun _ w => hf.imp fun w' b r hQ hw he => ?_
  rw [List.append_assoc] at he
  rw [hw he]
  exact hQ

theorem ensures_expect {kind : Kind} (hk : kind ≠ .endOfInput) :
    Ensures (expect kind) fun w _ _ => w = [kind] := by
  refine ensures_peek.bind fun found w => ?_
  split
  · next h =>
    refine (ensures_advance hk).imp fun w' _ r hw hpeek => ?_
    obtain ⟨rfl, rfl⟩ := hpeek
    exact hw h.symm
  · exact ensures_throw _

theorem ensures_expect_then {f : Unit → Parser β} {kind : Kind} (hk : kind ≠ .endOfInput)
    (hf : Ensures (f ()) fun w b r => Q (kind :: w) b r) : Ensures (expect kind >>= f) Q := by
  apply (ensures_expect hk).and_then
  rintro _ _ rfl
  exact hf

theorem ensures_take? {kind : Kind} (hk : kind ≠ .endOfInput) :
    Ensures (take? kind) fun w taken _ => w = if taken = true then [kind] else [] := by
  refine ensures_peek.bind fun found w => ?_
  split
  · next h =>
    refine (ensures_advance hk).map fun w' _ r hw hpeek => ?_
    obtain ⟨rfl, rfl⟩ := hpeek
    exact hw h.symm
  · exact ensures_pure fun r hpeek => by rw [hpeek.1]; rfl

/-- Either a token comes next and is read, or nothing is. -/
theorem ensures_take?_then {p q : Parser β} {kind : Kind} (hk : kind ≠ .endOfInput)
    (hp : Ensures p fun w b r => Q (kind :: w) b r) (hq : Ensures q Q) :
    Ensures (take? kind >>= fun taken => if taken = true then p else q) Q := by
  apply (ensures_take? hk).and_then
  rintro taken w rfl
  cases taken with
  | true => exact hp
  | false => exact hq

theorem ensures_expectEnd (inBlock : Bool) : Ensures (expectEnd inBlock) fun w _ r => w = [] ∧
    ((next r).isSeparator = true ∨ next r = .endOfInput ∨
      inBlock = true ∧ next r = .symbol .closeBrace) := by
  refine ensures_peek.bind fun found w => ?_
  split
  · next h =>
    refine ensures_pure fun r hpeek => ?_
    obtain ⟨rfl, rfl⟩ := hpeek
    simpa [or_assoc] using h
  · exact ensures_throw _

/-- The first tokens of a list, as far as they have a property. -/
theorem ensures_dropWhile (q : Kind → Bool) :
    Ensures (fun tokens => .ok () (tokens.dropWhile (q ·.kind))) fun w _ _ =>
      ∀ kind ∈ w, q kind = true := by
  rintro tokens _ _ ⟨⟩
  refine ⟨tokens.takeWhile (q ·.kind), List.takeWhile_append_dropWhile.symm, ?_⟩
  intro kind hm
  obtain ⟨token, ht, rfl⟩ := List.mem_map.1 hm
  exact List.all_eq_true.1 List.all_takeWhile token ht

theorem ensures_skipNewlines : Ensures skipNewlines fun w _ _ => Newlines w :=
  ensures_dropWhile _

theorem ensures_skipSeparators : Ensures skipSeparators fun w _ _ => Separators w :=
  ensures_dropWhile _

theorem ensures_takeElse? : Ensures takeElse? fun w taken _ =>
    if taken = true then ∃ n, Newlines n ∧ w = n ++ [.keyword .elseWord] else w = [] := by
  have hread : Ensures (skipNewlines >>= fun _ => expect (.keyword .elseWord)) fun w _ _ =>
      ∃ n, Newlines n ∧ w = n ++ [.keyword .elseWord] :=
    ensures_skipNewlines.and_then fun _ n hn =>
      (ensures_expect (by decide)).imp fun w _ _ hw => ⟨n, hn, by rw [hw]⟩
  intro tokens taken rest h
  simp only [takeElse?] at h
  split at h
  · next he =>
    obtain ⟨rfl, rfl⟩ := EStateM.Result.ok.inj h
    have hskip : skipNewlines tokens = .ok () (tokens.dropWhile (·.kind.isNewline)) := rfl
    have hpeek : peek (tokens.dropWhile (·.kind.isNewline)) =
        .ok (.keyword .elseWord) (tokens.dropWhile (·.kind.isNewline)) := by rw [peek, he]
    apply hread (a := ())
    rw [Action.bind_of_ok hskip, expect, Action.bind_of_ok hpeek]
    rfl
  · obtain ⟨rfl, rfl⟩ := EStateM.Result.ok.inj h
    exact ⟨[], rfl, rfl⟩

/-- What one use of the body ensures, if it may assume the same of the next one. -/
theorem ensures_repeated {body : (σ → Parser α) → σ → Parser α}
    {Q : σ → List Kind → α → List Kind → Prop}
    (h : ∀ next, (∀ s, Ensures (next s) (Q s)) → ∀ s, Ensures (body next s) (Q s)) (s : σ) :
    Ensures (repeated body s) (Q s) := by
  intro tokens a rest hp
  induction hl : tokens.length using Nat.strongRecOn generalizing s tokens a rest with
  | ind l ih =>
    subst hl
    rw [repeated] at hp
    refine h _ (fun s' tokens' a' rest' hp' => ?_) s hp
    split at hp'
    · next hlt => exact ih _ hlt s' hp' rfl
    · cases hp'

end Ensures

/-! ### What is read -/

/-- On tokens of the row `w` before `rest` the parser succeeds with the value `a` and stops at
`rest`. -/
def Reads (p : Parser α) (w : List Kind) (a : α) (rest : List Token) : Prop :=
  ∀ ⦃used⦄, kinds used = w → p (used ++ rest) = .ok a rest

section Reads

variable {p : Parser α} {f : α → Parser β} {w w' : List Kind} {a : α} {b : β} {rest : List Token}
  {kind : Kind}

theorem headKind_append {used : List Token} (hu : kinds used = w) :
    headKind (used ++ rest) = next (w ++ kinds rest) := by
  rw [headKind_eq, kinds_append, hu]

theorem reads_pure (a : α) : Reads (pure a) [] a rest := by
  intro used hu
  rw [List.map_eq_nil_iff.1 hu]
  rfl

/-- A step that reads the first part of a row. What follows it starts with the second part. -/
theorem Reads.bind (hp : ∀ used, kinds used = w' → Reads p w a (used ++ rest))
    (hf : Reads (f a) w' b rest) : Reads (p >>= f) (w ++ w') b rest := by
  intro used hu
  obtain ⟨used₁, used₂, rfl, h₁, h₂⟩ := List.map_eq_append_iff.1 hu
  rw [List.append_assoc, Action.bind_of_ok (hp used₂ h₂ h₁)]
  exact hf h₂

/-- A step that reads a whole row. -/
theorem Reads.last (hp : Reads p w a rest) (hf : Reads (f a) [] b rest) :
    Reads (p >>= f) w b rest := by
  intro used hu
  rw [Action.bind_of_ok (hp hu)]
  exact @hf [] rfl

theorem Reads.map {g : α → β} (h : Reads p w a rest) :
    Reads (p >>= fun a => pure (g a)) w (g a) rest :=
  h.last (reads_pure (g a))

theorem reads_peek {f : Kind → Parser β} (hf : Reads (f (next (w ++ kinds rest))) w b rest) :
    Reads (peek >>= f) w b rest := by
  intro used hu
  have hpeek : peek (used ++ rest) = .ok (next (w ++ kinds rest)) (used ++ rest) := by
    rw [peek, headKind_append hu]
  rw [Action.bind_of_ok hpeek]
  exact hf hu

/-- The next two tokens are looked at. -/
theorem reads_peek_peekNext {f : Kind → Kind → Parser β}
    (hf : Reads (f (next (w ++ kinds rest)) (next (w ++ kinds rest).tail)) w b rest) :
    Reads (peek >>= fun kind => peekNext >>= fun kind' => f kind kind') w b rest := by
  apply reads_peek
  intro used hu
  have hpeek : peekNext (used ++ rest) = .ok (next (w ++ kinds rest).tail) (used ++ rest) := by
    rw [peekNext, headKind_eq, ← hu, ← kinds_append, kinds, kinds, List.map_tail]
  rw [Action.bind_of_ok hpeek]
  exact hf hu

theorem reads_advance {f : Unit → Parser β} (hf : Reads (f ()) w b rest) :
    Reads (advance >>= f) (kind :: w) b rest := by
  intro used hu
  obtain ⟨token, used, rfl, -, hu⟩ := List.map_eq_cons_iff.1 hu
  exact hf hu

theorem reads_expect {f : Unit → Parser β} (hf : Reads (f ()) w b rest) :
    Reads (expect kind >>= f) (kind :: w) b rest := by
  intro used hu
  obtain ⟨token, used, rfl, rfl, hw⟩ := List.map_eq_cons_iff.1 hu
  have hexpect : expect token.kind (token :: used ++ rest) = .ok () (used ++ rest) := by
    rw [expect, Action.bind_of_ok (show peek (token :: used ++ rest) = .ok token.kind _ from rfl),
      if_pos rfl]
    rfl
  rw [Action.bind_of_ok hexpect]
  exact hf hw

/-- The token comes next. -/
theorem reads_take? {p q : Parser β} (hp : Reads p w b rest) :
    Reads (take? kind >>= fun taken => if taken = true then p else q) (kind :: w) b rest := by
  intro used hu
  obtain ⟨token, used, rfl, rfl, hw⟩ := List.map_eq_cons_iff.1 hu
  have htake : take? token.kind (token :: used ++ rest) = .ok true (used ++ rest) := by
    rw [take?, Action.bind_of_ok (show peek (token :: used ++ rest) = .ok token.kind _ from rfl),
      if_pos rfl]
    rfl
  rw [Action.bind_of_ok htake]
  exact hp hw

/-- The token does not come next. -/
theorem reads_not_take? {p q : Parser β} (hne : next (w ++ kinds rest) ≠ kind)
    (hq : Reads q w b rest) :
    Reads (take? kind >>= fun taken => if taken = true then p else q) w b rest := by
  intro used hu
  have hpeek : peek (used ++ rest) = .ok (next (w ++ kinds rest)) (used ++ rest) := by
    rw [peek, headKind_append hu]
  have htake : take? kind (used ++ rest) = .ok false (used ++ rest) := by
    rw [take?, Action.bind_of_ok hpeek, if_neg hne]
    rfl
  rw [Action.bind_of_ok htake]
  exact hq hu

theorem reads_expectEnd {f : Unit → Parser β} {inBlock : Bool}
    (hend : (next (w ++ kinds rest)).isSeparator = true ∨ next (w ++ kinds rest) = .endOfInput ∨
      inBlock = true ∧ next (w ++ kinds rest) = .symbol .closeBrace)
    (hf : Reads (f ()) w b rest) : Reads (expectEnd inBlock >>= f) w b rest := by
  intro used hu
  have hpeek : peek (used ++ rest) = .ok (next (w ++ kinds rest)) (used ++ rest) := by
    rw [peek, headKind_append hu]
  have hexpect : expectEnd inBlock (used ++ rest) = .ok () (used ++ rest) := by
    rw [expectEnd, Action.bind_of_ok hpeek, if_pos (by simpa [or_assoc] using hend)]
    rfl
  rw [Action.bind_of_ok hexpect]
  exact hf hu

theorem dropWhile_eq_self {q : Kind → Bool} {tokens : List Token}
    (hq : q (next (kinds tokens)) = false) : tokens.dropWhile (q ·.kind) = tokens := by
  cases tokens with
  | nil => rfl
  | cons token tokens => exact List.dropWhile_cons_of_neg (by simpa [kinds] using hq)

theorem dropWhile_append {q : Kind → Bool} {n tokens : List Token}
    (hn : ∀ kind ∈ kinds n, q kind = true) :
    (n ++ tokens).dropWhile (q ·.kind) = tokens.dropWhile (q ·.kind) :=
  List.dropWhile_append_of_pos fun token hm => hn token.kind (List.mem_map_of_mem hm)

/-- As many tokens as have a property are skipped. -/
theorem reads_dropWhile {q : Kind → Bool} {f : Unit → Parser β} {n : List Kind}
    (hn : ∀ kind ∈ n, q kind = true) (hw : q (next (w ++ kinds rest)) = false)
    (hf : Reads (f ()) w b rest) :
    Reads ((fun tokens => .ok () (tokens.dropWhile (q ·.kind)) : Parser Unit) >>= f) (n ++ w) b
      rest := by
  intro used hu
  obtain ⟨used₁, used₂, rfl, rfl, h₂⟩ := List.map_eq_append_iff.1 hu
  have hskip : (used₁ ++ used₂ ++ rest).dropWhile (q ·.kind) = used₂ ++ rest := by
    rw [List.append_assoc, dropWhile_append hn]
    exact dropWhile_eq_self (by rw [kinds_append, kinds, h₂]; exact hw)
  rw [← hf h₂, ← hskip]
  rfl

theorem reads_skipNewlines {f : Unit → Parser β} {n : List Kind} (hn : Newlines n)
    (hw : (next (w ++ kinds rest)).isNewline = false) (hf : Reads (f ()) w b rest) :
    Reads (skipNewlines >>= f) (n ++ w) b rest :=
  reads_dropWhile hn hw hf

theorem reads_skipSeparators {f : Unit → Parser β} {s : List Kind} (hs : Separators s)
    (hw : (next (w ++ kinds rest)).isSeparator = false) (hf : Reads (f ()) w b rest) :
    Reads (skipSeparators >>= f) (s ++ w) b rest :=
  reads_dropWhile hs hw hf

/-- The word `else` does not come next, not even after line ends. -/
def NoElse (r : List Kind) : Prop :=
  next (r.dropWhile Kind.isNewline) ≠ .keyword .elseWord

theorem reads_takeElse? {p q : Parser β} {n : List Kind} (hn : Newlines n)
    (hp : Reads p w b rest) :
    Reads (takeElse? >>= fun taken => if taken = true then p else q)
      (n ++ .keyword .elseWord :: w) b rest := by
  intro used hu
  obtain ⟨used₁, used₂, rfl, rfl, h₂⟩ := List.map_eq_append_iff.1 hu
  obtain ⟨token, used₂, rfl, hk, hw⟩ := List.map_eq_cons_iff.1 h₂
  have hskip : (used₁ ++ token :: used₂ ++ rest).dropWhile (·.kind.isNewline) =
      token :: (used₂ ++ rest) := by
    rw [List.append_assoc, dropWhile_append hn]
    exact dropWhile_eq_self (by rw [List.cons_append, kinds, List.map_cons, hk]; rfl)
  have htake : takeElse? (used₁ ++ token :: used₂ ++ rest) = .ok true (used₂ ++ rest) := by
    simp only [takeElse?, hskip]
    exact if_pos hk
  rw [Action.bind_of_ok htake]
  exact hp hw

theorem reads_not_takeElse? {p q : Parser β} (hne : NoElse (w ++ kinds rest))
    (hq : Reads q w b rest) :
    Reads (takeElse? >>= fun taken => if taken = true then p else q) w b rest := by
  intro used hu
  have htake : takeElse? (used ++ rest) = .ok false (used ++ rest) := by
    simp only [takeElse?, headKind_eq]
    apply if_neg
    rw [← hu, ← kinds_append, NoElse, kinds, List.dropWhile_map] at hne
    exact hne
  rw [Action.bind_of_ok htake]
  exact hq hu

/-- The body is used again on what is left of the row, which is shorter. -/
theorem reads_repeated {body : (σ → Parser α) → σ → Parser α} {s : σ}
    (h : ∀ next : σ → Parser α,
      (∀ s' w' a', w'.length < w.length → Reads (repeated body s') w' a' rest →
        Reads (next s') w' a' rest) → Reads (body next s) w a rest) :
    Reads (repeated body s) w a rest := by
  intro used hu
  rw [repeated]
  refine h _ (fun s' w' a' hlt hr used' hu' => ?_) hu
  rw [if_pos]
  · exact hr hu'
  · have hlen : used.length = w.length := by rw [← hu, kinds, List.length_map]
    have hlen' : used'.length = w'.length := by rw [← hu', kinds, List.length_map]
    rw [List.length_append, List.length_append]
    omega

end Reads

end Tang.Parser
