import Mathlib.Tactic.Common
import Tang.Builtin.Apply

/-! Templates are texts divided into characters, doubled percent signs and verbs. A text can be
divided in one way at most. If it can, and there is an argument for each verb, then it is filled
part by part; otherwise the first place at which no part can be read, or a verb has no argument,
decides the failure. -/

namespace Tang

namespace Template

/-! ### Parts -/

inductive Part where
  | literal (c : Char) (ne_percent : c ≠ '%')
  | percent
  | verb

/-- A part as it is written in a template. -/
def Part.chars : Part → List Char
  | .literal c _ => [c]
  | .percent => ['%', '%']
  | .verb => ['%', 'v']

def write (parts : List Part) : List Char :=
  parts.flatMap Part.chars

/-- The number of arguments that a part takes. -/
def Part.arity : Part → Nat
  | .verb => 1
  | _ => 0

def verbs : List Part → Nat
  | [] => 0
  | part :: parts => verbs parts + part.arity

/-- The literal characters, one percent sign for two, and the arguments in the places of the
verbs. -/
def filled : List Part → List Value → List Char
  | [], _ => []
  | .literal c _ :: parts, args => c :: filled parts args
  | .percent :: parts, args => '%' :: filled parts args
  | .verb :: parts, [] => filled parts []
  | .verb :: parts, arg :: args => arg.render.toList ++ filled parts args

/-- Here no part can be read for which there are arguments, `left` of which have not been used. -/
inductive Offends : (left : Nat) → List Char → RuntimeError → Prop
  | missing {cs : List Char} : Offends 0 ('%' :: 'v' :: cs) .missingArgument
  | unknown {left : Nat} {c : Char} {cs : List Char} : c ≠ '%' → c ≠ 'v' →
    Offends left ('%' :: c :: cs) (.badVerb (some c))
  | lone {left : Nat} : Offends left ['%'] (.badVerb none)

/-- The template offends behind these parts, for which there are arguments. -/
structure Breaks (cs : List Char) (args : List Value) (parts : List Part) (rest : List Char)
    (cause : RuntimeError) : Prop where
  eq : cs = write parts ++ rest
  verbs_le : verbs parts ≤ args.length
  offends : Offends (args.length - verbs parts) rest cause

variable {parts : List Part} {args : List Value} {cs rest : List Char} {cause : RuntimeError}

@[simp] theorem write_nil : write [] = [] := rfl

@[simp] theorem write_cons (part : Part) (parts : List Part) :
    write (part :: parts) = part.chars ++ write parts :=
  List.flatMap_cons

/-- The first two characters tell which part comes first. -/
theorem Part.chars_append_inj {p q : Part} {cs ds : List Char}
    (h : p.chars ++ cs = q.chars ++ ds) : p = q ∧ cs = ds := by
  cases p with
  | literal c hc => cases q <;> simp_all [Part.chars]
  | percent => cases q with
    | literal d hd => exact absurd (List.cons.inj h).1.symm hd
    | _ => simp_all [Part.chars]
  | verb => cases q with
    | literal d hd => exact absurd (List.cons.inj h).1.symm hd
    | _ => simp_all [Part.chars]

theorem Part.chars_ne_nil (part : Part) : part.chars ≠ [] := by
  cases part <;> simp [Part.chars]

/-- A text can be divided in one way only. -/
theorem write_injective {ps qs : List Part} (h : write ps = write qs) : ps = qs := by
  induction ps generalizing qs with
  | nil => cases qs with
    | nil => rfl
    | cons q qs => exact absurd h.symm (by simp [q.chars_ne_nil])
  | cons p ps ih => cases qs with
    | nil => exact absurd h (by simp [p.chars_ne_nil])
    | cons q qs =>
      obtain ⟨rfl, hparts⟩ := Part.chars_append_inj h
      rw [ih hparts]

/-! ### Filling -/

theorem fill_cons_of_ne {c : Char} (hc : c ≠ '%') (cs : List Char) (args : List Value) :
    fill (c :: cs) args = (fill cs args).map (c :: ·) := by
  rw [fill.eq_def]
  simp [hc]

theorem map_append_nil (result : Except RuntimeError (List Char)) :
    result.map ([] ++ ·) = result := by
  cases result <;> rfl

theorem map_cons_append (c : Char) (cs : List Char) (result : Except RuntimeError (List Char)) :
    (result.map (cs ++ ·)).map (c :: ·) = result.map (c :: cs ++ ·) := by
  cases result <;> rfl

theorem map_append_append (cs ds : List Char) (result : Except RuntimeError (List Char)) :
    (result.map (ds ++ ·)).map (cs ++ ·) = result.map (cs ++ ds ++ ·) := by
  cases result <;> simp [Except.map]

/-- Parts are filled before what follows them, which is left the other arguments. -/
theorem fill_write_append (parts : List Part) (args : List Value) (h : verbs parts ≤ args.length)
    (rest : List Char) :
    fill (write parts ++ rest) args =
      (fill rest (args.drop (verbs parts))).map (filled parts args ++ ·) := by
  induction parts generalizing args with
  | nil => exact (map_append_nil _).symm
  | cons part parts ih =>
    cases part with
    | literal c hc =>
      rw [write_cons, Part.chars, List.append_assoc, List.singleton_append, fill_cons_of_ne hc,
        ih args h, map_cons_append]
      rfl
    | percent =>
      show (fill (write parts ++ rest) args).map ('%' :: ·) = _
      rw [ih args h, map_cons_append]
      rfl
    | verb =>
      cases args with
      | nil => exact absurd h (Nat.not_succ_le_zero _)
      | cons arg args =>
        show (fill (write parts ++ rest) args).map (arg.render.toList ++ ·) = _
        rw [ih args (Nat.le_of_succ_le_succ h), map_append_append]
        rfl

theorem fill_write (h : verbs parts ≤ args.length) :
    fill (write parts) args = .ok (filled parts args) := by
  have hfill := fill_write_append parts args h []
  rw [List.append_nil] at hfill
  rw [hfill, fill]
  simp [Except.map]

theorem Offends.fill_eq (h : Offends args.length cs cause) :
    fill cs args = .error cause := by
  generalize hleft : args.length = left at h
  cases h with
  | missing => rw [List.eq_nil_of_length_eq_zero hleft]; rfl
  | unknown hc hv => rw [fill.eq_def]; simp [hv]
  | lone => cases args <;> rfl

theorem Breaks.fill_eq (h : Breaks cs args parts rest cause) : fill cs args = .error cause := by
  have ho := h.offends
  rw [← List.length_drop] at ho
  rw [h.eq, fill_write_append parts args h.verbs_le rest, ho.fill_eq]
  rfl

/-- A text is divided up to its end or up to the first place that offends. -/
theorem exists_parts (cs : List Char) (args : List Value) :
    ∃ parts rest, cs = write parts ++ rest ∧ verbs parts ≤ args.length ∧
      (rest = [] ∨ ∃ cause, Offends (args.length - verbs parts) rest cause) := by
  fun_induction fill cs args with
  | case1 args => exact ⟨[], [], rfl, Nat.zero_le _, .inl rfl⟩
  | case2 cs args ih =>
    obtain ⟨parts, rest, rfl, hle, hrest⟩ := ih
    exact ⟨.percent :: parts, rest, rfl, hle, hrest⟩
  | case3 cs => exact ⟨[], _, rfl, Nat.le_refl _, .inr ⟨_, .missing⟩⟩
  | case4 cs arg args ih =>
    obtain ⟨parts, rest, rfl, hle, hrest⟩ := ih
    refine ⟨.verb :: parts, rest, rfl, Nat.succ_le_succ hle, ?_⟩
    rwa [verbs, Part.arity, List.length_cons, Nat.add_sub_add_right]
  | case5 c cs args hpercent hmissing hverb =>
    have hv : c ≠ 'v' := by
      intro hc
      cases args with
      | nil => exact hmissing rfl hc
      | cons arg args => exact hverb arg args rfl hc
    exact ⟨[], _, rfl, Nat.zero_le _, .inr ⟨_, .unknown hpercent hv⟩⟩
  | case6 args => exact ⟨[], _, rfl, Nat.zero_le _, .inr ⟨_, .lone⟩⟩
  | case7 c cs args _ _ _ hfollowed hlone ih =>
    have hc : c ≠ '%' := by
      intro hc
      cases cs with
      | nil => exact hlone hc rfl
      | cons d cs => exact hfollowed d cs hc rfl
    obtain ⟨parts, rest, rfl, hle, hrest⟩ := ih
    exact ⟨.literal c hc :: parts, rest, rfl, hle, hrest⟩

theorem fill_eq_ok_iff {text : List Char} :
    fill cs args = .ok text ↔
      ∃ parts, write parts = cs ∧ verbs parts ≤ args.length ∧ text = filled parts args := by
  constructor
  · intro h
    obtain ⟨parts, rest, rfl, hle, rfl | ⟨cause, ho⟩⟩ := exists_parts cs args
    · rw [List.append_nil, fill_write hle] at h
      exact ⟨parts, (List.append_nil _).symm, hle, (Except.ok.inj h).symm⟩
    · rw [Breaks.fill_eq ⟨rfl, hle, ho⟩] at h
      cases h
  · rintro ⟨parts, rfl, hle, rfl⟩
    exact fill_write hle

theorem fill_eq_error_iff :
    fill cs args = .error cause ↔ ∃ parts rest, Breaks cs args parts rest cause := by
  constructor
  · intro h
    obtain ⟨parts, rest, rfl, hle, rfl | ⟨cause', ho⟩⟩ := exists_parts cs args
    · rw [List.append_nil, fill_write hle] at h
      cases h
    · have hbreaks : Breaks (write parts ++ rest) args parts rest cause' := ⟨rfl, hle, ho⟩
      rw [hbreaks.fill_eq] at h
      obtain rfl := Except.error.inj h
      exact ⟨parts, rest, hbreaks⟩
  · rintro ⟨parts, rest, h⟩
    exact h.fill_eq

/-- Where a template offends no part begins for which there are arguments. -/
theorem Offends.lt_arity {left : Nat} {part : Part} (h : Offends left (part.chars ++ cs) cause) :
    left < part.arity := by
  generalize hcs : part.chars ++ cs = ds at h
  cases h with
  | missing =>
    obtain ⟨rfl, -⟩ := Part.chars_append_inj (q := .verb) hcs
    exact Nat.one_pos
  | unknown hc hv =>
    cases part with
    | literal d hd => exact absurd (List.cons.inj hcs).1 hd
    | percent => exact absurd (List.cons.inj (List.cons.inj hcs).2).1.symm hc
    | verb => exact absurd (List.cons.inj (List.cons.inj hcs).2).1.symm hv
  | lone => cases part <;> simp_all [Part.chars]

/-- A template offends at one place at most. -/
theorem offends_unique {left : Nat} {ps qs : List Part} {cs ds : List Char}
    {cause cause' : RuntimeError} (h : write ps ++ cs = write qs ++ ds) (hp : verbs ps ≤ left)
    (hq : verbs qs ≤ left) (hc : Offends (left - verbs ps) cs cause)
    (hd : Offends (left - verbs qs) ds cause') : ps = qs ∧ cs = ds := by
  induction ps generalizing qs left with
  | nil =>
    cases qs with
    | nil => exact ⟨rfl, h⟩
    | cons q qs =>
      obtain rfl : cs = q.chars ++ (write qs ++ ds) := by simpa using h
      have hlt := hc.lt_arity
      simp only [verbs] at hlt hq
      omega
  | cons p ps ih =>
    cases qs with
    | nil =>
      obtain rfl : p.chars ++ (write ps ++ cs) = ds := by simpa using h
      have hlt := hd.lt_arity
      simp only [verbs] at hlt hp
      omega
    | cons q qs =>
      rw [write_cons, write_cons, List.append_assoc, List.append_assoc] at h
      obtain ⟨rfl, hrest⟩ := Part.chars_append_inj h
      simp only [verbs, Nat.add_comm _ p.arity, Nat.sub_add_eq] at hp hq hc hd
      obtain ⟨rfl, rfl⟩ := ih hrest (by omega) (by omega) hc hd
      exact ⟨rfl, rfl⟩

/-! ### Escaping -/

/-- A text in which every percent sign is written twice. -/
def escape (cs : List Char) : List Char :=
  cs.flatMap fun c => if c = '%' then ['%', '%'] else [c]

theorem fill_escape_append (cs rest : List Char) (args : List Value) :
    fill (escape cs ++ rest) args = (fill rest args).map (cs ++ ·) := by
  induction cs with
  | nil => exact (map_append_nil _).symm
  | cons c cs ih =>
    rw [escape, List.flatMap_cons, ← escape]
    split
    · next hc =>
      subst hc
      show (fill (escape cs ++ rest) args).map ('%' :: ·) = _
      rw [ih, map_cons_append]
    · next hc =>
      rw [List.append_assoc, List.singleton_append, fill_cons_of_ne hc, ih, map_cons_append]

/-- The template of texts with a verb between any two of them. -/
def interleave (first : String) (others : List String) : List Char :=
  escape first.toList ++ others.flatMap fun text => '%' :: 'v' :: escape text.toList

theorem fill_interleave (first : String) (others : List (Value × String)) (more : List Value) :
    fill (interleave first (others.map Prod.snd)) (others.map Prod.fst ++ more) =
      .ok (first.toList ++
        others.flatMap fun other => other.1.render.toList ++ other.2.toList) := by
  induction others generalizing first with
  | nil => rw [interleave, fill_escape_append, List.map_nil, List.flatMap_nil, fill]; rfl
  | cons other others ih =>
    rw [interleave, fill_escape_append, List.map_cons, List.flatMap_cons]
    -- behind the first text stands a verb, and then a template of the other texts
    show ((fill (interleave other.2 (others.map Prod.snd)) (others.map Prod.fst ++ more)).map
      (other.1.render.toList ++ ·)).map (first.toList ++ ·) = _
    rw [ih other.2, map_append_append]
    simp [Except.map]

end Template

/-! ### The builtin function -/

open Template

theorem Builtin.apply_format_eq (template : String) (args : List Value) (sink : Sink) :
    apply .format (.str template :: args) sink =
      match fill template.toList args with
      | .ok text => .ok (.str (String.ofList text)) sink
      | .error cause => .error (.error cause) sink := by
  rw [apply]
  cases fill template.toList args <;> rfl

theorem Builtin.apply_format_eq_ok_iff {template : String} {args : List Value} {value : Value}
    {sink sink' : Sink} :
    apply .format (.str template :: args) sink = .ok value sink' ↔
      sink' = sink ∧ ∃ text, fill template.toList args = .ok text ∧
        value = .str (String.ofList text) := by
  rw [apply_format_eq]
  cases fill template.toList args with
  | ok text => simp [eq_comm, and_comm]
  | error cause => simp

theorem Builtin.apply_format_eq_error_iff {template : String} {args : List Value} {signal : Signal}
    {sink sink' : Sink} :
    apply .format (.str template :: args) sink = .error signal sink' ↔
      sink' = sink ∧ ∃ cause, fill template.toList args = .error cause ∧
        signal = .error cause := by
  rw [apply_format_eq]
  cases fill template.toList args with
  | ok text => simp
  | error cause => simp [eq_comm, and_comm]

/-- A template can be divided in one way at most. `format` has a value exactly if it can be and
there is an argument for each verb; its value is then the text of the parts, in which the texts of
arguments stand as they are and arguments that are left over count for nothing. Otherwise it fails
as the only place says at which no part begins for which there is an argument. So texts with each
percent sign written twice, with a verb between any two of them, come out with the arguments between
them. Nothing is written to the output. -/
theorem Builtin.apply_format (template : String) (args : List Value) (sink : Sink) :
    (∀ ps qs, write ps = template.toList → write qs = template.toList → ps = qs) ∧
    (∀ value sink', apply .format (.str template :: args) sink = .ok value sink' ↔
      sink' = sink ∧ ∃ parts, write parts = template.toList ∧ verbs parts ≤ args.length ∧
        value = .str (String.ofList (filled parts args))) ∧
    (∀ signal sink', apply .format (.str template :: args) sink = .error signal sink' ↔
      sink' = sink ∧ ∃ cause parts rest, signal = .error cause ∧
        Breaks template.toList args parts rest cause) ∧
    (∀ ps cs cause qs ds cause', Breaks template.toList args ps cs cause →
      Breaks template.toList args qs ds cause' → ps = qs ∧ cs = ds ∧ cause = cause') ∧
    (∀ (first : String) (others : List (Value × String)) (more : List Value),
      apply .format (.str (String.ofList (interleave first (others.map Prod.snd))) ::
          (others.map Prod.fst ++ more)) sink =
        .ok (.str (first ++ String.join (others.map fun other => other.1.render ++ other.2)))
          sink) := by
  refine ⟨fun ps qs hp hq => write_injective (hp.trans hq.symm), ?_, ?_, ?_, ?_⟩
  · intro value sink'
    rw [apply_format_eq_ok_iff]
    refine and_congr_right fun _ => ⟨?_, ?_⟩
    · rintro ⟨text, hfill, rfl⟩
      obtain ⟨parts, hwrite, hle, rfl⟩ := fill_eq_ok_iff.1 hfill
      exact ⟨parts, hwrite, hle, rfl⟩
    · rintro ⟨parts, hwrite, hle, rfl⟩
      exact ⟨filled parts args, fill_eq_ok_iff.2 ⟨parts, hwrite, hle, rfl⟩, rfl⟩
  · intro signal sink'
    rw [apply_format_eq_error_iff]
    refine and_congr_right fun _ => exists_congr fun cause => ?_
    rw [fill_eq_error_iff]
    constructor
    · rintro ⟨⟨parts, rest, hbreaks⟩, hsignal⟩
      exact ⟨parts, rest, hsignal, hbreaks⟩
    · rintro ⟨parts, rest, hsignal, hbreaks⟩
      exact ⟨⟨parts, rest, hbreaks⟩, hsignal⟩
  · intro ps cs cause qs ds cause' h h'
    obtain ⟨rfl, rfl⟩ := offends_unique (h.eq.symm.trans h'.eq) h.verbs_le h'.verbs_le h.offends
      h'.offends
    exact ⟨rfl, rfl, Except.error.inj (h.fill_eq.symm.trans h'.fill_eq)⟩
  · intro first others more
    have hfill := fill_interleave first others more
    rw [← String.toList_ofList (l := interleave _ _)] at hfill
    refine apply_format_eq_ok_iff.2 ⟨rfl, _, hfill, congrArg Value.str ?_⟩
    apply String.toList_injective
    simp [List.flatMap_map]

/-- An argument that looks like a template, one that is left over, and a verb that is none before
one that has no argument. -/
theorem Builtin.apply_format_unknownVerb :
    apply .format [.str "%v%%", .str "%v", .null] (.empty none) =
        .ok (.str "%v%") (.empty none) ∧
      apply .format [.str "%v%d%v", .int 1] (.empty none) =
        .error (.error (.badVerb (some 'd'))) (.empty none) := by
  constructor
  · have hformat := (apply_format "%v%%" [.str "%v", .null] (.empty none)).2.1 (.str "%v%")
    exact (hformat _).2 ⟨rfl, [.verb, .percent], by decide, by decide, by decide +kernel⟩
  · have hformat := (apply_format "%v%d%v" [.int 1] (.empty none)).2.2.1
    refine (hformat _ _).2 ⟨rfl, _, [.verb], ['%', 'd', '%', 'v'], rfl, by decide, by decide, ?_⟩
    exact .unknown (by decide) (by decide)

end Tang
