import Tang.Eval
import Tang.Proofs.Action

/-! Arithmetic is exact. A calculation is carried out step by step, the operands of an operation
before it and the left one before the right one. If every step has a result that is an integer of
the language, then the calculation comes to what it is over all integers; otherwise the first step
that has none is reported, and nothing is ever wrapped around. -/

namespace Tang

namespace Arithmetic

inductive Operation where
  | add | sub | mul | div | rem
  deriving DecidableEq

namespace Operation

def toBinary : Operation → BinaryOp
  | .add => .add
  | .sub => .sub
  | .mul => .mul
  | .div => .div
  | .rem => .rem

def sign : Operation → String
  | .add => "+"
  | .sub => "-"
  | .mul => "*"
  | .div => "/"
  | .rem => "%"

/-- Whether the operation needs a divisor. -/
def divides : Operation → Bool
  | .div | .rem => true
  | _ => false

/-- The result over all integers. A quotient is cut off toward zero, and a remainder has the sign of
the dividend. -/
def apply : Operation → Int → Int → Int
  | .add, l, r => l + r
  | .sub, l, r => l - r
  | .mul, l, r => l * r
  | .div, l, r => l.tdiv r
  | .rem, l, r => l.tmod r

theorem text_sign (op : Operation) : op.toBinary.sign.text = op.sign := by
  cases op <;> rfl

end Operation

/-! ### Calculations -/

/-- What is made of integer literals by negation and the five operations. -/
inductive Calculation where
  | literal (n : Int64)
  | negated (a : Calculation)
  | combined (op : Operation) (a b : Calculation)

/-- An operation with its operands. -/
inductive Step where
  | negation (operand : Int)
  | operation (op : Operation) (left right : Int)
  deriving DecidableEq

namespace Calculation

def toExpr : Calculation → Expr
  | .literal n => .int n
  | .negated a => .unary .negate a.toExpr
  | .combined op a b => .binary op.toBinary a.toExpr b.toExpr

/-- The value over all integers. -/
def value : Calculation → Int
  | .literal n => n.toInt
  | .negated a => -a.value
  | .combined op a b => op.apply a.value b.value

/-- The steps in their order. -/
def steps : Calculation → List Step
  | .literal _ => []
  | .negated a => a.steps ++ [.negation a.value]
  | .combined op a b => a.steps ++ b.steps ++ [.operation op a.value b.value]

end Calculation

/-- From `-2 ^ 63` up to `2 ^ 63 - 1`. -/
def InRange (n : Int) : Prop :=
  -0x8000000000000000 ≤ n ∧ n ≤ 0x7fffffffffffffff

instance : DecidablePred InRange := fun _ => inferInstanceAs (Decidable (_ ∧ _))

namespace Step

/-- The step has a result that is an integer of the language. The least integer has no remainder by
minus one, although zero would be in range. -/
def Fits : Step → Prop
  | .negation a => InRange (-a)
  | .operation op l r =>
    InRange (op.apply l r) ∧ ¬ (op.divides = true ∧ r = 0) ∧
      ¬ (op = .rem ∧ l = -0x8000000000000000 ∧ r = -1)

instance : DecidablePred Fits := fun step => by
  cases step <;> unfold Fits <;> infer_instance

/-- What is reported of a step that does not fit. -/
def complaint : Step → String
  | .negation a => "integer overflow: -" ++ toString a
  | .operation op l r =>
    if op.divides = true ∧ r = 0 then "division by zero"
    else "integer overflow: " ++ toString l ++ " " ++ op.sign ++ " " ++ toString r

end Step

/-- The first step that does not fit. -/
def firstMisfit? (steps : List Step) : Option Step :=
  steps.find? fun step => !decide step.Fits

/-! ### Single steps -/

theorem inRange_toInt (n : Int64) : InRange n.toInt := by
  have h₁ := n.le_toInt
  have h₂ := n.toInt_lt
  unfold InRange
  omega

theorem ofInt?_of_inRange {n : Int} (h : InRange n) :
    ∃ m, Integer.ofInt? n = some m ∧ m.toInt = n := by
  obtain ⟨h₁, h₂⟩ := h
  refine ⟨Int64.ofInt n, if_pos ?_, Int64.toInt_ofInt_of_le (by omega) (by omega)⟩
  unfold Integer.least Integer.greatest
  omega

theorem ofInt?_of_not_inRange {n : Int} (h : ¬ InRange n) : Integer.ofInt? n = none := by
  unfold InRange at h
  refine if_neg ?_
  unfold Integer.least Integer.greatest
  omega

/-- A quotient of integers of the language is one, too, but for one pair of operands. -/
theorem inRange_tdiv_iff {l r : Int} (hl : InRange l) (hr : r ≠ 0) :
    InRange (l.tdiv r) ↔ ¬ (l = -0x8000000000000000 ∧ r = -1) := by
  unfold InRange at *
  constructor
  · rintro h ⟨rfl, rfl⟩
    exact absurd h (by decide)
  · intro hne
    by_cases hone : r.natAbs = 1
    · rcases (show r = 1 ∨ r = -1 by omega) with rfl | rfl
      · rwa [Int.tdiv_one]
      · rw [Int.tdiv_neg, Int.tdiv_one]
        omega
    · -- a divisor that is not a unit halves the dividend
      have hhalf : (l.tdiv r).natAbs ≤ l.natAbs / 2 := by
        rw [Int.natAbs_tdiv]
        exact Nat.div_le_div_left (by omega) (by decide)
      omega

/-- A remainder lies between zero and the dividend. -/
theorem tmod_between (l r : Int) :
    (0 ≤ l → 0 ≤ l.tmod r ∧ l.tmod r ≤ l) ∧ (l ≤ 0 → l ≤ l.tmod r ∧ l.tmod r ≤ 0) := by
  have hnonneg {n : Int} (hn : 0 ≤ n) : 0 ≤ n.tmod r ∧ n.tmod r ≤ n := by
    have hle : (n.tmod r).natAbs ≤ n.natAbs := by
      rw [Int.natAbs_tmod]
      exact Nat.mod_le _ _
    have := Int.tmod_nonneg r hn
    omega
  refine ⟨hnonneg, fun hl => ?_⟩
  have hneg := hnonneg (Int.neg_nonneg_of_nonpos hl)
  rw [Int.neg_tmod] at hneg
  omega

theorem inRange_tmod {l : Int} (hl : InRange l) (r : Int) : InRange (l.tmod r) := by
  have h := tmod_between l r
  unfold InRange at *
  omega

/-- A quotient times its divisor lies between zero and the dividend. -/
theorem inRange_tdiv_mul {l : Int} (hl : InRange l) (r : Int) : InRange (l.tdiv r * r) := by
  have h := tmod_between l r
  have hsum := Int.tdiv_mul_add_tmod l r
  unfold InRange at *
  omega

theorem negate_of_fits {n : Int64} (h : (Step.negation n.toInt).Fits) :
    ∃ m : Int64, m.toInt = -n.toInt ∧ Value.unary .negate (.int n) = .ok (.int m) := by
  obtain ⟨m, hm, hvalue⟩ := ofInt?_of_inRange h
  refine ⟨m, hvalue, ?_⟩
  simp only [Value.unary, Value.negate, hm]

theorem negate_of_not_fits {n : Int64} (h : ¬ (Step.negation n.toInt).Fits) :
    ∃ cause, cause.message = (Step.negation n.toInt).complaint ∧
      Value.unary .negate (.int n) = .error cause := by
  refine ⟨.negationOverflow n, rfl, ?_⟩
  simp only [Value.unary, Value.negate, ofInt?_of_not_inRange h]

/-- An operation is what it is over all integers if its result is in range; otherwise it has none.
-/
theorem exact_of_inRange {n : Int} (h : InRange n) (op : BinaryOp) (l r : Int64) :
    ∃ m : Int64, m.toInt = n ∧ Value.exact op l r n = .ok (.int m) := by
  obtain ⟨m, hm, hvalue⟩ := ofInt?_of_inRange h
  refine ⟨m, hvalue, ?_⟩
  simp only [Value.exact, hm]

theorem exact_of_not_inRange {n : Int} (h : ¬ InRange n) (op : BinaryOp) (l r : Int64) :
    Value.exact op l r n = .error (.overflow op l r) := by
  simp only [Value.exact, ofInt?_of_not_inRange h]

theorem operate_of_fits {op : Operation} {l r : Int64}
    (h : (Step.operation op l.toInt r.toInt).Fits) :
    ∃ m : Int64, m.toInt = op.apply l.toInt r.toInt ∧
      Value.binary op.toBinary (.int l) (.int r) = .ok (.int m) := by
  obtain ⟨hrange, hzero, hrem⟩ := h
  have hexact := exact_of_inRange hrange op.toBinary l r
  cases op with
  | add | sub | mul => exact hexact
  | div =>
    have hr : r.toInt ≠ 0 := fun hr => hzero ⟨rfl, hr⟩
    simp only [Operation.toBinary, Value.binary, Value.integers, if_neg hr]
    exact hexact
  | rem =>
    have hr : r.toInt ≠ 0 := fun hr => hzero ⟨rfl, hr⟩
    have hquotient := (inRange_tdiv_iff (inRange_toInt l) hr).2 fun h => hrem ⟨rfl, h⟩
    obtain ⟨q, hq, -⟩ := ofInt?_of_inRange hquotient
    simp only [Operation.toBinary, Value.binary, Value.integers, if_neg hr, hq, Option.isSome_some,
      if_true]
    exact hexact

theorem operate_of_not_fits {op : Operation} {l r : Int64}
    (h : ¬ (Step.operation op l.toInt r.toInt).Fits) :
    ∃ cause, cause.message = (Step.operation op l.toInt r.toInt).complaint ∧
      Value.binary op.toBinary (.int l) (.int r) = .error cause := by
  by_cases hzero : op.divides = true ∧ r.toInt = 0
  · refine ⟨.divisionByZero, (if_pos hzero).symm, ?_⟩
    obtain ⟨hdivides, hr⟩ := hzero
    cases op with
    | add | sub | mul => cases hdivides
    | div | rem => simp only [Operation.toBinary, Value.binary, Value.integers, if_pos hr]
  · refine ⟨.overflow op.toBinary l r, ?_, ?_⟩
    · refine Eq.trans ?_ (if_neg hzero).symm
      rw [← Operation.text_sign]
      rfl
    · have hrange : InRange (op.apply l.toInt r.toInt) →
          op = .rem ∧ l.toInt = -0x8000000000000000 ∧ r.toInt = -1 := fun hrange =>
        Classical.not_not.1 fun hrem => h ⟨hrange, hzero, hrem⟩
      have hexact (hne : op ≠ .rem) :=
        exact_of_not_inRange (fun h => hne (hrange h).1) op.toBinary l r
      cases op with
      | add | sub | mul => exact hexact nofun
      | div =>
        have hr : r.toInt ≠ 0 := fun hr => hzero ⟨rfl, hr⟩
        simp only [Operation.toBinary, Value.binary, Value.integers, if_neg hr]
        exact hexact nofun
      | rem =>
        have hr : r.toInt ≠ 0 := fun hr => hzero ⟨rfl, hr⟩
        -- the remainder itself is in range, so it is the quotient that is not
        have hleast := (hrange (inRange_tmod (inRange_toInt l) _)).2
        have hquotient := ofInt?_of_not_inRange fun hq =>
          (inRange_tdiv_iff (inRange_toInt l) hr).1 hq hleast
        simp only [Operation.toBinary, Value.binary, Value.integers, if_neg hr, hquotient,
          Option.isSome_none, Bool.false_eq_true, if_false]

/-! ### Calculations step by step -/

theorem firstMisfit?_append (steps steps' : List Step) :
    firstMisfit? (steps ++ steps') = (firstMisfit? steps).or (firstMisfit? steps') :=
  List.find?_append

theorem firstMisfit?_singleton (step : Step) :
    firstMisfit? [step] = if step.Fits then none else some step := by
  by_cases h : step.Fits <;> simp [firstMisfit?, h]

theorem firstMisfit?_eq_none_iff {steps : List Step} :
    firstMisfit? steps = none ↔ ∀ step ∈ steps, step.Fits := by
  simp [firstMisfit?]

/-- The result is the value of the calculation, or the complaint about its first step that does not
fit. The world is left as it is. -/
structure Carried (e : Calculation) (world : World) (result : EStateM.Result Signal World Value) :
    Prop where
  fits : firstMisfit? e.steps = none →
    ∃ m : Int64, m.toInt = e.value ∧ result = .ok (.int m) world
  misfit {step : Step} : firstMisfit? e.steps = some step →
    ∃ cause, cause.message = step.complaint ∧ result = .error (.error cause) world

section Evaluation

variable {e : Calculation} {before after : List Step} {step : Step} {world : World}

/-- A misfit among the first steps is the first misfit of all. -/
theorem carried_of_misfit (hsteps : e.steps = before ++ after)
    (hbefore : firstMisfit? before = some step) {cause : RuntimeError}
    (hcause : cause.message = step.complaint) : Carried e world (.error (.error cause) world) := by
  have hfirst : firstMisfit? e.steps = some step := by
    rw [hsteps, firstMisfit?_append, hbefore, Option.some_or]
  refine ⟨fun hnone => ?_, fun {step'} hsome => ⟨cause, ?_, rfl⟩⟩
  · rw [hfirst] at hnone
    cases hnone
  · rw [hfirst] at hsome
    rw [hcause, Option.some.inj hsome]

/-- If all steps before fit, then everything depends on the last one. -/
theorem carried_of_last (hsteps : e.steps = before ++ [step])
    (hbefore : firstMisfit? before = none) {result : Except RuntimeError Value}
    (hfits : step.Fits → ∃ m : Int64, m.toInt = e.value ∧ result = .ok (.int m))
    (hmisfit : ¬ step.Fits → ∃ cause, cause.message = step.complaint ∧ result = .error cause) :
    Carried e world (Signal.lift result world) := by
  have hfirst : firstMisfit? e.steps = if step.Fits then none else some step := by
    rw [hsteps, firstMisfit?_append, hbefore, Option.none_or, firstMisfit?_singleton]
  by_cases h : step.Fits
  · rw [if_pos h] at hfirst
    obtain ⟨m, hm, rfl⟩ := hfits h
    refine ⟨fun _ => ⟨m, hm, rfl⟩, fun hsome => ?_⟩
    rw [hfirst] at hsome
    cases hsome
  · rw [if_neg h] at hfirst
    obtain ⟨cause, hcause, rfl⟩ := hmisfit h
    exact carried_of_misfit (hsteps.trans (List.append_nil _).symm)
      (hsteps ▸ hfirst) hcause

/-- By induction on the calculation: each operation is carried out after its operands. -/
theorem carried (call : Caller) (scope : ScopeId) (world : World) (e : Calculation) :
    Carried e world (e.toExpr.eval call scope world) := by
  induction e with
  | literal n => exact ⟨fun _ => ⟨n, rfl, rfl⟩, nofun⟩
  | negated a ha =>
    simp only [Calculation.toExpr, Expr.eval]
    cases hmisfit : firstMisfit? a.steps with
    | some step =>
      obtain ⟨cause, hcause, heval⟩ := ha.misfit hmisfit
      rw [Action.bind_of_error heval]
      exact carried_of_misfit rfl hmisfit hcause
    | none =>
      obtain ⟨n, hn, heval⟩ := ha.fits hmisfit
      rw [Action.bind_of_ok heval]
      refine carried_of_last rfl hmisfit ?_ ?_ <;> simp only [Calculation.value, ← hn]
      · exact negate_of_fits
      · exact negate_of_not_fits
  | combined op a b ha hb =>
    simp only [Calculation.toExpr, Expr.eval]
    cases hleft : firstMisfit? a.steps with
    | some step =>
      obtain ⟨cause, hcause, heval⟩ := ha.misfit hleft
      rw [Action.bind_of_error heval]
      exact carried_of_misfit (List.append_assoc ..) hleft hcause
    | none =>
      obtain ⟨l, hl, heval⟩ := ha.fits hleft
      rw [Action.bind_of_ok heval]
      have hboth : firstMisfit? (a.steps ++ b.steps) = firstMisfit? b.steps := by
        rw [firstMisfit?_append, hleft, Option.none_or]
      cases hright : firstMisfit? b.steps with
      | some step =>
        obtain ⟨cause, hcause, heval⟩ := hb.misfit hright
        rw [Action.bind_of_error heval]
        exact carried_of_misfit rfl (hboth.trans hright) hcause
      | none =>
        obtain ⟨r, hr, heval⟩ := hb.fits hright
        rw [Action.bind_of_ok heval]
        refine carried_of_last rfl (hboth.trans hright) ?_ ?_ <;>
          simp only [Calculation.value, ← hl, ← hr]
        · exact operate_of_fits
        · exact operate_of_not_fits

end Evaluation

theorem eval_eq_ok_iff (call : Caller) (scope : ScopeId) (world : World) (e : Calculation)
    (n : Int64) : e.toExpr.eval call scope world = .ok (.int n) world ↔
      e.value = n.toInt ∧ ∀ step ∈ e.steps, step.Fits := by
  have h := carried call scope world e
  rw [← firstMisfit?_eq_none_iff]
  cases hmisfit : firstMisfit? e.steps with
  | none =>
    obtain ⟨m, hm, heval⟩ := h.fits hmisfit
    rw [heval, ← hm]
    constructor
    · intro heq
      cases heq
      exact ⟨rfl, rfl⟩
    · rintro ⟨heq, -⟩
      rw [Int64.toInt_inj.1 heq]
  | some step =>
    obtain ⟨cause, -, heval⟩ := h.misfit hmisfit
    rw [heval]
    exact ⟨nofun, fun ⟨_, hnone⟩ => by cases hnone⟩

/-! ### Quotients and remainders -/

theorem fits_div_iff {l r : Int} (hl : InRange l) :
    (Step.operation .div l r).Fits ↔ (Step.operation .rem l r).Fits := by
  by_cases hr : r = 0
  · simp [Step.Fits, hr, Operation.divides]
  · have hquotient := inRange_tdiv_iff hl hr
    have hremainder := inRange_tmod hl r
    simp [Step.Fits, Operation.apply, Operation.divides, hr, hquotient, hremainder]

theorem binary_eq_error_iff (op : Operation) (l r : Int64) :
    (∃ cause, Value.binary op.toBinary (.int l) (.int r) = .error cause) ↔
      ¬ (Step.operation op l.toInt r.toInt).Fits := by
  constructor
  · rintro ⟨cause, herror⟩ hfits
    obtain ⟨m, -, hok⟩ := operate_of_fits hfits
    rw [hok] at herror
    cases herror
  · intro hfits
    obtain ⟨cause, -, herror⟩ := operate_of_not_fits hfits
    exact ⟨cause, herror⟩

namespace Calculation

/-- The quotient times the divisor plus the remainder. -/
def rejoined (a b : Calculation) : Calculation :=
  .combined .add (.combined .mul (.combined .div a b) b) (.combined .rem a b)

variable {a b : Calculation}

theorem value_rejoined (a b : Calculation) : (rejoined a b).value = a.value :=
  Int.tdiv_mul_add_tmod a.value b.value

/-- Where there is a quotient, nothing goes wrong in joining it with the remainder again. -/
theorem steps_rejoined_fit (hvalue : InRange a.value)
    (h : ∀ step ∈ (combined .div a b).steps, step.Fits) :
    ∀ step ∈ (rejoined a b).steps, step.Fits := by
  simp only [rejoined, steps, List.forall_mem_append, List.forall_mem_singleton] at h ⊢
  obtain ⟨⟨ha, hb⟩, hdiv⟩ := h
  have hmul : (Step.operation .mul (combined .div a b).value b.value).Fits :=
    ⟨inRange_tdiv_mul hvalue b.value, by simp [Operation.divides], nofun⟩
  have hsum : InRange (rejoined a b).value := (value_rejoined a b).symm ▸ hvalue
  have hadd : (Step.operation .add (combined .mul (combined .div a b) b).value
      (combined .rem a b).value).Fits := ⟨hsum, by simp [Operation.divides], nofun⟩
  exact ⟨⟨⟨⟨⟨⟨ha, hb⟩, hdiv⟩, hb⟩, hmul⟩, ⟨ha, hb⟩, (fits_div_iff hvalue).1 hdiv⟩, hadd⟩

end Calculation

/-- A calculation gives an integer exactly if this is its value over all integers and all its steps
fit, and otherwise the complaint about the first one that does not. Quotients and remainders are
missing for the same operands, and where there is a quotient it gives back the dividend, together
with the remainder. -/
theorem eval_exact (call : Caller) (scope : ScopeId) (world : World) :
    (∀ (e : Calculation) (n : Int64), e.toExpr.eval call scope world = .ok (.int n) world ↔
      e.value = n.toInt ∧ ∀ step ∈ e.steps, step.Fits) ∧
    (∀ (e : Calculation) (step : Step), firstMisfit? e.steps = some step →
      ∃ cause, cause.message = step.complaint ∧
        e.toExpr.eval call scope world = .error (.error cause) world) ∧
    (∀ l r : Int64, (∃ cause, Value.binary .div (.int l) (.int r) = .error cause) ↔
      ∃ cause, Value.binary .rem (.int l) (.int r) = .error cause) ∧
    (∀ (a b : Calculation) (q : Int64),
      (Calculation.combined .div a b).toExpr.eval call scope world = .ok (.int q) world →
      ∃ n, a.toExpr.eval call scope world = .ok (.int n) world ∧
        (Calculation.rejoined a b).toExpr.eval call scope world = .ok (.int n) world) := by
  refine ⟨eval_eq_ok_iff call scope world, ?_, ?_, ?_⟩
  · intro e step hstep
    exact (carried call scope world e).misfit hstep
  · intro l r
    have hfits := fits_div_iff (r := r.toInt) (inRange_toInt l)
    exact (binary_eq_error_iff .div l r).trans
      ((not_congr hfits).trans (binary_eq_error_iff .rem l r).symm)
  · intro a b q hq
    obtain ⟨-, hsteps⟩ := (eval_eq_ok_iff call scope world _ q).1 hq
    have hleft : firstMisfit? a.steps = none := firstMisfit?_eq_none_iff.2 fun step hstep =>
      hsteps step (List.mem_append_left _ (List.mem_append_left _ hstep))
    obtain ⟨n, hn, heval⟩ := (carried call scope world a).fits hleft
    refine ⟨n, heval, (eval_eq_ok_iff call scope world _ n).2 ?_⟩
    rw [Calculation.value_rejoined]
    exact ⟨hn.symm, Calculation.steps_rejoined_fit (hn ▸ inRange_toInt n) hsteps⟩

/-- The least integer has no remainder by minus one, and the division by zero behind it is not
reported. The quotient of minus seven by two is cut off, and the remainder makes up for it. -/
theorem eval_exact_least :
    let failing : Calculation := .combined .add
      (.combined .rem (.literal Int64.minValue) (.literal (-1)))
      (.combined .div (.literal 1) (.literal 0))
    let world : World := .initial none 0
    let eval (e : Calculation) := e.toExpr.eval (callWithin 1 1) World.global world
    firstMisfit? failing.steps = some (.operation .rem (-0x8000000000000000) (-1)) ∧
      (∃ cause, cause.message = "integer overflow: -9223372036854775808 % -1" ∧
        eval failing = .error (.error cause) world) ∧
      eval (.combined .div (.literal (-7)) (.literal 2)) = .ok (.int (-3)) world ∧
      ∃ n, eval (.literal (-7)) = .ok (.int n) world ∧
        eval (Calculation.rejoined (.literal (-7)) (.literal 2)) = .ok (.int n) world := by
  intro failing world eval
  obtain ⟨-, hfails, -, hrejoins⟩ := eval_exact (callWithin 1 1) World.global world
  have hmisfit : firstMisfit? failing.steps =
      some (.operation .rem (-0x8000000000000000) (-1)) := by decide
  have hquotient : eval (.combined .div (.literal (-7)) (.literal 2)) = .ok (.int (-3)) world := rfl
  obtain ⟨cause, hcause, heval⟩ := hfails failing _ hmisfit
  exact ⟨hmisfit, ⟨cause, hcause.trans (by decide +kernel), heval⟩, hquotient,
    hrejoins _ _ _ hquotient⟩

end Arithmetic

end Tang
