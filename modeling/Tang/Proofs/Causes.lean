import Tang.Builtin.Apply
import Tang.Value.Operators

/-! The causes with which single steps of evaluation fail. Operators and builtin functions raise
causes of their own only: they know neither the limit of nested calls nor the texts of a host. The
message of such a cause is never that of a call that is nested too deep. -/

namespace Tang

namespace RuntimeError

/-- A step that calls no function can fail with the cause. -/
def Ordinary : RuntimeError → Prop
  | .callTooDeep _ | .custom _ => False
  | _ => True

theorem head?_message_callTooDeep (limit : Nat) :
    (callTooDeep limit).message.toList.head? = some 'm' := by
  unfold message
  simp

/-- No message of an ordinary cause begins like that of a call nested too deep. -/
theorem Ordinary.head?_message_ne {cause : RuntimeError} (h : cause.Ordinary) :
    cause.message.toList.head? ≠ some 'm' := by
  cases cause with
  | callTooDeep | custom => exact h.elim
  | badVerb verb => cases verb <;> unfold message <;> simp
  | _ =>
    unfold message
    simp

theorem Ordinary.message_ne {cause : RuntimeError} (h : cause.Ordinary) (limit : Nat) :
    cause.message ≠ (callTooDeep limit).message := by
  intro he
  apply h.head?_message_ne
  rw [he, head?_message_callTooDeep]

end RuntimeError

open RuntimeError (Ordinary)

/-! ### Operators -/

namespace Value

variable {cause : RuntimeError}

theorem ordinary_of_unary {op : UnaryOp} {value : Value} (h : unary op value = .error cause) :
    cause.Ordinary := by
  cases op with
  | not => cases h
  | negate =>
    rw [unary, negate.eq_def] at h
    split at h
    · split at h <;> cases h
      trivial
    · cases h
      trivial

theorem ordinary_of_exact {op : BinaryOp} {l r : Int64} {n : Int}
    (h : exact op l r n = .error cause) : cause.Ordinary := by
  unfold exact at h
  split at h <;> cases h
  trivial

theorem ordinary_of_integers {op : BinaryOp} {l r : Int64} (h : integers op l r = .error cause) :
    cause.Ordinary := by
  cases op <;> simp only [integers] at h
  case add | sub | mul => exact ordinary_of_exact h
  case div =>
    split at h
    · cases h; trivial
    · exact ordinary_of_exact h
  case rem =>
    split at h
    · cases h; trivial
    · split at h
      · exact ordinary_of_exact h
      · cases h; trivial
  all_goals cases h

theorem ordinary_of_binary {op : BinaryOp} {left right : Value}
    (h : binary op left right = .error cause) : cause.Ordinary := by
  unfold binary at h
  split at h
  · exact ordinary_of_integers h
  · split at h <;> cases h
    trivial
  · split at h
    · cases h
    · cases h
    · split at h <;> cases h <;> trivial

theorem ordinary_of_element {elements : List Value} {position : Int64}
    (h : element elements position = .error cause) : cause.Ordinary := by
  simp only [element] at h
  split at h <;> cases h
  trivial

theorem ordinary_of_index {target position : Value} (h : index target position = .error cause) :
    cause.Ordinary := by
  unfold index at h
  split at h
  · exact ordinary_of_element h
  · exact ordinary_of_element h
  · cases h; trivial
  · cases h; trivial
  · split at h <;> cases h
    trivial
  · cases h; trivial

end Value

/-! ### Builtin functions -/

namespace Builtin

variable {cause : RuntimeError}

theorem ordinary_of_elements {builtin : Builtin} {arg : Value}
    (h : elements builtin arg = .error cause) : cause.Ordinary := by
  cases arg <;> cases h <;> trivial

theorem ordinary_of_length {arg : Value} (h : length arg = .error cause) : cause.Ordinary := by
  cases arg <;> cases h <;> trivial

theorem ordinary_of_exitCode {arg : Value} (h : exitCode arg = .error cause) :
    cause.Ordinary := by
  unfold exitCode at h
  split at h
  · split at h <;> cases h
    trivial
  · cases h; trivial

theorem ordinary_of_fill {template : List Char} {args : List Value}
    (h : Template.fill template args = .error cause) : cause.Ordinary := by
  have hmap {x : Except RuntimeError (List Char)} {f : List Char → List Char}
      (hf : x.map f = .error cause) : x = .error cause := by
    cases x with
    | error e => cases hf; rfl
    | ok text => cases hf
  fun_induction Template.fill template args with
  | case1 => cases h
  | case2 _ _ ih | case4 _ _ _ ih | case7 _ _ _ _ _ _ _ _ ih => exact ih (hmap h)
  | case3 | case5 | case6 => cases h; trivial

end Builtin

end Tang
