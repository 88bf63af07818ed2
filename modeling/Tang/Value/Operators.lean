import Tang.Signal

/-! The meaning of operators on values. Integers are added and multiplied exactly, and a result
that is not an integer of the language is an error. -/

namespace Tang

namespace Value

def negate : Value → Except RuntimeError Value
  | .int n =>
    match Integer.ofInt? (-n.toInt) with
    | some m => .ok (.int m)
    | none => .error (.negationOverflow n)
  | value => .error (.badOperand value.tag)

def unary : UnaryOp → Value → Except RuntimeError Value
  | .not, value => .ok (.bool !value.truthy)
  | .negate, value => value.negate

/-- The result of an arithmetic operation, if it fits. -/
def exact (op : BinaryOp) (left right : Int64) (result : Int) : Except RuntimeError Value :=
  match Integer.ofInt? result with
  | some n => .ok (.int n)
  | none => .error (.overflow op left right)

/-- Division goes toward zero, and a remainder has the sign of the dividend. A remainder exists
exactly where the quotient fits. -/
def integers (op : BinaryOp) (left right : Int64) : Except RuntimeError Value :=
  let l := left.toInt
  let r := right.toInt
  match op with
  | .add => exact op left right (l + r)
  | .sub => exact op left right (l - r)
  | .mul => exact op left right (l * r)
  | .div => if r = 0 then .error .divisionByZero else exact op left right (l.tdiv r)
  | .rem =>
    if r = 0 then .error .divisionByZero
    else if (Integer.ofInt? (l.tdiv r)).isSome then exact op left right (l.tmod r)
    else .error (.overflow op left right)
  | .eq => .ok (.bool (l = r))
  | .ne => .ok (.bool (l ≠ r))
  | .lt => .ok (.bool (l < r))
  | .le => .ok (.bool (l ≤ r))
  | .gt => .ok (.bool (l > r))
  | .ge => .ok (.bool (l ≥ r))

def binary (op : BinaryOp) (left right : Value) : Except RuntimeError Value :=
  match left, right with
  | .int l, .int r => integers op l r
  | .str l, .str r =>
    match op with
    | .add => .ok (.str (l ++ r))
    | .eq => .ok (.bool (l = r))
    | .ne => .ok (.bool (l ≠ r))
    | _ => .error (.badOperands op .string .string)
  | left, right =>
    match op with
    | .eq => .ok (.bool (left = right))
    | .ne => .ok (.bool (left ≠ right))
    | _ =>
      if left.tag = right.tag then .error (.badOperands op left.tag right.tag)
      else .error (.typeMismatch op left.tag right.tag)

/-- The element at a position counted from zero. -/
def element (elements : List Value) (position : Int64) : Except RuntimeError Value :=
  let n := position.toInt
  match if 0 ≤ n then elements[n.toNat]? else none with
  | some value => .ok value
  | none => .error (.indexOutOfRange position elements.length)

def index (target position : Value) : Except RuntimeError Value :=
  match target, position with
  | .list elements, .int n => element elements n
  | .tuple elements, .int n => element elements n
  | .list _, position => .error (.badIndex .list position.tag)
  | .tuple _, position => .error (.badIndex .tuple position.tag)
  | .map entries, position =>
    match position.key? with
    | some key => .ok ((Entries.get? entries key).getD .null)
    | none => .error (.notKey position.tag)
  | target, _ => .error (.notIndexable target.tag)

end Value

end Tang
