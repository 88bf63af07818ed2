import Tang.Token

/-! The syntax trees of programs. -/

namespace Tang

inductive UnaryOp where
  | not | negate
  deriving DecidableEq

def UnaryOp.sign : UnaryOp → Symbol
  | .not => .bang
  | .negate => .minus

inductive BinaryOp where
  | add | sub | mul | div | rem
  | eq | ne | lt | le | gt | ge
  deriving DecidableEq

def BinaryOp.sign : BinaryOp → Symbol
  | .add => .plus
  | .sub => .minus
  | .mul => .star
  | .div => .slash
  | .rem => .percent
  | .eq => .equal
  | .ne => .notEqual
  | .lt => .less
  | .le => .lessEqual
  | .gt => .greater
  | .ge => .greaterEqual

mutual

inductive Expr where
  | int (n : Int64)
  | str (text : String)
  | bool (b : Bool)
  | null
  | var (name : String)
  | unary (op : UnaryOp) (operand : Expr)
  | binary (op : BinaryOp) (left right : Expr)
  | cond (test : Expr) (body : List Stmt) (otherwise : Option (List Stmt))
  | fn (params : List String) (body : List Stmt)
  | call (callee : Expr) (args : List Expr)
  | index (target position : Expr)
  | list (elements : List Expr)
  | tuple (elements : List Expr)
  | map (pairs : List (Expr × Expr))

inductive Stmt where
  /-- Binds a name in the current scope. -/
  | declare (name : String) (value : Expr)
  /-- Rebinds the nearest binding of a name. -/
  | assign (name : String) (value : Expr)
  | ret (value : Option Expr)
  | expr (value : Expr)

end

abbrev Program := List Stmt

/-! ### Equality of trees -/

mutual

def Expr.decEq (a b : Expr) : Decidable (a = b) :=
  if h : a.ctorIdx = b.ctorIdx then
    match a, b, h with
    | .int m, .int n, _ => decidable_of_iff (m = n) (by simp)
    | .str s, .str t, _ => decidable_of_iff (s = t) (by simp)
    | .bool b, .bool c, _ => decidable_of_iff (b = c) (by simp)
    | .null, .null, _ => isTrue rfl
    | .var x, .var y, _ => decidable_of_iff (x = y) (by simp)
    | .unary o a, .unary p b, _ =>
      have := Expr.decEq a b
      decidable_of_iff (o = p ∧ a = b) (by simp)
    | .binary o a b, .binary p c d, _ =>
      have := Expr.decEq a c
      have := Expr.decEq b d
      decidable_of_iff (o = p ∧ a = c ∧ b = d) (by simp)
    | .cond a s t, .cond b u v, _ =>
      have := Expr.decEq a b
      have := Stmt.decEqList s u
      have := Stmt.decEqElse t v
      decidable_of_iff (a = b ∧ s = u ∧ t = v) (by simp)
    | .fn ps s, .fn qs t, _ =>
      have := Stmt.decEqList s t
      decidable_of_iff (ps = qs ∧ s = t) (by simp)
    | .call a as, .call b bs, _ =>
      have := Expr.decEq a b
      have := Expr.decEqList as bs
      decidable_of_iff (a = b ∧ as = bs) (by simp)
    | .index a b, .index c d, _ =>
      have := Expr.decEq a c
      have := Expr.decEq b d
      decidable_of_iff (a = c ∧ b = d) (by simp)
    | .list as, .list bs, _ =>
      have := Expr.decEqList as bs
      decidable_of_iff (as = bs) (by simp)
    | .tuple as, .tuple bs, _ =>
      have := Expr.decEqList as bs
      decidable_of_iff (as = bs) (by simp)
    | .map as, .map bs, _ =>
      have := Expr.decEqPairs as bs
      decidable_of_iff (as = bs) (by simp)
  else isFalse fun e => h (congrArg Expr.ctorIdx e)
termination_by structural a

def Expr.decEqList : (as bs : List Expr) → Decidable (as = bs)
  | [], [] => isTrue rfl
  | [], _ :: _ => isFalse nofun
  | _ :: _, [] => isFalse nofun
  | a :: as, b :: bs =>
    have := Expr.decEq a b
    have := Expr.decEqList as bs
    decidable_of_iff (a = b ∧ as = bs) (by simp)
termination_by structural as => as

def Expr.decEqPairs : (as bs : List (Expr × Expr)) → Decidable (as = bs)
  | [], [] => isTrue rfl
  | [], _ :: _ => isFalse nofun
  | _ :: _, [] => isFalse nofun
  | (a, b) :: as, (c, d) :: bs =>
    have := Expr.decEq a c
    have := Expr.decEq b d
    have := Expr.decEqPairs as bs
    decidable_of_iff ((a = c ∧ b = d) ∧ as = bs) (by simp)
termination_by structural as => as

def Stmt.decEq (a b : Stmt) : Decidable (a = b) :=
  if h : a.ctorIdx = b.ctorIdx then
    match a, b, h with
    | .declare x a, .declare y b, _ =>
      have := Expr.decEq a b
      decidable_of_iff (x = y ∧ a = b) (by simp)
    | .assign x a, .assign y b, _ =>
      have := Expr.decEq a b
      decidable_of_iff (x = y ∧ a = b) (by simp)
    | .ret none, .ret none, _ => isTrue rfl
    | .ret none, .ret (some _), _ => isFalse nofun
    | .ret (some _), .ret none, _ => isFalse nofun
    | .ret (some a), .ret (some b), _ =>
      have := Expr.decEq a b
      decidable_of_iff (a = b) (by simp)
    | .expr a, .expr b, _ =>
      have := Expr.decEq a b
      decidable_of_iff (a = b) (by simp)
  else isFalse fun e => h (congrArg Stmt.ctorIdx e)
termination_by structural a

def Stmt.decEqList : (as bs : List Stmt) → Decidable (as = bs)
  | [], [] => isTrue rfl
  | [], _ :: _ => isFalse nofun
  | _ :: _, [] => isFalse nofun
  | a :: as, b :: bs =>
    have := Stmt.decEq a b
    have := Stmt.decEqList as bs
    decidable_of_iff (a = b ∧ as = bs) (by simp)
termination_by structural as => as

def Stmt.decEqElse : (as bs : Option (List Stmt)) → Decidable (as = bs)
  | none, none => isTrue rfl
  | none, some _ => isFalse nofun
  | some _, none => isFalse nofun
  | some as, some bs =>
    have := Stmt.decEqList as bs
    decidable_of_iff (as = bs) (by simp)
termination_by structural as => as

end

instance : DecidableEq Expr := Expr.decEq

instance : DecidableEq Stmt := Stmt.decEq

end Tang
