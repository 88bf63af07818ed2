import Mathlib.Tactic.Common
import Tang.Proofs.Machine

/-! Fuel decides only whether the machine gives up. A run that has come to an end comes to the same
end with more fuel. -/

namespace Tang.Machine

open Run

variable {α β : Type}

/-- The first run gives up or does what the second one does. -/
def Refines (x y : Run α) : Prop :=
  ∀ world depth, x world depth = none ∨ x world depth = y world depth

namespace Refines

theorem refl (x : Run α) : Refines x x :=
  fun _ _ => .inr rfl

theorem outOfFuel (y : Run α) : Refines Run.outOfFuel y :=
  fun _ _ => .inl rfl

theorem bind {x y : Run α} {f g : α → Run β} (h : Refines x y) (hn : ∀ a, Refines (f a) (g a)) :
    Refines (x >>= f) (y >>= g) := by
  intro world depth
  change Run.bind x f world depth = none ∨ Run.bind x f world depth = Run.bind y g world depth
  rcases h world depth with h | h
  · exact .inl (by simp only [Run.bind, h])
  · simp only [Run.bind, ← h]
    split
    · exact .inl rfl
    · exact hn _ _ _
    · exact .inr rfl

theorem attempt {x y : Run α} (h : Refines x y) : Refines (attempt x) (attempt y) := by
  intro world depth
  rcases h world depth with h | h
  · exact .inl (by simp only [Run.attempt, h])
  · exact .inr (by simp only [Run.attempt, h])

end Refines

/-! ### Names -/

theorem owner?_succ (scopes : Scopes) (name : String) (fuel : Nat) (id : ScopeId) :
    owner? scopes name fuel id = none ∨
      owner? scopes name fuel id = owner? scopes name (fuel + 1) id := by
  induction fuel generalizing id with
  | zero => exact .inl rfl
  | succ fuel ih =>
    rw [owner?, owner?]
    split
    · exact .inr rfl
    · split
      · exact .inr rfl
      · split
        · exact .inr rfl
        · exact ih _

theorem find_refines (fuel : Nat) (scope : ScopeId) (name : String) :
    Refines (find fuel scope name) (find (fuel + 1) scope name) := by
  intro world depth
  rcases owner?_succ world.scopes name fuel scope with h | h
  · exact .inl (by simp only [find, h, Option.map_none])
  · exact .inr (by simp only [find, h])

theorem lookup_refines (fuel : Nat) (scope : ScopeId) (name : String) :
    Refines (lookup fuel scope name) (lookup (fuel + 1) scope name) :=
  (find_refines fuel scope name).bind fun _ => .refl _

theorem assign_refines (fuel : Nat) (scope : ScopeId) (name : String) (value : Value) :
    Refines (assign fuel scope name value) (assign (fuel + 1) scope name value) :=
  (find_refines fuel scope name).bind fun _ => .refl _

/-! ### Evaluation -/

/-- With one more unit of fuel, every part of the machine does the same unless it gave up. -/
structure Stable (limit fuel : Nat) : Prop where
  expr (scope : ScopeId) (e : Expr) :
    Refines (expr limit fuel scope e) (Machine.expr limit (fuel + 1) scope e)
  exprs (scope : ScopeId) (es : List Expr) :
    Refines (exprs limit fuel scope es) (Machine.exprs limit (fuel + 1) scope es)
  pairs (scope : ScopeId) (entries : Entries) (ps : List (Expr × Expr)) :
    Refines (pairs limit fuel scope entries ps) (Machine.pairs limit (fuel + 1) scope entries ps)
  stmt (scope : ScopeId) (s : Stmt) :
    Refines (stmt limit fuel scope s) (Machine.stmt limit (fuel + 1) scope s)
  stmts (scope : ScopeId) (last : Option Value) (ss : List Stmt) :
    Refines (stmts limit fuel scope last ss) (Machine.stmts limit (fuel + 1) scope last ss)
  branch (scope : ScopeId) (body : Option (List Stmt)) :
    Refines (branch limit fuel scope body) (Machine.branch limit (fuel + 1) scope body)
  call (f : Value) (args : List Value) :
    Refines (call limit fuel f args) (Machine.call limit (fuel + 1) f args)

namespace Stable

variable {limit fuel : Nat}

theorem expr_succ (h : Stable limit fuel) (scope : ScopeId) (e : Expr) :
    Refines (Machine.expr limit (fuel + 1) scope e) (Machine.expr limit (fuel + 2) scope e) := by
  cases e with
  | int | str | bool | null | fn => exact .refl _
  | var name => exact lookup_refines fuel scope name
  | unary op a => exact (h.expr scope a).bind fun _ => .refl _
  | binary op a b => exact (h.expr scope a).bind fun _ => (h.expr scope b).bind fun _ => .refl _
  | cond test body otherwise =>
    refine (h.expr scope test).bind fun value => ?_
    split
    · exact (Refines.refl _).bind fun inner => (h.stmts inner none body).bind fun _ => .refl _
    · exact h.branch scope otherwise
  | call callee args =>
    exact (h.expr scope callee).bind fun f => (h.exprs scope args).bind fun vs => h.call f vs
  | index t p => exact (h.expr scope t).bind fun _ => (h.expr scope p).bind fun _ => .refl _
  | list elements => exact (h.exprs scope elements).bind fun _ => .refl _
  | tuple elements => exact (h.exprs scope elements).bind fun _ => .refl _
  | map ps => exact (h.pairs scope [] ps).bind fun _ => .refl _

theorem pairs_succ (h : Stable limit fuel) (scope : ScopeId) (entries : Entries)
    (ps : List (Expr × Expr)) :
    Refines (Machine.pairs limit (fuel + 1) scope entries ps)
      (Machine.pairs limit (fuel + 2) scope entries ps) := by
  cases ps with
  | nil => exact .refl _
  | cons p ps =>
    refine (h.expr scope p.1).bind fun keyValue => ?_
    split
    · exact .refl _
    · exact (h.expr scope p.2).bind fun value => h.pairs scope _ ps

theorem stmt_succ (h : Stable limit fuel) (scope : ScopeId) (s : Stmt) :
    Refines (Machine.stmt limit (fuel + 1) scope s) (Machine.stmt limit (fuel + 2) scope s) := by
  cases s with
  | declare name a => exact (h.expr scope a).bind fun _ => .refl _
  | assign name a =>
    exact (h.expr scope a).bind fun value => (assign_refines fuel scope name value).bind fun _ =>
      .refl _
  | ret value =>
    cases value with
    | none => exact .refl _
    | some a => exact (h.expr scope a).bind fun _ => .refl _
  | expr a => exact (h.expr scope a).bind fun _ => .refl _

theorem call_succ (h : Stable limit fuel) (f : Value) (args : List Value) :
    Refines (Machine.call limit (fuel + 1) f args) (Machine.call limit (fuel + 2) f args) := by
  cases f with
  | function f =>
    rw [Machine.call, Machine.call]
    split
    · refine (Refines.refl _).bind fun depth => ?_
      split
      · exact .refl _
      · exact (Refines.refl _).bind fun inner => (Refines.refl _).bind fun _ =>
          (Refines.refl _).bind fun _ => (h.stmts inner none f.body).attempt.bind fun _ => .refl _
    · exact .refl _
  | _ => exact .refl _

end Stable

theorem stable (limit fuel : Nat) : Stable limit fuel := by
  induction fuel with
  | zero => constructor <;> intros <;> exact .outOfFuel _
  | succ fuel h =>
    refine ⟨h.expr_succ, ?_, h.pairs_succ, h.stmt_succ, ?_, ?_, h.call_succ⟩
    · intro scope es
      cases es with
      | nil => exact .refl _
      | cons e es => exact (h.expr scope e).bind fun _ => (h.exprs scope es).bind fun _ => .refl _
    · intro scope last ss
      cases ss with
      | nil => exact .refl _
      | cons s ss => exact (h.stmt scope s).bind fun last => h.stmts scope last ss
    · intro scope body
      cases body with
      | none => exact .refl _
      | some body =>
        exact (Refines.refl _).bind fun inner => (h.stmts inner none body).bind fun _ => .refl _

/-- A program that has come to an end comes to the same end with more fuel. -/
theorem runProgram_mono {limit fuel more : Nat} {scope : ScopeId} {program : Program}
    {world : World} {result : Outcome × World} (hle : fuel ≤ more)
    (h : runProgram limit fuel scope program world = some result) :
    runProgram limit more scope program world = some result := by
  induction hle with
  | refl => exact h
  | @step n _ ih =>
    rw [← ih]
    rcases (stable limit n).stmts scope none program world 0 with hn | hn
    · simp [runProgram, hn] at ih
    · rw [runProgram, runProgram, hn]

end Tang.Machine
