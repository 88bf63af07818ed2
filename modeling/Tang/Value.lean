import Tang.Builtin
import Tang.Syntax

/-! The values that programs compute with. -/

namespace Tang

/-- The kinds of value, and of what a statement can hand to its surroundings instead of one. -/
inductive Tag where
  | integer | boolean | string | null | returnValue | error | function | builtin
  | list | tuple | map
  deriving DecidableEq

def Tag.name : Tag → String
  | .integer => "INTEGER"
  | .boolean => "BOOLEAN"
  | .string => "STRING"
  | .null => "NULL"
  | .returnValue => "RETURN_VALUE"
  | .error => "ERROR"
  | .function => "FUNCTION"
  | .builtin => "BUILTIN"
  | .list => "LIST"
  | .tuple => "TUPLE"
  | .map => "MAP"

/-- A value that can be looked up in a map. -/
inductive Key where
  | int (n : Int64)
  | bool (b : Bool)
  | str (text : String)
  deriving DecidableEq

/-- Scopes are numbered in the order of their creation. -/
abbrev ScopeId := Nat

/-- A function with the scope it was created in. No two functions of a session have the same
`serial`, so a function equals itself and no other. -/
structure Closure where
  serial : Nat
  params : List String
  body : List Stmt
  scope : ScopeId
  deriving DecidableEq

inductive Value where
  | int (n : Int64)
  | bool (b : Bool)
  | str (text : String)
  | null
  | list (elements : List Value)
  | tuple (elements : List Value)
  /-- The entries of a map, in the order of their keys' slots. -/
  | map (entries : List (Key × Value))
  | function (closure : Closure)
  | builtin (which : Builtin)

namespace Value

def tag : Value → Tag
  | .int _ => .integer
  | .bool _ => .boolean
  | .str _ => .string
  | .null => .null
  | .list _ => .list
  | .tuple _ => .tuple
  | .map _ => .map
  | .function _ => .function
  | .builtin _ => .builtin

/-- Only `false` and `null` do not count as true. -/
def truthy : Value → Bool
  | .bool b => b
  | .null => false
  | _ => true

/-! ### Equality

Shared parts are equal without a look inside. -/

mutual

def decEq (a b : Value) : Decidable (a = b) :=
  withPtrEqDecEq a b fun _ =>
    if h : a.tag = b.tag then
      match a, b, h with
      | .int m, .int n, _ => decidable_of_iff (m = n) (by simp)
      | .bool b, .bool c, _ => decidable_of_iff (b = c) (by simp)
      | .str s, .str t, _ => decidable_of_iff (s = t) (by simp)
      | .null, .null, _ => isTrue rfl
      | .list as, .list bs, _ => @decidable_of_iff _ (as = bs) (by simp) (decEqList as bs)
      | .tuple as, .tuple bs, _ => @decidable_of_iff _ (as = bs) (by simp) (decEqList as bs)
      | .map as, .map bs, _ => @decidable_of_iff _ (as = bs) (by simp) (decEqEntries as bs)
      | .function f, .function g, _ => decidable_of_iff (f = g) (by simp)
      | .builtin f, .builtin g, _ => decidable_of_iff (f = g) (by simp)
    else isFalse fun e => h (congrArg tag e)

def decEqList : (as bs : List Value) → Decidable (as = bs)
  | [], [] => isTrue rfl
  | [], _ :: _ => isFalse nofun
  | _ :: _, [] => isFalse nofun
  | a :: as, b :: bs =>
    match decEq a b with
    | isTrue h => @decidable_of_iff _ (as = bs) (by simp [h]) (decEqList as bs)
    | isFalse h => isFalse fun e => h (List.cons.inj e).1

def decEqEntries : (as bs : List (Key × Value)) → Decidable (as = bs)
  | [], [] => isTrue rfl
  | [], _ :: _ => isFalse nofun
  | _ :: _, [] => isFalse nofun
  | (j, a) :: as, (k, b) :: bs =>
    if hk : j = k then
      match decEq a b with
      | isTrue h => @decidable_of_iff _ (as = bs) (by simp [h, hk]) (decEqEntries as bs)
      | isFalse h => isFalse fun e => h (by simp_all)
    else isFalse fun e => hk (by simp_all)

end

instance : DecidableEq Value := decEq

end Value

end Tang
