import Tang.Diagnostic
import Tang.Text.Blank

/-! What can be set from outside: how deep calls may be nested, and the prompt. -/

namespace Tang

structure Settings where
  callLimit : Nat
  prompt : String
  deriving DecidableEq

namespace Settings

def default : Settings :=
  ⟨1024, ">>> "⟩

/-- The environment variable that sets the limit on nested calls. -/
def limitVariable : String := "TANG_MAX_CALL_DEPTH"

/-- The greatest limit that can be set. -/
def greatestLimit : Nat := 0xffffffffffffffff

/-- A text without the blanks at its ends. -/
def trim (cs : List Char) : List Char :=
  ((cs.dropWhile Text.isBlank).reverse.dropWhile Text.isBlank).reverse

/-- A row of decimal digits, with a plus sign or not. -/
def natural? (cs : List Char) : Option Nat :=
  let digits := match cs with
    | '+' :: digits => digits
    | digits => digits
  if digits ≠ [] ∧ digits.all Char.isDigit then some (Nat.ofDigitChars 10 digits 0) else none

/-- A limit on nested calls is a positive number. -/
def limit? (text : String) : Option Nat :=
  (natural? (trim text.toList)).filter fun n => decide (0 < n) && decide (n ≤ greatestLimit)

/-- The settings for a value of the environment variable. -/
def ofVariable : Option String → Except Diagnostic Settings
  | none => .ok default
  | some text =>
    match limit? text with
    | some limit => .ok { default with callLimit := limit }
    | none =>
      .error (.usage (limitVariable ++ " must be a positive integer, got '" ++ text ++ "'"))

end Settings

end Tang
