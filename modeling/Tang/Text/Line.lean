/-! Places in a text: byte offsets into its UTF-8 form, and the lines they fall on. -/

namespace Tang.Text

/-- The number of bytes that the characters take in UTF-8. -/
def width : List Char → Nat
  | [] => 0
  | c :: cs => c.utf8Size + width cs

@[simp] theorem width_nil : width [] = 0 := rfl

@[simp] theorem width_cons (c : Char) (cs : List Char) :
    width (c :: cs) = c.utf8Size + width cs := rfl

@[simp] theorem width_append (cs ds : List Char) : width (cs ++ ds) = width cs + width ds := by
  induction cs with
  | nil => simp
  | cons c cs ih => simp [ih, Nat.add_assoc]

/-- Whether a byte offset does not fall inside a character. Offsets past the end stand for it. -/
def onBoundary : List Char → Nat → Bool
  | [], _ => true
  | c :: cs, offset => decide (offset = 0) ||
      (decide (c.utf8Size ≤ offset) && onBoundary cs (offset - c.utf8Size))

/-- The line reached `offset` bytes into a text whose first character is on line `line`. -/
def lineFrom (line : Nat) : List Char → Nat → Nat
  | [], _ => line
  | c :: cs, offset =>
    if offset = 0 then line
    else lineFrom (if c = '\n' then line + 1 else line) cs (offset - c.utf8Size)

/-- The line of a byte offset, counted from one. -/
def lineAt (source : String) (offset : Nat) : Nat :=
  lineFrom 1 source.toList offset

/-- The line of a byte offset, if it does not fall inside a character. -/
def lineAt? (source : String) (offset : Nat) : Option Nat :=
  if onBoundary source.toList offset then some (lineAt source offset) else none

end Tang.Text
