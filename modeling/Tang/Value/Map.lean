import Tang.Hash
import Tang.Value

/-! Maps: the entries stand in the order of their keys' slots, one entry to a slot. Keys with the
same slot are the same to a map. -/

namespace Tang

/-- The place of a key in a map. -/
structure Slot where
  tag : Tag
  hash : UInt64
  deriving DecidableEq

/-- The order of the tags that keys have. -/
def Tag.rank : Tag → Nat
  | .integer => 0
  | .boolean => 1
  | .string => 2
  | _ => 3

/-- Slots are ordered by tag, those with the same tag by hash. -/
def Slot.before (s t : Slot) : Bool :=
  decide (s.tag.rank < t.tag.rank) || (s.tag.rank == t.tag.rank && decide (s.hash < t.hash))

namespace Key

def tag : Key → Tag
  | .int _ => .integer
  | .bool _ => .boolean
  | .str _ => .string

/-- Integers hash to their bit pattern, truth values to a bit, and texts by their UTF-8 form. -/
def hash : Key → UInt64
  | .int n => n.toUInt64
  | .bool b => b.toUInt64
  | .str text => Hash.fnv1a text.toUTF8

def slot (key : Key) : Slot :=
  ⟨key.tag, key.hash⟩

end Key

namespace Value

def ofKey : Key → Value
  | .int n => .int n
  | .bool b => .bool b
  | .str text => .str text

/-- A value as a key, if it can be one. -/
def key? : Value → Option Key
  | .int n => some (.int n)
  | .bool b => some (.bool b)
  | .str text => some (.str text)
  | _ => none

def slot? (value : Value) : Option Slot :=
  value.key?.map Key.slot

/-- The order of values by slot. Those that cannot be keys come first. -/
def before (a b : Value) : Bool :=
  match a.slot?, b.slot? with
  | some s, some t => s.before t
  | none, some _ => true
  | _, none => false

end Value

abbrev Entries := List (Key × Value)

namespace Entries

/-- Puts an entry at the place of its slot. An entry with the same slot is replaced, key and
value. -/
def insert (key : Key) (value : Value) : Entries → Entries
  | [] => [(key, value)]
  | entry :: entries =>
    if entry.1.slot.before key.slot then entry :: insert key value entries
    else if entry.1.slot = key.slot then (key, value) :: entries
    else (key, value) :: entry :: entries

def get? (entries : Entries) (key : Key) : Option Value :=
  (entries.find? fun entry => entry.1.slot == key.slot).map (·.2)

end Entries

end Tang
