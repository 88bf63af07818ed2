/-! Where output goes: a sequence of bytes that may be bounded. -/

namespace Tang

/-- Why input or output fails. -/
inductive IoError where
  | sinkFull
  | invalidUtf8
  deriving DecidableEq

def IoError.message : IoError → String
  | .sinkFull => "sink full"
  | .invalidUtf8 => "stream did not contain valid UTF-8"

/-- The bytes written so far, and how many there may be. -/
structure Sink where
  written : ByteArray
  capacity : Option Nat

namespace Sink

def empty (capacity : Option Nat) : Sink :=
  ⟨.empty, capacity⟩

/-- Writes bytes. Those that do not fit are lost, which is an error. -/
def writeBytes (bytes : ByteArray) : EStateM IoError Sink Unit :=
  fun ⟨written, capacity⟩ =>
    match capacity with
    | none => .ok () ⟨written ++ bytes, none⟩
    | some capacity =>
      let room := capacity - written.size
      if bytes.size ≤ room then .ok () ⟨written ++ bytes, some capacity⟩
      else .error .sinkFull ⟨written ++ bytes.extract 0 room, some capacity⟩

def write (text : String) : EStateM IoError Sink Unit :=
  writeBytes text.toUTF8

def writeLine (text : String) : EStateM IoError Sink Unit :=
  write (text ++ "\n")

end Sink

end Tang
