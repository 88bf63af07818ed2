import Tang.Console
import Tang.Directory
import Tang.Settings

/-! Running the program in a file. -/

namespace Tang.Script

/-- The text of a file. -/
def decode (content : ByteArray) : Except ReadError String :=
  match String.fromUTF8? content with
  | some text => .ok text
  | none => .error .invalidUtf8

/-- Runs the program that was read from a path. A file that cannot be read is reported on the
output. -/
def run (settings : Settings) (path : String) (content : Except ReadError ByteArray) :
    Console (Option Int32) := do
  match content.bind decode with
  | .ok source => Console.runSource settings.callLimit path source
  | .error error =>
    Console.writeLine (path ++ ": " ++ error.message)
    return none

end Tang.Script
