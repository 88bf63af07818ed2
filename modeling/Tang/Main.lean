import Tang.CommandLine

/-! The program `tang`: it connects the command line, the interactive loop and scripts to the
standard streams and to files. -/

namespace Tang.Main

/-- The errors of the file system by their numbers, some of which come negated. -/
def readError (description : String) (code : UInt32) : ReadError :=
  match code.toInt32.toInt.natAbs with
  | 2 => .noSuchFile
  | 20 => .notDirectory
  | 21 => .isDirectory
  | 36 => .nameTooLong
  | code => .other description code

def ofIoError : IO.Error → ReadError
  | .noFileOrDirectory _ code details | .interrupted _ code details => readError details code
  | .alreadyExists _ code details | .invalidArgument _ code details
  | .permissionDenied _ code details | .resourceExhausted _ code details
  | .inappropriateType _ code details | .noSuchThing _ code details => readError details code
  | .otherError code details | .resourceBusy code details | .resourceVanished code details
  | .unsupportedOperation code details | .hardwareFault code details
  | .unsatisfiedConstraints code details | .illegalOperation code details
  | .protocolError code details | .timeExpired code details => readError details code
  | .unexpectedEof => .other "unexpected end of file" 0
  | .userError message => .other message 0

def readFile (path : String) : IO (Except ReadError ByteArray) := do
  try
    return .ok (← IO.FS.readBinFile path)
  catch error =>
    return .error (ofIoError error)

/-- Reads a line with its line end; nothing at the end of the input. -/
partial def readLine (input : IO.FS.Stream) (line : ByteArray) : IO ByteArray := do
  let byte ← input.read 1
  if byte.isEmpty || byte.data[0]? = some Repl.newline then
    return line ++ byte
  else
    readLine input (line ++ byte)

/-- Passes the output of a world on to a stream. -/
def flush (output : IO.FS.Stream) (world : World) : IO World := do
  output.write world.sink.written
  output.flush
  return { world with sink := .empty none }

/-- The interactive loop on the standard streams. -/
partial def interact (settings : Settings) (world : World) : IO UInt8 := do
  let output ← IO.getStdout
  output.putStr settings.prompt
  output.flush
  let line ← readLine (← IO.getStdin) .empty
  if line.isEmpty then
    return 0
  match Repl.step settings line.data.toList world with
  | .ok none world => interact settings (← flush output world)
  | .ok (some code) world =>
    let _ ← flush output world
    return CommandLine.statusOf code
  | .error error world =>
    let _ ← flush output world
    (← IO.getStderr).putStr (CommandLine.complaint (.io error.message))
    return 1

/-- Writes what a process leaves behind and gives its status. -/
def leave (transcript : CommandLine.Transcript) : IO UInt8 := do
  let output ← IO.getStdout
  output.write transcript.stdout
  output.flush
  (← IO.getStderr).putStr transcript.stderr
  return transcript.status

def run (args : List String) : IO UInt8 := do
  let limitText ← IO.getEnv Settings.limitVariable
  match CommandLine.interpret args limitText with
  | .ok (.repl, settings) =>
    (← IO.getStdout).putStr CommandLine.banner
    interact settings (World.initial none 0)
  | .ok (.script path, settings) =>
    let content ← readFile path
    leave (CommandLine.perform settings (fun _ => content) .empty (.script path))
  | .ok (command, settings) =>
    leave (CommandLine.perform settings (fun _ => .error .noSuchFile) .empty command)
  | .error text => leave ⟨.empty, text, CommandLine.misuse⟩

end Tang.Main

def main (args : List String) : IO UInt32 := do
  return (← Tang.Main.run args).toUInt32
