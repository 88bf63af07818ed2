/-! A directory of files, and what can go wrong when one is read by its path. -/

namespace Tang

inductive ReadError where
  | noSuchFile
  | notDirectory
  | isDirectory
  | nameTooLong
  | nulInPath
  | invalidUtf8
  | other (description : String) (code : Nat)
  deriving DecidableEq

namespace ReadError

def coded (description : String) (code : Nat) : String :=
  description ++ " (os error " ++ toString code ++ ")"

def message : ReadError → String
  | .noSuchFile => coded "No such file or directory" 2
  | .notDirectory => coded "Not a directory" 20
  | .isDirectory => coded "Is a directory" 21
  | .nameTooLong => coded "File name too long" 36
  | .nulInPath => "file name contained an unexpected NUL byte"
  | .invalidUtf8 => "stream did not contain valid UTF-8"
  | .other description code => coded description code

end ReadError

inductive Node where
  | file (content : ByteArray)
  | folder (entries : List (String × Node))

namespace Node

/-- A folder in which nothing is found. -/
def void : Node := .folder []

/-- What is to be put at a place: a file, or a folder if there is no content. -/
def ofContent : Option ByteArray → Node
  | some content => .file content
  | none => void

/-- Puts a file or a folder at a place below a folder, with the folders on the way. -/
def put (content : Option ByteArray) : List String → Node → Node
  | [], .folder entries => if content.isNone then .folder entries else ofContent content
  | [], .file _ => ofContent content
  | part :: parts, node =>
    let entries := match node with
      | .folder entries => entries
      | .file _ => []
    let child := put content parts ((entries.lookup part).getD void)
    .folder ((part, child) :: entries.filter fun entry => entry.1 != part)

end Node

namespace Directory

def parts (path : String) : List String :=
  path.splitOn "/"

/-- The folder that holds the given files; a name without content is a folder. -/
def ofFiles (files : List (String × Option ByteArray)) : Node :=
  files.foldl (fun node (name, content) => node.put content (parts name)) .void

/-- The most bytes that a part of a path may have. -/
def maxPart : Nat := 255

/-- The most bytes that a path may have. -/
def maxPath : Nat := 4095

/-- Follows the parts of a path from a node; `above` are the folders around it, the nearest first.
What lies outside the outermost folder is not known to hold anything. -/
def walk (here : Node) (above : List Node) : List String → Except ReadError Node
  | [] => .ok here
  | part :: parts =>
    match here with
    | .file _ => .error .notDirectory
    | .folder entries =>
      if part = "" ∨ part = "." then walk here above parts
      else if part = ".." then walk (above.head?.getD .void) above.tail parts
      else if maxPart < part.utf8ByteSize then .error .nameTooLong
      else
        match entries.lookup part with
        | some node => walk node (here :: above) parts
        | none => .error .noSuchFile

/-- Reads the file at a path. A path that starts with a slash leads outside the directory. -/
def read (directory : Node) (path : String) : Except ReadError ByteArray := do
  if path.toList.contains '\x00' then throw .nulInPath
  if maxPath < path.utf8ByteSize then throw .nameTooLong
  if path = "" then throw .noSuchFile
  let start := if path.toList.head? = some '/' then Node.void else directory
  match ← walk start [] (parts path) with
  | .file content => return content
  | .folder _ => throw .isDirectory

end Directory

end Tang
