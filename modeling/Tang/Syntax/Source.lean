import Tang.Diagnostic
import Tang.Syntax.Parser.Program
import Tang.Token.Lexer

/-! Programs from their text, with diagnostics that point at lines of a file. -/

namespace Tang

namespace Diagnostic

def ofLexError (file source : String) (error : LexError) : Diagnostic :=
  .lexical error.message (some ⟨file, Text.lineAt source error.offset⟩)

def ofParseError (file source : String) (tokens : List Token) (error : ParseError) : Diagnostic :=
  .syntactic error.cause.message
    ((error.offset? tokens).map fun offset => ⟨file, Text.lineAt source offset⟩)

end Diagnostic

namespace Program

/-- Reads a list of tokens that stand in `source`. -/
def parseTokens (file source : String) (tokens : List Token) : Except (List Diagnostic) Program :=
  (ofTokens tokens).mapError (List.map (.ofParseError file source tokens))

def parse (file source : String) : Except (List Diagnostic) Program :=
  match Token.scan source with
  | .ok tokens => parseTokens file source tokens
  | .error error => .error [.ofLexError file source error]

/-- Whether every failure to read the tokens is at a place in `source` that has a line. -/
def locatable (source : String) (tokens : List Token) : Bool :=
  match ofTokens tokens with
  | .ok _ => true
  | .error errors => errors.all fun error =>
      (error.offset? tokens).all (Text.onBoundary source.toList)

end Program

end Tang
