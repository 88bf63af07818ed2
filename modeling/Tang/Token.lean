import Tang.Integer
import Tang.Text.Quoted

/-! The tokens of the language: names, integer and string literals, keywords, symbols, line ends
and the end of the input. -/

namespace Tang

inductive Keyword where
  | trueWord | falseWord | nullWord | fnWord | ifWord | elseWord | returnWord
  deriving DecidableEq

namespace Keyword

def all : List Keyword :=
  [.trueWord, .falseWord, .nullWord, .fnWord, .ifWord, .elseWord, .returnWord]

def text : Keyword → String
  | .trueWord => "true"
  | .falseWord => "false"
  | .nullWord => "null"
  | .fnWord => "fn"
  | .ifWord => "if"
  | .elseWord => "else"
  | .returnWord => "return"

def ofText? (text : String) : Option Keyword :=
  all.find? fun keyword => keyword.text == text

theorem ofText?_text (keyword : Keyword) : ofText? keyword.text = some keyword := by
  cases keyword <;> rfl

end Keyword

inductive Symbol where
  | semicolon | colon | comma
  | openParen | closeParen | openBrace | closeBrace | openBracket | closeBracket
  | plus | minus | star | slash | percent | bang
  | assign | declare
  | equal | notEqual | less | lessEqual | greater | greaterEqual
  deriving DecidableEq

namespace Symbol

def all : List Symbol :=
  [.semicolon, .colon, .comma,
   .openParen, .closeParen, .openBrace, .closeBrace, .openBracket, .closeBracket,
   .plus, .minus, .star, .slash, .percent, .bang,
   .assign, .declare,
   .equal, .notEqual, .less, .lessEqual, .greater, .greaterEqual]

def chars : Symbol → List Char
  | .semicolon => [';']
  | .colon => [':']
  | .comma => [',']
  | .openParen => ['(']
  | .closeParen => [')']
  | .openBrace => ['\x7b']
  | .closeBrace => ['\x7d']
  | .openBracket => ['[']
  | .closeBracket => [']']
  | .plus => ['+']
  | .minus => ['-']
  | .star => ['*']
  | .slash => ['/']
  | .percent => ['%']
  | .bang => ['!']
  | .assign => ['=']
  | .declare => [':', '=']
  | .equal => ['=', '=']
  | .notEqual => ['!', '=']
  | .less => ['<']
  | .lessEqual => ['<', '=']
  | .greater => ['>']
  | .greaterEqual => ['>', '=']

def text (symbol : Symbol) : String :=
  String.ofList symbol.chars

def ofChars? (cs : List Char) : Option Symbol :=
  all.find? fun symbol => symbol.chars == cs

theorem ofChars?_chars (symbol : Symbol) : ofChars? symbol.chars = some symbol := by
  cases symbol <;> rfl

end Symbol

namespace Token

inductive Kind where
  | name (text : String)
  | int (n : Int64)
  | str (text : String)
  | keyword (word : Keyword)
  | symbol (sign : Symbol)
  | newline
  | endOfInput
  deriving DecidableEq

namespace Kind

/-- A token as it is written in a program. -/
def spelling : Kind → String
  | .name text => text
  | .int n => Integer.render n
  | .str text => Text.quote text
  | .keyword word => word.text
  | .symbol sign => sign.text
  | .newline => "\n"
  | .endOfInput => ""

/-- A token as it is named in a diagnostic. -/
def describe : Kind → String
  | .name text => "identifier '" ++ text ++ "'"
  | .int n => "integer " ++ Integer.render n
  | .str text => "string " ++ Text.quote text
  | .newline => "end of line"
  | .endOfInput => "end of input"
  | kind => "'" ++ kind.spelling ++ "'"

def isNewline (kind : Kind) : Bool :=
  kind == .newline

/-- Line ends and semicolons separate statements. -/
def isSeparator (kind : Kind) : Bool :=
  kind == .newline || kind == .symbol .semicolon

end Kind

end Token

/-- A token with the byte offsets between which it stands. -/
structure Token where
  kind : Token.Kind
  start : Nat
  stop : Nat
  deriving DecidableEq

end Tang
