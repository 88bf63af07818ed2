import Tang.Syntax.Printer
import Tang.Value.Map

/-! How values are shown. -/

namespace Tang

def renderBool (b : Bool) : String :=
  if b then "true" else "false"

def Key.render : Key → String
  | .int n => Integer.render n
  | .bool b => renderBool b
  | .str text => text

namespace Value

def commas (parts : List String) : String :=
  ", ".intercalate parts

mutual

def render : Value → String
  | .int n => Integer.render n
  | .bool b => renderBool b
  | .str text => text
  | .null => "null"
  | .list elements => "[" ++ commas (renderAll elements) ++ "]"
  | .tuple elements => "(" ++ commas (renderAll elements) ++ ")"
  | .map entries => "\x7b" ++ commas (renderEntries entries) ++ "\x7d"
  | .function closure => Item.render (Item.function closure.params closure.body)
  | .builtin _ => "builtin function"

def renderAll : List Value → List String
  | [] => []
  | a :: as => a.render :: renderAll as

def renderEntries : List (Key × Value) → List String
  | [] => []
  | (k, a) :: entries => (k.render ++ ": " ++ a.render) :: renderEntries entries

end

/-- How a value is shown to a programmer: texts in quotes, builtins by name. -/
def inspect : Value → String
  | .str text => Text.quote text
  | .builtin f => "<builtin " ++ f.name ++ ">"
  | value => value.render

end Value

end Tang
