import Tang.Syntax

/-! The written form of a syntax tree: its tokens, with a space wherever the form has one.
Operators are always put in parentheses. -/

namespace Tang

/-- A part of the written form. -/
inductive Item where
  | token (kind : Token.Kind)
  | space
  deriving DecidableEq

namespace Item

def text : Item → String
  | .token kind => kind.spelling
  | .space => " "

abbrev sign (symbol : Symbol) : Item :=
  .token (.symbol symbol)

abbrev word (keyword : Keyword) : Item :=
  .token (.keyword keyword)

abbrev name (text : String) : Item :=
  .token (.name text)

/-- The items of a list, separated by commas. -/
def commas (parts : List (List Item)) : List Item :=
  [sign .comma, space].intercalate parts

/-- Items between an opening and a closing symbol. -/
def within (opening closing : Symbol) (items : List Item) : List Item :=
  sign opening :: (items ++ [sign closing])

def render (items : List Item) : String :=
  String.join (items.map text)

end Item

open Item

/-- The statements of a block between braces, with `gap` inside them. -/
def Item.block (gap : Item) (body : List (List Item)) : List Item :=
  within .openBrace .closeBrace (gap :: ([sign .semicolon, space].intercalate body ++ [gap]))

/-- The head of a function literal. -/
def Item.signature (params : List String) : List Item :=
  word .fnWord :: (within .openParen .closeParen (commas (params.map fun p => [name p])) ++ [space])

mutual

def Expr.items : Expr → List Item
  | .int n => [token (.int n)]
  | .str text => [token (.str text)]
  | .bool true => [word .trueWord]
  | .bool false => [word .falseWord]
  | .null => [word .nullWord]
  | .var x => [name x]
  | .unary op a => within .openParen .closeParen (sign op.sign :: a.items)
  | .binary op a b =>
    within .openParen .closeParen (a.items ++ [space, sign op.sign, space] ++ b.items)
  | .cond test body otherwise =>
    word .ifWord :: space :: (test.items ++ [space] ++ block space (Stmt.itemsAll body) ++
      Stmt.itemsElse otherwise)
  | .fn params body => signature params ++ block space (Stmt.itemsAll body)
  | .call callee args =>
    callee.items ++ within .openParen .closeParen (commas (Expr.itemsAll args))
  | .index target position =>
    within .openParen .closeParen
      (target.items ++ within .openBracket .closeBracket position.items)
  | .list elements => within .openBracket .closeBracket (commas (Expr.itemsAll elements))
  | .tuple [a] => within .openParen .closeParen (a.items ++ [sign .comma])
  | .tuple elements => within .openParen .closeParen (commas (Expr.itemsAll elements))
  | .map pairs => within .openBrace .closeBrace (commas (Expr.itemsPairs pairs))

def Expr.itemsAll : List Expr → List (List Item)
  | [] => []
  | a :: as => a.items :: Expr.itemsAll as

def Expr.itemsPairs : List (Expr × Expr) → List (List Item)
  | [] => []
  | (a, b) :: pairs => (a.items ++ [sign .colon, space] ++ b.items) :: Expr.itemsPairs pairs

def Stmt.items : Stmt → List Item
  | .declare x a => name x :: space :: sign .declare :: space :: a.items
  | .assign x a => name x :: space :: sign .assign :: space :: a.items
  | .ret (some a) => word .returnWord :: space :: a.items
  | .ret none => [word .returnWord]
  | .expr a => a.items

def Stmt.itemsAll : List Stmt → List (List Item)
  | [] => []
  | a :: as => a.items :: Stmt.itemsAll as

def Stmt.itemsElse : Option (List Stmt) → List Item
  | none => []
  | some body => space :: word .elseWord :: space :: block space (Stmt.itemsAll body)

end

/-- A program with a statement on each line. -/
def Program.items (program : Program) : List Item :=
  [token .newline].intercalate (Stmt.itemsAll program)

def Program.render (program : Program) : String :=
  Item.render program.items

/-- A function with its body on lines of its own. -/
def Item.function (params : List String) (body : List Stmt) : List Item :=
  signature params ++ block (token .newline) (Stmt.itemsAll body)

end Tang
