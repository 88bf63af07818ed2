/-! The functions that every program can use by name. -/

namespace Tang

inductive Builtin where
  | len | print | format | first | last | rest | append | exit | panic
  deriving DecidableEq

namespace Builtin

def all : List Builtin :=
  [.len, .print, .format, .first, .last, .rest, .append, .exit, .panic]

def name : Builtin → String
  | .len => "len"
  | .print => "print"
  | .format => "format"
  | .first => "first"
  | .last => "last"
  | .rest => "rest"
  | .append => "append"
  | .exit => "exit"
  | .panic => "panic"

def ofName? (name : String) : Option Builtin :=
  all.find? fun builtin => builtin.name == name

theorem ofName?_name (builtin : Builtin) : ofName? builtin.name = some builtin := by
  cases builtin <;> rfl

end Builtin

end Tang
