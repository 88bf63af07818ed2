import Tang.Signal

/-! Templates: `%v` stands for the next argument and `%%` for a percent sign. -/

namespace Tang.Template

/-- The text of a template with its arguments filled in. Arguments left over are ignored. -/
def fill : List Char → List Value → Except RuntimeError (List Char)
  | [], _ => .ok []
  | '%' :: '%' :: cs, args => (fill cs args).map ('%' :: ·)
  | '%' :: 'v' :: _, [] => .error .missingArgument
  | '%' :: 'v' :: cs, arg :: args => (fill cs args).map (arg.render.toList ++ ·)
  | '%' :: c :: _, _ => .error (.badVerb (some c))
  | ['%'], _ => .error (.badVerb none)
  | c :: cs, args => (fill cs args).map (c :: ·)

end Tang.Template
