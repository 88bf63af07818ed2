import Tang.Value

/-! What occurs in a syntax tree and in a value. A rule says something of single expressions and
statements, and a tree obeys it if every part of the tree does, function bodies included. A value
holds the functions that it is made of. -/

namespace Tang

/-! ### Rules for syntax -/

/-- A condition on expressions and one on statements. -/
structure Rule where
  expr : Expr → Prop
  stmt : Stmt → Prop

/-- The rule that every tree obeys. -/
def Rule.any : Rule := ⟨fun _ => True, fun _ => True⟩

mutual

def Expr.Obeys (rule : Rule) : Expr → Prop
  | .int n => rule.expr (.int n)
  | .str text => rule.expr (.str text)
  | .bool b => rule.expr (.bool b)
  | .null => rule.expr .null
  | .var name => rule.expr (.var name)
  | .unary op a => rule.expr (.unary op a) ∧ a.Obeys rule
  | .binary op a b => rule.expr (.binary op a b) ∧ a.Obeys rule ∧ b.Obeys rule
  | .cond test body otherwise =>
    rule.expr (.cond test body otherwise) ∧ test.Obeys rule ∧ Stmt.ObeyAll rule body ∧
      Stmt.ObeyElse rule otherwise
  | .fn params body => rule.expr (.fn params body) ∧ Stmt.ObeyAll rule body
  | .call callee args =>
    rule.expr (.call callee args) ∧ callee.Obeys rule ∧ Expr.ObeyAll rule args
  | .index target position =>
    rule.expr (.index target position) ∧ target.Obeys rule ∧ position.Obeys rule
  | .list elements => rule.expr (.list elements) ∧ Expr.ObeyAll rule elements
  | .tuple elements => rule.expr (.tuple elements) ∧ Expr.ObeyAll rule elements
  | .map pairs => rule.expr (.map pairs) ∧ Expr.ObeyPairs rule pairs

def Expr.ObeyAll (rule : Rule) : List Expr → Prop
  | [] => True
  | a :: as => a.Obeys rule ∧ Expr.ObeyAll rule as

def Expr.ObeyPairs (rule : Rule) : List (Expr × Expr) → Prop
  | [] => True
  | (a, b) :: pairs => a.Obeys rule ∧ b.Obeys rule ∧ Expr.ObeyPairs rule pairs

def Stmt.Obeys (rule : Rule) : Stmt → Prop
  | .declare name a => rule.stmt (.declare name a) ∧ a.Obeys rule
  | .assign name a => rule.stmt (.assign name a) ∧ a.Obeys rule
  | .ret none => rule.stmt (.ret none)
  | .ret (some a) => rule.stmt (.ret (some a)) ∧ a.Obeys rule
  | .expr a => rule.stmt (.expr a) ∧ a.Obeys rule

def Stmt.ObeyAll (rule : Rule) : List Stmt → Prop
  | [] => True
  | a :: as => a.Obeys rule ∧ Stmt.ObeyAll rule as

def Stmt.ObeyElse (rule : Rule) : Option (List Stmt) → Prop
  | none => True
  | some body => Stmt.ObeyAll rule body

end

mutual

theorem Expr.obeys_any : (e : Expr) → e.Obeys .any
  | .int _ | .str _ | .bool _ | .null | .var _ => trivial
  | .unary _ a => ⟨trivial, a.obeys_any⟩
  | .binary _ a b => ⟨trivial, a.obeys_any, b.obeys_any⟩
  | .cond test body otherwise =>
    ⟨trivial, test.obeys_any, Stmt.obeyAll_any body, Stmt.obeyElse_any otherwise⟩
  | .fn _ body => ⟨trivial, Stmt.obeyAll_any body⟩
  | .call callee args => ⟨trivial, callee.obeys_any, Expr.obeyAll_any args⟩
  | .index target position => ⟨trivial, target.obeys_any, position.obeys_any⟩
  | .list elements => ⟨trivial, Expr.obeyAll_any elements⟩
  | .tuple elements => ⟨trivial, Expr.obeyAll_any elements⟩
  | .map pairs => ⟨trivial, Expr.obeyPairs_any pairs⟩

theorem Expr.obeyAll_any : (es : List Expr) → Expr.ObeyAll .any es
  | [] => trivial
  | a :: as => ⟨a.obeys_any, Expr.obeyAll_any as⟩

theorem Expr.obeyPairs_any : (pairs : List (Expr × Expr)) → Expr.ObeyPairs .any pairs
  | [] => trivial
  | (a, b) :: pairs => ⟨a.obeys_any, b.obeys_any, Expr.obeyPairs_any pairs⟩

theorem Stmt.obeys_any : (s : Stmt) → s.Obeys .any
  | .declare _ a | .assign _ a | .ret (some a) | .expr a => ⟨trivial, a.obeys_any⟩
  | .ret none => trivial

theorem Stmt.obeyAll_any : (ss : List Stmt) → Stmt.ObeyAll .any ss
  | [] => trivial
  | a :: as => ⟨a.obeys_any, Stmt.obeyAll_any as⟩

theorem Stmt.obeyElse_any : (body : Option (List Stmt)) → Stmt.ObeyElse .any body
  | none => trivial
  | some body => Stmt.obeyAll_any body

end

/-- The second rule says of each part only what follows from the first rule for that part. -/
structure Rule.Entails (rule rule' : Rule) : Prop where
  expr {e : Expr} : e.Obeys rule → rule'.expr e
  stmt {s : Stmt} : s.Obeys rule → rule'.stmt s

section

variable {rule rule' : Rule}

mutual

theorem Expr.Obeys.imp (h : rule.Entails rule') : (e : Expr) → e.Obeys rule → e.Obeys rule'
  | .int _, ho | .str _, ho | .bool _, ho | .null, ho | .var _, ho => h.expr ho
  | .unary _ a, ho => ⟨h.expr ho, Expr.Obeys.imp h a ho.2⟩
  | .binary _ a b, ho => ⟨h.expr ho, Expr.Obeys.imp h a ho.2.1, Expr.Obeys.imp h b ho.2.2⟩
  | .cond test body otherwise, ho =>
    ⟨h.expr ho, Expr.Obeys.imp h test ho.2.1, Stmt.ObeyAll.imp h body ho.2.2.1,
      Stmt.ObeyElse.imp h otherwise ho.2.2.2⟩
  | .fn _ body, ho => ⟨h.expr ho, Stmt.ObeyAll.imp h body ho.2⟩
  | .call callee args, ho =>
    ⟨h.expr ho, Expr.Obeys.imp h callee ho.2.1, Expr.ObeyAll.imp h args ho.2.2⟩
  | .index target position, ho =>
    ⟨h.expr ho, Expr.Obeys.imp h target ho.2.1, Expr.Obeys.imp h position ho.2.2⟩
  | .list elements, ho => ⟨h.expr ho, Expr.ObeyAll.imp h elements ho.2⟩
  | .tuple elements, ho => ⟨h.expr ho, Expr.ObeyAll.imp h elements ho.2⟩
  | .map pairs, ho => ⟨h.expr ho, Expr.ObeyPairs.imp h pairs ho.2⟩

theorem Expr.ObeyAll.imp (h : rule.Entails rule') :
    (es : List Expr) → Expr.ObeyAll rule es → Expr.ObeyAll rule' es
  | [], _ => trivial
  | a :: as, ho => ⟨Expr.Obeys.imp h a ho.1, Expr.ObeyAll.imp h as ho.2⟩

theorem Expr.ObeyPairs.imp (h : rule.Entails rule') :
    (pairs : List (Expr × Expr)) → Expr.ObeyPairs rule pairs → Expr.ObeyPairs rule' pairs
  | [], _ => trivial
  | (a, b) :: pairs, ho =>
    ⟨Expr.Obeys.imp h a ho.1, Expr.Obeys.imp h b ho.2.1, Expr.ObeyPairs.imp h pairs ho.2.2⟩

theorem Stmt.Obeys.imp (h : rule.Entails rule') : (s : Stmt) → s.Obeys rule → s.Obeys rule'
  | .declare _ a, ho | .assign _ a, ho | .ret (some a), ho | .expr a, ho =>
    ⟨h.stmt ho, Expr.Obeys.imp h a ho.2⟩
  | .ret none, ho => h.stmt ho

theorem Stmt.ObeyAll.imp (h : rule.Entails rule') :
    (ss : List Stmt) → Stmt.ObeyAll rule ss → Stmt.ObeyAll rule' ss
  | [], _ => trivial
  | a :: as, ho => ⟨Stmt.Obeys.imp h a ho.1, Stmt.ObeyAll.imp h as ho.2⟩

theorem Stmt.ObeyElse.imp (h : rule.Entails rule') :
    (body : Option (List Stmt)) → Stmt.ObeyElse rule body → Stmt.ObeyElse rule' body
  | none, _ => trivial
  | some body, ho => Stmt.ObeyAll.imp h body ho

end

end

/-- The expression stands somewhere in the statements: not all their parts differ from it. -/
def Stmt.ContainAll (part : Expr) (body : List Stmt) : Prop :=
  ¬ Stmt.ObeyAll ⟨(· ≠ part), fun _ => True⟩ body

/-- A part of what obeys a rule obeys it. -/
theorem Stmt.ContainAll.obeys {rule : Rule} {part : Expr} {body : List Stmt}
    (h : Stmt.ContainAll part body) (ho : Stmt.ObeyAll rule body) : part.Obeys rule := by
  refine Classical.byContradiction fun hpart => h (Stmt.ObeyAll.imp ⟨?_, fun _ => trivial⟩ body ho)
  rintro e he rfl
  exact hpart he

/-! ### Functions in values -/

namespace Value

/-- The function is the value or stands somewhere in it. -/
inductive Holds (f : Closure) : Value → Prop where
  | function : Holds f (.function f)
  | list {elements : List Value} {value : Value} :
    value ∈ elements → Holds f value → Holds f (.list elements)
  | tuple {elements : List Value} {value : Value} :
    value ∈ elements → Holds f value → Holds f (.tuple elements)
  | map {entries : List (Key × Value)} {key : Key} {value : Value} :
    (key, value) ∈ entries → Holds f value → Holds f (.map entries)

variable {f g : Closure}

@[simp] theorem not_holds_int (n : Int64) : ¬ Holds f (.int n) := nofun

@[simp] theorem not_holds_bool (b : Bool) : ¬ Holds f (.bool b) := nofun

@[simp] theorem not_holds_str (text : String) : ¬ Holds f (.str text) := nofun

@[simp] theorem not_holds_null : ¬ Holds f .null := nofun

@[simp] theorem not_holds_builtin (which : Builtin) : ¬ Holds f (.builtin which) := nofun

@[simp] theorem holds_function : Holds f (.function g) ↔ f = g :=
  ⟨fun | .function => rfl, fun h => h ▸ .function⟩

@[simp] theorem holds_list {elements : List Value} :
    Holds f (.list elements) ↔ ∃ value ∈ elements, Holds f value :=
  ⟨fun | .list hv hf => ⟨_, hv, hf⟩, fun ⟨_, hv, hf⟩ => .list hv hf⟩

@[simp] theorem holds_tuple {elements : List Value} :
    Holds f (.tuple elements) ↔ ∃ value ∈ elements, Holds f value :=
  ⟨fun | .tuple hv hf => ⟨_, hv, hf⟩, fun ⟨_, hv, hf⟩ => .tuple hv hf⟩

@[simp] theorem holds_map {entries : List (Key × Value)} :
    Holds f (.map entries) ↔ ∃ key value, (key, value) ∈ entries ∧ Holds f value :=
  ⟨fun | .map hv hf => ⟨_, _, hv, hf⟩, fun ⟨_, _, hv, hf⟩ => .map hv hf⟩

end Value

end Tang
