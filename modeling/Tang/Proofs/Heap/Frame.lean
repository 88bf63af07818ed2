import Tang.Proofs.Heap.Evaluation
import Tang.Proofs.Truncation

/-! The frame of an evaluation. An expression declares and assigns only inside the blocks and
functions that it runs, and each of these gets a scope of its own, opened in the course of the
evaluation. An assignment may reach further out, but only to a name that is bound there. So a scope
that was there before keeps its place and its names, and a name that nothing assigns keeps its
value. -/

namespace Tang

open Tang.Action (final)

/-- The rule of trees that assign to none of the names. -/
def Rule.spares (names : String → Prop) : Rule where
  expr _ := True
  stmt
    | .assign x _ => ¬ names x
    | _ => True

variable {names : String → Prop}

/-! ### Scopes that are kept -/

namespace Scope

/-- The second scope lies inside the same scope as the first one and binds the same names, and the
given names have the same values. -/
structure Keeps (names : String → Prop) (old new : Scope) : Prop where
  parent : new.parent = old.parent
  bound (x : String) : (new.get? x).isSome = (old.get? x).isSome
  value {x : String} : names x → new.get? x = old.get? x

theorem Keeps.refl (scope : Scope) : scope.Keeps names scope :=
  ⟨rfl, fun _ => rfl, fun _ => rfl⟩

theorem Keeps.trans {a b c : Scope} (hab : a.Keeps names b) (hbc : b.Keeps names c) :
    a.Keeps names c where
  parent := hbc.parent.trans hab.parent
  bound x := (hbc.bound x).trans (hab.bound x)
  value hx := (hbc.value hx).trans (hab.value hx)

theorem keeps_set {scope : Scope} {x : String} (hb : (scope.get? x).isSome) (hx : ¬ names x)
    (value : Value) : scope.Keeps names (scope.set x value) where
  parent := rfl
  bound y := by
    by_cases hy : y = x
    · simp [get?_set, hy, hb]
    · simp [get?_set, hy]
  value {y} hy := by
    have hne : y ≠ x := fun h => hx (h ▸ hy)
    simp [get?_set, hne]

end Scope

namespace Scopes

/-- The first `n` scopes are kept. -/
def Keeps (names : String → Prop) (n : Nat) (old new : Scopes) : Prop :=
  ∀ i < n, ∀ scope, old[i]? = some scope →
    ∃ scope', new[i]? = some scope' ∧ scope.Keeps names scope'

variable {n : Nat} {scopes : Scopes}

theorem Keeps.refl (scopes : Scopes) : scopes.Keeps names n scopes :=
  fun _ _ scope h => ⟨scope, h, .refl scope⟩

theorem Keeps.trans {a b c : Scopes} (hab : a.Keeps names n b) (hbc : b.Keeps names n c) :
    a.Keeps names n c := by
  intro i hi scope h
  obtain ⟨scope', h', hk'⟩ := hab i hi scope h
  obtain ⟨scope'', h'', hk''⟩ := hbc i hi scope' h'
  exact ⟨scope'', h'', hk'.trans hk''⟩

theorem Extends.le_size {old new : Scopes} (h : old.Extends new) (hn : n ≤ old.size) :
    n ≤ new.size :=
  Nat.le_trans hn h.size_le

theorem keeps_set_of_le {id : ScopeId} (hid : n ≤ id) (x : String) (value : Value) :
    scopes.Keeps names n (scopes.set id x value) := by
  intro i hi scope h
  refine ⟨scope, ?_, .refl scope⟩
  rw [getElem?_set, h, Option.map_some, if_neg (Nat.ne_of_gt (Nat.lt_of_lt_of_le hi hid))]

theorem keeps_enclose (id : ScopeId) : scopes.Keeps names n (scopes.enclose id) := by
  intro i _ scope h
  have hi : i < scopes.size := (Array.getElem?_eq_some_iff.1 h).1
  exact ⟨scope, by rw [enclose, Array.getElem?_push_lt hi, ← h, Array.getElem?_eq_getElem hi],
    .refl scope⟩

/-- The owner of a name is no younger scope, and binds the name. -/
theorem bound_of_owner? {id owner : ScopeId} {x : String} (h : scopes.owner? id x = some owner) :
    owner ≤ id ∧ ∃ scope, scopes[owner]? = some scope ∧ (scope.get? x).isSome := by
  fun_induction owner? scopes id x with
  | case1 => cases h
  | case2 id scope hid hx => cases h; exact ⟨Nat.le_refl _, scope, hid, hx⟩
  | case3 => cases h
  | case4 id scope hid hx parent hp hlt ih =>
    obtain ⟨hle, hbound⟩ := ih h
    exact ⟨Nat.le_of_lt (Nat.lt_of_le_of_lt hle hlt), hbound⟩
  | case5 => cases h

theorem keeps_assign {id : ScopeId} (hid : n ≤ id) {x : String} (hx : ¬ names x) (value : Value) :
    scopes.Keeps names n (scopes.assign id x value) := by
  rw [assign]
  cases howner : scopes.owner? id x with
  | none => exact keeps_set_of_le hid x value
  | some owner =>
    -- the owner may be a scope that is kept, but then it has the name already
    intro i hi scope h
    obtain ⟨-, scope', h', hb⟩ := bound_of_owner? howner
    refine ⟨if owner = i then scope.set x value else scope, by simp [getElem?_set, h], ?_⟩
    split
    · next heq =>
      subst heq
      obtain rfl := Option.some.inj (h.symm.trans h')
      exact Scope.keeps_set hb hx value
    · exact .refl scope

/-- Names have the same owners in scopes that are kept. -/
theorem Keeps.owner? {old new : Scopes} (h : old.Keeps names n new) (hn : n ≤ old.size)
    (x : String) (id : ScopeId) (hid : id < n) : new.owner? id x = old.owner? id x := by
  induction id using Nat.strongRecOn with
  | _ id ih =>
    have hold := Array.getElem?_eq_getElem (Nat.lt_of_lt_of_le hid hn)
    obtain ⟨scope', hnew, hk⟩ := h id hid _ hold
    rw [Scopes.owner?, Scopes.owner?.eq_def old]
    simp only [hold, hnew, hk.parent, hk.bound x]
    split
    · rfl
    · split
      · rfl
      · split
        · next hlt => exact ih _ hlt (Nat.lt_trans hlt hid)
        · rfl

theorem Keeps.get? {old new : Scopes} (h : old.Keeps names n new) (hn : n ≤ old.size) {x : String}
    (hx : names x) {id : ScopeId} (hid : id < n) : new.get? id x = old.get? id x := by
  rw [Scopes.get?, Scopes.get?, h.owner? hn x id hid]
  cases howner : old.owner? id x with
  | none => rfl
  | some owner =>
    obtain ⟨hle, scope, hold, -⟩ := bound_of_owner? howner
    obtain ⟨scope', hnew, hk⟩ := h owner (Nat.lt_of_le_of_lt hle hid) scope hold
    simp [hold, hnew, hk.value hx]

end Scopes

/-! ### Actions -/

namespace Eval

variable {α β : Type} {n : Nat} {world : World}

/-- Run in the world, the action keeps the first `n` scopes, whatever it ends in. -/
def Keeps (names : String → Prop) (n : Nat) (action : Eval α) (world : World) : Prop :=
  world.scopes.Keeps names n (final (action world)).scopes

theorem keeps_of_scopes_eq {action : Eval α}
    (h : (final (action world)).scopes = world.scopes) : Keeps names n action world := by
  rw [Keeps, h]
  exact .refl _

theorem Keeps.bind {action : Eval α} {next : α → Eval β} (h : Keeps names n action world)
    (hn : ∀ a world', action world = .ok a world' → Keeps names n (next a) world') :
    Keeps names n (action >>= next) world := by
  unfold Keeps at h ⊢
  cases hr : action world with
  | error signal world' =>
    rw [hr] at h
    rwa [Action.bind_of_error hr]
  | ok a world' =>
    rw [hr] at h
    rw [Action.bind_of_ok hr]
    exact h.trans (hn a world' hr)

theorem keeps_lift (result : Except RuntimeError α) :
    Keeps names n (Signal.lift result) world := by
  cases result <;> exact .refl _

theorem keeps_lookup (scope : ScopeId) (x : String) : Keeps names n (lookup scope x) world := by
  apply keeps_of_scopes_eq
  have hget : (get : Eval World) world = .ok world world := rfl
  rw [lookup, Action.bind_of_ok hget]
  cases world.scopes.get? scope x with
  | some value => rfl
  | none => cases Builtin.ofName? x <;> rfl

theorem keeps_declare {scope : ScopeId} (hs : n ≤ scope) (x : String) (value : Value) :
    Keeps names n (declare scope x value) world :=
  Scopes.keeps_set_of_le hs x value

theorem keeps_assign {scope : ScopeId} (hs : n ≤ scope) {x : String} (hx : ¬ names x)
    (value : Value) : Keeps names n (assign scope x value) world :=
  Scopes.keeps_assign hs hx value

theorem keeps_enclose (scope : ScopeId) : Keeps names n (enclose scope) world :=
  Scopes.keeps_enclose scope

theorem keeps_bindAll {scope : ScopeId} (hs : n ≤ scope) (bindings : List (String × Value)) :
    Keeps names n (bindAll scope bindings) world := by
  induction bindings generalizing world with
  | nil => exact .refl _
  | cons binding bindings ih => exact (keeps_declare hs binding.1 binding.2).bind fun _ _ _ => ih

theorem keeps_onSink (action : EStateM Signal Sink α) :
    Keeps names n (World.onSink action) world := by
  apply keeps_of_scopes_eq
  cases hr : action world.sink with
  | ok a sink => rw [Action.onSink_of_ok hr]; rfl
  | error signal sink => rw [Action.onSink_of_error hr]; rfl

theorem Keeps.orNull {body : Eval (Option Value)} (h : Keeps names n body world) :
    Keeps names n (orNull body) world :=
  h.bind fun _ _ _ => .refl _

theorem Keeps.returned {body : Eval Value} (h : Keeps names n body world) :
    Keeps names n (returned body) world := by
  unfold Keeps Eval.returned at *
  split
  · next hr => rwa [hr] at h
  · exact h

end Eval

/-! ### Evaluation -/

open Eval

/-- Called with values that fit, the caller keeps the scopes sound and the first `n` of them as they
are. -/
structure Caller.Keeps (names : String → Prop) (n : Nat) (call : Caller) : Prop where
  sound : call.Sound (.spares names)
  keeps {f : Value} {args : List Value} {world : World} :
    world.scopes.Sound (.spares names) → n ≤ world.scopes.size →
      f.Fits (.spares names) world.scopes.size →
        (∀ arg ∈ args, arg.Fits (.spares names) world.scopes.size) →
          Eval.Keeps names n (call f args) world

section Evaluation

variable {n : Nat} {call : Caller}

/-- A block runs in a new scope, which comes after all that are kept. -/
theorem keeps_block {scope : ScopeId} {world : World} {body : List Stmt}
    (hw : world.scopes.Sound (.spares names)) (hs : scope < world.scopes.size)
    (hn : n ≤ world.scopes.size)
    (hbody : ∀ inner world', world'.scopes.Sound (.spares names) → inner < world'.scopes.size →
      n ≤ inner → Eval.Keeps names n (Stmt.evalAll call inner none body) world') :
    Eval.Keeps names n (do let inner ← enclose scope; orNull (Stmt.evalAll call inner none body))
      world := by
  apply (keeps_enclose scope).bind
  intro inner world' hr
  obtain ⟨hw', -, hi⟩ := (sound_enclose hw hs).of_ok hr
  obtain rfl : world.scopes.size = inner := by cases hr; rfl
  exact (hbody _ world' hw' hi hn).orNull

mutual

/-- An expression may be evaluated in a scope that is to be kept. -/
theorem Expr.eval_keeps (hcall : call.Keeps names n) :
    (e : Expr) → e.Obeys (.spares names) → ∀ (scope : ScopeId) (world : World),
      world.scopes.Sound (.spares names) → scope < world.scopes.size → n ≤ world.scopes.size →
        Eval.Keeps names n (e.eval call scope) world
  | .int _, _, _, _, _, _, _ | .str _, _, _, _, _, _, _ | .bool _, _, _, _, _, _, _
  | .null, _, _, _, _, _, _ | .fn _ _, _, _, _, _, _, _ => .refl _
  | .var x, _, scope, _, _, _, _ => keeps_lookup scope x
  | .unary op a, ho, scope, world, hw, hs, hn =>
    (a.eval_keeps hcall ho.2 scope world hw hs hn).bind fun _ _ _ => keeps_lift _
  | .binary op a b, ho, scope, world, hw, hs, hn => by
    apply (a.eval_keeps hcall ho.2.1 scope world hw hs hn).bind
    intro l world₁ hr
    obtain ⟨hw₁, he, -⟩ := (a.eval_sound hcall.sound ho.2.1 scope world hw hs).of_ok hr
    apply (b.eval_keeps hcall ho.2.2 scope world₁ hw₁ (he.lt_size hs) (he.le_size hn)).bind
    intro r world₂ _
    exact keeps_lift _
  | .cond test body otherwise, ho, scope, world, hw, hs, hn => by
    apply (test.eval_keeps hcall ho.2.1 scope world hw hs hn).bind
    intro value world₁ hr
    obtain ⟨hw₁, he, -⟩ := (test.eval_sound hcall.sound ho.2.1 scope world hw hs).of_ok hr
    have hs₁ := he.lt_size hs
    have hn₁ := he.le_size hn
    split
    · exact keeps_block hw₁ hs₁ hn₁ fun inner world₂ hw₂ hi hle =>
        Stmt.evalAll_keeps hcall body ho.2.2.1 none inner world₂ hw₂ hi hle
    · exact Stmt.evalElse_keeps hcall otherwise ho.2.2.2 scope world₁ hw₁ hs₁ hn₁
  | .call callee args, ho, scope, world, hw, hs, hn => by
    apply (callee.eval_keeps hcall ho.2.1 scope world hw hs hn).bind
    intro f world₁ hr₁
    obtain ⟨hw₁, he₁, hf⟩ := (callee.eval_sound hcall.sound ho.2.1 scope world hw hs).of_ok hr₁
    have hs₁ := he₁.lt_size hs
    have hn₁ := he₁.le_size hn
    apply (Expr.evalAll_keeps hcall args ho.2.2 scope world₁ hw₁ hs₁ hn₁).bind
    intro values world₂ hr₂
    obtain ⟨hw₂, he₂, hvalues⟩ :=
      (Expr.evalAll_sound hcall.sound args ho.2.2 scope world₁ hw₁ hs₁).of_ok hr₂
    exact hcall.keeps hw₂ (he₂.le_size hn₁) (hf.mono he₂.size_le) hvalues
  | .index target position, ho, scope, world, hw, hs, hn => by
    apply (target.eval_keeps hcall ho.2.1 scope world hw hs hn).bind
    intro t world₁ hr
    obtain ⟨hw₁, he, -⟩ := (target.eval_sound hcall.sound ho.2.1 scope world hw hs).of_ok hr
    apply (position.eval_keeps hcall ho.2.2 scope world₁ hw₁ (he.lt_size hs)
      (he.le_size hn)).bind
    intro p world₂ _
    exact keeps_lift _
  | .list elements, ho, scope, world, hw, hs, hn
  | .tuple elements, ho, scope, world, hw, hs, hn =>
    (Expr.evalAll_keeps hcall elements ho.2 scope world hw hs hn).bind fun _ _ _ => .refl _
  | .map pairs, ho, scope, world, hw, hs, hn =>
    (Expr.evalPairs_keeps hcall pairs ho.2 [] scope world hw hs hn).bind fun _ _ _ => .refl _

theorem Expr.evalAll_keeps (hcall : call.Keeps names n) :
    (es : List Expr) → Expr.ObeyAll (.spares names) es → ∀ (scope : ScopeId) (world : World),
      world.scopes.Sound (.spares names) → scope < world.scopes.size → n ≤ world.scopes.size →
        Eval.Keeps names n (Expr.evalAll call scope es) world
  | [], _, _, _, _, _, _ => .refl _
  | e :: es, ho, scope, world, hw, hs, hn => by
    apply (e.eval_keeps hcall ho.1 scope world hw hs hn).bind
    intro value world₁ hr
    obtain ⟨hw₁, he, -⟩ := (e.eval_sound hcall.sound ho.1 scope world hw hs).of_ok hr
    apply (Expr.evalAll_keeps hcall es ho.2 scope world₁ hw₁ (he.lt_size hs)
      (he.le_size hn)).bind
    intro values world₂ _
    exact .refl _

theorem Expr.evalPairs_keeps (hcall : call.Keeps names n) :
    (pairs : List (Expr × Expr)) → Expr.ObeyPairs (.spares names) pairs → ∀ (entries : Entries)
      (scope : ScopeId) (world : World), world.scopes.Sound (.spares names) →
        scope < world.scopes.size → n ≤ world.scopes.size →
          Eval.Keeps names n (Expr.evalPairs call scope entries pairs) world
  | [], _, _, _, _, _, _, _ => .refl _
  | (a, b) :: pairs, ho, entries, scope, world, hw, hs, hn => by
    apply (a.eval_keeps hcall ho.1 scope world hw hs hn).bind
    intro keyValue world₁ hr₁
    obtain ⟨hw₁, he₁, -⟩ := (a.eval_sound hcall.sound ho.1 scope world hw hs).of_ok hr₁
    have hs₁ := he₁.lt_size hs
    have hn₁ := he₁.le_size hn
    split
    · exact .refl _
    · apply (b.eval_keeps hcall ho.2.1 scope world₁ hw₁ hs₁ hn₁).bind
      intro value world₂ hr₂
      obtain ⟨hw₂, he₂, -⟩ := (b.eval_sound hcall.sound ho.2.1 scope world₁ hw₁ hs₁).of_ok hr₂
      exact Expr.evalPairs_keeps hcall pairs ho.2.2 _ scope world₂ hw₂ (he₂.lt_size hs₁)
        (he₂.le_size hn₁)

/-- A statement binds names in its own scope, so this is none of those that are kept. -/
theorem Stmt.eval_keeps (hcall : call.Keeps names n) :
    (s : Stmt) → s.Obeys (.spares names) → ∀ (scope : ScopeId) (world : World),
      world.scopes.Sound (.spares names) → scope < world.scopes.size → n ≤ scope →
        Eval.Keeps names n (s.eval call scope) world
  | .declare x a, ho, scope, world, hw, hs, hn => by
    have hn' : n ≤ world.scopes.size := Nat.le_of_lt (Nat.lt_of_le_of_lt hn hs)
    apply (a.eval_keeps hcall ho.2 scope world hw hs hn').bind
    intro value world' _
    exact (keeps_declare hn x value).bind fun _ _ _ => .refl _
  | .assign x a, ho, scope, world, hw, hs, hn => by
    have hn' : n ≤ world.scopes.size := Nat.le_of_lt (Nat.lt_of_le_of_lt hn hs)
    apply (a.eval_keeps hcall ho.2 scope world hw hs hn').bind
    intro value world' _
    exact (keeps_assign hn ho.1 value).bind fun _ _ _ => .refl _
  | .ret none, _, _, _, _, _, _ => .refl _
  | .ret (some a), ho, scope, world, hw, hs, hn
  | .expr a, ho, scope, world, hw, hs, hn => by
    have hn' : n ≤ world.scopes.size := Nat.le_of_lt (Nat.lt_of_le_of_lt hn hs)
    exact (a.eval_keeps hcall ho.2 scope world hw hs hn').bind fun _ _ _ => .refl _

theorem Stmt.evalAll_keeps (hcall : call.Keeps names n) :
    (ss : List Stmt) → Stmt.ObeyAll (.spares names) ss → ∀ (last : Option Value) (scope : ScopeId)
      (world : World), world.scopes.Sound (.spares names) → scope < world.scopes.size →
        n ≤ scope → Eval.Keeps names n (Stmt.evalAll call scope last ss) world
  | [], _, _, _, _, _, _, _ => .refl _
  | s :: ss, ho, _, scope, world, hw, hs, hn => by
    apply (s.eval_keeps hcall ho.1 scope world hw hs hn).bind
    intro last world' hr
    obtain ⟨hw', he, -⟩ := (s.eval_sound hcall.sound ho.1 scope world hw hs).of_ok hr
    exact Stmt.evalAll_keeps hcall ss ho.2 last scope world' hw' (he.lt_size hs) hn

theorem Stmt.evalElse_keeps (hcall : call.Keeps names n) :
    (body : Option (List Stmt)) → Stmt.ObeyElse (.spares names) body → ∀ (scope : ScopeId)
      (world : World), world.scopes.Sound (.spares names) → scope < world.scopes.size →
        n ≤ world.scopes.size → Eval.Keeps names n (Stmt.evalElse call scope body) world
  | none, _, _, _, _, _, _ => .refl _
  | some body, ho, _, _, hw, hs, hn =>
    keeps_block hw hs hn fun inner world' hw' hi hle =>
      Stmt.evalAll_keeps hcall body ho none inner world' hw' hi hle

end

end Evaluation

theorem callWithin_keeps (names : String → Prop) (n limit depth : Nat) :
    (callWithin limit depth).Keeps names n := by
  induction depth with
  | zero =>
    refine ⟨callWithin_sound _ limit 0, ?_⟩
    intro f args world hw hn hf hargs
    cases f with
    | builtin which => exact keeps_onSink _
    | function f =>
      unfold callWithin
      split <;> exact .refl _
    | _ => exact .refl _
  | succ depth ih =>
    -- parameters are bound and the body is run in a scope that is opened for the call
    refine ⟨callWithin_sound _ limit (depth + 1), ?_⟩
    intro f args world hw hn hf hargs
    cases f with
    | builtin which => exact keeps_onSink _
    | function f =>
      unfold callWithin
      split
      · obtain ⟨hscope, ho⟩ := Value.fits_function.1 hf
        apply (keeps_enclose f.scope).bind
        intro inner world₁ hr₁
        obtain ⟨hw₁, he₁, hi⟩ := (sound_enclose hw hscope).of_ok hr₁
        obtain rfl : world.scopes.size = inner := by cases hr₁; rfl
        apply (keeps_bindAll hn _).bind
        intro _ world₂ hr₂
        have hzip : ∀ binding ∈ f.params.zip args,
            binding.2.Fits (.spares names) world₁.scopes.size :=
          fun binding hb => (hargs _ (List.of_mem_zip hb).2).mono he₁.size_le
        obtain ⟨hw₂, he₂, -⟩ := (sound_bindAll hw₁ _ hzip).of_ok hr₂
        exact (Stmt.evalAll_keeps ih f.body ho.2 none _ world₂ hw₂ (he₂.lt_size hi)
          hn).orNull.returned
      · exact .refl _
    | _ => exact .refl _

/-! ### Expressions -/

/-- The rule that spares no name holds everywhere. -/
theorem Rule.any_entails_spares : Rule.any.Entails (.spares fun _ => False) where
  expr _ := trivial
  stmt {s} _ := by cases s <;> simp [spares]

namespace Scopes

/-- The function stands in a binding of one of the scopes. -/
def Hold (f : Closure) (scopes : Scopes) : Prop :=
  ∃ (i : ScopeId) (scope : Scope) (x : String) (value : Value),
    scopes[i]? = some scope ∧ (x, value) ∈ scope.bindings ∧ value.Holds f

theorem Sound.spares {scopes : Scopes} (h : scopes.Sound .any)
    (hf : ∀ f, scopes.Hold f → Stmt.ObeyAll (.spares names) f.body) :
    scopes.Sound (.spares names) where
  parent_lt := h.parent_lt
  fits {i scope x value} hi hx f hv :=
    ⟨(h.fits hi hx f hv).1, trivial, hf f ⟨i, scope, x, value, hi, hx, hv⟩⟩

end Scopes

theorem Expr.eval_keeps_all {e : Expr} {scope : ScopeId} {world : World}
    (hw : world.scopes.Sound .any) (hs : scope < world.scopes.size)
    (ho : e.Obeys (.spares names))
    (hf : ∀ f, world.scopes.Hold f → Stmt.ObeyAll (.spares names) f.body) (limit depth : Nat) :
    Eval.Keeps names world.scopes.size (e.eval (callWithin limit depth) scope) world :=
  e.eval_keeps (callWithin_keeps names _ limit depth) ho scope world (hw.spares hf) hs
    (Nat.le_refl _)

/-- Whatever an expression ends in, each scope that was there before lies inside the same scope and
binds the same names, none more and none less. A name that is assigned neither in the expression nor
in a function that the scopes hold keeps its value: the one that each scope binds it to, and the one
that is seen from there. -/
theorem Expr.eval_frame (limit depth : Nat) (e : Expr) (scope : ScopeId) (world : World)
    (hw : world.scopes.Sound .any) (hs : scope < world.scopes.size) :
    let after := (final (e.eval (callWithin limit depth) scope world)).scopes
    (∀ (i : ScopeId) (old : Scope), world.scopes[i]? = some old → ∃ new : Scope,
      after[i]? = some new ∧ new.parent = old.parent ∧
        ∀ x, (new.get? x).isSome = (old.get? x).isSome) ∧
    ∀ x : String, e.Obeys (.spares (· = x)) →
      (∀ f, world.scopes.Hold f → Stmt.ObeyAll (.spares (· = x)) f.body) →
        ∀ i : ScopeId, i < world.scopes.size →
          after[i]?.bind (·.get? x) = world.scopes[i]?.bind (·.get? x) ∧
            after.get? i x = world.scopes.get? i x := by
  intro after
  constructor
  · intro i old hold
    have hk := Expr.eval_keeps_all hw hs (Expr.Obeys.imp Rule.any_entails_spares e e.obeys_any)
      (fun f _ => Stmt.ObeyAll.imp Rule.any_entails_spares f.body (Stmt.obeyAll_any f.body))
      limit depth
    obtain ⟨new, hnew, hkeeps⟩ := hk i (Array.getElem?_eq_some_iff.1 hold).1 old hold
    exact ⟨new, hnew, hkeeps.parent, hkeeps.bound⟩
  · intro x ho hf i hi
    have hk := Expr.eval_keeps_all hw hs ho hf limit depth
    obtain ⟨new, hnew, hkeeps⟩ := hk i hi _ (Array.getElem?_eq_getElem hi)
    refine ⟨?_, hk.get? (Nat.le_refl _) rfl hi⟩
    rw [hnew, Array.getElem?_eq_getElem hi]
    exact hkeeps.value rfl

/-- A global scope that binds two numbers and a function which assigns to one of them, and a scope
inside it. -/
def Scopes.nested : Scopes :=
  (((initial.set 0 "x" (.int 1)).set 0 "y" (.int 2)).set 0 "f"
    (.function ⟨0, [], [.assign "y" (.int 3)], 0⟩)).enclose 0

theorem Scopes.sound_nested {rule : Rule}
    (ho : (Expr.fn [] [.assign "y" (.int 3)]).Obeys rule) : nested.Sound rule := by
  refine (((sound_initial.set 0 "x" ?_).set 0 "y" ?_).set 0 "f" ?_).enclose (by decide)
  · exact Value.fits_of_not_holds (by simp)
  · exact Value.fits_of_not_holds (by simp)
  · exact Value.fits_function.2 ⟨by decide, ho⟩

/-- A block that declares `x`, defines `w` and calls the function. -/
def Expr.nested : Expr :=
  .cond (.bool true)
    [.declare "x" (.int 5), .assign "w" (.var "x"), .expr (.call (.var "f") [])] none

theorem Expr.nested_spares : nested.Obeys (.spares (· = "x")) := by
  simp [nested, Expr.Obeys, Stmt.ObeyAll, Stmt.Obeys, Stmt.ObeyElse, Expr.ObeyAll, Rule.spares]

/-- After the block `x` is what it was and `w` is not bound, while `y` has changed. -/
theorem Expr.eval_frame_nested :
    let after := (final (Expr.nested.eval (callWithin 1 1) 1 ⟨.nested, 1, .empty none⟩)).scopes
    Scopes.nested.Sound .any ∧ 1 < Scopes.nested.size ∧
      (∃ new : Scope, after[1]? = some new ∧ (new.get? "w").isSome = false) ∧
      after.get? 1 "x" = some (.int 1) ∧ after.get? 1 "y" = some (.int 3) := by
  have hw : Scopes.nested.Sound .any := Scopes.sound_nested (Expr.obeys_any _)
  have hs : 1 < Scopes.nested.size := by decide
  obtain ⟨hnames, hvalues⟩ := Expr.eval_frame 1 1 Expr.nested 1 ⟨.nested, 1, .empty none⟩ hw hs
  refine ⟨hw, hs, ?_, ?_, by decide +kernel⟩
  · obtain ⟨new, hnew, -, hbound⟩ := hnames 1 ⟨some 0, []⟩ rfl
    exact ⟨new, hnew, hbound "w"⟩
  · refine ((hvalues "x" Expr.nested_spares ?_ 1 hs).2).trans (by decide +kernel)
    rintro f ⟨i, scope, x, value, hi, hx, hf⟩
    have hsound : Scopes.nested.Sound (.spares (· = "x")) :=
      Scopes.sound_nested (by simp [Expr.Obeys, Stmt.ObeyAll, Stmt.Obeys, Rule.spares])
    exact (hsound.fits hi hx f hf).2.2

end Tang
