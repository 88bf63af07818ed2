import Tang.Proofs.Course
import Tang.Proofs.Heap.Values

/-! What a rule for the programs of a session admits in its course. If all programs obey the rule,
then at every moment each function there is was created in a scope that exists, from syntax that
obeys the rule, and each builtin function there is may be named under the rule. Only what may be
named is ever called, so nothing is written unless `print` or `panic` may be named, and nothing
exits unless `exit` or `panic` may be. One step keeps all this, so every sequence of steps does. -/

namespace Tang

open Eval

/-! ### Values and scopes -/

/-- The name of the builtin function may stand in a tree that obeys the rule. -/
def Rule.Permits (rule : Rule) (which : Builtin) : Prop :=
  rule.expr (.var which.name)

def Callable.Admitted (rule : Rule) (size : Nat) : Callable → Prop
  | .function f => f.Fits rule size
  | .builtin which => rule.Permits which

def Value.Admitted (rule : Rule) (size : Nat) (value : Value) : Prop :=
  ∀ c, value.Has c → c.Admitted rule size

/-- The value is bound to a name in one of the scopes. -/
def Scopes.Binds (scopes : Scopes) (value : Value) : Prop :=
  ∃ (i : ScopeId) (scope : Scope) (x : String),
    scopes[i]? = some scope ∧ (x, value) ∈ scope.bindings

structure Scopes.Admitted (rule : Rule) (scopes : Scopes) : Prop where
  sound : scopes.Sound rule
  bound {value : Value} : scopes.Binds value → value.Admitted rule scopes.size

variable {rule : Rule} {size : Nat}

namespace Value

theorem admitted_of_not_has {value : Value} (h : ∀ c, ¬ value.Has c) : value.Admitted rule size :=
  fun c hc => absurd hc (h c)

theorem Admitted.mono {m n : Nat} {value : Value} (h : value.Admitted rule m) (hmn : m ≤ n) :
    value.Admitted rule n := by
  intro c hc
  cases c with
  | function f => exact ⟨Nat.lt_of_lt_of_le (h _ hc).1 hmn, (h _ hc).2⟩
  | builtin which => exact h _ hc

theorem Admitted.fits {value : Value} (h : value.Admitted rule size) : value.Fits rule size :=
  fun f hf => h (.function f) (holds_iff_has.1 hf)

@[simp] theorem admitted_list {elements : List Value} :
    (Value.list elements).Admitted rule size ↔ ∀ value ∈ elements, value.Admitted rule size := by
  simp only [Admitted, has_list]
  constructor
  · exact fun h value hv c hc => h c ⟨value, hv, hc⟩
  · rintro h c ⟨value, hv, hc⟩
    exact h value hv c hc

@[simp] theorem admitted_tuple {elements : List Value} :
    (Value.tuple elements).Admitted rule size ↔ ∀ value ∈ elements, value.Admitted rule size := by
  simp only [Admitted, has_tuple]
  constructor
  · exact fun h value hv c hc => h c ⟨value, hv, hc⟩
  · rintro h c ⟨value, hv, hc⟩
    exact h value hv c hc

@[simp] theorem admitted_map {entries : Entries} :
    (Value.map entries).Admitted rule size ↔ ∀ entry ∈ entries, entry.2.Admitted rule size := by
  simp only [Admitted, has_map]
  constructor
  · exact fun h entry hv c hc => h c ⟨entry, hv, hc⟩
  · rintro h c ⟨entry, hv, hc⟩
    exact h entry hv c hc

@[simp] theorem admitted_function {f : Closure} :
    (Value.function f).Admitted rule size ↔ f.Fits rule size := by
  simp [Admitted, Callable.Admitted]

@[simp] theorem admitted_builtin {which : Builtin} :
    (Value.builtin which).Admitted rule size ↔ rule.Permits which := by
  simp [Admitted, Callable.Admitted]

end Value

namespace Scopes

variable {scopes : Scopes} {value : Value}

theorem not_binds_initial : ¬ initial.Binds value := by
  rintro ⟨i, scope, x, hi, hx⟩
  obtain ⟨_, rfl⟩ := Array.getElem?_eq_some_iff.1 hi
  simp [initial] at hx

theorem binds_of_get? {id : ScopeId} {x : String} (h : scopes.get? id x = some value) :
    scopes.Binds value := by
  simp only [get?, Option.bind_eq_bind, Option.bind_eq_some_iff] at h
  obtain ⟨owner, -, scope, hscope, hv⟩ := h
  obtain ⟨before, after, hb, -⟩ := List.lookup_eq_some_iff.1 hv
  exact ⟨owner, scope, x, hscope, by rw [hb]; simp⟩

theorem binds_of_set {id : ScopeId} {x : String} {v : Value}
    (h : (scopes.set id x v).Binds value) : value = v ∨ scopes.Binds value := by
  obtain ⟨i, scope, y, hi, hy⟩ := h
  rw [getElem?_set, Option.map_eq_some_iff] at hi
  obtain ⟨scope, hi, rfl⟩ := hi
  split at hy
  · exact (mem_put hy).imp_right fun hy => ⟨i, scope, y, hi, hy⟩
  · exact .inr ⟨i, scope, y, hi, hy⟩

theorem binds_of_enclose {id : ScopeId} (h : (scopes.enclose id).Binds value) :
    scopes.Binds value := by
  obtain ⟨i, scope, x, hi, hx⟩ := h
  rw [Scopes.enclose, Array.getElem?_push] at hi
  split at hi
  · cases hi
    simp at hx
  · exact ⟨i, scope, x, hi, hx⟩

theorem admitted_initial : initial.Admitted rule :=
  ⟨sound_initial, fun h => absurd h not_binds_initial⟩

theorem Admitted.set (h : scopes.Admitted rule) (id : ScopeId) (x : String)
    (hv : value.Admitted rule scopes.size) : (scopes.set id x value).Admitted rule where
  sound := h.sound.set id x hv.fits
  bound hb := by
    rw [size_set]
    rcases binds_of_set hb with rfl | hb
    · exact hv
    · exact h.bound hb

theorem Admitted.enclose (h : scopes.Admitted rule) {id : ScopeId} (hid : id < scopes.size) :
    (scopes.enclose id).Admitted rule where
  sound := h.sound.enclose hid
  bound hb := (h.bound (binds_of_enclose hb)).mono (by simp)

end Scopes

/-! ### Builtin functions -/

namespace Builtin

variable {α β : Type} {writes exits : Prop}

/-- The action leaves the output as it is unless `writes`, and it does not exit unless `exits`. -/
def Keeps (writes exits : Prop) (action : Action α) : Prop :=
  ∀ sink, match action sink with
    | .ok _ sink' => sink' = sink ∨ writes
    | .error signal sink' => (sink' = sink ∨ writes) ∧ ∀ code, signal = .exit code → exits

theorem keeps_pure (a : α) : Keeps writes exits (pure a) :=
  fun _ => .inl rfl

theorem keeps_fail (cause : RuntimeError) : Keeps writes exits (Signal.fail cause : Action α) :=
  fun _ => ⟨.inl rfl, nofun⟩

theorem keeps_lift (result : Except RuntimeError α) : Keeps writes exits (Signal.lift result) := by
  cases result with
  | ok a => exact keeps_pure a
  | error cause => exact keeps_fail cause

theorem keeps_exit (h : exits) (code : Int32) :
    Keeps writes exits (throw (.exit code) : Action α) :=
  fun _ => ⟨.inl rfl, fun _ _ => h⟩

theorem Keeps.bind {action : Action α} {next : α → Action β} (h : Keeps writes exits action)
    (hn : ∀ a, Keeps writes exits (next a)) : Keeps writes exits (action >>= next) := by
  intro sink
  have hs := h sink
  cases hr : action sink with
  | error signal sink' =>
    rw [hr] at hs
    rw [Action.bind_of_error hr]
    exact hs
  | ok a sink' =>
    rw [hr] at hs
    rw [Action.bind_of_ok hr]
    have hnext := hn a sink'
    rcases hs with rfl | hwrites
    · exact hnext
    · split at hnext
      · exact .inr hwrites
      · exact ⟨.inr hwrites, hnext.2⟩

theorem keeps_writeLine (h : writes) (text : String) : Keeps writes exits (writeLine text) := by
  intro sink
  unfold writeLine
  split
  · next heq =>
    split at heq <;> cases heq
    exact .inr h
  · next heq =>
    split at heq <;> cases heq
    exact ⟨.inr h, nofun⟩

theorem keeps_printAll (h : writes) (values : List Value) :
    Keeps writes exits (printAll values) := by
  induction values with
  | nil => exact keeps_pure ()
  | cons value values ih => exact (keeps_writeLine h _).bind fun _ => ih

/-- Only `print` and `panic` write, and only `exit` and `panic` exit. -/
theorem keeps_apply (which : Builtin) (args : List Value) :
    Keeps (which = .print ∨ which = .panic) (which = .exit ∨ which = .panic)
      (which.apply args) := by
  unfold apply
  split
  · exact (keeps_printAll (.inl rfl) _).bind fun _ => keeps_pure _
  · exact (keeps_lift _).bind fun _ => keeps_pure _
  · exact keeps_fail _
  · exact keeps_lift _
  · exact (keeps_lift _).bind fun _ => keeps_pure _
  · exact (keeps_lift _).bind fun _ => keeps_pure _
  · exact (keeps_lift _).bind fun _ => keeps_pure _
  · exact (keeps_lift _).bind fun _ => keeps_pure _
  · exact keeps_fail _
  · exact (keeps_lift _).bind fun code => keeps_exit (.inl rfl) code
  · exact (keeps_writeLine (.inr rfl) _).bind fun _ => keeps_exit (.inr rfl) 1
  · exact keeps_fail _

end Builtin

/-! ### Actions -/

/-- Only what the rule permits is written. -/
structure World.Follows (rule : Rule) (world world' : World) : Prop where
  admitted : world'.scopes.Admitted rule
  kept : world.scopes.Extends world'.scopes
  sink : world'.sink = world.sink ∨ rule.Permits .print ∨ rule.Permits .panic

def Signal.Admitted (rule : Rule) (size : Nat) : Signal → Prop
  | .ret value => value.Admitted rule size
  | .error _ => True
  | .exit _ => rule.Permits .exit ∨ rule.Permits .panic

theorem World.Follows.refl {world : World} (h : world.scopes.Admitted rule) :
    World.Follows rule world world :=
  ⟨h, .refl _, .inl rfl⟩

theorem World.Follows.trans {a b c : World} (hab : World.Follows rule a b)
    (hbc : World.Follows rule b c) : World.Follows rule a c where
  admitted := hbc.admitted
  kept := hab.kept.trans hbc.kept
  sink := by
    rcases hbc.sink with h | h
    · rw [h]
      exact hab.sink
    · exact .inr h

namespace Eval

variable {α β : Type} {fits : Nat → α → Prop} {fits' : Nat → β → Prop} {world : World}

/-- Run in the world, the action leads to one that follows, and what it ends in is admitted there.
-/
def Upholds (rule : Rule) (fits : Nat → α → Prop) (action : Eval α) (world : World) : Prop :=
  match action world with
  | .ok a world' => World.Follows rule world world' ∧ fits world'.scopes.size a
  | .error signal world' =>
    World.Follows rule world world' ∧ signal.Admitted rule world'.scopes.size

theorem upholds_pure {a : α} (hw : world.scopes.Admitted rule) (ha : fits world.scopes.size a) :
    Upholds rule fits (pure a) world :=
  ⟨.refl hw, ha⟩

theorem upholds_ret {value : Value} (hw : world.scopes.Admitted rule)
    (hv : value.Admitted rule world.scopes.size) :
    Upholds rule fits (throw (.ret value)) world :=
  ⟨.refl hw, hv⟩

theorem upholds_fail (hw : world.scopes.Admitted rule) (cause : RuntimeError) :
    Upholds rule fits (Signal.fail cause) world :=
  ⟨.refl hw, trivial⟩

theorem upholds_lift {result : Except RuntimeError α} (hw : world.scopes.Admitted rule)
    (h : ∀ a, result = .ok a → fits world.scopes.size a) :
    Upholds rule fits (Signal.lift result) world := by
  cases result with
  | ok a => exact upholds_pure hw (h a rfl)
  | error cause => exact upholds_fail hw cause

theorem Upholds.bind {action : Eval α} {next : α → Eval β} (h : Upholds rule fits action world)
    (hn : ∀ a world', World.Follows rule world world' → fits world'.scopes.size a →
      Upholds rule fits' (next a) world') : Upholds rule fits' (action >>= next) world := by
  cases hr : action world with
  | error signal world' =>
    simp only [Upholds, hr] at h
    simpa only [Upholds, Action.bind_of_error hr] using h
  | ok a world' =>
    simp only [Upholds, hr] at h
    have hnext := hn a world' h.1 h.2
    simp only [Upholds, Action.bind_of_ok hr] at hnext ⊢
    split at hnext <;> exact ⟨h.1.trans hnext.1, hnext.2⟩

theorem upholds_lookup (hw : world.scopes.Admitted rule) (scope : ScopeId) {name : String}
    (hname : rule.expr (.var name)) :
    Upholds rule (Value.Admitted rule) (lookup scope name) world := by
  have hget : Upholds rule (fun _ w => w = world) get world := ⟨.refl hw, rfl⟩
  apply hget.bind
  rintro _ world' hfollows rfl
  split
  · next value hv =>
    exact upholds_pure hfollows.admitted
      ((hw.bound (Scopes.binds_of_get? hv)).mono hfollows.kept.size_le)
  · split
    · next which hwhich =>
      have hfound : which.name = name := by simpa using List.find?_some hwhich
      have hpermits : rule.Permits which := by rwa [Rule.Permits, hfound]
      exact upholds_pure hfollows.admitted (Value.admitted_builtin.2 hpermits)
    · exact upholds_fail hfollows.admitted _

theorem upholds_declare (hw : world.scopes.Admitted rule) (scope : ScopeId) (name : String)
    {value : Value} (hv : value.Admitted rule world.scopes.size) :
    Upholds rule (fun _ _ => True) (declare scope name value) world :=
  ⟨⟨hw.set scope name hv, Scopes.extends_set _ _ _ _, .inl rfl⟩, trivial⟩

theorem upholds_assign (hw : world.scopes.Admitted rule) (scope : ScopeId) (name : String)
    {value : Value} (hv : value.Admitted rule world.scopes.size) :
    Upholds rule (fun _ _ => True) (assign scope name value) world :=
  ⟨⟨hw.set _ name hv, Scopes.extends_set _ _ _ _, .inl rfl⟩, trivial⟩

theorem upholds_enclose (hw : world.scopes.Admitted rule) {scope : ScopeId}
    (hs : scope < world.scopes.size) :
    Upholds rule (fun size id => id < size) (enclose scope) world :=
  ⟨⟨hw.enclose hs, Scopes.extends_enclose _ _, .inl rfl⟩, by simp⟩

theorem upholds_bindAll (hw : world.scopes.Admitted rule) (scope : ScopeId)
    {bindings : List (String × Value)}
    (hb : ∀ binding ∈ bindings, binding.2.Admitted rule world.scopes.size) :
    Upholds rule (fun _ _ => True) (bindAll scope bindings) world := by
  induction bindings generalizing world with
  | nil => exact upholds_pure hw trivial
  | cons binding bindings ih =>
    apply (upholds_declare hw scope binding.1 (hb _ List.mem_cons_self)).bind
    intro _ world' hfollows _
    exact ih hfollows.admitted fun b hmem =>
      (hb b (List.mem_cons_of_mem _ hmem)).mono hfollows.kept.size_le

theorem upholds_create (hw : world.scopes.Admitted rule) {params : List String}
    {body : List Stmt} {scope : ScopeId} (hs : scope < world.scopes.size)
    (ho : (Expr.fn params body).Obeys rule) :
    Upholds rule (Value.Admitted rule) (create params body scope) world :=
  ⟨⟨hw, .refl _, .inl rfl⟩, Value.admitted_function.2 ⟨hs, ho⟩⟩

theorem upholds_enter (hw : world.scopes.Admitted rule) {f : Closure} {args : List Value}
    (hf : f.Fits rule world.scopes.size)
    (hargs : ∀ value ∈ args, value.Admitted rule world.scopes.size) :
    Upholds rule (fun size id => id < size) (f.enter args) world := by
  apply (upholds_enclose hw hf.1).bind
  intro inner world₁ hfollows hinner
  have hzip : ∀ binding ∈ f.params.zip args, binding.2.Admitted rule world₁.scopes.size :=
    fun binding hb => (hargs _ (List.of_mem_zip hb).2).mono hfollows.kept.size_le
  apply (upholds_bindAll hfollows.admitted inner hzip).bind
  intro _ world₂ hfollows _
  exact upholds_pure hfollows.admitted (hfollows.kept.lt_size hinner)

theorem upholds_builtin (hw : world.scopes.Admitted rule) {which : Builtin} {args : List Value}
    (hwhich : rule.Permits which)
    (hargs : ∀ value ∈ args, value.Admitted rule world.scopes.size) :
    Upholds rule (Value.Admitted rule) (World.onSink (which.apply args)) world := by
  have hwrites : which = .print ∨ which = .panic → rule.Permits .print ∨ rule.Permits .panic :=
    Or.imp (· ▸ hwhich) (· ▸ hwhich)
  have hexits : which = .exit ∨ which = .panic → rule.Permits .exit ∨ rule.Permits .panic :=
    Or.imp (· ▸ hwhich) (· ▸ hwhich)
  have hkeeps := which.keeps_apply args world.sink
  have hyields := which.yields_apply args world.sink
  unfold Upholds
  cases hr : which.apply args world.sink with
  | ok value sink =>
    rw [hr] at hkeeps hyields
    rw [Action.onSink_of_ok hr]
    -- what the result has, an argument had
    refine ⟨⟨hw, .refl _, hkeeps.imp_right hwrites⟩, fun c hc => ?_⟩
    obtain ⟨arg, harg, hc⟩ := hyields c hc
    exact hargs arg harg c hc
  | error signal sink =>
    rw [hr] at hkeeps hyields
    rw [Action.onSink_of_error hr]
    refine ⟨⟨hw, .refl _, hkeeps.1.imp_right hwrites⟩, ?_⟩
    cases signal with
    | ret value => exact absurd rfl (hyields value)
    | error cause => trivial
    | exit code => exact hexits (hkeeps.2 code rfl)

end Eval

end Tang
