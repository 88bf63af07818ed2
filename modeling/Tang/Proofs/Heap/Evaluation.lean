import Tang.Outcome
import Tang.Proofs.Heap.Values

/-! Evaluation keeps the heap sound. The evaluation of syntax that obeys a rule, in sound scopes and
with values that fit them, leaves sound scopes whatever it ends in, and what it ends in fits
them. -/

namespace Tang

/-! ### Sound actions -/

def Signal.Fits (rule : Rule) (size : Nat) : Signal → Prop
  | .ret value => value.Fits rule size
  | _ => True

namespace Eval

variable {α β : Type} {rule : Rule}

/-- Run in the world, the action keeps the scopes sound, and what it ends in fits them. -/
def Sound (rule : Rule) (fits : Nat → α → Prop) (action : Eval α) (world : World) : Prop :=
  match action world with
  | .ok a world' =>
    world'.scopes.Sound rule ∧ world.scopes.Extends world'.scopes ∧ fits world'.scopes.size a
  | .error signal world' =>
    world'.scopes.Sound rule ∧ world.scopes.Extends world'.scopes ∧
      signal.Fits rule world'.scopes.size

variable {fits : Nat → α → Prop} {fits' : Nat → β → Prop} {world : World}

theorem Sound.of_ok {action : Eval α} {world' : World} {a : α} (h : Sound rule fits action world)
    (hr : action world = .ok a world') :
    world'.scopes.Sound rule ∧ world.scopes.Extends world'.scopes ∧ fits world'.scopes.size a := by
  simpa only [Sound, hr] using h

theorem sound_pure {a : α} (hw : world.scopes.Sound rule) (ha : fits world.scopes.size a) :
    Sound rule fits (pure a) world :=
  ⟨hw, .refl _, ha⟩

theorem sound_throw {signal : Signal} (hw : world.scopes.Sound rule)
    (hs : signal.Fits rule world.scopes.size) : Sound rule fits (throw signal) world :=
  ⟨hw, .refl _, hs⟩

theorem sound_fail {cause : RuntimeError} (hw : world.scopes.Sound rule) :
    Sound rule fits (Signal.fail cause) world :=
  ⟨hw, .refl _, trivial⟩

theorem sound_lift {result : Except RuntimeError α} (hw : world.scopes.Sound rule)
    (h : ∀ a, result = .ok a → fits world.scopes.size a) :
    Sound rule fits (Signal.lift result) world := by
  cases result with
  | ok a => exact sound_pure hw (h a rfl)
  | error cause => exact sound_fail hw

theorem Sound.bind {action : Eval α} {next : α → Eval β} (h : Sound rule fits action world)
    (hn : ∀ a world', world'.scopes.Sound rule → world.scopes.Extends world'.scopes →
      fits world'.scopes.size a → Sound rule fits' (next a) world') :
    Sound rule fits' (action >>= next) world := by
  cases hr : action world with
  | error signal world' =>
    simp only [Sound, hr] at h
    simpa only [Sound, Action.bind_of_error hr] using h
  | ok a world' =>
    simp only [Sound, hr] at h
    have hnext := hn a world' h.1 h.2.1 h.2.2
    simp only [Sound, Action.bind_of_ok hr] at hnext ⊢
    split at hnext <;> exact ⟨hnext.1, h.2.1.trans hnext.2.1, hnext.2.2⟩

theorem sound_lookup (hw : world.scopes.Sound rule) (scope : ScopeId) (name : String) :
    Sound rule (Value.Fits rule) (lookup scope name) world := by
  have hget : Sound rule (fun _ w => w = world) get world := ⟨hw, .refl _, rfl⟩
  apply hget.bind
  rintro _ world' hw' he rfl
  split
  · next value hv => exact sound_pure hw' ((hw.fits_of_get? hv).mono he.size_le)
  · split
    · exact sound_pure hw' (Value.fits_of_not_holds fun f => by simp)
    · exact sound_fail hw'

theorem sound_declare (hw : world.scopes.Sound rule) (scope : ScopeId) (name : String)
    {value : Value} (hv : value.Fits rule world.scopes.size) :
    Sound rule (fun _ _ => True) (declare scope name value) world :=
  ⟨hw.set scope name hv, Scopes.extends_set _ _ _ _, trivial⟩

theorem sound_assign (hw : world.scopes.Sound rule) (scope : ScopeId) (name : String)
    {value : Value} (hv : value.Fits rule world.scopes.size) :
    Sound rule (fun _ _ => True) (assign scope name value) world :=
  ⟨hw.set _ name hv, Scopes.extends_set _ _ _ _, trivial⟩

theorem sound_enclose (hw : world.scopes.Sound rule) {scope : ScopeId}
    (hs : scope < world.scopes.size) :
    Sound rule (fun size id => id < size) (enclose scope) world :=
  ⟨hw.enclose hs, Scopes.extends_enclose _ _, by simp⟩

theorem sound_bindAll (hw : world.scopes.Sound rule) (scope : ScopeId)
    {bindings : List (String × Value)}
    (hb : ∀ binding ∈ bindings, binding.2.Fits rule world.scopes.size) :
    Sound rule (fun _ _ => True) (bindAll scope bindings) world := by
  induction bindings generalizing world with
  | nil => exact sound_pure hw trivial
  | cons binding bindings ih =>
    apply (sound_declare hw scope binding.1 (hb _ List.mem_cons_self)).bind
    intro _ world' hw' he _
    exact ih hw' fun b hmem => (hb b (List.mem_cons_of_mem _ hmem)).mono he.size_le

theorem sound_create (hw : world.scopes.Sound rule) {params : List String} {body : List Stmt}
    {scope : ScopeId} (hs : scope < world.scopes.size) (ho : (Expr.fn params body).Obeys rule) :
    Sound rule (Value.Fits rule) (create params body scope) world :=
  ⟨hw, .refl _, Value.fits_function.2 ⟨hs, ho⟩⟩

/-- What a block hands on fits if the value of its last statement does. -/
theorem Sound.orNull {body : Eval (Option Value)}
    (h : Sound rule (fun size last => ∀ value ∈ last, value.Fits rule size) body world) :
    Sound rule (Value.Fits rule) (orNull body) world := by
  apply h.bind
  intro last world' hw' _ hlast
  apply sound_pure hw'
  cases last with
  | none => exact Value.fits_of_not_holds fun f => by simp
  | some value => exact hlast value rfl

theorem Sound.returned {body : Eval Value} (h : Sound rule (Value.Fits rule) body world) :
    Sound rule (Value.Fits rule) (returned body) world := by
  simp only [Sound, Eval.returned] at h ⊢
  cases hr : body world with
  | ok value world' => simpa [hr] using h
  | error signal world' =>
    rw [hr] at h
    cases signal <;> exact h

theorem sound_builtin (builtin : Builtin) {args : List Value} {world : World}
    (hw : world.scopes.Sound rule)
    (hargs : ∀ value ∈ args, value.Fits rule world.scopes.size) :
    Sound rule (Value.Fits rule) (World.onSink (builtin.apply args)) world := by
  have h := builtin.yields_fits_apply hargs world.sink
  unfold Sound
  cases hr : builtin.apply args world.sink with
  | ok value sink =>
    rw [hr] at h
    rw [Action.onSink_of_ok hr]
    exact ⟨hw, .refl _, h⟩
  | error signal sink =>
    rw [hr] at h
    rw [Action.onSink_of_error hr]
    refine ⟨hw, .refl _, ?_⟩
    cases signal with
    | ret value => exact absurd rfl (h value)
    | _ => trivial

end Eval

/-! ### Evaluation -/

open Eval

/-- Called with values that fit, the caller keeps the scopes sound. -/
def Caller.Sound (rule : Rule) (call : Caller) : Prop :=
  ∀ f args world, world.scopes.Sound rule → f.Fits rule world.scopes.size →
    (∀ arg ∈ args, arg.Fits rule world.scopes.size) →
      Eval.Sound rule (Value.Fits rule) (call f args) world

section Evaluation

variable {rule : Rule} {call : Caller}

mutual

theorem Expr.eval_sound (hcall : call.Sound rule) :
    (e : Expr) → e.Obeys rule → ∀ (scope : ScopeId) (world : World), world.scopes.Sound rule →
      scope < world.scopes.size → Eval.Sound rule (Value.Fits rule) (e.eval call scope) world
  | .int _, _, _, _, hw, _ | .str _, _, _, _, hw, _ | .bool _, _, _, _, hw, _
  | .null, _, _, _, hw, _ => sound_pure hw (Value.fits_of_not_holds fun f => by simp)
  | .var name, _, scope, _, hw, _ => sound_lookup hw scope name
  | .unary op a, ho, scope, world, hw, hs => by
    apply (a.eval_sound hcall ho.2 scope world hw hs).bind
    intro value world' hw' _ _
    exact sound_lift hw' fun _ => Value.fits_of_unary
  | .binary op a b, ho, scope, world, hw, hs => by
    apply (a.eval_sound hcall ho.2.1 scope world hw hs).bind
    intro l world₁ hw₁ he₁ _
    apply (b.eval_sound hcall ho.2.2 scope world₁ hw₁ (he₁.lt_size hs)).bind
    intro r world₂ hw₂ _ _
    exact sound_lift hw₂ fun _ => Value.fits_of_binary
  | .cond test body otherwise, ho, scope, world, hw, hs => by
    apply (test.eval_sound hcall ho.2.1 scope world hw hs).bind
    intro value world₁ hw₁ he₁ _
    have hs₁ := he₁.lt_size hs
    split
    · apply (sound_enclose hw₁ hs₁).bind
      intro inner world₂ hw₂ _ hi
      exact (Stmt.evalAll_sound hcall body ho.2.2.1 none inner world₂ hw₂ hi nofun).orNull
    · exact Stmt.evalElse_sound hcall otherwise ho.2.2.2 scope world₁ hw₁ hs₁
  | .fn params body, ho, scope, world, hw, hs => sound_create hw hs ho
  | .call callee args, ho, scope, world, hw, hs => by
    apply (callee.eval_sound hcall ho.2.1 scope world hw hs).bind
    intro f world₁ hw₁ he₁ hf
    apply (Expr.evalAll_sound hcall args ho.2.2 scope world₁ hw₁ (he₁.lt_size hs)).bind
    intro values world₂ hw₂ he₂ hvalues
    exact hcall f values world₂ hw₂ (hf.mono he₂.size_le) hvalues
  | .index target position, ho, scope, world, hw, hs => by
    apply (target.eval_sound hcall ho.2.1 scope world hw hs).bind
    intro t world₁ hw₁ he₁ ht
    apply (position.eval_sound hcall ho.2.2 scope world₁ hw₁ (he₁.lt_size hs)).bind
    intro p world₂ hw₂ he₂ _
    exact sound_lift hw₂ fun _ => Value.fits_of_index (ht.mono he₂.size_le)
  | .list elements, ho, scope, world, hw, hs => by
    apply (Expr.evalAll_sound hcall elements ho.2 scope world hw hs).bind
    intro values world' hw' _ hvalues
    exact sound_pure hw' (Value.fits_list.2 hvalues)
  | .tuple elements, ho, scope, world, hw, hs => by
    apply (Expr.evalAll_sound hcall elements ho.2 scope world hw hs).bind
    intro values world' hw' _ hvalues
    exact sound_pure hw' (Value.fits_tuple.2 hvalues)
  | .map pairs, ho, scope, world, hw, hs => by
    apply (Expr.evalPairs_sound hcall pairs ho.2 [] scope world hw hs nofun).bind
    intro entries world' hw' _ hentries
    exact sound_pure hw' (Value.fits_map.2 hentries)

theorem Expr.evalAll_sound (hcall : call.Sound rule) :
    (es : List Expr) → Expr.ObeyAll rule es → ∀ (scope : ScopeId) (world : World),
      world.scopes.Sound rule → scope < world.scopes.size →
        Eval.Sound rule (fun size values => ∀ value ∈ values, value.Fits rule size)
          (Expr.evalAll call scope es) world
  | [], _, _, _, hw, _ => sound_pure hw nofun
  | e :: es, ho, scope, world, hw, hs => by
    apply (e.eval_sound hcall ho.1 scope world hw hs).bind
    intro value world₁ hw₁ he₁ hvalue
    apply (Expr.evalAll_sound hcall es ho.2 scope world₁ hw₁ (he₁.lt_size hs)).bind
    intro values world₂ hw₂ he₂ hvalues
    exact sound_pure hw₂ (List.forall_mem_cons.2 ⟨hvalue.mono he₂.size_le, hvalues⟩)

theorem Expr.evalPairs_sound (hcall : call.Sound rule) :
    (pairs : List (Expr × Expr)) → Expr.ObeyPairs rule pairs → ∀ (entries : Entries)
      (scope : ScopeId) (world : World), world.scopes.Sound rule → scope < world.scopes.size →
        (∀ entry ∈ entries, entry.2.Fits rule world.scopes.size) →
          Eval.Sound rule (fun size entries => ∀ entry ∈ entries, entry.2.Fits rule size)
            (Expr.evalPairs call scope entries pairs) world
  | [], _, _, _, _, hw, _, hentries => sound_pure hw hentries
  | (a, b) :: pairs, ho, entries, scope, world, hw, hs, hentries => by
    apply (a.eval_sound hcall ho.1 scope world hw hs).bind
    intro keyValue world₁ hw₁ he₁ _
    have hs₁ := he₁.lt_size hs
    split
    · exact sound_fail hw₁
    · apply (b.eval_sound hcall ho.2.1 scope world₁ hw₁ hs₁).bind
      intro value world₂ hw₂ he₂ hvalue
      apply Expr.evalPairs_sound hcall pairs ho.2.2 _ scope world₂ hw₂ (he₂.lt_size hs₁)
      intro entry hentry
      rcases Value.mem_insert hentry with rfl | hentry
      · exact hvalue
      · exact (hentries entry hentry).mono (he₁.trans he₂).size_le

theorem Stmt.eval_sound (hcall : call.Sound rule) :
    (s : Stmt) → s.Obeys rule → ∀ (scope : ScopeId) (world : World), world.scopes.Sound rule →
      scope < world.scopes.size →
        Eval.Sound rule (fun size last => ∀ value ∈ last, value.Fits rule size)
          (s.eval call scope) world
  | .declare name a, ho, scope, world, hw, hs => by
    apply (a.eval_sound hcall ho.2 scope world hw hs).bind
    intro value world₁ hw₁ _ hvalue
    apply (sound_declare hw₁ scope name hvalue).bind
    intro _ world₂ hw₂ _ _
    exact sound_pure hw₂ nofun
  | .assign name a, ho, scope, world, hw, hs => by
    apply (a.eval_sound hcall ho.2 scope world hw hs).bind
    intro value world₁ hw₁ _ hvalue
    apply (sound_assign hw₁ scope name hvalue).bind
    intro _ world₂ hw₂ _ _
    exact sound_pure hw₂ nofun
  | .ret none, _, _, _, hw, _ => sound_throw hw (Value.fits_of_not_holds fun f => by simp)
  | .ret (some a), ho, scope, world, hw, hs => by
    apply (a.eval_sound hcall ho.2 scope world hw hs).bind
    intro value world' hw' _ hvalue
    exact sound_throw hw' hvalue
  | .expr a, ho, scope, world, hw, hs => by
    apply (a.eval_sound hcall ho.2 scope world hw hs).bind
    intro value world' hw' _ hvalue
    exact sound_pure hw' fun v hv => by cases hv; exact hvalue

theorem Stmt.evalAll_sound (hcall : call.Sound rule) :
    (ss : List Stmt) → Stmt.ObeyAll rule ss → ∀ (last : Option Value) (scope : ScopeId)
      (world : World), world.scopes.Sound rule → scope < world.scopes.size →
        (∀ value ∈ last, value.Fits rule world.scopes.size) →
          Eval.Sound rule (fun size last => ∀ value ∈ last, value.Fits rule size)
            (Stmt.evalAll call scope last ss) world
  | [], _, _, _, _, hw, _, hlast => sound_pure hw hlast
  | s :: ss, ho, _, scope, world, hw, hs, _ => by
    apply (s.eval_sound hcall ho.1 scope world hw hs).bind
    intro last world' hw' he hlast
    exact Stmt.evalAll_sound hcall ss ho.2 last scope world' hw' (he.lt_size hs) hlast

theorem Stmt.evalElse_sound (hcall : call.Sound rule) :
    (body : Option (List Stmt)) → Stmt.ObeyElse rule body → ∀ (scope : ScopeId) (world : World),
      world.scopes.Sound rule → scope < world.scopes.size →
        Eval.Sound rule (Value.Fits rule) (Stmt.evalElse call scope body) world
  | none, _, _, _, hw, _ => sound_pure hw (Value.fits_of_not_holds fun f => by simp)
  | some body, ho, scope, world, hw, hs => by
    apply (sound_enclose hw hs).bind
    intro inner world₁ hw₁ _ hi
    exact (Stmt.evalAll_sound hcall body ho none inner world₁ hw₁ hi nofun).orNull

end

end Evaluation

theorem callWithin_sound (rule : Rule) (limit depth : Nat) :
    (callWithin limit depth).Sound rule := by
  induction depth with
  | zero =>
    intro f args world hw hf hargs
    cases f with
    | builtin which => exact sound_builtin which hw hargs
    | function f =>
      unfold callWithin
      split <;> exact sound_fail hw
    | _ => exact sound_fail hw
  | succ depth ih =>
    intro f args world hw hf hargs
    cases f with
    | builtin which => exact sound_builtin which hw hargs
    | function f =>
      unfold callWithin
      split
      · obtain ⟨hscope, ho⟩ := Value.fits_function.1 hf
        apply (sound_enclose hw hscope).bind
        intro inner world₁ hw₁ he₁ hi
        refine (sound_bindAll hw₁ inner ?_).bind ?_
        · intro binding hb
          exact (hargs _ (List.of_mem_zip hb).2).mono he₁.size_le
        · intro _ world₂ hw₂ he₂ _
          exact (Stmt.evalAll_sound ih f.body ho.2 none inner world₂ hw₂ (he₂.lt_size hi)
            nofun).orNull.returned
      · exact sound_fail hw
    | _ => exact sound_fail hw

end Tang
