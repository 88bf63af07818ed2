import Mathlib.Data.Set.Function
import Mathlib.Data.Set.Insert
import Tang.Proofs.Course.Invariant
import Tang.Proofs.Equality

/-! Serials. Each function that a session creates gets the next number, and no other step makes a
function. So of the functions that are there at a moment of a session, no two have the same
serial. -/

namespace Tang

/-! ### Known functions -/

namespace Value

/-- All functions in the value are known. -/
def Within (known : Set Closure) (value : Value) : Prop :=
  ∀ f, value.Holds f → f ∈ known

variable {known known' : Set Closure}

theorem within_of_not_has {value : Value} (h : ∀ c, ¬ value.Has c) : value.Within known :=
  fun _ hf => absurd (holds_iff_has.1 hf) (h _)

theorem Within.mono {value : Value} (h : value.Within known) (hk : known ⊆ known') :
    value.Within known' :=
  fun f hf => hk (h f hf)

theorem within_list {elements : List Value} :
    (Value.list elements).Within known ↔ ∀ value ∈ elements, value.Within known := by
  constructor
  · exact fun h value hv f hf => h f (.list hv hf)
  · intro h f hf
    obtain ⟨value, hv, hf⟩ := holds_list.1 hf
    exact h value hv f hf

theorem within_tuple {elements : List Value} :
    (Value.tuple elements).Within known ↔ ∀ value ∈ elements, value.Within known := by
  constructor
  · exact fun h value hv f hf => h f (.tuple hv hf)
  · intro h f hf
    obtain ⟨value, hv, hf⟩ := holds_tuple.1 hf
    exact h value hv f hf

theorem within_map {entries : Entries} :
    (Value.map entries).Within known ↔ ∀ value ∈ entries.map Prod.snd, value.Within known := by
  rw [List.forall_mem_map]
  constructor
  · exact fun h entry hv f hf => h f (.map hv hf)
  · intro h f hf
    obtain ⟨key, value, hv, hf⟩ := holds_map.1 hf
    exact h (key, value) hv f hf

theorem within_function {f : Closure} : (Value.function f).Within known ↔ f ∈ known := by
  constructor
  · exact fun h => h f .function
  · intro h g hg
    obtain rfl := holds_function.1 hg
    exact h

end Value

/-- The functions bound in the scopes are known, and the known ones have serials of their own that
have been given out. -/
structure World.Registers (known : Set Closure) (world : World) : Prop where
  bound {value : Value} : world.scopes.Binds value → value.Within known
  given {f : Closure} : f ∈ known → f.serial < world.created
  injective : Set.InjOn Closure.serial known

def Signal.Within (known : Set Closure) : Signal → Prop
  | .ret value => value.Within known
  | _ => True

/-! ### Actions -/

namespace Eval

variable {α β : Type} {fits : Set Closure → α → Prop} {fits' : Set Closure → β → Prop}
  {known : Set Closure} {world : World} {value : Value}

/-- Run in a world whose functions are known, the action leads to one whose functions are known, and
so are those in what it ends in. It may make new functions known. -/
def Registers (fits : Set Closure → α → Prop) (known : Set Closure) (action : Eval α)
    (world : World) : Prop :=
  match action world with
  | .ok a world' => ∃ known', known ⊆ known' ∧ world'.Registers known' ∧ fits known' a
  | .error signal world' =>
    ∃ known', known ⊆ known' ∧ world'.Registers known' ∧ signal.Within known'

theorem registers_pure {a : α} (hw : world.Registers known) (ha : fits known a) :
    Registers fits known (pure a) world :=
  ⟨known, Set.Subset.rfl, hw, ha⟩

theorem registers_throw {signal : Signal} (hw : world.Registers known)
    (hs : signal.Within known) : Registers fits known (throw signal) world :=
  ⟨known, Set.Subset.rfl, hw, hs⟩

theorem registers_lift {result : Except RuntimeError α} (hw : world.Registers known)
    (h : ∀ a, result = .ok a → fits known a) :
    Registers fits known (Signal.lift result) world := by
  cases result with
  | ok a => exact registers_pure hw (h a rfl)
  | error cause => exact registers_throw hw trivial

theorem Registers.bind {action : Eval α} {next : α → Eval β}
    (h : Registers fits known action world)
    (hn : ∀ a known' world', known ⊆ known' → world'.Registers known' → fits known' a →
      Registers fits' known' (next a) world') : Registers fits' known (action >>= next) world := by
  unfold Registers at h
  cases hr : action world with
  | error signal world' =>
    rw [hr] at h
    simpa only [Registers, Action.bind_of_error hr] using h
  | ok a world' =>
    rw [hr] at h
    obtain ⟨known', hk, hw, ha⟩ := h
    have hnext := hn a known' world' hk hw ha
    simp only [Registers, Action.bind_of_ok hr] at hnext ⊢
    split at hnext <;> obtain ⟨known'', hk', hrest⟩ := hnext <;>
      exact ⟨known'', hk.trans hk', hrest⟩

theorem registers_lookup (hw : world.Registers known) (scope : ScopeId) (name : String) :
    Registers Value.Within known (lookup scope name) world := by
  have hget : Registers (fun _ w => w = world) known get world := registers_pure hw rfl
  apply hget.bind
  rintro _ known' world' hk hw' rfl
  split
  · next value hv => exact registers_pure hw' ((hw.bound (Scopes.binds_of_get? hv)).mono hk)
  · split
    · exact registers_pure hw' fun f hf => absurd hf (by simp)
    · exact registers_throw hw' trivial

theorem registers_declare (hw : world.Registers known) (scope : ScopeId) (name : String)
    (hv : value.Within known) :
    Registers (fun _ _ => True) known (declare scope name value) world := by
  refine ⟨known, Set.Subset.rfl, ⟨fun hb => ?_, hw.given, hw.injective⟩, trivial⟩
  rcases Scopes.binds_of_set hb with rfl | hb
  · exact hv
  · exact hw.bound hb

theorem registers_assign (hw : world.Registers known) (scope : ScopeId) (name : String)
    (hv : value.Within known) :
    Registers (fun _ _ => True) known (assign scope name value) world :=
  registers_declare hw _ name hv

theorem registers_enclose (hw : world.Registers known) (scope : ScopeId) :
    Registers (fun _ _ => True) known (enclose scope) world :=
  ⟨known, Set.Subset.rfl,
    ⟨fun hb => hw.bound (Scopes.binds_of_enclose hb), hw.given, hw.injective⟩, trivial⟩

theorem registers_bindAll (hw : world.Registers known) (scope : ScopeId)
    {bindings : List (String × Value)} (hb : ∀ binding ∈ bindings, binding.2.Within known) :
    Registers (fun _ _ => True) known (bindAll scope bindings) world := by
  induction bindings generalizing known world with
  | nil => exact registers_pure hw trivial
  | cons binding bindings ih =>
    obtain ⟨hfirst, hrest⟩ := List.forall_mem_cons.1 hb
    apply (registers_declare hw scope binding.1 hfirst).bind
    intro _ known' world' hk hw' _
    exact ih hw' fun b hmem => (hrest b hmem).mono hk

/-- The new function has a serial that no other one has. -/
theorem registers_create (hw : world.Registers known) (params : List String) (body : List Stmt)
    (scope : ScopeId) : Registers Value.Within known (create params body scope) world := by
  let new : Closure := ⟨world.created, params, body, scope⟩
  refine ⟨insert new known, Set.subset_insert _ _, ⟨fun hb => ?_, fun hf => ?_, ?_⟩, ?_⟩
  · exact (hw.bound hb).mono (Set.subset_insert _ _)
  · rcases hf with rfl | hf
    · exact Nat.lt_succ_self _
    · exact Nat.lt_succ_of_lt (hw.given hf)
  · rintro f (rfl | hf) g (rfl | hg) heq
    · rfl
    · exact absurd heq (Nat.ne_of_gt (hw.given hg))
    · exact absurd heq (Nat.ne_of_lt (hw.given hf))
    · exact hw.injective hf hg heq
  · exact Value.within_function.2 (Set.mem_insert new known)

theorem registers_builtin (hw : world.Registers known) (which : Builtin) {args : List Value}
    (hargs : ∀ arg ∈ args, arg.Within known) :
    Registers Value.Within known (World.onSink (which.apply args)) world := by
  have hyields := which.yields_apply args world.sink
  unfold Registers
  cases hr : which.apply args world.sink with
  | ok value sink =>
    rw [hr] at hyields
    rw [Action.onSink_of_ok hr]
    refine ⟨known, Set.Subset.rfl, ⟨hw.bound, hw.given, hw.injective⟩, fun f hf => ?_⟩
    obtain ⟨arg, harg, hf⟩ := hyields _ (Value.holds_iff_has.1 hf)
    exact hargs arg harg f (Value.holds_iff_has.2 hf)
  | error signal sink =>
    rw [hr] at hyields
    rw [Action.onSink_of_error hr]
    refine ⟨known, Set.Subset.rfl, ⟨hw.bound, hw.given, hw.injective⟩, ?_⟩
    cases signal with
    | ret value => exact absurd rfl (hyields value)
    | error | exit => trivial

theorem registers_enter (hw : world.Registers known) (f : Closure) {args : List Value}
    (hargs : ∀ arg ∈ args, arg.Within known) :
    Registers (fun _ _ => True) known (f.enter args) world := by
  apply (registers_enclose hw f.scope).bind
  intro inner known₁ world₁ hk₁ hw₁ _
  have hzip : ∀ binding ∈ f.params.zip args, binding.2.Within known₁ :=
    fun binding hb => (hargs _ (List.of_mem_zip hb).2).mono hk₁
  apply (registers_bindAll hw₁ inner hzip).bind
  intro _ known₂ world₂ _ hw₂ _
  exact registers_pure hw₂ trivial

end Eval

namespace Course

open Eval

/-! ### Steps -/

def Move.Within (known : Set Closure) (move : Move) : Prop :=
  (∀ v ∈ move.1.values, v.Within known) ∧ ∀ frame ∈ move.2, ∀ v ∈ frame.values, v.Within known

section Moves

variable {known : Set Closure} {world : World} {value : Value} {task : Task} {frame : Frame}

theorem registers_task (hw : world.Registers known) (ht : ∀ v ∈ task.values, v.Within known) :
    Registers Move.Within known (pure (task, [])) world :=
  registers_pure hw ⟨ht, List.forall_mem_nil _⟩

theorem registers_wait (hw : world.Registers known) (ht : ∀ v ∈ task.values, v.Within known)
    (hf : ∀ v ∈ frame.values, v.Within known) :
    Registers Move.Within known (pure (task, [frame])) world :=
  registers_pure hw ⟨ht, List.forall_mem_singleton.2 hf⟩

theorem registers_value {action : Eval Value} (h : Registers Value.Within known action world) :
    Registers Move.Within known (do return (.value (← action), [])) world :=
  h.bind fun _ _ _ _ hw hv => registers_task hw (List.forall_mem_singleton.2 hv)

theorem registers_start (hw : world.Registers known) (scope : ScopeId) (e : Expr) :
    Registers Move.Within known (start scope e) world := by
  have hnone : ∀ v ∈ ([] : List Value), v.Within known := List.forall_mem_nil _
  cases e with
  | int | str | bool | null =>
    exact registers_task hw (List.forall_mem_singleton.2 (Value.within_of_not_has (by simp)))
  | var x => exact registers_value (registers_lookup hw scope x)
  | fn params body => exact registers_value (registers_create hw params body scope)
  | list | tuple | map => exact registers_task hw hnone
  | _ => exact registers_wait hw hnone hnone

theorem registers_finish (hw : world.Registers known) (hv : value.Within known) (scope : ScopeId)
    (stub : Stub) :
    Registers (fun known last => ∀ v ∈ last, v.Within known) known (finish scope value stub)
      world := by
  cases stub with
  | declare x =>
    exact (registers_declare hw scope x hv).bind fun _ _ _ _ hw' _ => registers_pure hw' (by simp)
  | assign x =>
    exact (registers_assign hw scope x hv).bind fun _ _ _ _ hw' _ => registers_pure hw' (by simp)
  | ret => exact registers_throw hw hv
  | expr => exact registers_pure hw (by simpa using hv)

theorem registers_resume (hw : world.Registers known) (hv : value.Within known)
    (hf : ∀ v ∈ frame.values, v.Within known) :
    Registers Move.Within known (frame.resume value) world := by
  have hnone : ∀ v ∈ ([] : List Value), v.Within known := List.forall_mem_nil _
  have hone : ∀ v ∈ [value], v.Within known := List.forall_mem_singleton.2 hv
  cases frame with
  | operand op =>
    exact registers_value (registers_lift hw fun result hr =>
      Value.within_of_not_has fun _ => Value.not_has_of_unary hr)
  | left op b scope => exact registers_wait hw hnone hone
  | right op l =>
    exact registers_value (registers_lift hw fun result hr =>
      Value.within_of_not_has fun _ => Value.not_has_of_binary hr)
  | test body otherwise scope =>
    rw [Frame.resume]
    split
    · exact (registers_enclose hw scope).bind fun _ _ _ _ hw' _ =>
        registers_task hw' (List.forall_mem_nil _)
    · exact registers_task hw (List.forall_mem_singleton.2 (Value.within_of_not_has (by simp)))
  | callee args scope => exact registers_task hw hone
  | row purpose values rest scope =>
    refine registers_task hw ?_
    obtain ⟨hpurpose, hvalues⟩ := List.forall_mem_append.1 hf
    exact List.forall_mem_append.2 ⟨hpurpose, List.forall_mem_append.2 ⟨hvalues, hone⟩⟩
  | target p scope => exact registers_wait hw hnone hone
  | position t =>
    have ht := List.forall_mem_singleton.1 hf
    exact registers_value (registers_lift hw fun result hr f hf =>
      ht f (Value.holds_iff_has.2 (Value.has_of_index hr (Value.holds_iff_has.1 hf))))
  | key entries valueExpr rest scope =>
    rw [Frame.resume]
    split
    · exact registers_wait hw hnone hf
    · exact registers_throw hw trivial
  | entry entries k rest scope =>
    refine registers_task hw (List.forall_mem_map.2 fun entry hentry => ?_)
    rcases Value.mem_insert hentry with rfl | hentry
    · exact hv
    · exact List.forall_mem_map.1 hf entry hentry
  | stmt stub rest scope =>
    exact (registers_finish hw hv scope stub).bind fun _ _ _ _ hw' hlast =>
      registers_task hw' fun v hv => hlast v (Option.mem_toList.1 hv)
  | function => exact registers_task hw hone

theorem registers_call (hw : world.Registers known) {f : Value} {args : List Value}
    (hargs : ∀ v ∈ args, v.Within known) (limit calls : Nat) :
    Registers Move.Within known (enter limit calls args f) world := by
  cases f with
  | builtin which => exact registers_value (registers_builtin hw which hargs)
  | function f =>
    rw [enter]
    split
    · split
      · exact (registers_enter hw f hargs).bind fun _ _ _ _ hw' _ =>
          registers_wait hw' (List.forall_mem_nil _) (List.forall_mem_nil _)
      · exact registers_throw hw trivial
    · exact registers_throw hw trivial
  | _ => exact registers_throw hw trivial

theorem registers_proceed (hw : world.Registers known) (ht : ∀ v ∈ task.values, v.Within known)
    (limit calls : Nat) : Registers Move.Within known (task.proceed limit calls) world := by
  have hnone : ∀ v ∈ ([] : List Value), v.Within known := List.forall_mem_nil _
  unfold Task.proceed
  split
  · exact registers_start hw _ _
  · next purpose values _ =>
    obtain ⟨hpurpose, hvalues⟩ := List.forall_mem_append.1 ht
    refine registers_task hw ?_
    cases purpose with
    | list => exact List.forall_mem_singleton.2 (Value.within_list.2 hvalues)
    | tuple => exact List.forall_mem_singleton.2 (Value.within_tuple.2 hvalues)
    | call f => exact ht
  · exact registers_wait hw hnone ht
  · exact registers_task hw (List.forall_mem_singleton.2 (Value.within_map.2 ht))
  · exact registers_wait hw hnone ht
  · next last _ =>
    refine registers_task hw (List.forall_mem_singleton.2 ?_)
    cases last with
    | none => exact Value.within_of_not_has (by simp)
    | some v => exact List.forall_mem_singleton.1 ht
  · exact registers_wait hw hnone hnone
  · exact registers_wait hw hnone hnone
  · exact registers_throw hw (Value.within_of_not_has (by simp))
  · exact registers_wait hw hnone hnone
  · exact registers_wait hw hnone hnone
  · exact registers_call hw (List.forall_mem_cons.1 ht).2 limit calls
  · exact registers_task hw ht
  · next s =>
    refine registers_throw hw ?_
    cases s with
    | ret v => exact ht v List.mem_cons_self
    | error | exit => trivial

end Moves

/-! ### Moments -/

/-- All functions that are there at the moment are known. -/
structure Moment.Registers (known : Set Closure) (m : Moment) : Prop where
  world : m.world.Registers known
  task : ∀ v ∈ m.task.values, v.Within known
  waiting : ∀ frame ∈ m.waiting, ∀ v ∈ frame.values, v.Within known

namespace Moment.Registers

variable {known : Set Closure} {limit : Nat} {m m' : Moment}

theorem settle (h : m.Registers known) {action : Eval Move} {waiting : List Frame}
    {pending : List Program} (ha : Eval.Registers Move.Within known action m.world)
    (hwaiting : waiting ⊆ m.waiting) :
    ∃ known', (settle waiting pending (action m.world)).Registers known' := by
  unfold Eval.Registers at ha
  cases hr : action m.world with
  | ok move world' =>
    rw [hr] at ha
    obtain ⟨known', hk, hw, htask, hframes⟩ := ha
    refine ⟨known', hw, htask, List.forall_mem_append.2 ⟨hframes, ?_⟩⟩
    exact fun frame hf v hv => (h.waiting frame (hwaiting hf) v hv).mono hk
  | error s world' =>
    rw [hr] at ha
    obtain ⟨known', hk, hw, hs⟩ := ha
    refine ⟨known', hw, ?_, fun frame hf v hv => (h.waiting frame (hwaiting hf) v hv).mono hk⟩
    cases s with
    | ret v => exact List.forall_mem_singleton.2 hs
    | error | exit => exact List.forall_mem_nil _

theorem next (h : m.Registers known) (hn : m.next? limit = some m') :
    ∃ known', m'.Registers known' := by
  unfold Moment.next? at hn
  split at hn
  · cases hn
  · cases hn
    refine h.settle (registers_resume h.world (List.forall_mem_singleton.1 h.task) ?_)
      (List.subset_cons_self _ _)
    exact h.waiting _ List.mem_cons_self
  · next s frame waiting _ _ =>
    cases hn
    refine ⟨known, h.world, ?_, fun frame hf => h.waiting frame (List.mem_cons_of_mem _ hf)⟩
    cases frame <;> cases s <;> exact h.task
  · cases hn
  · cases hn
  · cases hn
    exact ⟨known, h.world, List.forall_mem_nil _, List.forall_mem_nil _⟩
  · cases hn
    exact ⟨known, h.world, List.forall_mem_nil _, List.forall_mem_nil _⟩
  · cases hn
    exact h.settle (registers_proceed h.world h.task limit _) (List.Subset.refl _)

theorem steps (h : m.Registers known) (hs : Steps limit m m') : ∃ known', m'.Registers known' := by
  induction hs with
  | refl => exact ⟨known, h⟩
  | tail _ hn ih =>
    obtain ⟨known', ih⟩ := ih
    exact ih.next hn

theorem shows (h : m.Registers known) {value : Value} (hv : m.Shows value) :
    value.Within known := by
  rcases hv with hv | hv
  · exact h.world.bound hv
  · rcases List.mem_append.1 hv with hv | hv
    · exact h.task value hv
    · obtain ⟨frame, hframe, hv⟩ := List.mem_flatMap.1 hv
      exact h.waiting frame hframe value hv

theorem coherent (h : m.Registers known) : Value.Coherent {value | m.Shows value} := by
  refine h.world.injective.mono ?_
  rintro f ⟨value, hv, hf⟩
  exact h.shows hv f hf

end Moment.Registers

/-- Before the first program there are no functions. -/
theorem registers_begin (programs : List Program) (capacity : Option Nat) (created : Nat) :
    (Moment.begin programs (.initial capacity created)).Registers ∅ where
  world := ⟨fun hb => absurd hb Scopes.not_binds_initial, fun hf => hf.elim, Set.injOn_empty _⟩
  task := List.forall_mem_nil _
  waiting := List.forall_mem_nil _

/-- No two functions that are there at one moment of a session have the same serial. -/
theorem coherent_of_steps {limit created : Nat} {capacity : Option Nat} {programs : List Program}
    {m : Moment} (h : Steps limit (.begin programs (.initial capacity created)) m) :
    Value.Coherent {value | m.Shows value} := by
  obtain ⟨known, h⟩ := (registers_begin programs capacity created).steps h
  exact h.coherent

end Course

end Tang
