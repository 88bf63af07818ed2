import Tang.Proofs.Course.Admission

/-! What a step keeps. At an admitted moment all values, those that are computed with and those that
are bound, and all syntax that is still to be evaluated are admitted by the rule, and evaluation
goes on in scopes that exist. What follows an admitted moment is admitted. -/

namespace Tang.Course

open Eval

variable {rule : Rule} {size limit : Nat}

/-! ### What is there at a moment -/

def Purpose.values : Purpose → List Value
  | .list | .tuple => []
  | .call f => [f]

def Task.values : Task → List Value
  | .expr _ _ => []
  | .row purpose values _ _ => purpose.values ++ values
  | .pairs entries _ _ => entries.map Prod.snd
  | .block last _ _ => last.toList
  | .call f args => f :: args
  | .value v => [v]
  | .signal (.ret v) => [v]
  | .signal _ => []

def Frame.values : Frame → List Value
  | .right _ v | .position v => [v]
  | .row purpose values _ _ => purpose.values ++ values
  | .key entries _ _ _ | .entry entries _ _ _ => entries.map Prod.snd
  | _ => []

/-- The values that are computed with: operands, arguments, elements, results and what is
returned. -/
def Moment.values (m : Moment) : List Value :=
  m.task.values ++ m.waiting.flatMap Frame.values

/-- The value is there at the moment, in a scope or to be computed with. -/
def Moment.Shows (m : Moment) (value : Value) : Prop :=
  m.world.scopes.Binds value ∨ value ∈ m.values

/-- The value that a program comes to is there. -/
theorem shows_of_outcome? {m : Moment} {value : Value}
    (h : m.outcome? = some (.value (some value))) : m.Shows value := by
  obtain ⟨task, waiting, world, pending⟩ := m
  unfold Moment.outcome? at h
  split at h
  · next heq =>
    cases heq
    cases h
    exact .inr List.mem_cons_self
  · next s _ _ heq =>
    cases heq
    cases s with
    | ret v =>
      cases h
      exact .inr List.mem_cons_self
    | error | exit => cases h
  · cases h

def Task.site? : Task → Option ScopeId
  | .expr _ scope | .row _ _ _ scope | .pairs _ _ scope | .block _ _ scope => some scope
  | .call _ _ | .value _ | .signal _ => none

def Frame.site? : Frame → Option ScopeId
  | .left _ _ scope | .test _ _ scope | .callee _ scope | .row _ _ _ scope | .target _ scope
  | .key _ _ _ scope | .entry _ _ _ scope | .stmt _ _ scope => some scope
  | .operand _ | .right _ _ | .position _ | .function => none

/-- The scopes in which evaluation goes on. -/
def Moment.sites (m : Moment) : List ScopeId :=
  m.task.site?.toList ++ m.waiting.filterMap Frame.site?

/-! ### Admitted moments -/

def Purpose.Admitted (rule : Rule) (size : Nat) : Purpose → Prop
  | .list | .tuple => True
  | .call f => f.Admitted rule size

/-- The values are admitted, the syntax obeys the rule, and the scope is one of the first `size`. -/
def Task.Admitted (rule : Rule) (size : Nat) : Task → Prop
  | .expr e scope => scope < size ∧ e.Obeys rule
  | .row purpose values rest scope =>
    purpose.Admitted rule size ∧ (∀ v ∈ values, v.Admitted rule size) ∧ scope < size ∧
      Expr.ObeyAll rule rest
  | .pairs entries rest scope =>
    (Value.map entries).Admitted rule size ∧ scope < size ∧ Expr.ObeyPairs rule rest
  | .block last rest scope =>
    (∀ v ∈ last, v.Admitted rule size) ∧ scope < size ∧ Stmt.ObeyAll rule rest
  | .call f args => f.Admitted rule size ∧ ∀ v ∈ args, v.Admitted rule size
  | .value v => v.Admitted rule size
  | .signal s => s.Admitted rule size

def Frame.Admitted (rule : Rule) (size : Nat) : Frame → Prop
  | .operand _ | .function => True
  | .left _ b scope => scope < size ∧ b.Obeys rule
  | .right _ l => l.Admitted rule size
  | .test body otherwise scope =>
    scope < size ∧ Stmt.ObeyAll rule body ∧ Stmt.ObeyElse rule otherwise
  | .callee args scope => scope < size ∧ Expr.ObeyAll rule args
  | .row purpose values rest scope =>
    purpose.Admitted rule size ∧ (∀ v ∈ values, v.Admitted rule size) ∧ scope < size ∧
      Expr.ObeyAll rule rest
  | .target p scope => scope < size ∧ p.Obeys rule
  | .position t => t.Admitted rule size
  | .key entries valueExpr rest scope =>
    (Value.map entries).Admitted rule size ∧ scope < size ∧ valueExpr.Obeys rule ∧
      Expr.ObeyPairs rule rest
  | .entry entries _ rest scope =>
    (Value.map entries).Admitted rule size ∧ scope < size ∧ Expr.ObeyPairs rule rest
  | .stmt _ rest scope => scope < size ∧ Stmt.ObeyAll rule rest

structure Moment.Admitted (rule : Rule) (m : Moment) : Prop where
  scopes : m.world.scopes.Admitted rule
  globalScope : World.global < m.world.scopes.size
  task : m.task.Admitted rule m.world.scopes.size
  waiting : ∀ frame ∈ m.waiting, frame.Admitted rule m.world.scopes.size
  pending : ∀ program ∈ m.pending, Stmt.ObeyAll rule program

theorem Purpose.Admitted.mono {m n : Nat} {purpose : Purpose} (h : purpose.Admitted rule m)
    (hmn : m ≤ n) : purpose.Admitted rule n := by
  cases purpose with
  | list | tuple => trivial
  | call f => exact Value.Admitted.mono h hmn

theorem Frame.Admitted.mono {m n : Nat} {frame : Frame} (h : frame.Admitted rule m)
    (hmn : m ≤ n) : frame.Admitted rule n := by
  cases frame with
  | operand | function => trivial
  | left | test | callee | target | stmt => exact ⟨Nat.lt_of_lt_of_le h.1 hmn, h.2⟩
  | right | position => exact Value.Admitted.mono h hmn
  | row =>
    obtain ⟨hpurpose, hvalues, hscope, hrest⟩ := h
    exact ⟨hpurpose.mono hmn, fun v hv => (hvalues v hv).mono hmn, Nat.lt_of_lt_of_le hscope hmn,
      hrest⟩
  | key | entry =>
    obtain ⟨hentries, hscope, hrest⟩ := h
    exact ⟨hentries.mono hmn, Nat.lt_of_lt_of_le hscope hmn, hrest⟩

theorem Purpose.Admitted.values {purpose : Purpose} (h : purpose.Admitted rule size) :
    ∀ v ∈ purpose.values, v.Admitted rule size := by
  cases purpose <;> simp_all [Purpose.values, Purpose.Admitted]

theorem Task.Admitted.values {task : Task} (h : task.Admitted rule size) :
    ∀ v ∈ task.values, v.Admitted rule size := by
  cases task with
  | expr => simp [Task.values]
  | row => exact List.forall_mem_append.2 ⟨h.1.values, h.2.1⟩
  | pairs => simpa [Task.values] using fun v k hv => Value.admitted_map.1 h.1 (k, v) hv
  | block => simpa [Task.values] using h.1
  | call => exact List.forall_mem_cons.2 h
  | value => simpa [Task.values, Task.Admitted] using h
  | signal s => cases s <;> simp_all [Task.values, Task.Admitted, Signal.Admitted]

theorem Frame.Admitted.values {frame : Frame} (h : frame.Admitted rule size) :
    ∀ v ∈ frame.values, v.Admitted rule size := by
  cases frame with
  | right | position => simpa [Frame.values, Frame.Admitted] using h
  | row => exact List.forall_mem_append.2 ⟨h.1.values, h.2.1⟩
  | key | entry => simpa [Frame.values] using fun v k hv => Value.admitted_map.1 h.1 (k, v) hv
  | _ => simp [Frame.values]

theorem Task.Admitted.site {task : Task} (h : task.Admitted rule size) :
    ∀ id ∈ task.site?, id < size := by
  cases task <;> simp_all [Task.site?, Task.Admitted]

theorem Frame.Admitted.site {frame : Frame} (h : frame.Admitted rule size) :
    ∀ id ∈ frame.site?, id < size := by
  cases frame <;> simp_all [Frame.site?, Frame.Admitted]

namespace Moment.Admitted

variable {m : Moment}

theorem shows (h : m.Admitted rule) {value : Value} (hv : m.Shows value) :
    value.Admitted rule m.world.scopes.size := by
  rcases hv with hv | hv
  · exact h.scopes.bound hv
  · rcases List.mem_append.1 hv with hv | hv
    · exact h.task.values value hv
    · obtain ⟨frame, hframe, hv⟩ := List.mem_flatMap.1 hv
      exact (h.waiting frame hframe).values value hv

theorem sites (h : m.Admitted rule) {id : ScopeId} (hid : id ∈ m.sites) :
    id < m.world.scopes.size := by
  rcases List.mem_append.1 hid with hid | hid
  · exact h.task.site id (Option.mem_toList.1 hid)
  · obtain ⟨frame, hframe, hid⟩ := List.mem_filterMap.1 hid
    exact (h.waiting frame hframe).site id hid

end Moment.Admitted

theorem admitted_begin {programs : List Program} (capacity : Option Nat) (created : Nat)
    (h : ∀ program ∈ programs, Stmt.ObeyAll rule program) :
    (Moment.begin programs (.initial capacity created)).Admitted rule where
  scopes := Scopes.admitted_initial
  globalScope := Nat.zero_lt_one
  task := ⟨nofun, Nat.zero_lt_one, trivial⟩
  waiting := nofun
  pending := h

/-! ### Steps -/

def Move.Admitted (rule : Rule) (size : Nat) (move : Move) : Prop :=
  move.1.Admitted rule size ∧ ∀ frame ∈ move.2, frame.Admitted rule size

section Moves

variable {world : World} {scope : ScopeId} {task : Task} {frame : Frame} {value : Value}

theorem upholds_task (hw : world.scopes.Admitted rule)
    (ht : task.Admitted rule world.scopes.size) :
    Upholds rule (Move.Admitted rule) (pure (task, [])) world :=
  upholds_pure hw ⟨ht, nofun⟩

theorem upholds_wait (hw : world.scopes.Admitted rule)
    (ht : task.Admitted rule world.scopes.size) (hf : frame.Admitted rule world.scopes.size) :
    Upholds rule (Move.Admitted rule) (pure (task, [frame])) world :=
  upholds_pure hw ⟨ht, by simpa using hf⟩

theorem upholds_value {action : Eval Value} (h : Upholds rule (Value.Admitted rule) action world) :
    Upholds rule (Move.Admitted rule) (do return (.value (← action), [])) world :=
  h.bind fun _ _ hfollows hv => upholds_task hfollows.admitted hv

theorem upholds_plain (hw : world.scopes.Admitted rule) (h : ∀ c, ¬ value.Has c) :
    Upholds rule (Move.Admitted rule) (pure (.value value, [])) world :=
  upholds_task hw (Value.admitted_of_not_has h)

theorem upholds_branch (hw : world.scopes.Admitted rule) (hs : scope < world.scopes.size)
    {body : List Stmt} (hbody : Stmt.ObeyAll rule body) :
    Upholds rule (Move.Admitted rule) (do return (.block none body (← enclose scope), []))
      world :=
  (upholds_enclose hw hs).bind fun _ _ hfollows hinner =>
    upholds_task hfollows.admitted ⟨nofun, hinner, hbody⟩

theorem upholds_start (hw : world.scopes.Admitted rule) (hs : scope < world.scopes.size)
    {e : Expr} (he : e.Obeys rule) : Upholds rule (Move.Admitted rule) (start scope e) world := by
  cases e with
  | int | str | bool | null => exact upholds_plain hw (by simp)
  | var x => exact upholds_value (upholds_lookup hw scope he)
  | unary op a => exact upholds_wait hw ⟨hs, he.2⟩ trivial
  | binary op a b => exact upholds_wait hw ⟨hs, he.2.1⟩ ⟨hs, he.2.2⟩
  | cond test body otherwise => exact upholds_wait hw ⟨hs, he.2.1⟩ ⟨hs, he.2.2⟩
  | fn params body => exact upholds_value (upholds_create hw hs he)
  | call callee args => exact upholds_wait hw ⟨hs, he.2.1⟩ ⟨hs, he.2.2⟩
  | index target position => exact upholds_wait hw ⟨hs, he.2.1⟩ ⟨hs, he.2.2⟩
  | list | tuple => exact upholds_task hw ⟨trivial, nofun, hs, he.2⟩
  | map pairs => exact upholds_task hw ⟨Value.admitted_of_not_has (by simp), hs, he.2⟩

theorem upholds_finish (hw : world.scopes.Admitted rule)
    (hv : value.Admitted rule world.scopes.size) (scope : ScopeId) (stub : Stub) :
    Upholds rule (fun size last => ∀ v ∈ last, v.Admitted rule size) (finish scope value stub)
      world := by
  cases stub with
  | declare x =>
    exact (upholds_declare hw scope x hv).bind fun _ _ hfollows _ =>
      upholds_pure hfollows.admitted nofun
  | assign x =>
    exact (upholds_assign hw scope x hv).bind fun _ _ hfollows _ =>
      upholds_pure hfollows.admitted nofun
  | ret => exact upholds_ret hw hv
  | expr => exact upholds_pure hw (by simpa using hv)

theorem upholds_resume (hw : world.scopes.Admitted rule)
    (hv : value.Admitted rule world.scopes.size) (hf : frame.Admitted rule world.scopes.size) :
    Upholds rule (Move.Admitted rule) (frame.resume value) world := by
  cases frame with
  | operand op =>
    exact upholds_value (upholds_lift hw fun result hr =>
      Value.admitted_of_not_has fun _ => Value.not_has_of_unary hr)
  | left op b scope => exact upholds_wait hw hf hv
  | right op l =>
    exact upholds_value (upholds_lift hw fun result hr =>
      Value.admitted_of_not_has fun _ => Value.not_has_of_binary hr)
  | test body otherwise scope =>
    obtain ⟨hs, hbody, hotherwise⟩ := hf
    rw [Frame.resume]
    split
    · next branch hbranch =>
      refine upholds_branch hw hs ?_
      split at hbranch <;> cases hbranch
      · exact hbody
      · exact hotherwise
    · exact upholds_plain hw (by simp)
  | callee args scope => exact upholds_task hw ⟨hv, List.forall_mem_nil _, hf⟩
  | row purpose values rest scope =>
    obtain ⟨hpurpose, hvalues, hs, hrest⟩ := hf
    refine upholds_task hw ⟨hpurpose, ?_, hs, hrest⟩
    exact List.forall_mem_append.2 ⟨hvalues, by simpa using hv⟩
  | target p scope => exact upholds_wait hw hf hv
  | position t =>
    exact upholds_value (upholds_lift hw fun result hr c hc => hf c (Value.has_of_index hr hc))
  | key entries valueExpr rest scope =>
    obtain ⟨hentries, hs, hvalueExpr, hrest⟩ := hf
    rw [Frame.resume]
    split
    · exact upholds_wait hw ⟨hs, hvalueExpr⟩ ⟨hentries, hs, hrest⟩
    · exact upholds_fail hw _
  | entry entries k rest scope =>
    obtain ⟨hentries, hs, hrest⟩ := hf
    refine upholds_task hw ⟨Value.admitted_map.2 fun entry hentry => ?_, hs, hrest⟩
    rcases Value.mem_insert hentry with rfl | hentry
    · exact hv
    · exact Value.admitted_map.1 hentries entry hentry
  | stmt stub rest scope =>
    exact (upholds_finish hw hv scope stub).bind fun last world' hfollows hlast =>
      upholds_task hfollows.admitted ⟨hlast, hfollows.kept.lt_size hf.1, hf.2⟩
  | function => exact upholds_task hw hv

theorem upholds_call (hw : world.scopes.Admitted rule) {f : Value} {args : List Value}
    (hf : f.Admitted rule world.scopes.size)
    (hargs : ∀ v ∈ args, v.Admitted rule world.scopes.size) (limit calls : Nat) :
    Upholds rule (Move.Admitted rule) (enter limit calls args f) world := by
  cases f with
  | builtin which =>
    exact upholds_value (upholds_builtin hw (Value.admitted_builtin.1 hf) hargs)
  | function f =>
    rw [enter]
    have hfits := Value.admitted_function.1 hf
    split
    · split
      · refine (upholds_enter hw hfits hargs).bind fun inner world' hfollows hinner => ?_
        exact upholds_wait hfollows.admitted ⟨nofun, hinner, hfits.2.2⟩ trivial
      · exact upholds_fail hw _
    · exact upholds_fail hw _
  | _ => exact upholds_fail hw _

theorem upholds_proceed (hw : world.scopes.Admitted rule)
    (ht : task.Admitted rule world.scopes.size) (limit calls : Nat) :
    Upholds rule (Move.Admitted rule) (task.proceed limit calls) world := by
  unfold Task.proceed
  split
  · exact upholds_start hw ht.1 ht.2
  · next purpose values _ =>
    obtain ⟨hpurpose, hvalues, -⟩ := ht
    refine upholds_task hw ?_
    cases purpose with
    | list => exact Value.admitted_list.2 hvalues
    | tuple => exact Value.admitted_tuple.2 hvalues
    | call f => exact ⟨hpurpose, hvalues⟩
  · obtain ⟨hpurpose, hvalues, hs, he, hes⟩ := ht
    exact upholds_wait hw ⟨hs, he⟩ ⟨hpurpose, hvalues, hs, hes⟩
  · exact upholds_task hw ht.1
  · obtain ⟨hentries, hs, ha, hb, hrest⟩ := ht
    exact upholds_wait hw ⟨hs, ha⟩ ⟨hentries, hs, hb, hrest⟩
  · next last _ =>
    refine upholds_task hw ?_
    cases last with
    | none => exact Value.admitted_of_not_has (by simp)
    | some v => exact ht.1 v rfl
  · obtain ⟨-, hs, he, hrest⟩ := ht
    exact upholds_wait hw ⟨hs, he.2⟩ ⟨hs, hrest⟩
  · obtain ⟨-, hs, he, hrest⟩ := ht
    exact upholds_wait hw ⟨hs, he.2⟩ ⟨hs, hrest⟩
  · exact upholds_ret hw (Value.admitted_of_not_has (by simp))
  · obtain ⟨-, hs, he, hrest⟩ := ht
    exact upholds_wait hw ⟨hs, he.2⟩ ⟨hs, hrest⟩
  · obtain ⟨-, hs, he, hrest⟩ := ht
    exact upholds_wait hw ⟨hs, he.2⟩ ⟨hs, hrest⟩
  · exact upholds_call hw ht.1 ht.2 limit calls
  · exact upholds_task hw ht
  · exact ⟨.refl hw, ht⟩

end Moves

theorem admitted_unwind {frame : Frame} {s : Signal} (h : s.Admitted rule size) :
    (frame.unwind s).Admitted rule size := by
  cases frame <;> cases s <;> exact h

/-- The world after a step follows the world before. -/
structure Moment.Follows (rule : Rule) (m m' : Moment) : Prop where
  world : World.Follows rule m.world m'.world
  admitted : m'.Admitted rule

namespace Moment.Admitted

variable {m m' : Moment}

/-- A move from an admitted moment, in which `waiting` waits. -/
theorem settle (h : m.Admitted rule) {action : Eval Move} {waiting : List Frame}
    (ha : Upholds rule (Move.Admitted rule) action m.world) (hwaiting : waiting ⊆ m.waiting) :
    Moment.Follows rule m (settle waiting m.pending (action m.world)) := by
  have hkept {world' : World} (hfollows : World.Follows rule m.world world') :
      ∀ frame ∈ waiting, frame.Admitted rule world'.scopes.size :=
    fun frame hf => (h.waiting frame (hwaiting hf)).mono hfollows.kept.size_le
  unfold Upholds at ha
  cases hr : action m.world with
  | ok move world' =>
    rw [hr] at ha
    obtain ⟨hfollows, htask, hframes⟩ := ha
    exact ⟨hfollows, hfollows.admitted, hfollows.kept.lt_size h.globalScope, htask,
      List.forall_mem_append.2 ⟨hframes, hkept hfollows⟩, h.pending⟩
  | error s world' =>
    rw [hr] at ha
    obtain ⟨hfollows, hsignal⟩ := ha
    exact ⟨hfollows, hfollows.admitted, hfollows.kept.lt_size h.globalScope, hsignal,
      hkept hfollows, h.pending⟩

/-- The next program is begun where the one before has ended. -/
theorem run (h : m.Admitted rule) {program : Program} {pending : List Program}
    (hp : m.pending = program :: pending) :
    Moment.Follows rule m ⟨.block none program World.global, [], m.world, pending⟩ := by
  have hpending := h.pending
  rw [hp] at hpending
  obtain ⟨hprogram, hpending⟩ := List.forall_mem_cons.1 hpending
  exact ⟨.refl h.scopes, h.scopes, h.globalScope, ⟨nofun, h.globalScope, hprogram⟩, nofun,
    hpending⟩

theorem next (h : m.Admitted rule) (hn : m.next? limit = some m') : Moment.Follows rule m m' := by
  unfold Moment.next? at hn
  split at hn
  · cases hn
  · cases hn
    exact h.settle (upholds_resume h.scopes h.task (h.waiting _ List.mem_cons_self))
      (List.subset_cons_self _ _)
  · cases hn
    exact ⟨.refl h.scopes, h.scopes, h.globalScope, admitted_unwind h.task,
      fun frame hf => h.waiting frame (List.mem_cons_of_mem _ hf), h.pending⟩
  · cases hn
  · cases hn
  · cases hn
    exact h.run rfl
  · cases hn
    exact h.run rfl
  · cases hn
    exact h.settle (upholds_proceed h.scopes h.task limit _) (List.Subset.refl _)

/-- By induction on the steps. -/
theorem steps (h : m.Admitted rule) (hs : Steps limit m m') : Moment.Follows rule m m' := by
  induction hs with
  | refl => exact ⟨.refl h.scopes, h⟩
  | tail _ hn ih =>
    have hnext := ih.admitted.next hn
    exact ⟨ih.world.trans hnext.world, hnext.admitted⟩

end Moment.Admitted

end Tang.Course
