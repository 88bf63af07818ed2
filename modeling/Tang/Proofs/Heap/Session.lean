import Tang.Console
import Tang.Proofs.Heap.Evaluation

/-! Sessions: programs run one after another in one world. Whatever rule the trees of all programs
obey, the scopes of a session are sound for it, and so are the values that its programs come to. -/

namespace Tang

/-- Running a program keeps scopes sound, and the functions in its value fit into them. -/
theorem Program.runIn_sound {rule : Rule} {limit : Nat} {program : Program} {scope : ScopeId}
    {world : World} (ho : Stmt.ObeyAll rule program) (hw : world.scopes.Sound rule)
    (hs : scope < world.scopes.size) {outcome : Outcome} {world' : World}
    (h : program.runIn limit scope world = (outcome, world')) :
    world'.scopes.Sound rule ∧
      ∀ value, outcome = .value (some value) → value.Fits rule world'.scopes.size := by
  have hsound := Stmt.evalAll_sound (callWithin_sound rule limit limit) program ho none scope world
    hw hs (by simp)
  unfold Program.runIn at h
  unfold Eval.Sound at hsound
  split at hsound
  · next last world₁ heq =>
    rw [heq] at h
    cases h
    refine ⟨hsound.1, fun value hv => ?_⟩
    cases hv
    exact hsound.2.2 value rfl
  · next signal world₁ heq =>
    rw [heq] at h
    cases signal with
    | ret result =>
      cases h
      refine ⟨hsound.1, fun value hv => ?_⟩
      cases hv
      exact hsound.2.2
    | error failure =>
      cases h
      exact ⟨hsound.1, fun value hv => by cases hv⟩
    | exit status =>
      cases h
      exact ⟨hsound.1, fun value hv => by cases hv⟩

theorem Program.runIn_extends {rule : Rule} {limit : Nat} {program : Program} {scope : ScopeId}
    {world : World} (ho : Stmt.ObeyAll rule program) (hw : world.scopes.Sound rule)
    (hs : scope < world.scopes.size) :
    world.scopes.Extends (program.runIn limit scope world).2.scopes := by
  have hsound := Stmt.evalAll_sound (callWithin_sound rule limit limit) program ho none scope world
    hw hs (by simp)
  unfold Eval.Sound at hsound
  unfold Program.runIn
  split at hsound
  · next hr =>
    rw [hr]
    exact hsound.2.1
  · next signal world' hr =>
    rw [hr]
    cases signal <;> exact hsound.2.1

/-- The worlds of a session: it starts with no bindings, texts that are programs are run in one of
the scopes there are, and output is written in between. -/
inductive Session : World → Prop where
  | start (capacity : Option Nat) (created : Nat) : Session (.initial capacity created)
  | write {world : World} (sink : Sink) : Session world → Session { world with sink := sink }
  | run {world : World} {file source : String} {program : Program} {scope : ScopeId} (limit : Nat) :
    Session world → Program.parse file source = .ok program → scope < world.scopes.size →
      Session (program.runIn limit scope world).2

theorem Session.sound {rule : Rule} {world : World} (h : Session world)
    (hrule : ∀ {file source program}, Program.parse file source = .ok program →
      Stmt.ObeyAll rule program) : world.scopes.Sound rule := by
  induction h with
  | start => exact Scopes.sound_initial
  | write _ _ ih => exact ih
  | run limit _ hp hs ih => exact (Program.runIn_sound (hrule hp) ih hs rfl).1

end Tang
