import Tang.Outcome
import Tang.Proofs.Congruence
import Tang.Proofs.Truncation

/-! Output only grows. Whatever a program does and however many bytes its sink takes, what has been
written stays where it is, and all that is written later comes behind it. -/

namespace Tang

open Tang.Action (final final_ok final_error)

/-! ### Growing outputs -/

namespace World

/-- The second world has the output of the first one, with more behind it. -/
def Grows (world world' : World) : Prop :=
  ∃ more, world'.output = world.output ++ more

theorem Grows.refl (world : World) : world.Grows world :=
  ⟨.empty, ByteArray.append_empty.symm⟩

theorem Grows.trans {world₁ world₂ world₃ : World} (h : world₁.Grows world₂)
    (h' : world₂.Grows world₃) : world₁.Grows world₃ := by
  obtain ⟨more, h⟩ := h
  obtain ⟨more', h'⟩ := h'
  exact ⟨more ++ more', by rw [h', h, ByteArray.append_assoc]⟩

end World

/-- A sink keeps what it holds, also when it does not take all of what is written. -/
theorem Sink.exists_written_write (text : String) (sink : Sink) :
    ∃ more, (final (write text sink)).written = sink.written ++ more := by
  obtain ⟨written, capacity⟩ := sink
  cases capacity with
  | none => exact ⟨text.toUTF8, rfl⟩
  | some capacity =>
    by_cases hfits : text.toUTF8.size ≤ capacity - written.size
    · refine ⟨text.toUTF8, ?_⟩
      simp only [write, writeBytes, if_pos hfits, final_ok]
    · refine ⟨text.toUTF8.extract 0 (capacity - written.size), ?_⟩
      simp only [write, writeBytes, if_neg hfits, final_error]

/-! ### Actions -/

namespace Eval

variable {α β : Type}

/-- The action only adds to the output. -/
def Appends (action : Eval α) : Prop :=
  ∀ world : World, world.Grows (final (action world))

namespace Appends

theorem of_silent {action : Eval α} (h : ∀ world, (final (action world)).sink = world.sink) :
    Appends action := by
  intro world
  refine ⟨.empty, ?_⟩
  rw [World.output, h, ByteArray.append_empty]
  rfl

theorem bind {action : Eval α} {next : α → Eval β} (h : Appends action)
    (hn : ∀ a, Appends (next a)) : Appends (action >>= next) := by
  intro world
  have hgrows := h world
  cases hr : action world with
  | error signal world₁ =>
    rw [hr] at hgrows
    rw [Action.bind_of_error hr]
    exact hgrows
  | ok a world₁ =>
    rw [hr] at hgrows
    rw [Action.bind_of_ok hr]
    exact hgrows.trans (hn a world₁)

theorem lookup (scope : ScopeId) (name : String) : Appends (Eval.lookup scope name) := by
  refine of_silent fun world => ?_
  have hget : (get : Eval World) world = .ok world world := rfl
  rw [Eval.lookup, Action.bind_of_ok hget]
  cases world.scopes.get? scope name with
  | some value => rfl
  | none => cases Builtin.ofName? name <;> rfl

theorem print (text : String) : Appends (World.onSink (Builtin.writeLine text)) := by
  intro world
  obtain ⟨more, hmore⟩ := Sink.exists_written_write (text ++ "\n") world.sink
  refine ⟨more, ?_⟩
  cases hr : Sink.write (text ++ "\n") world.sink with
  | ok _ sink =>
    have hline : Builtin.writeLine text world.sink = .ok () sink := by
      simp only [Builtin.writeLine, Sink.writeLine, hr]
    rw [hr] at hmore
    rw [Action.onSink_of_ok hline]
    exact hmore
  | error error sink =>
    have hline : Builtin.writeLine text world.sink = .error (.error (.writeFailed error)) sink := by
      simp only [Builtin.writeLine, Sink.writeLine, hr]
    rw [hr] at hmore
    rw [Action.onSink_of_error hline]
    exact hmore

theorem returned {body : Eval Value} (h : Appends body) : Appends (Eval.returned body) := by
  intro world
  have hgrows := h world
  unfold Eval.returned
  split
  · next hr => rwa [hr] at hgrows
  · exact hgrows

theorem compatible : Compatible fun _ x _ => Appends x where
  pure _ := of_silent fun _ => rfl
  ret _ := of_silent fun _ => rfl
  exit _ := of_silent fun _ => rfl
  fail _ := of_silent fun _ => rfl
  bind := bind
  lookup := lookup
  declare _ _ _ := of_silent fun _ => rfl
  assign _ _ _ := of_silent fun _ => rfl
  enclose _ := of_silent fun _ => rfl
  create _ _ _ := of_silent fun _ => rfl
  print := print
  returned := returned

end Appends

theorem appends_callWithin (limit depth : Nat) (f : Value) (args : List Value) :
    Appends (callWithin limit depth f args) :=
  @callWithin_congr _ Appends.compatible limit limit (fun _ _ _ => .of_silent fun _ => rfl) depth
    depth (Nat.le_refl depth) f args

theorem appends_evalAll (limit depth : Nat) (stmts : List Stmt) (scope : ScopeId)
    (last : Option Value) : Appends (Stmt.evalAll (callWithin limit depth) scope last stmts) :=
  @Stmt.evalAll_congr _ _ (callWithin limit depth) Appends.compatible
    (appends_callWithin limit depth) stmts scope last

end Eval

/-! ### Programs -/

theorem Outcome.ofResult_snd (result : EStateM.Result Signal World (Option Value)) :
    (ofResult result).2 = final result := by
  unfold ofResult
  split <;> rfl

theorem Program.runIn_grows (limit : Nat) (scope : ScopeId) (program : Program) (world : World) :
    world.Grows (program.runIn limit scope world).2 := by
  rw [runIn, Outcome.ofResult_snd]
  exact Eval.appends_evalAll limit limit program scope none world

end Tang
