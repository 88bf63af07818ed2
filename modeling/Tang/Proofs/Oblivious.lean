import Tang.Proofs.Truncation.Sessions

/-! Output is never read back. However many bytes a sink takes, an action only adds to what has been
written. Where the output is unlimited, what the action adds, and all else it does, is the same
whatever has been written before. Sequences of actions keep this, so evaluation has it, and from
evaluation programs and sessions get it. -/

namespace Tang

open Tang.Action (final result mapFinal final_ok final_error final_mapFinal result_mapFinal)

/-! ### Earlier output -/

namespace World

/-- The world with other output before its own. -/
def behind (before : ByteArray) (world : World) : World :=
  { world with sink := ⟨before ++ world.output, world.sink.capacity⟩ }

/-- The world without its output. -/
def blank (world : World) : World :=
  { world with sink := ⟨.empty, world.sink.capacity⟩ }

/-- The world with more text behind its output. -/
def adding (text : String) (world : World) : World :=
  { world with sink := ⟨world.output ++ text.toUTF8, world.sink.capacity⟩ }

theorem behind_blank (world : World) : world.blank.behind world.output = world := by
  simp only [behind, blank, output, ByteArray.append_empty]

theorem adding_eq_behind (text : String) (world : World) :
    world.adding text = world.blank.behind (world.output ++ text.toUTF8) := by
  simp only [behind, blank, adding, output, ByteArray.append_empty]

theorem adding_adding (text text' : String) (world : World) :
    (world.adding text).adding text' = world.adding (text ++ text') := by
  simp only [adding, output, String.toUTF8_eq_toByteArray, String.toByteArray_append,
    ByteArray.append_assoc]

theorem adding_empty (world : World) : world.adding "" = world := by
  rw [adding, show "".toUTF8 = ByteArray.empty from rfl, ByteArray.append_empty]
  rfl

end World

variable {ε α β : Type}

/-- The action only writes output, and does not do anything else because of it. -/
structure Oblivious (action : EStateM ε World α) : Prop where
  grows (world : World) : world.Grows (final (action world))
  unlimited {world : World} : world.sink.capacity = none →
    (final (action world)).sink.capacity = none
  behind (before : ByteArray) {world : World} : world.sink.capacity = none →
    action (world.behind before) = mapFinal (World.behind before) (action world)

namespace Oblivious

/-- An action that leaves the output alone. -/
theorem of_silent {action : EStateM ε World α}
    (hs : ∀ world, (final (action world)).sink = world.sink)
    (hb : ∀ before world,
      action (world.behind before) = mapFinal (World.behind before) (action world)) :
    Oblivious action where
  grows world := ⟨.empty, by rw [World.output, hs, ByteArray.append_empty]; rfl⟩
  unlimited {world} hcap := by rw [hs, hcap]
  behind before {world} _ := hb before world

theorem pure (a : α) : Oblivious (Pure.pure a : EStateM ε World α) :=
  of_silent (fun _ => rfl) fun _ _ => rfl

theorem throw (e : ε) : Oblivious (MonadExcept.throw e : EStateM ε World α) :=
  of_silent (fun _ => rfl) fun _ _ => rfl

theorem bind {action : EStateM ε World α} {next : α → EStateM ε World β}
    (h : Oblivious action) (hn : ∀ a, Oblivious (next a)) : Oblivious (action >>= next) where
  grows world := by
    have hgrows := h.grows world
    cases hr : action world with
    | error e world' =>
      rw [hr] at hgrows
      rw [Action.bind_of_error hr]
      exact hgrows
    | ok a world' =>
      rw [hr] at hgrows
      rw [Action.bind_of_ok hr]
      exact hgrows.trans ((hn a).grows world')
  unlimited {world} hcap := by
    have hcap' := h.unlimited hcap
    cases hr : action world with
    | error e world' =>
      rw [hr] at hcap'
      rw [Action.bind_of_error hr]
      exact hcap'
    | ok a world' =>
      rw [hr] at hcap'
      rw [Action.bind_of_ok hr]
      exact (hn a).unlimited hcap'
  behind before {world} hcap := by
    have hcap' := h.unlimited hcap
    have hbehind := h.behind before hcap
    cases hr : action world with
    | error e world' =>
      rw [hr] at hbehind
      rw [Action.bind_of_error hr, Action.bind_of_error hbehind]
      rfl
    | ok a world' =>
      rw [hr] at hcap' hbehind
      rw [Action.bind_of_ok hr, Action.bind_of_ok hbehind]
      exact (hn a).behind before hcap'

/-- An action that writes a text, and fails if the text cannot be written. -/
theorem onSink_write {action : EStateM ε Sink Unit} (text : String) (failure : IoError → ε)
    (hok : ∀ {sink sink'}, Sink.write text sink = .ok () sink' → action sink = .ok () sink')
    (herror : ∀ {error sink sink'}, Sink.write text sink = .error error sink' →
      action sink = .error (failure error) sink') :
    Oblivious (World.onSink action) where
  grows world := by
    obtain ⟨more, hmore⟩ := Sink.exists_written_write text world.sink
    refine ⟨more, ?_⟩
    cases hr : Sink.write text world.sink with
    | ok _ sink =>
      rw [hr] at hmore
      rw [Action.onSink_of_ok (hok hr)]
      exact hmore
    | error error sink =>
      rw [hr] at hmore
      rw [Action.onSink_of_error (herror hr)]
      exact hmore
  unlimited {world} hcap := by
    obtain ⟨scopes, created, written, capacity⟩ := world
    obtain rfl : capacity = none := hcap
    rw [Action.onSink_of_ok (hok Sink.write_unlimited)]
    rfl
  behind before {world} hcap := by
    obtain ⟨scopes, created, written, capacity⟩ := world
    obtain rfl : capacity = none := hcap
    rw [Action.onSink_of_ok (hok Sink.write_unlimited), World.behind,
      Action.onSink_of_ok (hok Sink.write_unlimited), ByteArray.append_assoc]
    rfl

/-- Behind more output the action has the same result and adds the same. -/
theorem adding {action : EStateM ε World α} (h : Oblivious action) (text : String) {world : World}
    (hcap : world.sink.capacity = none) :
    result (action (world.adding text)) = result (action world) ∧
      ∃ rest, (final (action world)).output = world.output ++ rest ∧
        (final (action (world.adding text))).output = (world.adding text).output ++ rest := by
  have hblank : world.blank.sink.capacity = none := hcap
  have hworld := h.behind world.output hblank
  have hadding := h.behind (world.output ++ text.toUTF8) hblank
  rw [World.behind_blank] at hworld
  rw [← World.adding_eq_behind] at hadding
  rw [hworld, hadding, result_mapFinal, result_mapFinal, final_mapFinal, final_mapFinal]
  exact ⟨rfl, (final (action world.blank)).output, rfl, rfl⟩

end Oblivious

/-! ### Evaluation -/

theorem oblivious_lookup (scope : ScopeId) (name : String) :
    Oblivious (Eval.lookup scope name) := by
  refine .of_silent (fun world => ?_) fun before world => ?_
  · rcases lookup_eq scope name world with ⟨value, h⟩ | ⟨signal, h⟩
    · rw [h world.sink, final_ok]
    · rw [h world.sink, final_error]
  · rcases lookup_eq scope name world with ⟨value, h⟩ | ⟨signal, h⟩
    · rw [World.behind, h, h world.sink, mapFinal, World.behind]
    · rw [World.behind, h, h world.sink, mapFinal, World.behind]

theorem oblivious_print (text : String) : Oblivious (World.onSink (Builtin.writeLine text)) := by
  refine .onSink_write (text ++ "\n") (fun error => .error (.writeFailed error)) ?_ ?_
  · intro sink sink' h
    simp only [Builtin.writeLine, Sink.writeLine, h]
  · intro error sink sink' h
    simp only [Builtin.writeLine, Sink.writeLine, h]

theorem Oblivious.returned {body : Eval Value} (h : Oblivious body) :
    Oblivious (Eval.returned body) := by
  have hfinal (world : World) : final (Eval.returned body world) = final (body world) := by
    unfold Eval.returned
    split <;> simp only [*, final_ok, final_error]
  refine ⟨fun world => ?_, fun {world} hcap => ?_, fun before {world} hcap => ?_⟩
  · rw [hfinal]
    exact h.grows world
  · rw [hfinal]
    exact h.unlimited hcap
  · simp only [Eval.returned, h.behind before hcap]
    rcases body world with ⟨value, world'⟩ | ⟨signal, world'⟩
    · rfl
    · cases signal <;> rfl

theorem oblivious_compatible : Compatible fun _ x _ => Oblivious x where
  pure := .pure
  ret _ := .throw _
  exit _ := .throw _
  fail _ := .throw _
  bind := .bind
  lookup := oblivious_lookup
  declare _ _ _ := .of_silent (fun _ => rfl) fun _ _ => rfl
  assign _ _ _ := .of_silent (fun _ => rfl) fun _ _ => rfl
  enclose _ := .of_silent (fun _ => rfl) fun _ _ => rfl
  create _ _ _ := .of_silent (fun _ => rfl) fun _ _ => rfl
  print := oblivious_print
  returned := .returned

theorem oblivious_callWithin (limit depth : Nat) (f : Value) (args : List Value) :
    Oblivious (callWithin limit depth f args) :=
  @callWithin_congr _ oblivious_compatible limit limit (fun _ _ _ => .throw _) depth depth
    (Nat.le_refl depth) f args

theorem oblivious_evalAll (limit depth : Nat) (stmts : List Stmt) (scope : ScopeId)
    (last : Option Value) :
    Oblivious (Stmt.evalAll (callWithin limit depth) scope last stmts) :=
  @Stmt.evalAll_congr _ _ (callWithin limit depth) oblivious_compatible
    (oblivious_callWithin limit depth) stmts scope last

/-! ### Programs and sessions -/

namespace Console

theorem oblivious_write (text : String) : Oblivious (write text) :=
  .onSink_write text id id id

theorem oblivious_writeLine (text : String) : Oblivious (writeLine text) :=
  oblivious_write (text ++ "\n")

theorem oblivious_showAll (diagnostics : List Diagnostic) : Oblivious (showAll diagnostics) := by
  induction diagnostics with
  | nil => exact .pure ()
  | cons diagnostic diagnostics ih => exact (oblivious_writeLine _).bind fun _ => ih

theorem oblivious_report (outcome : Outcome) : Oblivious (report outcome) := by
  unfold report
  split
  · exact (oblivious_writeLine _).bind fun _ => .pure _
  · exact .pure _
  · exact (oblivious_writeLine _).bind fun _ => .pure _
  · exact .pure _

theorem oblivious_run (limit : Nat) (program : Program) : Oblivious (run limit program) := by
  have heval := oblivious_evalAll limit limit program World.global none
  have hrun (world : World) : final (run limit program world) =
      final (Stmt.evalAll (callWithin limit limit) World.global none program world) :=
    Outcome.ofResult_snd _
  refine ⟨fun world => ?_, fun {world} hcap => ?_, fun before {world} hcap => ?_⟩
  · rw [hrun]
    exact heval.grows world
  · rw [hrun]
    exact heval.unlimited hcap
  · rw [run, run, Program.run, Program.run, Program.runIn, Program.runIn, heval.behind before hcap,
      Outcome.ofResult_mapFinal]
    rfl

theorem oblivious_runSource (limit : Nat) (file source : String) :
    Oblivious (runSource limit file source) := by
  unfold runSource
  split
  · exact (oblivious_run limit _).bind fun _ => oblivious_report _
  · exact (oblivious_showAll _).bind fun _ => .pure _

end Console

namespace Repl

theorem oblivious_step (settings : Settings) (line : List UInt8) :
    Oblivious (step settings line) := by
  unfold step
  split
  · exact Console.oblivious_runSource _ _ _
  · exact .throw _

theorem oblivious_loop (settings : Settings) (lines : List (List UInt8)) :
    Oblivious (loop settings lines) := by
  induction lines with
  | nil => exact (Console.oblivious_write _).bind fun _ => .pure _
  | cons line lines ih =>
    refine (Console.oblivious_write _).bind fun _ => (oblivious_step settings line).bind ?_
    intro code?
    cases code? with
    | some code => exact .pure _
    | none => exact ih

end Repl

end Tang
