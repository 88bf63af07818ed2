import Tang.Proofs.Growth
import Tang.Proofs.Truncation
import Tang.Repl
import Tang.Script

/-! Programs and sessions whose output is bounded. Inside a program the write that does not fit is
an error of the program, which nothing catches; outside it ends the session. Between the two stands
the report of the program's outcome, which cannot be written either. -/

namespace Tang

open Tang.Action (final result mapFinal final_ok final_error final_mapFinal result_mapFinal)

/-! ### Evaluation -/

namespace Signal

/-- The signal with which a write ends that does not fit. -/
def sinkFull : Signal :=
  .error (.writeFailed .sinkFull)

end Signal

section Evaluation

variable {bound : Nat}

theorem truncates_print (text : String) :
    Truncates Signal.sinkFull bound (World.onSink (Builtin.writeLine text)) := by
  have hwrite (sink sink' : Sink) : (Sink.write (text ++ "\n") sink = .ok () sink' →
        Builtin.writeLine text sink = .ok () sink') ∧
      (Sink.write (text ++ "\n") sink = .error .sinkFull sink' →
        Builtin.writeLine text sink = .error Signal.sinkFull sink') := by
    constructor <;> intro h <;> simp only [Builtin.writeLine, Sink.writeLine, h, Signal.sinkFull]
  exact .onSink_write _ (fun sink sink' => (hwrite sink sink').1) fun sink sink' =>
    (hwrite sink sink').2

/-- What a name stands for is decided by the scopes alone. -/
theorem lookup_eq (scope : ScopeId) (name : String) (world : World) :
    (∃ value, ∀ sink, Eval.lookup scope name { world with sink := sink } =
      .ok value { world with sink := sink }) ∨
    ∃ signal, ∀ sink, Eval.lookup scope name { world with sink := sink } =
      .error signal { world with sink := sink } := by
  have hget (sink : Sink) : (get : Eval World) { world with sink := sink } =
      .ok { world with sink := sink } { world with sink := sink } := rfl
  cases hv : world.scopes.get? scope name with
  | some value =>
    refine .inl ⟨value, fun sink => ?_⟩
    rw [Eval.lookup, Action.bind_of_ok (hget sink)]
    simp only [hv]
    rfl
  | none =>
    cases hb : Builtin.ofName? name with
    | some builtin =>
      refine .inl ⟨.builtin builtin, fun sink => ?_⟩
      rw [Eval.lookup, Action.bind_of_ok (hget sink)]
      simp only [hv, hb]
      rfl
    | none =>
      refine .inr ⟨.error (.unboundName name), fun sink => ?_⟩
      rw [Eval.lookup, Action.bind_of_ok (hget sink)]
      simp only [hv, hb]
      rfl

theorem truncates_lookup (scope : ScopeId) (name : String) :
    Truncates Signal.sinkFull bound (Eval.lookup scope name) := by
  refine .of_silent (fun world => ?_) fun world => ?_
  · rcases lookup_eq scope name world with ⟨value, h⟩ | ⟨signal, h⟩
    · rw [h world.sink, final_ok]
    · rw [h world.sink, final_error]
  · rcases lookup_eq scope name world with ⟨value, h⟩ | ⟨signal, h⟩
    · rw [World.bounded, h, h world.sink, mapFinal, World.bounded]
    · rw [World.bounded, h, h world.sink, mapFinal, World.bounded]

theorem truncates_congruence :
    Congruence fun _ x _ => Truncates Signal.sinkFull bound x where
  pure := .pure
  throw := .throw
  bind := .bind
  lookup := truncates_lookup
  declare _ _ _ := .of_silent (fun _ => rfl) fun _ => rfl
  assign _ _ _ := .of_silent (fun _ => rfl) fun _ => rfl
  enclose _ := .of_silent (fun _ => rfl) fun _ => rfl
  create _ _ _ := .of_silent (fun _ => rfl) fun _ => rfl
  print := truncates_print

/-- A `return` at the end of a function is not the failure of a write. -/
theorem Truncates.returned {body : Eval Value} (h : Truncates Signal.sinkFull bound body) :
    Truncates Signal.sinkFull bound (Eval.returned body) := by
  have hfinal (world : World) : final (Eval.returned body world) = final (body world) := by
    unfold Eval.returned
    split <;> simp only [*, final_ok, final_error]
  refine ⟨fun {world} hcap => ?_, fun {world} hcap hle => ?_, fun {world} hcap hsize hlt => ?_⟩
  · rw [hfinal]
    exact h.grows hcap
  · rw [hfinal] at hle
    have hsame := h.same hcap hle
    simp only [Eval.returned, hsame]
    rcases body world with ⟨value, world₁⟩ | ⟨signal, world₁⟩
    · rfl
    · cases signal <;> rfl
  · rw [hfinal] at hlt ⊢
    obtain ⟨world', hbody, hsink⟩ := h.cut hcap hsize hlt
    exact ⟨world', by simp only [Eval.returned, hbody, Signal.sinkFull], hsink⟩

theorem truncates_compatible : Compatible fun _ x _ => Truncates Signal.sinkFull bound x :=
  truncates_congruence.compatible .returned

theorem truncates_callWithin (limit depth : Nat) (f : Value) (args : List Value) :
    Truncates Signal.sinkFull bound (callWithin limit depth f args) :=
  @callWithin_congr _ truncates_compatible limit limit (fun _ _ _ => .throw _) depth depth
    (Nat.le_refl depth) f args

theorem truncates_evalAll (limit depth : Nat) (stmts : List Stmt) (scope : ScopeId)
    (last : Option Value) :
    Truncates Signal.sinkFull bound (Stmt.evalAll (callWithin limit depth) scope last stmts) :=
  @Stmt.evalAll_congr _ _ (callWithin limit depth) truncates_compatible
    (truncates_callWithin limit depth) stmts scope last

end Evaluation

/-! ### Programs -/

section Programs

variable {bound limit : Nat} {program : Program} {world : World}

theorem Outcome.ofResult_mapFinal (f : World → World)
    (result : EStateM.Result Signal World (Option Value)) :
    ofResult (mapFinal f result) = ((ofResult result).1, f (ofResult result).2) := by
  rcases result with ⟨last, world⟩ | ⟨signal, world⟩
  · rfl
  · cases signal <;> rfl

theorem Program.truncates (limit : Nat) (program : Program) : Truncates Signal.sinkFull bound
    (Stmt.evalAll (callWithin limit limit) World.global none program) :=
  truncates_evalAll limit limit program World.global none

theorem Program.run_grows (hcap : world.sink.capacity = none) :
    (program.run limit world).2.sink.capacity = none ∧
      ∃ more, (program.run limit world).2.output = world.output ++ more := by
  have h : Truncates Signal.sinkFull 0 _ := program.truncates limit
  rw [run, runIn, Outcome.ofResult_snd]
  exact h.grows hcap

theorem Program.run_of_fits (hcap : world.sink.capacity = none)
    (hle : (program.run limit world).2.output.size ≤ bound) :
    program.run limit (world.bounded bound) =
      ((program.run limit world).1, (program.run limit world).2.bounded bound) := by
  rw [run, runIn, Outcome.ofResult_snd] at hle
  rw [run, runIn, (program.truncates limit).same hcap hle, Outcome.ofResult_mapFinal]
  rfl

theorem Program.run_of_overflows (hcap : world.sink.capacity = none)
    (hsize : world.output.size ≤ bound) (hlt : bound < (program.run limit world).2.output.size) :
    ∃ world', program.run limit (world.bounded bound) =
        (.error (.writeFailed .sinkFull), world') ∧
      world'.sink = ⟨(program.run limit world).2.output.extract 0 bound, some bound⟩ := by
  rw [run, runIn, Outcome.ofResult_snd] at hlt
  obtain ⟨world', hrun, hsink⟩ := (program.truncates limit).cut hcap hsize hlt
  refine ⟨world', ?_, ?_⟩
  · rw [run, runIn, hrun, Signal.sinkFull, Outcome.ofResult]
  · rw [hsink, run, runIn, Outcome.ofResult_snd]

end Programs

/-! ### The console -/

namespace Console

variable {bound : Nat}

theorem truncates_write (text : String) : Truncates IoError.sinkFull bound (write text) :=
  .onSink_write _ (fun _ _ h => h) fun _ _ h => h

theorem truncates_writeLine (text : String) : Truncates IoError.sinkFull bound (writeLine text) :=
  truncates_write (text ++ "\n")

theorem truncates_showAll (diagnostics : List Diagnostic) :
    Truncates IoError.sinkFull bound (showAll diagnostics) := by
  induction diagnostics with
  | nil => exact .pure ()
  | cons diagnostic diagnostics ih => exact (truncates_writeLine _).bind fun _ => ih

theorem truncates_report (outcome : Outcome) :
    Truncates IoError.sinkFull bound (report outcome) := by
  unfold report
  split
  · exact (truncates_writeLine _).bind fun _ => .pure _
  · exact .pure _
  · exact (truncates_writeLine _).bind fun _ => .pure _
  · exact .pure _

/-- No line fits in a sink that is full. -/
theorem writeLine_of_full (text : String) {world : World} {written : ByteArray}
    (hsink : world.sink = ⟨written, some bound⟩) (hsize : written.size = bound) :
    writeLine text world = .error .sinkFull world := by
  have hlt : bound < (written ++ (text ++ "\n").toUTF8).size := by
    have hline : 0 < (text ++ "\n").toUTF8.size := by
      rw [String.toUTF8_eq_toByteArray, String.size_toByteArray, String.utf8ByteSize_append]
      exact Nat.lt_add_left _ (by decide)
    rw [ByteArray.size_append]
    omega
  have hw := Sink.write_of_overflows (Nat.le_of_eq hsize) hlt
  rw [extract_append_of_le (Nat.le_of_eq hsize.symm), extract_of_size_le (Nat.le_of_eq hsize)] at hw
  have hworld : { world with sink := ⟨written, some bound⟩ } = world := by rw [← hsink]
  rw [writeLine, Action.onSink_of_error (by rw [hsink]; exact hw), hworld]

/-- A write that fails inside a program is an error of the program, and its report is then the write
that fails outside. -/
theorem truncates_run_report (limit : Nat) (program : Program) :
    Truncates IoError.sinkFull bound (run limit program >>= report) := by
  have hrun (world : World) : (run limit program >>= report) world =
      report (program.run limit world).1 (program.run limit world).2 := rfl
  have hreport (world : World) :
      Truncates IoError.sinkFull bound (report (program.run limit world).1) := truncates_report _
  refine ⟨fun {world} hcap => ?_, fun {world} hcap hle => ?_, fun {world} hcap hsize hlt => ?_⟩
  · rw [hrun]
    obtain ⟨hcap₁, more, hmore⟩ := Program.run_grows hcap
    obtain ⟨hcap₂, more', hmore'⟩ := (hreport world).grows hcap₁
    exact ⟨hcap₂, more ++ more', by rw [hmore', hmore, ByteArray.append_assoc]⟩
  · rw [hrun] at hle
    obtain ⟨hcap₁, -⟩ := Program.run_grows hcap
    obtain ⟨-, more, hmore⟩ := (hreport world).grows hcap₁
    have hle₁ : (program.run limit world).2.output.size ≤ bound := by
      rw [hmore, ByteArray.size_append] at hle
      omega
    rw [hrun, hrun, Program.run_of_fits hcap hle₁]
    exact (hreport world).same hcap₁ hle
  · rw [hrun] at hlt
    obtain ⟨hcap₁, -⟩ := Program.run_grows hcap
    rw [hrun, hrun]
    by_cases hfit : (program.run limit world).2.output.size ≤ bound
    · rw [Program.run_of_fits hcap hfit]
      exact (hreport world).cut hcap₁ hfit hlt
    · have hover := Nat.lt_of_not_le hfit
      obtain ⟨world', hrun', hsink⟩ := Program.run_of_overflows hcap hsize hover
      obtain ⟨-, more, hmore⟩ := (hreport world).grows hcap₁
      have hfull (text : String) := writeLine_of_full text hsink (by simp; omega)
      refine ⟨world', ?_, ?_⟩
      · rw [hrun']
        exact Action.bind_of_error (hfull _)
      · rw [hsink, hmore, extract_append_of_le (Nat.le_of_lt hover)]

theorem truncates_runSource (limit : Nat) (file source : String) :
    Truncates IoError.sinkFull bound (runSource limit file source) := by
  unfold runSource
  split
  · exact truncates_run_report limit _
  · exact (truncates_showAll _).bind fun _ => .pure _

end Console

section Sessions

variable {bound : Nat}

theorem Repl.truncates_step (settings : Settings) (line : List UInt8) :
    Truncates IoError.sinkFull bound (step settings line) := by
  unfold step
  split
  · exact Console.truncates_runSource _ _ _
  · exact .throw _

theorem Repl.truncates_loop (settings : Settings) (lines : List (List UInt8)) :
    Truncates IoError.sinkFull bound (loop settings lines) := by
  induction lines with
  | nil => exact (Console.truncates_write _).bind fun _ => .pure _
  | cons line lines ih =>
    refine (Console.truncates_write _).bind fun _ =>
      (truncates_step settings line).bind fun code? => ?_
    cases code? with
    | some code => exact .pure _
    | none => exact ih

theorem Script.truncates (settings : Settings) (path : String)
    (content : Except ReadError ByteArray) :
    Truncates IoError.sinkFull bound (run settings path content) := by
  unfold run
  split
  · exact Console.truncates_runSource _ _ _
  · exact (Console.truncates_writeLine _).bind fun _ => .pure _

/-- Run in a new world with at most `bound` bytes of output, the action gives the result and the
output of an unlimited run if this output fits, and else fails after the first `bound` bytes. -/
def Console.OnlyTruncated (bound created : Nat) (action : Console (Option Int32)) : Prop :=
  let free := action (World.initial none created)
  let tight := action (World.initial (some bound) created)
  ((final free).output.size ≤ bound →
    result tight = result free ∧ (final tight).output = (final free).output) ∧
  (bound < (final free).output.size →
    (final tight).output = (final free).output.extract 0 bound ∧
      ∃ error, result tight = .error error ∧ error.message = "sink full")

theorem Console.onlyTruncated {action : Console (Option Int32)} {created : Nat}
    (h : Truncates IoError.sinkFull bound action) : OnlyTruncated bound created action := by
  refine ⟨fun hle => ?_, fun hlt => ?_⟩
  · rw [World.bounded_initial, h.same rfl hle, result_mapFinal, final_mapFinal]
    exact ⟨rfl, rfl⟩
  · have hsize : (World.initial none created).output.size ≤ bound := Nat.zero_le bound
    obtain ⟨world', hrun, hsink⟩ := h.cut rfl hsize hlt
    rw [World.bounded_initial, hrun]
    exact ⟨by rw [final_error, World.output, hsink], .sinkFull, rfl, rfl⟩

/-- A bound on the output only truncates. If the output of an unlimited run fits, a run under the
bound does the same. If not, its output is the first `bound` bytes of that one, and it fails: a
program with the error of the write, also where it panics, and a session or the run of a file with
the failure of the sink itself. -/
theorem bounded_output_truncates (bound created : Nat) :
    (∀ (limit : Nat) (program : Program),
      let free := program.run limit (World.initial none created)
      let tight := program.run limit (World.initial (some bound) created)
      (free.2.output.size ≤ bound →
        tight.1 = free.1 ∧ tight.2.output = free.2.output ∧ tight.2.scopes = free.2.scopes) ∧
      (bound < free.2.output.size →
        tight.2.output = free.2.output.extract 0 bound ∧
          ∃ cause, tight.1 = .error cause ∧
            cause.message = "failed to write output: sink full")) ∧
    (∀ settings input, Console.OnlyTruncated bound created (Repl.run settings input)) ∧
    ∀ settings path content,
      Console.OnlyTruncated bound created (Script.run settings path content) := by
  refine ⟨fun limit program => ⟨fun hle => ?_, fun hlt => ?_⟩, fun settings input => ?_,
    fun settings path content => ?_⟩
  · rw [World.bounded_initial, Program.run_of_fits rfl hle]
    exact ⟨rfl, rfl, rfl⟩
  · have hsize : (World.initial none created).output.size ≤ bound := Nat.zero_le bound
    obtain ⟨world', hrun, hsink⟩ := Program.run_of_overflows rfl hsize hlt
    rw [World.bounded_initial, hrun]
    exact ⟨by rw [World.output, hsink], .writeFailed .sinkFull, rfl, rfl⟩
  · exact Console.onlyTruncated (Repl.truncates_loop settings _)
  · exact Console.onlyTruncated (Script.truncates settings path content)

/-- A program that calls a builtin function with the integer one. -/
def Program.withOne (name : String) : Program :=
  [.expr (.call (.var name) [.int 1])]

/-- A line that just fits and one of which nothing fits, a panic of which three bytes fit, and a
session that is cut off within a line. -/
theorem bounded_output_truncates_overflows :
    let print (capacity : Option Nat) := (Program.withOne "print").run 1024 (.initial capacity 0)
    let panic (capacity : Option Nat) := (Program.withOne "panic").run 1024 (.initial capacity 0)
    let session (capacity : Option Nat) :=
      Repl.run .default "print(1)\n".toUTF8 (.initial capacity 0)
    let failed (outcome : Outcome) := ∃ cause, outcome = .error cause ∧
      cause.message = "failed to write output: sink full"
    (print (some 2)).1 = (print none).1 ∧ (print (some 2)).2.output = "1\n".toUTF8 ∧
    failed (print (some 0)).1 ∧ (print (some 0)).2.output = .empty ∧
    failed (panic (some 3)).1 ∧ (panic (some 3)).2.output = "PAN".toUTF8 ∧
    (∃ error, result (session (some 5)) = .error error ∧ error.message = "sink full") ∧
      (final (session (some 5))).output = ">>> 1".toUTF8 := by
  intro print panic session failed
  have hprint : (print none).2.output = "1\n".toUTF8 := by decide +kernel
  have hpanic : (panic none).2.output = "PANIC: 1\n".toUTF8 := by decide +kernel
  have hsession : (final (session none)).output = ">>> 1\nnull\n>>> ".toUTF8 := by decide +kernel
  obtain ⟨hsame, hfits, -⟩ := ((bounded_output_truncates 2 0).1 1024 (.withOne "print")).1
    (by rw [hprint]; decide +kernel)
  obtain ⟨hnothing, hfailed⟩ := ((bounded_output_truncates 0 0).1 1024 (.withOne "print")).2
    (by rw [hprint]; decide +kernel)
  obtain ⟨hthree, hpanicked⟩ := ((bounded_output_truncates 3 0).1 1024 (.withOne "panic")).2
    (by rw [hpanic]; decide +kernel)
  obtain ⟨hfive, hended⟩ :=
    ((bounded_output_truncates 5 0).2.1 .default "print(1)\n".toUTF8).2
      (by rw [hsession]; decide +kernel)
  rw [hprint] at hfits hnothing
  rw [hpanic] at hthree
  rw [hsession] at hfive
  exact ⟨hsame, hfits, hfailed, hnothing.trans (by decide +kernel), hpanicked,
    hthree.trans (by decide +kernel), hended, hfive.trans (by decide +kernel)⟩

end Sessions

end Tang
