import Mathlib.Tactic.Common
import Tang.Proofs.Oblivious

/-! The interactive loop takes its input piece by piece. Behind complete lines it goes on as it
would have gone on without the rest of the input, so what is written for them does not change. A
line that is not a program only has its diagnostics shown: all that comes later is as if the line
were not there. -/

namespace Tang

open Tang.Action (final result mapFinal final_mapFinal result_mapFinal)

/-! ### Lines -/

namespace Repl

/-- The input consists of complete lines. -/
def Complete (input : List UInt8) : Prop :=
  ∀ byte ∈ input.getLast?, byte = newline

instance (input : List UInt8) : Decidable (Complete input) :=
  inferInstanceAs (Decidable (∀ byte ∈ input.getLast?, byte = newline))

theorem lines_eq_nil_iff {bytes : List UInt8} : lines bytes = [] ↔ bytes = [] := by
  cases bytes with
  | nil => simp [lines]
  | cons byte bytes =>
    rw [lines]
    split
    · simp
    · split <;> simp

/-- Behind complete lines the next line begins. -/
theorem lines_append {u : List UInt8} (hu : Complete u) (v : List UInt8) :
    lines (u ++ v) = lines u ++ lines v := by
  induction u with
  | nil => rfl
  | cons byte u ih =>
    rw [List.cons_append, lines, lines]
    by_cases hnil : u = []
    · obtain rfl := hnil
      have hbyte : byte = newline := hu byte rfl
      rw [if_pos hbyte, if_pos hbyte]
      rfl
    · have hcomplete : Complete u := by
        intro last hlast
        exact hu last (by rwa [List.getLast?_cons_of_ne_nil hnil])
      rw [ih hcomplete]
      split
      · rfl
      · cases hlines : lines u with
        | nil => exact absurd (lines_eq_nil_iff.1 hlines) hnil
        | cons line rest => rfl

theorem lines_of_newline {w : List UInt8} (hw : newline ∉ w) :
    lines (w ++ [newline]) = [w ++ [newline]] := by
  induction w with
  | nil => rfl
  | cons byte w ih =>
    have hbyte : byte ≠ newline := fun h => hw (h ▸ List.mem_cons_self)
    rw [List.cons_append, lines, if_neg hbyte, ih fun h => hw (List.mem_cons_of_mem _ h)]

theorem chomp_append_newline {w : List UInt8} (hw : w.getLast? ≠ some carriageReturn) :
    chomp (w ++ [newline]) = w := by
  have hreverse : (w ++ [newline]).reverse = newline :: w.reverse := List.reverse_concat ..
  rw [chomp, hreverse]
  cases hrest : w.reverse with
  | nil => simp_all
  | cons before rest =>
    have hbefore : before ≠ carriageReturn := by
      rintro rfl
      exact hw (by rw [List.getLast?_eq_head?_reverse, hrest]; rfl)
    simp only [if_neg hbefore, if_true]
    rw [← hrest, List.reverse_reverse]

theorem decode_append_newline {w : ByteArray} {text : String}
    (hw : w.data.toList.getLast? ≠ some carriageReturn) (htext : String.fromUTF8? w = some text) :
    decode (w.data.toList ++ [newline]) = .ok text := by
  rw [decode, chomp_append_newline hw, Array.toArray_toList, htext]

end Repl

/-! ### Going on behind a prompt -/

namespace Repl

variable (settings : Settings)

/-- Goes on with the lines of the input when the prompt is written. -/
def answer : List (List UInt8) → Console (Option Int32)
  | [] => return none
  | line :: lines => do
    match ← step settings line with
    | some code => return some code
    | none => loop settings lines

theorem loop_eq (lines : List (List UInt8)) :
    loop settings lines = Console.write settings.prompt >>= fun _ => answer settings lines := by
  cases lines <;> rfl

theorem oblivious_answer (lines : List (List UInt8)) : Oblivious (answer settings lines) := by
  cases lines with
  | nil => exact .pure _
  | cons line lines =>
    refine (oblivious_step settings line).bind fun code? => ?_
    cases code? with
    | some code => exact .pure _
    | none => exact oblivious_loop settings lines

/-- The last prompt for the first lines is the prompt for the next one. -/
theorem loop_append (lines lines' : List (List UInt8)) :
    loop settings (lines ++ lines') = loop settings lines >>= fun
      | some code => pure (some code)
      | none => answer settings lines' := by
  induction lines with
  | nil =>
    rw [List.nil_append, loop_eq, loop_eq, bind_assoc]
    rfl
  | cons line lines ih =>
    rw [List.cons_append, loop, loop, bind_assoc]
    congr 1
    funext _
    rw [bind_assoc]
    congr 1
    funext code?
    cases code? with
    | some code => rfl
    | none => exact ih

end Repl

/-! ### Rejected lines -/

namespace Console

/-- Diagnostics as they are shown: each on a line of its own, behind a tab. -/
def shown (diagnostics : List Diagnostic) : String :=
  String.join (diagnostics.map fun diagnostic => "\t" ++ diagnostic.render ++ "\n")

variable {world : World}

theorem write_of_unlimited (hcap : world.sink.capacity = none) (text : String) :
    write text world = .ok () (world.adding text) := by
  obtain ⟨scopes, created, written, capacity⟩ := world
  obtain rfl : capacity = none := hcap
  exact Action.onSink_of_ok Sink.write_unlimited

theorem showAll_of_unlimited (hcap : world.sink.capacity = none) (diagnostics : List Diagnostic) :
    showAll diagnostics world = .ok () (world.adding (shown diagnostics)) := by
  induction diagnostics generalizing world with
  | nil => exact congrArg _ world.adding_empty.symm
  | cons diagnostic diagnostics ih =>
    have hwrite : writeLine ("\t" ++ diagnostic.render) world =
        .ok () (world.adding ("\t" ++ diagnostic.render ++ "\n")) :=
      write_of_unlimited hcap _
    have hcap' : (world.adding ("\t" ++ diagnostic.render ++ "\n")).sink.capacity = none := hcap
    rw [showAll, Action.bind_of_ok hwrite, ih hcap', World.adding_adding, shown, shown,
      List.map_cons, String.join_cons]

theorem runSource_of_rejected (hcap : world.sink.capacity = none) {limit : Nat}
    {file source : String} {diagnostics : List Diagnostic}
    (h : Program.parse file source = .error diagnostics) :
    runSource limit file source world = .ok none (world.adding (shown diagnostics)) := by
  have hshow := showAll_of_unlimited hcap diagnostics
  simp only [runSource, h]
  rw [Action.bind_of_ok hshow]
  rfl

end Console

namespace Repl

variable {settings : Settings} {world : World}

/-- Behind a rejected line and its diagnostics there is one more prompt. -/
theorem answer_cons_of_rejected (hcap : world.sink.capacity = none) {line : List UInt8}
    {text : String} {diagnostics : List Diagnostic} (hline : decode line = .ok text)
    (htext : Program.parse inputName text = .error diagnostics) (lines : List (List UInt8)) :
    answer settings (line :: lines) world =
      answer settings lines (world.adding (Console.shown diagnostics ++ settings.prompt)) := by
  have hstep : step settings line world =
      .ok none (world.adding (Console.shown diagnostics)) := by
    rw [step, hline]
    exact Console.runSource_of_rejected hcap htext
  have hcap' : (world.adding (Console.shown diagnostics)).sink.capacity = none := hcap
  rw [answer, Action.bind_of_ok hstep]
  change loop settings lines _ = _
  rw [loop_eq, Action.bind_of_ok (Console.write_of_unlimited hcap' settings.prompt),
    World.adding_adding]

/-! ### The whole input -/

theorem run_append_of_done {u : ByteArray} (hu : Complete u.data.toList) (v : ByteArray)
    (h : result (run settings u world) ≠ .ok none) :
    run settings (u ++ v) world = run settings u world := by
  rw [run, ByteArray.toList_data_append, lines_append hu, loop_append]
  rw [run] at h ⊢
  cases hloop : loop settings (lines u.data.toList) world with
  | error error world' => exact Action.bind_of_error hloop
  | ok code? world' =>
    rw [hloop] at h
    rw [Action.bind_of_ok hloop]
    cases code? with
    | some code => rfl
    | none => exact absurd rfl h

theorem run_append_of_waiting {u : ByteArray} (hu : Complete u.data.toList) (v : ByteArray)
    (h : result (run settings u world) = .ok none) :
    run settings (u ++ v) world =
      answer settings (lines v.data.toList) (final (run settings u world)) := by
  rw [run, ByteArray.toList_data_append, lines_append hu, loop_append]
  rw [run] at h ⊢
  cases hloop : loop settings (lines u.data.toList) world with
  | error error world' =>
    rw [hloop] at h
    cases h
  | ok code? world' =>
    rw [hloop] at h
    rw [Action.bind_of_ok hloop]
    cases code? with
    | some code => cases h
    | none => rfl

/-- Complete lines are settled before the rest of the input is looked at. If they end the session,
the rest makes no difference, and otherwise it only adds to the output. A line that is not a program
adds its diagnostics and a prompt, and leaves all that follows as it is. -/
theorem run_append_inert (settings : Settings) (world : World) (u v : ByteArray)
    (hu : Complete u.data.toList) :
    (result (run settings u world) ≠ .ok none →
      run settings (u ++ v) world = run settings u world) ∧
    (result (run settings u world) = .ok none →
      (final (run settings u world)).Grows (final (run settings (u ++ v) world)) ∧
      ∀ (w : ByteArray) (text : String) (diagnostics : List Diagnostic),
        newline ∉ w.data.toList → w.data.toList.getLast? ≠ some carriageReturn →
        String.fromUTF8? w = some text → Program.parse inputName text = .error diagnostics →
        world.sink.capacity = none →
          result (run settings (u ++ w ++ "\n".toUTF8 ++ v) world) =
            result (run settings (u ++ v) world) ∧
          ∃ rest,
            (final (run settings (u ++ v) world)).output =
              (final (run settings u world)).output ++ rest ∧
            (final (run settings (u ++ w ++ "\n".toUTF8 ++ v) world)).output =
              (final (run settings u world)).output ++
                (Console.shown diagnostics ++ settings.prompt).toUTF8 ++ rest) := by
  refine ⟨run_append_of_done hu v, fun hwaiting => ⟨?_, ?_⟩⟩
  · rw [run_append_of_waiting hu v hwaiting]
    exact (oblivious_answer settings _).grows _
  · intro w text diagnostics hnewline hreturn htext hparse hcap
    have hcap' : (final (run settings u world)).sink.capacity = none :=
      (oblivious_loop settings _).unlimited hcap
    have hlines : lines (w ++ "\n".toUTF8 ++ v).data.toList =
        (w.data.toList ++ [newline]) :: lines v.data.toList := by
      have hcomplete : Complete (w.data.toList ++ [newline]) := by
        simp [Complete]
      rw [ByteArray.toList_data_append, ByteArray.toList_data_append]
      exact (lines_append hcomplete _).trans (by rw [lines_of_newline hnewline]; rfl)
    rw [ByteArray.append_assoc, ByteArray.append_assoc, ← ByteArray.append_assoc (a := w),
      run_append_of_waiting hu _ hwaiting, run_append_of_waiting hu v hwaiting, hlines,
      answer_cons_of_rejected hcap' (decode_append_newline hreturn htext) hparse]
    exact (oblivious_answer settings _).adding _ hcap'

/-- Between a declaration and the use of its name stands a line with two mistakes. -/
theorem run_append_inert_twoMistakes :
    let u := "x := 1\n".toUTF8
    let w := "x := ;)".toUTF8
    let v := "x\n".toUTF8
    let diagnostics : List Diagnostic :=
      [.syntactic "expected an expression but found ';'" (some ⟨"<stdin>", 1⟩),
        .syntactic "expected an expression but found ')'" (some ⟨"<stdin>", 1⟩)]
    let world := World.initial none 0
    Complete u.data.toList ∧ result (run .default u world) = .ok none ∧
      newline ∉ w.data.toList ∧ w.data.toList.getLast? ≠ some carriageReturn ∧
      String.fromUTF8? w = some "x := ;)" ∧
      Program.parse inputName "x := ;)" = .error diagnostics ∧
      ∃ rest,
        (final (run .default (u ++ v) world)).output =
          (final (run .default u world)).output ++ rest ∧
        (final (run .default (u ++ w ++ "\n".toUTF8 ++ v) world)).output =
          (final (run .default u world)).output ++
            (Console.shown diagnostics ++ ">>> ").toUTF8 ++ rest := by
  intro u w v diagnostics world
  have hcomplete : Complete u.data.toList := by decide +kernel
  have hwaiting : result (run .default u world) = .ok none := by decide +kernel
  have hnewline : newline ∉ w.data.toList := by decide +kernel
  have hreturn : w.data.toList.getLast? ≠ some carriageReturn := by decide +kernel
  have htext : String.fromUTF8? w = some "x := ;)" := dif_pos (String.isValidUTF8 _)
  have hparse : Program.parse inputName "x := ;)" = .error diagnostics := by decide +kernel
  have hinert := ((run_append_inert .default world u v hcomplete).2 hwaiting).2 w _ _ hnewline
    hreturn htext hparse rfl
  exact ⟨hcomplete, hwaiting, hnewline, hreturn, htext, hparse, hinert.2⟩

end Repl

end Tang
