import Tang.Proofs.Course.Adequacy
import Tang.Proofs.Course.Invariant

/-! Builtin functions are reached by name only. In a session whose programs do not name a builtin
function, no value has it, neither in a scope nor while it is computed with, and it is never called.
So programs that name neither `print` nor `panic` write nothing, and programs that name neither
`exit` nor `panic` do not exit. -/

namespace Tang

/-- None of the builtin functions is named. Only expressions name them: a binding or a parameter may
have the same name. -/
def Rule.avoiding (names : Set Builtin) : Rule where
  expr e := ∀ which ∈ names, e ≠ .var which.name
  stmt _ := True

theorem Rule.not_permits_avoiding {names : Set Builtin} {which : Builtin} (h : which ∈ names) :
    ¬ (Rule.avoiding names).Permits which :=
  fun hpermits => hpermits which h rfl

namespace Course

variable {m : Moment}

theorem task_of_outcome? {code : Int32} (h : m.outcome? = some (.exit code)) :
    m.task = .signal (.exit code) := by
  obtain ⟨task, waiting, world, pending⟩ := m
  unfold Moment.outcome? at h
  split at h
  · cases h
  · next s _ _ heq =>
    cases heq
    cases s with
    | ret | error => cases h
    | exit =>
      cases h
      rfl
  · cases h

/-! ### Moments under a rule -/

section Avoiding

variable {names : Set Builtin} (h : m.Admitted (.avoiding names))

include h

theorem not_has_of_shows {value : Value} (hv : m.Shows value) {which : Builtin}
    (hwhich : which ∈ names) : ¬ value.Has (.builtin which) :=
  fun hhas => Rule.not_permits_avoiding hwhich (h.shows hv _ hhas)

theorem task_ne_call {which : Builtin} (hwhich : which ∈ names) (args : List Value) :
    m.task ≠ .call (.builtin which) args := by
  intro htask
  have hv : m.Shows (.builtin which) := .inr (by simp [Moment.values, htask, Task.values])
  exact not_has_of_shows h hv hwhich .builtin

theorem task_ne_exit (hexit : .exit ∈ names) (hpanic : .panic ∈ names) (code : Int32) :
    m.task ≠ .signal (.exit code) := by
  intro htask
  have hsignal := h.task
  rw [htask] at hsignal
  exact hsignal.elim (Rule.not_permits_avoiding hexit) (Rule.not_permits_avoiding hpanic)

end Avoiding

end Course

/-! ### Sessions -/

open Course

/-- Let no program of a session name any of the builtin functions. At every moment, no value that is
bound in a scope or computed with has one of them, and none is called. So none is in a value that a
program comes to; if `print` and `panic` are among them, then nothing is written, and if `exit` and
`panic` are, then no program exits. -/
theorem Builtin.reached_by_name (limit : Nat) (capacity : Option Nat) (created : Nat)
    (programs : List Program) (names : Set Builtin)
    (hnames : ∀ program ∈ programs, Stmt.ObeyAll (.avoiding names) program) :
    let world : World := .initial capacity created
    (∀ ended, ended ∈ Program.session limit programs world ↔
      ∃ m, Steps limit (.begin programs world) m ∧ m.pending.length < programs.length ∧
        m.outcome? = some ended.1 ∧ m.world = ended.2) ∧
    (∀ m, Steps limit (.begin programs world) m → ∀ which ∈ names,
      (∀ value, m.Shows value → ¬ value.Has (.builtin which)) ∧
      (∀ args, m.task ≠ .call (.builtin which) args)) ∧
    (∀ ended ∈ Program.session limit programs world,
      (∀ which ∈ names, ∀ value, ended.1 = .value (some value) → ¬ value.Has (.builtin which)) ∧
      (.print ∈ names → .panic ∈ names → ended.2.sink = .empty capacity) ∧
      (.exit ∈ names → .panic ∈ names → ∀ code, ended.1 ≠ .exit code)) := by
  intro world
  have hbegin := admitted_begin capacity created hnames
  refine ⟨mem_session_iff limit programs world, ?_, ?_⟩
  · intro m hm which hwhich
    have hadmitted := (hbegin.steps hm).admitted
    exact ⟨fun value hv => not_has_of_shows hadmitted hv hwhich, task_ne_call hadmitted hwhich⟩
  · intro ended hended
    obtain ⟨m, hm, -, houtcome, hworld⟩ := (mem_session_iff ..).1 hended
    obtain ⟨hfollows, hadmitted⟩ := hbegin.steps hm
    refine ⟨?_, ?_, ?_⟩
    · intro which hwhich value hvalue
      exact not_has_of_shows hadmitted (shows_of_outcome? (hvalue ▸ houtcome)) hwhich
    · intro hprint hpanic
      rw [← hworld]
      exact hfollows.sink.resolve_right fun hpermits =>
        hpermits.elim (Rule.not_permits_avoiding hprint) (Rule.not_permits_avoiding hpanic)
    · intro hexit hpanic code hcode
      exact task_ne_exit hadmitted hexit hpanic code (task_of_outcome? (hcode ▸ houtcome))

/-- A program that puts `len` into a list, calls it from there and binds the names `print` and
`exit` without using them. -/
def Program.counting : Program :=
  [.declare "xs" (.list [.var "len"]), .declare "print" (.index (.var "xs") (.int 0)),
    .expr (.call (.fn ["exit"] [.ret (some (.call (.index (.var "xs") (.int 0)) [.str "ab"]))])
      [.int 1])]

/-- It writes nothing and does not exit, and its value has no builtin function but `len`. -/
theorem Builtin.reached_by_name_counting :
    let names : Set Builtin := fun which => which ≠ .len
    let ended := Program.counting.run 1 (.initial (some 0) 0)
    Stmt.ObeyAll (.avoiding names) Program.counting ∧
      (∀ which ∈ names, ∀ value, ended.1 = .value (some value) → ¬ value.Has (.builtin which)) ∧
      ended.2.sink = .empty (some 0) ∧ ∀ code, ended.1 ≠ .exit code := by
  intro names ended
  have hobeys : Stmt.ObeyAll (.avoiding names) Program.counting := by
    have hlen : ∀ which ∈ names, "len" ≠ which.name := by
      intro which hwhich
      cases which with
      | len => exact absurd rfl hwhich
      | _ => simp [name]
    have hxs : ∀ which ∈ names, "xs" ≠ which.name := by
      intro which _
      cases which <;> simp [name]
    simpa [Program.counting, Stmt.ObeyAll, Stmt.Obeys, Expr.ObeyAll, Expr.Obeys, Rule.avoiding]
      using ⟨hlen, hxs⟩
  have hmem : ended ∈ Program.session 1 [Program.counting] (.initial (some 0) 0) :=
    List.mem_cons_self
  obtain ⟨-, -, hended⟩ := Builtin.reached_by_name 1 (some 0) 0 [Program.counting] names
    (by simpa using hobeys)
  obtain ⟨hvalue, hsink, hexit⟩ := hended ended hmem
  exact ⟨hobeys, hvalue, hsink nofun nofun, hexit nofun nofun⟩

end Tang
