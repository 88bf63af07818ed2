import Tang.Proofs.Course.Adequacy
import Tang.Proofs.Course.Invariant
import Tang.Proofs.Heap.Frame
import Tang.Proofs.Termination

/-! The scopes of a session are well formed at every moment, whatever its programs come to. Each
scope lies inside an older one and never in another, so that every walk outward ends and names can
be read and bound. Functions are closed over scopes that exist, and each call and each branch opens
a scope of its own. -/

namespace Tang

open Eval

/-! ### Well-formed scopes -/

namespace Scopes

variable {scopes : Scopes} {rule : Rule}

/-- The first scope lies directly inside the second. -/
def Inside (scopes : Scopes) (inner outer : ScopeId) : Prop :=
  ∃ scope, scopes[inner]? = some scope ∧ scope.parent = some outer

theorem Extends.inside {old new : Scopes} (h : old.Extends new) {inner outer : ScopeId}
    (hi : old.Inside inner outer) : new.Inside inner outer := by
  obtain ⟨scope, hscope, hparent⟩ := hi
  obtain ⟨scope', hscope', hparent'⟩ := h inner scope hscope
  exact ⟨scope', hscope', hparent'.trans hparent⟩

theorem inside_enclose (scopes : Scopes) (id : ScopeId) :
    (scopes.enclose id).Inside scopes.size id :=
  ⟨⟨some id, []⟩, by simp [enclose], rfl⟩

/-- Scopes from which every walk outward ends, and in each of which names can be bound. -/
structure WellFormed (scopes : Scopes) : Prop where
  older {inner outer : ScopeId} : scopes.Inside inner outer → outer < inner
  wellFounded : WellFounded fun outer inner => scopes.Inside inner outer
  /-- The walk meets at most `id + 1` scopes. -/
  walk (x : String) (id : ScopeId) :
    Machine.owner? scopes x (id + 1) id = some (scopes.owner? id x)
  declared (x : String) (value : Value) {id : ScopeId} : id < scopes.size →
    (scopes.set id x value).get? id x = some value
  assigned (x : String) (value : Value) {id : ScopeId} : id < scopes.size →
    (scopes.assign id x value).get? id x = some value

theorem get?_of_owner? {id owner : ScopeId} {x : String} {scope : Scope} {value : Value}
    (ho : scopes.owner? id x = some owner) (hs : scopes[owner]? = some scope)
    (hv : scope.get? x = some value) : scopes.get? id x = some value := by
  simp [get?, ho, hs, hv]

theorem getElem?_set_self {id : ScopeId} {scope : Scope} (h : scopes[id]? = some scope) (x : String)
    (value : Value) : (scopes.set id x value)[id]? = some (scope.set x value) := by
  simp [getElem?_set, h]

theorem owner?_of_bound {id : ScopeId} {scope : Scope} {x : String} (h : scopes[id]? = some scope)
    (hx : (scope.get? x).isSome) : scopes.owner? id x = some id := by
  rw [owner?, h]
  simp [hx]

/-- By induction on the walk: the scopes before the owner stay as they are. -/
theorem owner?_set_owner {id owner : ScopeId} {x : String} (h : scopes.owner? id x = some owner)
    (value : Value) : (scopes.set owner x value).owner? id x = some owner := by
  fun_induction owner? scopes id x with
  | case1 => cases h
  | case2 id scope hid hx =>
    cases h
    exact owner?_of_bound (getElem?_set_self hid x value) (by simp [Scope.get?_set])
  | case3 => cases h
  | case4 id scope hid hx parent hp hlt ih =>
    have hne : owner ≠ id := Nat.ne_of_lt (Nat.lt_of_le_of_lt (bound_of_owner? h).1 hlt)
    rw [owner?, getElem?_set, hid]
    simpa [hne, hx, hp, hlt] using ih h
  | case5 => cases h

theorem get?_set_self {id : ScopeId} (hid : id < scopes.size) (x : String) (value : Value) :
    (scopes.set id x value).get? id x = some value := by
  have hset := getElem?_set_self (Array.getElem?_eq_getElem hid) x value
  exact get?_of_owner? (owner?_of_bound hset (by simp [Scope.get?_set])) hset
    (by simp [Scope.get?_set])

theorem get?_assign_self {id : ScopeId} (hid : id < scopes.size) (x : String) (value : Value) :
    (scopes.assign id x value).get? id x = some value := by
  rw [assign]
  cases howner : scopes.owner? id x with
  | none => exact get?_set_self hid x value
  | some owner =>
    obtain ⟨-, scope, hscope, -⟩ := bound_of_owner? howner
    exact get?_of_owner? (owner?_set_owner howner value) (getElem?_set_self hscope x value)
      (by simp [Scope.get?_set])

theorem Sound.wellFormed (h : scopes.Sound rule) : scopes.WellFormed where
  older := fun ⟨_, hscope, hparent⟩ => h.parent_lt hscope hparent
  wellFounded :=
    Subrelation.wf (fun ⟨_, hscope, hparent⟩ => h.parent_lt hscope hparent) Nat.lt_wfRel.wf
  walk x id := Machine.owner?_eq h x id (Nat.lt_succ_self id)
  declared x value _ hid := get?_set_self hid x value
  assigned x value _ hid := get?_assign_self hid x value

end Scopes

/-! ### New scopes -/

theorem extends_bindAll (scope : ScopeId) (bindings : List (String × Value)) {world world' : World}
    (h : bindAll scope bindings world = .ok () world') : world.scopes.Extends world'.scopes := by
  induction bindings generalizing world with
  | nil =>
    cases h
    exact .refl _
  | cons binding bindings ih => exact (Scopes.extends_set _ _ _ _).trans (ih h)

/-- The scope of a call lies inside the scope that the function is closed over. -/
theorem Closure.inside_of_enter {f : Closure} {args : List Value} {inner : ScopeId}
    {world entered : World} (h : f.enter args world = .ok inner entered) :
    entered.scopes.Inside inner f.scope := by
  obtain ⟨id, world₁, henclose, h⟩ := Action.bind_eq_ok_iff.1 h
  obtain ⟨_, world₂, hbind, hpure⟩ := Action.bind_eq_ok_iff.1 h
  cases henclose
  cases hpure
  exact (extends_bindAll _ _ hbind).inside (Scopes.inside_enclose _ _)

namespace Course

variable {limit : Nat}

/-- The body of the function that is called, or of the branch that is taken, and the scope around
it. -/
def Moment.opening? (limit : Nat) : Moment → Option (List Stmt × ScopeId)
  | ⟨.call (.function f) args, waiting, _, _⟩ =>
    if args.length = f.params.length ∧ active waiting < limit then some (f.body, f.scope) else none
  | ⟨.value v, .test body otherwise scope :: _, _, _⟩ =>
    (if v.truthy then some body else otherwise).map fun branch => (branch, scope)
  | _ => none

/-- What is opened is run in a scope that did not exist before. -/
theorem next?_of_opening? {m : Moment} {body : List Stmt} {outer : ScopeId}
    (h : m.opening? limit = some (body, outer)) :
    ∃ m' inner, m.next? limit = some m' ∧ m'.task = .block none body inner ∧
      m.world.scopes[inner]? = none ∧ m'.world.scopes.Inside inner outer := by
  unfold Moment.opening? at h
  split at h
  · next f args waiting world pending =>
    split at h
    · next hcall =>
      cases h
      obtain ⟨entered, henter⟩ := f.exists_enter args world
      refine ⟨⟨.block none f.body world.scopes.size, .function :: waiting, entered, pending⟩,
        world.scopes.size, ?_, rfl, by simp, Closure.inside_of_enter henter⟩
      rw [next?_call, enter, if_pos hcall.1, if_pos hcall.2, Action.bind_of_ok henter]
      rfl
    · cases h
  · next v yes no scope waiting world pending =>
    obtain ⟨branch, hbranch, heq⟩ := Option.map_eq_some_iff.1 h
    cases heq
    refine ⟨⟨.block none body world.scopes.size, waiting, ⟨world.scopes.enclose outer,
      world.created, world.sink⟩, pending⟩, world.scopes.size, ?_, rfl, by simp,
      Scopes.inside_enclose _ _⟩
    rw [Moment.next?, Frame.resume, hbranch]
    rfl
  · cases h

end Course

/-! ### Sessions -/

open Course

/-- At every moment of a session the scopes are well formed, evaluation goes on in scopes that
exist, and every function there is, in a scope, in an argument or in a result, is closed over a
scope that exists. No scope is ever lost or moved into another one. A function that is called and a
branch that is taken are run in a scope that did not exist before, inside the one around them. So
the functions in what the programs come to are closed over scopes that they leave. -/
theorem Program.session_wellFormed (limit : Nat) (capacity : Option Nat) (created : Nat)
    (programs : List Program) :
    let world : World := .initial capacity created
    (∀ ended, ended ∈ Program.session limit programs world ↔
      ∃ m, Steps limit (.begin programs world) m ∧ m.pending.length < programs.length ∧
        m.outcome? = some ended.1 ∧ m.world = ended.2) ∧
    (∀ m, Steps limit (.begin programs world) m →
      m.world.scopes.WellFormed ∧
      (∀ id ∈ m.sites, id < m.world.scopes.size) ∧
      (∀ value f, m.Shows value → value.Has (.function f) → f.scope < m.world.scopes.size) ∧
      (∀ m', Steps limit m m' → m.world.scopes.Extends m'.world.scopes) ∧
      (∀ body outer, m.opening? limit = some (body, outer) →
        ∃ m' inner, m.next? limit = some m' ∧ m'.task = .block none body inner ∧
          m.world.scopes[inner]? = none ∧ m'.world.scopes.Inside inner outer)) ∧
    (∀ ended ∈ Program.session limit programs world, ∀ value f,
      ended.1 = .value (some value) → value.Has (.function f) →
        f.scope < ended.2.scopes.size) := by
  intro world
  have hbegin : (Moment.begin programs world).Admitted .any :=
    admitted_begin capacity created fun program _ => Stmt.obeyAll_any program
  refine ⟨mem_session_iff limit programs world, ?_, ?_⟩
  · intro m hm
    have hadmitted := (hbegin.steps hm).admitted
    exact ⟨hadmitted.scopes.sound.wellFormed, fun id hid => hadmitted.sites hid,
      fun value f hv hf => (hadmitted.shows hv _ hf).1,
      fun m' hm' => (hadmitted.steps hm').world.kept, fun body outer => next?_of_opening?⟩
  · intro ended hended value f hvalue hf
    obtain ⟨m, hm, -, houtcome, hworld⟩ := (mem_session_iff ..).1 hended
    rw [← hworld]
    have hshows := shows_of_outcome? (hvalue ▸ houtcome)
    exact ((hbegin.steps hm).admitted.shows hshows _ hf).1

/-- A function that is called with another one. -/
def Program.handing : Program :=
  [.expr (.call (.fn ["g"] [.ret (some (.list [.var "g"]))]) [.fn [] []])]

/-- When the first function is about to be called, it and its argument are closed over the global
scope, and the call opens the only other one. -/
theorem Program.session_wellFormed_handing :
    let f : Closure := ⟨0, ["g"], [.ret (some (.list [.var "g"]))], 0⟩
    let g : Closure := ⟨1, [], [], 0⟩
    let m : Moment := ⟨.call (.function f) [.function g], [.stmt .expr [] 0],
      ⟨.initial, 2, .empty none⟩, []⟩
    Steps 1 (.begin [Program.handing] (.initial none 0)) m ∧ m.Shows (.function g) ∧
      m.opening? 1 = some (f.body, 0) ∧ m.world.scopes.WellFormed ∧
      g.scope < m.world.scopes.size ∧
      ∃ m' inner, m.next? 1 = some m' ∧ m'.task = .block none f.body inner ∧
        m.world.scopes[inner]? = none ∧ m'.world.scopes.Inside inner 0 := by
  intro f g m
  have hsteps : Steps 1 (.begin [Program.handing] (.initial none 0)) m :=
    .head rfl (.head rfl (.head rfl (.head rfl (.head rfl (.head rfl (.head rfl (.head rfl
      (.head rfl .refl))))))))
  have hshows : m.Shows (.function g) :=
    .inr (List.mem_append_left _ (List.mem_cons_of_mem _ List.mem_cons_self))
  have hopening : m.opening? 1 = some (f.body, 0) := rfl
  obtain ⟨-, hmoments, -⟩ := Program.session_wellFormed 1 none 0 [Program.handing]
  obtain ⟨hscopes, -, hcaptures, -, hnew⟩ := hmoments m hsteps
  exact ⟨hsteps, hshows, hopening, hscopes, hcaptures _ g hshows .function, hnew _ _ hopening⟩

end Tang
