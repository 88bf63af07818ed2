import Tang.Proofs.Heap.WellFormed

/-! What a binding changes. Scopes form a forest, in which a binding is seen from its own scope and
from all scopes inside it, up to those that bind the name themselves. A declaration and an
assignment each put one value into one scope, and no other scope and no other name is touched. -/

namespace Tang.Scopes

/-! ### Walks outward -/

/-- Scopes that come from opening global ones and ones inside others, and from binding names. -/
inductive Built : Scopes → Prop
  | none : Built #[]
  | global {scopes : Scopes} : Built scopes → Built (scopes.push ⟨.none, []⟩)
  | enclose {scopes : Scopes} {id : ScopeId} : Built scopes → id < scopes.size →
    Built (scopes.enclose id)
  | set {scopes : Scopes} {id : ScopeId} (x : String) (value : Value) : Built scopes →
    id < scopes.size → Built (scopes.set id x value)
  | assign {scopes : Scopes} {id : ScopeId} (x : String) (value : Value) : Built scopes →
    id < scopes.size → Built (scopes.assign id x value)

/-- On the way from the first scope outward the second is the nearest one that binds the name. -/
inductive Resolves (scopes : Scopes) (x : String) : ScopeId → ScopeId → Prop
  | here {id : ScopeId} {scope : Scope} : scopes[id]? = some scope → (scope.get? x).isSome →
    Resolves scopes x id id
  | outward {id outer owner : ScopeId} {scope : Scope} : scopes[id]? = some scope →
    scope.get? x = none → scope.parent = some outer → Resolves scopes x outer owner →
    Resolves scopes x id owner

variable {scopes : Scopes} {id owner target : ScopeId} {scope : Scope} {x y : String}
  {value : Value}

/-- Each scope that lies inside another one is younger. -/
def Nested (scopes : Scopes) : Prop :=
  ∀ ⦃id outer : ScopeId⦄, scopes.Inside id outer → outer < id

theorem Nested.set (h : scopes.Nested) (id : ScopeId) (x : String) (value : Value) :
    (scopes.set id x value).Nested := by
  rintro i outer ⟨scope', hscope', hparent⟩
  rw [getElem?_set, Option.map_eq_some_iff] at hscope'
  obtain ⟨scope, hscope, rfl⟩ := hscope'
  split at hparent <;> exact h ⟨scope, hscope, hparent⟩

theorem Nested.push (h : scopes.Nested) {parent : Option ScopeId}
    (hparent : ∀ outer, parent = some outer → outer < scopes.size) :
    Nested (scopes.push ⟨parent, []⟩) := by
  rintro i outer ⟨scope, hscope, houter⟩
  rw [Array.getElem?_push] at hscope
  split at hscope
  · next hi =>
    cases hscope
    exact hi ▸ hparent outer houter
  · exact h ⟨scope, hscope, houter⟩

theorem Built.nested (h : scopes.Built) : scopes.Nested := by
  induction h with
  | none => rintro i outer ⟨scope, hscope, -⟩; simp at hscope
  | global _ ih => exact ih.push (by simp)
  | enclose _ hid ih => exact ih.push fun outer houter => Option.some.inj houter ▸ hid
  | set x value _ _ ih => exact ih.set _ x value
  | assign x value _ _ ih => exact ih.set _ x value

theorem Resolves.exists_bound (h : scopes.Resolves x id owner) :
    ∃ scope, scopes[owner]? = some scope ∧ (scope.get? x).isSome := by
  induction h with
  | here hid hx => exact ⟨_, hid, hx⟩
  | outward _ _ _ _ ih => exact ih

theorem Resolves.owner?_eq (hn : scopes.Nested) (h : scopes.Resolves x id owner) :
    scopes.owner? id x = some owner := by
  induction h with
  | here hid hx => exact owner?_of_bound hid hx
  | outward hid hx hparent _ ih =>
    rw [owner?, hid]
    simpa [hx, hparent, hn ⟨_, hid, hparent⟩] using ih

theorem resolves_of_owner? (h : scopes.owner? id x = some owner) :
    scopes.Resolves x id owner := by
  fun_induction owner? scopes id x with
  | case1 => cases h
  | case2 id scope hid hx => cases h; exact .here hid hx
  | case3 => cases h
  | case4 id scope hid hx parent hp hlt ih =>
    exact .outward hid (Option.not_isSome_iff_eq_none.1 hx) hp (ih h)
  | case5 => cases h

theorem Resolves.get?_eq (hn : scopes.Nested) (h : scopes.Resolves x id owner)
    (howner : scopes[owner]? = some scope) : scopes.get? id x = scope.get? x := by
  simp [get?, h.owner?_eq hn, howner]

theorem get?_of_missing (hid : scopes[id]? = none) : scopes.get? id x = none := by
  simp [get?, owner?, hid]

theorem get?_of_bound (hid : scopes[id]? = some scope) (hx : scope.get? x = some value) :
    scopes.get? id x = some value :=
  get?_of_owner? (owner?_of_bound hid (Option.isSome_of_mem hx)) hid hx

/-- A name that a scope does not bind is looked up outside it. -/
theorem get?_of_unbound (hn : scopes.Nested) (hid : scopes[id]? = some scope)
    (hx : scope.get? x = none) :
    scopes.get? id x = scope.parent.bind fun outer => scopes.get? outer x := by
  rw [get?, owner?, hid]
  cases hparent : scope.parent with
  | none => simp [hx, hparent]
  | some outer => simp [hx, hparent, hn ⟨scope, hid, hparent⟩, get?]

/-! ### One binding -/

/-- The second scopes are the first ones with the name bound to the value in one of them. -/
structure Written (before after : Scopes) (target : ScopeId) (x : String) (value : Value) :
    Prop where
  /-- No other scope has changed, and none has come or gone. -/
  others {id : ScopeId} : id ≠ target → after[id]? = before[id]?
  /-- In its own scope the name is bound, and all other names are what they were. -/
  own {old : Scope} : before[target]? = some old → ∃ new : Scope, after[target]? = some new ∧
    new.parent = old.parent ∧ ∀ y, new.get? y = if y = x then some value else old.get? y
  /-- No scope has lost a name. -/
  bound {id : ScopeId} {old : Scope} {y : String} : before[id]? = some old →
    (old.get? y).isSome → ∃ new : Scope, after[id]? = some new ∧ (new.get? y).isSome
  /-- The value is seen from where the name now belongs to its scope. -/
  seen {id : ScopeId} : after.Resolves x id target → after.get? id x = some value
  unseen {id : ScopeId} {y : String} : ¬ (y = x ∧ after.Resolves x id target) →
    after.get? id y = before.get? id y

theorem get?_set_of_resolves (hn : scopes.Nested) (htarget : target < scopes.size)
    (h : (scopes.set target x value).Resolves x id target) :
    (scopes.set target x value).get? id x = some value := by
  have hself := getElem?_set_self (Array.getElem?_eq_getElem htarget) x value
  rw [h.get?_eq (hn.set target x value) hself, Scope.get?_set, if_pos rfl]

/-- By induction on the walk outward, on which each scope binds what it bound before. -/
theorem get?_set_of_not_resolves (hn : scopes.Nested)
    (h : ¬ (y = x ∧ (scopes.set target x value).Resolves x id target)) :
    (scopes.set target x value).get? id y = scopes.get? id y := by
  induction id using Nat.strongRecOn with
  | ind id ih =>
    cases hid : scopes[id]? with
    | none => rw [get?_of_missing hid, get?_of_missing (by simp [getElem?_set, hid])]
    | some scope =>
      obtain ⟨new, hnew, hparent, hget⟩ : ∃ new : Scope,
          (scopes.set target x value)[id]? = some new ∧ new.parent = scope.parent ∧
            new.get? y = scope.get? y := by
        by_cases htarget : target = id
        · subst htarget
          have hnew := getElem?_set_self hid x value
          refine ⟨_, hnew, rfl, ?_⟩
          rw [Scope.get?_set, if_neg]
          rintro rfl
          exact h ⟨rfl, .here hnew (by simp [Scope.get?_set])⟩
        · exact ⟨scope, by simp [getElem?_set, hid, htarget], rfl, rfl⟩
      cases hy : scope.get? y with
      | some found => rw [get?_of_bound hid hy, get?_of_bound hnew (hget.trans hy)]
      | none =>
        rw [get?_of_unbound hn hid hy, get?_of_unbound (hn.set target x value) hnew (hget.trans hy),
          hparent]
        cases houter : scope.parent with
        | none => rfl
        | some outer =>
          refine ih outer (hn ⟨scope, hid, houter⟩) fun ⟨hyx, hr⟩ => h ⟨hyx, ?_⟩
          exact .outward hnew (hyx ▸ hget.trans hy) (hparent.trans houter) hr

theorem written_set (hn : scopes.Nested) (htarget : target < scopes.size) (x : String)
    (value : Value) : Written scopes (scopes.set target x value) target x value where
  others hid := by simp [getElem?_set, hid.symm]
  own hold :=
    ⟨_, getElem?_set_self hold x value, rfl, fun y => Scope.get?_set _ x y value⟩
  bound {id old y} hold hy := by
    refine ⟨if target = id then old.set x value else old, by simp [getElem?_set, hold], ?_⟩
    split
    · rw [Scope.get?_set]
      split
      · rfl
      · exact hy
    · exact hy
  seen := get?_set_of_resolves hn htarget
  unseen := get?_set_of_not_resolves hn

/-- A name that the scope binds belongs to it where it did before. -/
theorem resolves_set_iff (hn : scopes.Nested) {old : Scope} (hold : scopes[target]? = some old)
    (hx : (old.get? x).isSome) :
    (scopes.set target x value).Resolves x id target ↔ scopes.Resolves x id target := by
  constructor
  · intro h
    generalize hafter : scopes.set target x value = after at h
    induction h with
    | here => exact .here hold hx
    | @outward id outer owner scope hid hunbound hparent _ ih =>
      have hne : owner ≠ id := by
        rintro rfl
        rw [← hafter, getElem?_set_self hold] at hid
        cases hid
        simp [Scope.get?_set] at hunbound
      have hid' : scopes[id]? = some scope := by simpa [← hafter, getElem?_set, hne] using hid
      exact .outward hid' hunbound hparent (ih hold hafter)
  · intro h
    exact resolves_of_owner? (owner?_set_owner (h.owner?_eq hn) value)

/-- In any forest of scopes a declaration writes to its own scope, and an assignment to the nearest
scope outward that binds the name, or else to its own. What is written is seen from exactly those
scopes from which that scope is now the nearest one that binds the name; every other name, and this
name from every other scope, is what it was. So the value is seen from where it was written, and an
assignment to a name that is bound changes it for exactly the scopes that shared its binding. -/
theorem writes_one_binding (h : scopes.Built) (hid : id < scopes.size) (x : String)
    (value : Value) :
    let declared := scopes.set id x value
    let assigned := scopes.assign id x value
    (Written scopes declared id x value ∧ declared.get? id x = some value) ∧
    ((∀ owner, ¬ scopes.Resolves x id owner) →
      Written scopes assigned id x value ∧ assigned.get? id x = some value) ∧
    (∀ owner, scopes.Resolves x id owner →
      (∀ other, scopes.Resolves x id other → other = owner) ∧
      Written scopes assigned owner x value ∧ assigned.get? id x = some value ∧
      ∀ inner, (scopes.Resolves x inner owner → assigned.get? inner x = some value) ∧
        (¬ scopes.Resolves x inner owner → assigned.get? inner x = scopes.get? inner x)) := by
  intro declared assigned
  have hn := h.nested
  have hself : assigned.get? id x = some value := get?_assign_self hid x value
  refine ⟨⟨written_set hn hid x value, get?_set_self hid x value⟩, ?_, ?_⟩
  · intro hnone
    have howner : scopes.owner? id x = none :=
      Option.eq_none_iff_forall_ne_some.2 fun owner ho => hnone owner (resolves_of_owner? ho)
    have hassigned : assigned = declared := by simp [assigned, declared, assign, howner]
    exact ⟨hassigned ▸ written_set hn hid x value, hself⟩
  · intro owner hr
    have howner := hr.owner?_eq hn
    have hassigned : assigned = scopes.set owner x value := by simp [assigned, assign, howner]
    obtain ⟨old, hold, hx⟩ := hr.exists_bound
    have hwritten : Written scopes assigned owner x value :=
      hassigned ▸ written_set hn (Array.getElem?_eq_some_iff.1 hold).1 x value
    refine ⟨fun other ho => Option.some.inj ((ho.owner?_eq hn).symm.trans howner), hwritten,
      hself, fun inner => ?_⟩
    have hiff : assigned.Resolves x inner owner ↔ scopes.Resolves x inner owner :=
      hassigned ▸ resolves_set_iff hn hold hx
    exact ⟨fun hi => hwritten.seen (hiff.2 hi),
      fun hi => hwritten.unseen fun hs => hi (hiff.1 hs.2)⟩

/-- A global scope with a name, two scopes inside it, of which the second one binds the name itself,
and a scope inside the first one. -/
def siblings : Scopes :=
  ((((initial.set 0 "x" (.int 1)).enclose 0).enclose 0).set 2 "x" (.int 5)).enclose 1

theorem built_siblings : siblings.Built := by
  have hglobal : initial.Built := .global .none
  have hx := hglobal.set "x" (.int 1) (show 0 < initial.size by decide)
  have hinner := (hx.enclose (show 0 < _ by decide)).enclose (show 0 < _ by decide)
  exact (hinner.set "x" (.int 5) (show 2 < _ by decide)).enclose (by decide)

/-- An assignment in the innermost scope is seen from the first scope but not from the second. -/
theorem writes_one_binding_siblings :
    let assigned := siblings.assign 3 "x" (.int 9)
    siblings.Built ∧ 3 < siblings.size ∧ siblings.Resolves "x" 3 0 ∧
      assigned.get? 1 "x" = some (.int 9) ∧ assigned.get? 2 "x" = some (.int 5) := by
  intro assigned
  have hsize : 3 < siblings.size := by decide
  have h3 : siblings.Resolves "x" 3 0 := resolves_of_owner? (by decide +kernel)
  have h1 : siblings.Resolves "x" 1 0 := resolves_of_owner? (by decide +kernel)
  have h2 : ¬ siblings.Resolves "x" 2 0 := fun hr =>
    absurd (hr.owner?_eq built_siblings.nested) (by decide +kernel)
  obtain ⟨-, -, hassigned⟩ := writes_one_binding built_siblings hsize "x" (.int 9)
  obtain ⟨-, -, -, hseen⟩ := hassigned 0 h3
  exact ⟨built_siblings, hsize, h3, (hseen 1).1 h1, ((hseen 2).2 h2).trans (by decide +kernel)⟩

end Tang.Scopes
