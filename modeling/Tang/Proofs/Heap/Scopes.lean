import Mathlib.Tactic.Common
import Tang.Proofs.Occurrence
import Tang.Scope

/-! Sound scopes. The scopes of a session are sound if each lies inside an older one and every
function that a binding holds was created in a scope that exists, from syntax that obeys a rule.
Binding a name and opening a scope keep them sound, and no scope is lost or moved into another
one. -/

namespace Tang

/-! ### Sound scopes -/

/-- The function was created in one of the first `size` scopes, from a literal that obeys the
rule. -/
def Closure.Fits (rule : Rule) (size : Nat) (f : Closure) : Prop :=
  f.scope < size ∧ (Expr.fn f.params f.body).Obeys rule

def Value.Fits (rule : Rule) (size : Nat) (value : Value) : Prop :=
  ∀ f, value.Holds f → f.Fits rule size

theorem Value.Fits.mono {rule : Rule} {m n : Nat} {value : Value} (h : value.Fits rule m)
    (hmn : m ≤ n) : value.Fits rule n :=
  fun f hf => ⟨Nat.lt_of_lt_of_le (h f hf).1 hmn, (h f hf).2⟩

namespace Scopes

structure Sound (rule : Rule) (scopes : Scopes) : Prop where
  parent_lt {i p : ScopeId} {scope : Scope} :
    scopes[i]? = some scope → scope.parent = some p → p < i
  fits {i : ScopeId} {scope : Scope} {x : String} {value : Value} :
    scopes[i]? = some scope → (x, value) ∈ scope.bindings → value.Fits rule scopes.size

/-- Every old scope is still there and lies inside the same scope. -/
def Extends (old new : Scopes) : Prop :=
  ∀ (i : ScopeId) (scope : Scope), old[i]? = some scope →
    ∃ scope' : Scope, new[i]? = some scope' ∧ scope'.parent = scope.parent

theorem Extends.refl (scopes : Scopes) : scopes.Extends scopes :=
  fun _ scope h => ⟨scope, h, rfl⟩

theorem Extends.trans {a b c : Scopes} (hab : a.Extends b) (hbc : b.Extends c) : a.Extends c := by
  intro i scope h
  obtain ⟨scope', h', hp'⟩ := hab i scope h
  obtain ⟨scope'', h'', hp''⟩ := hbc i scope' h'
  exact ⟨scope'', h'', hp''.trans hp'⟩

theorem Extends.size_le {old new : Scopes} (h : old.Extends new) : old.size ≤ new.size := by
  by_contra hlt
  obtain ⟨scope', h', -⟩ := h new.size _ (Array.getElem?_eq_getElem (by omega))
  simp at h'

theorem Extends.lt_size {old new : Scopes} {id : ScopeId} (h : old.Extends new)
    (hid : id < old.size) : id < new.size :=
  Nat.lt_of_lt_of_le hid h.size_le

variable {rule : Rule} {scopes : Scopes}

theorem sound_initial : initial.Sound rule where
  parent_lt {i p scope} h hp := by
    obtain ⟨_, rfl⟩ := Array.getElem?_eq_some_iff.1 h
    simp [initial] at hp
  fits {i scope x value} h hx := by
    obtain ⟨_, rfl⟩ := Array.getElem?_eq_some_iff.1 h
    simp [initial] at hx

/-! ### Operations -/

theorem mem_put {x y : String} {value v : Value} {bindings : List (String × Value)}
    (h : (y, v) ∈ Scope.put x value bindings) : v = value ∨ (y, v) ∈ bindings := by
  induction bindings with
  | nil => simp_all [Scope.put]
  | cons binding bindings ih =>
    rw [Scope.put] at h
    split at h
    · rcases List.mem_cons.1 h with h | h
      · exact .inl (Prod.mk.inj h).2
      · exact .inr (List.mem_cons_of_mem _ h)
    · rcases List.mem_cons.1 h with h | h
      · exact .inr (h ▸ List.mem_cons_self)
      · exact (ih h).imp_right (List.mem_cons_of_mem _)

@[simp] theorem size_set (scopes : Scopes) (id : ScopeId) (x : String) (value : Value) :
    (scopes.set id x value).size = scopes.size :=
  Array.size_modify

theorem getElem?_set (scopes : Scopes) (id i : ScopeId) (x : String) (value : Value) :
    (scopes.set id x value)[i]? =
      scopes[i]?.map fun scope => if id = i then scope.set x value else scope := by
  rw [set, Array.getElem?_modify]
  split <;> simp

theorem extends_set (scopes : Scopes) (id : ScopeId) (x : String) (value : Value) :
    scopes.Extends (scopes.set id x value) := by
  intro i scope h
  refine ⟨if id = i then scope.set x value else scope, by simp [getElem?_set, h], ?_⟩
  split <;> rfl

theorem Sound.set (h : scopes.Sound rule) (id : ScopeId) (x : String) {value : Value}
    (hv : value.Fits rule scopes.size) : (scopes.set id x value).Sound rule where
  parent_lt {i p scope} hi hp := by
    rw [getElem?_set, Option.map_eq_some_iff] at hi
    obtain ⟨scope, hi, rfl⟩ := hi
    split at hp <;> exact h.parent_lt hi hp
  fits {i scope y v} hi hy := by
    rw [size_set]
    rw [getElem?_set, Option.map_eq_some_iff] at hi
    obtain ⟨scope, hi, rfl⟩ := hi
    split at hy
    · rcases mem_put hy with rfl | hy
      · exact hv
      · exact h.fits hi hy
    · exact h.fits hi hy

theorem extends_enclose (scopes : Scopes) (id : ScopeId) : scopes.Extends (scopes.enclose id) := by
  intro i scope h
  have hi : i < scopes.size := (Array.getElem?_eq_some_iff.1 h).1
  exact ⟨scope, by rw [enclose, Array.getElem?_push_lt hi, ← h, Array.getElem?_eq_getElem hi], rfl⟩

@[simp] theorem size_enclose (scopes : Scopes) (id : ScopeId) :
    (scopes.enclose id).size = scopes.size + 1 :=
  Array.size_push _

theorem Sound.enclose (h : scopes.Sound rule) {id : ScopeId} (hid : id < scopes.size) :
    (scopes.enclose id).Sound rule where
  parent_lt {i p scope} hi hp := by
    rw [Scopes.enclose, Array.getElem?_push] at hi
    split at hi
    · next hsize => cases hi; cases hp; exact hsize ▸ hid
    · exact h.parent_lt hi hp
  fits {i scope x value} hi hx := by
    rw [Scopes.enclose, Array.getElem?_push] at hi
    split at hi
    · cases hi; simp at hx
    · exact (h.fits hi hx).mono (by simp)

theorem Sound.fits_of_get? (h : scopes.Sound rule) {id : ScopeId} {x : String} {value : Value}
    (hv : scopes.get? id x = some value) : value.Fits rule scopes.size := by
  simp only [get?, Option.bind_eq_bind, Option.bind_eq_some_iff] at hv
  obtain ⟨owner, -, scope, hscope, hv⟩ := hv
  obtain ⟨before, after, hb, -⟩ := List.lookup_eq_some_iff.1 hv
  exact h.fits hscope (x := x) (by rw [hb]; simp)

end Scopes

end Tang
