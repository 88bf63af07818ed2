import Tang.Proofs.Course.Serials

/-! Equality in sessions. No two functions that are there at one moment share a serial, so of the
values that a program can put on the two sides of `==`, the same ones are equal. -/

namespace Tang

open Course

namespace Value

/-- Equality is an equivalence that shortcuts cannot change. Nothing that is asked of equal values
tells them apart, and `==` and `!=` always have an answer, whatever kinds of value they are given.
What is assumed about serials is so of the values at every moment of a session. -/
theorem equality_congruent :
    (∀ a : Value, a.same a = true) ∧
      (∀ a b : Value, a.same b = b.same a) ∧
      (∀ a b c : Value, a.same b = true → b.same c = true → a.same c = true) ∧
      (∀ (a b : Value) (answer : Bool), Compares a b answer ↔ answer = a.same b) ∧
      (∀ a b : Value, a.same b = true →
        a.tag = b.tag ∧ a.truthy = b.truthy ∧ a.slot? = b.slot?) ∧
      (∀ values : Set Value, Coherent values →
        (∀ a ∈ values, ∀ b ∈ values, a.same b = true → a.render = b.render) ∧
          ∀ l ∈ values, ∀ r ∈ values,
            binary .eq l r = .ok (.bool (l.same r)) ∧
              binary .ne l r = .ok (.bool (!l.same r))) ∧
      ∀ (limit : Nat) (capacity : Option Nat) (created : Nat) (programs : List Program)
        (m : Moment), Steps limit (.begin programs (.initial capacity created)) m →
          Coherent {value | m.Shows value} := by
  refine ⟨same_refl, same_comm, ?_, fun _ _ _ => compares_iff, ?_, fun values h => ⟨?_, ?_⟩, ?_⟩
  · intro a b c hab hbc
    rw [same_congr a b c hab, hbc]
  · intro a b h
    exact ⟨tag_eq_of_same h, truthy_slot?_of_same h⟩
  · intro a ha b hb hab
    rw [(h.same_iff ha hb).1 hab]
  · intro l hl r hr
    rw [h.same_eq hl hr]
    exact ⟨binary_eq l r, binary_ne l r⟩
  · exact fun limit capacity created programs m => coherent_of_steps

/-- The map that `{"f": [1, fn(x) { x; }]}` comes to. -/
def functionMap (serial : Nat) : Value :=
  .map [(.str "f", .list [.int 1, .function ⟨serial, ["x"], [.expr (.var "x")], 0⟩])]

end Value

/-- The program `{"f": [1, fn(x) { x; }]} == {"f": [1, fn(x) { x; }]}`. -/
def Program.functionMaps : Program :=
  let side : Expr := .map [(.str "f", .list [.int 1, .fn ["x"] [.expr (.var "x")]])]
  [.expr (.binary .eq side side)]

/-- When the two maps are about to be compared, the functions in them have the same text but not the
same serial. So the maps are not equal. -/
theorem Value.equality_congruent_functionMaps :
    let left := functionMap 0
    let right := functionMap 1
    let m : Moment := ⟨.value right, [.right .eq left, .stmt .expr [] 0],
      ⟨.initial, 2, .empty none⟩, []⟩
    Steps 1 (.begin [Program.functionMaps] (.initial none 0)) m ∧
      m.Shows left ∧ m.Shows right ∧ Coherent {value | m.Shows value} ∧
      left.same left = true ∧ left.same right = right.same left ∧
      binary .eq left right = .ok (.bool false) ∧ binary .ne left right = .ok (.bool true) := by
  intro left right m
  have hsteps : Steps 1 (.begin [Program.functionMaps] (.initial none 0)) m := by
    iterate 32 refine .head rfl ?_
    exact .refl
  have hleft : m.Shows left := .inr (List.mem_cons_of_mem _ List.mem_cons_self)
  have hright : m.Shows right := .inr List.mem_cons_self
  obtain ⟨hrefl, hcomm, -, -, -, hvalues, hsessions⟩ := equality_congruent
  have hcoherent := hsessions 1 none 0 [Program.functionMaps] m hsteps
  obtain ⟨-, hop⟩ := hvalues _ hcoherent
  have hsame : left.same right = false := rfl
  obtain ⟨heq, hne⟩ := hop left hleft right hright
  rw [hsame] at heq hne
  exact ⟨hsteps, hleft, hright, hcoherent, hrefl _, hcomm _ _, heq, hne⟩

end Tang
