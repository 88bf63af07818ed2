import Mathlib.Data.List.Find
import Tang.Proofs.Maps

/-! Keys with one slot. Integers and truth values have slots of their own, but a text shares its
slot with every other text of the same hash. To a map such texts are one key. -/

namespace Tang

/-! ### Slots -/

namespace Value

/-- Whether the values are two texts that differ and have the same hash. -/
def collides : Value → Value → Bool
  | .str s, .str t => s != t && Hash.fnv1a s.toUTF8 == Hash.fnv1a t.toUTF8
  | _, _ => false

theorem collides_str {s t : String} : (str s).collides (str t) = true ↔
    s ≠ t ∧ Hash.fnv1a s.toUTF8 = Hash.fnv1a t.toUTF8 := by
  simp [collides]

end Value

open Value (ofKey ofPair)

/-- The bit pattern of an integer has no other integer, and the two bits are different. -/
theorem Key.eq_or_collides_of_slot_eq : {j k : Key} → j.slot = k.slot →
    j = k ∨ (ofKey j).collides (ofKey k) = true
  | .int ⟨m⟩, .int ⟨n⟩, h => .inl (congrArg (fun slot => Key.int ⟨slot.hash⟩) h)
  | .bool b, .bool c, h => by
    have hbits : b.toUInt64 = c.toUInt64 := congrArg Slot.hash h
    cases b <;> cases c <;> first | exact .inl rfl | cases hbits
  | .str s, .str t, h => by
    by_cases hst : s = t
    · exact .inl (congrArg Key.str hst)
    · exact .inr (Value.collides_str.2 ⟨hst, congrArg Slot.hash h⟩)
  | .int _, .bool _, h | .int _, .str _, h | .bool _, .int _, h | .bool _, .str _, h
  | .str _, .int _, h | .str _, .bool _, h => nomatch congrArg Slot.tag h

theorem Value.slot?_eq_iff {a b : Value} (ha : a.slot?.isSome) (hb : b.slot?.isSome) :
    a.slot? = b.slot? ↔ a = b ∨ a.collides b = true := by
  obtain ⟨j, rfl⟩ := exists_ofKey_of_slot? ha
  obtain ⟨k, rfl⟩ := exists_ofKey_of_slot? hb
  rw [slot?_ofKey, slot?_ofKey, Option.some_inj]
  constructor
  · exact fun h => (Key.eq_or_collides_of_slot_eq h).imp_left (congrArg ofKey)
  · rintro (h | h)
    · rw [ofKey_injective h]
    · cases j <;> cases k <;> first
        | exact congrArg (Slot.mk .string) (collides_str.1 h).2
        | cases h

/-! ### Lookup -/

/-- A key finds the last pair whose key is equal to it or collides with it. -/
theorem Value.lastAt?_eq {values : List (Value × Value)} {position : Value} {slot : Slot}
    (hkeys : ∀ pair ∈ values, pair.1.slot?.isSome) (hslot : position.slot? = some slot) :
    lastAt? slot values =
      values.reverse.find? fun pair => pair.1 = position ∨ pair.1.collides position := by
  refine List.find?_congr fun pair hpair => ?_
  have hpair := hkeys pair (List.mem_reverse.1 hpair)
  rw [← hslot, Bool.eq_iff_iff, beq_iff_eq, decide_eq_true_iff]
  exact slot?_eq_iff hpair (Option.isSome_of_eq_some hslot)

namespace Expr

theorem eval_index_map {call : Caller} {scope : ScopeId} {pairs : List (Expr × Expr)}
    {place : Expr} {world world₁ world' : World} {values : List (Value × Value)} {position : Value}
    (heval : evalEach call scope pairs world = .ok values world₁)
    (hplace : place.eval call scope world₁ = .ok position world')
    (hkeys : ∀ pair ∈ values, pair.1.slot?.isSome) (hposition : position.slot?.isSome) :
    (Expr.index (.map pairs) place).eval call scope world =
      .ok (((values.reverse.find? fun pair =>
        pair.1 = position ∨ pair.1.collides position).map (·.2)).getD .null) world' := by
  obtain ⟨items, rfl⟩ := Value.exists_pairs hkeys
  obtain ⟨key, rfl⟩ := Value.exists_ofKey_of_slot? hposition
  rw [← Value.lastAt?_eq hkeys (Value.slot?_ofKey key), eval,
    Action.bind_of_ok (eval_map_of_evalEach heval), Action.bind_of_ok hplace, Value.index_addAll]
  rfl

/-- Keys share a slot if they are equal or texts that collide, and only then. So a map literal,
indexed with a key, gives the value of the last pair whose key is equal to this key or collides with
it. If no key in the literal collides with it, that is the last pair whose key is equal to it. -/
theorem eval_index_map_last {call : Caller} {scope : ScopeId} {pairs : List (Expr × Expr)}
    {place : Expr} {world world₁ world' : World} {values : List (Value × Value)} {position : Value}
    (heval : evalEach call scope pairs world = .ok values world₁)
    (hplace : place.eval call scope world₁ = .ok position world')
    (hkeys : ∀ pair ∈ values, pair.1.slot?.isSome) (hposition : position.slot?.isSome) :
    (∀ a b : Value, a.slot?.isSome → b.slot?.isSome →
      (a.slot? = b.slot? ↔ a = b ∨ a.collides b = true)) ∧
    (Expr.index (.map pairs) place).eval call scope world =
      .ok (((values.reverse.find? fun pair =>
        pair.1 = position ∨ pair.1.collides position).map (·.2)).getD .null) world' ∧
    ((∀ pair ∈ values, pair.1.collides position = false) →
      (Expr.index (.map pairs) place).eval call scope world = .ok
        (((values.reverse.find? fun pair => pair.1 = position).map (·.2)).getD .null) world') := by
  have hlast := eval_index_map heval hplace hkeys hposition
  refine ⟨fun a b => Value.slot?_eq_iff, hlast, fun hfree => ?_⟩
  have hfind : (values.reverse.find? fun pair => pair.1 = position ∨ pair.1.collides position) =
      values.reverse.find? fun pair => pair.1 = position :=
    List.find?_congr fun pair hpair => by simp [hfree pair (List.mem_reverse.1 hpair)]
  rw [hlast, hfind]

/-- A number, a truth value and a text whose shown forms are alike are different keys. -/
theorem eval_index_map_last_alike :
    let call := callWithin 0 0
    let world := World.initial none 0
    let pairs : List (Expr × Expr) := [(.int 1, .str "a"), (.bool true, .str "b"),
      (.str "1", .str "c"), (.int 1, .str "d")]
    let values : List (Value × Value) := [(.int 1, .str "a"), (.bool true, .str "b"),
      (.str "1", .str "c"), (.int 1, .str "d")]
    evalEach call 0 pairs world = .ok values world ∧
      (Expr.int 1).eval call 0 world = .ok (.int 1) world ∧
      (∀ pair ∈ values, pair.1.slot?.isSome) ∧ (Value.int 1).slot?.isSome ∧
      (∀ pair ∈ values, pair.1.collides (.int 1) = false) ∧
      (Expr.index (.map pairs) (.int 1)).eval call 0 world = .ok (.str "d") world := by
  intro call world pairs values
  have heval : evalEach call 0 pairs world = .ok values world := rfl
  have hkeys : ∀ pair ∈ values, pair.1.slot?.isSome := by decide
  have hfree : ∀ pair ∈ values, pair.1.collides (.int 1) = false := by decide
  have hplace : (Expr.int 1).eval call 0 world = .ok (.int 1) world := rfl
  obtain ⟨-, -, hlast⟩ := eval_index_map_last heval hplace hkeys rfl
  exact ⟨heval, hplace, hkeys, rfl, hfree, hlast hfree⟩

/-- Two texts with one hash. A map with only the first one finds the second one. -/
theorem eval_index_collision :
    let call := callWithin 0 0
    let world := World.initial none 0
    let held := "8yn0iYCKYHlIj4-BwPqk"
    let asked := "GReLUrM4wMqfg9yzV3KQ"
    evalEach call 0 [(.str held, .int 1)] world = .ok [(.str held, .int 1)] world ∧
      (Expr.index (.map [(.str held, .int 1)]) (.str asked)).eval call 0 world =
        .ok (.int 1) world ∧
      ([(Value.str held, Value.int 1)].reverse.find? fun pair => pair.1 = .str asked) = none ∧
      ¬ ((Value.str held).slot? = (Value.str asked).slot? ↔ Value.str held = .str asked) := by
  intro call world held asked
  have hhash : Hash.fnv1a held.toUTF8 = Hash.fnv1a asked.toUTF8 := by decide +kernel
  have hne : Value.str held ≠ .str asked := by decide
  have hslot : (Value.str held).slot? = (Value.str asked).slot? :=
    congrArg (fun hash => some (Slot.mk .string hash)) hhash
  have heval : evalEach call 0 [(.str held, .int 1)] world = .ok [(.str held, .int 1)] world := rfl
  have hplace : (Expr.str asked).eval call 0 world = .ok (.str asked) world := rfl
  refine ⟨heval, (eval_index_map heval hplace (by decide) rfl).trans ?_, ?_, ?_⟩
  · have hcollides : (Value.str held).collides (.str asked) = true :=
      Value.collides_str.2 ⟨by decide, hhash⟩
    simp [hcollides]
  · simp [hne]
  · simp [hslot, hne]

end Expr

end Tang
