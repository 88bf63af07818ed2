import Mathlib.Data.List.Perm.Basic
import Mathlib.Data.List.Sort
import Tang.Eval
import Tang.Proofs.Action
import Tang.Proofs.Callables

/-! Maps that are made pair by pair. For every slot the last pair with this slot remains, with its
own key. The entries are in strict order of their slots, so a map is determined by what it holds,
and the order in which pairs with different slots were put in cannot be seen. -/

namespace Tang

/-! ### The order of slots -/

namespace Slot

theorem before_iff {s t : Slot} : s.before t = true ↔
    s.tag.rank < t.tag.rank ∨ s.tag.rank = t.tag.rank ∧ s.hash.toNat < t.hash.toNat := by
  simp [before, UInt64.lt_iff_toNat_lt]

theorem before_trans {s t u : Slot} (hst : s.before t = true) (htu : t.before u = true) :
    s.before u = true := by
  rw [before_iff] at hst htu ⊢
  omega

theorem ne_of_before {s t : Slot} (h : s.before t = true) : s ≠ t := by
  rintro rfl
  rw [before_iff] at h
  omega

end Slot

theorem Key.tag_eq_of_rank_eq {j k : Key} (h : j.tag.rank = k.tag.rank) : j.tag = k.tag := by
  cases j <;> cases k <;> first | rfl | cases h

/-- Keys that have different slots stand one before the other. -/
theorem Key.before_of_not_before {j k : Key} (hjk : j.slot.before k.slot = false)
    (hne : j.slot ≠ k.slot) : k.slot.before j.slot = true := by
  rw [Bool.eq_false_iff, Ne, Slot.before_iff] at hjk
  rw [Slot.before_iff]
  by_cases hrank : j.tag.rank = k.tag.rank
  · have hhash : j.hash.toNat ≠ k.hash.toNat := fun hhash => by
      apply hne
      rw [slot, slot, tag_eq_of_rank_eq hrank, UInt64.toNat_inj.1 hhash]
    simp only [slot] at hjk ⊢
    omega
  · simp only [slot] at hjk ⊢
    omega

/-! ### Entries -/

namespace Entries

variable {key : Key} {value : Value} {entries entries' : Entries} {entry : Key × Value}

/-- The entry stands before the other one in a map. -/
def Before (a b : Key × Value) : Prop :=
  a.1.slot.before b.1.slot = true

instance : Std.Irrefl Before where
  irrefl _ h := Slot.ne_of_before h rfl

instance : Std.Antisymm Before where
  antisymm _ _ hab hba := absurd rfl (Slot.ne_of_before (Slot.before_trans hab hba))

/-- The entry at a slot. -/
def at? (slot : Slot) (entries : Entries) : Option (Key × Value) :=
  entries.find? fun entry => entry.1.slot == slot

theorem get?_eq (entries : Entries) (key : Key) :
    entries.get? key = (entries.at? key.slot).map (·.2) := rfl

theorem at?_cons (slot : Slot) (entry : Key × Value) (entries : Entries) :
    at? slot (entry :: entries) = if entry.1.slot = slot then some entry else at? slot entries := by
  by_cases h : entry.1.slot = slot <;> simp [at?, h]

/-- Only the entry at the slot of the new key changes. -/
theorem at?_insert (slot : Slot) (key : Key) (value : Value) (entries : Entries) :
    at? slot (insert key value entries) =
      if key.slot = slot then some (key, value) else at? slot entries := by
  induction entries with
  | nil => exact at?_cons slot (key, value) []
  | cons head entries ih =>
    rw [insert]
    split
    · next hbefore =>
      rw [at?_cons, at?_cons, ih]
      split
      · next hslot => rw [if_neg fun h => Slot.ne_of_before hbefore (hslot.trans h.symm)]
      · rfl
    · split
      · next hslot =>
        rw [at?_cons, at?_cons, hslot]
        split <;> rfl
      · exact at?_cons ..

/-- An ordered list of entries has an entry exactly if it is the one at its slot. -/
theorem at?_eq_some_iff (h : entries.Pairwise fun a b => a.1.slot ≠ b.1.slot) :
    entries.at? entry.1.slot = some entry ↔ entry ∈ entries := by
  refine ⟨List.mem_of_find?_eq_some, fun hmem => ?_⟩
  induction h with
  | nil => exact absurd hmem List.not_mem_nil
  | cons hhead _ ih =>
    rw [at?_cons]
    rcases List.mem_cons.1 hmem with rfl | hmem
    · exact if_pos rfl
    · rw [if_neg (hhead entry hmem), ih hmem]

theorem ordered_insert (key : Key) (value : Value) (h : entries.Pairwise Before) :
    (insert key value entries).Pairwise Before := by
  induction h with
  | nil => exact List.pairwise_singleton ..
  | @cons head entries hhead hentries ih =>
    rw [insert]
    split
    · next hbefore =>
      refine List.pairwise_cons.2 ⟨fun entry hentry => ?_, ih⟩
      rcases Value.mem_insert hentry with rfl | hentry
      · exact hbefore
      · exact hhead entry hentry
    · next hbefore =>
      split
      · next hslot =>
        refine List.pairwise_cons.2 ⟨fun entry hentry => ?_, hentries⟩
        have hlt := hhead entry hentry
        rwa [Before, hslot] at hlt
      · next hslot =>
        have hlt : Before (key, value) head :=
          Key.before_of_not_before (Bool.eq_false_iff.2 hbefore) hslot
        refine List.pairwise_cons.2 ⟨fun entry hentry => ?_, List.pairwise_cons.2 ⟨hhead, hentries⟩⟩
        rcases List.mem_cons.1 hentry with rfl | hentry
        · exact hlt
        · exact Slot.before_trans hlt (hhead entry hentry)

/-! ### Pair by pair -/

/-- Puts pairs into a map, from the first to the last. -/
def addAll (entries : Entries) (pairs : List (Key × Value)) : Entries :=
  pairs.foldl (fun entries pair => insert pair.1 pair.2 entries) entries

theorem ordered_addAll (pairs : List (Key × Value)) (h : entries.Pairwise Before) :
    (entries.addAll pairs).Pairwise Before := by
  induction pairs generalizing entries with
  | nil => exact h
  | cons pair pairs ih => exact ih (ordered_insert pair.1 pair.2 h)

/-- The last of the pairs with a slot remains, and without one the entry from before. -/
theorem at?_addAll (slot : Slot) (entries : Entries) (pairs : List (Key × Value)) :
    at? slot (entries.addAll pairs) = (at? slot pairs.reverse).or (at? slot entries) := by
  induction pairs generalizing entries with
  | nil => rfl
  | cons pair pairs ih =>
    have hreverse : at? slot (pair :: pairs).reverse =
        (at? slot pairs.reverse).or (at? slot [pair]) := by
      rw [List.reverse_cons, at?, List.find?_append, at?, at?]
    rw [addAll, List.foldl_cons, ← addAll, ih, at?_insert, hreverse, Option.or_assoc, at?_cons]
    split <;> rfl

theorem pairwise_slot_ne (h : entries.Pairwise Before) :
    entries.Pairwise fun a b => a.1.slot ≠ b.1.slot :=
  h.imp Slot.ne_of_before

theorem mem_addAll_iff {pairs : List (Key × Value)} :
    entry ∈ addAll [] pairs ↔ at? entry.1.slot pairs.reverse = some entry := by
  rw [← at?_eq_some_iff (pairwise_slot_ne (ordered_addAll pairs .nil)), at?_addAll]
  simp [at?]

/-- Pairs with different slots make the same map in every order. -/
theorem addAll_perm {pairs pairs' : List (Key × Value)} (h : pairs'.Perm pairs)
    (hslots : pairs.Pairwise fun a b => a.1.slot ≠ b.1.slot) :
    addAll [] pairs' = addAll [] pairs := by
  have hmem (pairs : List (Key × Value)) (hslots : pairs.Pairwise fun a b => a.1.slot ≠ b.1.slot)
      (entry : Key × Value) : entry ∈ addAll [] pairs ↔ entry ∈ pairs := by
    have hreverse : pairs.reverse.Pairwise fun a b => a.1.slot ≠ b.1.slot :=
      List.pairwise_reverse.2 (hslots.imp Ne.symm)
    rw [mem_addAll_iff, at?_eq_some_iff hreverse, List.mem_reverse]
  have hslots' := (h.pairwise_iff fun hne => Ne.symm hne).2 hslots
  refine (ordered_addAll pairs' .nil).eq_of_mem_iff (ordered_addAll pairs .nil) fun entry => ?_
  rw [hmem pairs' hslots', hmem pairs hslots, h.mem_iff]

end Entries

/-! ### Values as keys -/

namespace Value

theorem key?_eq_some_iff {value : Value} {key : Key} :
    value.key? = some key ↔ value = ofKey key := by
  cases value <;> cases key <;> simp [key?, ofKey]

theorem ofKey_injective : Function.Injective ofKey := fun _ _ h =>
  Option.some.inj ((key?_eq_some_iff.2 rfl).symm.trans (key?_eq_some_iff.2 h))

@[simp] theorem slot?_ofKey (key : Key) : (ofKey key).slot? = some key.slot := by
  cases key <;> rfl

@[simp] theorem render_ofKey (key : Key) : (ofKey key).render = key.render := by
  cases key <;> rfl

theorem exists_ofKey_of_slot? {value : Value} (h : value.slot?.isSome) :
    ∃ key, value = ofKey key := by
  rw [slot?, Option.isSome_map, Option.isSome_iff_exists] at h
  exact h.imp fun key hkey => key?_eq_some_iff.1 hkey

/-- A key and a value as a pair of values. -/
def ofPair (pair : Key × Value) : Value × Value :=
  (ofKey pair.1, pair.2)

theorem ofPair_injective : Function.Injective ofPair := fun _ _ h =>
  Prod.ext (ofKey_injective (Prod.mk.inj h).1) (Prod.mk.inj h).2

/-- Pairs whose first parts have slots are pairs of keys and values. -/
theorem exists_pairs {values : List (Value × Value)} (h : ∀ pair ∈ values, pair.1.slot?.isSome) :
    ∃ pairs : List (Key × Value), values = pairs.map ofPair := by
  induction values with
  | nil => exact ⟨[], rfl⟩
  | cons pair values ih =>
    rw [List.forall_mem_cons] at h
    obtain ⟨key, hkey⟩ := exists_ofKey_of_slot? h.1
    obtain ⟨pairs, rfl⟩ := ih h.2
    exact ⟨(key, pair.2) :: pairs, by rw [List.map_cons, ofPair, ← hkey]⟩

/-- The last of some pairs whose key has the slot. -/
def lastAt? (slot : Slot) (values : List (Value × Value)) : Option (Value × Value) :=
  values.reverse.find? fun pair => pair.1.slot? == some slot

theorem lastAt?_map (slot : Slot) (pairs : List (Key × Value)) :
    lastAt? slot (pairs.map ofPair) = (Entries.at? slot pairs.reverse).map ofPair := by
  rw [lastAt?, ← List.map_reverse, List.find?_map]
  simp [Entries.at?, Function.comp_def, ofPair]

theorem index_addAll (pairs : List (Key × Value)) (key : Key) :
    index (.map (Entries.addAll [] pairs)) (ofKey key) =
      .ok (((lastAt? key.slot (pairs.map ofPair)).map (·.2)).getD .null) := by
  have hlast : Entries.at? key.slot (Entries.addAll [] pairs) =
      Entries.at? key.slot pairs.reverse := by
    rw [Entries.at?_addAll]
    exact Option.or_none
  rw [index, key?_eq_some_iff.2 rfl]
  simp only [Entries.get?_eq, hlast, lastAt?_map, Option.map_map]
  rfl

theorem renderEntries_eq (entries : Entries) :
    renderEntries entries =
      entries.map fun entry => (ofKey entry.1).render ++ ": " ++ entry.2.render := by
  induction entries with
  | nil => rfl
  | cons entry entries ih => rw [renderEntries, ih, List.map_cons, render_ofKey]

end Value

/-! ### Map literals -/

namespace Expr

open Value (ofKey ofPair)

/-- Evaluates pairs of expressions from the first to the last, a key before its value. -/
def evalEach (call : Caller) (scope : ScopeId) : List (Expr × Expr) → Eval (List (Value × Value))
  | [] => return []
  | (keyExpr, valueExpr) :: pairs => do
    let key ← keyExpr.eval call scope
    let value ← valueExpr.eval call scope
    return (key, value) :: (← evalEach call scope pairs)

section

variable {call : Caller} {scope : ScopeId} {pairs : List (Expr × Expr)} {world world' : World}

theorem evalPairs_of_evalEach {entries : Entries} {items : List (Key × Value)}
    (h : evalEach call scope pairs world = .ok (items.map ofPair) world') :
    evalPairs call scope entries pairs world = .ok (entries.addAll items) world' := by
  induction pairs generalizing entries items world with
  | nil =>
    cases items with
    | nil => cases h; rfl
    | cons => cases h
  | cons pair pairs ih =>
    obtain ⟨keyValue, world₁, hkey, h⟩ := Action.bind_eq_ok_iff.1 h
    obtain ⟨value, world₂, hvalue, h⟩ := Action.bind_eq_ok_iff.1 h
    obtain ⟨values, world₃, hvalues, h⟩ := Action.bind_eq_ok_iff.1 h
    cases items with
    | nil => cases h
    | cons item items =>
      cases h
      rw [evalPairs, Action.bind_of_ok hkey]
      simp only [Value.key?_eq_some_iff.2 rfl]
      rw [Action.bind_of_ok hvalue]
      exact ih hvalues

theorem eval_map_of_evalEach {items : List (Key × Value)}
    (h : evalEach call scope pairs world = .ok (items.map ofPair) world') :
    (Expr.map pairs).eval call scope world = .ok (.map (Entries.addAll [] items)) world' := by
  rw [eval, Action.bind_of_ok (evalPairs_of_evalEach h)]
  rfl

end

end Expr

end Tang
