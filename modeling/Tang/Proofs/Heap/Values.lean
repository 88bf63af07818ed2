import Tang.Proofs.Callables
import Tang.Proofs.Heap.Scopes

/-! Results fit the scopes that the arguments fit, since operators and builtin functions make no
functions. -/

namespace Tang

/-! ### Values made from others -/

namespace Value

variable {rule : Rule} {size : Nat}

theorem fits_of_not_holds {value : Value} (h : ∀ f, ¬ value.Holds f) : value.Fits rule size :=
  fun f hf => absurd hf (h f)

theorem fits_of_not_has {value : Value} (h : ∀ c, ¬ value.Has c) : value.Fits rule size :=
  fun f hf => absurd (holds_iff_has.1 hf) (h (.function f))

theorem fits_list {elements : List Value} :
    (Value.list elements).Fits rule size ↔ ∀ value ∈ elements, value.Fits rule size := by
  constructor
  · intro h value hv f hf
    exact h f (.list hv hf)
  · intro h f hf
    obtain ⟨value, hv, hf⟩ := holds_list.1 hf
    exact h value hv f hf

theorem fits_tuple {elements : List Value} :
    (Value.tuple elements).Fits rule size ↔ ∀ value ∈ elements, value.Fits rule size := by
  constructor
  · intro h value hv f hf
    exact h f (.tuple hv hf)
  · intro h f hf
    obtain ⟨value, hv, hf⟩ := holds_tuple.1 hf
    exact h value hv f hf

theorem fits_map {entries : Entries} :
    (Value.map entries).Fits rule size ↔ ∀ entry ∈ entries, entry.2.Fits rule size := by
  constructor
  · intro h entry hv f hf
    exact h f (.map hv hf)
  · intro h f hf
    obtain ⟨key, value, hv, hf⟩ := holds_map.1 hf
    exact h (key, value) hv f hf

theorem fits_function {f : Closure} : (Value.function f).Fits rule size ↔ f.Fits rule size := by
  constructor
  · intro h
    exact h f .function
  · intro h g hg
    obtain rfl := holds_function.1 hg
    exact h

theorem fits_of_unary {op : UnaryOp} {value result : Value} (h : unary op value = .ok result) :
    result.Fits rule size :=
  fits_of_not_has fun _ => not_has_of_unary h

theorem fits_of_binary {op : BinaryOp} {left right result : Value}
    (h : binary op left right = .ok result) : result.Fits rule size :=
  fits_of_not_has fun _ => not_has_of_binary h

theorem fits_of_index {target position result : Value} (ht : target.Fits rule size)
    (h : index target position = .ok result) : result.Fits rule size :=
  fun f hf => ht f (holds_iff_has.2 (has_of_index h (holds_iff_has.1 hf)))

end Value

/-! ### Builtin functions -/

theorem Builtin.yields_fits_apply {rule : Rule} {size : Nat} (builtin : Builtin)
    {args : List Value} (hargs : ∀ value ∈ args, value.Fits rule size) :
    Yields (Value.Fits rule size) (builtin.apply args) := by
  refine (builtin.yields_apply args).imp fun result hresult f hf => ?_
  obtain ⟨arg, harg, hc⟩ := hresult _ (Value.holds_iff_has.1 hf)
  exact hargs arg harg f (Value.holds_iff_has.2 hc)

end Tang
