import Tang.Builtin.Apply
import Tang.Proofs.Action
import Tang.Proofs.Occurrence
import Tang.Value.Operators

/-! What can be called and where it comes from. A value has the functions and builtin functions that
it is made of. Operators and builtin functions make none: what a result has, one of the arguments
had. -/

namespace Tang

inductive Callable where
  | function (f : Closure)
  | builtin (which : Builtin)

namespace Value

/-- The function, or builtin function, is the value or stands somewhere in it. -/
inductive Has : Callable → Value → Prop where
  | function {f : Closure} : Has (.function f) (.function f)
  | builtin {which : Builtin} : Has (.builtin which) (.builtin which)
  | list {c : Callable} {elements : List Value} {value : Value} :
    value ∈ elements → Has c value → Has c (.list elements)
  | tuple {c : Callable} {elements : List Value} {value : Value} :
    value ∈ elements → Has c value → Has c (.tuple elements)
  | map {c : Callable} {entries : List (Key × Value)} {key : Key} {value : Value} :
    (key, value) ∈ entries → Has c value → Has c (.map entries)

variable {c : Callable}

@[simp] theorem not_has_int (n : Int64) : ¬ Has c (.int n) := nofun

@[simp] theorem not_has_bool (b : Bool) : ¬ Has c (.bool b) := nofun

@[simp] theorem not_has_str (text : String) : ¬ Has c (.str text) := nofun

@[simp] theorem not_has_null : ¬ Has c .null := nofun

@[simp] theorem has_function {f : Closure} : Has c (.function f) ↔ c = .function f :=
  ⟨fun | .function => rfl, fun h => h ▸ .function⟩

@[simp] theorem has_builtin {which : Builtin} : Has c (.builtin which) ↔ c = .builtin which :=
  ⟨fun | .builtin => rfl, fun h => h ▸ .builtin⟩

@[simp] theorem has_list {elements : List Value} :
    Has c (.list elements) ↔ ∃ value ∈ elements, Has c value :=
  ⟨fun | .list hv hc => ⟨_, hv, hc⟩, fun ⟨_, hv, hc⟩ => .list hv hc⟩

@[simp] theorem has_tuple {elements : List Value} :
    Has c (.tuple elements) ↔ ∃ value ∈ elements, Has c value :=
  ⟨fun | .tuple hv hc => ⟨_, hv, hc⟩, fun ⟨_, hv, hc⟩ => .tuple hv hc⟩

@[simp] theorem has_map {entries : Entries} :
    Has c (.map entries) ↔ ∃ entry ∈ entries, Has c entry.2 :=
  ⟨fun | .map hv hc => ⟨_, hv, hc⟩, fun ⟨_, hv, hc⟩ => .map hv hc⟩

/-- A value holds the functions that it has. -/
theorem holds_iff_has {f : Closure} {value : Value} : value.Holds f ↔ value.Has (.function f) := by
  constructor
  · intro h
    induction h with
    | function => exact .function
    | list hv _ ih => exact .list hv ih
    | tuple hv _ ih => exact .tuple hv ih
    | map hv _ ih => exact .map hv ih
  · intro h
    generalize hc : Callable.function f = c at h
    induction h with
    | function => cases hc; exact .function
    | builtin => cases hc
    | list hv _ ih => exact .list hv (ih hc)
    | tuple hv _ ih => exact .tuple hv (ih hc)
    | map hv _ ih => exact .map hv (ih hc)

/-! ### Operators -/

theorem not_has_of_unary {op : UnaryOp} {value result : Value} (h : unary op value = .ok result) :
    ¬ result.Has c := by
  cases op with
  | not => cases h; simp
  | negate =>
    rw [unary, negate.eq_def] at h
    split at h
    · split at h <;> cases h
      simp
    · cases h

theorem not_has_of_exact {op : BinaryOp} {l r : Int64} {n : Int} {result : Value}
    (h : exact op l r n = .ok result) : ¬ result.Has c := by
  unfold exact at h
  split at h <;> cases h
  simp

theorem not_has_of_integers {op : BinaryOp} {l r : Int64} {result : Value}
    (h : integers op l r = .ok result) : ¬ result.Has c := by
  cases op <;> simp only [integers] at h
  case add | sub | mul => exact not_has_of_exact h
  case div =>
    split at h
    · cases h
    · exact not_has_of_exact h
  case rem =>
    split at h
    · cases h
    · split at h
      · exact not_has_of_exact h
      · cases h
  all_goals cases h; simp

theorem not_has_of_binary {op : BinaryOp} {left right result : Value}
    (h : binary op left right = .ok result) : ¬ result.Has c := by
  unfold binary at h
  split at h
  · exact not_has_of_integers h
  · split at h <;> cases h <;> simp
  · split at h
    · cases h; simp
    · cases h; simp
    · split at h <;> cases h

theorem has_of_element {elements : List Value} {position : Int64} {result : Value}
    (h : element elements position = .ok result) (hc : result.Has c) :
    ∃ value ∈ elements, value.Has c := by
  simp only [element] at h
  split at h
  · next value hget =>
    obtain rfl := Except.ok.inj h
    split at hget
    · exact ⟨value, List.mem_of_getElem? hget, hc⟩
    · cases hget
  · cases h

theorem has_of_index {target position result : Value} (h : index target position = .ok result)
    (hc : result.Has c) : target.Has c := by
  unfold index at h
  split at h
  · exact has_list.2 (has_of_element h hc)
  · exact has_tuple.2 (has_of_element h hc)
  · cases h
  · cases h
  · next entries =>
    split at h
    · next key _ =>
      obtain rfl := Except.ok.inj h
      cases hget : Entries.get? entries key with
      | none => simp [hget] at hc
      | some value =>
        obtain ⟨entry, hentry, rfl⟩ := Option.map_eq_some_iff.1 hget
        rw [hget] at hc
        exact has_map.2 ⟨entry, List.mem_of_find?_eq_some hentry, hc⟩
    · cases h
  · cases h

theorem mem_insert {key : Key} {value : Value} {entries : Entries} {entry : Key × Value}
    (h : entry ∈ Entries.insert key value entries) : entry = (key, value) ∨ entry ∈ entries := by
  induction entries with
  | nil => simpa [Entries.insert] using h
  | cons head entries ih =>
    rw [Entries.insert] at h
    split at h
    · rcases List.mem_cons.1 h with rfl | h
      · exact .inr List.mem_cons_self
      · exact (ih h).imp_right (List.mem_cons_of_mem _)
    · split at h
      · exact (List.mem_cons.1 h).imp_right (List.mem_cons_of_mem _)
      · exact List.mem_cons.1 h

end Value

/-! ### Builtin functions -/

namespace Builtin

variable {α β : Type}

/-- The action gives only values with the property, and never a `return`. -/
def Yields (property : α → Prop) (action : Action α) : Prop :=
  ∀ sink, match action sink with
    | .ok a _ => property a
    | .error signal _ => ∀ value, signal ≠ .ret value

variable {property : α → Prop} {property' : β → Prop}

theorem yields_pure {a : α} (h : property a) : Yields property (pure a) :=
  fun _ => h

theorem yields_fail (cause : RuntimeError) : Yields property (Signal.fail cause) :=
  fun _ => nofun

theorem yields_exit (code : Int32) : Yields property (throw (.exit code)) :=
  fun _ => nofun

theorem yields_lift {result : Except RuntimeError α} (h : ∀ a, result = .ok a → property a) :
    Yields property (Signal.lift result) := by
  cases result with
  | ok a => exact yields_pure (h a rfl)
  | error cause => exact yields_fail cause

theorem Yields.imp {action : Action α} {weaker : α → Prop} (h : Yields property action)
    (hw : ∀ a, property a → weaker a) : Yields weaker action := by
  intro sink
  have hs := h sink
  cases hr : action sink with
  | ok a sink' =>
    rw [hr] at hs
    exact hw a hs
  | error signal sink' =>
    rw [hr] at hs
    exact hs

theorem Yields.bind {action : Action α} {next : α → Action β} (h : Yields property action)
    (hn : ∀ a, property a → Yields property' (next a)) : Yields property' (action >>= next) := by
  intro sink
  have hs := h sink
  cases hr : action sink with
  | ok a sink' =>
    rw [hr] at hs
    rw [Action.bind_of_ok hr]
    exact hn a hs sink'
  | error signal sink' =>
    rw [hr] at hs
    rw [Action.bind_of_error hr]
    exact hs

theorem yields_writeLine (text : String) : Yields (fun _ => True) (writeLine text) := by
  intro sink
  unfold writeLine
  cases Sink.writeLine text sink <;> simp

theorem yields_printAll (values : List Value) : Yields (fun _ => True) (printAll values) := by
  induction values with
  | nil => exact yields_pure trivial
  | cons value values ih => exact (yields_writeLine _).bind fun _ _ => ih

theorem has_of_elements {builtin : Builtin} {arg : Value} {values : List Value} {c : Callable}
    (h : elements builtin arg = .ok values) (hc : ∃ value ∈ values, value.Has c) : arg.Has c := by
  cases arg with
  | list values' => cases h; exact Value.has_list.2 hc
  | _ => cases h

theorem not_has_of_length {arg result : Value} {c : Callable} (h : length arg = .ok result) :
    ¬ result.Has c := by
  unfold length at h
  split at h <;> cases h <;> simp

/-- The functions that a result of a builtin function has are those of an argument. -/
theorem yields_apply (builtin : Builtin) (args : List Value) :
    Yields (fun result => ∀ c, result.Has c → ∃ arg ∈ args, arg.Has c) (builtin.apply args) := by
  have hplain {value : Value} (h : ∀ c, ¬ value.Has c) :
      Yields (fun result => ∀ c, result.Has c → ∃ arg ∈ args, arg.Has c) (pure value) :=
    yields_pure fun c hc => absurd hc (h c)
  unfold apply
  split
  · exact (yields_printAll _).bind fun _ _ => hplain (by simp)
  · exact (yields_lift fun _ _ => trivial).bind fun _ _ => hplain (by simp)
  · exact yields_fail _
  · exact yields_lift fun result hr c hc => absurd hc (not_has_of_length hr)
  · next arg =>
    apply (yields_lift fun values hvalues c => has_of_elements (c := c) hvalues).bind
    intro values hvalues
    cases values with
    | nil => exact hplain (by simp)
    | cons value values =>
      exact yields_pure fun c hc => ⟨arg, by simp, hvalues c ⟨value, by simp, hc⟩⟩
  · next arg =>
    apply (yields_lift fun values hvalues c => has_of_elements (c := c) hvalues).bind
    intro values hvalues
    cases hlast : values.getLast? with
    | none => exact hplain (by simp)
    | some value =>
      refine yields_pure fun c hc => ⟨arg, by simp, hvalues c ⟨value, ?_, hc⟩⟩
      exact List.mem_of_getLast? hlast
  · next arg =>
    apply (yields_lift fun values hvalues c => has_of_elements (c := c) hvalues).bind
    intro values hvalues
    cases values with
    | nil => exact hplain (by simp [tailOrNull])
    | cons value values =>
      refine yields_pure fun c hc => ⟨arg, by simp, hvalues c ?_⟩
      obtain ⟨v, hv, hvc⟩ := Value.has_list.1 hc
      exact ⟨v, List.mem_cons_of_mem _ hv, hvc⟩
  · next arg value =>
    apply (yields_lift fun values hvalues c => has_of_elements (c := c) hvalues).bind
    intro values hvalues
    refine yields_pure fun c hc => ?_
    obtain ⟨v, hv, hvc⟩ := Value.has_list.1 hc
    rcases List.mem_append.1 hv with hv | hv
    · exact ⟨arg, by simp, hvalues c ⟨v, hv, hvc⟩⟩
    · exact ⟨v, by simp_all, hvc⟩
  · exact yields_fail _
  · exact (yields_lift fun _ _ => trivial).bind fun code _ => yields_exit code
  · exact (yields_writeLine _).bind fun _ _ => yields_exit 1
  · exact yields_fail _

end Builtin

end Tang
