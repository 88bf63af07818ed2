import Tang.World

/-! How actions run. In a sequence the second one runs where the first one has ended, and not at all
if the first one has failed. An action on the output leaves the rest of the world as it is. -/

namespace Tang.Action

variable {ε σ α β : Type} {action : EStateM ε σ α} {next : α → EStateM ε σ β} {s s' : σ}

theorem bind_of_ok {a : α} (h : action s = .ok a s') : (action >>= next) s = next a s' := by
  simp only [bind, EStateM.bind, h]

theorem bind_of_error {e : ε} (h : action s = .error e s') :
    (action >>= next) s = .error e s' := by
  simp only [bind, EStateM.bind, h]

theorem bind_eq_ok_iff {b : β} :
    (action >>= next) s = .ok b s' ↔ ∃ a t, action s = .ok a t ∧ next a t = .ok b s' := by
  constructor
  · intro hb
    cases h : action s with
    | ok a t => exact ⟨a, t, rfl, by rwa [bind_of_ok h] at hb⟩
    | error e t => rw [bind_of_error h] at hb; cases hb
  · rintro ⟨a, t, h, hb⟩
    rwa [bind_of_ok h]

theorem onSink_of_ok {action : EStateM ε Sink α} {world : World} {a : α} {sink : Sink}
    (h : action world.sink = .ok a sink) :
    World.onSink action world = .ok a { world with sink := sink } := by
  simp only [World.onSink, h]

theorem onSink_of_error {action : EStateM ε Sink α} {world : World} {e : ε} {sink : Sink}
    (h : action world.sink = .error e sink) :
    World.onSink action world = .error e { world with sink := sink } := by
  simp only [World.onSink, h]

end Tang.Action
