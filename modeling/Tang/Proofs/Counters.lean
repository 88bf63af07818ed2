import Tang.Proofs.Action

/-! Counters that are raised and set back by hand. An action may have a counter beside its state,
which it reads and sets as it likes, and the counter keeps its history. Where such an action is
balanced, it does what an action without a counter does, and the counter ends where it began, also
when the action fails. The limit is kept at all times, not only in the end. -/

namespace Tang

variable {ε σ ι α β : Type}

/-! ### Failures as results -/

namespace Action

theorem tryCatch_of_ok {action : EStateM ε σ α} {handle : ε → EStateM ε σ α} {s s' : σ} {a : α}
    (h : action s = .ok a s') : tryCatch action handle s = .ok a s' := by
  show EStateM.tryCatch action handle s = _
  delta EStateM.tryCatch
  rw [h]

theorem tryCatch_of_error {action : EStateM ε σ α} {handle : ε → EStateM ε σ α} {s s' : σ} {e : ε}
    (h : action s = .error e s') : tryCatch action handle s = handle e s' := by
  show EStateM.tryCatch action handle s = _
  delta EStateM.tryCatch
  rw [h]
  rfl

theorem observing_of_ok {action : EStateM ε σ α} {s s' : σ} {a : α} (h : action s = .ok a s') :
    observing action s = .ok (.ok a) s' :=
  tryCatch_of_ok (bind_of_ok h)

theorem observing_of_error {action : EStateM ε σ α} {s s' : σ} {e : ε}
    (h : action s = .error e s') : observing action s = .ok (.error e) s' :=
  tryCatch_of_error (bind_of_error h)

theorem exists_observing (action : EStateM ε σ α) (s : σ) :
    ∃ result s', observing action s = .ok result s' := by
  cases h : action s with
  | ok a s' => exact ⟨.ok a, s', observing_of_ok h⟩
  | error e s' => exact ⟨.error e, s', observing_of_error h⟩

theorem observing_ofExcept (action : EStateM ε σ α) :
    (observing action >>= fun result => ofExcept result) = action := by
  funext s
  cases h : action s with
  | ok a s' =>
    rw [bind_of_ok (observing_of_ok h)]
    rfl
  | error e s' =>
    rw [bind_of_ok (observing_of_error h)]
    rfl

end Action

/-! ### Counters -/

/-- A counter with its history. -/
structure Counter where
  value : Nat
  /-- The values it was set to, the last one first. -/
  values : List Nat
  /-- The values it had when guarded parts were entered, the last one first. -/
  entered : List Nat
  deriving DecidableEq

namespace Counter

def set (n : Nat) (counter : Counter) : Counter :=
  ⟨n, n :: counter.values, counter.entered⟩

def enter (counter : Counter) : Counter :=
  { counter with entered := counter.value :: counter.entered }

/-- The first counter has become the second one. It has its old value again, it was not set to
values above the limit in between, and guarded parts were entered with a value from one to the
limit. -/
structure Kept (limit : Nat) (counter counter' : Counter) : Prop where
  value : counter'.value = counter.value
  values : ∃ more, counter'.values = more ++ counter.values ∧ ∀ n ∈ more, n ≤ limit
  entered : ∃ more, counter'.entered = more ++ counter.entered ∧ ∀ n ∈ more, 1 ≤ n ∧ n ≤ limit

variable {limit : Nat} {counter counter₁ counter₂ : Counter}

theorem Kept.refl (limit : Nat) (counter : Counter) : counter.Kept limit counter :=
  ⟨rfl, ⟨[], rfl, nofun⟩, ⟨[], rfl, nofun⟩⟩

theorem Kept.trans (h : counter.Kept limit counter₁) (h' : counter₁.Kept limit counter₂) :
    counter.Kept limit counter₂ := by
  obtain ⟨hvalue, ⟨more, hmore, hle⟩, ⟨into, hinto, hbetween⟩⟩ := h
  obtain ⟨hvalue', ⟨more', hmore', hle'⟩, ⟨into', hinto', hbetween'⟩⟩ := h'
  refine ⟨hvalue'.trans hvalue, ⟨more' ++ more, ?_, ?_⟩, ⟨into' ++ into, ?_, ?_⟩⟩
  · rw [hmore', hmore, List.append_assoc]
  · exact List.forall_mem_append.2 ⟨hle', hle⟩
  · rw [hinto', hinto, List.append_assoc]
  · exact List.forall_mem_append.2 ⟨hbetween', hbetween⟩

/-- The counter is raised, a guarded part is entered, and the counter is set back behind it. -/
theorem Kept.around (hlt : counter.value < limit)
    (h : ((counter.set (counter.value + 1)).enter).Kept limit counter₁) :
    counter.Kept limit (counter₁.set counter.value) := by
  obtain ⟨-, ⟨more, hmore, hle⟩, ⟨into, hinto, hbetween⟩⟩ := h
  refine ⟨rfl, ⟨counter.value :: (more ++ [counter.value + 1]), ?_, ?_⟩,
    ⟨into ++ [counter.value + 1], ?_, ?_⟩⟩
  · rw [set, hmore]
    simp [enter, set]
  · simp only [List.forall_mem_cons, List.forall_mem_append]
    exact ⟨Nat.le_of_lt hlt, hle, hlt, List.forall_mem_nil _⟩
  · rw [set, hinto]
    simp [enter, set]
  · simp only [List.forall_mem_cons, List.forall_mem_append]
    exact ⟨hbetween, ⟨Nat.succ_pos _, hlt⟩, List.forall_mem_nil _⟩

end Counter

/-- Actions that have a counter beside their state. -/
abbrev Counting (ε σ : Type) := EStateM ε (σ × Counter)

namespace Counting

/-! ### Actions with a counter -/

/-- An action that has nothing to do with the counter. -/
def lift (action : EStateM ε σ α) : Counting ε σ α := fun (s, counter) =>
  match action s with
  | .ok a s => .ok a (s, counter)
  | .error e s => .error e (s, counter)

def count : Counting ε σ Nat := fun (s, counter) => .ok counter.value (s, counter)

def setCount (n : Nat) : Counting ε σ Unit := fun (s, counter) => .ok () (s, counter.set n)

def lower : Counting ε σ Unit := fun (s, counter) => .ok () (s, counter.set (counter.value - 1))

/-- Notes that a guarded part is entered. -/
def enter : Counting ε σ Unit := fun (s, counter) => .ok () (s, counter.enter)

/-- The action `body`, which may use itself again where less is left up to the limit. -/
def recurring (limit : Nat) (stuck : Counting ε σ α)
    (body : (ι → Counting ε σ α) → ι → Counting ε σ α) (i : ι) : Counting ε σ α := fun start =>
  body (fun i' now =>
    if limit - now.2.value < limit - start.2.value then recurring limit stuck body i' now
    else stuck now) i start
termination_by start => limit - start.2.value

/-! ### Balance -/

/-- Wherever the counter is at `n`, the first action does what the second one does, and the counter
is kept. -/
def Balanced (limit n : Nat) (x : Counting ε σ α) (y : EStateM ε σ α) : Prop :=
  ∀ (s : σ) (counter : Counter), counter.value = n →
    ∃ counter', counter.Kept limit counter' ∧ x (s, counter) = lift y (s, counter')

variable {limit n : Nat}

theorem lift_of_ok {action : EStateM ε σ α} {s s' : σ} {a : α} (h : action s = .ok a s')
    (counter : Counter) : lift action (s, counter) = .ok a (s', counter) := by
  simp only [lift, h]

theorem lift_of_error {action : EStateM ε σ α} {s s' : σ} {e : ε} (h : action s = .error e s')
    (counter : Counter) : lift action (s, counter) = .error e (s', counter) := by
  simp only [lift, h]

namespace Balanced

theorem lift (action : EStateM ε σ α) :
    Balanced limit n (Counting.lift action) action :=
  fun _ counter _ => ⟨counter, .refl limit counter, rfl⟩

theorem pure (a : α) : Balanced limit n (pure a : Counting ε σ α) (pure a) :=
  fun _ counter _ => ⟨counter, .refl limit counter, rfl⟩

theorem throw (e : ε) : Balanced limit n (throw e : Counting ε σ α) (throw e) :=
  fun _ counter _ => ⟨counter, .refl limit counter, rfl⟩

theorem bind {x : Counting ε σ α} {y : EStateM ε σ α} {f : α → Counting ε σ β}
    {g : α → EStateM ε σ β} (h : Balanced limit n x y) (hf : ∀ a, Balanced limit n (f a) (g a)) :
    Balanced limit n (x >>= f) (y >>= g) := by
  intro s counter hn
  obtain ⟨counter₁, hkept, hx⟩ := h s counter hn
  cases hy : y s with
  | ok a s' =>
    rw [lift_of_ok hy] at hx
    obtain ⟨counter₂, hkept', hfa⟩ := hf a s' counter₁ (hkept.value.trans hn)
    refine ⟨counter₂, hkept.trans hkept', ?_⟩
    rw [Action.bind_of_ok hx, hfa]
    simp only [Counting.lift, Action.bind_of_ok hy]
  | error e s' =>
    rw [lift_of_error hy] at hx
    refine ⟨counter₁, hkept, ?_⟩
    rw [Action.bind_of_error hx, lift_of_error (Action.bind_of_error hy)]

theorem lift_bind {action : EStateM ε σ α} {f : α → Counting ε σ β} {g : α → EStateM ε σ β}
    (hf : ∀ a, Balanced limit n (f a) (g a)) :
    Balanced limit n (Counting.lift action >>= f) (action >>= g) :=
  (lift action).bind hf

theorem of_ok {x : Counting ε σ α} {y : EStateM ε σ α} {s s' : σ} {counter counter' : Counter}
    {a : α} (h : Balanced limit counter.value x y)
    (hx : x (s, counter) = .ok a (s', counter')) :
    counter.Kept limit counter' ∧ y s = .ok a s' := by
  obtain ⟨counter₁, hkept, hlift⟩ := h s counter rfl
  rw [hx] at hlift
  cases hy : y s with
  | ok b t =>
    rw [lift_of_ok hy] at hlift
    cases hlift
    exact ⟨hkept, rfl⟩
  | error e t =>
    rw [lift_of_error hy] at hlift
    cases hlift

theorem of_error {x : Counting ε σ α} {y : EStateM ε σ α} {s s' : σ} {counter counter' : Counter}
    {e : ε} (h : Balanced limit counter.value x y)
    (hx : x (s, counter) = .error e (s', counter')) :
    counter.Kept limit counter' ∧ y s = .error e s' := by
  obtain ⟨counter₁, hkept, hlift⟩ := h s counter rfl
  rw [hx] at hlift
  cases hy : y s with
  | ok b t =>
    rw [lift_of_ok hy] at hlift
    cases hlift
  | error e' t =>
    rw [lift_of_error hy] at hlift
    cases hlift
    exact ⟨hkept, rfl⟩

/-- The counter is read. -/
theorem count {f : Nat → Counting ε σ α} {y : EStateM ε σ α} (h : Balanced limit n (f n) y) :
    Balanced limit n (Counting.count >>= f) y := by
  rintro s counter rfl
  exact h s counter rfl

theorem observed {x : Counting ε σ α} {y : EStateM ε σ α} (h : Balanced limit n x y) :
    Balanced limit n (observing x) (observing y) := by
  intro s counter hn
  obtain ⟨counter', hkept, hx⟩ := h s counter hn
  refine ⟨counter', hkept, ?_⟩
  cases hy : y s with
  | ok a s' =>
    rw [lift_of_ok hy] at hx
    rw [Action.observing_of_ok hx, lift_of_ok (Action.observing_of_ok hy)]
  | error e s' =>
    rw [lift_of_error hy] at hx
    rw [Action.observing_of_error hx, lift_of_ok (Action.observing_of_error hy)]

/-- The counter is raised for a guarded part and set back behind it, whatever has come of it. -/
theorem guarded {x : Counting ε σ α} {y : EStateM ε σ α} {back : Counting ε σ Unit}
    {f : Except ε α → Counting ε σ β} {g : Except ε α → EStateM ε σ β} (hlt : n < limit)
    (h : Balanced limit (n + 1) x y)
    (hback : ∀ s counter, counter.value = n + 1 → back (s, counter) = .ok () (s, counter.set n))
    (hf : ∀ result, Balanced limit n (f result) (g result)) :
    Balanced limit n
      (do
        setCount (n + 1)
        enter
        let result ← observing x
        back
        f result)
      (do
        let result ← observing y
        g result) := by
  rintro s counter rfl
  obtain ⟨counter₁, hkept, hx⟩ := h.observed s (counter.set (counter.value + 1)).enter rfl
  obtain ⟨result, s', hy⟩ := Action.exists_observing y s
  obtain ⟨counter₂, hkept', hresult⟩ := hf result s' (counter₁.set counter.value) rfl
  refine ⟨counter₂, (Counter.Kept.around hlt hkept).trans hkept', ?_⟩
  rw [lift_of_ok hy] at hx
  calc
    _ = (observing x >>= fun result => back >>= fun _ => f result)
          (s, (counter.set (counter.value + 1)).enter) := rfl
    _ = f result (s', counter₁.set counter.value) := by
      rw [Action.bind_of_ok hx, Action.bind_of_ok (hback s' counter₁ hkept.value)]
    _ = Counting.lift (observing y >>= g) (s, counter₂) := by
      rw [hresult]
      simp only [Counting.lift, Action.bind_of_ok hy]

end Balanced

/-- An action is balanced if its body is, where the body uses the action itself only at higher
values of the counter. -/
theorem balanced_recurring {limit : Nat} {stuck : Counting ε σ α}
    {body : (ι → Counting ε σ α) → ι → Counting ε σ α} {target : Nat → ι → EStateM ε σ α}
    (hbody : ∀ n, ∀ again : ι → Counting ε σ α,
      (n < limit → ∀ i, Balanced limit (n + 1) (again i) (target (n + 1) i)) →
      ∀ i, Balanced limit n (body again i) (target n i))
    (n : Nat) (i : ι) :
    Balanced limit n (recurring limit stuck body i) (target n i) := by
  rintro s counter hn
  rw [recurring]
  refine hbody n _ (fun hlt i' s' counter' hn' => ?_) i s counter hn
  -- at a higher value the test is passed, so `stuck` is never run
  have hfewer : limit - counter'.value < limit - counter.value := by omega
  simp only [if_pos hfewer]
  exact balanced_recurring hbody (n + 1) i' s' counter' hn'
termination_by limit - n

end Counting

end Tang
