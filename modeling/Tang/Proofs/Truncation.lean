import Tang.Proofs.Action

/-! A bounded output only truncates. An action is run in a world whose output is unlimited and in
the same world with at most `bound` bytes of output. If what the first run writes fits, then the
second run does the same; otherwise the second run fails, and its output is the first `bound` bytes of the
first run's. Sequences of actions keep this property because an output only grows, and nothing
catches the failure before a whole program has ended. -/

namespace Tang

namespace Action

variable {ε σ α : Type}

/-- The state in which a run has ended. -/
def final : EStateM.Result ε σ α → σ
  | .ok _ s => s
  | .error _ s => s

/-- What a run has given, apart from the state. -/
def result : EStateM.Result ε σ α → Except ε α
  | .ok a _ => .ok a
  | .error e _ => .error e

def mapFinal (f : σ → σ) : EStateM.Result ε σ α → EStateM.Result ε σ α
  | .ok a s => .ok a (f s)
  | .error e s => .error e (f s)

@[simp] theorem final_ok (a : α) (s : σ) : final (.ok a s : EStateM.Result ε σ α) = s := rfl

@[simp] theorem final_error (e : ε) (s : σ) : final (.error e s : EStateM.Result ε σ α) = s := rfl

theorem final_mapFinal (f : σ → σ) (r : EStateM.Result ε σ α) :
    final (mapFinal f r) = f (final r) := by
  cases r <;> rfl

theorem result_mapFinal (f : σ → σ) (r : EStateM.Result ε σ α) :
    result (mapFinal f r) = result r := by
  cases r <;> rfl

end Action

open Tang.Action (final result mapFinal final_ok final_error final_mapFinal result_mapFinal)

namespace World

def output (world : World) : ByteArray :=
  world.sink.written

/-- The world with at most `bound` bytes of output. -/
def bounded (bound : Nat) (world : World) : World :=
  { world with sink := ⟨world.output, some bound⟩ }

theorem bounded_initial (bound created : Nat) :
    initial (some bound) created = (initial none created).bounded bound := rfl

end World

variable {ε α β : Type}

/-- With bounded output the action does the same as without a bound, or fails with `full` after it
has written as much as fits. -/
structure Truncates (full : ε) (bound : Nat) (action : EStateM ε World α) : Prop where
  grows {world : World} : world.sink.capacity = none →
    (final (action world)).sink.capacity = none ∧
      ∃ more, (final (action world)).output = world.output ++ more
  same {world : World} : world.sink.capacity = none →
    (final (action world)).output.size ≤ bound →
      action (world.bounded bound) = mapFinal (World.bounded bound) (action world)
  cut {world : World} : world.sink.capacity = none → world.output.size ≤ bound →
    bound < (final (action world)).output.size →
      ∃ world', action (world.bounded bound) = .error full world' ∧
        world'.sink = ⟨(final (action world)).output.extract 0 bound, some bound⟩

theorem extract_append_of_le {a b : ByteArray} {n : Nat} (h : n ≤ a.size) :
    (a ++ b).extract 0 n = a.extract 0 n := by
  rw [ByteArray.extract_append, show n - a.size = 0 by omega, Nat.zero_sub, ByteArray.extract_same,
    ByteArray.append_empty]

theorem extract_of_size_le {a : ByteArray} {n : Nat} (h : a.size ≤ n) : a.extract 0 n = a := by
  have hmax : max n a.size = n := by omega
  rw [← hmax, ByteArray.extract_zero_max_size]

namespace Sink

variable {text : String} {written : ByteArray} {bound : Nat}

theorem write_unlimited :
    write text ⟨written, none⟩ = .ok () ⟨written ++ text.toUTF8, none⟩ := rfl

theorem write_of_fits (h : (written ++ text.toUTF8).size ≤ bound) :
    write text ⟨written, some bound⟩ = .ok () ⟨written ++ text.toUTF8, some bound⟩ := by
  rw [ByteArray.size_append] at h
  simp only [write, writeBytes]
  exact if_pos (by omega)

theorem write_of_overflows (hw : written.size ≤ bound)
    (h : bound < (written ++ text.toUTF8).size) :
    write text ⟨written, some bound⟩ =
      .error .sinkFull ⟨(written ++ text.toUTF8).extract 0 bound, some bound⟩ := by
  rw [ByteArray.size_append] at h
  rw [ByteArray.extract_append, extract_of_size_le hw, Nat.zero_sub]
  simp only [write, writeBytes]
  exact if_neg (by omega)

end Sink

namespace Truncates

variable {full : ε} {bound : Nat}

/-- An action that neither changes the output nor depends on it. -/
theorem of_silent {action : EStateM ε World α}
    (hs : ∀ world, (final (action world)).sink = world.sink)
    (hb : ∀ world, action (world.bounded bound) = mapFinal (World.bounded bound) (action world)) :
    Truncates full bound action where
  grows {world} hcap := ⟨by rw [hs, hcap], .empty, by simp [World.output, hs]⟩
  same {world} _ _ := hb world
  cut {world} _ hsize hlt := by
    rw [World.output, hs] at hlt
    exact absurd hsize (by rw [World.output]; omega)

theorem pure (a : α) : Truncates full bound (Pure.pure a : EStateM ε World α) :=
  of_silent (fun _ => rfl) fun _ => rfl

theorem throw (e : ε) : Truncates full bound (MonadExcept.throw e : EStateM ε World α) :=
  of_silent (fun _ => rfl) fun _ => rfl

theorem bind {action : EStateM ε World α} {next : α → EStateM ε World β}
    (h : Truncates full bound action) (hn : ∀ a, Truncates full bound (next a)) :
    Truncates full bound (action >>= next) where
  grows {world} hcap := by
    have hg := h.grows hcap
    cases hr : action world with
    | error e world₁ =>
      simp only [hr, final_error] at hg
      simpa only [Action.bind_of_error hr, final_error] using hg
    | ok a world₁ =>
      simp only [hr, final_ok] at hg
      obtain ⟨hcap₁, more, hmore⟩ := hg
      obtain ⟨hcap₂, more', hmore'⟩ := (hn a).grows hcap₁
      rw [Action.bind_of_ok hr]
      exact ⟨hcap₂, more ++ more', by rw [hmore', hmore, ByteArray.append_assoc]⟩
  same {world} hcap hle := by
    cases hr : action world with
    | error e world₁ =>
      rw [Action.bind_of_error hr] at hle ⊢
      have hsame := h.same hcap (by simpa only [hr, final_error] using hle)
      exact Action.bind_of_error (by rw [hsame, hr]; rfl)
    | ok a world₁ =>
      have hg := h.grows hcap
      simp only [hr, final_ok] at hg
      rw [Action.bind_of_ok hr] at hle ⊢
      obtain ⟨-, more, hmore⟩ := (hn a).grows hg.1
      have hle₁ : world₁.output.size ≤ bound := by
        rw [hmore, ByteArray.size_append] at hle
        omega
      have hsame := h.same hcap (by simpa only [hr, final_ok] using hle₁)
      rw [hr] at hsame
      rw [Action.bind_of_ok hsame]
      exact (hn a).same hg.1 hle
  cut {world} hcap hsize hlt := by
    cases hr : action world with
    | error e world₁ =>
      rw [Action.bind_of_error hr] at hlt ⊢
      obtain ⟨world', hr', hsink⟩ := h.cut hcap hsize (by simpa only [hr, final_error] using hlt)
      exact ⟨world', Action.bind_of_error hr', by simpa only [hr, final_error] using hsink⟩
    | ok a world₁ =>
      have hg := h.grows hcap
      simp only [hr, final_ok] at hg
      rw [Action.bind_of_ok hr] at hlt ⊢
      by_cases hfit : world₁.output.size ≤ bound
      · have hsame := h.same hcap (by simpa only [hr, final_ok] using hfit)
        rw [hr] at hsame
        rw [Action.bind_of_ok hsame]
        exact (hn a).cut hg.1 hfit hlt
      · -- the bound is passed in the first action, and what the second one adds is cut off
        have hover : bound < world₁.output.size := Nat.lt_of_not_le hfit
        obtain ⟨world', hr', hsink⟩ := h.cut hcap hsize (by simpa only [hr, final_ok] using hover)
        obtain ⟨-, more, hmore⟩ := (hn a).grows hg.1
        refine ⟨world', Action.bind_of_error hr', ?_⟩
        rw [hsink, hr, hmore, final_ok, extract_append_of_le (Nat.le_of_lt hover)]

/-- Writing. What has to be written is the same in both runs, and the sink cuts it off. -/
theorem onSink_write {action : EStateM ε Sink Unit} {text : String} (full : ε)
    (hok : ∀ sink sink', Sink.write text sink = .ok () sink' → action sink = .ok () sink')
    (herr : ∀ sink sink', Sink.write text sink = .error .sinkFull sink' →
      action sink = .error full sink') :
    Truncates full bound (World.onSink action) := by
  have hunlimited {world : World} (hcap : world.sink.capacity = none) :
      World.onSink action world =
        .ok () { world with sink := ⟨world.output ++ text.toUTF8, none⟩ } := by
    obtain ⟨scopes, created, written, capacity⟩ := world
    obtain rfl : capacity = none := hcap
    exact Action.onSink_of_ok (hok _ _ Sink.write_unlimited)
  refine ⟨fun {world} hcap => ?_, fun {world} hcap hle => ?_, fun {world} hcap hsize hlt => ?_⟩
  · rw [hunlimited hcap]
    exact ⟨rfl, text.toUTF8, rfl⟩
  · rw [hunlimited hcap] at hle ⊢
    exact Action.onSink_of_ok (hok _ _ (Sink.write_of_fits hle))
  · rw [hunlimited hcap] at hlt ⊢
    exact ⟨_, Action.onSink_of_error (herr _ _ (Sink.write_of_overflows hsize hlt)), rfl⟩

end Truncates

end Tang
