-- SUMMARY: Weakest preconditions and successful runs of programs whose state survives a failure.

/-!
# Runs with a state

The parser and the checker are programs that read and write a state and may stop
with an error, and the state they had by then can still be seen. `wp` tells what
has to hold of a state before such a program for given facts to hold after it:
one postcondition for a value, another for an error. A program as a whole is taken
apart the other way round, from a run that succeeded: each `_ok` lemma says exactly
what such a run went through.
-/

namespace Slate

variable {ε σ α β : Type}

/-- Run from the state, the program either yields a value as in `Q` or stops with
an error as in `F`. -/
def wp (m : EStateM ε σ α) (Q : α → σ → Prop) (F : ε → σ → Prop) (s : σ) : Prop :=
  match m s with
  | .ok a s' => Q a s'
  | .error e s' => F e s'

variable {m : EStateM ε σ α} {f : α → EStateM ε σ β} {s s' : σ} {a : α} {e : ε}
variable {Q Q' : α → σ → Prop} {F F' : ε → σ → Prop}

/-! ## Primitive programs -/

theorem wp_pure : wp (pure a) Q F s ↔ Q a s := Iff.rfl

theorem wp_throw : wp (throw e : EStateM ε σ α) Q F s ↔ F e s := Iff.rfl

theorem wp_get {Q : σ → σ → Prop} : wp (get : EStateM ε σ σ) Q F s ↔ Q s s := Iff.rfl

theorem wp_bind {Q : β → σ → Prop} :
    wp (m >>= f) Q F s ↔ wp m (fun a s' => wp (f a) Q F s') F s := by
  simp only [wp, bind, EStateM.bind]
  cases m s <;> exact Iff.rfl

theorem bind_of_ok (h : m s = .ok a s') : (m >>= f) s = f a s' := by
  simp only [bind, EStateM.bind, h]

theorem bind_of_error (h : m s = .error e s') : (m >>= f) s = .error e s' := by
  simp only [bind, EStateM.bind, h]

theorem get_bind_apply {f : σ → EStateM ε σ α} : (get >>= f) s = f s s := rfl

/-- What goes on behind a run depends on the outcome of that run only. -/
theorem bind_congr_run {m' : EStateM ε σ α} {s₁ : σ} (h : m s = m' s₁) :
    (m >>= f) s = (m' >>= f) s₁ := by
  simp only [bind, EStateM.bind, h]

/-! ## Consequence -/

theorem wp_mono (h : wp m Q F s) (hQ : ∀ a s', Q a s' → Q' a s') (hF : ∀ e s', F e s' → F' e s') :
    wp m Q' F' s := by
  unfold wp at h ⊢
  split at h
  · exact hQ _ _ h
  · exact hF _ _ h

theorem wp_and (h : wp m Q F s) (h' : wp m Q' F' s) :
    wp m (fun a s' => Q a s' ∧ Q' a s') (fun e s' => F e s' ∧ F' e s') s := by
  unfold wp at h h' ⊢
  cases hm : m s with
  | ok a s' =>
    rw [hm] at h h'
    exact ⟨h, h'⟩
  | error e s' =>
    rw [hm] at h h'
    exact ⟨h, h'⟩

theorem wp_of_ok (h : wp m Q F s) (hm : m s = .ok a s') : Q a s' := by
  simpa [wp, hm] using h

theorem wp_of_error (h : wp m Q F s) (hm : m s = .error e s') : F e s' := by
  simpa [wp, hm] using h

/-! ## Success -/

@[simp] theorem pure_ok {b : α} : (pure a : EStateM ε σ α) s = .ok b s' ↔ b = a ∧ s' = s := by
  constructor
  · rintro ⟨⟩
    exact ⟨rfl, rfl⟩
  · rintro ⟨rfl, rfl⟩
    rfl

@[simp] theorem get_ok {s₁ : σ} : (get : EStateM ε σ σ) s = .ok s₁ s' ↔ s₁ = s ∧ s' = s :=
  pure_ok

@[simp] theorem modify_ok {g : σ → σ} {u : PUnit} :
    (modify g : EStateM ε σ PUnit) s = .ok u s' ↔ s' = g s := by
  constructor
  · rintro ⟨⟩
    rfl
  · rintro rfl
    rfl

theorem bind_ok {b : β} :
    (m >>= f) s = .ok b s' ↔ ∃ a s₁, m s = .ok a s₁ ∧ f a s₁ = .ok b s' := by
  simp only [bind, EStateM.bind]
  cases m s with
  | ok a s₁ => simp [and_assoc]
  | error e s₁ => simp

/-- A choice between two programs with one continuation. -/
theorem ite_bind_ok {c : Prop} [Decidable c] {m' : EStateM ε σ α} {b : β} :
    (if c then m >>= f else m' >>= f) s = .ok b s' ↔
      ∃ a s₁, (if c then m else m') s = .ok a s₁ ∧ f a s₁ = .ok b s' := by
  split <;> exact bind_ok

theorem map_ok {f : α → β} {b : β} :
    (f <$> m) s = .ok b s' ↔ ∃ a, m s = .ok a s' ∧ f a = b := by
  simp only [Functor.map, EStateM.map]
  cases m s with
  | ok a s₁ =>
    simp only [EStateM.Result.ok.injEq]
    constructor
    · rintro ⟨rfl, rfl⟩
      exact ⟨a, ⟨rfl, rfl⟩, rfl⟩
    · rintro ⟨_, ⟨rfl, rfl⟩, rfl⟩
      exact ⟨rfl, rfl⟩
  | error e s₁ => simp

theorem get_bind_ok {f : σ → EStateM ε σ α} :
    (get >>= f) s = .ok a s' ↔ f s s = .ok a s' := by
  rw [get_bind_apply]

@[simp] theorem throw_ok : ¬ (throw e : EStateM ε σ α) s = .ok a s' := by
  rintro ⟨⟩

end Slate
