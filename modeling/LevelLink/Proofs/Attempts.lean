import LevelLink.Attempt

/-!
# Attempts with a known course

What an attempt does when it is known how its first part ends, and what the first part must have done when
the whole has succeeded.
-/

namespace LevelLink

/-- Both parts of what succeeds succeed. -/
theorem parts_of_bind_ok {ε α β : Type} {x : Except ε α} {f : α → Except ε β} {b : β} (h : x >>= f = .ok b) :
    ∃ a, x = .ok a ∧ f a = .ok b := by
  rcases x with e | a
  · cases h
  · exact ⟨a, rfl, h⟩

namespace Attempt

variable {ε ω α β : Type} {a : Attempt ε ω α} {w w₁ : ω} {x : α} {e : ε}

theorem on_bind_of_ok (h : a.on w = (.ok x, w₁)) (f : α → Attempt ε ω β) :
    (a >>= f).on w = (f x).on w₁ := by
  rw [on_bind, h]

theorem on_bind_of_error (h : a.on w = (.error e, w₁)) (f : α → Attempt ε ω β) :
    (a >>= f).on w = (.error e, w₁) := by
  rw [on_bind, h]

theorem on_tryCatch_of_ok (h : a.on w = (.ok x, w₁)) (f : ε → Attempt ε ω α) :
    (tryCatch a f).on w = (.ok x, w₁) := by
  rw [on_tryCatch, h]

theorem on_tryCatch_of_error (h : a.on w = (.error e, w₁)) (f : ε → Attempt ε ω α) :
    (tryCatch a f).on w = (f e).on w₁ := by
  rw [on_tryCatch, h]

/-- Both parts of an attempt that succeeds succeed. -/
theorem parts_of_on_bind_ok {f : α → Attempt ε ω β} {y : β} {w' : ω} (h : (a >>= f).on w = (.ok y, w')) :
    ∃ x w₁, a.on w = (.ok x, w₁) ∧ (f x).on w₁ = (.ok y, w') := by
  rcases ha : a.on w with ⟨e | x, w₁⟩
  · rw [on_bind_of_error ha] at h
    cases h
  · rw [on_bind_of_ok ha] at h
    exact ⟨x, w₁, rfl, h⟩

/-! ### Failing without a change -/

/-- Fails and leaves the world as it is. -/
def Fails (a : Attempt ε ω α) (w : ω) : Prop := ∃ e, a.on w = (.error e, w)

theorem fails_throw (e : ε) (w : ω) : Fails (throw e : Attempt ε ω α) w := ⟨e, rfl⟩

theorem Fails.bind (h : a.Fails w) (f : α → Attempt ε ω β) : (a >>= f).Fails w := by
  obtain ⟨e, he⟩ := h
  exact ⟨e, on_bind_of_error he f⟩

theorem fails_bind_of_ok (h : a.on w = (.ok x, w)) {f : α → Attempt ε ω β} (hf : (f x).Fails w) :
    (a >>= f).Fails w := by
  obtain ⟨e, he⟩ := hf
  exact ⟨e, (on_bind_of_ok h f).trans he⟩

/-- An attempt that changes nothing is passed over, or it fails. -/
theorem fails_lift_bind {r : Except ε α} {f : α → Attempt ε ω β} (hf : ∀ x, r = .ok x → (f x).Fails w) :
    (lift r >>= f).Fails w := by
  rcases r with e | x
  · exact Fails.bind ⟨e, rfl⟩ f
  · exact fails_bind_of_ok rfl (hf x rfl)

/-! ### Keeping a property -/

/-- Whatever comes of the attempt, the property holds afterwards if it has held before. -/
def Maintains (P : ω → Prop) (a : Attempt ε ω α) : Prop := ∀ w, P w → P (a.on w).2

section Maintains

variable {P : ω → Prop}

theorem maintains_lift (r : Except ε α) : Maintains P (lift r : Attempt ε ω α) := fun _ h => h

theorem maintains_pure (x : α) : Maintains P (pure x : Attempt ε ω α) := fun _ h => h

theorem maintains_throw (e : ε) : Maintains P (throw e : Attempt ε ω α) := fun _ h => h

theorem maintains_modify {f : ω → ω} (hf : ∀ w, P w → P (f w)) : Maintains P (modify f : Attempt ε ω Unit) := hf

/-- What fails without a change maintains everything. -/
theorem maintains_of_fails (h : ∀ w, a.Fails w) : Maintains P a := by
  intro w hw
  obtain ⟨e, he⟩ := h w
  rwa [he]

theorem Maintains.bind {f : α → Attempt ε ω β} (ha : Maintains P a) (hf : ∀ x, Maintains P (f x)) :
    Maintains P (a >>= f) := by
  intro w h
  have hw := ha w h
  rcases hrun : a.on w with ⟨e | x, w₁⟩
  · rw [on_bind_of_error hrun]
    rwa [hrun] at hw
  · rw [on_bind_of_ok hrun]
    rw [hrun] at hw
    exact hf x w₁ hw

/-- What is done with the world that is found may rely on the property. -/
theorem maintains_get_bind {f : ω → Attempt ε ω β} (hf : ∀ w, P w → Maintains P (f w)) :
    Maintains P (get >>= f) := by
  intro w h
  rw [on_bind_of_ok (on_get w)]
  exact hf w h w h

end Maintains

end Attempt
end LevelLink
