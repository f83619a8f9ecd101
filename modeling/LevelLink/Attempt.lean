/-!
# Attempts

Operations on a state that may fail halfway.  `Attempt.on` makes an attempt, and one lemma for each way to
build an attempt says what becomes of the state; `on_bind` is the one for going on.
-/

namespace LevelLink

/-- A change of `ω` that may fail halfway.  What it has changed until then stays changed. -/
abbrev Attempt (ε ω : Type) := ExceptT ε (StateM ω)

namespace Attempt

variable {ε ε' ω α : Type}

/-- Makes an attempt. -/
def on (a : Attempt ε ω α) (w : ω) : Except ε α × ω := a.run.run w

/-- The attempt that an operation on `ω` is. -/
def of (f : ω → Except ε α × ω) : Attempt ε ω α := ExceptT.mk f

/-- An attempt that changes nothing. -/
def lift (r : Except ε α) : Attempt ε ω α := of fun w => (r, w)

/-- The attempt with another error. -/
def mapError (f : ε → ε') (a : Attempt ε ω α) : Attempt ε' ω α :=
  of fun w => ((a.on w).1.mapError f, (a.on w).2)

@[simp] theorem on_of (f : ω → Except ε α × ω) (w : ω) : (of f).on w = f w := rfl

@[simp] theorem on_lift (r : Except ε α) (w : ω) : (lift r : Attempt ε ω α).on w = (r, w) := rfl

@[simp] theorem on_mapError (f : ε → ε') (a : Attempt ε ω α) (w : ω) :
    (a.mapError f).on w = ((a.on w).1.mapError f, (a.on w).2) := rfl

@[simp] theorem on_pure (x : α) (w : ω) : (pure x : Attempt ε ω α).on w = (.ok x, w) := rfl

@[simp] theorem on_throw (e : ε) (w : ω) : (throw e : Attempt ε ω α).on w = (.error e, w) := rfl

@[simp] theorem on_get (w : ω) : (get : Attempt ε ω ω).on w = (.ok w, w) := rfl

@[simp] theorem on_modify (f : ω → ω) (w : ω) : (modify f : Attempt ε ω Unit).on w = (.ok (), f w) := rfl

/-- An attempt goes on from where the one before it has left the world, unless that one has failed. -/
theorem on_bind {β : Type} (a : Attempt ε ω α) (f : α → Attempt ε ω β) (w : ω) :
    (a >>= f).on w =
      match a.on w with
      | (.ok x, w) => (f x).on w
      | (.error e, w) => (.error e, w) := by
  rcases h : a.on w with ⟨_ | _, _⟩
  all_goals
    show (match a.on w with
      | (r, w) => ExceptT.bindCont f r w) = _
    rw [h]
    rfl

/-- A second attempt goes on from where a failed one has left the world. -/
theorem on_tryCatch (a : Attempt ε ω α) (f : ε → Attempt ε ω α) (w : ω) :
    (tryCatch a f).on w =
      match a.on w with
      | (.ok x, w) => (.ok x, w)
      | (.error e, w) => (f e).on w := by
  rcases h : a.on w with ⟨_ | _, _⟩
  all_goals
    show (match a.on w with
      | (r, w) => (match r with
        | .ok x => pure (.ok x)
        | .error e => f e : StateM ω (Except ε α)) w) = _
    rw [h]
    rfl

end Attempt

end LevelLink
