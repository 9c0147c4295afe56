/-!
# Results that may be errors

When a result that is mapped, or that another one follows, is a value. Where a state is carried
along, the second of two computations starts from the state that the first one has left
(`run_bind`).
-/

set_option autoImplicit false

namespace RouteContract

variable {ε α β : Type}

theorem map_eq_ok_iff {f : α → β} {r : Except ε α} {b : β} :
    r.map f = .ok b ↔ ∃ a, r = .ok a ∧ f a = b := by
  cases r with
  | error e => exact ⟨nofun, fun ⟨_, h, _⟩ => nomatch h⟩
  | ok a =>
      constructor
      · intro h
        exact ⟨a, rfl, Except.ok.inj h⟩
      · rintro ⟨a', same, rfl⟩
        cases same
        rfl

theorem map_eq_error_iff {f : α → β} {r : Except ε α} {e : ε} :
    r.map f = .error e ↔ r = .error e := by
  cases r with
  | error other =>
      constructor
      · rintro ⟨⟩
        rfl
      · rintro ⟨⟩
        rfl
  | ok a => exact ⟨nofun, nofun⟩

theorem bind_eq_ok_iff {r : Except ε α} {f : α → Except ε β} {b : β} :
    r.bind f = .ok b ↔ ∃ a, r = .ok a ∧ f a = .ok b := by
  cases r with
  | error e => exact ⟨nofun, fun ⟨_, h, _⟩ => nomatch h⟩
  | ok a =>
      constructor
      · intro h
        exact ⟨a, rfl, h⟩
      · rintro ⟨a', same, h⟩
        cases same
        exact h

/-! ## Failures -/

/-- The error of a result. -/
def failure? : Except ε α → Option ε
  | .error e => some e
  | .ok _ => none

theorem failure?_eq_some_iff {r : Except ε α} {e : ε} : failure? r = some e ↔ r = .error e := by
  cases r <;> simp [failure?]

theorem failure?_eq_none_iff {r : Except ε α} : failure? r = none ↔ ∃ a, r = .ok a := by
  cases r <;> simp [failure?]

theorem failure?_map (f : α → β) (r : Except ε α) : failure? (r.map f) = failure? r := by
  cases r <;> rfl

/-! ## Results with a state -/

section State

variable {σ : Type}

theorem run_bind (m : ExceptT ε (StateM σ) α) (f : α → ExceptT ε (StateM σ) β) (s : σ) :
    (m >>= f) s =
      match m s with
      | (.ok a, t) => f a t
      | (.error e, t) => (.error e, t) := by
  show (ExceptT.bind m f) s = _
  simp only [ExceptT.bind, ExceptT.mk, bind, StateT.bind]
  rcases m s with ⟨_ | _, t⟩ <;> rfl

theorem run_bind_ok {m : ExceptT ε (StateM σ) α} {s t : σ} {a : α} (done : m s = (.ok a, t))
    (f : α → ExceptT ε (StateM σ) β) : (m >>= f) s = f a t := by
  rw [run_bind, done]

theorem run_bind_error {m : ExceptT ε (StateM σ) α} {s t : σ} {e : ε}
    (failed : m s = (.error e, t)) (f : α → ExceptT ε (StateM σ) β) :
    (m >>= f) s = (.error e, t) := by
  rw [run_bind, failed]

end State

end RouteContract
