import Mathlib

namespace checked

variable {ε α β : Type}

/-- Leave with an error when the condition holds. -/
def stop_if (cond : Bool) (e : ε) : Except ε Unit := if cond then .error e else .ok ()

@[simp] theorem stop_if_eq_ok_iff (cond : Bool) (e : ε) (u : Unit) :
    stop_if cond e = .ok u ↔ cond = false := by
  cases cond <;> simp [stop_if]

/-- A sequence of steps succeeds exactly when each does, on the result of the one before. -/
theorem bind_eq_ok_iff {x : Except ε α} {f : α → Except ε β} {y : β} :
    (x >>= f) = .ok y ↔ ∃ a, x = .ok a ∧ f a = .ok y := by
  cases x <;> simp [bind, Except.bind]

/-- A sequence of steps fails where one of them does, after those before it have succeeded. -/
theorem bind_eq_error_iff {x : Except ε α} {f : α → Except ε β} {e : ε} :
    (x >>= f) = .error e ↔ x = .error e ∨ ∃ a, x = .ok a ∧ f a = .error e := by
  cases x <;> simp [bind, Except.bind]

/-- Checks made one after the other all pass. -/
theorem check_bind_eq_ok_iff {x : Except ε Unit} {f : Unit → Except ε β} {y : β} :
    (x >>= f) = .ok y ↔ x = .ok () ∧ f () = .ok y := by
  rw [bind_eq_ok_iff]
  constructor
  · rintro ⟨⟨⟩, hx, hf⟩
    exact ⟨hx, hf⟩
  · rintro ⟨hx, hf⟩
    exact ⟨(), hx, hf⟩

/-- Every error a computation can end with is of a kind. -/
def ErrorsIn (P : ε → Prop) (x : Except ε α) : Prop := ∀ e, x = .error e → P e

theorem ErrorsIn.ok {P : ε → Prop} (a : α) : ErrorsIn P (.ok a : Except ε α) := by
  intro e he
  cases he

theorem ErrorsIn.error {P : ε → Prop} {e : ε} (he : P e) : ErrorsIn P (.error e : Except ε α) := by
  intro e' he'
  cases he'
  exact he

theorem ErrorsIn.bind {P : ε → Prop} {x : Except ε α} {f : α → Except ε β} (hx : ErrorsIn P x)
    (hf : ∀ a, ErrorsIn P (f a)) : ErrorsIn P (x >>= f) := by
  cases x with
  | error e => exact ErrorsIn.error (hx e rfl)
  | ok a => exact hf a

theorem ErrorsIn.stop_if {P : ε → Prop} (cond : Bool) {e : ε} (he : P e) :
    ErrorsIn P (stop_if cond e) := by
  cases cond with
  | false => exact ErrorsIn.ok ()
  | true => exact ErrorsIn.error he

end checked
