import Mathlib.Logic.Basic

/-! # Sequences of checks

    A function that checks its input is a sequence of `if` and `do`: a check
    throws where its condition holds, and otherwise what follows it decides.  The
    lemmas read such a sequence from the front, one check at a time, given that
    none has thrown. -/

namespace Checks

universe u

variable {ε : Type*} {α β : Type u}

/-- A check that has not thrown found its condition false. -/
theorem guard_ok_iff {p : Prop} [Decidable p] {e : ε} {x : Except ε α} {a : α} :
    (if p then .error e else x) = .ok a ↔ ¬ p ∧ x = .ok a := by
  rw [ite_eq_iff]
  exact or_iff_right (fun h => nomatch h.2)

/-- The same for a check that gives its exception, if any. -/
theorem guard_none_iff {p : Prop} [Decidable p] {e : ε} {x : Option ε} :
    (if p then some e else x) = none ↔ ¬ p ∧ x = none := by
  rw [ite_eq_iff]
  exact or_iff_right (fun h => nomatch h.2)

/-- Nothing was thrown so far. -/
theorem ok_bind (a : α) (f : α → Except ε β) : (Except.ok a >>= f) = f a := rfl

/-- What follows is run on the result of what comes first. -/
theorem bind_ok_iff {x : Except ε α} {f : α → Except ε β} {b : β} :
    x >>= f = .ok b ↔ ∃ a, x = .ok a ∧ f a = .ok b := by
  constructor
  · intro h
    cases x with
    | error e => exact nomatch h
    | ok a => exact ⟨a, rfl, h⟩
  · rintro ⟨a, rfl, h⟩
    exact h

/-- What is made of a result. -/
theorem map_ok_iff {x : Except ε α} {f : α → β} {b : β} :
    x.map f = .ok b ↔ ∃ a, x = .ok a ∧ f a = b := by
  constructor
  · intro h
    cases x with
    | error e => exact nomatch h
    | ok a => exact ⟨a, rfl, Except.ok.inj h⟩
  · rintro ⟨a, rfl, rfl⟩
    rfl

end Checks
