import Mathlib.Data.List.Forall2
import Cfio.Checks

/-! # Checking a list entry by entry

    A loop over a list that throws at the first entry it does not like.
    `readEach` is such a loop with the position of the entry, and a `for` whose
    body only checks is another.  Each is described twice: by what it accepts,
    which is every entry, and by what it throws, which is what the first entry
    that is not accepted throws (`FailsAt`). -/

namespace Checks

universe u v

variable {ε : Type*} {α γ : Type v} {β : Type u}

/-! ## What is thrown -/

/-- A guard fails with its own error, or what is behind it fails. -/
theorem guard_error_iff {p : Prop} [Decidable p] {d e : ε} {x : Except ε α} :
    (if p then .error d else x) = .error e ↔ (p ∧ d = e) ∨ (¬ p ∧ x = .error e) := by
  rw [ite_eq_iff]
  refine or_congr_left (and_congr_right fun _ => ?_)
  exact ⟨Except.error.inj, congrArg _⟩

/-- Either what comes first throws, or what follows it. -/
theorem bind_error_iff {β' : Type u} {x : Except ε β'} {f : β' → Except ε β} {e : ε} :
    x >>= f = .error e ↔ x = .error e ∨ ∃ a, x = .ok a ∧ f a = .error e := by
  cases x with
  | error d =>
      refine ⟨fun h => .inl (congrArg _ (Except.error.inj h)), ?_⟩
      rintro (h | ⟨a, ha, -⟩)
      · exact congrArg _ (Except.error.inj h)
      · exact nomatch ha
  | ok a =>
      refine ⟨fun h => .inr ⟨a, rfl, h⟩, ?_⟩
      rintro (h | ⟨b, hb, h⟩)
      · exact nomatch h
      · obtain rfl := Except.ok.inj hb
        exact h

/-- An error that was changed was another one before. -/
theorem mapError_error_iff {ε' : Type*} {f : ε → ε'} {x : Except ε α} {e : ε'} :
    x.mapError f = .error e ↔ ∃ d, x = .error d ∧ f d = e := by
  cases x with
  | ok a => exact ⟨nofun, fun ⟨_, hd, _⟩ => nomatch hd⟩
  | error d =>
      constructor
      · intro h
        exact ⟨d, rfl, Except.error.inj h⟩
      · rintro ⟨d', hd, rfl⟩
        rw [Except.error.inj hd]
        rfl

/-! ## Loops that read -/

/-- Read the entries of a list from the front, the first one at position `i`. -/
def readEach (read : Nat → α → Except ε β) (i : Nat) : List α → Except ε (List β)
  | [] => .ok []
  | x :: xs => do
      let y ← read i x
      let ys ← readEach read (i + 1) xs
      return y :: ys

/-- The entry at position `k` fails with `e`, and no entry before it fails. -/
structure FailsAt (read : Nat → α → Except ε β) (xs : List α) (k : Nat) (e : ε) :
    Prop where
  here : ∃ x, xs[k]? = some x ∧ read k x = .error e
  before : ∀ j x, j < k → xs[j]? = some x → ∃ y, read j x = .ok y

section FailsAt

variable {read : Nat → α → Except ε β} {xs : List α} {x : α} {y : β} {e : ε} {k : Nat}

theorem failsAt_zero (h : read 0 x = .error e) : FailsAt read (x :: xs) 0 e where
  here := ⟨x, rfl, h⟩
  before j _ hj _ := absurd hj (Nat.not_lt_zero j)

/-- Behind an element that is read, the failure is one of the rest. -/
theorem failsAt_succ_iff (h : read 0 x = .ok y) :
    FailsAt read (x :: xs) (k + 1) e ↔ FailsAt (fun j => read (j + 1)) xs k e := by
  constructor
  · intro hfails
    refine ⟨hfails.here, fun j z hj hz => ?_⟩
    exact hfails.before (j + 1) z (Nat.succ_lt_succ hj) hz
  · intro hfails
    refine ⟨hfails.here, fun j z hj hz => ?_⟩
    cases j with
    | zero =>
        obtain rfl := Option.some.inj hz
        exact ⟨y, h⟩
    | succ j => exact hfails.before j z (Nat.lt_of_succ_lt_succ hj) hz

/-- Only one entry is the first to fail. -/
theorem FailsAt.unique {k' : Nat} {e' : ε} (h : FailsAt read xs k e)
    (h' : FailsAt read xs k' e') : k = k' := by
  obtain ⟨x, hx, hbad⟩ := h.here
  obtain ⟨x', hx', hbad'⟩ := h'.here
  rcases Nat.lt_trichotomy k k' with hlt | heq | hgt
  · obtain ⟨y, hy⟩ := h'.before k x hlt hx
    exact nomatch hbad.symm.trans hy
  · exact heq
  · obtain ⟨y, hy⟩ := h.before k' x' hgt hx'
    exact nomatch hbad'.symm.trans hy

end FailsAt

section ReadEach

variable {read : Nat → α → Except ε β}

/-- **What is accepted**: every entry, each at its position. -/
theorem readEach_ok_iff {i : Nat} {xs : List α} {ys : List β} :
    readEach read i xs = .ok ys ↔
      List.Forall₂ (fun entry y => read entry.2 entry.1 = .ok y) (xs.zipIdx i) ys := by
  induction xs generalizing i ys with
  | nil =>
      rw [List.zipIdx_nil, List.forall₂_nil_left_iff]
      exact ⟨fun h => (Except.ok.inj h).symm, fun h => congrArg _ h.symm⟩
  | cons x xs ih =>
      rw [List.zipIdx_cons, List.forall₂_cons_left_iff]
      constructor
      · intro h
        cases hx : read i x with
        | error e =>
            rw [readEach, hx] at h
            exact nomatch h
        | ok y =>
            cases hxs : readEach read (i + 1) xs with
            | error e =>
                rw [readEach, hx, ok_bind, hxs] at h
                exact nomatch h
            | ok zs =>
                rw [readEach, hx, ok_bind, hxs] at h
                exact ⟨y, zs, rfl, ih.mp hxs, (Except.ok.inj h).symm⟩
      · rintro ⟨y, zs, hx, hxs, rfl⟩
        rw [readEach, hx, ok_bind, ih.mpr hxs]
        rfl

/-- **What is thrown**: what the first entry throws that does. -/
theorem readEach_error_iff {i : Nat} {xs : List α} {e : ε} :
    readEach read i xs = .error e ↔ ∃ k, FailsAt (fun j => read (i + j)) xs k e := by
  induction xs generalizing i with
  | nil =>
      constructor
      · intro h
        exact nomatch h
      · rintro ⟨k, hfails⟩
        obtain ⟨x, hx, -⟩ := hfails.here
        exact nomatch hx
  | cons x xs ih =>
      have hshift : (fun j => read (i + (j + 1))) = fun j => read (i + 1 + j) := by
        funext j
        rw [Nat.add_right_comm, Nat.add_assoc]
      cases hx : read i x with
      | error d =>
          rw [readEach, hx]
          constructor
          · intro h
            obtain rfl := Except.error.inj h
            exact ⟨0, failsAt_zero hx⟩
          · rintro ⟨k, hfails⟩
            have hfirst : FailsAt (fun j => read (i + j)) (x :: xs) 0 d := failsAt_zero hx
            obtain rfl := hfails.unique hfirst
            obtain ⟨z, hz, hbad⟩ := hfails.here
            obtain rfl := Option.some.inj hz
            exact congrArg _ (Except.error.inj (hx.symm.trans hbad))
      | ok y =>
          have hrest : readEach read i (x :: xs) = .error e ↔
              readEach read (i + 1) xs = .error e := by
            rw [readEach, hx, ok_bind]
            cases readEach read (i + 1) xs with
            | error d => exact Iff.rfl
            | ok ys => exact ⟨nofun, nofun⟩
          rw [hrest, ih]
          constructor
          · rintro ⟨k, hfails⟩
            rw [← hshift] at hfails
            exact ⟨k + 1, (@failsAt_succ_iff _ _ _ (fun j => read (i + j)) _ _ _ _ _ hx).mpr hfails⟩
          · rintro ⟨k, hfails⟩
            cases k with
            | zero =>
                obtain ⟨z, hz, hbad⟩ := hfails.here
                obtain rfl := Option.some.inj hz
                exact nomatch hx.symm.trans hbad
            | succ k =>
                have hfails :=
                  (@failsAt_succ_iff _ _ _ (fun j => read (i + j)) _ _ _ _ _ hx).mp hfails
                rw [hshift] at hfails
                exact ⟨k, hfails⟩

/-- Reading what elements are mapped to. -/
theorem readEach_map {δ : Type*} (f : δ → α) (read : Nat → α → Except ε β) (i : Nat)
    (xs : List δ) :
    readEach read i (xs.map f) = readEach (fun i x => read i (f x)) i xs := by
  induction xs generalizing i with
  | nil => rfl
  | cons x xs ih => rw [List.map_cons, readEach, readEach, ih]

/-- Entries that stand for something are accepted as that something is. -/
theorem readEach_ok_iff_of_forall₂ {Stands : γ → α → Prop} {Gives : γ → β → Prop}
    {cs : List γ} {xs : List α} (hstands : List.Forall₂ Stands cs xs)
    (hgives : ∀ c x, Stands c x → ∀ i y, read i x = .ok y ↔ Gives c y) {i : Nat}
    {ys : List β} :
    readEach read i xs = .ok ys ↔ List.Forall₂ Gives cs ys := by
  rw [readEach_ok_iff]
  induction hstands generalizing i ys with
  | nil => rw [List.zipIdx_nil, List.forall₂_nil_left_iff, List.forall₂_nil_left_iff]
  | @cons c x cs xs hx _ ih =>
      rw [List.zipIdx_cons, List.forall₂_cons_left_iff, List.forall₂_cons_left_iff]
      simp only [hgives c x hx, ih]

end ReadEach

/-! ## Loops that only check -/

section ForEach

variable {check : α → Except ε PUnit.{u + 1}}

/-- A `for` whose body checks an entry. -/
def forEach (check : α → Except ε PUnit.{u + 1}) (xs : List α) : Except ε PUnit.{u + 1} :=
  forIn xs PUnit.unit (fun x _ => do
    check x
    pure (ForInStep.yield PUnit.unit))

theorem forEach_cons (x : α) (xs : List α) :
    forEach check (x :: xs) = check x >>= fun _ => forEach check xs := by
  rw [forEach, List.forIn_cons]
  cases check x <;> rfl

/-- It is a loop that reads, but for what is read. -/
theorem forEach_eq (i : Nat) (xs : List α) :
    forEach check xs = (readEach (fun _ => check) i xs).map (fun _ => PUnit.unit) := by
  induction xs generalizing i with
  | nil => rfl
  | cons x xs ih =>
      rw [forEach_cons, readEach, ih (i + 1)]
      cases check x with
      | error e => rfl
      | ok y => cases readEach (fun _ => check) (i + 1) xs <;> rfl

/-- All checks pass just when each one does. -/
theorem forEach_ok_iff {xs : List α} :
    forEach check xs = .ok PUnit.unit ↔ ∀ x ∈ xs, check x = .ok PUnit.unit := by
  induction xs with
  | nil => exact ⟨fun _ => nofun, fun _ => rfl⟩
  | cons x xs ih =>
      rw [forEach_cons, List.forall_mem_cons, ← ih, bind_ok_iff]
      exact ⟨fun ⟨_, hx, hxs⟩ => ⟨hx, hxs⟩, fun ⟨hx, hxs⟩ => ⟨_, hx, hxs⟩⟩

/-- The error is that of the first check that fails. -/
theorem forEach_error_iff {xs : List α} {e : ε} :
    forEach check xs = .error e ↔ ∃ k, FailsAt (fun _ => check) xs k e := by
  have hmap : forEach check xs = .error e ↔ readEach (fun _ => check) 0 xs = .error e := by
    rw [forEach_eq 0]
    cases readEach (fun _ => check) 0 xs with
    | error d =>
        exact ⟨fun h => congrArg _ (Except.error.inj h),
          fun h => congrArg _ (Except.error.inj h)⟩
    | ok ys => exact ⟨nofun, nofun⟩
  rw [hmap, readEach_error_iff]

end ForEach

end Checks
