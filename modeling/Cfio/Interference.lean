import Cfio.Transition

/-! # Sequential programs under interference

    A program whose steps read and change a shared state and a state of its own,
    while others may change the shared state between any two steps as the
    relation `rely` allows.  It is a thread in the sense of `threadStep`, so its
    runs are lists of actions; two views of these runs are derived.

    * `Safe` is the view from the front: an invariant that holds at every moment
      and a postcondition of the result.  `safe_bind` composes it, a single
      access unfolds by definition (`safe_load_bind`), and `run_safe` carries it
      along every run.
    * `Ends` is what complete runs give: a result and the states they end in.
      `ends_bind` decomposes it, and `ends_iff_run` says that it is exactly what
      complete runs give. -/

namespace Interference

open Transition

variable {G S : Type} {α β : Type}

/-- A program over a shared state `G` and a state `S` of its own.  A step is
    atomic, and what follows may depend on what it found. -/
inductive Prog (G S α : Type) where
  | done (a : α)
  | step (act : G → S → G × S) (next : G → S → Prog G S α)

/-- Run one program after another. -/
def Prog.bind : Prog G S α → (α → Prog G S β) → Prog G S β
  | .done a, f => f a
  | .step act next, f => .step act (fun g s => (next g s).bind f)

instance : Monad (Prog G S) where
  pure := .done
  bind := Prog.bind

/-- Nothing follows a program that ends in its result. -/
theorem Prog.bind_done (p : Prog G S α) : p.bind .done = p := by
  induction p with
  | done a => rfl
  | step act next ih => exact congrArg (Prog.step act) (funext₂ ih)

/-- What follows, follows in the order it is written. -/
theorem Prog.bind_bind {γ : Type} (p : Prog G S α) (f : α → Prog G S β)
    (h : β → Prog G S γ) : (p.bind f).bind h = p.bind (fun a => (f a).bind h) := by
  induction p with
  | done a => rfl
  | step act next ih => exact congrArg (Prog.step act) (funext₂ ih)

instance lawfulMonadProg : LawfulMonad (Prog G S) :=
  LawfulMonad.mk' _ Prog.bind_done (fun _ _ => rfl) Prog.bind_bind

/-- Read from the shared state. -/
def load (get : G → α) : Prog G S α :=
  .step (fun g s => (g, s)) (fun g _ => .done (get g))

/-- Read the program's own state. -/
def own : Prog G S S := .step (fun g s => (g, s)) (fun _ s => .done s)

/-- Change the program's own state. -/
def update (f : S → S) : Prog G S Unit :=
  .step (fun g s => (g, f s)) (fun _ _ => .done ())

/-- One step of a program. -/
def progStep (g : G) : S × Prog G S α → Unit → Option (G × (S × Prog G S α))
  | (_, .done _), () => none
  | (s, .step act next), () => some ((act g s).1, ((act g s).2, next g s))

/-- Interference that may do nothing, and may strike twice. -/
structure Interferes (rely : G → G → Bool) : Prop where
  refl : ∀ g, rely g g = true
  trans : ∀ g₁ g₂ g₃, rely g₁ g₂ = true → rely g₂ g₃ = true → rely g₁ g₃ = true

/-! ## Safety -/

/-- `I` holds at every moment of every run, and `Q` of every result. -/
def Safe (rely : G → G → Bool) (I : G → S → Prop) (Q : α → G → S → Prop) :
    Prog G S α → G → S → Prop
  | .done a, g, s => ∀ g', rely g g' = true → I g' s ∧ Q a g' s
  | .step act next, g, s => ∀ g', rely g g' = true →
      I g' s ∧ Safe rely I Q (next g' s) (act g' s).1 (act g' s).2

section Safe

variable {rely : G → G → Bool} {I : G → S → Prop} {Q Q' : α → G → S → Prop}
variable {p : Prog G S α} {g g' : G} {s : S}

/-- A read, and what follows it. -/
theorem safe_load_bind {get : G → β} {f : β → Prog G S α} :
    Safe rely I Q (load get >>= f) g s ↔
      ∀ g', rely g g' = true → I g' s ∧ Safe rely I Q (f (get g')) g' s := Iff.rfl

/-- Reading the own state is a step at which others may have been. -/
theorem safe_own_bind {f : S → Prog G S α} :
    Safe rely I Q (own >>= f) g s ↔
      ∀ g', rely g g' = true → I g' s ∧ Safe rely I Q (f s) g' s := Iff.rfl

theorem safe_update_bind {h : S → S} {f : Unit → Prog G S α} :
    Safe rely I Q (update h >>= f) g s ↔
      ∀ g', rely g g' = true → I g' s ∧ Safe rely I Q (f ()) g' (h s) := Iff.rfl

/-- Sequencing. -/
theorem safe_bind {f : α → Prog G S β} {Q : β → G → S → Prop}
    (hrely : Interferes rely)
    (h : Safe rely I (fun a g s => Safe rely I Q (f a) g s) p g s) :
    Safe rely I Q (p >>= f) g s := by
  induction p generalizing g s with
  | done a => exact (h g (hrely.refl g)).2
  | step act next ih =>
      intro g' hg'
      obtain ⟨hI, hnext⟩ := h g' hg'
      exact ⟨hI, ih g' s hnext⟩

/-- Consequence; the invariant may be used. -/
theorem safe_mono (h : Safe rely I Q p g s)
    (hQ : ∀ a g s, I g s → Q a g s → Q' a g s) : Safe rely I Q' p g s := by
  induction p generalizing g s with
  | done a =>
      intro g' hg'
      exact ⟨(h g' hg').1, hQ a g' s (h g' hg').1 (h g' hg').2⟩
  | step act next ih =>
      intro g' hg'
      exact ⟨(h g' hg').1, ih g' s (h g' hg').2⟩

/-- Interference leaves a safe program safe. -/
theorem Safe.interfere (hrely : Interferes rely) (h : Safe rely I Q p g s)
    (hg : rely g g' = true) : Safe rely I Q p g' s := by
  cases p with
  | done a =>
      intro g'' hg''
      exact h g'' (hrely.trans _ _ _ hg hg'')
  | step act next =>
      intro g'' hg''
      exact h g'' (hrely.trans _ _ _ hg hg'')

/-- The invariant holds before the next step, whatever others do first. -/
theorem Safe.now (hrely : Interferes rely) (h : Safe rely I Q p g s) : I g s := by
  cases p with
  | done a => exact (h g (hrely.refl g)).1
  | step act next => exact (h g (hrely.refl g)).1

/-- A program that has ended safely has its result. -/
theorem Safe.result (hrely : Interferes rely) {a : α}
    (h : Safe rely I Q (.done a) g s) : Q a g s := (h g (hrely.refl g)).2

/-- **A safe program stays safe along every run.** -/
theorem run_safe (hrely : Interferes rely) {s' : S} {p' : Prog G S α}
    {acts : List (ThreadAct G Unit)}
    (h : run (threadStep rely progStep) (g, (s, p)) acts = some (g', (s', p')))
    (hsafe : Safe rely I Q p g s) : Safe rely I Q p' g' s' := by
  refine run_invariant (I := fun t => Safe rely I Q t.2.2 t.1 t.2.1) ?_ h hsafe
  rintro ⟨g₁, s₁, p₁⟩ act t hp₁ hstep
  cases act with
  | interfere g₂ =>
      obtain ⟨hg, ht⟩ := Option.ite_none_right_eq_some.mp hstep
      rw [← Option.some.inj ht]
      exact hp₁.interfere hrely hg
  | own a =>
      cases p₁ with
      | done a => exact nomatch hstep
      | step act next =>
          rw [← Option.some.inj hstep]
          exact (hp₁ g₁ (hrely.refl g₁)).2

end Safe

/-- A program that ends by computing something from its result takes the same
    steps. -/
theorem run_map {rely : G → G → Bool} {f : α → β} {g : G} {s : S} {p : Prog G S α}
    (acts : List (ThreadAct G Unit)) :
    run (threadStep rely progStep) (g, (s, f <$> p)) acts
      = (run (threadStep rely progStep) (g, (s, p)) acts).map
          (fun t => (t.1, (t.2.1, f <$> t.2.2))) := by
  induction acts generalizing g s p with
  | nil => rfl
  | cons act acts ih =>
      cases act with
      | interfere g' =>
          show (if rely g g' then some (g', (s, f <$> p)) else none).bind _
            = ((if rely g g' then some (g', (s, p)) else none).bind _).map _
          by_cases hg : rely g g' = true
          · rw [if_pos hg, if_pos hg]
            exact ih
          · rw [if_neg hg, if_neg hg]
            rfl
      | own u =>
          cases p with
          | done a => rfl
          | step a next => exact ih

/-! ## Programs that only read -/

/-- No step changes anything. -/
def ReadOnly : Prog G S α → Prop
  | .done _ => True
  | .step act next => ∀ g s, act g s = (g, s) ∧ ReadOnly (next g s)

theorem readOnly_load (get : G → α) : ReadOnly (load get : Prog G S α) :=
  fun _ _ => ⟨rfl, trivial⟩

theorem readOnly_own : ReadOnly (own : Prog G S S) := fun _ _ => ⟨rfl, trivial⟩

theorem readOnly_bind {p : Prog G S α} {f : α → Prog G S β} (hp : ReadOnly p)
    (hf : ∀ a, ReadOnly (f a)) : ReadOnly (p >>= f) := by
  induction p with
  | done a => exact hf a
  | step act next ih =>
      intro g s
      exact ⟨(hp g s).1, ih g s (hp g s).2⟩

theorem readOnly_map {p : Prog G S α} (f : α → β) (hp : ReadOnly p) :
    ReadOnly (f <$> p) := readOnly_bind hp (fun _ => trivial)

theorem readOnly_ite {p q : Prog G S α} (c : Prop) [Decidable c] (hp : ReadOnly p)
    (hq : ReadOnly q) : ReadOnly (if c then p else q) := by
  by_cases hc : c
  · rw [if_pos hc]
    exact hp
  · rw [if_neg hc]
    exact hq

/-! ## Complete runs -/

/-- A complete run gives the result `b` and ends in the states `g'` and `s'`. -/
def Ends (rely : G → G → Bool) : Prog G S α → G → S → α → G → S → Prop
  | .done a, g, s, b, g', s' => rely g g' = true ∧ a = b ∧ s = s'
  | .step act next, g, s, b, g', s' => ∃ h, rely g h = true ∧
      Ends rely (next h s) (act h s).1 (act h s).2 b g' s'

section Ends

variable {rely : G → G → Bool} {p : Prog G S α} {g g' h : G} {s s' : S} {b : α}

/-- Interference may come first. -/
theorem Ends.interfere (hrely : Interferes rely) (hg : rely g h = true)
    (hends : Ends rely p h s b g' s') : Ends rely p g s b g' s' := by
  cases p with
  | done a => exact ⟨hrely.trans _ _ _ hg hends.1, hends.2⟩
  | step act next =>
      obtain ⟨k, hk, hrest⟩ := hends
      exact ⟨k, hrely.trans _ _ _ hg hk, hrest⟩

/-- Interference may come last. -/
theorem Ends.later (hrely : Interferes rely) (hends : Ends rely p g s b h s')
    (hg : rely h g' = true) : Ends rely p g s b g' s' := by
  induction p generalizing g s with
  | done a => exact ⟨hrely.trans _ _ _ hends.1 hg, hends.2⟩
  | step act next ih =>
      obtain ⟨k, hk, hrest⟩ := hends
      exact ⟨k, hk, ih k s hrest⟩

/-- **Sequencing.** -/
theorem ends_bind (hrely : Interferes rely) {f : α → Prog G S β} {b : β} :
    Ends rely (p >>= f) g s b g' s' ↔
      ∃ a h t, Ends rely p g s a h t ∧ Ends rely (f a) h t b g' s' := by
  induction p generalizing g s with
  | done a =>
      constructor
      · intro hends
        exact ⟨a, g, s, ⟨hrely.refl g, rfl, rfl⟩, hends⟩
      · rintro ⟨_, h, _, ⟨hg, rfl, rfl⟩, hends⟩
        exact hends.interfere hrely hg
  | step act next ih =>
      constructor
      · rintro ⟨k, hk, hrest⟩
        obtain ⟨a, h, t, hfirst, hlast⟩ := (ih k s).mp hrest
        exact ⟨a, h, t, ⟨k, hk, hfirst⟩, hlast⟩
      · rintro ⟨a, h, t, ⟨k, hk, hfirst⟩, hlast⟩
        exact ⟨k, hk, (ih k s).mpr ⟨a, h, t, hfirst, hlast⟩⟩

/-- **The results of complete runs.** -/
theorem ends_iff_run (hrely : Interferes rely) :
    Ends rely p g s b g' s' ↔ ∃ acts,
      run (threadStep rely progStep) (g, (s, p)) acts = some (g', (s', .done b)) := by
  constructor
  · intro hends
    induction p generalizing g s with
    | done a =>
        obtain ⟨hg, rfl, rfl⟩ := hends
        exact ⟨[.interfere g'], run_single (if_pos hg)⟩
    | step act next ih =>
        obtain ⟨k, hk, hrest⟩ := hends
        obtain ⟨acts, hacts⟩ := ih k s hrest
        exact ⟨.interfere k :: .own () :: acts,
          run_cons_iff.mpr ⟨_, if_pos hk, run_cons_iff.mpr ⟨_, rfl, hacts⟩⟩⟩
  · rintro ⟨acts, hacts⟩
    induction acts generalizing g s p with
    | nil =>
        obtain ⟨rfl, hrest⟩ := Prod.mk.inj (Option.some.inj hacts)
        obtain ⟨rfl, rfl⟩ := Prod.mk.inj hrest
        exact ⟨hrely.refl g, rfl, rfl⟩
    | cons act acts ih =>
        obtain ⟨⟨g₁, s₁, p₁⟩, hstep, hrest⟩ := run_cons_iff.mp hacts
        have hends := ih hrest
        cases act with
        | interfere g₂ =>
            obtain ⟨hg, ht⟩ := Option.ite_none_right_eq_some.mp hstep
            obtain ⟨rfl, hsp⟩ := Prod.mk.inj (Option.some.inj ht)
            obtain ⟨rfl, rfl⟩ := Prod.mk.inj hsp
            exact hends.interfere hrely hg
        | own a =>
            cases p with
            | done a => exact nomatch hstep
            | step act next =>
                obtain ⟨rfl, hsp⟩ := Prod.mk.inj (Option.some.inj hstep)
                obtain ⟨rfl, rfl⟩ := Prod.mk.inj hsp
                exact ⟨g, hrely.refl g, hends⟩

/-- A program that only reads has a run on its own. -/
theorem ReadOnly.ends (hrely : Interferes rely) (hp : ReadOnly p) (g : G) (s : S) :
    ∃ b, Ends rely p g s b g s := by
  induction p generalizing g s with
  | done a => exact ⟨a, hrely.refl g, rfl, rfl⟩
  | step act next ih =>
      obtain ⟨hact, hnext⟩ := hp g s
      obtain ⟨b, hb⟩ := ih g s hnext g s
      refine ⟨b, g, hrely.refl g, ?_⟩
      rw [hact]
      exact hb

/-- A program that only reads leaves its own state alone. -/
theorem ReadOnly.unchanged (hrely : Interferes rely) (hp : ReadOnly p)
    (hends : Ends rely p g s b g' s') : s' = s ∧ rely g g' = true := by
  induction p generalizing g s with
  | done a => exact ⟨hends.2.2.symm, hends.1⟩
  | step act next ih =>
      obtain ⟨k, hk, hrest⟩ := hends
      obtain ⟨hact, hnext⟩ := hp k s
      rw [hact] at hrest
      obtain ⟨hs, hg⟩ := ih k s hnext hrest
      exact ⟨hs, hrely.trans _ _ _ hk hg⟩

end Ends

end Interference
