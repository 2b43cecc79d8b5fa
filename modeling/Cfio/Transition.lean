import Mathlib.Data.List.Basic
import Mathlib.Logic.Function.Basic

/-! # Partial step functions, runs, and threads over a shared state

    A system is a partial step function: an action either has one outcome or is
    not possible in the state.  What is left open (a scheduler, a kernel, a
    random draw) is part of the action, so a run is a list of actions and can be
    evaluated.

    * `run` executes a list of actions; `run_invariant` is the induction every
      safety result goes through, `run_invariant_of_meets` its form for runs
      whose steps are all of one kind.
    * `run_simulates` carries runs along a projection of the states.
    * `threadStep` is one thread in an environment that may change the shared
      state as the relation `rely` allows; `productStep` is a family of threads
      interleaved in any order.  `product_projects` says that each thread of the
      product sees nothing but its own environment. -/

namespace Transition

variable {σ α τ β : Type*}

/-- Execute a list of actions from left to right. -/
def run (step : σ → α → Option σ) : σ → List α → Option σ
  | s, [] => some s
  | s, a :: as => (step s a).bind (fun u => run step u as)

theorem run_cons_iff {step : σ → α → Option σ} {s t : σ} {a : α} {as : List α} :
    run step s (a :: as) = some t ↔
      ∃ u, step s a = some u ∧ run step u as = some t := by
  show (step s a).bind (fun u => run step u as) = some t ↔ _
  rw [Option.bind_eq_some_iff]

/-- A run of one step. -/
theorem run_single {step : σ → α → Option σ} {s t : σ} {a : α}
    (h : step s a = some t) : run step s [a] = some t :=
  run_cons_iff.mpr ⟨t, h, rfl⟩

/-- Runs compose. -/
theorem run_append {step : σ → α → Option σ} {s t u : σ} {as bs : List α}
    (h₁ : run step s as = some t) (h₂ : run step t bs = some u) :
    run step s (as ++ bs) = some u := by
  induction as generalizing s with
  | nil =>
      have hst : s = t := Option.some.inj h₁
      rw [hst]
      exact h₂
  | cons a as ih =>
      obtain ⟨v, hv, hrest⟩ := run_cons_iff.mp h₁
      exact run_cons_iff.mpr ⟨v, hv, ih hrest⟩

/-- A run passes through a state at each of its actions. -/
theorem exists_of_run_append {step : σ → α → Option σ} {s t : σ} {as bs : List α}
    (h : run step s (as ++ bs) = some t) :
    ∃ u, run step s as = some u ∧ run step u bs = some t := by
  induction as generalizing s with
  | nil => exact ⟨s, rfl, h⟩
  | cons a as ih =>
      obtain ⟨v, hv, hrest⟩ := run_cons_iff.mp h
      obtain ⟨u, hu, hbs⟩ := ih hrest
      exact ⟨u, run_cons_iff.mpr ⟨v, hv, hu⟩, hbs⟩

/-- **The invariant rule**: what every step keeps, every run keeps. -/
theorem run_invariant {step : σ → α → Option σ} {I : σ → Prop}
    (hstep : ∀ s a t, I s → step s a = some t → I t)
    {s t : σ} {as : List α} (h : run step s as = some t) (hs : I s) : I t := by
  induction as generalizing s with
  | nil =>
      have hst : s = t := Option.some.inj h
      rw [← hst]
      exact hs
  | cons a as ih =>
      obtain ⟨u, hu, hrest⟩ := run_cons_iff.mp h
      exact ih hrest (hstep s a u hs hu)

/-- **The ranking rule**: what never rises, and falls with each step that is counted, bounds how
    many of them a run takes. -/
theorem run_counted {step : σ → α → Option σ} {I : σ → Prop} {rank : σ → Nat} {counts : α → Bool}
    (hstep : ∀ s a t, I s → step s a = some t →
      I t ∧ rank t + (if counts a then 1 else 0) ≤ rank s)
    {s t : σ} {as : List α} (h : run step s as = some t) (hs : I s) :
    rank t + as.countP counts ≤ rank s := by
  induction as generalizing s with
  | nil =>
      have hst : s = t := Option.some.inj h
      rw [hst]
      exact Nat.le_refl _
  | cons a as ih =>
      obtain ⟨u, hu, hrest⟩ := run_cons_iff.mp h
      obtain ⟨hinv, hrank⟩ := hstep s a u hs hu
      have hbehind := ih hrest hinv
      rw [List.countP_cons]
      omega

/-- Every step of the run, with the state it is taken in, meets `P`. -/
def Meets (step : σ → α → Option σ) (P : σ → α → Prop) : σ → List α → Prop
  | _, [] => True
  | s, a :: as => P s a ∧ ∀ u, step s a = some u → Meets step P u as

/-- A condition that every step meets. -/
theorem meets_of_forall {step : σ → α → Option σ} {P : σ → α → Prop}
    (h : ∀ s a, P s a) (s : σ) (as : List α) : Meets step P s as := by
  induction as generalizing s with
  | nil => trivial
  | cons a as ih => exact ⟨h s a, fun u _ => ih u⟩

/-- A condition on the actions alone. -/
theorem meets_of_mem {step : σ → α → Option σ} {P : α → Prop} {as : List α}
    (h : ∀ a ∈ as, P a) (s : σ) : Meets step (fun _ a => P a) s as := by
  induction as generalizing s with
  | nil => trivial
  | cons a as ih =>
      exact ⟨h a (List.mem_cons_self ..),
        fun u _ => ih (fun b hb => h b (List.mem_cons_of_mem _ hb)) u⟩

/-- A condition gives another, with an invariant of the runs that meet it. -/
theorem Meets.mono {step : σ → α → Option σ} {P Q : σ → α → Prop} {I : σ → Prop}
    (hinv : ∀ s a t, I s → P s a → step s a = some t → I t)
    (himp : ∀ s a, I s → P s a → Q s a)
    {s : σ} {as : List α} (h : Meets step P s as) (hs : I s) : Meets step Q s as := by
  induction as generalizing s with
  | nil => trivial
  | cons a as ih =>
      exact ⟨himp s a hs h.1, fun u hu => ih (h.2 u hu) (hinv s a u hs h.1 hu)⟩

/-- The invariant rule for runs whose steps all meet a condition. -/
theorem run_invariant_of_meets {step : σ → α → Option σ} {P : σ → α → Prop}
    {I : σ → Prop}
    (hstep : ∀ s a t, I s → P s a → step s a = some t → I t)
    {s t : σ} {as : List α} (h : run step s as = some t)
    (hP : Meets step P s as) (hs : I s) : I t := by
  induction as generalizing s with
  | nil =>
      have hst : s = t := Option.some.inj h
      rw [← hst]
      exact hs
  | cons a as ih =>
      obtain ⟨u, hu, hrest⟩ := run_cons_iff.mp h
      exact ih hrest (hP.2 u hu) (hstep s a u hs hP.1 hu)

/-- What a step can only lose, and loses just when it does not meet `P`, holds after
    a run just when it held before and every step met `P`. -/
theorem run_iff_meets {step : σ → α → Option σ} {P : σ → α → Prop} {I Q : σ → Prop}
    (hinv : ∀ s a t, I s → step s a = some t → I t)
    (hstep : ∀ s a t, I s → step s a = some t → (Q t ↔ Q s ∧ P s a))
    {s t : σ} {as : List α} (h : run step s as = some t) (hs : I s) :
    Q t ↔ Q s ∧ Meets step P s as := by
  induction as generalizing s with
  | nil =>
      have hst : s = t := Option.some.inj h
      rw [hst]
      exact (and_iff_left trivial).symm
  | cons a as ih =>
      obtain ⟨u, hu, hrest⟩ := run_cons_iff.mp h
      rw [ih hrest (hinv s a u hs hu), hstep s a u hs hu]
      constructor
      · rintro ⟨⟨hQ, hP⟩, hmeets⟩
        refine ⟨hQ, hP, fun v hv => ?_⟩
        rw [← Option.some.inj (hu.symm.trans hv)]
        exact hmeets
      · rintro ⟨hQ, hP, hmeets⟩
        exact ⟨⟨hQ, hP⟩, hmeets u hu⟩

/-- When a step from a state in `Q` leads to one in `Q` just when it meets `P`, the states
    along a run are all in `Q` just when every step meets `P`. -/
theorem run_states_iff_meets {step : σ → α → Option σ} {P : σ → α → Prop} {I Q : σ → Prop}
    (hinv : ∀ s a t, I s → step s a = some t → I t)
    (hstep : ∀ s a t, I s → Q s → step s a = some t → (Q t ↔ P s a))
    {s t : σ} {as : List α} (h : run step s as = some t) (hI : I s) (hQ : Q s) :
    (∀ bs u, bs <+: as → run step s bs = some u → Q u) ↔ Meets step P s as := by
  induction as generalizing s with
  | nil =>
      refine ⟨fun _ => trivial, fun _ bs u hbs hrun => ?_⟩
      rw [List.prefix_nil.mp hbs] at hrun
      rw [← Option.some.inj hrun]
      exact hQ
  | cons a as ih =>
      obtain ⟨v, hv, hrest⟩ := run_cons_iff.mp h
      constructor
      · intro hall
        have hQv : Q v := hall [a] v (List.cons_prefix_cons.mpr ⟨rfl, List.nil_prefix⟩)
          (run_single hv)
        refine ⟨(hstep s a v hI hQ hv).mp hQv, fun w hw => ?_⟩
        rw [← Option.some.inj (hv.symm.trans hw)]
        refine (ih hrest (hinv s a v hI hv) hQv).mp (fun bs u hbs hrun => ?_)
        exact hall (a :: bs) u (List.cons_prefix_cons.mpr ⟨rfl, hbs⟩)
          (run_cons_iff.mpr ⟨v, hv, hrun⟩)
      · rintro ⟨hP, hmeets⟩ bs u hbs hrun
        cases bs with
        | nil =>
            rw [← Option.some.inj hrun]
            exact hQ
        | cons b bs =>
            obtain ⟨rfl, hrest'⟩ := List.cons_prefix_cons.mp hbs
            obtain ⟨w, hw, hrun⟩ := run_cons_iff.mp hrun
            have hwv : v = w := Option.some.inj (hv.symm.trans hw)
            rw [← hwv] at hrun
            have hQv : Q v := (hstep s b v hI hQ hv).mpr hP
            exact (ih hrest (hinv s b v hI hv) hQv).mpr (hmeets v hv) bs u hrest' hrun

/-- The condition holds wherever a run arrives. -/
theorem Meets.at_prefix {step : σ → α → Option σ} {P : σ → α → Prop} {s u : σ} {a : α}
    {as bs : List α} (h : Meets step P s as) (hbs : bs ++ [a] <+: as)
    (hrun : run step s bs = some u) : P u a := by
  induction bs generalizing s as with
  | nil =>
      obtain ⟨cs, rfl⟩ := hbs
      rw [← Option.some.inj hrun]
      exact h.1
  | cons b bs ih =>
      obtain ⟨cs, rfl⟩ := hbs
      obtain ⟨v, hv, hrun⟩ := run_cons_iff.mp hrun
      exact ih (h.2 v hv) (List.prefix_append _ cs) hrun

/-- **Simulation**: a projection that matches each step by a run matches each
    run by a run. -/
theorem run_simulates {step : σ → α → Option σ} {step' : τ → β → Option τ}
    (π : σ → τ)
    (hsim : ∀ s a t, step s a = some t → ∃ bs, run step' (π s) bs = some (π t))
    {s t : σ} {as : List α} (h : run step s as = some t) :
    ∃ bs, run step' (π s) bs = some (π t) := by
  induction as generalizing s with
  | nil =>
      have hst : s = t := Option.some.inj h
      exact ⟨[], by rw [hst]; rfl⟩
  | cons a as ih =>
      obtain ⟨u, hu, hrest⟩ := run_cons_iff.mp h
      obtain ⟨bs, hbs⟩ := hsim s a u hu
      obtain ⟨cs, hcs⟩ := ih hrest
      exact ⟨bs ++ cs, run_append hbs hcs⟩

/-! ## Threads over a shared state -/

/-- What happens next to one thread: somebody else changes the shared state, or
    the thread itself takes a step. -/
inductive ThreadAct (G A : Type*) where
  | interfere (g : G)
  | own (a : A)

/-- One thread under interference. -/
def threadStep {G L A : Type*} (rely : G → G → Bool)
    (step : G → L → A → Option (G × L)) : G × L → ThreadAct G A → Option (G × L)
  | (g, l), .interfere g' => if rely g g' then some (g', l) else none
  | (g, l), .own a => step g l a

/-- What happens next in a family of threads: the environment changes the shared
    state, or one of the threads takes a step. -/
inductive ProductAct {ι : Type*} (G : Type*) (A : ι → Type*) where
  | env (g : G)
  | thread (i : ι) (a : A i)

/-- A family of threads, one step at a time, in any order. -/
def productStep {ι G : Type*} [DecidableEq ι] {L A : ι → Type*}
    (rely : G → G → Bool) (step : ∀ i, G → L i → A i → Option (G × L i)) :
    G × (∀ i, L i) → ProductAct G A → Option (G × (∀ i, L i))
  | (g, ls), .env g' => if rely g g' then some (g', ls) else none
  | (g, ls), .thread i a =>
      (step i g (ls i) a).map (fun r => (r.1, Function.update ls i r.2))

section Product

variable {ι G : Type*} [DecidableEq ι] {L A : ι → Type*} {rely : G → G → Bool}
variable {step : ∀ i, G → L i → A i → Option (G × L i)}

/-- A step of the product is a step or an interference in each thread. -/
theorem product_step_projects
    (hguar : ∀ i g l a g' l', step i g l a = some (g', l') → rely g g' = true)
    (i : ι) (s : G × (∀ i, L i)) (a : ProductAct G A) (t : G × (∀ i, L i))
    (h : productStep rely step s a = some t) :
    ∃ bs, run (threadStep rely (step i)) (s.1, s.2 i) bs = some (t.1, t.2 i) := by
  obtain ⟨g, ls⟩ := s
  cases a with
  | env g' =>
      obtain ⟨hrely, ht⟩ := Option.ite_none_right_eq_some.mp h
      rw [← Option.some.inj ht]
      exact ⟨[.interfere g'], run_single (if_pos hrely)⟩
  | thread j a =>
      have h' : (step j g (ls j) a).map
          (fun r => (r.1, Function.update ls j r.2)) = some t := h
      obtain ⟨⟨g', l'⟩, hr, ht⟩ := Option.map_eq_some_iff.mp h'
      rw [← ht]
      by_cases hij : i = j
      · subst hij
        refine ⟨[.own a], run_single ?_⟩
        show step i g (ls i) a = some (g', Function.update ls i l' i)
        rw [Function.update_self]
        exact hr
      · refine ⟨[.interfere g'], run_single ?_⟩
        show (if rely g g' then some (g', ls i) else none)
          = some (g', Function.update ls j l' i)
        rw [Function.update_of_ne hij, if_pos (hguar j g (ls j) a g' l' hr)]

/-- **Each thread of the product runs alone under interference.** -/
theorem product_projects
    (hguar : ∀ i g l a g' l', step i g l a = some (g', l') → rely g g' = true)
    (i : ι) {s t : G × (∀ i, L i)} {as : List (ProductAct G A)}
    (h : run (productStep rely step) s as = some t) :
    ∃ bs, run (threadStep rely (step i)) (s.1, s.2 i) bs = some (t.1, t.2 i) :=
  run_simulates (fun s => (s.1, s.2 i)) (product_step_projects hguar i) h

end Product

end Transition
