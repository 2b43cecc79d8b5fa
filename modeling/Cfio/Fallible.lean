import Mathlib.Data.List.Basic

/-! # Programs that throw, and what they leave behind

    A program over a state returns a result, or throws and leaves the state it
    had reached, or does not return.  `wlp` is its weakest liberal precondition,
    with one postcondition for the result and one for the exception; a rule for
    each way of building a program says what it becomes there.  The rule for
    loops over a list, `wlp_forM`, keeps an invariant indexed by what has been
    processed, so that an exception can be traced to the element that threw. -/

namespace Fallible

variable {ε σ τ : Type} {α β : Type}

/-- A program over the state `σ` that may throw an `ε`. -/
abbrev Program (ε σ : Type) := ExceptT ε (StateT σ Option)

/-- Run a program: what came of it and the state it left, or `none` when it does
    not return. -/
def exec (x : Program ε σ α) (s : σ) : Option (Except ε α × σ) :=
  (ExceptT.run x).run s

/-- A program that does not return. -/
def stuck : Program ε σ α := ExceptT.mk (fun _ => none)

/-- Run a program on a part of the state; the part is put back whether or not
    the program throws. -/
def zoom (get : σ → τ) (put : τ → σ → σ) (x : Program ε τ α) : Program ε σ α :=
  ExceptT.mk (fun s => (exec x (get s)).map (fun r => (r.1, put r.2 s)))

/-- A postcondition for each outcome. -/
def Post (Q : α → σ → Prop) (E : ε → σ → Prop) : Except ε α × σ → Prop
  | (.ok a, t) => Q a t
  | (.error e, t) => E e t

/-- **The weakest liberal precondition**: if the program returns, its result
    meets `Q`; if it throws, its exception meets `E`. -/
def wlp (x : Program ε σ α) (Q : α → σ → Prop) (E : ε → σ → Prop) (s : σ) : Prop :=
  ∀ r, exec x s = some r → Post Q E r

/-! ## How programs run -/

/-- What follows runs on the result of what comes first, unless that threw. -/
theorem exec_bind (x : Program ε σ α) (f : α → Program ε σ β) (s : σ) :
    exec (x >>= f) s = (exec x s).bind (fun r =>
      match r with
      | (.ok a, t) => exec (f a) t
      | (.error e, t) => some (.error e, t)) := by
  show Option.bind (exec x s) _ = Option.bind (exec x s) _
  congr 1
  funext ⟨r, t⟩
  cases r <;> rfl

/-! ## The rules -/

section Rules

variable {Q Q' : α → σ → Prop} {E E' : ε → σ → Prop} {s : σ}

theorem wlp_pure {a : α} : wlp (pure a) Q E s ↔ Q a s :=
  ⟨fun h => h _ rfl, fun h _ hr => Option.some.inj hr ▸ h⟩

theorem wlp_throw {e : ε} : wlp (throw e) Q E s ↔ E e s :=
  ⟨fun h => h _ rfl, fun h _ hr => Option.some.inj hr ▸ h⟩

theorem wlp_get {Q : σ → σ → Prop} : wlp (get : Program ε σ σ) Q E s ↔ Q s s :=
  ⟨fun h => h _ rfl, fun h _ hr => Option.some.inj hr ▸ h⟩

theorem wlp_modify {f : σ → σ} {Q : PUnit → σ → Prop} :
    wlp (modify f : Program ε σ PUnit) Q E s ↔ Q ⟨⟩ (f s) :=
  ⟨fun h => h _ rfl, fun h _ hr => Option.some.inj hr ▸ h⟩

/-- Of a program that does not end there is nothing to show. -/
theorem wlp_stuck : wlp (stuck : Program ε σ α) Q E s :=
  fun _ hr => nomatch hr

theorem wlp_ofExcept {x : Except ε α} :
    wlp (MonadExcept.ofExcept x : Program ε σ α) Q E s ↔
      (∀ a, x = .ok a → Q a s) ∧ ∀ e, x = .error e → E e s := by
  cases x with
  | ok a =>
      refine wlp_pure.trans ⟨fun h => ⟨fun _ ha => Except.ok.inj ha ▸ h, nofun⟩, fun h => ?_⟩
      exact h.1 a rfl
  | error e =>
      refine wlp_throw.trans ⟨fun h => ⟨nofun, fun _ he => Except.error.inj he ▸ h⟩, fun h => ?_⟩
      exact h.2 e rfl

/-- A handler runs on what was thrown, in the state the throwing program left. -/
theorem wlp_tryCatch {x : Program ε σ α} {handle : ε → Program ε σ α}
    (h : wlp x Q (fun e t => wlp (handle e) Q E t) s) : wlp (tryCatch x handle) Q E s := by
  have hexec : exec (tryCatch x handle) s = (exec x s).bind (fun r =>
      match r with
      | (.ok a, t) => some (.ok a, t)
      | (.error e, t) => exec (handle e) t) := by
    show Option.bind (exec x s) _ = Option.bind (exec x s) _
    congr 1
    funext ⟨r, t⟩
    cases r <;> rfl
  intro q hq
  rw [hexec] at hq
  obtain ⟨⟨r, t⟩, hr, hrest⟩ := Option.bind_eq_some_iff.mp hq
  have hpost := h (r, t) hr
  cases r with
  | ok a =>
      rw [← Option.some.inj hrest]
      exact hpost
  | error e => exact hpost q hrest

/-- Sequencing. -/
theorem wlp_bind {x : Program ε σ α} {f : α → Program ε σ β} {Q : β → σ → Prop} :
    wlp (x >>= f) Q E s ↔ wlp x (fun a => wlp (f a) Q E) E s := by
  constructor
  · rintro h ⟨r, t⟩ hr
    cases r with
    | ok a =>
        intro q hq
        refine h q ?_
        rw [exec_bind, hr]
        exact hq
    | error e =>
        have hx := h (.error e, t) (by rw [exec_bind, hr]; rfl)
        exact hx
  · rintro h q hq
    rw [exec_bind] at hq
    obtain ⟨⟨r, t⟩, hr, hrest⟩ := Option.bind_eq_some_iff.mp hq
    have hpost := h (r, t) hr
    cases r with
    | ok a => exact hpost q hrest
    | error e =>
        rw [← Option.some.inj hrest]
        exact hpost

/-- Consequence. -/
theorem wlp_mono {x : Program ε σ α} (h : wlp x Q E s)
    (hQ : ∀ a t, Q a t → Q' a t) (hE : ∀ e t, E e t → E' e t) : wlp x Q' E' s := by
  rintro ⟨r, t⟩ hr
  have hpost := h (r, t) hr
  cases r with
  | ok a => exact hQ a t hpost
  | error e => exact hE e t hpost

/-- Of two branches only the one that is taken counts. -/
theorem wlp_ite {p : Prop} [Decidable p] {x y : Program ε σ α}
    (hpos : p → wlp x Q E s) (hneg : ¬ p → wlp y Q E s) :
    wlp (if p then x else y) Q E s := by
  by_cases hp : p
  · rw [if_pos hp]
    exact hpos hp
  · rw [if_neg hp]
    exact hneg hp

/-- Working on a part of the state. -/
theorem wlp_zoom {get : σ → τ} {put : τ → σ → σ} {x : Program ε τ α}
    (h : wlp x (fun a u => Q a (put u s)) (fun e u => E e (put u s)) (get s)) :
    wlp (zoom get put x) Q E s := by
  rintro r hr
  obtain ⟨⟨q, u⟩, hq, hput⟩ := Option.map_eq_some_iff.mp hr
  have hpost := h (q, u) hq
  rw [← hput]
  cases q with
  | ok a => exact hpost
  | error e => exact hpost

/-- **Loops over a list**, with an invariant of what has been processed. -/
theorem wlp_forM {f : β → Program ε σ PUnit} {l : List β} {I : List β → σ → Prop}
    (hstep : ∀ done b rest t, l = done ++ b :: rest → I done t →
      wlp (f b) (fun _ => I (done ++ [b])) E t)
    (hs : I [] s) : wlp (l.forM f) (fun _ => I l) E s := by
  suffices h : ∀ rest done t, l = done ++ rest → I done t →
      wlp (rest.forM f) (fun _ => I l) E t from h l [] s rfl hs
  intro rest
  induction rest with
  | nil =>
      intro done t hl hI
      rw [hl, List.append_nil]
      exact wlp_pure.mpr hI
  | cons b rest ih =>
      intro done t hl hI
      refine wlp_bind.mpr (wlp_mono (hstep done b rest t hl hI) ?_ (fun _ _ h => h))
      intro _ u hu
      exact ih (done ++ [b]) u (by rw [hl, List.append_assoc]; rfl) hu

end Rules

end Fallible
