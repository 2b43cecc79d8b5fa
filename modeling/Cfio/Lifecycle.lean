import Mathlib.Data.Option.Basic
import Cfio.RequestServer

/-! # Servers that are opened and closed

    A device is a server with an `openWith` and a `close`.  Opening acquires a handle
    and a context, closing gives them back; what the process holds for the device is
    kept beside its state, so that what the device believes to hold and what it holds
    can be compared.

    `Settled` is what one wants of a device in every state that calls in any order can
    lead to: it holds what it believes to hold, an `openWith` that fails leaves nothing
    behind, and a closed device cannot be told from a new one.  `Tidy` is what has to
    be shown of its calls one by one, `settled_of_run` that this is enough. -/

namespace Lifecycle

open RequestServer Transition

variable {σ η ω κ ξ ρ γ ε : Type*}

/-! ## What is held -/

/-- The handles and contexts that were acquired and not given back. -/
structure Holdings (η : Type*) where
  handles : List η := []
  contexts : Nat := 0

def Holdings.acquire (h : Holdings η) (handle : η) : Holdings η :=
  { h with handles := handle :: h.handles }

def Holdings.release [DecidableEq η] (h : Holdings η) (handle : η) : Holdings η :=
  { h with handles := h.handles.erase handle }

def Holdings.create (h : Holdings η) : Holdings η := { h with contexts := h.contexts + 1 }

def Holdings.destroy (h : Holdings η) : Holdings η := { h with contexts := h.contexts - 1 }

/-- A state, and what is held for it. -/
structure Owned (σ η : Type*) where
  state : σ
  holds : Holdings η := {}

/-! ## Devices -/

/-- A server that is opened and closed.  What the environment decides is part of `ω`
    and `ξ`; a `close` may not return.  `handle`, `context` and `flag` are what the
    device believes of itself. -/
structure Device (σ η ω κ ξ ρ γ ε : Type*) extends Server σ κ ρ γ ε where
  new : σ
  openWith : ω → Owned σ η → SubmitResult ε (Owned σ η)
  close : ξ → Owned σ η → Option (Owned σ η)
  handle : σ → Option η
  context : σ → Bool
  flag : σ → Bool

/-- The calls of a client. -/
inductive Call (ω κ ξ ρ γ : Type*) where
  | openWith (w : ω)
  | submit (k : κ) (r : ρ)
  | poll (k : κ) (lo hi : Int) (out : List γ)
  | close (x : ξ)
  | flag

/-- What a call returns to the client. -/
inductive Reply (γ ε : Type*) where
  | returned (thrown : Option ε)
  | polled (thrown : Option ε) (out : List γ)
  | flag (value : Bool)

/-- One call. -/
def Device.call (D : Device σ η ω κ ξ ρ γ ε) (o : Owned σ η) :
    Call ω κ ξ ρ γ → Option (Reply γ ε × Owned σ η)
  | .openWith w =>
      let res := D.openWith w o
      some (.returned res.thrown, res.state)
  | .submit k r =>
      (D.submit k r o.state).map (fun res =>
        (.returned res.thrown, { o with state := res.state }))
  | .poll k lo hi out =>
      (D.poll k lo hi out o.state).map (fun res =>
        (.polled res.thrown res.out, { o with state := res.state }))
  | .close x => (D.close x o).map (fun o' => (.returned none, o'))
  | .flag => some (.flag (D.flag o.state), o)

/-- The same as a step. -/
def Device.step (D : Device σ η ω κ ξ ρ γ ε) (o : Owned σ η) (c : Call ω κ ξ ρ γ) :
    Option (Owned σ η) :=
  (D.call o c).map Prod.snd

/-- All that a client sees of a list of calls. -/
def Device.replies (D : Device σ η ω κ ξ ρ γ ε) :
    Owned σ η → List (Call ω κ ξ ρ γ) → Option (List (Reply γ ε))
  | _, [] => some []
  | o, c :: cs =>
      (D.call o c).bind (fun p => (D.replies p.2 cs).map (fun rs => p.1 :: rs))

/-! ## What one wants -/

/-- The device holds what it believes to hold, and a context only with a handle. -/
structure Balanced (D : Device σ η ω κ ξ ρ γ ε) (o : Owned σ η) : Prop where
  handles : o.holds.handles = (D.handle o.state).toList
  contexts : o.holds.contexts = if D.context o.state then 1 else 0
  context : D.context o.state = true → D.handle o.state ≠ none

/-- Nothing is held, and the device knows. -/
structure Closed (D : Device σ η ω κ ξ ρ γ ε) (o : Owned σ η) : Prop where
  handle : D.handle o.state = none
  context : D.context o.state = false
  holds : o.holds = {}

/-- What a device should be like in a state. -/
structure Settled (D : Device σ η ω κ ξ ρ γ ε) (o : Owned σ η) : Prop where
  balanced : Balanced D o
  /-- an open device refuses to be opened -/
  reopened : D.handle o.state ≠ none → ∀ w, ∃ e, D.openWith w o = ⟨some e, o⟩
  /-- opening fails without a trace -/
  failed : D.handle o.state = none → ∀ w e o', D.openWith w o = ⟨some e, o'⟩ → Closed D o'
  /-- a closed device is as good as new, and closing it again does nothing -/
  closed : ∀ x o', D.close x o = some o' →
    Closed D o' ∧ D.flag o'.state = false ∧
      (∀ cs, D.replies o' cs = D.replies { state := D.new } cs) ∧
      ∀ x', D.close x' o' = some o'
  /-- a closed device refuses requests -/
  refused : D.handle o.state = none → ∀ k r,
    ∃ e, D.submit k r o.state = some ⟨some e, o.state⟩

/-! ## What has to be shown -/

/-- Two states with what is held for them, as far as a client can tell. -/
structure AlikeOwned (alike : σ → σ → Prop) (o p : Owned σ η) : Prop where
  state : alike o.state p.state
  holds : o.holds = p.holds

/-- What one `openWith` may do. -/
inductive Opened (D : Device σ η ω κ ξ ρ γ ε) (rest : σ → Prop) (o : Owned σ η) :
    SubmitResult ε (Owned σ η) → Prop where
  | again (e : ε) (h : D.handle o.state ≠ none) : Opened D rest o ⟨some e, o⟩
  | failed (e : ε) (o' : Owned σ η) (h : D.handle o.state = none) (hclosed : Closed D o')
      (hrest : rest o'.state) : Opened D rest o ⟨some e, o'⟩
  | opened (o' : Owned σ η) (h : D.handle o.state = none) (hbalanced : Balanced D o')
      (hrest : rest o'.state) : Opened D rest o ⟨none, o'⟩

/-- The calls of a device one by one.  `rest` is what else holds of its states, and
    `alike` relates states no client can tell apart. -/
structure Tidy (D : Device σ η ω κ ξ ρ γ ε) where
  rest : σ → Prop
  alike : σ → σ → Prop
  new_rest : rest D.new
  new_closed : Closed D { state := D.new }
  openWith : ∀ w o, Balanced D o → rest o.state → Opened D rest o (D.openWith w o)
  submit : ∀ k r s res, rest s → D.submit k r s = some res →
    rest res.state ∧ D.handle res.state = D.handle s ∧ D.context res.state = D.context s
  refused : ∀ k r s, D.handle s = none → ∃ e, D.submit k r s = some ⟨some e, s⟩
  poll : ∀ k lo hi out s res, rest s → D.poll k lo hi out s = some res →
    rest res.state ∧ D.handle res.state = D.handle s ∧ D.context res.state = D.context s
  close : ∀ x o o', Balanced D o → rest o.state → D.close x o = some o' →
    Closed D o' ∧ D.flag o'.state = false ∧ rest o'.state ∧ alike o'.state D.new ∧
      ∀ x', D.close x' o' = some o'
  alike_openWith : ∀ w o p, AlikeOwned alike o p →
    (D.openWith w o).thrown = (D.openWith w p).thrown ∧
      AlikeOwned alike (D.openWith w o).state (D.openWith w p).state
  alike_submit : ∀ k r s t, alike s t →
    Option.Rel (fun x y => x.thrown = y.thrown ∧ alike x.state y.state)
      (D.submit k r s) (D.submit k r t)
  alike_poll : ∀ k lo hi out s t, alike s t →
    Option.Rel (fun x y => x.thrown = y.thrown ∧ x.out = y.out ∧ alike x.state y.state)
      (D.poll k lo hi out s) (D.poll k lo hi out t)
  alike_close : ∀ x o p, AlikeOwned alike o p →
    Option.Rel (AlikeOwned alike) (D.close x o) (D.close x p)
  alike_flag : ∀ s t, alike s t → D.flag s = D.flag t

/-- Related outcomes stay related under related functions. -/
theorem rel_map {α α' β β' : Type*} {R : α → β → Prop} {Q : α' → β' → Prop}
    {f : α → α'} {g : β → β'} (hfg : ∀ a b, R a b → Q (f a) (g b)) {x : Option α}
    {y : Option β} (h : Option.Rel R x y) : Option.Rel Q (x.map f) (y.map g) := by
  cases h with
  | some hab => exact .some (hfg _ _ hab)
  | none => exact .none

section Tidy

variable {D : Device σ η ω κ ξ ρ γ ε} (T : Tidy D)

theorem closed_balanced {o : Owned σ η} (h : Closed D o) : Balanced D o where
  handles := by
    rw [h.holds, h.handle]
    rfl
  contexts := by
    rw [h.holds, h.context]
    rfl
  context := by
    intro hcontext
    rw [h.context] at hcontext
    cases hcontext

/-- Without a handle nothing is held. -/
theorem Balanced.closed {o : Owned σ η} (h : Balanced D o) (hnone : D.handle o.state = none) :
    Closed D o := by
  have hcontext : D.context o.state = false :=
    Bool.eq_false_iff.mpr (fun hcontext => h.context hcontext hnone)
  have hhandles := h.handles
  have hcontexts := h.contexts
  rw [hnone] at hhandles
  rw [hcontext] at hcontexts
  refine ⟨hnone, hcontext, ?_⟩
  obtain ⟨state, handles, contexts⟩ := o
  rw [show handles = [] from hhandles, show contexts = 0 from hcontexts]

theorem Holdings.release_acquire [DecidableEq η] (h : Holdings η) (handle : η) :
    (h.acquire handle).release handle = h := by
  show ({ h with handles := (handle :: h.handles).erase handle } : Holdings η) = h
  rw [List.erase_cons_head]

/-- Opening a closed device that has no contexts. -/
theorem Closed.acquire {o : Owned σ η} (h : Closed D o) {s : σ} {handle : η}
    (hhandle : D.handle s = some handle) (hcontext : D.context s = false) :
    Balanced D { state := s, holds := o.holds.acquire handle } where
  handles := by
    rw [h.holds, hhandle]
    rfl
  contexts := by
    rw [h.holds, hcontext]
    rfl
  context := by
    rw [hhandle]
    exact fun _ => nofun

/-- Opening a closed device that has. -/
theorem Closed.create {o : Owned σ η} (h : Closed D o) {s : σ} {handle : η}
    (hhandle : D.handle s = some handle) (hcontext : D.context s = true) :
    Balanced D { state := s, holds := (o.holds.acquire handle).create } where
  handles := by
    rw [h.holds, hhandle]
    rfl
  contexts := by
    rw [h.holds, hcontext]
    rfl
  context := by
    rw [hhandle]
    exact fun _ => nofun

/-- All that is held behind a handle without a context, and with one. -/
theorem Balanced.release [DecidableEq η] {o : Owned σ η} (h : Balanced D o) {handle : η}
    (hhandle : D.handle o.state = some handle) (hcontext : D.context o.state = false) :
    o.holds.release handle = {} := by
  have hhandles := h.handles
  have hcontexts := h.contexts
  rw [hhandle] at hhandles
  rw [hcontext] at hcontexts
  show ({ handles := o.holds.handles.erase handle
          contexts := o.holds.contexts } : Holdings η) = {}
  rw [hhandles, hcontexts, Option.toList_some, List.erase_cons_head]
  rfl

theorem Balanced.destroy [DecidableEq η] {o : Owned σ η} (h : Balanced D o) {handle : η}
    (hhandle : D.handle o.state = some handle) (hcontext : D.context o.state = true) :
    o.holds.destroy.release handle = {} := by
  have hhandles := h.handles
  have hcontexts := h.contexts
  rw [hhandle] at hhandles
  rw [hcontext] at hcontexts
  show ({ handles := o.holds.handles.erase handle
          contexts := o.holds.contexts - 1 } : Holdings η) = {}
  rw [hhandles, hcontexts, Option.toList_some, List.erase_cons_head]
  rfl

/-- One call of any client. -/
theorem Tidy.call_balanced {o o' : Owned σ η} {c : Call ω κ ξ ρ γ} {reply : Reply γ ε}
    (hb : Balanced D o) (hrest : T.rest o.state) (h : D.call o c = some (reply, o')) :
    Balanced D o' ∧ T.rest o'.state := by
  -- a call that leaves the handle, the context and what is held
  have hkeeps : ∀ {s : σ}, T.rest s → D.handle s = D.handle o.state →
      D.context s = D.context o.state →
      Balanced D { o with state := s } ∧ T.rest s := by
    intro s hs hhandle hcontext
    refine ⟨⟨?_, ?_, ?_⟩, hs⟩
    · rw [hhandle]
      exact hb.handles
    · rw [hcontext]
      exact hb.contexts
    · rw [hhandle, hcontext]
      exact hb.context
  cases c with
  | openWith w =>
      obtain ⟨-, rfl⟩ := Prod.mk.inj (Option.some.inj h)
      cases hres : D.openWith w o with
      | mk thrown state =>
          have hopened := T.openWith w o hb hrest
          rw [hres] at hopened
          cases hopened with
          | again e h => exact ⟨hb, hrest⟩
          | failed e o' h hclosed hrest' => exact ⟨closed_balanced hclosed, hrest'⟩
          | opened o' h hbalanced hrest' => exact ⟨hbalanced, hrest'⟩
  | submit k r =>
      obtain ⟨res, hres, heq⟩ := Option.map_eq_some_iff.mp h
      obtain ⟨-, rfl⟩ := Prod.mk.inj heq
      obtain ⟨hs, hhandle, hcontext⟩ := T.submit k r o.state res hrest hres
      exact hkeeps hs hhandle hcontext
  | poll k lo hi out =>
      obtain ⟨res, hres, heq⟩ := Option.map_eq_some_iff.mp h
      obtain ⟨-, rfl⟩ := Prod.mk.inj heq
      obtain ⟨hs, hhandle, hcontext⟩ := T.poll k lo hi out o.state res hrest hres
      exact hkeeps hs hhandle hcontext
  | close x =>
      obtain ⟨o'', hres, heq⟩ := Option.map_eq_some_iff.mp h
      obtain ⟨-, rfl⟩ := Prod.mk.inj heq
      obtain ⟨hclosed, -, hrest', -, -⟩ := T.close x o o'' hb hrest hres
      exact ⟨closed_balanced hclosed, hrest'⟩
  | flag =>
      obtain ⟨-, rfl⟩ := Prod.mk.inj (Option.some.inj h)
      exact ⟨hb, hrest⟩

/-- One call on two states that are alike. -/
theorem Tidy.call_alike {o p : Owned σ η} (h : AlikeOwned T.alike o p)
    (c : Call ω κ ξ ρ γ) :
    Option.Rel (fun x y => x.1 = y.1 ∧ AlikeOwned T.alike x.2 y.2)
      (D.call o c) (D.call p c) := by
  cases c with
  | openWith w =>
      obtain ⟨hthrown, hstate⟩ := T.alike_openWith w o p h
      exact .some ⟨congrArg Reply.returned hthrown, hstate⟩
  | submit k r =>
      exact rel_map (fun x y hres =>
        ⟨congrArg Reply.returned hres.1, ⟨hres.2, h.holds⟩⟩) (T.alike_submit k r _ _ h.state)
  | poll k lo hi out =>
      refine rel_map (fun x y hres => ?_) (T.alike_poll k lo hi out _ _ h.state)
      obtain ⟨hthrown, hout, hstate⟩ := hres
      refine ⟨?_, ⟨hstate, h.holds⟩⟩
      show Reply.polled x.thrown x.out = Reply.polled y.thrown y.out
      rw [hthrown, hout]
  | close x => exact rel_map (fun _ _ hres => ⟨rfl, hres⟩) (T.alike_close x o p h)
  | flag => exact .some ⟨congrArg Reply.flag (T.alike_flag _ _ h.state), h⟩

/-- **No client can tell two states apart that are alike.** -/
theorem Tidy.replies_alike {o p : Owned σ η} (h : AlikeOwned T.alike o p)
    (cs : List (Call ω κ ξ ρ γ)) : D.replies o cs = D.replies p cs := by
  induction cs generalizing o p with
  | nil => rfl
  | cons c cs ih =>
      have hcall := T.call_alike h c
      unfold Device.replies
      generalize D.call o c = x at hcall ⊢
      generalize D.call p c = y at hcall ⊢
      cases hcall with
      | none => rfl
      | @some a b hres =>
          show (D.replies a.2 cs).map _ = (D.replies b.2 cs).map _
          rw [ih hres.2, hres.1]

/-- **After any calls the device is as one wants it.** -/
theorem Tidy.settled_of_run (T : Tidy D) {cs : List (Call ω κ ξ ρ γ)} {o : Owned σ η}
    (h : run D.step { state := D.new } cs = some o) : Settled D o := by
  obtain ⟨hb, hrest⟩ : Balanced D o ∧ T.rest o.state := by
    refine run_invariant (I := fun o => Balanced D o ∧ T.rest o.state) ?_ h
      ⟨closed_balanced T.new_closed, T.new_rest⟩
    rintro o c o' ⟨hb, hrest⟩ hstep
    obtain ⟨⟨reply, o''⟩, hcall, rfl⟩ := Option.map_eq_some_iff.mp hstep
    exact T.call_balanced hb hrest hcall
  have hopen := fun w => T.openWith w o hb hrest
  refine ⟨hb, ?_, ?_, ?_, ?_⟩
  · intro hhandle w
    have hopened := hopen w
    generalize D.openWith w o = res at hopened ⊢
    cases hopened with
    | again e _ => exact ⟨e, rfl⟩
    | failed _ _ hnone => exact absurd hnone hhandle
    | opened _ hnone => exact absurd hnone hhandle
  · intro hnone w e o' hres
    have hopened := hopen w
    rw [hres] at hopened
    cases hopened with
    | again _ hhandle => exact absurd hnone hhandle
    | failed _ _ _ hclosed => exact hclosed
  · intro x o' hclose
    obtain ⟨hclosed, hflag, -, halike, hagain⟩ := T.close x o o' hb hrest hclose
    exact ⟨hclosed, hflag, T.replies_alike ⟨halike, hclosed.holds⟩, hagain⟩
  · intro hnone k r
    exact T.refused k r o.state hnone

end Tidy

end Lifecycle
