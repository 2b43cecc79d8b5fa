import Mathlib.Data.List.Perm.Basic
import Cfio.Transition

/-! # Servers that take requests one by one and give completions in batches

    A server accepts requests with `submit` and hands out completions with
    `poll`, at most `hi` of them and, unless it throws, at least `lo` when that
    many requests are outstanding.  What the server's own environment decides is
    the argument of type `κ`; `none` means that the environment cannot decide so.

    `Answered answers before cs after` is the one law of such a server: the
    completions `cs` answer some of the requests `before`, each request at most
    once and in any order, and `after` are the requests still to be answered.
    It composes (`Answered.trans`), so the same statement speaks about one poll
    and about a whole run.  `Contract` is what a client may rely on; a client
    that takes any steps at all is `clientStep`.

    `pick` and `pickMany` are a server's environment choosing, in any order,
    which of the requests it holds are done. -/

namespace RequestServer

variable {σ κ ρ γ ε : Type*}

/-- What a `submit` call leaves behind: the exception, if any, and the state. -/
structure SubmitResult (ε σ : Type*) where
  thrown : Option ε
  state : σ

/-- What a `poll` call leaves behind: the exception, if any, the output vector
    and the state. -/
structure PollResult (ε γ σ : Type*) where
  thrown : Option ε
  out : List γ
  state : σ

/-- A server with states `σ`, environment `κ`, requests `ρ`, completions `γ` and
    exceptions `ε`. -/
structure Server (σ κ ρ γ ε : Type*) where
  submit : κ → ρ → σ → Option (SubmitResult ε σ)
  poll : κ → Int → Int → List γ → σ → Option (PollResult ε γ σ)

/-! ## The accounting law -/

/-- The completions `cs` answer distinct requests of `before`, and `after` are
    the requests that remain. -/
def Answered (answers : ρ → γ → Prop) (before : List ρ) (cs : List γ)
    (after : List ρ) : Prop :=
  ∃ served : List (ρ × γ), served.map Prod.snd = cs ∧
    (served.map Prod.fst ++ after).Perm before ∧
    ∀ p ∈ served, answers p.1 p.2

section Answered

variable {answers : ρ → γ → Prop} {A O O' P : List ρ} {cs ds : List γ}

/-- No completions, nothing changed. -/
theorem Answered.refl (h : O.Perm A) : Answered answers A [] O :=
  ⟨[], rfl, h, fun _ hp => nomatch hp⟩

/-- Batches compose. -/
theorem Answered.trans (h₁ : Answered answers A ds O)
    (h₂ : Answered answers O cs O') : Answered answers A (ds ++ cs) O' := by
  obtain ⟨p₁, hd, hA, ha⟩ := h₁
  obtain ⟨p₂, hc, hO, hb⟩ := h₂
  refine ⟨p₁ ++ p₂, ?_, ?_, ?_⟩
  · rw [List.map_append, hd, hc]
  · rw [List.map_append, List.append_assoc]
    exact (hO.append_left _).trans hA
  · intro p hp
    rcases List.mem_append.mp hp with h | h
    · exact ha p h
    · exact hb p h

/-- One more request joins those still to be answered. -/
theorem Answered.accept {r : ρ} (h : Answered answers A ds O)
    (hO : O'.Perm (r :: O)) : Answered answers (A ++ [r]) ds O' := by
  obtain ⟨p, hd, hA, ha⟩ := h
  refine ⟨p, hd, ?_, ha⟩
  have hmid : (p.map Prod.fst ++ r :: O).Perm (r :: (p.map Prod.fst ++ O)) :=
    List.perm_middle
  have hend : (r :: A).Perm (A ++ [r]) := (List.perm_append_singleton r A).symm
  exact (hO.append_left _).trans (hmid.trans ((hA.cons r).trans hend))

/-- The remaining requests matter up to order only. -/
theorem Answered.perm_after (h : Answered answers A ds O) (hO : O'.Perm O) :
    Answered answers A ds O' := by
  obtain ⟨p, hd, hA, ha⟩ := h
  exact ⟨p, hd, (hO.append_left _).trans hA, ha⟩

/-- Nothing is lost and nothing is made up. -/
theorem Answered.length_eq (h : Answered answers A ds O) :
    ds.length + O.length = A.length := by
  obtain ⟨p, hd, hA, -⟩ := h
  have hlen := hA.length_eq
  rw [List.length_append, List.length_map] at hlen
  rw [← hd, List.length_map]
  exact hlen

/-- What is still to be answered was asked. -/
theorem Answered.mem_before {r : ρ} (h : Answered answers A ds O) (hr : r ∈ O) :
    r ∈ A := by
  obtain ⟨p, -, hA, -⟩ := h
  exact hA.mem_iff.mp (List.mem_append_right _ hr)

/-- Whatever is constant on a request and its answer is accounted for in the
    same way. -/
theorem Answered.map_perm {δ : Type*} {f : ρ → δ} {g : γ → δ}
    (hfg : ∀ r c, answers r c → g c = f r) (h : Answered answers A ds O) :
    (ds.map g ++ O.map f).Perm (A.map f) := by
  obtain ⟨p, hd, hA, ha⟩ := h
  have hmap : ds.map g = (p.map Prod.fst).map f := by
    rw [← hd, List.map_map, List.map_map]
    refine List.map_congr_left ?_
    intro q hq
    exact hfg q.1 q.2 (ha q hq)
  rw [hmap, ← List.map_append]
  exact hA.map f

end Answered

/-! ## The contract of a server -/

/-- What a client may rely on that keeps at most `depth` requests outstanding.
    `outstanding` are the requests accepted and not yet completed.  The promises
    are made in the `Valid` states, and a call that throws may leave that set; what
    it leaves outstanding is promised all the same.  A `poll` with nothing
    outstanding promises nothing. -/
structure Contract (S : Server σ κ ρ γ ε) (answers : ρ → γ → Prop) (depth : Nat) where
  Valid : σ → Prop
  outstanding : σ → List ρ
  accepted : ∀ {k r s s'}, Valid s → S.submit k r s = some ⟨none, s'⟩ →
    Valid s' ∧ (outstanding s').Perm (r :: outstanding s)
  rejected : ∀ {k r s e s'}, Valid s → S.submit k r s = some ⟨some e, s'⟩ →
    (outstanding s').Perm (outstanding s)
  polled : ∀ {k lo hi out s res}, Valid s → outstanding s ≠ [] →
    (outstanding s).length ≤ depth → 1 ≤ lo → lo ≤ hi →
    S.poll k lo hi out s = some res →
    ∃ cs, res.out = out ++ cs ∧ (cs.length : Int) ≤ hi ∧
      Answered answers (outstanding s) cs (outstanding res.state) ∧
      (res.thrown = none → Valid res.state ∧
        min lo ((outstanding s).length : Int) ≤ (cs.length : Int))

/-! ## Choosing what is done -/

section Pick

variable {α β : Type*}

/-- Take the element at a position out of a list. -/
def pick (held : List α) (i : Nat) : Option (α × List α) :=
  held[i]?.map (fun a => (a, held.eraseIdx i))

/-- Take several elements out, one after the other, each with what came of
    it. -/
def pickMany : List (Nat × β) → List α → Option (List (α × β) × List α)
  | [], held => some ([], held)
  | (i, b) :: choices, held =>
      (pick held i).bind (fun p =>
        (pickMany choices p.2).map (fun q => ((p.1, b) :: q.1, q.2)))

theorem pick_perm {held rest : List α} {i : Nat} {a : α}
    (h : pick held i = some (a, rest)) : (a :: rest).Perm held := by
  obtain ⟨b, hb, hp⟩ := Option.map_eq_some_iff.mp h
  obtain ⟨hi, rfl⟩ := List.getElem?_eq_some_iff.mp hb
  obtain ⟨rfl, rfl⟩ := Prod.mk.inj hp
  exact List.getElem_cons_eraseIdx_perm hi

/-- **What was taken and what is left is what there was.** -/
theorem pickMany_perm {choices : List (Nat × β)} {held rest : List α}
    {taken : List (α × β)} (h : pickMany choices held = some (taken, rest)) :
    (taken.map Prod.fst ++ rest).Perm held := by
  induction choices generalizing held taken with
  | nil =>
      obtain ⟨rfl, rfl⟩ := Prod.mk.inj (Option.some.inj h)
      exact List.Perm.refl _
  | cons choice choices ih =>
      obtain ⟨i, b⟩ := choice
      obtain ⟨⟨a, mid⟩, hpick, hmap⟩ := Option.bind_eq_some_iff.mp h
      obtain ⟨⟨more, last⟩, hmany, heq⟩ := Option.map_eq_some_iff.mp hmap
      obtain ⟨rfl, rfl⟩ := Prod.mk.inj heq
      exact ((ih hmany).cons a).trans (pick_perm hpick)

/-- The results go along in order. -/
theorem pickMany_results {choices : List (Nat × β)} {held rest : List α}
    {taken : List (α × β)} (h : pickMany choices held = some (taken, rest)) :
    taken.map Prod.snd = choices.map Prod.snd := by
  induction choices generalizing held taken with
  | nil =>
      obtain ⟨rfl, rfl⟩ := Prod.mk.inj (Option.some.inj h)
      rfl
  | cons choice choices ih =>
      obtain ⟨i, b⟩ := choice
      obtain ⟨⟨a, mid⟩, hpick, hmap⟩ := Option.bind_eq_some_iff.mp h
      obtain ⟨⟨more, last⟩, hmany, heq⟩ := Option.map_eq_some_iff.mp hmap
      obtain ⟨rfl, rfl⟩ := Prod.mk.inj heq
      exact congrArg (List.cons b) (ih hmany)

theorem pickMany_length {choices : List (Nat × β)} {held rest : List α}
    {taken : List (α × β)} (h : pickMany choices held = some (taken, rest)) :
    taken.length = choices.length := by
  have hlength := congrArg List.length (pickMany_results h)
  rwa [List.length_map, List.length_map] at hlength

/-- As many elements as there are can be taken. -/
theorem exists_pickMany {n : Nat} (b : β) {held : List α} (h : n ≤ held.length) :
    ∃ taken rest, pickMany (List.replicate n (0, b)) held = some (taken, rest) := by
  induction n generalizing held with
  | zero => exact ⟨[], held, rfl⟩
  | succ n ih =>
      cases held with
      | nil => exact absurd h (Nat.not_succ_le_zero n)
      | cons a held =>
          obtain ⟨taken, rest, hmany⟩ := ih (Nat.le_of_succ_le_succ h)
          refine ⟨(a, b) :: taken, rest, ?_⟩
          show (pickMany (List.replicate n (0, b)) held).map _ = _
          rw [hmany]
          rfl

end Pick

/-! ## Any client -/

/-- A server in use, with what it has accepted and delivered so far. -/
structure ClientState (σ ρ γ : Type*) where
  server : σ
  accepted : List ρ
  delivered : List γ

/-- The calls a client can make. -/
inductive ClientAct (κ ρ γ : Type*) where
  | submit (k : κ) (r : ρ)
  | poll (k : κ) (lo hi : Int) (out : List γ)

/-- One call of a client that may call anything at any time. -/
def clientStep (S : Server σ κ ρ γ ε) (c : ClientState σ ρ γ) :
    ClientAct κ ρ γ → Option (ClientState σ ρ γ)
  | .submit k r =>
      (S.submit k r c.server).map (fun res =>
        { server := res.state
          accepted := if res.thrown.isNone then c.accepted ++ [r] else c.accepted
          delivered := c.delivered })
  | .poll k lo hi out =>
      (S.poll k lo hi out c.server).map (fun res =>
        { server := res.state
          accepted := c.accepted
          delivered := c.delivered ++ res.out.drop out.length })

/-- A server that loses and duplicates nothing, as long as its calls are among
    those `ok` admits: `Inv` holds for good, whatever is thrown, and every call
    accounts for its requests. -/
structure Exact (S : Server σ κ ρ γ ε) (answers : ρ → γ → Prop)
    (ok : σ → ClientAct κ ρ γ → Prop) where
  Inv : σ → Prop
  outstanding : σ → List ρ
  submit : ∀ {k r s res}, Inv s → ok s (.submit k r) → S.submit k r s = some res →
    Inv res.state ∧ (outstanding res.state).Perm
      (if res.thrown.isNone then r :: outstanding s else outstanding s)
  poll : ∀ {k lo hi out s res}, Inv s → ok s (.poll k lo hi out) →
    S.poll k lo hi out s = some res → Inv res.state ∧ ∃ cs, res.out = out ++ cs ∧
      Answered answers (outstanding s) cs (outstanding res.state)

section Client

variable {S : Server σ κ ρ γ ε} {answers : ρ → γ → Prop}
variable {ok : σ → ClientAct κ ρ γ → Prop}

/-- The server's invariant, and everything delivered so far answers what was
    accepted. -/
def Exact.Accounted (E : Exact S answers ok) (c : ClientState σ ρ γ) : Prop :=
  E.Inv c.server ∧ Answered answers c.accepted c.delivered (E.outstanding c.server)

/-- One call of the client. -/
theorem Exact.step_accounted (E : Exact S answers ok) (c : ClientState σ ρ γ)
    (a : ClientAct κ ρ γ) (c' : ClientState σ ρ γ) (h : E.Accounted c)
    (hok : ok c.server a) (hs : clientStep S c a = some c') : E.Accounted c' := by
  obtain ⟨hinv, hacc⟩ := h
  cases a with
  | submit k r =>
      obtain ⟨res, hres, rfl⟩ := Option.map_eq_some_iff.mp hs
      obtain ⟨hinv', hperm⟩ := E.submit hinv hok hres
      refine ⟨hinv', ?_⟩
      by_cases ht : res.thrown.isNone = true
      · rw [if_pos ht] at hperm
        simp only [if_pos ht]
        exact hacc.accept hperm
      · rw [if_neg ht] at hperm
        simp only [if_neg ht]
        exact hacc.perm_after hperm
  | poll k lo hi out =>
      obtain ⟨res, hres, rfl⟩ := Option.map_eq_some_iff.mp hs
      obtain ⟨hinv', cs, hout, hans⟩ := E.poll hinv hok hres
      refine ⟨hinv', ?_⟩
      simp only [hout, List.drop_left]
      exact hacc.trans hans

/-- **Exactly once**: over any run of any client the completions delivered answer
    distinct accepted requests, and the rest are still outstanding. -/
theorem Exact.run_accounted (E : Exact S answers ok) {c c' : ClientState σ ρ γ}
    {as : List (ClientAct κ ρ γ)}
    (h : Transition.run (clientStep S) c as = some c')
    (hok : Transition.Meets (clientStep S) (fun c a => ok c.server a) c as)
    (hc : E.Accounted c) : E.Accounted c' :=
  Transition.run_invariant_of_meets E.step_accounted h hok hc

end Client

end RequestServer
