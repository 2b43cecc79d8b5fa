import Mathlib.Data.List.Basic
import Mathlib.Data.List.TakeDrop

/-! # Sliding windows

    A ring of `c` slots that is written in rotation keeps the last `c` entries of
    the unbounded history: entry number `p` stands in slot `p % c` until `c` later
    entries have come (`Holds`).  Read from the oldest entry on, the ring is the
    window `lastOf c` of the history. -/

namespace SlidingWindow

variable {α : Type*}

/-- The last `c` entries of a history, all of them if there are fewer. -/
def lastOf (c : Nat) (history : List α) : List α := history.drop (history.length - c)

/-- The slots hold the entries of the history that are still in the window. -/
def Holds (slots history : List α) : Prop :=
  ∀ p, p < history.length → history.length ≤ p + slots.length →
    slots[p % slots.length]? = history[p]?

/-! ## Windows -/

section Windows

variable {c : Nat} {history : List α}

/-- There are as many as fit, or all there are. -/
theorem length_lastOf (c : Nat) (history : List α) :
    (lastOf c history).length = min history.length c := by
  rw [lastOf, List.length_drop]
  omega

/-- A short history is its own window. -/
theorem lastOf_of_le (h : history.length ≤ c) : lastOf c history = history := by
  rw [lastOf, Nat.sub_eq_zero_of_le h, List.drop_zero]

/-- One more entry moves the window on. -/
theorem lastOf_concat (c : Nat) (history : List α) (x : α) :
    lastOf (c + 1) (history ++ [x]) = lastOf c history ++ [x] := by
  rw [lastOf, lastOf, List.length_append, List.length_singleton, Nat.add_sub_add_right,
    List.drop_append_of_le_length (Nat.sub_le _ _)]

/-- The last ones are in the order of the history. -/
theorem lastOf_sublist (c : Nat) (history : List α) :
    (lastOf c history).Sublist history := List.drop_sublist _ _

/-- Where an element of the window was in the history. -/
theorem getElem?_lastOf (c : Nat) (history : List α) (k : Nat) :
    (lastOf c history)[k]? = history[history.length - c + k]? := by
  rw [lastOf, List.getElem?_drop]

end Windows

/-! ## Writing in rotation -/

section Slots

variable {slots history : List α}

/-- The slots of entries less than a round apart differ. -/
theorem mod_ne_of_lt {p n c : Nat} (hlt : p < n) (hwithin : n < p + c) :
    p % c ≠ n % c := by
  intro heq
  have hdvd : c ∣ n - p := Nat.dvd_of_mod_eq_zero (Nat.sub_mod_eq_zero_of_mod_eq heq.symm)
  have hle := Nat.le_of_dvd (by omega) hdvd
  omega

theorem holds_nil (slots : List α) : Holds slots [] :=
  fun p hp _ => absurd hp (Nat.not_lt_zero p)

/-- **Writing the next slot** appends to the history. -/
theorem Holds.write (h : Holds slots history) (hpos : 0 < slots.length) (x : α) :
    Holds (slots.set (history.length % slots.length) x) (history ++ [x]) := by
  intro p hp hwithin
  rw [List.length_append, List.length_singleton] at hp hwithin
  rw [List.length_set] at hwithin ⊢
  by_cases hlast : p = history.length
  · subst hlast
    rw [List.getElem?_set_self (Nat.mod_lt _ hpos), List.getElem?_concat_length]
  · have hbefore : p < history.length := by omega
    have hne := mod_ne_of_lt hbefore (by omega : history.length < p + slots.length)
    rw [List.getElem?_set_ne (Ne.symm hne), List.getElem?_append_left hbefore]
    exact h p hbefore (by omega)

/-! ## Reading from the oldest entry on -/

/-- Reading the elements of a list one after the other gives the list. -/
theorem mapM_range'_eq {f : Nat → Option α} {l : List α} {start : Nat}
    (h : ∀ k, k < l.length → f (start + k) = l[k]?) :
    (List.range' start l.length).mapM f = some l := by
  induction l generalizing start with
  | nil => rfl
  | cons x l ih =>
      have hhead : f start = some x := h 0 (Nat.succ_pos _)
      have htail : (List.range' (start + 1) l.length).mapM f = some l := by
        refine ih (fun k hk => ?_)
        rw [Nat.add_right_comm]
        exact h (k + 1) (Nat.succ_lt_succ hk)
      rw [List.length_cons, List.range'_succ, List.mapM_cons, hhead, htail]
      rfl

/-- Reading place by place gives the list. -/
theorem mapM_range_eq {f : Nat → Option α} {l : List α} {n : Nat} (hn : n = l.length)
    (h : ∀ k, k < n → f k = l[k]?) : (List.range n).mapM f = some l := by
  subst hn
  rw [List.range_eq_range']
  refine mapM_range'_eq (fun k hk => ?_)
  rw [Nat.zero_add]
  exact h k hk

/-- Reading slots that exist gives one entry for each. -/
theorem mapM_some {l : List Nat} {f : Nat → Option α} (h : ∀ k ∈ l, (f k).isSome) :
    ∃ result, l.mapM f = some result ∧ result.length = l.length := by
  induction l with
  | nil => exact ⟨[], rfl, rfl⟩
  | cons k l ih =>
      obtain ⟨x, hx⟩ := Option.isSome_iff_exists.mp (h k (List.mem_cons_self ..))
      obtain ⟨result, hresult, hlen⟩ := ih (fun j hj => h j (List.mem_cons_of_mem _ hj))
      refine ⟨x :: result, ?_, congrArg (· + 1) hlen⟩
      rw [List.mapM_cons, hx, hresult]
      rfl

/-- Only the places that are read count. -/
theorem mapM_congr {l : List Nat} {f g : Nat → Option α} (h : ∀ k ∈ l, f k = g k) :
    l.mapM f = l.mapM g := by
  induction l with
  | nil => rfl
  | cons k l ih =>
      rw [List.mapM_cons, List.mapM_cons, h k (List.mem_cons_self ..),
        ih (fun j hj => h j (List.mem_cons_of_mem _ hj))]

/-- Before the first round is over the slots in use are the history. -/
theorem Holds.read_prefix (h : Holds slots history)
    (hle : history.length ≤ slots.length) :
    (List.range history.length).mapM (fun i => slots[i]?) = some history := by
  refine mapM_range_eq rfl (fun i hi => ?_)
  have hslot := h i hi (by omega)
  rwa [Nat.mod_eq_of_lt (by omega)] at hslot

/-- **Read from the slot written next**, the ring is the window. -/
theorem Holds.read_round (h : Holds slots history)
    (hle : slots.length ≤ history.length) :
    (List.range slots.length).mapM
        (fun k => slots[(history.length % slots.length + k) % slots.length]?)
      = some (lastOf slots.length history) := by
  refine mapM_range_eq ?_ (fun k hk => ?_)
  · rw [length_lastOf]
    omega
  · have hslot := h (history.length - slots.length + k) (by omega) (by omega)
    have hpos : history.length + k = history.length - slots.length + k + slots.length := by
      omega
    rw [getElem?_lastOf, ← hslot, Nat.mod_add_mod, hpos, Nat.add_mod_right]

end Slots

end SlidingWindow
