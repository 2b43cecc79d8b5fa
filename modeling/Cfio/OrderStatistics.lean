import Mathlib.Data.List.Sort

/-! # Order statistics

    The `k`-th smallest element of a list, counted from one.  It is located by
    counting: a property that smaller elements inherit holds of it exactly when
    at least `k` elements have the property (`kthSmallest_iff`).  Nothing else
    about sorting is needed to relate an order statistic to a table of counts. -/

namespace OrderStatistics

variable {α : Type*} [LinearOrder α] {xs : List α} {k : Nat} {x : α}

/-- The `k`-th smallest element, counted from one. -/
def kthSmallest (xs : List α) (k : Nat) : Option α :=
  (xs.mergeSort (· ≤ ·))[k - 1]?

/-- In a sorted list, the elements with a property that smaller elements inherit
    come first. -/
theorem lt_countP_iff_of_sorted {l : List α} (hl : l.Pairwise (· ≤ ·))
    {p : α → Bool} (hp : ∀ a b, a ≤ b → p b = true → p a = true) {i : Nat}
    (hi : i < l.length) : i < l.countP p ↔ p l[i] = true := by
  induction l generalizing i with
  | nil => exact absurd hi (Nat.not_lt_zero i)
  | cons a l ih =>
      obtain ⟨hle, hl⟩ := List.pairwise_cons.mp hl
      have hnone : p a = false → l.countP p = 0 := by
        intro ha
        refine List.countP_eq_zero.mpr (fun b hb hpb => ?_)
        rw [hp a b (hle b hb) hpb] at ha
        exact nomatch ha
      cases i with
      | zero =>
          cases ha : p a with
          | true => simp [ha]
          | false => simp [ha, hnone ha]
      | succ i =>
          have hi' : i < l.length := Nat.lt_of_succ_lt_succ hi
          rw [List.getElem_cons_succ, ← ih hl hi']
          cases ha : p a with
          | true =>
              rw [List.countP_cons_of_pos ha]
              exact Nat.succ_lt_succ_iff
          | false =>
              rw [List.countP_cons_of_neg (by simp [ha]), hnone ha]
              omega

/-- **An order statistic, located by counting.** -/
theorem kthSmallest_iff {p : α → Bool}
    (hp : ∀ a b, a ≤ b → p b = true → p a = true)
    (hx : kthSmallest xs k = some x) (hk : 1 ≤ k) :
    k ≤ xs.countP p ↔ p x = true := by
  obtain ⟨hi, rfl⟩ := List.getElem?_eq_some_iff.mp hx
  have hsorted := List.pairwise_mergeSort' (· ≤ ·) xs
  rw [← lt_countP_iff_of_sorted hsorted hp hi,
    (List.mergeSort_perm xs _).countP_eq]
  omega

/-- There is a `k`-th smallest element when there are `k` elements. -/
theorem exists_kthSmallest (hk : 1 ≤ k) (hle : k ≤ xs.length) :
    ∃ x, kthSmallest xs k = some x := by
  have hi : k - 1 < (xs.mergeSort (· ≤ ·)).length := by
    rw [List.length_mergeSort]
    omega
  exact ⟨_, List.getElem?_eq_getElem hi⟩

theorem mem_of_kthSmallest (hx : kthSmallest xs k = some x) : x ∈ xs :=
  List.mem_mergeSort.mp (List.mem_of_getElem? hx)

/-- Counting up to a number, one value at a time. -/
theorem countP_lt_succ {β : Type*} (f : β → Nat) (l : List β) (j : Nat) :
    l.countP (fun b => f b < j + 1)
      = l.countP (fun b => f b < j) + l.countP (fun b => f b = j) := by
  induction l with
  | nil => rfl
  | cons b l ih =>
      simp only [List.countP_cons, decide_eq_true_eq]
      rw [ih]
      by_cases hlt : f b < j
      · have hsucc : f b < j + 1 := Nat.lt_succ_of_lt hlt
        rw [if_pos hsucc, if_pos hlt, if_neg (Nat.ne_of_lt hlt)]
        omega
      · by_cases heq : f b = j
        · have hsucc : f b < j + 1 := heq ▸ Nat.lt_succ_self _
          rw [if_pos hsucc, if_neg hlt, if_pos heq]
          omega
        · have hsucc : ¬ f b < j + 1 := by omega
          rw [if_neg hsucc, if_neg hlt, if_neg heq]
          omega

/-- A search through a list that is ordered by a relation finds what comes
    first. -/
theorem find?_first {β : Type*} {r : β → β → Prop} {l : List β} (hl : l.Pairwise r)
    {p : β → Bool} {a b : β} (h : l.find? p = some a) (hb : b ∈ l)
    (hp : p b = true) : b = a ∨ r a b := by
  induction l with
  | nil => exact nomatch hb
  | cons c l ih =>
      obtain ⟨hc, hl⟩ := List.pairwise_cons.mp hl
      cases hpc : p c with
      | true =>
          rw [List.find?_cons_of_pos hpc] at h
          obtain rfl := Option.some.inj h
          rcases List.mem_cons.mp hb with rfl | hmem
          · exact .inl rfl
          · exact .inr (hc b hmem)
      | false =>
          rw [List.find?_cons_of_neg (by simp [hpc])] at h
          rcases List.mem_cons.mp hb with rfl | hmem
          · rw [hpc] at hp
            exact nomatch hp
          · exact ih hl h hmem

end OrderStatistics
