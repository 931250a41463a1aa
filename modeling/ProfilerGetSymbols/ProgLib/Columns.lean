import Mathlib

/-! # Columns — folding a list by the positions modulo a number

    A list that is written in rows of `n` has `n` columns.  Each column is folded
    on its own; the list may begin anywhere in a row.

    Where the operation can be undone on both sides, the fold of a column tells
    apart two lists that differ in one element of the column. -/

namespace ProgLib

variable {α β : Type}

/-- Fold the elements at the positions that are `k` modulo `n`, the first element being at
    position `i`. -/
def columnFold (f : β → α → β) (n k : Nat) : Nat → β → List α → β
  | _, acc, [] => acc
  | i, acc, a :: l => columnFold f n k (i + 1) (if i % n = k then f acc a else acc) l

variable {f : β → α → β} {n k : Nat}

/-- Different beginnings have different ends. -/
theorem columnFold_injective (hf : ∀ a, Function.Injective (fun acc => f acc a)) (i : Nat)
    (l : List α) : Function.Injective (fun acc => columnFold f n k i acc l) := by
  induction l generalizing i with
  | nil => exact fun acc acc' h => h
  | cons a l ih =>
      intro acc acc' h
      have h := ih (i + 1) h
      by_cases hk : i % n = k
      · rw [if_pos hk, if_pos hk] at h
        exact hf a h
      · rw [if_neg hk, if_neg hk] at h
        exact h

/-- An element of another column does not count. -/
theorem columnFold_set_of_ne (i : Nat) (acc : β) (l : List α) {j : Nat} (b : α)
    (hj : (i + j) % n ≠ k) : columnFold f n k i acc (l.set j b) = columnFold f n k i acc l := by
  induction l generalizing i acc j with
  | nil => rfl
  | cons a l ih =>
      cases j with
      | zero =>
          have hj : i % n ≠ k := hj
          rw [List.set_cons_zero, columnFold, columnFold, if_neg hj, if_neg hj]
      | succ j =>
          rw [List.set_cons_succ, columnFold, columnFold]
          exact ih (i + 1) _ (by rw [show i + 1 + j = i + (j + 1) by omega]; exact hj)

/-- **ONE ELEMENT COUNTS**: the fold of its column changes when it does. -/
theorem columnFold_set_eq_iff (hf : ∀ a, Function.Injective (fun acc => f acc a))
    (hf' : ∀ acc, Function.Injective (f acc)) (i : Nat) (acc : β) {l : List α} {j : Nat} (b : α)
    (hj : (i + j) % n = k) (hlt : j < l.length) :
    columnFold f n k i acc (l.set j b) = columnFold f n k i acc l ↔ l[j]? = some b := by
  induction l generalizing i acc j with
  | nil => exact absurd hlt (Nat.not_lt_zero _)
  | cons a l ih =>
      cases j with
      | zero =>
          have hj : i % n = k := hj
          rw [List.set_cons_zero, columnFold, columnFold, if_pos hj, if_pos hj,
            List.getElem?_cons_zero, Option.some.injEq]
          constructor
          · intro h
            exact (hf' acc (columnFold_injective hf (i + 1) l h)).symm
          · rintro rfl
            rfl
      | succ j =>
          rw [List.set_cons_succ, columnFold, columnFold, List.getElem?_cons_succ]
          exact ih (i + 1) _ (by rw [show i + 1 + j = i + (j + 1) by omega]; exact hj)
            (Nat.lt_of_succ_lt_succ hlt)

end ProgLib
