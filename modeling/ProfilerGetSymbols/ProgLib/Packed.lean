import Mathlib

/-! # Packed chunks — a list of chunks as one run and its offsets

    Chunks of any length are laid out one after the other, with the offset at
    which each begins.  The offset behind the last chunk closes the table, so
    that chunk `i` is what lies between offsets `i` and `i + 1`. -/

namespace ProgLib

variable {α : Type}

/-- Where chunk `i` begins in the concatenation. -/
def offset (chunks : List (List α)) (i : Nat) : Nat := (chunks.take i).flatten.length

@[simp] theorem offset_zero (chunks : List (List α)) : offset chunks 0 = 0 := rfl

@[simp] theorem offset_cons_succ (c : List α) (chunks : List (List α)) (i : Nat) :
    offset (c :: chunks) (i + 1) = c.length + offset chunks i := by
  simp [offset]

/-- The offset that closes the table. -/
theorem offset_length (chunks : List (List α)) :
    offset chunks chunks.length = chunks.flatten.length := by
  rw [offset, List.take_length]

theorem offset_succ {chunks : List (List α)} {i : Nat} {c : List α}
    (h : chunks[i]? = some c) : offset chunks (i + 1) = offset chunks i + c.length := by
  rw [offset, offset, List.take_add_one, h]
  simp

/-- Offsets never decrease. -/
theorem offset_mono (chunks : List (List α)) {i j : Nat} (h : i ≤ j) :
    offset chunks i ≤ offset chunks j := by
  have hsub : (chunks.take i).Sublist (chunks.take j) := by
    rw [show chunks.take i = (chunks.take j).take i by rw [List.take_take, Nat.min_eq_left h]]
    exact List.take_sublist _ _
  exact hsub.flatten.length_le

theorem offset_le (chunks : List (List α)) (i : Nat) :
    offset chunks i ≤ chunks.flatten.length :=
  (List.take_sublist i chunks).flatten.length_le

/-- **A CHUNK IS BETWEEN ITS OFFSETS.** -/
theorem drop_take_flatten {chunks : List (List α)} {i : Nat} {c : List α}
    (h : chunks[i]? = some c) :
    (chunks.flatten.drop (offset chunks i)).take c.length = c := by
  induction chunks generalizing i with
  | nil => cases h
  | cons hd tl ih =>
      cases i with
      | zero =>
          obtain rfl : hd = c := by simpa using h
          simp
      | succ i =>
          rw [List.flatten_cons, offset_cons_succ, List.drop_append, List.drop_of_length_le (by omega),
            List.nil_append, Nat.add_sub_cancel_left]
          exact ih h

end ProgLib
