import Mathlib

/-! # Bit lists — a list of bits as a finite set of positions

    A list of bits stands for the positions of its ones.  Counting the ones of the
    list, or of a part of it, is counting the set; writing ones over a part of it
    joins an interval to the set. -/

namespace ProgLib.BitList

/-- The positions of the ones. -/
def ones (bits : List Bool) : Finset Nat :=
  (Finset.range bits.length).filter (fun i => bits[i]? = some true)

/-- The bits from one position to another. -/
def part (bits : List Bool) (first last : Nat) : List Bool := (bits.drop first).take (last - first)

/-- Ones from one position to another. -/
def fill (bits : List Bool) (first last : Nat) : List Bool :=
  bits.take first ++ List.replicate (last - first) true ++ bits.drop last

variable {bits : List Bool} {first last i : Nat}

theorem mem_ones : i ∈ ones bits ↔ bits[i]? = some true := by
  rw [ones, Finset.mem_filter, Finset.mem_range]
  constructor
  · exact fun h => h.2
  · exact fun h => ⟨(List.getElem?_eq_some_iff.mp h).1, h⟩

theorem ones_subset_range (bits : List Bool) : ones bits ⊆ Finset.range bits.length :=
  Finset.filter_subset _ _

theorem card_ones_le (bits : List Bool) : (ones bits).card ≤ bits.length := by
  have h := Finset.card_le_card (ones_subset_range bits)
  rwa [Finset.card_range] at h

theorem ones_replicate_false (n : Nat) : ones (List.replicate n false) = ∅ := by
  ext i
  rw [mem_ones, List.getElem?_replicate]
  by_cases h : i < n
  · simp [h]
  · simp [h]

theorem ones_append_singleton (bits : List Bool) (b : Bool) :
    ones (bits ++ [b]) = if b then insert bits.length (ones bits) else ones bits := by
  ext i
  rw [mem_ones, List.getElem?_append]
  rcases Nat.lt_trichotomy i bits.length with hlt | rfl | hgt
  · rw [if_pos hlt]
    cases b with
    | true => simp [mem_ones, Nat.ne_of_lt hlt]
    | false => simp [mem_ones]
  · rw [if_neg (Nat.lt_irrefl _), Nat.sub_self]
    cases b with
    | true => simp
    | false => simp [mem_ones]
  · rw [if_neg (by omega), List.getElem?_eq_none (by simp; omega)]
    have hnot : bits[i]? = none := List.getElem?_eq_none (by omega)
    cases b with
    | true => simp [mem_ones, hnot]; omega
    | false => simp [mem_ones, hnot]

/-- **COUNTING THE BITS** is counting the set. -/
theorem card_ones (bits : List Bool) : (ones bits).card = bits.count true := by
  induction bits using List.reverseRecOn with
  | nil => rfl
  | append_singleton bits b ih =>
      rw [ones_append_singleton, List.count_append]
      cases b with
      | true =>
          have hnot : bits.length ∉ ones bits := by
            rw [mem_ones, List.getElem?_eq_none (Nat.le_refl _)]
            exact fun h => by cases h
          rw [if_pos rfl, Finset.card_insert_of_notMem hnot, ih]
          rfl
      | false =>
          rw [if_neg Bool.false_ne_true, ih]
          rfl

theorem getElem?_part : (part bits first last)[i]?
    = if i < last - first then bits[first + i]? else none := by
  rw [part, List.getElem?_take, List.getElem?_drop]

/-- The first bit of a part says whether its position is in the set. -/
theorem part_head (hlt : first < last)
    (hlast : last ≤ bits.length) :
    (part bits first last)[0]? = some (decide (first ∈ ones bits)) := by
  obtain ⟨bit, hget⟩ : ∃ bit, bits[first]? = some bit :=
    ⟨_, List.getElem?_eq_getElem (Nat.lt_of_lt_of_le hlt hlast)⟩
  rw [getElem?_part, if_pos (by omega), Nat.add_zero, hget]
  congr 1
  cases hbit : bit with
  | true => rw [eq_comm, decide_eq_true_iff, mem_ones, hget, hbit]
  | false =>
      rw [eq_comm, decide_eq_false_iff_not, mem_ones, hget, hbit]
      exact fun h => by cases h

/-- The ones of a part are those of the whole in the interval. -/
theorem count_part (bits : List Bool) (first last : Nat) :
    (part bits first last).count true = (ones bits ∩ Finset.Ico first last).card := by
  rw [← card_ones]
  refine Finset.card_bij (fun i _ => first + i) ?_ ?_ ?_
  · intro i hi
    rw [mem_ones, getElem?_part] at hi
    split at hi
    · next hlt =>
        rw [Finset.mem_inter, mem_ones, Finset.mem_Ico]
        exact ⟨hi, by omega, by omega⟩
    · cases hi
  · intro i _ j _ h
    exact Nat.add_left_cancel h
  · intro k hk
    rw [Finset.mem_inter, mem_ones, Finset.mem_Ico] at hk
    obtain ⟨hone, hlo, hhi⟩ := hk
    refine ⟨k - first, ?_, by omega⟩
    rw [mem_ones, getElem?_part, if_pos (by omega), Nat.add_sub_cancel' hlo]
    exact hone

/-- A part is all ones where the interval is in the set. -/
theorem count_part_eq_iff (bits : List Bool) (first last : Nat) :
    (part bits first last).count true = last - first ↔ Finset.Ico first last ⊆ ones bits := by
  rw [count_part, ← Nat.card_Ico first last]
  constructor
  · intro h
    have heq := Finset.eq_of_subset_of_card_le Finset.inter_subset_right (Nat.le_of_eq h.symm)
    exact Finset.inter_eq_right.mp heq
  · intro h
    rw [Finset.inter_eq_right.mpr h]

section Fill

variable (hfirst : first ≤ last) (hlast : last ≤ bits.length)

include hfirst hlast

theorem length_fill : (fill bits first last).length = bits.length := by
  simp only [fill, List.length_append, List.length_take, List.length_replicate, List.length_drop]
  omega

theorem getElem?_fill : (fill bits first last)[i]?
    = if first ≤ i ∧ i < last then some true else bits[i]? := by
  have hmid : (bits.take first ++ List.replicate (last - first) true).length = last := by
    simp only [List.length_append, List.length_take, List.length_replicate]
    omega
  rw [fill, List.getElem?_append, hmid, List.getElem?_append, List.length_take,
    Nat.min_eq_left (Nat.le_trans hfirst hlast)]
  rcases Nat.lt_or_ge i first with hlo | hlo
  · rw [if_pos (by omega), if_pos hlo, List.getElem?_take, if_pos hlo, if_neg (by omega)]
  · rcases Nat.lt_or_ge i last with hhi | hhi
    · rw [if_pos hhi, if_neg (by omega), if_pos ⟨hlo, hhi⟩, List.getElem?_replicate,
        if_pos (by omega)]
    · rw [if_neg (by omega), if_neg (by omega), List.getElem?_drop, Nat.add_sub_cancel' hhi]

/-- **WRITING ONES** joins the interval to the set. -/
theorem ones_fill : ones (fill bits first last) = ones bits ∪ Finset.Ico first last := by
  ext i
  rw [mem_ones, getElem?_fill hfirst hlast, Finset.mem_union, mem_ones, Finset.mem_Ico]
  split
  · next h => simp [h]
  · next h => simp [h]

end Fill

end ProgLib.BitList
