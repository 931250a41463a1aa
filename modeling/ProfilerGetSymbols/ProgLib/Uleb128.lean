import Mathlib

/-! # ULEB128 — natural numbers in bytes of seven bits

    A number is written in groups of seven bits, the lowest first, one to a byte;
    every byte but the last has its high bit set.  A number has many encodings, as
    groups of zero bits may be added above it. -/

namespace ProgLib

/-- The bytes are an encoding of the number. -/
inductive Uleb128 : List UInt8 → Nat → Prop
  | last {b : UInt8} (h : b.toNat < 128) : Uleb128 [b] b.toNat
  | more {b : UInt8} {bytes : List UInt8} {v : Nat} (h : 128 ≤ b.toNat) (rest : Uleb128 bytes v) :
      Uleb128 (b :: bytes) (b.toNat - 128 + 128 * v)

namespace Uleb128

theorem ne_nil {bytes : List UInt8} {v : Nat} (h : Uleb128 bytes v) : bytes ≠ [] := by
  cases h with
  | last h => exact List.cons_ne_nil _ _
  | more h rest => exact List.cons_ne_nil _ _

/-! ## Groups of bits -/

/-- The seven low bits of a byte. -/
theorem toNat_and_low {b : UInt8} : (b &&& 0x7f).toNat = b.toNat % 128 := by
  rw [UInt8.toNat_and]
  exact Nat.and_two_pow_sub_one_eq_mod b.toNat 7

/-- The high bit of a byte. -/
theorem toNat_and_high {b : UInt8} : (b &&& 0x80).toNat = if b.toNat < 128 then 0 else 128 := by
  have hbit : (b &&& 0x80).toNat = (b.toNat.testBit 7).toNat * 2 ^ 7 := by
    rw [UInt8.toNat_and]
    exact Nat.and_two_pow b.toNat 7
  have hlt := b.toNat_lt
  rw [hbit, Nat.testBit_eq_decide_div_mod_eq]
  by_cases h : b.toNat < 128
  · rw [if_pos h, Nat.div_eq_of_lt h]
    rfl
  · have hdiv : b.toNat / 2 ^ 7 = 1 := by omega
    rw [if_neg h, hdiv]
    rfl

/-- A byte without it is the last one. -/
theorem and_high_eq_zero_iff {b : UInt8} : b &&& 0x80 = 0 ↔ b.toNat < 128 := by
  rw [← UInt8.toNat_inj, toNat_and_high]
  by_cases h : b.toNat < 128
  · rw [if_pos h]
    exact ⟨fun _ => h, fun _ => rfl⟩
  · rw [if_neg h]
    exact ⟨fun h' => absurd h' (by decide), fun h' => absurd h' h⟩

/-- A group of bits on top of lower ones. -/
theorem or_shiftLeft {low n : Nat} (group : Nat) (hlow : low < 2 ^ n) :
    low ||| group <<< n = low + group * 2 ^ n := by
  rw [Nat.or_comm, ← Nat.shiftLeft_add_eq_or_of_lt hlow group, Nat.shiftLeft_eq, Nat.add_comm]

/-! ## Sums of groups -/

/-- The number that the low bits of the bytes make up. -/
def ofGroups (bytes : List UInt8) : Nat :=
  ∑ i : Fin bytes.length, (bytes.get i).toNat % 128 * 2 ^ (7 * i.val)

@[simp] theorem ofGroups_nil : ofGroups [] = 0 := rfl

theorem ofGroups_cons {b : UInt8} {bytes : List UInt8} :
    ofGroups (b :: bytes) = b.toNat % 128 + 128 * ofGroups bytes := by
  have hshift : ∀ i : Fin bytes.length,
      (bytes.get i).toNat % 128 * 2 ^ (7 * (i.val + 1))
        = 128 * ((bytes.get i).toNat % 128 * 2 ^ (7 * i.val)) := by
    intro i
    rw [Nat.mul_add, Nat.pow_add]
    ring
  calc ofGroups (b :: bytes)
      = b.toNat % 128 * 2 ^ (7 * 0)
          + ∑ i : Fin bytes.length, (bytes.get i).toNat % 128 * 2 ^ (7 * (i.val + 1)) :=
        Fin.sum_univ_succ _
    _ = b.toNat % 128 + 128 * ofGroups bytes := by
        rw [Finset.sum_congr rfl (fun i _ => hshift i), ← Finset.mul_sum, Nat.mul_zero, Nat.pow_zero,
          Nat.mul_one]
        rfl

/-- The bytes have the high bit set, all but the last, which has not. -/
def Terminated (bytes : List UInt8) : Prop :=
  ∃ init last, bytes = init ++ [last] ∧ (∀ b ∈ init, b &&& 0x80 ≠ 0) ∧ last &&& 0x80 = 0

theorem Terminated.cons {b : UInt8} {bytes : List UInt8} (hb : b &&& 0x80 ≠ 0)
    (h : Terminated bytes) : Terminated (b :: bytes) := by
  obtain ⟨init, last, rfl, hinit, hlast⟩ := h
  exact ⟨b :: init, last, rfl, List.forall_mem_cons.mpr ⟨hb, hinit⟩, hlast⟩

/-- An encoding that is terminated is one of the sum of its groups. -/
theorem of_terminated {bytes : List UInt8} (h : Terminated bytes) :
    Uleb128 bytes (ofGroups bytes) := by
  obtain ⟨init, last, rfl, hinit, hlast⟩ := h
  induction init with
  | nil =>
      have hlt : last.toNat < 128 := and_high_eq_zero_iff.mp hlast
      have hsum : ofGroups ([] ++ [last]) = last.toNat := by
        rw [List.nil_append, ofGroups_cons, ofGroups_nil, Nat.mul_zero, Nat.add_zero]
        exact Nat.mod_eq_of_lt hlt
      rw [hsum]
      exact .last hlt
  | cons b init ih =>
      rw [List.forall_mem_cons] at hinit
      have hge : 128 ≤ b.toNat := Nat.le_of_not_lt (fun h => hinit.1 (and_high_eq_zero_iff.mpr h))
      have hlt := b.toNat_lt
      have hmod : b.toNat % 128 = b.toNat - 128 := by omega
      rw [List.cons_append, ofGroups_cons, hmod]
      exact .more hge (ih hinit.2)

/-- **ENCODINGS** are the terminated bytes, each of the sum of its groups. -/
theorem iff_terminated {bytes : List UInt8} {v : Nat} :
    Uleb128 bytes v ↔ Terminated bytes ∧ v = ofGroups bytes := by
  constructor
  · intro h
    induction h with
    | @last b h =>
        refine ⟨⟨[], b, rfl, fun _ hb => (List.not_mem_nil hb).elim, and_high_eq_zero_iff.mpr h⟩, ?_⟩
        rw [ofGroups_cons, ofGroups_nil, Nat.mul_zero, Nat.add_zero, Nat.mod_eq_of_lt h]
    | @more b bytes v h rest ih =>
        obtain ⟨hterminated, rfl⟩ := ih
        have hlt := b.toNat_lt
        have hmod : b.toNat % 128 = b.toNat - 128 := by omega
        have hhigh : b &&& 0x80 ≠ 0 := fun h' => absurd (and_high_eq_zero_iff.mp h') (by omega)
        refine ⟨hterminated.cons hhigh, ?_⟩
        rw [ofGroups_cons, hmod]
  · rintro ⟨hterminated, rfl⟩
    exact of_terminated hterminated

end Uleb128

end ProgLib
