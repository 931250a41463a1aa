import Mathlib

/-! # Range maps — the value last written over a key

    A range map assigns values to half-open ranges of naturals; a later range
    overwrites what it overlaps of the earlier ones.  `LawfulRangeMap` is that
    contract, read off the two lookups after an insertion.

    `LayeredRangeMap` keeps every insertion as a layer, newest first, and is the
    plainest structure with the contract. -/

namespace ProgLib

/-- The operations of a map from ranges of naturals to values. -/
class RangeMap (M : Type) (V : outParam Type) where
  empty : M
  insert : M → Nat → Nat → V → M
  get : M → Nat → Option V

/-- **THE CONTRACT**: a key of the last range reads its value, any other key
    reads what it read before. -/
class LawfulRangeMap (M : Type) {V : Type} [RangeMap M V] : Prop where
  get_empty : ∀ k, RangeMap.get (RangeMap.empty : M) k = none
  get_insert_inside : ∀ (m : M) (lo hi : Nat) (v : V) (k : Nat),
    lo ≤ k → k < hi → RangeMap.get (RangeMap.insert m lo hi v) k = some v
  get_insert_outside : ∀ (m : M) (lo hi : Nat) (v : V) (k : Nat),
    ¬ (lo ≤ k ∧ k < hi) → RangeMap.get (RangeMap.insert m lo hi v) k = RangeMap.get m k

/-- A value read after an insertion is the new one, inside its range, or an old one. -/
theorem RangeMap.get_insert_cases {M V : Type} [RangeMap M V] [LawfulRangeMap M]
    {m : M} {lo hi : Nat} {v w : V} {k : Nat}
    (h : RangeMap.get (RangeMap.insert m lo hi v) k = some w) :
    (w = v ∧ lo ≤ k ∧ k < hi) ∨ RangeMap.get m k = some w := by
  by_cases hk : lo ≤ k ∧ k < hi
  · rw [LawfulRangeMap.get_insert_inside m lo hi v k hk.1 hk.2, Option.some.injEq] at h
    exact Or.inl ⟨h.symm, hk⟩
  · rw [LawfulRangeMap.get_insert_outside m lo hi v k hk] at h
    exact Or.inr h

/-- A range map as its history: the inserted ranges, newest first. -/
structure LayeredRangeMap (V : Type) where
  layers : List (Nat × Nat × V)
  deriving DecidableEq

/-- The first layer over the key. -/
def LayeredRangeMap.read {V : Type} (k : Nat) : List (Nat × Nat × V) → Option V
  | [] => none
  | (lo, hi, v) :: rest =>
      if lo ≤ k ∧ k < hi then some v else LayeredRangeMap.read k rest

instance (V : Type) : RangeMap (LayeredRangeMap V) V where
  empty := ⟨[]⟩
  insert m lo hi v := ⟨(lo, hi, v) :: m.layers⟩
  get m k := LayeredRangeMap.read k m.layers

instance (V : Type) : LawfulRangeMap (LayeredRangeMap V) where
  get_empty := fun _ => rfl
  get_insert_inside := fun _ _ _ _ _ h1 h2 => if_pos ⟨h1, h2⟩
  get_insert_outside := fun _ _ _ _ _ h => if_neg h

end ProgLib
