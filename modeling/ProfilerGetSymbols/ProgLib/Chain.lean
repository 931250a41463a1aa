import Mathlib

/-! # Chains — where a partial function leads

    A partial function takes an element to the next one, or nowhere.  Following
    it from one element gives a chain; `Ends` says that it is over after
    finitely many hops, and `hops` counts them.

    There is one chain from an element, so it has one last element at most. -/

namespace ProgLib.Chain

variable {α : Type} (next : α → Option α)

/-- The element that some hops lead to. -/
def after : Nat → α → Option α
  | 0, a => some a
  | n + 1, a => (next a).bind (after n)

/-- The chain is over after finitely many hops. -/
def Ends (a : α) : Prop := ∃ n, after next (n + 1) a = none

open Classical in
/-- The number of hops of a chain that ends. -/
noncomputable def hops (a : α) : Nat := if h : Ends next a then Nat.find h else 0

/-- Some hops lead from `a` to `b`. -/
def Leads (a b : α) : Prop := ∃ n, after next n a = some b

variable {next} {a b : α}

theorem ends_of_next_eq_none (h : next a = none) : Ends next a := by
  refine ⟨0, ?_⟩
  rw [after, h]
  rfl

theorem ends_iff_of_next (h : next a = some b) : Ends next a ↔ Ends next b := by
  constructor
  · rintro ⟨n, hn⟩
    rw [after, h, Option.bind_some] at hn
    cases n with
    | zero => cases hn
    | succ n => exact ⟨n, hn⟩
  · rintro ⟨n, hn⟩
    refine ⟨n + 1, ?_⟩
    rw [after, h]
    exact hn

/-- A chain ends when what comes next does. -/
theorem ends_iff : Ends next a ↔ ∀ b, next a = some b → Ends next b := by
  cases h : next a with
  | none => exact ⟨(fun _ _ hb => by cases hb), fun _ => ends_of_next_eq_none h⟩
  | some b =>
      rw [ends_iff_of_next h]
      exact ⟨fun hb c hc => Option.some.inj hc ▸ hb, fun hall => hall b rfl⟩

/-- **EACH HOP COUNTS**. -/
theorem hops_of_next (h : next a = some b) (hends : Ends next b) :
    hops next a = hops next b + 1 := by
  classical
  have ha : Ends next a := (ends_iff_of_next h).mpr hends
  rw [hops, hops, dif_pos ha, dif_pos hends]
  have hstep : ∀ n, after next (n + 1 + 1) a = none ↔ after next (n + 1) b = none := by
    intro n
    rw [after, h]
    rfl
  have hsucc : ∃ n, after next (n + 1 + 1) a = none := by
    obtain ⟨n, hn⟩ := hends
    exact ⟨n, (hstep n).mpr hn⟩
  have hzero : ¬ after next (0 + 1) a = none := by
    rw [after, h]
    exact fun hnone => by cases hnone
  rw [Nat.find_comp_succ ha hsucc hzero]
  congr 1
  exact Nat.find_congr' (fun {n} => hstep n)

/-- An element that is its own next one has no end ahead. -/
theorem not_ends_of_next_self (h : next a = some a) : ¬ Ends next a := by
  have hafter : ∀ n, after next n a = some a := by
    intro n
    induction n with
    | zero => rfl
    | succ n ih =>
        rw [after, h]
        exact ih
  rintro ⟨n, hn⟩
  rw [hafter] at hn
  cases hn

/-- A chain along which a measure gets smaller is over some time. -/
theorem ends_of_measure {measure : α → Nat}
    (h : ∀ a b, next a = some b → measure b < measure a) (a : α) : Ends next a := by
  induction hn : measure a using Nat.strong_induction_on generalizing a with
  | _ n ih =>
      subst hn
      exact ends_iff.mpr (fun b hb => ih (measure b) (h a b hb) b rfl)

/-! ## The last element -/

theorem Leads.refl (a : α) : Leads next a a := ⟨0, rfl⟩

theorem after_succ (n : Nat) (a : α) : after next (n + 1) a = (after next n a).bind next := by
  induction n generalizing a with
  | zero =>
      show (next a).bind some = next a
      cases next a with
      | none => rfl
      | some b => rfl
  | succ n ih =>
      rw [after, after]
      cases next a with
      | none => rfl
      | some b => exact ih b

theorem Leads.tail {c : α} (h : Leads next a b) (hnext : next b = some c) : Leads next a c := by
  obtain ⟨n, hn⟩ := h
  refine ⟨n + 1, ?_⟩
  rw [after_succ, hn]
  exact hnext

/-- **INVARIANTS**: what every hop keeps, all that is led to has. -/
theorem Leads.invariant {I : α → Prop} (h : Leads next a b) (ha : I a)
    (hnext : ∀ a b, I a → next a = some b → I b) : I b := by
  obtain ⟨n, hn⟩ := h
  induction n generalizing a with
  | zero =>
      rw [← Option.some.inj hn]
      exact ha
  | succ n ih =>
      obtain ⟨c, hc, hn⟩ := Option.bind_eq_some_iff.mp hn
      exact ih (hnext a c ha hc) hn

/-- A chain that ends has a last element. -/
theorem Ends.exists_last (h : Ends next a) : ∃ b, Leads next a b ∧ next b = none := by
  obtain ⟨n, hn⟩ := h
  induction n generalizing a with
  | zero =>
      refine ⟨a, .refl a, ?_⟩
      rw [after_succ] at hn
      exact hn
  | succ n ih =>
      rw [after_succ] at hn
      cases hafter : after next (n + 1) a with
      | none => exact ih hafter
      | some b =>
          rw [hafter] at hn
          exact ⟨b, ⟨n + 1, hafter⟩, hn⟩

theorem after_eq_none_of_le {n m : Nat} (h : after next n a = none) (hle : n ≤ m) :
    after next m a = none := by
  induction hle with
  | refl => exact h
  | step _ ih =>
      rw [after_succ, ih]
      rfl

/-- **ONE LAST ELEMENT**: a chain does not end in two. -/
theorem Leads.last_unique {c : α} (hb : Leads next a b) (hc : Leads next a c)
    (hlastb : next b = none) (hlastc : next c = none) : b = c := by
  obtain ⟨n, hn⟩ := hb
  obtain ⟨m, hm⟩ := hc
  have hover : ∀ {k l : Nat} {x y : α}, after next k a = some x → next x = none →
      after next l a = some y → ¬ k < l := by
    intro k l x y hk hx hl hlt
    have hnone : after next (k + 1) a = none := by
      rw [after_succ, hk]
      exact hx
    rw [after_eq_none_of_le hnone hlt] at hl
    cases hl
  have heq : n = m := Nat.le_antisymm (Nat.le_of_not_lt (hover hm hlastc hn))
    (Nat.le_of_not_lt (hover hn hlastb hm))
  rw [heq, hm, Option.some.injEq] at hn
  exact hn.symm

end ProgLib.Chain
