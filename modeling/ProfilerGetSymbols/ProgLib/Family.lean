import Mathlib

/-! # Families of objects — operations on handles, and simulations between families

    A program holds a family of objects and works on them one at a time.  An
    operation is made on one of them, may look at another one, answers, changes the
    one it is made on, and may bring a new object into the family.

    Where each operation relates what it makes of two related objects, any sequence
    of operations relates the two families. -/

namespace ProgLib

/-- What an operation makes of an object and another one: the answer, the object
    afterwards and a new object, if any. -/
abbrev Perform (Op A R : Type) := Op → R → R → A × R × Option R

/-- An operation on the object with the handle `self`, given the one with `other`. -/
structure Action (Op : Type) where
  op : Op
  self : Nat
  other : Nat

namespace Perform

variable {Op A R S : Type}

/-- One action; none of the handles may be out of use. -/
def step (perform : Perform Op A R) (a : Action Op) (rs : List R) : Option A × List R :=
  match rs[a.self]?, rs[a.other]? with
  | some self, some other =>
      (some (perform a.op self other).1,
        rs.set a.self (perform a.op self other).2.1 ++ (perform a.op self other).2.2.toList)
  | _, _ => (none, rs)

/-- The family after a sequence of actions. -/
def run (perform : Perform Op A R) (rs : List R) (actions : List (Action Op)) : List R :=
  actions.foldl (fun rs a => (perform.step a rs).2) rs

/-- **UNCHANGED**: an operation that leaves its object as it is, and makes no new one,
    leaves the family as it is. -/
theorem step_unchanged {perform : Perform Op A R} (failed : A → Prop)
    (h : ∀ op self other, failed (perform op self other).1 →
      (perform op self other).2 = (self, none))
    {a : Action Op} {rs : List R} {answer : A} (hanswer : (perform.step a rs).1 = some answer)
    (hfailed : failed answer) : (perform.step a rs).2 = rs := by
  unfold step at hanswer ⊢
  cases hself : rs[a.self]? with
  | none => rfl
  | some self =>
      cases hother : rs[a.other]? with
      | none => rfl
      | some other =>
          simp only [hself, hother] at hanswer ⊢
          rw [← Option.some.inj hanswer] at hfailed
          rw [h a.op self other hfailed]
          obtain ⟨hlt, hget⟩ := List.getElem?_eq_some_iff.mp hself
          rw [← hget, List.set_getElem_self, Option.toList_none, List.append_nil]

section Simulation

variable {rel : R → S → Prop} {admitted : Op → Prop} {perform : Perform Op A R}
  {perform' : Perform Op A S}

theorem forall₂_set {rs : List R} {ss : List S} (h : List.Forall₂ rel rs ss) (i : Nat) {r : R}
    {s : S} (hrel : rel r s) : List.Forall₂ rel (rs.set i r) (ss.set i s) := by
  induction h generalizing i with
  | nil => exact .nil
  | cons hhead htail ih =>
      cases i with
      | zero => exact .cons hrel htail
      | succ i => exact .cons hhead (ih i)

/-- The objects under one handle. -/
theorem forall₂_getElem? {rs : List R} {ss : List S} (h : List.Forall₂ rel rs ss) (i : Nat) :
    (rs[i]? = none ∧ ss[i]? = none) ∨ ∃ r s, rs[i]? = some r ∧ ss[i]? = some s ∧ rel r s := by
  induction h generalizing i with
  | nil => exact Or.inl ⟨rfl, rfl⟩
  | cons hhead htail ih =>
      cases i with
      | zero => exact Or.inr ⟨_, _, rfl, rfl, hhead⟩
      | succ i => exact ih i

theorem forall₂_toList {r : Option R} {s : Option S} (h : Option.Rel rel r s) :
    List.Forall₂ rel r.toList s.toList := by
  cases h with
  | some hrel => exact .cons hrel .nil
  | none => exact .nil

/-- An action in two related families: on handles out of use, or on related objects. -/
theorem step_related {rs : List R} {ss : List S} (hrel : List.Forall₂ rel rs ss)
    (a : Action Op) :
    (perform.step a rs = (none, rs) ∧ perform'.step a ss = (none, ss)) ∨
    ∃ r r' s s', ss[a.self]? = some s ∧ ss[a.other]? = some s' ∧ rel r s ∧ rel r' s' ∧
      perform.step a rs = (some (perform a.op r r').1,
        rs.set a.self (perform a.op r r').2.1 ++ (perform a.op r r').2.2.toList) ∧
      perform'.step a ss = (some (perform' a.op s s').1,
        ss.set a.self (perform' a.op s s').2.1 ++ (perform' a.op s s').2.2.toList) := by
  unfold step
  rcases forall₂_getElem? hrel a.self with ⟨hr, hs⟩ | ⟨r, s, hr, hs, hrs⟩
  · rw [hr, hs]
    exact Or.inl ⟨rfl, rfl⟩
  · rcases forall₂_getElem? hrel a.other with ⟨hr', hs'⟩ | ⟨r', s', hr', hs', hrs'⟩
    · rw [hr, hs, hr', hs']
      exact Or.inl ⟨rfl, rfl⟩
    · rw [hr, hs, hr', hs']
      exact Or.inr ⟨r, r', s, s', rfl, rfl, hrs, hrs', rfl, rfl⟩

/-- What an admitted operation makes of related objects is related. -/
structure Simulates (rel : R → S → Prop) (admitted : Op → Prop) (perform : Perform Op A R)
    (perform' : Perform Op A S) : Prop where
  self : ∀ op r r' s s', admitted op → rel r s → rel r' s' →
    rel (perform op r r').2.1 (perform' op s s').2.1
  new : ∀ op r r' s s', admitted op → rel r s → rel r' s' →
    Option.Rel rel (perform op r r').2.2 (perform' op s s').2.2

theorem Simulates.step (h : Simulates rel admitted perform perform') {rs : List R} {ss : List S}
    (hrel : List.Forall₂ rel rs ss) {a : Action Op} (ha : admitted a.op) :
    List.Forall₂ rel (perform.step a rs).2 (perform'.step a ss).2 := by
  rcases step_related hrel a with ⟨hrs, hss⟩ | ⟨r, r', s, s', -, -, hr, hr', hrs, hss⟩
  · rw [hrs, hss]
    exact hrel
  · rw [hrs, hss]
    exact List.rel_append (forall₂_set hrel a.self (h.self a.op r r' s s' ha hr hr'))
      (forall₂_toList (h.new a.op r r' s s' ha hr hr'))

/-- **SIMULATION**: admitted actions keep two related families related. -/
theorem Simulates.run (h : Simulates rel admitted perform perform') {rs : List R} {ss : List S}
    (hrel : List.Forall₂ rel rs ss) {actions : List (Action Op)}
    (hactions : ∀ a ∈ actions, admitted a.op) :
    List.Forall₂ rel (perform.run rs actions) (perform'.run ss actions) := by
  induction actions generalizing rs ss with
  | nil => exact hrel
  | cons a actions ih =>
      rw [List.forall_mem_cons] at hactions
      exact ih (h.step hrel hactions.1) hactions.2

/-- Operations that answer the same on related objects answer the same in families. -/
theorem step_answer {rs : List R} {ss : List S} (hrel : List.Forall₂ rel rs ss) {a : Action Op}
    (h : ∀ r r' s s', ss[a.self]? = some s → ss[a.other]? = some s' → rel r s → rel r' s' →
      (perform a.op r r').1 = (perform' a.op s s').1) :
    (perform.step a rs).1 = (perform'.step a ss).1 := by
  rcases step_related hrel a with ⟨hrs, hss⟩ | ⟨r, r', s, s', hs, hs', hr, hr', hrs, hss⟩
  · rw [hrs, hss]
  · rw [hrs, hss]
    exact congrArg some (h r r' s s' hs hs' hr hr')

end Simulation

end Perform

end ProgLib
