import Mathlib

/-! # Worklists — draining a list of items in any order

    An item of a worklist is expanded: it puts something out and leaves further
    items, or it fails.  `Drains` says that a list of items and all that they
    lead to can be expanded, and what they put out together, in depth-first
    order.

    The order in which a program takes the items does not matter.  Expanding
    some of them first keeps `Drains` in both directions, with the same output
    up to order; so a run that drains its worklist in some order has put out
    what every other such run puts out. -/

namespace ProgLib.Worklist

open List

variable {α β : Type}

/-- The items `l` and all that they lead to can be expanded and put out `out`. -/
inductive Drains (expand : α → Option (List β × List α)) : List α → List β → Prop
  | nil : Drains expand [] []
  | cons {a : α} {l children : List α} {out outs : List β} :
      expand a = some (out, children) → Drains expand (children ++ l) outs →
        Drains expand (a :: l) (out ++ outs)

/-- Some items expanded at once: what they put out and what they leave. -/
inductive Expands (expand : α → Option (List β × List α)) : List α → List β → List α → Prop
  | nil : Expands expand [] [] []
  | cons {a : α} {l children rest : List α} {out outs : List β} :
      expand a = some (out, children) → Expands expand l outs rest →
        Expands expand (a :: l) (out ++ outs) (children ++ rest)

variable {expand : α → Option (List β × List α)}

/-- Items that put out nothing, expanded at once. -/
theorem expands_of_forall {γ : Type} {l : List γ} {item : γ → α} {f : γ → List α}
    (h : ∀ c ∈ l, expand (item c) = some ([], f c)) :
    Expands expand (l.map item) [] (l.flatMap f) := by
  induction l with
  | nil => exact .nil
  | cons c l ih =>
      rw [List.forall_mem_cons] at h
      exact .cons h.1 (ih h.2)

/-- The items of a drained list put out one thing. -/
theorem Drains.unique {l : List α} {o o' : List β} (h : Drains expand l o)
    (h' : Drains expand l o') : o = o' := by
  induction h generalizing o' with
  | nil =>
      cases h'
      rfl
  | cons hexp _ ih =>
      cases h' with
      | cons hexp' hrest =>
          rw [hexp, Option.some.injEq, Prod.mk.injEq] at hexp'
          obtain ⟨hout, hchildren⟩ := hexp'
          subst hout hchildren
          rw [ih hrest]

theorem Drains.append {l l' : List α} {o o' : List β} (h : Drains expand l o)
    (h' : Drains expand l' o') : Drains expand (l ++ l') (o ++ o') := by
  induction h with
  | nil => exact h'
  | cons hexp _ ih =>
      rw [List.append_assoc] at ih
      rw [List.cons_append, List.append_assoc]
      exact .cons hexp ih

/-- Two parts of a worklist drain independently. -/
theorem Drains.split {l l' : List α} {o : List β} (h : Drains expand (l ++ l') o) :
    ∃ o₁ o₂, Drains expand l o₁ ∧ Drains expand l' o₂ ∧ o = o₁ ++ o₂ := by
  generalize hw : l ++ l' = w at h
  induction h generalizing l with
  | nil =>
      obtain ⟨rfl, rfl⟩ := List.append_eq_nil_iff.mp hw
      exact ⟨[], [], .nil, .nil, rfl⟩
  | @cons a rest children out outs hexp hrest ih =>
      cases l with
      | nil =>
          subst hw
          exact ⟨[], out ++ outs, .nil, .cons hexp hrest, rfl⟩
      | cons b l =>
          obtain ⟨rfl, rfl⟩ := List.cons.inj hw
          obtain ⟨o₁, o₂, h₁, h₂, rfl⟩ := ih (l := children ++ l) (List.append_assoc ..)
          exact ⟨out ++ o₁, o₂, .cons hexp h₁, h₂, (List.append_assoc ..).symm⟩

/-- **ANY ORDER**: a reordered worklist drains to the same output, reordered. -/
theorem Drains.perm {l l' : List α} (hperm : l ~ l') {o : List β} (h : Drains expand l o) :
    ∃ o', Drains expand l' o' ∧ o ~ o' := by
  induction hperm generalizing o with
  | nil => exact ⟨o, h, .refl _⟩
  | @cons a l l' _ ih =>
      obtain ⟨o₁, o₂, h₁, h₂, rfl⟩ := Drains.split (l := [a]) h
      obtain ⟨o₂', h₂', hp⟩ := ih h₂
      exact ⟨o₁ ++ o₂', h₁.append h₂', hp.append_left o₁⟩
  | swap a b l =>
      obtain ⟨o₁, o', h₁, h', rfl⟩ := Drains.split (l := [b]) h
      obtain ⟨o₂, o₃, h₂, h₃, rfl⟩ := Drains.split (l := [a]) h'
      refine ⟨o₂ ++ (o₁ ++ o₃), h₂.append (h₁.append h₃), ?_⟩
      rw [← List.append_assoc, ← List.append_assoc]
      exact List.perm_append_comm.append_right o₃
  | trans _ _ ih₁ ih₂ =>
      obtain ⟨o₁, h₁, hp₁⟩ := ih₁ h
      obtain ⟨o₂, h₂, hp₂⟩ := ih₂ h₁
      exact ⟨o₂, h₂, hp₁.trans hp₂⟩

/-- **ALIKE WORK**: items that expand alike drain to the same output, reordered. -/
theorem Drains.alike {r : α → α → Prop}
    (hexpand : ∀ a b out children, r a b → expand a = some (out, children) →
      ∃ out' children', expand b = some (out', children') ∧ out ~ out' ∧
        List.Forall₂ r children children')
    {l l' : List α} {o : List β} (h : Drains expand l o) (hl : List.Forall₂ r l l') :
    ∃ o', Drains expand l' o' ∧ o ~ o' := by
  induction h generalizing l' with
  | nil =>
      cases hl
      exact ⟨[], .nil, .refl _⟩
  | cons hexp _ ih =>
      cases hl with
      | cons hab hrest =>
          obtain ⟨out', children', hexp', hout, hchildren⟩ := hexpand _ _ _ _ hab hexp
          obtain ⟨o', hdrains, hperm⟩ := ih (List.rel_append hchildren hrest)
          exact ⟨out' ++ o', .cons hexp' hdrains, hout.append hperm⟩

/-- Every item of a drained worklist can be expanded. -/
theorem Drains.expand_ne_none {l : List α} {o : List β} (h : Drains expand l o) {a : α}
    (ha : a ∈ l) : expand a ≠ none := by
  obtain ⟨pre, post, rfl⟩ := List.append_of_mem ha
  obtain ⟨_, _, _, h', _⟩ := Drains.split h
  cases h' with
  | cons hexp _ =>
      rw [hexp]
      exact Option.some_ne_none _

/-- What the items keep as they are expanded, their output shows. -/
theorem Drains.forall {I : α → Prop} {P : β → Prop} {l : List α} {o : List β}
    (hexpand : ∀ a out children, I a → expand a = some (out, children) →
      (∀ b ∈ out, P b) ∧ ∀ c ∈ children, I c)
    (h : Drains expand l o) (hl : ∀ a ∈ l, I a) : ∀ b ∈ o, P b := by
  induction h with
  | nil => exact fun b hb => by cases hb
  | @cons a l children out outs hexp _ ih =>
      rw [List.forall_mem_cons] at hl
      obtain ⟨hout, hchildren⟩ := hexpand a out children hl.1 hexp
      intro b hb
      rcases List.mem_append.mp hb with hb | hb
      · exact hout b hb
      · refine ih (fun c hc => ?_) b hb
        rcases List.mem_append.mp hc with hc | hc
        · exact hchildren c hc
        · exact hl.2 c hc

/-- Expanded items make way for what they leave. -/
theorem Drains.of_expands {l children rest : List α} {out o : List β}
    (hexp : Expands expand l out children) (h : Drains expand (children ++ rest) o) :
    ∃ o', Drains expand (l ++ rest) o' ∧ o' ~ out ++ o := by
  induction hexp generalizing o with
  | nil => exact ⟨o, h, .refl _⟩
  | @cons a l children children' out outs hexp _ ih =>
      rw [List.append_assoc] at h
      obtain ⟨o₁, o₂, h₁, h₂, rfl⟩ := Drains.split h
      obtain ⟨o', h', hp⟩ := ih h₂
      refine ⟨out ++ (o₁ ++ o'), .cons hexp (h₁.append h'), ?_⟩
      calc out ++ (o₁ ++ o') ~ out ++ (o' ++ o₁) :=
            (List.perm_append_comm).append_left out
        _ ~ out ++ ((outs ++ o₂) ++ o₁) := (hp.append_right o₁).append_left out
        _ = out ++ outs ++ (o₂ ++ o₁) := by simp only [List.append_assoc]
        _ ~ out ++ outs ++ (o₁ ++ o₂) := (List.perm_append_comm).append_left _

/-- What is left of a drained worklist drains. -/
theorem Drains.expands {l children rest : List α} {out o : List β}
    (hexp : Expands expand l out children) (h : Drains expand (l ++ rest) o) :
    ∃ o', Drains expand (children ++ rest) o' ∧ o ~ out ++ o' := by
  induction hexp generalizing o with
  | nil => exact ⟨o, h, .refl _⟩
  | @cons a l children children' out outs hexp _ ih =>
      cases h with
      | @cons _ _ _ out' o₁ hexp' hrest =>
          rw [hexp, Option.some.injEq, Prod.mk.injEq] at hexp'
          obtain ⟨hout, hchildren⟩ := hexp'
          subst hout hchildren
          obtain ⟨o₁, o₂, h₁, h₂, rfl⟩ := Drains.split hrest
          obtain ⟨o', h', hp⟩ := ih h₂
          refine ⟨o₁ ++ o', ?_, ?_⟩
          · rw [List.append_assoc]
            exact h₁.append h'
          · calc out ++ (o₁ ++ o₂) ~ out ++ (o₂ ++ o₁) :=
                  (List.perm_append_comm).append_left out
              _ ~ out ++ ((outs ++ o') ++ o₁) := (hp.append_right o₁).append_left out
              _ = out ++ outs ++ (o' ++ o₁) := by simp only [List.append_assoc]
              _ ~ out ++ outs ++ (o₁ ++ o') := (List.perm_append_comm).append_left _

/-! ## How much work is left -/

/-- A part of a drained worklist drains, and puts out a part. -/
theorem Drains.subperm {l l' : List α} (hsub : l' <+~ l) {o : List β} (h : Drains expand l o) :
    ∃ o', Drains expand l' o' ∧ o'.length ≤ o.length := by
  obtain ⟨kept, hkept, hrest⟩ := hsub
  obtain ⟨lost, hlost⟩ := hrest.exists_perm_append
  obtain ⟨o₁, h₁, hp₁⟩ := h.perm hlost
  obtain ⟨o₂, o₃, h₂, -, rfl⟩ := h₁.split
  obtain ⟨o', h', hp⟩ := h₂.perm hkept
  refine ⟨o', h', ?_⟩
  rw [hp₁.length_eq, ← hp.length_eq, List.length_append]
  exact Nat.le_add_right ..

/-- Items that drain one by one drain together. -/
theorem exists_drains {l : List α} (h : ∀ a ∈ l, ∃ o, Drains expand [a] o) :
    ∃ o, Drains expand l o := by
  induction l with
  | nil => exact ⟨[], .nil⟩
  | cons a l ih =>
      rw [List.forall_mem_cons] at h
      obtain ⟨o, ho⟩ := h.1
      obtain ⟨o', ho'⟩ := ih h.2
      exact ⟨o ++ o', ho.append ho'⟩

/-- Every item puts out a mark in place of its output: a drained list has as many
    marks as it takes expansions. -/
def marked (expand : α → Option (List β × List α)) (a : α) : Option (List Unit × List α) :=
  (expand a).map (fun e => ([()], e.2))

theorem Expands.marked {l children : List α} {out : List β} (h : Expands expand l out children) :
    Expands (marked expand) l (List.replicate l.length ()) children := by
  induction h with
  | nil => exact .nil
  | @cons a l children rest out outs hexp _ ih =>
      have hmarked : Worklist.marked expand a = some ([()], children) := by
        rw [Worklist.marked, hexp]
        rfl
      exact .cons hmarked ih

end ProgLib.Worklist
