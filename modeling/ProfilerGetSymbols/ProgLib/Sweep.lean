import Mathlib

/-! # Sweeps — a single pass over ranges and points

    A pass over two sorted lists gives points to ranges: the current range is
    left when a point is past it; until then each point is a hit of the range or
    is below it, and then no range has it.

    Whatever the lists, every point ends up in one place.  When points and
    ranges ascend, a point goes to the first range that it hits. -/

namespace ProgLib

open List

variable {ι α : Type}

/-- What a pass has assigned: points by range, where there are any, and the others. -/
structure Swept (ι α : Type) where
  assigned : List (ι × List α)
  rest : List α

variable (past hit : ι → α → Prop) [DecidableRel past] [DecidableRel hit]

/-- The pass. -/
def sweep : List ι → List α → Swept ι α
  | [], points => ⟨[], points⟩
  | i :: ranges, points =>
      let taken := points.takeWhile (fun a => ¬ past i a)
      let hits := taken.filter (fun a => hit i a)
      let next := sweep ranges (points.dropWhile (fun a => ¬ past i a))
      { assigned := if hits.isEmpty then next.assigned else (i, hits) :: next.assigned
        rest := taken.filter (fun a => ¬ hit i a) ++ next.rest }

/-- The cases of an assignment after the pass over one more range. -/
theorem mem_assigned_cons {i : ι} {ranges : List ι} {points : List α} {e : ι × List α} :
    e ∈ (sweep past hit (i :: ranges) points).assigned ↔
      (e.2 ≠ [] ∧ e = (i, (points.takeWhile (fun a => ¬ past i a)).filter (fun a => hit i a))) ∨
        e ∈ (sweep past hit ranges (points.dropWhile (fun a => ¬ past i a))).assigned := by
  simp only [sweep]
  split
  · next hempty =>
    rw [List.isEmpty_iff] at hempty
    constructor
    · exact Or.inr
    · rintro (⟨hne, rfl⟩ | hmem)
      · exact absurd hempty hne
      · exact hmem
  · next hne =>
    rw [List.isEmpty_iff] at hne
    rw [List.mem_cons]
    refine or_congr_left ⟨?_, And.right⟩
    rintro rfl
    exact ⟨hne, rfl⟩

/-- The ranges with points keep their order. -/
theorem sweep_ranges_sublist (ranges : List ι) (points : List α) :
    ((sweep past hit ranges points).assigned.map Prod.fst).Sublist ranges := by
  induction ranges generalizing points with
  | nil => exact List.Sublist.refl _
  | cons i ranges ih =>
      have hrest := ih (points.dropWhile (fun a => ¬ past i a))
      simp only [sweep]
      split
      · exact hrest.cons _
      · exact hrest.cons_cons _

/-- The points that a range gets are hits of it, and there is one. -/
theorem sweep_hit {ranges : List ι} {points : List α} {e : ι × List α}
    (he : e ∈ (sweep past hit ranges points).assigned) :
    e.1 ∈ ranges ∧ e.2 ≠ [] ∧ ∀ a ∈ e.2, hit e.1 a := by
  induction ranges generalizing points with
  | nil => cases he
  | cons i ranges ih =>
      rcases (mem_assigned_cons past hit).mp he with ⟨hne, rfl⟩ | hmem
      · refine ⟨List.mem_cons_self .., hne, ?_⟩
        intro a ha
        exact of_decide_eq_true (List.mem_filter.mp ha).2
      · obtain ⟨hi, hne, hhit⟩ := ih hmem
        exact ⟨List.mem_cons_of_mem _ hi, hne, hhit⟩

/-- **EVERY POINT ENDS UP IN ONE PLACE**, whatever the order of the lists. -/
theorem sweep_perm (ranges : List ι) (points : List α) :
    points ~ (sweep past hit ranges points).rest
      ++ (sweep past hit ranges points).assigned.flatMap (·.2) := by
  induction ranges generalizing points with
  | nil => simp [sweep]
  | cons i ranges ih =>
      have hassigned : (sweep past hit (i :: ranges) points).assigned.flatMap (·.2)
          = (points.takeWhile (fun a => ¬ past i a)).filter (fun a => hit i a)
            ++ (sweep past hit ranges (points.dropWhile (fun a => ¬ past i a))).assigned.flatMap
              (·.2) := by
        simp only [sweep]
        split
        · next hempty => rw [List.isEmpty_iff.mp hempty, List.nil_append]
        · rw [List.flatMap_cons]
      rw [hassigned]
      simp only [sweep]
      set taken := points.takeWhile (fun a => ¬ past i a)
      set left := points.dropWhile (fun a => ¬ past i a)
      -- the points up to the end of a range are its hits and the rest
      have htaken : taken ~ taken.filter (fun a => ¬ hit i a) ++ taken.filter (fun a => hit i a) := by
        refine (List.filter_append_perm (fun a => decide (hit i a)) taken).symm.trans ?_
        simpa using List.perm_append_comm
      calc points = taken ++ left := (List.takeWhile_append_dropWhile).symm
        _ ~ (taken.filter (fun a => ¬ hit i a) ++ taken.filter (fun a => hit i a))
            ++ ((sweep past hit ranges left).rest
              ++ (sweep past hit ranges left).assigned.flatMap (·.2)) := htaken.append (ih left)
        _ ~ _ := by
            simp only [List.append_assoc]
            refine List.Perm.append_left _ ?_
            rw [← List.append_assoc, ← List.append_assoc]
            exact List.perm_append_comm.append_right _

/-- The points of no range keep their order. -/
theorem sweep_rest_sublist (ranges : List ι) (points : List α) :
    (sweep past hit ranges points).rest.Sublist points := by
  induction ranges generalizing points with
  | nil => exact List.Sublist.refl _
  | cons i ranges ih =>
      have hsub := List.filter_sublist (p := fun a => decide (¬ hit i a))
        (l := points.takeWhile (fun a => ¬ past i a))
      have happend := hsub.append (ih (points.dropWhile (fun a => ¬ past i a)))
      rwa [List.takeWhile_append_dropWhile] at happend

/-- What a sorted pass may use: points and ranges ascend together. -/
structure Ascending (ranges : List ι) (points : List α) : Prop where
  past_mono : points.Pairwise (fun a b => ∀ i ∈ ranges, past i a → past i b)
  not_hit_of_past : ∀ i ∈ ranges, ∀ a, past i a → ¬ hit i a
  not_hit_of_below : ranges.Pairwise (fun i j => ∀ a, ¬ past i a → ¬ hit i a → ¬ hit j a)

/-- What a pass needs of its lists: no point comes after one that is past the
    first range that it hits. -/
structure InTime (ranges : List ι) (points : List α) : Prop where
  not_past : points.Pairwise (fun a b =>
    ∀ i, ranges.find? (fun i => hit i b) = some i → ¬ past i a)
  not_hit_of_past : ∀ i ∈ ranges, ∀ a, past i a → ¬ hit i a
  not_hit_of_below : ranges.Pairwise (fun i j => ∀ a, ¬ past i a → ¬ hit i a → ¬ hit j a)

variable {past hit}

omit [DecidableRel past] in
/-- Sorted points are in time. -/
theorem Ascending.inTime {ranges : List ι} {points : List α} (h : Ascending past hit ranges points) :
    InTime past hit ranges points where
  not_past := by
    refine h.past_mono.imp ?_
    intro a b hab i hfirst hpast
    have hi := List.mem_of_find?_eq_some hfirst
    have hhit : hit i b := by simpa using List.find?_some hfirst
    exact h.not_hit_of_past i hi b (hab i hi hpast) hhit
  not_hit_of_past := h.not_hit_of_past
  not_hit_of_below := h.not_hit_of_below

/-- The first element that is left fails the test. -/
theorem not_of_dropWhile_eq_cons {q : α → Bool} {points left : List α} {b : α}
    (h : points.dropWhile q = b :: left) : ¬ q b = true := by
  have := List.head_dropWhile_not q (l := points) (by rw [h]; exact List.cons_ne_nil _ _)
  simpa [h] using this

/-- A range has no hits among the points that the pass leaves for later ones. -/
theorem InTime.not_hit_of_left {i : ι} {ranges : List ι} {points : List α}
    (h : InTime past hit (i :: ranges) points) {a : α}
    (ha : a ∈ points.dropWhile (fun a => ¬ past i a)) : ¬ hit i a := by
  intro hhit
  have hpairs := h.not_past.sublist (List.dropWhile_sublist (fun a => ¬ past i a))
  cases hcons : points.dropWhile (fun a => ¬ past i a) with
  | nil =>
      rw [hcons] at ha
      cases ha
  | cons b left =>
      have hb : past i b := by simpa using not_of_dropWhile_eq_cons hcons
      rw [hcons] at ha hpairs
      rcases List.mem_cons.mp ha with rfl | hmem
      · exact h.not_hit_of_past i (List.mem_cons_self ..) a hb hhit
      · refine (List.pairwise_cons.mp hpairs).1 a hmem i ?_ hb
        exact List.find?_cons_of_pos (by simpa using hhit)

theorem InTime.left {i : ι} {ranges : List ι} {points : List α}
    (h : InTime past hit (i :: ranges) points) :
    InTime past hit ranges (points.dropWhile (fun a => ¬ past i a)) where
  not_past := by
    refine (h.not_past.sublist (List.dropWhile_sublist _)).imp_of_mem ?_
    intro a b _ hb hab j hfirst
    refine hab j ?_
    rw [List.find?_cons_of_neg (by simpa using h.not_hit_of_left hb)]
    exact hfirst
  not_hit_of_past := fun j hj => h.not_hit_of_past j (List.mem_cons_of_mem _ hj)
  not_hit_of_below := (List.pairwise_cons.mp h.not_hit_of_below).2

/-- What an assignment holds is among the points. -/
theorem mem_of_mem_assigned {ranges : List ι} {points : List α} {e : ι × List α}
    (he : e ∈ (sweep past hit ranges points).assigned) {a : α} (ha : a ∈ e.2) : a ∈ points :=
  (sweep_perm past hit ranges points).mem_iff.mpr
    (List.mem_append_right _ (List.mem_flatMap.mpr ⟨e, he, ha⟩))

/-- A point that is taken and not hit is below, and no later range hits it. -/
theorem InTime.not_hit_of_taken {i : ι} {ranges : List ι} {points : List α}
    (h : InTime past hit (i :: ranges) points) {a : α}
    (ha : a ∈ points.takeWhile (fun a => ¬ past i a)) (hmiss : ¬ hit i a) {j : ι}
    (hj : j ∈ ranges) : ¬ hit j a :=
  (List.pairwise_cons.mp h.not_hit_of_below).1 j hj a
    (by simpa using List.mem_takeWhile_imp ha) hmiss

/-- **A POINT GOES TO THE FIRST RANGE THAT IT HITS**, and to none if it hits none. -/
theorem sweep_first {ranges : List ι} {points : List α} (h : InTime past hit ranges points) :
    (∀ e ∈ (sweep past hit ranges points).assigned, ∀ a ∈ e.2,
        ranges.find? (fun i => hit i a) = some e.1) ∧
      ∀ a ∈ (sweep past hit ranges points).rest, ranges.find? (fun i => hit i a) = none := by
  induction ranges generalizing points with
  | nil => exact ⟨(fun e he => by cases he), fun a _ => rfl⟩
  | cons i ranges ih =>
      obtain ⟨hassigned, hrest⟩ := ih h.left
      constructor
      · intro e he a ha
        rcases (mem_assigned_cons past hit).mp he with ⟨-, rfl⟩ | hmem
        · exact List.find?_cons_of_pos (List.mem_filter.mp ha).2
        · -- a later range has only points that this one leaves
          have hmiss := h.not_hit_of_left (mem_of_mem_assigned hmem ha)
          rw [List.find?_cons_of_neg (by simpa using hmiss)]
          exact hassigned e hmem a ha
      · intro a ha
        rcases List.mem_append.mp ha with hbelow | hleft
        · obtain ⟨hmem, hmiss⟩ := List.mem_filter.mp hbelow
          have hnot : ¬ hit i a := by simpa using hmiss
          rw [List.find?_cons_of_neg (by simpa using hnot), List.find?_eq_none]
          intro j hj
          simpa using h.not_hit_of_taken hmem hnot hj
        · have hmiss := h.not_hit_of_left ((sweep_rest_sublist past hit ranges _).subset hleft)
          rw [List.find?_cons_of_neg (by simpa using hmiss)]
          exact hrest a hleft

/-- **NO RANGE TWICE**: such a pass assigns points to pairwise different ranges. -/
theorem sweep_nodup {ranges : List ι} {points : List α} (h : InTime past hit ranges points) :
    ((sweep past hit ranges points).assigned.map Prod.fst).Nodup := by
  induction ranges generalizing points with
  | nil => exact List.Pairwise.nil
  | cons i ranges ih =>
      have htail := ih h.left
      simp only [sweep]
      split
      · exact htail
      · refine List.nodup_cons.mpr ⟨?_, htail⟩
        intro hi
        obtain ⟨e, he, rfl⟩ := List.mem_map.mp hi
        obtain ⟨-, hne, hhit⟩ := sweep_hit past hit he
        obtain ⟨a, ha⟩ := List.exists_mem_of_ne_nil e.2 hne
        exact h.not_hit_of_left (mem_of_mem_assigned he ha) (hhit a ha)

/-! ## The same points in another order -/

/-- A range gets all its hits. -/
theorem InTime.hits_eq {i : ι} {ranges : List ι} {points : List α}
    (h : InTime past hit (i :: ranges) points) :
    (points.takeWhile (fun a => ¬ past i a)).filter (fun a => hit i a)
      = points.filter (fun a => hit i a) := by
  conv_rhs => rw [← List.takeWhile_append_dropWhile (p := fun a => decide (¬ past i a)) (l := points)]
  have hleft : (points.dropWhile (fun a => ¬ past i a)).filter (fun a => hit i a) = [] := by
    rw [List.filter_eq_nil_iff]
    intro a ha
    simpa using h.not_hit_of_left ha
  rw [List.filter_append, hleft, List.append_nil]

/-- What is left for later ranges: the points that they hit and this one does not. -/
theorem InTime.filter_left {i : ι} {ranges : List ι} {points : List α}
    (h : InTime past hit (i :: ranges) points) :
    (points.dropWhile (fun a => ¬ past i a)).filter (fun a => ranges.any (fun j => hit j a))
      = (points.filter (fun a => (i :: ranges).any (fun j => hit j a))).filter
          (fun a => ¬ hit i a) := by
  conv_rhs => rw [← List.takeWhile_append_dropWhile (p := fun a => decide (¬ past i a)) (l := points)]
  have htaken : (points.takeWhile (fun a => ¬ past i a)).filter
      (fun a => decide (¬ hit i a) && (i :: ranges).any (fun j => hit j a)) = [] := by
    rw [List.filter_eq_nil_iff]
    intro a ha hboth
    simp only [List.any_cons, decide_not, Bool.and_eq_true, Bool.not_eq_true', decide_eq_false_iff_not,
      Bool.or_eq_true, decide_eq_true_eq, List.any_eq_true] at hboth
    obtain ⟨hmiss, hhit | ⟨j, hj, hhit⟩⟩ := hboth
    · exact hmiss hhit
    · exact h.not_hit_of_taken ha hmiss hj hhit
  rw [List.filter_filter, List.filter_append, htaken, List.nil_append]
  refine List.filter_congr ?_
  intro a ha
  simp [h.not_hit_of_left ha]

/-- A pass over reordered points assigns what another one does, reordered. -/
theorem assigned_alike {ranges : List ι} {points points' : List α}
    (h : InTime past hit ranges points) (h' : InTime past hit ranges points')
    (hperm : points.filter (fun a => ranges.any (fun i => hit i a))
      ~ points'.filter (fun a => ranges.any (fun i => hit i a))) :
    List.Forall₂ (fun e e' => e.1 = e'.1 ∧ e.2 ~ e'.2) (sweep past hit ranges points).assigned
      (sweep past hit ranges points').assigned := by
  induction ranges generalizing points points' with
  | nil => exact .nil
  | cons i ranges ih =>
      have hnext := ih h.left h'.left (by rw [h.filter_left, h'.filter_left]; exact hperm.filter _)
      have hhits : points.filter (fun a => hit i a) ~ points'.filter (fun a => hit i a) := by
        have hsub := hperm.filter (fun a => hit i a)
        rw [List.filter_filter, List.filter_filter] at hsub
        have hcond : (fun a => decide (hit i a) && (i :: ranges).any (fun j => decide (hit j a)))
            = fun a => decide (hit i a) := by
          funext a
          by_cases ha : hit i a
          · simp [ha]
          · simp [ha]
        rwa [hcond] at hsub
      simp only [sweep, h.hits_eq, h'.hits_eq, hhits.isEmpty_eq]
      split
      · exact hnext
      · exact .cons ⟨rfl, hhits⟩ hnext

theorem flatMap_perm_of_alike {l l' : List (ι × List α)}
    (h : List.Forall₂ (fun e e' => e.1 = e'.1 ∧ e.2 ~ e'.2) l l') :
    l.flatMap (·.2) ~ l'.flatMap (·.2) := by
  induction h with
  | nil => exact .refl _
  | cons he _ ih => exact he.2.append ih

/-- **THE ORDER OF THE POINTS** does not show where they are in time. -/
theorem sweep_alike {ranges : List ι} {points points' : List α}
    (h : InTime past hit ranges points) (h' : InTime past hit ranges points')
    (hperm : points ~ points') :
    List.Forall₂ (fun e e' => e.1 = e'.1 ∧ e.2 ~ e'.2) (sweep past hit ranges points).assigned
        (sweep past hit ranges points').assigned ∧
      (sweep past hit ranges points).rest ~ (sweep past hit ranges points').rest := by
  have hassigned := assigned_alike h h' (hperm.filter _)
  refine ⟨hassigned, ?_⟩
  have hall := (sweep_perm past hit ranges points).symm.trans
    (hperm.trans (sweep_perm past hit ranges points'))
  exact (List.perm_append_right_iff _).mp
    (hall.trans ((flatMap_perm_of_alike hassigned).symm.append_left _))

/-! ## Equal points -/

omit [DecidableRel past] [DecidableRel hit] in
/-- Equal points stand together in a sorted list, so no test separates them. -/
theorem not_mem_dropWhile_of_mem_takeWhile {r : α → α → Prop} {points : List α} {q : α → Bool}
    (hsorted : points.Pairwise r) (hanti : ∀ a ∈ points, ∀ b ∈ points, r a b → r b a → a = b)
    {a : α} (ha : a ∈ points.takeWhile q) : a ∉ points.dropWhile q := by
  intro hleft
  have hqa : q a = true := List.mem_takeWhile_imp ha
  have hmem : a ∈ points := (List.takeWhile_sublist q).subset ha
  rw [← List.takeWhile_append_dropWhile (p := q) (l := points), List.pairwise_append] at hsorted
  obtain ⟨-, hdrop, hcross⟩ := hsorted
  cases hcons : points.dropWhile q with
  | nil =>
      rw [hcons] at hleft
      cases hleft
  | cons b rest =>
      have hqb : ¬ q b = true := not_of_dropWhile_eq_cons hcons
      have hb : b ∈ points := (List.dropWhile_sublist q).subset (hcons ▸ List.mem_cons_self ..)
      have hab : r a b := hcross a ha b (hcons ▸ List.mem_cons_self ..)
      rw [hcons] at hleft hdrop
      rcases List.mem_cons.mp hleft with rfl | hrest
      · exact hqb hqa
      · have hba := (List.pairwise_cons.mp hdrop).1 a hrest
        exact hqb (hanti a hmem b hb hab hba ▸ hqa)

/-- **EQUAL POINTS GO TOGETHER**: to one range, or to none. -/
theorem sweep_together {r : α → α → Prop} {ranges : List ι} {points : List α}
    (hsorted : points.Pairwise r) (hanti : ∀ a ∈ points, ∀ b ∈ points, r a b → r b a → a = b)
    {a : α} {e : ι × List α} (he : e ∈ (sweep past hit ranges points).assigned) (ha : a ∈ e.2) :
    a ∉ (sweep past hit ranges points).rest ∧
      ∀ e' ∈ (sweep past hit ranges points).assigned, a ∈ e'.2 → e'.1 = e.1 := by
  induction ranges generalizing points with
  | nil => cases he
  | cons i ranges ih =>
      set taken := points.takeWhile (fun a => ¬ past i a) with htaken
      set left := points.dropWhile (fun a => ¬ past i a) with hleft
      have hseparate : a ∈ taken → a ∉ left := not_mem_dropWhile_of_mem_takeWhile hsorted hanti
      have hlater : ∀ e' ∈ (sweep past hit ranges left).assigned, a ∈ e'.2 → a ∈ left := by
        intro e' he' ha'
        refine (sweep_perm past hit ranges left).mem_iff.mpr ?_
        exact List.mem_append_right _ (List.mem_flatMap.mpr ⟨e', he', ha'⟩)
      have hrest : a ∈ (sweep past hit (i :: ranges) points).rest →
          (a ∈ taken ∧ ¬ hit i a) ∨ a ∈ (sweep past hit ranges left).rest := by
        intro hmem
        rcases List.mem_append.mp hmem with hbelow | hnext
        · obtain ⟨hin, hmiss⟩ := List.mem_filter.mp hbelow
          exact Or.inl ⟨hin, by simpa using hmiss⟩
        · exact Or.inr hnext
      -- the range at hand has the point, or a later one has it
      rcases (mem_assigned_cons past hit).mp he with ⟨-, rfl⟩ | hmem
      · obtain ⟨hin, hhit⟩ := List.mem_filter.mp ha
        have hout := hseparate hin
        refine ⟨fun h => ?_, fun e' he' ha' => ?_⟩
        · rcases hrest h with ⟨-, hmiss⟩ | hnext
          · exact hmiss (of_decide_eq_true hhit)
          · exact hout ((sweep_rest_sublist past hit ranges left).subset hnext)
        · rcases (mem_assigned_cons past hit).mp he' with ⟨-, rfl⟩ | hmem'
          · rfl
          · exact absurd (hlater e' hmem' ha') hout
      · have hin := hlater e hmem ha
        obtain ⟨hnot, hsame⟩ := ih (hsorted.sublist (List.dropWhile_sublist _))
          (fun b hb c hc => hanti b ((List.dropWhile_sublist _).subset hb) c
            ((List.dropWhile_sublist _).subset hc)) hmem
        refine ⟨fun h => ?_, fun e' he' ha' => ?_⟩
        · rcases hrest h with ⟨htake, -⟩ | hnext
          · exact hseparate htake hin
          · exact hnot hnext
        · rcases (mem_assigned_cons past hit).mp he' with ⟨-, rfl⟩ | hmem'
          · exact absurd hin (hseparate (List.mem_filter.mp ha').1)
          · exact hsame e' hmem' ha'

end ProgLib
