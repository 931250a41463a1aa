import Mathlib

/-! # Stable sort and deduplication by a key — the first of each key wins

    A table is often built in one of two ways: list the candidates, sort them
    stably by key, and keep the first of every run of equal keys.  The outcome
    is a strictly ascending list with one candidate for every key, and that
    candidate is the first of its key in the *unsorted* list.

    `firstByKey` is the composition, and `find?_firstByKey` the statement. -/

namespace ProgLib

open List

variable {κ α : Type} [LinearOrder κ] (key : α → κ)

local instance keyLE_total : Std.Total (fun a b : α => key a ≤ key b) :=
  ⟨fun a b => le_total (key a) (key b)⟩

local instance keyLE_trans : IsTrans α (fun a b : α => key a ≤ key b) :=
  ⟨fun _ _ _ => le_trans⟩

/-- `sort_by_key`: a stable sort. -/
def sortByKey (l : List α) : List α :=
  l.insertionSort (fun a b => key a ≤ key b)

theorem sortByKey_perm (l : List α) : (sortByKey key l).Perm l :=
  perm_insertionSort _ l

theorem sortByKey_pairwise (l : List α) :
    (sortByKey key l).Pairwise (fun a b => key a ≤ key b) :=
  pairwise_insertionSort _ l

@[simp] theorem mem_sortByKey {l : List α} {a : α} : a ∈ sortByKey key l ↔ a ∈ l :=
  (sortByKey_perm key l).mem_iff

/-- **STABILITY**: the elements under one key keep their order. -/
theorem filter_sortByKey (l : List α) (k : κ) :
    (sortByKey key l).filter (fun a => key a = k) = l.filter (fun a => key a = k) := by
  have hsub : (l.filter (fun a => key a = k)).Sublist (sortByKey key l) := by
    refine sublist_insertionSort ?_ filter_sublist
    refine List.pairwise_of_forall_mem_list ?_
    intro a ha b hb
    have hka : key a = k := by simpa using (List.mem_filter.mp ha).2
    have hkb : key b = k := by simpa using (List.mem_filter.mp hb).2
    exact (hka.trans hkb.symm).le
  have hfix : (l.filter (fun a => key a = k)).Sublist
      ((sortByKey key l).filter (fun a => key a = k)) := by
    have h := hsub.filter (fun a => decide (key a = k))
    rwa [List.filter_filter, show (fun a => decide (key a = k) && decide (key a = k))
      = fun a => decide (key a = k) from funext fun a => Bool.and_self _] at h
  have hlen : ((sortByKey key l).filter (fun a => key a = k)).length
      = (l.filter (fun a => key a = k)).length :=
    ((sortByKey_perm key l).filter _).length_eq
  exact (hfix.eq_of_length hlen.symm).symm

/-- The first element under a key is the same before and after the sort. -/
theorem find?_sortByKey (l : List α) (k : κ) :
    (sortByKey key l).find? (fun a => key a = k) = l.find? (fun a => key a = k) := by
  rw [← List.head?_filter, ← List.head?_filter, filter_sortByKey]

/-- Drop the leading elements under the key of the last one kept. -/
def dedupRun : κ → List α → List α
  | _, [] => []
  | k, a :: l => if key a = k then dedupRun k l else a :: dedupRun (key a) l

/-- `dedup_by_key`: of a run of equal keys only the first element stays. -/
def dedupByKey : List α → List α
  | [] => []
  | a :: l => a :: dedupRun key (key a) l

/-- On a sorted list above `k` the surviving keys ascend strictly from `k` on. -/
theorem dedupRun_pairwise {k : κ} {l : List α} (hk : ∀ a ∈ l, k ≤ key a)
    (h : l.Pairwise (fun a b => key a ≤ key b)) :
    (∀ a ∈ dedupRun key k l, k < key a) ∧
      (dedupRun key k l).Pairwise (fun a b => key a < key b) := by
  induction l generalizing k with
  | nil => exact ⟨(fun a ha => by cases ha), List.Pairwise.nil⟩
  | cons a l ih =>
      obtain ⟨ha, hl⟩ := List.pairwise_cons.mp h
      by_cases heq : key a = k
      · rw [dedupRun, if_pos heq]
        exact ih (fun b hb => hk b (List.mem_cons_of_mem _ hb)) hl
      · rw [dedupRun, if_neg heq]
        obtain ⟨habove, hpw⟩ := ih (k := key a) ha hl
        have hlt : k < key a := lt_of_le_of_ne (hk a (List.mem_cons_self ..)) (Ne.symm heq)
        refine ⟨?_, List.pairwise_cons.mpr ⟨habove, hpw⟩⟩
        intro b hb
        rcases List.mem_cons.mp hb with rfl | hb
        · exact hlt
        · exact hlt.trans (habove b hb)

theorem dedupByKey_pairwise {l : List α} (h : l.Pairwise (fun a b => key a ≤ key b)) :
    (dedupByKey key l).Pairwise (fun a b => key a < key b) := by
  cases l with
  | nil => exact List.Pairwise.nil
  | cons a l =>
      obtain ⟨ha, hl⟩ := List.pairwise_cons.mp h
      obtain ⟨habove, hpw⟩ := dedupRun_pairwise key ha hl
      exact List.pairwise_cons.mpr ⟨habove, hpw⟩

/-- Of every key other than the last one kept, the first element survives. -/
theorem find?_dedupRun (l : List α) {k k' : κ} (hne : k ≠ k')
    (hk : ∀ a ∈ l, k ≤ key a) (h : l.Pairwise (fun a b => key a ≤ key b)) :
    (dedupRun key k l).find? (fun a => key a = k') = l.find? (fun a => key a = k') := by
  induction l generalizing k with
  | nil => rfl
  | cons a l ih =>
      obtain ⟨ha, hl⟩ := List.pairwise_cons.mp h
      by_cases heq : key a = k
      · have hne' : ¬ key a = k' := fun h' => hne (heq.symm.trans h')
        rw [dedupRun, if_pos heq, List.find?_cons_of_neg (by simpa using hne')]
        exact ih hne (fun b hb => hk b (List.mem_cons_of_mem _ hb)) hl
      · rw [dedupRun, if_neg heq]
        by_cases hk' : key a = k'
        · rw [List.find?_cons_of_pos (by simpa using hk'),
            List.find?_cons_of_pos (by simpa using hk')]
        · rw [List.find?_cons_of_neg (by simpa using hk'),
            List.find?_cons_of_neg (by simpa using hk')]
          exact ih hk' ha hl

theorem find?_dedupByKey {l : List α} (k : κ) (h : l.Pairwise (fun a b => key a ≤ key b)) :
    (dedupByKey key l).find? (fun a => key a = k) = l.find? (fun a => key a = k) := by
  cases l with
  | nil => rfl
  | cons a l =>
      obtain ⟨ha, hl⟩ := List.pairwise_cons.mp h
      by_cases hk : key a = k
      · rw [dedupByKey, List.find?_cons_of_pos (by simpa using hk),
          List.find?_cons_of_pos (by simpa using hk)]
      · rw [dedupByKey, List.find?_cons_of_neg (by simpa using hk),
          List.find?_cons_of_neg (by simpa using hk)]
        exact find?_dedupRun key l hk ha hl

/-- A strictly ascending list is determined by its members. -/
theorem eq_of_pairwise_of_mem_iff {l l' : List α} (h : l.Pairwise (fun a b => key a < key b))
    (h' : l'.Pairwise (fun a b => key a < key b)) (hmem : ∀ a, a ∈ l ↔ a ∈ l') : l = l' := by
  have hnodup : ∀ {l : List α}, l.Pairwise (fun a b => key a < key b) → l.Nodup :=
    fun hl => hl.imp (fun hlt heq => absurd hlt (by rw [heq]; exact lt_irrefl _))
  have hperm : l.Perm l' := (List.perm_ext_iff_of_nodup (hnodup h) (hnodup h')).mpr hmem
  exact hperm.eq_of_pairwise (fun a b _ _ hab hba => absurd (hab.trans hba) (lt_irrefl _)) h h'

/-! ## The composition -/

/-- Stable sort, then deduplication. -/
def firstByKey (l : List α) : List α := dedupByKey key (sortByKey key l)

/-- The table ascends strictly. -/
theorem firstByKey_pairwise (l : List α) :
    (firstByKey key l).Pairwise (fun a b => key a < key b) :=
  dedupByKey_pairwise key (sortByKey_pairwise key l)

/-- **THE FIRST OF EACH KEY WINS**: looking a key up in the table finds the
    first element of that key in the original list. -/
theorem find?_firstByKey (l : List α) (k : κ) :
    (firstByKey key l).find? (fun a => key a = k) = l.find? (fun a => key a = k) := by
  rw [firstByKey, find?_dedupByKey key k (sortByKey_pairwise key l), find?_sortByKey]

/-- An element of a strictly ascending list is found under its key. -/
theorem find?_of_pairwise {l : List α} (h : l.Pairwise (fun a b => key a < key b))
    {a : α} (ha : a ∈ l) : l.find? (fun b => key b = key a) = some a := by
  induction l with
  | nil => cases ha
  | cons b l ih =>
      obtain ⟨hb, hl⟩ := List.pairwise_cons.mp h
      rcases List.mem_cons.mp ha with rfl | hmem
      · exact List.find?_cons_of_pos (by simp)
      · rw [List.find?_cons_of_neg (by simpa using (hb a hmem).ne)]
        exact ih hl hmem

/-- Membership in the table: being the first of one's key. -/
theorem mem_firstByKey {l : List α} {a : α} :
    a ∈ firstByKey key l ↔ l.find? (fun b => key b = key a) = some a := by
  rw [← find?_firstByKey]
  constructor
  · exact find?_of_pairwise key (firstByKey_pairwise key l)
  · exact fun h => List.mem_of_find?_eq_some h

/-- No key is lost and none is added. -/
theorem mem_map_firstByKey {l : List α} {k : κ} :
    k ∈ (firstByKey key l).map key ↔ k ∈ l.map key := by
  constructor
  · intro h
    obtain ⟨a, ha, hk⟩ := List.mem_map.mp h
    have ha' : a ∈ l := List.mem_of_find?_eq_some ((mem_firstByKey key).mp ha)
    exact List.mem_map.mpr ⟨a, ha', hk⟩
  · intro h
    obtain ⟨a, ha, hk⟩ := List.mem_map.mp h
    have hsome : (l.find? (fun b => key b = k)).isSome := by
      rw [List.find?_isSome]
      exact ⟨a, ha, by simpa using hk⟩
    obtain ⟨b, hb⟩ := Option.isSome_iff_exists.mp hsome
    have hbk : key b = k := by simpa using List.find?_some hb
    refine List.mem_map.mpr ⟨b, (mem_firstByKey key).mpr ?_, hbk⟩
    rw [hbk]
    exact hb

/-- Sorting and deduplicating values: only what is in the list counts. -/
theorem firstByKey_id_congr {l l' : List κ} (h : ∀ a, a ∈ l ↔ a ∈ l') :
    firstByKey id l = firstByKey id l' := by
  refine eq_of_pairwise_of_mem_iff id (firstByKey_pairwise id l) (firstByKey_pairwise id l') ?_
  intro a
  have hmem : ∀ l : List κ, a ∈ firstByKey id l ↔ a ∈ l := by
    intro l
    have hkey := mem_map_firstByKey id (l := l) (k := a)
    rwa [List.map_id, List.map_id] at hkey
  rw [hmem, hmem, h]

end ProgLib
