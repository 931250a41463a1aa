import Mathlib

/-! # Hash maps — finite maps whose iteration order is not specified

    A map is the list of its entries, no two of them under equal keys.  Key
    equality is the boolean `==` of the key type, which may be coarser than
    equality of values: a key that is already there stays as it was first
    written, and only its value is replaced.

    The place of an entry in the list means nothing.  Iteration takes an
    `IterOrder`, some reordering of the entries, and a theorem about a program
    that iterates is a theorem about every such order. -/

namespace ProgLib

open List

/-- A finite map: its entries, with pairwise different keys. -/
structure HashMap (K V : Type) [BEq K] where
  entries : List (K × V)
  distinct : entries.Pairwise (fun a b => (a.1 == b.1) = false)

/-- One iteration order of the maps of a type: some permutation of their entries. -/
structure IterOrder (α : Type) where
  order : List α → List α
  perm : ∀ l, (order l).Perm l

/-- The order in which the entries are listed. -/
def IterOrder.listed (α : Type) : IterOrder α := ⟨id, fun _ => .refl _⟩

/-- The opposite order. -/
def IterOrder.reversed (α : Type) : IterOrder α := ⟨List.reverse, List.reverse_perm⟩

theorem IterOrder.mem_order {α : Type} (o : IterOrder α) {l : List α} {a : α} :
    a ∈ o.order l ↔ a ∈ l := (o.perm l).mem_iff

/-- Any entry may come last. -/
theorem IterOrder.exists_last {α : Type} (a : α) :
    ∃ o : IterOrder α, ∀ l, a ∈ l → ∃ earlier, o.order l = earlier ++ [a] := by
  classical
  have hperm : ∀ l : List α, (if a ∈ l then l.erase a ++ [a] else l).Perm l := by
    intro l
    by_cases h : a ∈ l
    · rw [if_pos h]
      exact List.perm_append_comm.trans (List.perm_cons_erase h).symm
    · rw [if_neg h]
  exact ⟨⟨_, hperm⟩, fun l h => ⟨l.erase a, if_pos h⟩⟩

/-! ## Sub-multisets -/

theorem nodup_of_subperm {α : Type} {l l' : List α} (h : l <+~ l') (hl : l'.Nodup) : l.Nodup := by
  obtain ⟨k, hperm, hsub⟩ := h
  exact hperm.nodup_iff.mp (hl.sublist hsub)

theorem subperm_map {α β : Type} (f : α → β) {l l' : List α} (h : l <+~ l') :
    l.map f <+~ l'.map f := by
  obtain ⟨l₀, hperm, hsub⟩ := h
  exact ⟨l₀.map f, hperm.map f, hsub.map f⟩

theorem subperm_flatMap {α β : Type} (f : α → List β) {l l' : List α} (h : l <+~ l') :
    l.flatMap f <+~ l'.flatMap f := by
  obtain ⟨l₀, hperm, hsub⟩ := h
  exact ⟨l₀.flatMap f, hperm.flatMap_right f, hsub.flatMap f⟩

/-- What a sub-multiset lacks. -/
theorem exists_perm_append_of_subperm {α : Type} {l l' : List α} (h : l <+~ l') :
    ∃ lost, l' ~ l ++ lost := by
  obtain ⟨l₀, hperm, hsub⟩ := h
  obtain ⟨lost, hlost⟩ := hsub.exists_perm_append
  exact ⟨lost, hlost.trans (hperm.append_right lost)⟩

/-- Where every element counts, there are no more elements than what they count for. -/
theorem length_le_length_flatMap {α β : Type} {f : α → List β} {l : List α}
    (hf : ∀ a ∈ l, f a ≠ []) : l.length ≤ (l.flatMap f).length := by
  induction l with
  | nil => exact Nat.le_refl _
  | cons a l ih =>
      rw [List.forall_mem_cons] at hf
      have hpos := List.length_pos_iff.mpr hf.1
      have htail := ih hf.2
      rw [List.flatMap_cons, List.length_append, List.length_cons]
      omega

/-- Where every element counts, equal counts mean that nothing is lacking. -/
theorem perm_of_length_flatMap_le {α β : Type} (f : α → List β) {l l' : List α} (h : l <+~ l')
    (hf : ∀ a ∈ l', f a ≠ []) (hlen : (l'.flatMap f).length ≤ (l.flatMap f).length) :
    l ~ l' := by
  obtain ⟨lost, hlost⟩ := exists_perm_append_of_subperm h
  have hcount := (hlost.flatMap_right f).length_eq
  rw [List.flatMap_append, List.length_append] at hcount
  have hnil : lost.flatMap f = [] := List.eq_nil_of_length_eq_zero (by omega)
  cases lost with
  | nil => simpa using hlost.symm
  | cons a lost =>
      refine absurd (List.flatMap_eq_nil_iff.mp hnil a (List.mem_cons_self ..)) (hf a ?_)
      exact hlost.mem_iff.mpr (List.mem_append_right _ (List.mem_cons_self ..))

namespace HashMap

variable {K V : Type} [BEq K]

/-! ## The operations on entry lists -/

/-- The value under a key. -/
def getEntry (k : K) : List (K × V) → Option V
  | [] => none
  | (k', v) :: m => if k' == k then some v else getEntry k m

/-- Rewrite the value under a key, or add an entry for it at the end. -/
def upsertEntry (k : K) (f : Option V → V) : List (K × V) → List (K × V)
  | [] => [(k, f none)]
  | (k', v) :: m => if k' == k then (k', f (some v)) :: m else (k', v) :: upsertEntry k f m

/-- Drop the entry under a key. -/
def removeEntry (k : K) : List (K × V) → List (K × V)
  | [] => []
  | (k', v) :: m => if k' == k then m else (k', v) :: removeEntry k m

/-- The two things an `upsert` can do: add an entry, or rewrite one in place. -/
theorem upsertEntry_cases (k : K) (f : Option V → V) (m : List (K × V)) :
    (getEntry k m = none ∧ (∀ e ∈ m, (e.1 == k) = false) ∧
      upsertEntry k f m = m ++ [(k, f none)]) ∨
    (∃ pre k' v post, m = pre ++ (k', v) :: post ∧ (k' == k) = true ∧
      getEntry k m = some v ∧ upsertEntry k f m = pre ++ (k', f (some v)) :: post) := by
  induction m with
  | nil => exact Or.inl ⟨rfl, by simp, rfl⟩
  | cons e m ih =>
      obtain ⟨k', v⟩ := e
      by_cases hk : (k' == k) = true
      · refine Or.inr ⟨[], k', v, m, rfl, hk, ?_, ?_⟩
        · simp [getEntry, hk]
        · simp [upsertEntry, hk]
      · have hk' : (k' == k) = false := by simpa using hk
        rcases ih with ⟨hget, hno, hup⟩ | ⟨pre, k₀, v₀, post, hm, hkey, hget, hup⟩
        · refine Or.inl ⟨by simp [getEntry, hk', hget], ?_, by simp [upsertEntry, hk', hup]⟩
          intro e he
          rcases List.mem_cons.mp he with rfl | he
          · exact hk'
          · exact hno e he
        · refine Or.inr ⟨(k', v) :: pre, k₀, v₀, post, by simp [hm], hkey, ?_, ?_⟩
          · simp [getEntry, hk', hget]
          · simp [upsertEntry, hk', hup]

/-- The two things a `remove` can do: nothing, or drop one entry. -/
theorem removeEntry_cases (k : K) (m : List (K × V)) :
    (getEntry k m = none ∧ removeEntry k m = m) ∨
    (∃ pre k' v post, m = pre ++ (k', v) :: post ∧ (k' == k) = true ∧
      getEntry k m = some v ∧ removeEntry k m = pre ++ post) := by
  induction m with
  | nil => exact Or.inl ⟨rfl, rfl⟩
  | cons e m ih =>
      obtain ⟨k', v⟩ := e
      by_cases hk : (k' == k) = true
      · exact Or.inr ⟨[], k', v, m, rfl, hk, by simp [getEntry, hk], by simp [removeEntry, hk]⟩
      · have hk' : (k' == k) = false := by simpa using hk
        rcases ih with ⟨hget, hrm⟩ | ⟨pre, k₀, v₀, post, hm, hkey, hget, hrm⟩
        · exact Or.inl ⟨by simp [getEntry, hk', hget], by simp [removeEntry, hk', hrm]⟩
        · refine Or.inr ⟨(k', v) :: pre, k₀, v₀, post, by simp [hm], hkey, ?_, ?_⟩
          · simp [getEntry, hk', hget]
          · simp [removeEntry, hk', hrm]

theorem removeEntry_sublist (k : K) (m : List (K × V)) : (removeEntry k m).Sublist m := by
  rcases removeEntry_cases k m with ⟨-, hrm⟩ | ⟨pre, k', v, post, hm, -, -, hrm⟩
  · rw [hrm]
  · rw [hrm, hm]
    exact (List.Sublist.refl pre).append (List.sublist_cons_self _ _)

theorem upsertEntry_distinct (k : K) (f : Option V → V) {m : List (K × V)}
    (h : m.Pairwise (fun a b => (a.1 == b.1) = false)) :
    (upsertEntry k f m).Pairwise (fun a b => (a.1 == b.1) = false) := by
  rcases upsertEntry_cases k f m with ⟨-, hno, hup⟩ | ⟨pre, k', v, post, hm, -, -, hup⟩
  · rw [hup, List.pairwise_append]
    refine ⟨h, List.pairwise_singleton _ _, ?_⟩
    intro a ha b hb
    rw [List.mem_singleton] at hb
    rw [hb]
    exact hno a ha
  · rw [hup]
    rw [hm] at h
    rw [List.pairwise_append, List.pairwise_cons] at h ⊢
    obtain ⟨hpre, ⟨hk, hpost⟩, hcross⟩ := h
    refine ⟨hpre, ⟨hk, hpost⟩, ?_⟩
    intro a ha b hb
    rcases List.mem_cons.mp hb with rfl | hb
    · exact hcross a ha (k', v) (List.mem_cons_self ..)
    · exact hcross a ha b (List.mem_cons_of_mem _ hb)

/-! ## The maps -/

/-- `HashMap::new`. -/
def empty : HashMap K V := ⟨[], List.Pairwise.nil⟩

/-- `get`. -/
def get? (m : HashMap K V) (k : K) : Option V := getEntry k m.entries

/-- Rewrite the value under a key, or add an entry for it. -/
def upsert (m : HashMap K V) (k : K) (f : Option V → V) : HashMap K V :=
  ⟨upsertEntry k f m.entries, upsertEntry_distinct k f m.distinct⟩

/-- `insert`: the value replaces the one that was under the key. -/
def insert (m : HashMap K V) (k : K) (v : V) : HashMap K V := m.upsert k (fun _ => v)

/-- `entry(k).or_insert_with(default)`, followed by an update of the value in place. -/
def entryOrInsertWith (m : HashMap K V) (k : K) (default : V) (f : V → V) : HashMap K V :=
  m.upsert k (fun old => f (old.getD default))

/-- `remove`: the map without the entry of the key. -/
def remove (m : HashMap K V) (k : K) : HashMap K V :=
  ⟨removeEntry k m.entries, m.distinct.sublist (removeEntry_sublist k m.entries)⟩

/-- `collect` into a map: a later entry replaces an earlier one under its key. -/
def ofList (l : List (K × V)) : HashMap K V :=
  l.foldl (fun m e => m.insert e.1 e.2) empty

@[simp] theorem get?_empty (k : K) : (empty : HashMap K V).get? k = none := rfl

@[simp] theorem entries_empty : (empty : HashMap K V).entries = [] := rfl

/-- What a key holds is an entry, under an equal key. -/
theorem exists_mem_of_get? {m : HashMap K V} {k : K} {v : V} (h : m.get? k = some v) :
    ∃ k', (k' == k) = true ∧ (k', v) ∈ m.entries := by
  obtain ⟨l, hl⟩ := m
  have h' : getEntry k l = some v := h
  show ∃ k', (k' == k) = true ∧ (k', v) ∈ l
  clear h hl
  induction l with
  | nil => cases h'
  | cons e l ih =>
      obtain ⟨k', v'⟩ := e
      by_cases hk : (k' == k) = true
      · rw [getEntry, if_pos hk, Option.some.injEq] at h'
        exact ⟨k', hk, by simp [h']⟩
      · rw [getEntry, if_neg hk] at h'
        obtain ⟨k₀, hk₀, hmem⟩ := ih h'
        exact ⟨k₀, hk₀, List.mem_cons_of_mem _ hmem⟩

theorem remove_of_get?_eq_none {m : HashMap K V} {k : K} (h : m.get? k = none) :
    m.remove k = m := by
  have hentries : removeEntry k m.entries = m.entries := by
    rcases removeEntry_cases k m.entries with ⟨-, hrm⟩ | ⟨pre, k', v, post, -, -, hget, -⟩
    · exact hrm
    · rw [get?, hget] at h
      cases h
  obtain ⟨l, hl⟩ := m
  show HashMap.mk (removeEntry k l) _ = _
  congr 1

/-- What a `remove` takes out is what the key held. -/
theorem entries_perm_remove {m : HashMap K V} {k : K} {v : V} (h : m.get? k = some v) :
    ∃ k', (k' == k) = true ∧ m.entries ~ (k', v) :: (m.remove k).entries := by
  rcases removeEntry_cases k m.entries with ⟨hget, -⟩ | ⟨pre, k', v', post, hm, hk, hget, hrm⟩
  · rw [get?, hget] at h
    cases h
  · rw [get?, hget, Option.some.injEq] at h
    subst h
    refine ⟨k', hk, ?_⟩
    show m.entries ~ (k', v') :: removeEntry k m.entries
    rw [hrm, hm]
    exact List.perm_middle

section KeyEquality

variable [EquivBEq K]

/-- What a key holds after its own update. -/
@[simp] theorem get?_upsert_self (m : HashMap K V) (k : K) (f : Option V → V) :
    (m.upsert k f).get? k = some (f (m.get? k)) := by
  show getEntry k (upsertEntry k f m.entries) = some (f (getEntry k m.entries))
  induction m.entries with
  | nil => simp [upsertEntry, getEntry]
  | cons e l ih =>
      obtain ⟨k', v⟩ := e
      by_cases hk : (k' == k) = true
      · simp [upsertEntry, getEntry, hk]
      · simp [upsertEntry, getEntry, hk, ih]

/-- Other keys keep what they held. -/
theorem get?_upsert_of_ne (m : HashMap K V) {k k' : K} (f : Option V → V)
    (h : (k == k') = false) : (m.upsert k f).get? k' = m.get? k' := by
  show getEntry k' (upsertEntry k f m.entries) = getEntry k' m.entries
  induction m.entries with
  | nil => simp [upsertEntry, getEntry, h]
  | cons e l ih =>
      obtain ⟨k₀, v⟩ := e
      by_cases hk : (k₀ == k) = true
      · have hk' : (k₀ == k') = false := by
          rw [BEq.congr_left hk]
          exact h
        simp [upsertEntry, getEntry, hk, hk']
      · simp [upsertEntry, getEntry, hk, ih]

@[simp] theorem get?_insert_self (m : HashMap K V) (k : K) (v : V) :
    (m.insert k v).get? k = some v := get?_upsert_self m k _

theorem get?_insert_of_ne (m : HashMap K V) {k k' : K} (v : V)
    (h : (k == k') = false) : (m.insert k v).get? k' = m.get? k' :=
  get?_upsert_of_ne m _ h

/-- An entry is what its key holds. -/
theorem get?_of_mem {m : HashMap K V} {k : K} {v : V} (h : (k, v) ∈ m.entries) :
    m.get? k = some v := by
  obtain ⟨l, hl⟩ := m
  show getEntry k l = some v
  induction l with
  | nil => exact absurd h (List.not_mem_nil)
  | cons e l ih =>
      obtain ⟨k', v'⟩ := e
      rcases List.mem_cons.mp h with heq | hmem
      · obtain ⟨rfl, rfl⟩ := Prod.mk.inj heq
        simp [getEntry]
      · have hk : (k' == k) = false := (List.pairwise_cons.mp hl).1 (k, v) hmem
        simp only [getEntry, hk]
        exact ih (List.pairwise_cons.mp hl).2 hmem

/-- A list with pairwise different keys holds a value under a key if it has the entry. -/
theorem lookup_eq_some_of_distinct {K' : Type} [BEq K'] [LawfulBEq K'] {l : List (K' × V)}
    (h : l.Pairwise (fun a b => (a.1 == b.1) = false)) {k : K'} {v : V} :
    l.lookup k = some v ↔ (k, v) ∈ l := by
  induction l with
  | nil => simp
  | cons e l ih =>
      obtain ⟨k', v'⟩ := e
      rw [List.pairwise_cons] at h
      rw [List.lookup_cons, List.mem_cons]
      by_cases hk : k = k'
      · subst hk
        rw [beq_self_eq_true]
        constructor
        · exact fun hv => Or.inl (by rw [Option.some.inj hv])
        · rintro (heq | hmem)
          · rw [(Prod.mk.inj heq).2]
          · exact absurd (h.1 _ hmem) (by simp)
      · rw [beq_false_of_ne hk]
        constructor
        · exact fun hv => Or.inr ((ih h.2).mp hv)
        · rintro (heq | hmem)
          · exact absurd (Prod.mk.inj heq).1 hk
          · exact (ih h.2).mpr hmem

theorem distinct_order {K' : Type} [BEq K'] [LawfulBEq K'] (o : IterOrder (K' × V))
    (m : HashMap K' V) : (o.order m.entries).Pairwise (fun a b => (a.1 == b.1) = false) := by
  refine ((o.perm m.entries).pairwise_iff (fun {a b} hab => ?_)).mpr m.distinct
  rw [beq_eq_false_iff_ne] at hab ⊢
  exact Ne.symm hab

theorem nodup_keys_order {K' : Type} [BEq K'] [LawfulBEq K'] (o : IterOrder (K' × V))
    (m : HashMap K' V) : ((o.order m.entries).map (·.1)).Nodup := by
  rw [List.Nodup, List.pairwise_map]
  exact (m.distinct_order o).imp (fun h => beq_eq_false_iff_ne.mp h)

/-- **ANY ORDER** of the entries has the same values under the keys. -/
theorem lookup_order {K' : Type} [BEq K'] [LawfulBEq K'] (o : IterOrder (K' × V))
    (m : HashMap K' V) (k : K') : (o.order m.entries).lookup k = m.get? k := by
  refine Option.ext (fun v => ?_)
  rw [lookup_eq_some_of_distinct (m.distinct_order o), o.mem_order]
  constructor
  · exact get?_of_mem
  · intro h
    obtain ⟨k', hk, hmem⟩ := exists_mem_of_get? h
    rwa [beq_iff_eq.mp hk] at hmem

/-- A `remove` leaves no entry under the key. -/
theorem key_ne_of_mem_remove {m : HashMap K V} {k : K} {e : K × V}
    (h : e ∈ (m.remove k).entries) : (e.1 == k) = false := by
  have hmem : e ∈ removeEntry k m.entries := h
  rcases removeEntry_cases k m.entries with ⟨hget, hrm⟩ | ⟨pre, k', v, post, hm, hk, -, hrm⟩
  · rw [hrm] at hmem
    by_contra hne
    have hkey : (e.1 == k) = true := by simpa using hne
    rcases upsertEntry_cases k (fun _ => e.2) m.entries with ⟨-, hno, -⟩ | ⟨_, _, v, _, -, -, hget', -⟩
    · rw [hno e hmem] at hkey
      exact Bool.noConfusion hkey
    · rw [hget] at hget'
      cases hget'
  · rw [hrm] at hmem
    have hdistinct := m.distinct
    rw [hm, List.pairwise_append, List.pairwise_cons] at hdistinct
    obtain ⟨-, ⟨hpost, -⟩, hpre⟩ := hdistinct
    have hne : (e.1 == k') = false := by
      rcases List.mem_append.mp hmem with he | he
      · exact hpre e he (k', v) (List.mem_cons_self ..)
      · exact (BEq.comm).trans (hpost e he)
    rw [← BEq.congr_right hk]
    exact hne

end KeyEquality

/-! ## Maps of maps -/

section Nested

variable {K' C : Type} [BEq K']

/-- `entry(k).or_insert_with(HashMap::new).insert(k', v)`. -/
def insertIn (m : HashMap K (HashMap K' V)) (k : K) (k' : K') (v : V) :
    HashMap K (HashMap K' V) :=
  m.entryOrInsertWith k empty (·.insert k' v)

/-- A loop of such inserts. -/
def insertAllIn (m : HashMap K (HashMap K' V)) (l : List (K × K' × V)) :
    HashMap K (HashMap K' V) :=
  l.foldl (fun m e => m.insertIn e.1 e.2.1 e.2.2) m

/-- The entries of the inner maps under both keys; `f` reads off the outer key
    what its equality compares. -/
def triples (f : K → C) (m : HashMap K (HashMap K' V)) : List (C × K' × V) :=
  m.entries.flatMap (fun e => e.2.entries.map (fun e' => (f e.1, e'.1, e'.2)))

@[simp] theorem triples_empty (f : K → C) :
    (empty : HashMap K (HashMap K' V)).triples f = [] := rfl

/-- One insert adds an entry or takes the place of one. -/
theorem triples_insertIn [LawfulBEq K'] {f : K → C} (hf : ∀ a b, (a == b) = true → f a = f b)
    (m : HashMap K (HashMap K' V)) (k : K) (k' : K') (v : V) :
    (m.insertIn k k' v).triples f ~ (f k, k', v) :: m.triples f ∨
      ∃ old rest, m.triples f ~ (f k, k', old) :: rest ∧
        (m.insertIn k k' v).triples f ~ (f k, k', v) :: rest := by
  have hentries : (m.insertIn k k' v).entries
      = upsertEntry k (fun old => (old.getD empty).insert k' v) m.entries := rfl
  rw [triples, triples, hentries]
  rcases upsertEntry_cases k (fun old => (old.getD empty).insert k' v) m.entries with
    ⟨-, -, hup⟩ | ⟨pre, k₀, inner, post, hm, hk, -, hup⟩
  · left
    rw [hup, List.flatMap_append]
    exact List.perm_append_comm
  · rw [hup, hm]
    have hk₀ : f k₀ = f k := hf k₀ k hk
    have hinner : ((some inner).getD empty |>.insert k' v).entries
        = upsertEntry k' (fun _ => v) inner.entries := rfl
    simp only [List.flatMap_append, List.flatMap_cons, hinner, hk₀]
    rcases upsertEntry_cases k' (fun _ => v) inner.entries with
      ⟨-, -, hup'⟩ | ⟨pre', k₁, old, post', hm', hk', -, hup'⟩
    · -- a new member of an inner map that is there
      left
      rw [hup', List.map_append, List.append_assoc, List.map_singleton, List.singleton_append]
      refine (List.Perm.append_left _ List.perm_middle).trans ?_
      exact List.perm_middle
    · -- the old member makes room
      right
      rw [LawfulBEq.eq_of_beq hk'] at hm' hup'
      refine ⟨old, pre.flatMap (fun e => e.2.entries.map (fun e' => (f e.1, e'.1, e'.2)))
        ++ (pre'.map (fun e' => (f k, e'.1, e'.2)) ++ (post'.map (fun e' => (f k, e'.1, e'.2))
        ++ post.flatMap (fun e => e.2.entries.map (fun e' => (f e.1, e'.1, e'.2))))), ?_, ?_⟩
      · rw [hm', List.map_append, List.map_cons, List.append_assoc, List.cons_append]
        exact (List.Perm.append_left _ List.perm_middle).trans List.perm_middle
      · rw [hup', List.map_append, List.map_cons, List.append_assoc, List.cons_append]
        exact (List.Perm.append_left _ List.perm_middle).trans List.perm_middle

/-- What is inserted last is there. -/
theorem mem_triples_insertAllIn_last [LawfulBEq K'] {f : K → C}
    (hf : ∀ a b, (a == b) = true → f a = f b) (m : HashMap K (HashMap K' V))
    (l : List (K × K' × V)) (t : K × K' × V) :
    (f t.1, t.2.1, t.2.2) ∈ (m.insertAllIn (l ++ [t])).triples f := by
  have hlast : m.insertAllIn (l ++ [t]) = (m.insertAllIn l).insertIn t.1 t.2.1 t.2.2 :=
    List.foldl_append ..
  rw [hlast]
  rcases triples_insertIn hf (m.insertAllIn l) t.1 t.2.1 t.2.2 with hnew | ⟨old, rest, -, hnew⟩
  · exact hnew.mem_iff.mpr (List.mem_cons_self ..)
  · exact hnew.mem_iff.mpr (List.mem_cons_self ..)

/-- An insert stays where no later one has its keys. -/
theorem mem_triples_insertAllIn [LawfulBEq K'] {f : K → C}
    (hf : ∀ a b, (a == b) = true → f a = f b) (m : HashMap K (HashMap K' V))
    (l : List (K × K' × V)) (t : K × K' × V) {later : List (K × K' × V)}
    (h : ∀ u ∈ later, (f u.1, u.2.1) ≠ (f t.1, t.2.1)) :
    (f t.1, t.2.1, t.2.2) ∈ (m.insertAllIn (l ++ t :: later)).triples f := by
  induction later using List.reverseRecOn with
  | nil => exact mem_triples_insertAllIn_last hf m l t
  | append_singleton later u ih =>
      have hmem := ih (fun v hv => h v (List.mem_append_left _ hv))
      have hlast : m.insertAllIn (l ++ t :: (later ++ [u]))
          = (m.insertAllIn (l ++ t :: later)).insertIn u.1 u.2.1 u.2.2 := by
        rw [← List.cons_append, ← List.append_assoc]
        exact List.foldl_append ..
      rw [hlast]
      rcases triples_insertIn hf (m.insertAllIn (l ++ t :: later)) u.1 u.2.1 u.2.2 with
        hnew | ⟨old, rest, hold, hnew⟩
      · exact hnew.mem_iff.mpr (List.mem_cons_of_mem _ hmem)
      · -- what the insert takes the place of has its own keys
        rcases List.mem_cons.mp (hold.mem_iff.mp hmem) with heq | hrest
        · refine absurd ?_ (h u (List.mem_append_right _ (List.mem_singleton_self _)))
          rw [Prod.mk.injEq, Prod.mk.injEq] at heq
          rw [heq.1, heq.2.1]
        · exact hnew.mem_iff.mpr (List.mem_cons_of_mem _ hrest)

/-- An insert has its keys afterwards, and every pair of keys that was there. -/
theorem mem_keys_insertIn [LawfulBEq K'] {f : K → C} (hf : ∀ a b, (a == b) = true → f a = f b)
    (m : HashMap K (HashMap K' V)) (k : K) (k' : K') (v : V) {c : C × K'}
    (h : c = (f k, k') ∨ c ∈ (m.triples f).map (fun t => (t.1, t.2.1))) :
    c ∈ ((m.insertIn k k' v).triples f).map (fun t => (t.1, t.2.1)) := by
  rcases triples_insertIn hf m k k' v with hnew | ⟨old, rest, hold, hnew⟩
  · rw [(hnew.map _).mem_iff, List.map_cons, List.mem_cons]
    exact h
  · rw [(hold.map _).mem_iff, List.map_cons, List.mem_cons] at h
    rw [(hnew.map _).mem_iff, List.map_cons, List.mem_cons]
    rcases h with hself | hself | hrest
    · exact Or.inl hself
    · exact Or.inl hself
    · exact Or.inr hrest

/-- **NO KEY IS FORGOTTEN** by a loop of inserts, though values are. -/
theorem mem_keys_insertAllIn [LawfulBEq K'] {f : K → C} (hf : ∀ a b, (a == b) = true → f a = f b)
    {l : List (K × K' × V)} {m : HashMap K (HashMap K' V)} {c : C × K'}
    (h : c ∈ l.map (fun t => (f t.1, t.2.1)) ∨ c ∈ (m.triples f).map (fun t => (t.1, t.2.1))) :
    c ∈ ((m.insertAllIn l).triples f).map (fun t => (t.1, t.2.1)) := by
  induction l generalizing m with
  | nil =>
      rcases h with hnil | hold
      · cases hnil
      · exact hold
  | cons t l ih =>
      refine ih (m := m.insertIn t.1 t.2.1 t.2.2) ?_
      rw [List.map_cons, List.mem_cons] at h
      rcases h with (hself | hlater) | hold
      · exact Or.inr (mem_keys_insertIn hf m _ _ _ (Or.inl hself))
      · exact Or.inl hlater
      · exact Or.inr (mem_keys_insertIn hf m _ _ _ (Or.inr hold))

omit [BEq K] in
theorem insert_entries_ne_nil (m : HashMap K' V) (k : K') (v : V) :
    (m.insert k v).entries ≠ [] := by
  show upsertEntry k (fun _ => v) m.entries ≠ []
  rcases upsertEntry_cases k (fun _ => v) m.entries with
    ⟨-, -, hup⟩ | ⟨pre, k', old, post, -, -, -, hup⟩
  · simp [hup]
  · simp [hup]

/-- A loop of inserts leaves no inner map empty. -/
theorem insertAllIn_ne_nil (l : List (K × K' × V)) {m : HashMap K (HashMap K' V)}
    (hm : ∀ e ∈ m.entries, e.2.entries ≠ []) :
    ∀ e ∈ (m.insertAllIn l).entries, e.2.entries ≠ [] := by
  induction l generalizing m with
  | nil => exact hm
  | cons t l ih =>
      obtain ⟨k, k', v⟩ := t
      refine ih (m := m.insertIn k k' v) ?_
      intro e he
      have he' : e ∈ upsertEntry k (fun old => (old.getD empty).insert k' v) m.entries := he
      rcases upsertEntry_cases k (fun old => (old.getD empty).insert k' v) m.entries with
        ⟨-, -, hup⟩ | ⟨pre, k₀, inner, post, hentries, -, -, hup⟩
      · rw [hup, List.mem_append, List.mem_singleton] at he'
        rcases he' with hmem | rfl
        · exact hm e hmem
        · exact insert_entries_ne_nil (empty : HashMap K' V) k' v
      · rw [hup, List.mem_append, List.mem_cons] at he'
        rw [hentries] at hm
        rcases he' with hmem | rfl | hmem
        · exact hm e (List.mem_append_left _ hmem)
        · exact insert_entries_ne_nil inner k' v
        · exact hm e (List.mem_append_right _ (List.mem_cons_of_mem _ hmem))

/-- **INSERTS INVENT NOTHING**: what a loop of inserts leaves was there or was inserted. -/
theorem triples_insertAllIn_subperm [LawfulBEq K'] {f : K → C}
    (hf : ∀ a b, (a == b) = true → f a = f b) (l : List (K × K' × V))
    (m : HashMap K (HashMap K' V)) :
    (m.insertAllIn l).triples f <+~ m.triples f ++ l.map (fun e => (f e.1, e.2.1, e.2.2)) := by
  induction l generalizing m with
  | nil =>
      rw [List.map_nil, List.append_nil]
      exact List.Subperm.refl _
  | cons e l ih =>
      obtain ⟨k, k', v⟩ := e
      have hstep : (m.insertIn k k' v).triples f <+~ (f k, k', v) :: m.triples f := by
        rcases triples_insertIn hf m k k' v with hnew | ⟨old, rest, hm, hnew⟩
        · exact hnew.subperm
        · refine hnew.subperm.trans (((List.subperm_cons _).mpr ?_))
          exact (List.sublist_cons_self _ rest).subperm.trans hm.symm.subperm
      refine (ih (m.insertIn k k' v)).trans ?_
      refine (hstep.append (List.Subperm.refl _)).trans ?_
      rw [List.map_cons]
      exact List.perm_middle.symm.subperm

/-- Two inner entries never share both keys. -/
theorem nodup_keys_triples [LawfulBEq K'] {f : K → C} (hf : ∀ a b, f a = f b → (a == b) = true)
    (m : HashMap K (HashMap K' V)) :
    ((m.triples f).map (fun t => (t.1, t.2.1))).Nodup := by
  obtain ⟨l, hl⟩ := m
  show ((l.flatMap (fun e => e.2.entries.map (fun e' => (f e.1, e'.1, e'.2)))).map
    (fun t => (t.1, t.2.1))).Nodup
  rw [List.map_flatMap, List.nodup_flatMap]
  constructor
  · intro e he
    rw [List.map_map, List.Nodup, List.pairwise_map]
    refine e.2.distinct.imp ?_
    intro a b hab heq
    simp only [Function.comp_apply, Prod.mk.injEq, true_and] at heq
    rw [heq, beq_self_eq_true] at hab
    exact Bool.noConfusion hab
  · refine hl.imp ?_
    intro a b hab x hxa hxb
    simp only [List.map_map, List.mem_map, Function.comp_apply] at hxa hxb
    obtain ⟨ea, -, rfl⟩ := hxa
    obtain ⟨eb, -, heq⟩ := hxb
    rw [hf a.1 b.1 (Prod.mk.inj heq).1.symm] at hab
    exact Bool.noConfusion hab

/-- **WITHOUT COLLISIONS NOTHING IS LOST**: inserts under different keys all stay. -/
theorem triples_insertAllIn_perm [LawfulBEq K'] {f : K → C}
    (hf : ∀ a b, (a == b) = true → f a = f b) {l : List (K × K' × V)}
    {m : HashMap K (HashMap K' V)}
    (hnodup : ((m.triples f ++ l.map (fun e => (f e.1, e.2.1, e.2.2))).map
      (fun t => (t.1, t.2.1))).Nodup) :
    (m.insertAllIn l).triples f ~ m.triples f ++ l.map (fun e => (f e.1, e.2.1, e.2.2)) := by
  induction l generalizing m with
  | nil => simp [insertAllIn]
  | cons e l ih =>
      obtain ⟨k, k', v⟩ := e
      rw [List.map_cons] at hnodup ⊢
      have hmove := hnodup
      rw [(List.perm_middle.map _).nodup_iff, List.map_cons, List.nodup_cons] at hmove
      have hstep : (m.insertIn k k' v).triples f ~ (f k, k', v) :: m.triples f := by
        rcases triples_insertIn hf m k k' v with hnew | ⟨old, rest, hm, -⟩
        · exact hnew
        · -- the key is already there, against the hypothesis
          refine absurd ?_ hmove.1
          rw [List.map_append, List.mem_append]
          exact Or.inl ((hm.map _).mem_iff.mpr (by simp))
      have hfold : (m.insertIn k k' v).triples f ++ l.map (fun e => (f e.1, e.2.1, e.2.2))
          ~ m.triples f ++ (f k, k', v) :: l.map (fun e => (f e.1, e.2.1, e.2.2)) :=
        (hstep.append_right _).trans List.perm_middle.symm
      exact (ih ((hfold.map _).nodup_iff.mpr hnodup)).trans hfold

/-- **EXACTLY THE COLLISIONS LOSE**: as many entries as inserts means different keys. -/
theorem length_triples_insertAllIn [LawfulBEq K'] {f : K → C}
    (hf : ∀ a b, (a == b) = true ↔ f a = f b) (l : List (K × K' × V)) :
    (((empty : HashMap K (HashMap K' V)).insertAllIn l).triples f).length = l.length ↔
      (l.map (fun e => (f e.1, e.2.1))).Nodup := by
  have hsub := triples_insertAllIn_subperm (fun a b h => (hf a b).mp h) l
    (empty : HashMap K (HashMap K' V))
  rw [triples_empty, List.nil_append] at hsub
  have hcomp : (l.map (fun e => (f e.1, e.2.1, e.2.2))).map (fun t => (t.1, t.2.1))
      = l.map (fun e => (f e.1, e.2.1)) := by
    rw [List.map_map]
    rfl
  constructor
  · intro hlen
    have hperm := hsub.perm_of_length_le (by simp [hlen])
    rw [← hcomp, ← (hperm.map (fun t => (t.1, t.2.1))).nodup_iff]
    exact nodup_keys_triples (fun a b h => (hf a b).mpr h) _
  · intro hnodup
    rw [← hcomp] at hnodup
    have hperm := triples_insertAllIn_perm (fun a b h => (hf a b).mp h)
      (m := (empty : HashMap K (HashMap K' V))) hnodup
    simpa using hperm.length_eq

/-! ## Maps with the same keys -/

/-- Entries under the same keys in the same order, with related values. -/
abbrev Alike {W : Type} (r : V → W → Prop) : List (K × V) → List (K × W) → Prop :=
  List.Forall₂ (fun e e' => e.1 = e'.1 ∧ r e.2 e'.2)

/-- Updates that keep the values related. -/
theorem upsertEntry_alike {W : Type} {r : V → W → Prop} {m : List (K × V)} {m' : List (K × W)}
    (h : Alike r m m') (k : K) {f : Option V → V} {g : Option W → W} (hnone : r (f none) (g none))
    (hsome : ∀ v w, r v w → r (f (some v)) (g (some w))) :
    Alike r (upsertEntry k f m) (upsertEntry k g m') := by
  induction h with
  | nil => exact .cons ⟨rfl, hnone⟩ .nil
  | @cons e e' m m' he hm ih =>
      obtain ⟨k₁, v⟩ := e
      obtain ⟨k₂, w⟩ := e'
      obtain ⟨rfl, hvw⟩ := he
      rw [upsertEntry, upsertEntry]
      split
      · exact .cons ⟨rfl, hsome v w hvw⟩ hm
      · exact .cons ⟨rfl, hvw⟩ ih

/-- A loop of inserts of related values. -/
theorem insertAllIn_alike {r : V → V → Prop} {l l' : List (K × K' × V)}
    (hl : List.Forall₂ (fun t t' => t.1 = t'.1 ∧ t.2.1 = t'.2.1 ∧ r t.2.2 t'.2.2) l l')
    {m m' : HashMap K (HashMap K' V)}
    (hm : Alike (fun i i' : HashMap K' V => Alike r i.entries i'.entries) m.entries m'.entries) :
    Alike (fun i i' : HashMap K' V => Alike r i.entries i'.entries)
      (m.insertAllIn l).entries (m'.insertAllIn l').entries := by
  induction hl generalizing m m' with
  | nil => exact hm
  | @cons t t' l l' ht _ ih =>
      obtain ⟨k, k', v⟩ := t
      obtain ⟨k₂, k₂', w⟩ := t'
      obtain ⟨rfl, rfl, hvw⟩ := ht
      replace hvw : r v w := hvw
      have hinsert : ∀ i i' : List (K' × V), Alike r i i' →
          Alike r (upsertEntry k' (fun _ => v) i) (upsertEntry k' (fun _ => w) i') := fun i i' hi =>
        upsertEntry_alike hi k' hvw (fun _ _ _ => hvw)
      have hround : Alike (fun i i' : HashMap K' V => Alike r i.entries i'.entries)
          (m.insertIn k k' v).entries (m'.insertIn k k' w).entries :=
        upsertEntry_alike hm k (hinsert _ _ .nil) (fun i i' hi => hinsert _ _ hi)
      exact ih hround

end Nested

/-! ## Whole loops over a map -/

section Loops

variable [LawfulBEq K] [DecidableEq K]

/-- A loop that writes a value for each of its keys. -/
theorem get?_foldl_insert {α : Type} (l : List α) (key : α → K) (value : K → V) (m : HashMap K V)
    (k : K) :
    (l.foldl (fun m a => m.insert (key a) (value (key a))) m).get? k
      = if k ∈ l.map key then some (value k) else m.get? k := by
  induction l generalizing m with
  | nil => simp
  | cons a l ih =>
      rw [List.foldl_cons, ih, List.map_cons]
      by_cases hl : k ∈ l.map key
      · rw [if_pos hl, if_pos (List.mem_cons_of_mem _ hl)]
      · rw [if_neg hl]
        by_cases ha : key a = k
        · subst ha
          rw [get?_insert_self, if_pos (List.mem_cons_self ..)]
        · rw [get?_insert_of_ne m _ (beq_false_of_ne ha), if_neg]
          simp only [List.mem_cons, not_or]
          exact ⟨fun h => ha h.symm, hl⟩

/-- Group values by key: every value is appended to the list of its key. -/
def pushAll (m : HashMap K (List V)) (l : List (K × List V)) : HashMap K (List V) :=
  l.foldl (fun m e => m.entryOrInsertWith e.1 [] (· ++ e.2)) m

/-- One more group of values. -/
theorem get?_entryOrInsertWith_append (m : HashMap K (List V)) (k k' : K) (values : List V) :
    (m.entryOrInsertWith k [] (· ++ values)).get? k'
      = if k = k' then some ((m.get? k).getD [] ++ values) else m.get? k' := by
  by_cases hk : k = k'
  · subst hk
    rw [if_pos rfl, entryOrInsertWith, get?_upsert_self]
  · rw [if_neg hk, entryOrInsertWith, get?_upsert_of_ne m _ (beq_false_of_ne hk)]

/-- **GROUPING LOSES NOTHING**: the list of a key holds what it held before and
    what was pushed under the key. -/
theorem mem_pushAll (m : HashMap K (List V)) (l : List (K × List V)) (k : K) (v : V) :
    v ∈ ((m.pushAll l).get? k).getD [] ↔
      v ∈ (m.get? k).getD [] ∨ ∃ e ∈ l, e.1 = k ∧ v ∈ e.2 := by
  induction l generalizing m with
  | nil => simp [pushAll]
  | cons e l ih =>
      show v ∈ (((m.entryOrInsertWith e.1 [] (· ++ e.2)).pushAll l).get? k).getD [] ↔ _
      rw [ih, get?_entryOrInsertWith_append]
      by_cases hk : e.1 = k
      · subst hk
        simp [or_assoc]
      · simp [hk]

/-- A key is there if it was there before or something was pushed under it. -/
theorem isSome_pushAll (m : HashMap K (List V)) (l : List (K × List V)) (k : K) :
    ((m.pushAll l).get? k).isSome ↔ (m.get? k).isSome ∨ ∃ e ∈ l, e.1 = k := by
  induction l generalizing m with
  | nil => simp [pushAll]
  | cons e l ih =>
      show (((m.entryOrInsertWith e.1 [] (· ++ e.2)).pushAll l).get? k).isSome ↔ _
      rw [ih, get?_entryOrInsertWith_append]
      by_cases hk : e.1 = k
      · subst hk
        simp
      · simp [hk]

end Loops

/-! ## Memo tables -/

section Memo

variable [LawfulBEq K]

/-- Every value kept is that of the function at its key. -/
def Memoizes (m : HashMap K V) (f : K → V) : Prop :=
  ∀ k v, m.get? k = some v → v = f k

/-- Look the value up, or compute and keep it. -/
def memoized (m : HashMap K V) (f : K → V) (k : K) : V × HashMap K V :=
  match m.get? k with
  | some v => (v, m)
  | none => (f k, m.insert k (f k))

omit [LawfulBEq K] in
theorem memoizes_empty (f : K → V) : (empty : HashMap K V).Memoizes f := by
  intro k v h
  cases h

theorem Memoizes.insert {m : HashMap K V} {f : K → V} (h : m.Memoizes f) (k : K) :
    (m.insert k (f k)).Memoizes f := by
  intro k' v hget
  by_cases hk : k = k'
  · subst hk
    rw [get?_insert_self] at hget
    exact (Option.some.inj hget).symm
  · rw [get?_insert_of_ne m _ (beq_false_of_ne hk)] at hget
    exact h k' v hget

/-- **MEMOIZATION** answers with the function's value, and stays so. -/
theorem Memoizes.memoized {m : HashMap K V} {f : K → V} (h : m.Memoizes f) (k : K) :
    (m.memoized f k).1 = f k ∧ (m.memoized f k).2.Memoizes f := by
  unfold HashMap.memoized
  cases hget : m.get? k with
  | some v => exact ⟨h k v hget, h⟩
  | none => exact ⟨rfl, h.insert k⟩

end Memo

end HashMap

end ProgLib
