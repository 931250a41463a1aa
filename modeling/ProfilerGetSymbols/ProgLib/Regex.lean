import Mathlib

/-! # Regular expressions — leftmost matches with greedy, backtracking preference

    A pattern is run against a text with a continuation for what follows it: each
    construct tries its ways of matching in the order of preference, and the first
    one on which the continuation succeeds is taken.  A repetition prefers one more
    round to stopping.  A search takes the leftmost place where the pattern matches.

    The letters are of any type, and so are the names of the groups. -/

namespace ProgLib

/-- A pattern over letters of `α`, with groups named in `N`. -/
inductive Regex (α N : Type) where
  /-- The empty pattern. -/
  | eps
  /-- One letter of a class. -/
  | letter (p : α → Bool)
  /-- One pattern after another. -/
  | cat (first second : Regex α N)
  /-- Any number of rounds, as many as possible. -/
  | star (body : Regex α N)
  /-- A group that captures what its pattern matches. -/
  | group (name : N) (body : Regex α N)
  /-- The end of the text. -/
  | stop

namespace Regex

variable {α N β : Type}

instance : Append (Regex α N) := ⟨.cat⟩

/-- One round or more. -/
def plus (r : Regex α N) : Regex α N := r ++ .star r

/-- A fixed word. -/
def word [DecidableEq α] : List α → Regex α N
  | [] => .eps
  | a :: w => .letter (· == a) ++ word w

/-- What the groups have captured, the latest first. -/
abbrev Captures (α N : Type) := List (N × List α)

/-- What is done with the rest of the text after a match. -/
abbrev Continuation (α N β : Type) := List α → Captures α N → Option β

/-- Rounds of a repetition; a round that matches nothing ends it. -/
def runStar (round : List α → Captures α N → Continuation α N β → Option β) :
    Nat → List α → Captures α N → Continuation α N β → Option β
  | 0, _, _, _ => none
  | fuel + 1, s, c, k =>
      (round s c (fun t c' => if t.length < s.length then runStar round fuel t c' k else none)).or
        (k s c)

/-- The preferred match of the pattern at the front of the text with which the
    continuation succeeds. -/
def run : Regex α N → List α → Captures α N → Continuation α N β → Option β
  | .eps, s, c, k => k s c
  | .letter p, a :: t, c, k => if p a then k t c else none
  | .letter _, [], _, _ => none
  | .cat r₁ r₂, s, c, k => run r₁ s c (fun t c' => run r₂ t c' k)
  | .star r, s, c, k => runStar (run r) (s.length + 1) s c k
  | .group name r, s, c, k =>
      run r s c (fun t c' => k t ((name, s.take (s.length - t.length)) :: c'))
  | .stop, [], c, k => k [] c
  | .stop, _ :: _, _, _ => none

/-- The captures of the pattern at the front of the text. -/
def matchHere (r : Regex α N) (s : List α) : Option (Captures α N) :=
  r.run s [] (fun _ c => some c)

/-- The captures of the leftmost match. -/
def search (r : Regex α N) : List α → Option (Captures α N)
  | [] => r.matchHere []
  | a :: t => (r.matchHere (a :: t)).or (search r t)

/-! ## One construct at a time -/

@[simp] theorem run_append (r₁ r₂ : Regex α N) (s : List α) (c : Captures α N)
    (k : Continuation α N β) :
    (r₁ ++ r₂).run s c k = r₁.run s c (fun t c' => r₂.run t c' k) := rfl

@[simp] theorem run_group (name : N) (r : Regex α N) (s : List α) (c : Captures α N)
    (k : Continuation α N β) :
    (Regex.group name r).run s c k
      = r.run s c (fun t c' => k t ((name, s.take (s.length - t.length)) :: c')) := rfl

theorem run_letter_eq_some {p : α → Bool} {s : List α} {c : Captures α N}
    {k : Continuation α N β} {b : β} :
    (Regex.letter p).run s c k = some b ↔ ∃ a t, s = a :: t ∧ p a = true ∧ k t c = some b := by
  cases s with
  | nil => simp [run]
  | cons a t =>
      show (if p a then k t c else none) = some b ↔ _
      by_cases hp : p a = true
      · rw [if_pos hp]
        constructor
        · intro h
          exact ⟨a, t, rfl, hp, h⟩
        · rintro ⟨a', t', heq, -, h⟩
          rw [(List.cons.inj heq).2]
          exact h
      · rw [if_neg hp]
        constructor
        · intro h
          cases h
        · rintro ⟨a', t', heq, hp', -⟩
          rw [(List.cons.inj heq).1] at hp
          exact absurd hp' hp

theorem run_stop_eq_some {s : List α} {c : Captures α N} {k : Continuation α N β} {b : β} :
    (Regex.stop : Regex α N).run s c k = some b ↔ s = [] ∧ k [] c = some b := by
  cases s with
  | nil => simp [run]
  | cons a t => simp [run]

theorem run_word_eq_some [DecidableEq α] {w s : List α} {c : Captures α N}
    {k : Continuation α N β} {b : β} :
    (word w).run s c k = some b ↔ ∃ t, s = w ++ t ∧ k t c = some b := by
  induction w generalizing s with
  | nil =>
      constructor
      · intro h
        exact ⟨s, rfl, h⟩
      · rintro ⟨t, rfl, h⟩
        exact h
  | cons a w ih =>
      show (Regex.letter (· == a)).run s c (fun t c' => (word w).run t c' k) = some b ↔ _
      rw [run_letter_eq_some]
      constructor
      · rintro ⟨a', t, rfl, ha, h⟩
        obtain ⟨u, rfl, hk⟩ := ih.mp h
        exact ⟨u, by rw [beq_iff_eq.mp ha]; rfl, hk⟩
      · rintro ⟨u, rfl, hk⟩
        exact ⟨a, w ++ u, rfl, beq_self_eq_true a, ih.mpr ⟨u, rfl, hk⟩⟩

/-! ## Repetitions -/

/-- Enough fuel is as good as more. -/
theorem runStar_fuel {round : List α → Captures α N → Continuation α N β → Option β}
    {n m : Nat} {s : List α} (hn : s.length < n) (hm : s.length < m) (c : Captures α N)
    (k : Continuation α N β) : runStar round n s c k = runStar round m s c k := by
  induction n generalizing m s c with
  | zero => omega
  | succ n ih =>
      cases m with
      | zero => omega
      | succ m =>
          have hrounds : (fun t c' => if t.length < s.length then runStar round n t c' k else none)
              = (fun t c' => if t.length < s.length then runStar round m t c' k else none) := by
            funext t c'
            by_cases hlt : t.length < s.length
            · rw [if_pos hlt, if_pos hlt]
              exact ih (by omega) (by omega) c'
            · rw [if_neg hlt, if_neg hlt]
          show (round s c _).or (k s c) = (round s c _).or (k s c)
          rw [hrounds]

/-- **A REPETITION** prefers one more round, if that makes the text shorter. -/
theorem run_star (r : Regex α N) (s : List α) (c : Captures α N) (k : Continuation α N β) :
    (Regex.star r).run s c k
      = (r.run s c (fun t c' => if t.length < s.length then (Regex.star r).run t c' k
          else none)).or (k s c) := by
  have hrounds : (fun t c' => if t.length < s.length then runStar r.run s.length t c' k else none)
      = (fun t c' => if t.length < s.length then (Regex.star r).run t c' k else none) := by
    funext t c'
    by_cases hlt : t.length < s.length
    · rw [if_pos hlt, if_pos hlt]
      exact runStar_fuel hlt (Nat.lt_succ_self _) c' k
    · rw [if_neg hlt, if_neg hlt]
  show (r.run s c (fun t c' => if t.length < s.length then runStar r.run s.length t c' k
    else none)).or (k s c) = _
  rw [hrounds]

section Letters

variable {p : α → Bool} {s : List α} {c : Captures α N} {k : Continuation α N β} {b : β}

theorem run_star_letter_nil : (Regex.star (.letter p)).run [] c k = k [] c := by
  rw [run_star]
  rfl

theorem run_star_letter_cons (a : α) (t : List α) :
    (Regex.star (.letter p)).run (a :: t) c k
      = if p a then ((Regex.star (.letter p)).run t c k).or (k (a :: t) c) else k (a :: t) c := by
  rw [run_star]
  show (if p a then (if t.length < t.length + 1 then (Regex.star (.letter p)).run t c k else none)
    else none).or (k (a :: t) c) = _
  by_cases hp : p a = true
  · rw [if_pos hp, if_pos hp, if_pos (Nat.lt_succ_self _)]
  · rw [if_neg hp, if_neg hp]
    rfl

/-- A repetition fails only where the continuation fails after every front of the
    text that is made of the letters. -/
theorem run_star_letter_eq_none (h : (Regex.star (.letter p)).run s c k = none)
    {w t : List α} (hs : s = w ++ t) (hw : ∀ a ∈ w, p a = true) : k t c = none := by
  induction s generalizing w with
  | nil =>
      obtain ⟨-, rfl⟩ := List.nil_eq_append_iff.mp hs
      rwa [run_star_letter_nil] at h
  | cons a s ih =>
      rw [run_star_letter_cons] at h
      cases w with
      | nil =>
          rw [List.nil_append] at hs
          rw [← hs]
          by_cases hp : p a = true
          · rw [if_pos hp, Option.or_eq_none_iff] at h
            exact h.2
          · rwa [if_neg hp] at h
      | cons a' w =>
          obtain ⟨rfl, hs'⟩ := List.cons.inj hs
          rw [if_pos (hw a (List.mem_cons_self ..)), Option.or_eq_none_iff] at h
          exact ih h.1 hs' (fun a' ha' => hw a' (List.mem_cons_of_mem _ ha'))

/-- **GREEDY**: what a repetition takes is made of its letters, and after no longer
    such front would the continuation have succeeded. -/
theorem run_star_letter_eq_some (h : (Regex.star (.letter p)).run s c k = some b) :
    ∃ w t, s = w ++ t ∧ (∀ a ∈ w, p a = true) ∧ k t c = some b ∧
      ∀ w' t', t = w' ++ t' → w' ≠ [] → (∀ a ∈ w', p a = true) → k t' c = none := by
  induction s with
  | nil =>
      rw [run_star_letter_nil] at h
      refine ⟨[], [], rfl, fun a ha => absurd ha List.not_mem_nil, h, ?_⟩
      intro w' t' heq hne
      exact absurd (List.nil_eq_append_iff.mp heq).1 hne
  | cons a s ih =>
      rw [run_star_letter_cons] at h
      by_cases hp : p a = true
      · rw [if_pos hp] at h
        cases hmore : (Regex.star (.letter p)).run s c k with
        | some b' =>
            rw [hmore, Option.some_or] at h
            obtain ⟨w, t, hs, hw, hk, hlongest⟩ := ih (hmore.trans h)
            refine ⟨a :: w, t, by rw [hs]; rfl, ?_, hk, hlongest⟩
            intro a' ha'
            rcases List.mem_cons.mp ha' with rfl | hmem
            · exact hp
            · exact hw a' hmem
        | none =>
            -- no longer front will do
            rw [hmore, Option.none_or] at h
            refine ⟨[], a :: s, rfl, fun a ha => absurd ha List.not_mem_nil, h, ?_⟩
            intro w' t' heq hne hw'
            cases w' with
            | nil => exact absurd rfl hne
            | cons a' w' =>
                exact run_star_letter_eq_none hmore (List.cons.inj heq).2
                  (fun a'' ha'' => hw' a'' (List.mem_cons_of_mem _ ha''))
      · rw [if_neg hp] at h
        refine ⟨[], a :: s, rfl, fun a ha => absurd ha List.not_mem_nil, h, ?_⟩
        intro w' t' heq hne hw'
        cases w' with
        | nil => exact absurd rfl hne
        | cons a' w' =>
            rw [← (List.cons.inj heq).1] at hw'
            exact absurd (hw' a (List.mem_cons_self ..)) hp

/-- The same with at least one letter. -/
theorem run_plus_letter_eq_some (h : (plus (.letter p)).run s c k = some b) :
    ∃ w t, s = w ++ t ∧ w ≠ [] ∧ (∀ a ∈ w, p a = true) ∧ k t c = some b ∧
      ∀ w' t', t = w' ++ t' → w' ≠ [] → (∀ a ∈ w', p a = true) → k t' c = none := by
  obtain ⟨a, s', rfl, hp, hrest⟩ := run_letter_eq_some.mp h
  obtain ⟨w, t, rfl, hw, hk, hlongest⟩ := run_star_letter_eq_some hrest
  refine ⟨a :: w, t, rfl, List.cons_ne_nil _ _, ?_, hk, hlongest⟩
  intro a' ha'
  rcases List.mem_cons.mp ha' with rfl | hmem
  · exact hp
  · exact hw a' hmem

end Letters

/-! ## Matches in any order of preference -/

/-- The pattern can match the front of the text `s` up to `t`, and turn the captures
    `c` into `c'`. -/
inductive Matches : Regex α N → List α → List α → Captures α N → Captures α N → Prop
  | eps (s : List α) (c : Captures α N) : Matches .eps s s c c
  | letter {p : α → Bool} {a : α} (h : p a = true) (t : List α) (c : Captures α N) :
      Matches (.letter p) (a :: t) t c c
  | cat {r₁ r₂ : Regex α N} {s t u : List α} {c c' c'' : Captures α N}
      (h₁ : Matches r₁ s t c c') (h₂ : Matches r₂ t u c' c'') : Matches (r₁ ++ r₂) s u c c''
  | done (r : Regex α N) (s : List α) (c : Captures α N) : Matches (.star r) s s c c
  | round {r : Regex α N} {s t u : List α} {c c' c'' : Captures α N} (h₁ : Matches r s t c c')
      (hlt : t.length < s.length) (h₂ : Matches (.star r) t u c' c'') : Matches (.star r) s u c c''
  | group {name : N} {r : Regex α N} {s t : List α} {c c' : Captures α N}
      (h : Matches r s t c c') :
      Matches (.group name r) s t c ((name, s.take (s.length - t.length)) :: c')
  | stop (c : Captures α N) : Matches .stop [] [] c c

/-- **COMPLETENESS**: backtracking finds a match where there is one. -/
theorem Matches.run_ne_none {r : Regex α N} {s t : List α} {c c' : Captures α N}
    (h : Matches r s t c c') {k : Continuation α N β} (hk : k t c' ≠ none) :
    r.run s c k ≠ none := by
  induction h generalizing k with
  | eps s c => exact hk
  | letter hp t c =>
      obtain ⟨b, hb⟩ := Option.ne_none_iff_exists'.mp hk
      rw [run_letter_eq_some.mpr ⟨_, t, rfl, hp, hb⟩]
      exact Option.some_ne_none b
  | cat h₁ h₂ ih₁ ih₂ => exact ih₁ (ih₂ hk)
  | done r s c =>
      rw [run_star, Ne, Option.or_eq_none_iff]
      exact fun h => hk h.2
  | round h₁ hlt h₂ ih₁ ih₂ =>
      rw [run_star, Ne, Option.or_eq_none_iff]
      intro h
      refine ih₁ ?_ h.1
      rw [if_pos hlt]
      exact ih₂ hk
  | group h ih => exact ih (k := fun t c' => _) hk
  | stop c => exact hk

theorem matches_star_letter {p : α → Bool} {w : List α} (hw : ∀ a ∈ w, p a = true) (t : List α)
    (c : Captures α N) : Matches (.star (.letter p)) (w ++ t) t c c := by
  induction w with
  | nil => exact .done _ t c
  | cons a w ih =>
      rw [List.forall_mem_cons] at hw
      exact .round (.letter hw.1 _ c) (Nat.lt_succ_self _) (ih hw.2)

theorem matches_plus_letter {p : α → Bool} {w : List α} (hne : w ≠ [])
    (hw : ∀ a ∈ w, p a = true) (t : List α) (c : Captures α N) :
    Matches (plus (.letter p)) (w ++ t) t c c := by
  cases w with
  | nil => exact absurd rfl hne
  | cons a w =>
      rw [List.forall_mem_cons] at hw
      exact .cat (.letter hw.1 _ c) (matches_star_letter hw.2 t c)

theorem matches_word [DecidableEq α] (w t : List α) (c : Captures α N) :
    Matches (word w) (w ++ t) t c c := by
  induction w with
  | nil => exact .eps t c
  | cons a w ih => exact .cat (.letter (p := (· == a)) (beq_self_eq_true a) _ c) ih

/-- A group captures the front that its pattern matches. -/
theorem take_front (w t : List α) : (w ++ t).take ((w ++ t).length - t.length) = w := by
  rw [List.length_append, Nat.add_sub_cancel, List.take_left]

theorem Matches.group_front {r : Regex α N} {w t : List α} {c c' : Captures α N}
    (h : Matches r (w ++ t) t c c') (name : N) :
    Matches (.group name r) (w ++ t) t c ((name, w) :: c') := by
  have hgroup : Matches (.group name r) (w ++ t) t c _ := .group h
  rwa [take_front] at hgroup

/-! ## Searches -/

/-- The leftmost match is behind every place where there is none. -/
theorem search_append {r : Regex α N} {front s : List α}
    (h : ∀ t, t ≠ [] → t <:+ front → r.matchHere (t ++ s) = none) :
    r.search (front ++ s) = r.search s := by
  induction front with
  | nil => rfl
  | cons a front ih =>
      show (r.matchHere (a :: front ++ s)).or (r.search (front ++ s)) = _
      rw [h (a :: front) (List.cons_ne_nil _ _) (List.suffix_refl _), Option.none_or]
      exact ih (fun t hne hsuffix => h t hne (hsuffix.trans (List.suffix_cons _ _)))

theorem search_of_matchHere {r : Regex α N} {s : List α} {c : Captures α N}
    (h : r.matchHere s = some c) : r.search s = some c := by
  cases s with
  | nil => exact h
  | cons a t =>
      show (r.matchHere (a :: t)).or (r.search t) = some c
      rw [h, Option.some_or]

/-- What is found is matched at some place. -/
theorem exists_matchHere_of_search {r : Regex α N} {s : List α} {c : Captures α N}
    (h : r.search s = some c) : ∃ t, t <:+ s ∧ r.matchHere t = some c := by
  induction s with
  | nil => exact ⟨[], List.suffix_refl _, h⟩
  | cons a s ih =>
      rcases Option.or_eq_some_iff.mp h with hhere | ⟨-, hlater⟩
      · exact ⟨a :: s, List.suffix_refl _, hhere⟩
      · obtain ⟨t, hsuffix, hmatch⟩ := ih hlater
        exact ⟨t, hsuffix.trans (List.suffix_cons _ _), hmatch⟩

end Regex

/-! ## Delimited words -/

/-- A word without delimiters, up to the first delimiter, is cut off in one way. -/
theorem append_cons_inj_of_delimiter {α : Type} {q : α → Prop} {v v' p p' : List α} {s s' : α}
    (hv : ∀ a ∈ v, ¬ q a) (hv' : ∀ a ∈ v', ¬ q a) (hs : q s) (hs' : q s')
    (h : v ++ s :: p = v' ++ s' :: p') : v = v' ∧ s = s' ∧ p = p' := by
  induction v generalizing v' with
  | nil =>
      cases v' with
      | nil =>
          obtain ⟨rfl, rfl⟩ := List.cons.inj h
          exact ⟨rfl, rfl, rfl⟩
      | cons a v' =>
          rw [(List.cons.inj h).1] at hs
          exact absurd hs (hv' a (List.mem_cons_self ..))
  | cons a v ih =>
      cases v' with
      | nil =>
          rw [← (List.cons.inj h).1] at hs'
          exact absurd hs' (hv a (List.mem_cons_self ..))
      | cons a' v' =>
          obtain ⟨rfl, hrest⟩ := List.cons.inj h
          obtain ⟨rfl, hmore⟩ := ih (fun a' ha' => hv a' (List.mem_cons_of_mem _ ha'))
            (fun a' ha' => hv' a' (List.mem_cons_of_mem _ ha')) hrest
          exact ⟨rfl, hmore⟩

end ProgLib
