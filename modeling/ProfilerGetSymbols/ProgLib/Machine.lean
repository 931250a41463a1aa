import ProfilerGetSymbols.ProgLib.Outcome

/-! # Machines — loops as step functions of a state and of the outside

    A loop that asks the outside at each round is a step function: it stops, goes
    on in a new state, or ends with an error or a panic.  What the outside
    answers is an argument of the step, another one at each step of a run.

    `Reaches` is any number of steps under any admitted answers.  An invariant
    of one step is an invariant of all that is reached, and a run that ends has
    reached the state it ends in. -/

namespace ProgLib

/-- A step: the end of the loop or the next state. -/
abbrev StepFunction (Env σ π ε : Type) := Env → σ → Outcome π ε (Option σ)

namespace StepFunction

variable {Env σ π ε : Type}

/-- Run for a number of steps at most, the n-th step under the n-th answers. -/
def run (step : StepFunction Env σ π ε) : (Nat → Env) → Nat → σ → Outcome π ε σ
  | _, 0, _ => .unfinished
  | envs, fuel + 1, s => do
      match ← step (envs 0) s with
      | none => return s
      | some s' => run step (fun n => envs (n + 1)) fuel s'

/-- The states that some steps lead to under admitted answers. -/
inductive Reaches (step : StepFunction Env σ π ε) (admitted : Env → Prop) (s : σ) : σ → Prop
  | refl : Reaches step admitted s s
  | tail {s' s'' : σ} {env : Env} : Reaches step admitted s s' → admitted env →
      step env s' = .ok (some s'') → Reaches step admitted s s''

/-- The states that a run comes through. -/
inductive Visits (step : StepFunction Env σ π ε) : (Nat → Env) → σ → σ → Prop
  | here {envs : Nat → Env} {s : σ} : Visits step envs s s
  | later {envs : Nat → Env} {s s' s'' : σ} : step (envs 0) s = .ok (some s') →
      Visits step (fun n => envs (n + 1)) s' s'' → Visits step envs s s''

variable {step : StepFunction Env σ π ε} {admitted : Env → Prop}

/-- **INVARIANTS**: what every step keeps, every reached state has. -/
theorem Reaches.invariant {I : σ → Prop} {s s' : σ} (h : Reaches step admitted s s') (hs : I s)
    (hstep : ∀ env s s', admitted env → I s → step env s = .ok (some s') → I s') : I s' := by
  induction h with
  | refl => exact hs
  | tail _ henv hnext ih => exact hstep _ _ _ henv ih hnext

theorem Reaches.head {s s' s'' : σ} {env : Env} (henv : admitted env)
    (hstep : step env s = .ok (some s')) (h : Reaches step admitted s' s'') :
    Reaches step admitted s s'' := by
  induction h with
  | refl => exact .tail .refl henv hstep
  | tail _ henv' hnext ih => exact .tail ih henv' hnext

variable (admitted) in
/-- How a run that finishes ends: in a state that it reached, by the answer of
    the step there. -/
theorem run_cases {envs : Nat → Env} (henvs : ∀ n, admitted (envs n)) (fuel : Nat) (s : σ) :
    step.run envs fuel s = .unfinished ∨
      ∃ s' n, Reaches step admitted s s' ∧
        ((step (envs n) s' = .ok none ∧ step.run envs fuel s = .ok s') ∨
          (∃ e, step (envs n) s' = .err e ∧ step.run envs fuel s = .err e) ∨
          (∃ site, step (envs n) s' = .panic site ∧ step.run envs fuel s = .panic site)) := by
  induction fuel generalizing envs s with
  | zero => exact Or.inl rfl
  | succ fuel ih =>
      rw [run]
      cases hstep : step (envs 0) s with
      | ok next =>
          cases next with
          | none => exact Or.inr ⟨s, 0, .refl, Or.inl ⟨hstep, rfl⟩⟩
          | some s' =>
              rcases ih (fun n => henvs (n + 1)) s'
                with hun | ⟨t, n, ht, hend⟩
              · exact Or.inl hun
              · exact Or.inr ⟨t, n + 1, ht.head (henvs 0) hstep, hend⟩
      | err e => exact Or.inr ⟨s, 0, .refl, Or.inr (Or.inl ⟨e, hstep, rfl⟩)⟩
      | panic site => exact Or.inr ⟨s, 0, .refl, Or.inr (Or.inr ⟨site, hstep, rfl⟩)⟩
      | unfinished => exact Or.inl rfl

/-- A run that finishes has reached the state it ends in. -/
theorem reaches_of_run_eq_ok {envs : Nat → Env} (henvs : ∀ n, admitted (envs n)) {fuel : Nat}
    {s s' : σ} (h : step.run envs fuel s = .ok s') : Reaches step admitted s s' := by
  rcases run_cases admitted henvs fuel s with hun | ⟨t, n, ht, hend⟩
  · cases hun.symm.trans h
  · rcases hend with ⟨-, hrun⟩ | ⟨e, -, hrun⟩ | ⟨site, -, hrun⟩
    · obtain rfl := Outcome.ok.inj (hrun.symm.trans h)
      exact ht
    · cases hrun.symm.trans h
    · cases hrun.symm.trans h

/-- What every step meets, every run meets. -/
theorem run_meets {I : σ → Prop} {sites : π → Prop}
    (hstep : ∀ env s, I s → (step env s).Meets sites (fun next => ∀ s', next = some s' → I s'))
    (envs : Nat → Env) (fuel : Nat) {s : σ} (hs : I s) : (step.run envs fuel s).Meets sites I := by
  induction fuel generalizing envs s with
  | zero => exact trivial
  | succ fuel ih =>
      refine (hstep (envs 0) s hs).bind (fun next _ hnext => ?_)
      cases next with
      | none => exact hs
      | some s' => exact ih _ (hnext s' rfl)

/-- **TERMINATION**: where every step makes a measure smaller, the measure is fuel enough. -/
theorem run_ne_unfinished {I : σ → Prop} {measure : σ → Nat}
    (hunfinished : ∀ env s, step env s ≠ .unfinished)
    (hstep : ∀ env s s', admitted env → I s → step env s = .ok (some s') →
      I s' ∧ measure s' < measure s)
    {envs : Nat → Env} (henvs : ∀ n, admitted (envs n)) {fuel : Nat} {s : σ} (hs : I s)
    (hfuel : measure s < fuel) : step.run envs fuel s ≠ .unfinished := by
  induction fuel generalizing envs s with
  | zero => exact absurd hfuel (Nat.not_lt_zero _)
  | succ fuel ih =>
      rw [run]
      cases hnext : step (envs 0) s with
      | ok next =>
          cases next with
          | none => exact fun h => by cases h
          | some s' =>
              obtain ⟨hs', hlt⟩ := hstep _ _ _ (henvs 0) hs hnext
              exact ih (fun n => henvs (n + 1)) hs' (by omega)
      | err e => exact fun h => by cases h
      | panic site => exact fun h => by cases h
      | unfinished => exact absurd hnext (hunfinished _ _)

/-- **NO END**: where every step leads to one that goes on, no fuel is enough. -/
theorem run_eq_unfinished {I : σ → Prop}
    (hstep : ∀ env s, admitted env → I s → ∃ s', step env s = .ok (some s') ∧ I s')
    {envs : Nat → Env} (henvs : ∀ n, admitted (envs n)) {s : σ} (hs : I s) (fuel : Nat) :
    step.run envs fuel s = .unfinished := by
  induction fuel generalizing envs s with
  | zero => rfl
  | succ fuel ih =>
      obtain ⟨s', hnext, hs'⟩ := hstep _ s (henvs 0) hs
      rw [run, hnext]
      exact ih (fun n => henvs (n + 1)) hs'

/-! ## Runs that all answer -/

/-- Every run under admitted answers ends in a state. -/
def Answers (step : StepFunction Env σ π ε) (admitted : Env → Prop) (s : σ) : Prop :=
  ∀ envs : Nat → Env, (∀ n, admitted (envs n)) → ∃ fuel s', step.run envs fuel s = .ok s'

/-- One state comes after another. -/
def Next (step : StepFunction Env σ π ε) (admitted : Env → Prop) (s' s : σ) : Prop :=
  ∃ env, admitted env ∧ step env s = .ok (some s')

/-- One answer, and others after it. -/
def answersFrom (env : Env) (envs : Nat → Env) : Nat → Env
  | 0 => env
  | n + 1 => envs n

/-- A run is its first step, and the run from there. -/
theorem run_answersFrom {env : Env} {s s' : σ} (h : step env s = .ok (some s'))
    (envs : Nat → Env) (fuel : Nat) :
    step.run (answersFrom env envs) (fuel + 1) s = step.run envs fuel s' := by
  rw [run]
  show (step env s >>= _) = _
  rw [h]
  rfl

/-- Where every run answers, every step does, and every run from the next state. -/
theorem Answers.head {s : σ} (h : Answers step admitted s) {env : Env} (henv : admitted env) :
    step env s = .ok none ∨ ∃ s', step env s = .ok (some s') ∧ Answers step admitted s' := by
  have hadmitted : ∀ envs : Nat → Env, (∀ n, admitted (envs n)) →
      ∀ n, admitted (answersFrom env envs n) := by
    intro envs henvs n
    cases n with
    | zero => exact henv
    | succ n => exact henvs n
  obtain ⟨fuel, t, ht⟩ := h (answersFrom env fun _ => env) (hadmitted _ fun _ => henv)
  cases fuel with
  | zero => cases ht
  | succ fuel =>
      rw [run] at ht
      obtain ⟨next, hnext, -⟩ := Outcome.bind_eq_ok.mp ht
      have hnext : step env s = .ok next := hnext
      cases next with
      | none => exact Or.inl hnext
      | some s' =>
          refine Or.inr ⟨s', hnext, ?_⟩
          intro envs henvs
          obtain ⟨fuel, t, ht⟩ := h (answersFrom env envs) (hadmitted envs henvs)
          cases fuel with
          | zero => cases ht
          | succ fuel =>
              rw [run_answersFrom hnext] at ht
              exact ⟨fuel, t, ht⟩

/-- **NO ENDLESS CHAIN**: where every run answers, the steps come to an end. -/
theorem Answers.acc {s : σ} (h : Answers step admitted s) : Acc (Next step admitted) s := by
  by_contra hacc
  obtain ⟨states, hstart, hnext⟩ := not_acc_iff_exists_descending_chain.mp hacc
  choose envs henvs hsteps using hnext
  -- the run under these answers follows the chain for ever
  have hrun : ∀ fuel n, step.run (fun k => envs (n + k)) fuel (states n) = .unfinished := by
    intro fuel
    induction fuel with
    | zero => exact fun _ => rfl
    | succ fuel ih =>
        intro n
        rw [run, Nat.add_zero, hsteps n, Outcome.ok_bind]
        have hshift : (fun k => envs (n + (k + 1))) = fun k => envs (n + 1 + k) := by
          funext k
          rw [Nat.add_assoc, Nat.add_comm 1 k]
        show step.run (fun k => envs (n + (k + 1))) fuel (states (n + 1)) = .unfinished
        rw [hshift]
        exact ih (n + 1)
  obtain ⟨fuel, t, ht⟩ := h (fun k => envs (0 + k)) (fun k => henvs _)
  rw [← hstart, hrun fuel 0] at ht
  cases ht

end StepFunction

/-! ## Sequences of inputs -/

section Along

variable {σ ι : Type} {next : σ → ι → σ} {P Q : σ → ι → Prop} {I : σ → Prop}

/-- Every input of a sequence has a property in the state it comes to. -/
def Along (next : σ → ι → σ) (P : σ → ι → Prop) : σ → List ι → Prop
  | _, [] => True
  | s, i :: rest => P s i ∧ Along next P (next s i) rest

/-- Two properties that agree where an invariant holds, and keep it, agree along
    every sequence. -/
theorem along_iff {inputs : List ι} (hiff : ∀ s, ∀ i ∈ inputs, I s → (P s i ↔ Q s i))
    (hkeep : ∀ s, ∀ i ∈ inputs, I s → Q s i → I (next s i)) {s : σ} (hs : I s) :
    Along next P s inputs ↔ Along next Q s inputs := by
  induction inputs generalizing s with
  | nil => exact Iff.rfl
  | cons i rest ih =>
      have hhead := hiff s i (List.mem_cons_self ..) hs
      have htail : ∀ s', I s' → (Along next P s' rest ↔ Along next Q s' rest) := fun s' hs' =>
        ih (fun t j hj => hiff t j (List.mem_cons_of_mem _ hj))
          (fun t j hj => hkeep t j (List.mem_cons_of_mem _ hj)) hs'
      constructor
      · rintro ⟨hp, hrest⟩
        have hq := hhead.mp hp
        exact ⟨hq, (htail _ (hkeep s i (List.mem_cons_self ..) hs hq)).mp hrest⟩
      · rintro ⟨hq, hrest⟩
        exact ⟨hhead.mpr hq, (htail _ (hkeep s i (List.mem_cons_self ..) hs hq)).mpr hrest⟩

end Along

end ProgLib
