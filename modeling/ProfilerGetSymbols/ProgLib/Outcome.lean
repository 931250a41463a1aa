import Mathlib

/-! # Outcomes — calls that answer, fail, panic or do not finish

    A call of a program with panics has four ends: a value, an error that the
    caller sees, a panic at a named site, and — where a loop is run on fuel —
    no end yet.  `Outcome` is the monad of the four; only `ok` goes on.

    `Stateful` threads a state that survives an error: a method that fails
    leaves behind whatever it had already written. -/

namespace ProgLib

/-- `ok()` on a `Result` that is an answer. -/
theorem toOption_eq_some {ε α : Type} {x : Except ε α} {a : α} :
    x.toOption = some a ↔ x = .ok a := by
  cases x with
  | ok b =>
      constructor
      · exact fun h => by rw [Option.some.inj h]
      · exact fun h => by rw [Except.ok.inj h]; rfl
  | error e => exact ⟨(fun h => by cases h), fun h => by cases h⟩

/-- The end of a call: a value, an error, a panic or none within the fuel. -/
inductive Outcome (π ε α : Type) where
  | ok (value : α)
  | err (error : ε)
  | panic (site : π)
  | unfinished
  deriving DecidableEq, Repr

namespace Outcome

variable {π ε α β γ : Type}

/-- Go on with the value; every other end is the end of the whole call. -/
def bind (x : Outcome π ε α) (f : α → Outcome π ε β) : Outcome π ε β :=
  match x with
  | ok a => f a
  | err e => err e
  | panic p => panic p
  | unfinished => unfinished

instance : Monad (Outcome π ε) where
  pure := ok
  bind := bind

/-- A `Result` of a callee without panics. -/
def ofExcept : Except ε α → Outcome π ε α
  | .ok a => ok a
  | .error e => err e

/-- `unwrap` / `expect`: the value, or a panic at the named site. -/
def unwrap (site : π) : Option α → Outcome π ε α
  | some a => ok a
  | none => panic site

/-- `assert!`: go on, or panic at the named site. -/
def assert (site : π) (p : Prop) [Decidable p] : Outcome π ε Unit :=
  if p then ok () else panic site

/-- `map_err`. -/
def mapErr {ε' : Type} (f : ε → ε') : Outcome π ε α → Outcome π ε' α
  | ok a => ok a
  | err e => err (f e)
  | panic p => panic p
  | unfinished => unfinished

/-- A `Result` as a value, for a caller that looks at it. -/
def attempt {ε' : Type} : Outcome π ε α → Outcome π ε' (Except ε α)
  | ok a => ok (.ok a)
  | err e => ok (.error e)
  | panic p => panic p
  | unfinished => unfinished

@[simp] theorem pure_eq_ok (a : α) : (pure a : Outcome π ε α) = ok a := rfl

@[simp] theorem ok_bind (a : α) (f : α → Outcome π ε β) : (ok a >>= f) = f a := rfl

@[simp] theorem err_bind (e : ε) (f : α → Outcome π ε β) :
    ((err e : Outcome π ε α) >>= f) = err e := rfl

@[simp] theorem panic_bind (p : π) (f : α → Outcome π ε β) :
    ((panic p : Outcome π ε α) >>= f) = panic p := rfl

@[simp] theorem unfinished_bind (f : α → Outcome π ε β) :
    ((unfinished : Outcome π ε α) >>= f) = unfinished := rfl

instance : LawfulMonad (Outcome π ε) :=
  LawfulMonad.mk' (Outcome π ε)
    (by intro α x; cases x <;> rfl)
    (by intro α β x f; rfl)
    (by intro α β γ x f g; cases x <;> rfl)

/-- A call of two parts answers when both do. -/
theorem bind_eq_ok {x : Outcome π ε α} {f : α → Outcome π ε β} {b : β} :
    (x >>= f) = ok b ↔ ∃ a, x = ok a ∧ f a = ok b := by
  cases x with
  | ok a => simp
  | err e => simp
  | panic p => simp
  | unfinished => simp

/-- A second part that always answers leaves it to the first one. -/
theorem exists_bind_eq_ok {x : Outcome π ε α} {f : α → Outcome π ε β} (h : ∀ a, ∃ b, f a = ok b) :
    (∃ b, (x >>= f) = ok b) ↔ ∃ a, x = ok a := by
  simp only [bind_eq_ok]
  constructor
  · rintro ⟨b, a, hx, -⟩
    exact ⟨a, hx⟩
  · rintro ⟨a, hx⟩
    obtain ⟨b, hb⟩ := h a
    exact ⟨b, a, hx, hb⟩

theorem map_eq_ok {f : α → β} {x : Outcome π ε α} {b : β} :
    f <$> x = ok b ↔ ∃ a, x = ok a ∧ f a = b := by
  show (x >>= fun a => pure (f a)) = ok b ↔ _
  rw [bind_eq_ok]
  simp only [pure_eq_ok, ok.injEq]

/-- A call of two parts panics in the first part or in the second. -/
theorem bind_eq_panic {x : Outcome π ε α} {f : α → Outcome π ε β} {p : π} :
    (x >>= f) = panic p ↔ x = panic p ∨ ∃ a, x = ok a ∧ f a = panic p := by
  cases x with
  | ok a => simp
  | err e => simp
  | panic q => simp
  | unfinished => simp

/-- A call of two parts fails in the first part or in the second. -/
theorem bind_eq_err {x : Outcome π ε α} {f : α → Outcome π ε β} {e : ε} :
    (x >>= f) = err e ↔ x = err e ∨ ∃ a, x = ok a ∧ f a = err e := by
  cases x with
  | ok a => simp
  | err e' => simp
  | panic q => simp
  | unfinished => simp

/-- The second part only matters where the first one answers. -/
theorem bind_congr_of_ok {x : Outcome π ε α} {f g : α → Outcome π ε β}
    (h : ∀ a, x = ok a → f a = g a) : (x >>= f) = x >>= g := by
  cases x with
  | ok a => exact h a rfl
  | err e => rfl
  | panic p => rfl
  | unfinished => rfl

@[simp] theorem assert_eq_ok {site : π} {p : Prop} [Decidable p] {u : Unit} :
    (assert site p : Outcome π ε Unit) = ok u ↔ p := by
  unfold assert
  split <;> simp_all

@[simp] theorem unwrap_eq_ok {site : π} {x : Option α} {a : α} :
    (unwrap site x : Outcome π ε α) = ok a ↔ x = some a := by
  cases x <;> simp [unwrap]

@[simp] theorem ofExcept_eq_ok {x : Except ε α} {a : α} :
    (ofExcept x : Outcome π ε α) = ok a ↔ x = .ok a := by
  cases x <;> simp [ofExcept]

theorem ofExcept_eq_err {x : Except ε α} {e : ε} :
    (ofExcept x : Outcome π ε α) = err e ↔ x = .error e := by
  cases x <;> simp [ofExcept]

@[simp] theorem mapErr_eq_ok {ε' : Type} {f : ε → ε'} {x : Outcome π ε α} {a : α} :
    x.mapErr f = ok a ↔ x = ok a := by
  cases x <;> simp [mapErr]

theorem mapErr_eq_err {ε' : Type} {f : ε → ε'} {x : Outcome π ε α} {e' : ε'} :
    x.mapErr f = err e' ↔ ∃ e, x = err e ∧ f e = e' := by
  cases x <;> simp [mapErr]

/-- An attempt succeeds with what the call gives. -/
theorem attempt_eq_ok_ok {ε' : Type} {x : Outcome π ε α} {a : α} :
    (x.attempt : Outcome π ε' _) = ok (.ok a) ↔ x = ok a := by
  cases x <;> simp [attempt]

/-- An attempt fails with the error of the call. -/
theorem attempt_eq_ok_error {ε' : Type} {x : Outcome π ε α} {e : ε} :
    (x.attempt : Outcome π ε' _) = ok (.error e) ↔ x = err e := by
  cases x <;> simp [attempt]

/-- An attempt itself does not fail. -/
theorem attempt_ne_err {ε' : Type} {x : Outcome π ε α} {e : ε'} :
    (x.attempt : Outcome π ε' _) ≠ err e := by
  cases x <;> simp [attempt]

theorem assert_ne_err {site : π} {p : Prop} [Decidable p] (e : ε) :
    (assert site p : Outcome π ε Unit) ≠ err e := by
  unfold assert
  split <;> simp

theorem unwrap_ne_err {site : π} {x : Option α} (e : ε) :
    (unwrap site x : Outcome π ε α) ≠ err e := by
  cases x <;> simp [unwrap]

theorem ofExcept_ne_panic (x : Except ε α) (site : π) :
    (ofExcept x : Outcome π ε α) ≠ panic site := by
  cases x <;> simp [ofExcept]

@[simp] theorem ofExcept_mapError_eq_ok {ε' : Type} {f : ε → ε'} {x : Except ε α} {a : α} :
    (ofExcept (x.mapError f) : Outcome π ε' α) = ok a ↔ x = .ok a := by
  cases x <;> simp [ofExcept, Except.mapError]

theorem ofExcept_mapError_eq_err {ε' : Type} {f : ε → ε'} {x : Except ε α} {e' : ε'} :
    (ofExcept (x.mapError f) : Outcome π ε' α) = err e' ↔ ∃ e, x = .error e ∧ f e = e' := by
  cases x <;> simp [ofExcept, Except.mapError]

/-- A call whose answer is turned into another answers when it does. -/
theorem exists_bind_pure_eq_ok {x : Outcome π ε α} {f : α → β} :
    (∃ b, (x >>= fun a => pure (f a)) = ok b) ↔ ∃ a, x = ok a := by
  constructor
  · rintro ⟨b, hb⟩
    obtain ⟨a, ha, -⟩ := bind_eq_ok.mp hb
    exact ⟨a, ha⟩
  · rintro ⟨a, ha⟩
    exact ⟨f a, bind_eq_ok.mpr ⟨a, ha, rfl⟩⟩

/-- A call for each element: if every one answers, so does the whole. -/
theorem mapM_eq_ok {f : α → Outcome π ε β} {g : α → β} {l : List α}
    (h : ∀ a ∈ l, f a = ok (g a)) : l.mapM f = ok (l.map g) := by
  induction l with
  | nil => rfl
  | cons a l ih =>
      rw [List.mapM_cons, h a (List.mem_cons_self ..), ok_bind,
        ih (fun b hb => h b (List.mem_cons_of_mem _ hb)), ok_bind]
      rfl

/-- A call for each element answers when every one does. -/
theorem mapM_eq_ok_iff {f : α → Outcome π ε β} {l : List α} {l' : List β} :
    l.mapM f = ok l' ↔ List.Forall₂ (fun a b => f a = ok b) l l' := by
  induction l generalizing l' with
  | nil =>
      rw [List.mapM_nil, pure_eq_ok, ok.injEq, List.forall₂_nil_left_iff]
      exact eq_comm
  | cons a l ih =>
      rw [List.mapM_cons, bind_eq_ok, List.forall₂_cons_left_iff]
      constructor
      · rintro ⟨b, hb, hrest⟩
        obtain ⟨bs, hbs, heq⟩ := bind_eq_ok.mp hrest
        exact ⟨b, bs, hb, ih.mp hbs, (ok.inj heq).symm⟩
      · rintro ⟨b, bs, hb, hbs, rfl⟩
        exact ⟨b, hb, bind_eq_ok.mpr ⟨bs, ih.mpr hbs, rfl⟩⟩

/-- Each value is that of some element. -/
theorem exists_of_mem_mapM {f : α → Outcome π ε β} {l : List α} {l' : List β}
    (h : l.mapM f = ok l') {b : β} (hb : b ∈ l') : ∃ a ∈ l, f a = ok b := by
  rw [mapM_eq_ok_iff] at h
  induction h with
  | nil => cases hb
  | @cons a b' l l' hab hrest ih =>
      rcases List.mem_cons.mp hb with rfl | hmem
      · exact ⟨a, List.mem_cons_self .., hab⟩
      · obtain ⟨a', ha', hab'⟩ := ih hmem
        exact ⟨a', List.mem_cons_of_mem _ ha', hab'⟩

theorem exists_mapM_eq_ok_iff {f : α → Outcome π ε β} {l : List α} :
    (∃ l', l.mapM f = ok l') ↔ ∀ a ∈ l, ∃ b, f a = ok b := by
  induction l with
  | nil => simp
  | cons a l ih =>
      rw [List.forall_mem_cons, ← ih, List.mapM_cons]
      constructor
      · rintro ⟨l', h⟩
        obtain ⟨b, hb, hrest⟩ := bind_eq_ok.mp h
        obtain ⟨bs, hbs, -⟩ := bind_eq_ok.mp hrest
        exact ⟨⟨b, hb⟩, bs, hbs⟩
      · rintro ⟨⟨b, hb⟩, bs, hbs⟩
        exact ⟨b :: bs, bind_eq_ok.mpr ⟨b, hb, bind_eq_ok.mpr ⟨bs, hbs, rfl⟩⟩⟩

/-- Two calls with equal ends for each element have equal ends for the list. -/
theorem mapM_congr {f g : α → Outcome π ε β} {l : List α} (h : ∀ a ∈ l, f a = g a) :
    l.mapM f = l.mapM g := by
  induction l with
  | nil => rfl
  | cons a l ih =>
      rw [List.mapM_cons, List.mapM_cons, h a (List.mem_cons_self ..),
        ih (fun b hb => h b (List.mem_cons_of_mem _ hb))]

/-! ## Calls that settle -/

/-- The call does not run out of fuel, and a panic is at an admitted site. -/
def Settles (admitted : π → Prop) : Outcome π ε α → Prop
  | ok _ => True
  | err _ => True
  | panic site => admitted site
  | unfinished => False

variable {admitted : π → Prop}

@[simp] theorem settles_ok (a : α) : Settles admitted (ok a : Outcome π ε α) := trivial

@[simp] theorem settles_err (e : ε) : Settles admitted (err e : Outcome π ε α) := trivial

theorem settles_ofExcept (x : Except ε α) : Settles admitted (ofExcept x : Outcome π ε α) := by
  cases x with
  | ok a => exact trivial
  | error e => exact trivial

theorem settles_unwrap {site : π} (h : admitted site) (x : Option α) :
    Settles admitted (unwrap site x : Outcome π ε α) := by
  cases x with
  | none => exact h
  | some a => exact trivial

theorem settles_assert {site : π} (h : admitted site) (p : Prop) [Decidable p] :
    Settles admitted (assert site p : Outcome π ε Unit) := by
  rw [assert]
  split
  · exact trivial
  · exact h

theorem Settles.ne_unfinished {x : Outcome π ε α} (h : Settles admitted x) : x ≠ unfinished := by
  rintro rfl
  exact h

/-- A sequence settles when its parts do. -/
theorem Settles.bind {x : Outcome π ε α} {f : α → Outcome π ε β} (hx : Settles admitted x)
    (hf : ∀ a, x = ok a → Settles admitted (f a)) : Settles admitted (x >>= f) := by
  cases x with
  | ok a => exact hf a rfl
  | err e => exact trivial
  | panic site => exact hx
  | unfinished => exact hx

theorem Settles.foldlM {f : β → α → Outcome π ε β} {l : List α}
    (h : ∀ b, ∀ a ∈ l, Settles admitted (f b a)) (b : β) : Settles admitted (l.foldlM f b) := by
  induction l generalizing b with
  | nil => exact trivial
  | cons a l ih =>
      rw [List.foldlM_cons]
      refine (h b a (List.mem_cons_self ..)).bind (fun b' _ => ?_)
      exact ih (fun b' a' ha' => h b' a' (List.mem_cons_of_mem _ ha')) b'

theorem Settles.mapM {f : α → Outcome π ε β} {l : List α} (h : ∀ a ∈ l, Settles admitted (f a)) :
    Settles admitted (l.mapM f) := by
  induction l with
  | nil => exact trivial
  | cons a l ih =>
      rw [List.mapM_cons]
      refine (h a (List.mem_cons_self ..)).bind (fun b _ => ?_)
      exact (ih (fun a' ha' => h a' (List.mem_cons_of_mem _ ha'))).bind (fun _ _ => trivial)

/-! ## What an outcome leaves behind -/

/-- **PARTIAL CORRECTNESS**: an answer has the property, and a panic is at an
    admitted site.  Nothing is said of errors and of calls that do not end. -/
def Meets (admitted : π → Prop) (post : α → Prop) : Outcome π ε α → Prop
  | ok a => post a
  | err _ => True
  | panic site => admitted site
  | unfinished => True

variable {post : α → Prop} {post' : β → Prop}

theorem Meets.of_ok {x : Outcome π ε α} (h : Meets admitted post x) {a : α} (hx : x = ok a) :
    post a := by
  rw [hx] at h
  exact h

theorem Meets.of_panic {x : Outcome π ε α} (h : Meets admitted post x) {site : π}
    (hx : x = panic site) : admitted site := by
  rw [hx] at h
  exact h

/-- The rule of sequences. -/
theorem Meets.bind {x : Outcome π ε α} {f : α → Outcome π ε β} (hx : Meets admitted post x)
    (hf : ∀ a, x = ok a → post a → Meets admitted post' (f a)) : Meets admitted post' (x >>= f) := by
  cases x with
  | ok a => exact hf a rfl hx
  | err e => exact trivial
  | panic site => exact hx
  | unfinished => exact trivial

/-- The rule of consequence. -/
theorem Meets.imp {post₂ : α → Prop} {x : Outcome π ε α} (hx : Meets admitted post x)
    (himp : ∀ a, x = ok a → post a → post₂ a) : Meets admitted post₂ x := by
  cases x with
  | ok a => exact himp a rfl hx
  | err e => exact trivial
  | panic site => exact hx
  | unfinished => exact trivial

/-- A call that settles meets what its answers have. -/
theorem Settles.meets {x : Outcome π ε α} (hx : Settles admitted x)
    (hpost : ∀ a, x = ok a → post a) : Meets admitted post x := by
  cases x with
  | ok a => exact hpost a rfl
  | err e => exact trivial
  | panic site => exact hx
  | unfinished => exact trivial

theorem meets_ofExcept {x : Except ε α} (h : ∀ a, x = .ok a → post a) :
    Meets admitted post (ofExcept x : Outcome π ε α) := by
  cases x with
  | ok a => exact h a rfl
  | error e => exact trivial

theorem meets_unwrap {site : π} (hsite : admitted site) {x : Option α}
    (h : ∀ a, x = some a → post a) : Meets admitted post (unwrap site x : Outcome π ε α) := by
  cases x with
  | some a => exact h a rfl
  | none => exact hsite

/-- Only errors are mapped. -/
theorem Meets.mapErr {ε' : Type} {x : Outcome π ε α} (hx : Meets admitted post x) (f : ε → ε') :
    Meets admitted post (x.mapErr f) := by
  cases x with
  | ok a => exact hx
  | err e => exact trivial
  | panic site => exact hx
  | unfinished => exact trivial

/-- An attempt turns the error into an answer. -/
theorem Meets.attempt {ε' : Type} {x : Outcome π ε α} (hx : Meets admitted post x) :
    Meets admitted (fun answer => ∀ a, answer = .ok a → post a)
      (x.attempt : Outcome π ε' (Except ε α)) := by
  cases x with
  | ok a => exact fun b hb => Except.ok.inj hb ▸ hx
  | err e => exact fun b hb => by cases hb
  | panic site => exact hx
  | unfinished => exact trivial

/-! ## Two calls -/

/-- Two calls agree: both answer, and the answers are related, or neither does. -/
inductive Agree (r : α → β → Prop) (x : Outcome π ε α) (y : Outcome π ε β) : Prop
  | answers {a : α} {b : β} : x = ok a → y = ok b → r a b → Agree r x y
  | fails : (∀ a, x ≠ ok a) → (∀ b, y ≠ ok b) → Agree r x y

variable {α' β' : Type} {r : α → β → Prop} {r' : α' → β' → Prop}

theorem Agree.refl {r : α → α → Prop} (hr : ∀ a, r a a) (x : Outcome π ε α) : Agree r x x := by
  cases x with
  | ok a => exact .answers rfl rfl (hr a)
  | err e => exact .fails (fun _ h => by cases h) (fun _ h => by cases h)
  | panic site => exact .fails (fun _ h => by cases h) (fun _ h => by cases h)
  | unfinished => exact .fails (fun _ h => by cases h) (fun _ h => by cases h)

/-- Each call answers if the other one does, and the answers are related. -/
theorem Agree.of_imp {x : Outcome π ε α} {y : Outcome π ε β}
    (hxy : ∀ a, x = ok a → ∃ b, y = ok b ∧ r a b) (hyx : ∀ b, y = ok b → ∃ a, x = ok a) :
    Agree r x y := by
  by_cases h : ∃ a, x = ok a
  · obtain ⟨a, ha⟩ := h
    obtain ⟨b, hb, hab⟩ := hxy a ha
    exact .answers ha hb hab
  · exact .fails (fun a ha => h ⟨a, ha⟩) (fun b hb => h (hyx b hb))

/-- The rule of sequences. -/
theorem Agree.bind {x : Outcome π ε α} {y : Outcome π ε β} {f : α → Outcome π ε α'}
    {g : β → Outcome π ε β'} (h : Agree r x y)
    (hfg : ∀ a b, x = ok a → y = ok b → r a b → Agree r' (f a) (g b)) :
    Agree r' (x >>= f) (y >>= g) := by
  cases h with
  | @answers a b hx hy hab =>
      rw [hx, hy]
      exact hfg a b hx hy hab
  | fails hx hy =>
      refine .fails (fun a' ha' => ?_) (fun b' hb' => ?_)
      · obtain ⟨a, ha, -⟩ := bind_eq_ok.mp ha'
        exact hx a ha
      · obtain ⟨b, hb, -⟩ := bind_eq_ok.mp hb'
        exact hy b hb

/-- Answers of calls that agree are related. -/
theorem Agree.of_eq_ok {x : Outcome π ε α} {y : Outcome π ε β} (h : Agree r x y) {a : α} {b : β}
    (hx : x = ok a) (hy : y = ok b) : r a b := by
  cases h with
  | answers hx' hy' hr =>
      obtain rfl := ok.inj (hx.symm.trans hx')
      obtain rfl := ok.inj (hy.symm.trans hy')
      exact hr
  | fails hno => exact absurd hx (hno a)

theorem Agree.trans {r : α → α → Prop} (hr : ∀ a b c, r a b → r b c → r a c)
    {x y z : Outcome π ε α} (hxy : Agree r x y) (hyz : Agree r y z) : Agree r x z := by
  cases hxy with
  | @answers a b hx hy hab =>
      cases hyz with
      | @answers b' c hy' hz hbc =>
          rw [hy, ok.injEq] at hy'
          subst hy'
          exact .answers hx hz (hr a b c hab hbc)
      | fails hy' => exact absurd hy (hy' b)
  | fails hx hy =>
      cases hyz with
      | @answers b c hy' => exact absurd hy' (hy b)
      | fails _ hz => exact .fails hx hz

/-- Steps that agree on related states agree as a loop. -/
theorem Agree.foldlM {r : β → β → Prop} {f : β → α → Outcome π ε β}
    (hstep : ∀ s s' a, r s s' → Agree r (f s a) (f s' a)) (l : List α) {s s' : β} (hs : r s s') :
    Agree r (l.foldlM f s) (l.foldlM f s') := by
  induction l generalizing s s' with
  | nil => exact .answers rfl rfl hs
  | cons a l ih =>
      rw [List.foldlM_cons, List.foldlM_cons]
      exact (hstep s s' a hs).bind (fun _ _ _ _ h => ih h)

/-- **STEPS THAT COMMUTE** make a loop whose order does not show. -/
theorem Agree.foldlM_perm {r : β → β → Prop} {f : β → α → Outcome π ε β}
    (hrefl : ∀ s, r s s) (htrans : ∀ s s' s'', r s s' → r s' s'' → r s s'')
    (hstep : ∀ s s' a, r s s' → Agree r (f s a) (f s' a))
    (hswap : ∀ s a b, Agree r (f s a >>= fun t => f t b) (f s b >>= fun t => f t a))
    {l l' : List α} (h : l.Perm l') {s s' : β} (hs : r s s') :
    Agree r (l.foldlM f s) (l'.foldlM f s') := by
  induction h generalizing s s' with
  | nil => exact .answers rfl rfl hs
  | cons a _ ih =>
      rw [List.foldlM_cons, List.foldlM_cons]
      exact (hstep s s' a hs).bind (fun _ _ _ _ h => ih h)
  | swap a b l =>
      have htwo : Agree r (f s b >>= fun t => f t a) (f s' a >>= fun t => f t b) := by
        refine (hswap s b a).trans htrans ?_
        exact (hstep s s' a hs).bind (fun _ _ _ _ h => hstep _ _ b h)
      simp only [List.foldlM_cons, ← bind_assoc]
      exact htwo.bind (fun _ _ _ _ h => .foldlM hstep l h)
  | trans _ _ ih₁ ih₂ => exact (ih₁ hs).trans htrans (ih₂ (hrefl s'))

/-- The values of reordered elements, reordered. -/
theorem mapM_perm {f : α → Outcome π ε β} {l l' : List α} (h : l.Perm l') {bs : List β}
    (hbs : l.mapM f = ok bs) : ∃ bs', l'.mapM f = ok bs' ∧ bs.Perm bs' := by
  rw [mapM_eq_ok_iff] at hbs
  obtain ⟨bs', hbs', hperm⟩ := (List.perm_comp_forall₂ h.symm hbs)
  exact ⟨bs', mapM_eq_ok_iff.mpr hbs', hperm.symm⟩

end Outcome

/-- A method over a state that outlives its error. -/
def Stateful (σ π ε α : Type) : Type := σ → Outcome π ε α × σ

namespace Stateful

variable {σ π ε α β : Type}

/-- Run the method in a state. -/
def run (m : Stateful σ π ε α) (s : σ) : Outcome π ε α × σ := m s

/-- Go on with the value in the state left behind. -/
def bind (m : Stateful σ π ε α) (f : α → Stateful σ π ε β) : Stateful σ π ε β :=
  fun s => match m s with
    | (.ok a, s') => f a s'
    | (.err e, s') => (.err e, s')
    | (.panic p, s') => (.panic p, s')
    | (.unfinished, s') => (.unfinished, s')

instance : Monad (Stateful σ π ε) where
  pure a := fun s => (.ok a, s)
  bind := bind

/-- The state itself. -/
def get : Stateful σ π ε σ := fun s => (.ok s, s)

/-- Replace the state. -/
def set (s : σ) : Stateful σ π ε Unit := fun _ => (.ok (), s)

/-- A call that does not touch the state. -/
def lift (x : Outcome π ε α) : Stateful σ π ε α := fun s => (x, s)

@[simp] theorem run_pure (a : α) (s : σ) :
    (pure a : Stateful σ π ε α).run s = (.ok a, s) := rfl

@[simp] theorem run_get (s : σ) : (get : Stateful σ π ε σ).run s = (.ok s, s) := rfl

@[simp] theorem run_set (s s' : σ) :
    (set s' : Stateful σ π ε Unit).run s = (.ok (), s') := rfl

@[simp] theorem run_lift (x : Outcome π ε α) (s : σ) :
    (lift x : Stateful σ π ε α).run s = (x, s) := rfl

-- By `funext`: as rules by `rfl` these two would leave the kernel to compare whole calls.
theorem lift_ok (a : α) : (lift (.ok a) : Stateful σ π ε α) = pure a := by
  funext s
  rfl

protected theorem pure_bind (a : α) (f : α → Stateful σ π ε β) : (pure a >>= f) = f a := by
  funext s
  rfl

/-- Running a sequence: the second part runs only after an `ok`. -/
theorem run_bind (m : Stateful σ π ε α) (f : α → Stateful σ π ε β) (s : σ) :
    (m >>= f).run s = match m.run s with
      | (.ok a, s') => (f a).run s'
      | (.err e, s') => (.err e, s')
      | (.panic p, s') => (.panic p, s')
      | (.unfinished, s') => (.unfinished, s') := rfl

end Stateful

end ProgLib
