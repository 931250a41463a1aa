import ProfilerGetSymbols.Demangle

/-! # OCaml names — what the demangler makes of an escape

    A symbol of OCaml is `caml` and a name in which `__` stands for a dot and
    `$` with two hexadecimal digits for a character.  The loop looks at the two
    bytes after a `$`, and three things go wrong there: the bytes may end inside
    a character, which panics; where they are no number the `$` is dropped; and
    `+` before a digit is a number too.

    Every `$` of the name is looked at, since what an escape skips is never one.
    So each property holds exactly if the text after every `$` is as it needs it
    to be, and an induction over the loop is enough. -/

namespace ProfilerGetSymbols.Demangle

open ProgLib

variable {ε : Type}

/-! ## The text after a dollar sign -/

/-- The text after every `$`. -/
def AfterDollars (P : List Char → Prop) (chars : List Char) : Prop :=
  ∀ before rest, chars = before ++ '$' :: rest → P rest

section AfterDollars

variable {P : List Char → Prop}

theorem afterDollars_nil : AfterDollars P [] := by
  intro before rest h
  exact absurd h.symm (by simp)

theorem afterDollars_cons {c : Char} {chars : List Char} :
    AfterDollars P (c :: chars) ↔ (c = '$' → P chars) ∧ AfterDollars P chars := by
  constructor
  · intro h
    refine ⟨?_, fun before rest hsplit => h (c :: before) rest (by rw [hsplit]; rfl)⟩
    rintro rfl
    exact h [] chars rfl
  · rintro ⟨hfirst, hrest⟩ before rest hsplit
    rcases List.cons_eq_append_iff.mp hsplit with ⟨rfl, heq⟩ | ⟨before', rfl, hchars⟩
    · rw [List.cons.injEq] at heq
      rw [heq.2]
      exact hfirst heq.1.symm
    · exact hrest before' rest hchars

theorem afterDollars_dollar {chars : List Char} :
    AfterDollars P ('$' :: chars) ↔ P chars ∧ AfterDollars P chars := by
  rw [afterDollars_cons]
  exact and_congr_left fun _ => ⟨fun h => h rfl, fun h _ => h⟩

theorem afterDollars_of_ne {c : Char} {chars : List Char} (h : c ≠ '$') :
    AfterDollars P (c :: chars) ↔ AfterDollars P chars := by
  rw [afterDollars_cons]
  exact and_iff_right fun heq => absurd heq h

end AfterDollars

theorem ne_dollar_of_hexDigit {c : Char} {n : Nat} (h : hexDigit c = some n) : c ≠ '$' := by
  rintro rfl
  cases h

theorem ne_underscore_of_hexDigit {c : Char} {n : Nat} (h : hexDigit c = some n) : c ≠ '_' := by
  rintro rfl
  cases h

/-- What two characters are that the number parser takes. -/
theorem u8FromHex_eq_some {c₁ c₂ : Char} {n : Nat} (h : u8FromHex c₁ c₂ = some n) :
    (hexDigit c₂).isSome ∧ (c₁ = '+' ∨ (hexDigit c₁).isSome) := by
  rw [u8FromHex, Option.bind_eq_bind, Option.bind_eq_some_iff] at h
  obtain ⟨low, hlow, h⟩ := h
  refine ⟨by rw [hlow]; rfl, ?_⟩
  by_cases hplus : c₁ = '+'
  · exact Or.inl hplus
  · rw [if_neg hplus, Option.bind_eq_some_iff] at h
    obtain ⟨high, hhigh, -⟩ := h
    exact Or.inr (by rw [hhigh]; rfl)

theorem ne_dollar_of_u8FromHex {c₁ c₂ : Char} {n : Nat} (h : u8FromHex c₁ c₂ = some n) :
    c₁ ≠ '$' ∧ c₂ ≠ '$' := by
  obtain ⟨hlow, hhigh⟩ := u8FromHex_eq_some h
  obtain ⟨low, hlow⟩ := Option.isSome_iff_exists.mp hlow
  refine ⟨?_, ne_dollar_of_hexDigit hlow⟩
  rcases hhigh with rfl | hhigh
  · decide
  · obtain ⟨high, hhigh⟩ := Option.isSome_iff_exists.mp hhigh
    exact ne_dollar_of_hexDigit hhigh

/-! ## Slices on character boundaries -/

/-- `str::len`: the bytes of a text. -/
def byteLen (chars : List Char) : Nat := (chars.map Char.utf8Size).sum

/-- `&rest[..2]` is taken, and ends inside a character. -/
def SlicesOff (rest : List Char) : Prop :=
  2 ≤ byteLen rest ∧ ∀ taken left, rest = taken ++ left → byteLen taken ≠ 2

theorem slicesOff_cons_cons {c₁ c₂ : Char} {rest : List Char} :
    SlicesOff (c₁ :: c₂ :: rest) ↔ 3 ≤ c₁.utf8Size ∨ (c₁.utf8Size = 1 ∧ c₂.utf8Size ≠ 1) := by
  have h₁ := c₁.utf8Size_pos
  have h₂ := c₂.utf8Size_pos
  constructor
  · rintro ⟨-, hoff⟩
    have hone := hoff [c₁] (c₂ :: rest) rfl
    have htwo := hoff [c₁, c₂] rest rfl
    simp only [byteLen, List.map_cons, List.map_nil, List.sum_cons, List.sum_nil] at hone htwo
    omega
  · intro h
    refine ⟨?_, ?_⟩
    · simp only [byteLen, List.map_cons, List.sum_cons]
      omega
    · intro taken left hsplit
      rcases taken with _ | ⟨d₁, _ | ⟨d₂, taken⟩⟩
      · decide
      · obtain ⟨rfl, -⟩ := List.cons.inj hsplit
        simp only [byteLen, List.map_cons, List.map_nil, List.sum_cons, List.sum_nil]
        omega
      · obtain ⟨rfl, htail⟩ := List.cons.inj hsplit
        obtain ⟨rfl, -⟩ := List.cons.inj htail
        simp only [byteLen, List.map_cons, List.sum_cons]
        omega

theorem slicesOff_singleton {c : Char} : SlicesOff [c] ↔ 3 ≤ c.utf8Size := by
  have hpos := c.utf8Size_pos
  constructor
  · rintro ⟨hlen, hoff⟩
    have hone := hoff [c] [] rfl
    simp only [byteLen, List.map_cons, List.map_nil, List.sum_cons, List.sum_nil] at hlen hone
    omega
  · intro h
    refine ⟨?_, ?_⟩
    · simp only [byteLen, List.map_cons, List.map_nil, List.sum_cons, List.sum_nil]
      omega
    · intro taken left hsplit
      rcases taken with _ | ⟨d, taken⟩
      · decide
      · obtain ⟨rfl, -⟩ := List.cons.inj hsplit
        simp only [byteLen, List.map_cons, List.sum_cons]
        omega

theorem not_slicesOff_nil : ¬ SlicesOff [] := by
  rintro ⟨hlen, -⟩
  exact absurd hlen (by decide)

/-- The second byte does not end a character: the first character is of three bytes or
    more, or it is of one byte and the second one is not. -/
def EndsInside : List Char → Prop
  | [] => False
  | [c] => 3 ≤ c.utf8Size
  | c₁ :: c₂ :: _ => 3 ≤ c₁.utf8Size ∨ (c₁.utf8Size = 1 ∧ c₂.utf8Size ≠ 1)

theorem slicesOff_iff (rest : List Char) : SlicesOff rest ↔ EndsInside rest := by
  rcases rest with _ | ⟨c₁, _ | ⟨c₂, rest⟩⟩
  · exact iff_of_false not_slicesOff_nil id
  · exact slicesOff_singleton
  · exact slicesOff_cons_cons

/-- **WHICH NAMES THE LOOP READS TO THE END**: those whose slices are on boundaries. -/
theorem decodeOcaml_returns_iff (chars : List Char) :
    (∃ decoded, (decodeOcaml chars : Call ε _) = .ok decoded) ↔
      AfterDollars (fun rest => ¬ SlicesOff rest) chars := by
  have hpush : ∀ (c : Char) (rest : List Char),
      (∃ decoded, (do return c :: (← decodeOcaml rest) : Call ε _) = .ok decoded) ↔
        ∃ decoded, (decodeOcaml rest : Call ε _) = .ok decoded :=
    fun _ _ => Outcome.exists_bind_eq_ok fun _ => ⟨_, rfl⟩
  fun_induction decodeOcaml chars with
  | case1 => exact iff_of_true ⟨[], rfl⟩ afterDollars_nil
  | case2 rest ih =>
      refine (hpush _ _).trans (ih.trans ?_)
      rw [afterDollars_of_ne (by decide), afterDollars_of_ne (by decide)]
  | case3 c₁ c₂ rest hsizes n hnumber ih =>
      obtain ⟨hne₁, hne₂⟩ := ne_dollar_of_u8FromHex hnumber
      refine (hpush _ _).trans (ih.trans ?_)
      rw [afterDollars_dollar, slicesOff_cons_cons, afterDollars_of_ne hne₁,
        afterDollars_of_ne hne₂]
      exact (and_iff_right (by omega)).symm
  | case4 c₁ c₂ rest hsizes hnumber ih =>
      refine ih.trans ?_
      rw [afterDollars_dollar, slicesOff_cons_cons]
      exact (and_iff_right (by omega)).symm
  | case5 c₁ c₂ rest hsizes hwide ih =>
      refine ih.trans ?_
      rw [afterDollars_dollar, slicesOff_cons_cons]
      exact (and_iff_right (by omega)).symm
  | case6 c₁ c₂ rest hsizes hwide =>
      have hpos := c₁.utf8Size_pos
      refine iff_of_false ?_ ?_
      · rintro ⟨decoded, h⟩
        cases h
      · rw [afterDollars_dollar, slicesOff_cons_cons]
        rintro ⟨hon, -⟩
        exact hon (by omega)
  | case7 c hone =>
      refine iff_of_true ⟨_, rfl⟩ ?_
      rw [afterDollars_dollar, slicesOff_singleton, afterDollars_cons]
      exact ⟨by omega, fun _ => not_slicesOff_nil, afterDollars_nil⟩
  | case8 c hone hwide =>
      refine iff_of_true ⟨_, rfl⟩ ?_
      rw [afterDollars_dollar, slicesOff_singleton, afterDollars_cons]
      exact ⟨by omega, fun _ => not_slicesOff_nil, afterDollars_nil⟩
  | case9 c hone hwide =>
      have hpos := c.utf8Size_pos
      refine iff_of_false ?_ ?_
      · rintro ⟨decoded, h⟩
        cases h
      · rw [afterDollars_dollar, slicesOff_singleton]
        rintro ⟨hon, -⟩
        exact hon (by omega)
  | case10 c rest hunderscores hescape hlast ih =>
      refine (hpush _ _).trans (ih.trans ?_)
      rw [afterDollars_cons]
      refine (and_iff_right ?_).symm
      rintro rfl
      -- a dollar sign that is pushed as it is ends the name
      rcases rest with _ | ⟨c₁, _ | ⟨c₂, rest⟩⟩
      · exact not_slicesOff_nil
      · exact absurd rfl (hlast c₁ rfl)
      · exact absurd rfl (hescape c₁ c₂ rest rfl)

/-! ## Which names are demangled -/

section Names

variable [Crates]

/-- `caml` and a name that starts with an uppercase letter. -/
def IsOcaml (name : String) (chars : List Char) : Prop :=
  name.toList = 'c' :: 'a' :: 'm' :: 'l' :: chars ∧ ∃ c ∈ chars.head?, Crates.isUppercase c = true

theorem IsOcaml.unique {name : String} {chars chars' : List Char} (h : IsOcaml name chars)
    (h' : IsOcaml name chars') : chars = chars' := by
  have heq := h.1
  rw [h'.1] at heq
  simpa using heq.symm

/-- A name is read by the loop, or it is `caml` itself, or it is declined. -/
theorem demangleOcaml_cases (name : String) :
    (∃ chars, IsOcaml name chars ∧ (demangleOcaml name : Call ε _)
        = (do return some (String.ofList (← decodeOcaml chars)))) ∨
      ((∀ chars, ¬ IsOcaml name chars) ∧ (demangleOcaml name : Call ε _)
        = .ok (if name.toList = ['c', 'a', 'm', 'l'] then some "" else none)) := by
  rw [demangleOcaml]
  split
  · next rest hname =>
    cases rest with
    | nil =>
        refine Or.inr ⟨?_, by rw [if_pos hname]; rfl⟩
        rintro chars ⟨hchars, c, hc, -⟩
        rw [hname] at hchars
        obtain rfl : [] = chars := by simpa using hchars
        cases hc
    | cons c rest =>
        by_cases hupper : Crates.isUppercase c = true
        · exact Or.inl ⟨c :: rest, ⟨hname, c, rfl, hupper⟩, if_pos hupper⟩
        · refine Or.inr ⟨?_, ?_⟩
          · rintro chars ⟨hchars, d, hd, hdupper⟩
            rw [hname] at hchars
            obtain rfl : c :: rest = chars := by simpa using hchars
            obtain rfl := Option.some.inj hd
            exact hupper hdupper
          · rw [if_neg (by rw [hname]; simp)]
            exact if_neg hupper
  · next hother =>
    refine Or.inr ⟨fun chars h => hother chars h.1, ?_⟩
    rw [if_neg (hother [])]
    rfl

/-- The second byte after each `$` of the name ends a character, if there are two. -/
def OnBoundaries (name : String) : Prop :=
  ∀ chars, IsOcaml name chars → AfterDollars (fun rest => ¬ EndsInside rest) chars

theorem demangleOcaml_returns_iff (name : String) :
    (∃ demangled, (demangleOcaml name : Call ε _) = .ok demangled) ↔ OnBoundaries name := by
  simp only [OnBoundaries, ← slicesOff_iff]
  rcases demangleOcaml_cases (ε := ε) name with ⟨chars, hocaml, heq⟩ | ⟨hdeclined, heq⟩
  · rw [heq]
    have hreads : (∃ demangled, (do return some (String.ofList (← decodeOcaml chars))
        : Call ε (Option String)) = .ok demangled) ↔
          ∃ decoded, (decodeOcaml chars : Call ε _) = .ok decoded :=
      Outcome.exists_bind_eq_ok fun _ => ⟨_, rfl⟩
    refine hreads.trans ((decodeOcaml_returns_iff chars).trans ⟨?_, fun h => h chars hocaml⟩)
    intro hon chars' hocaml'
    rw [hocaml'.unique hocaml]
    exact hon
  · rw [heq]
    exact iff_of_true ⟨_, rfl⟩ (fun chars hocaml => absurd hocaml (hdeclined chars))

/-- **WHEN DEMANGLING RETURNS**: exactly when no slice of the name ends inside a
    character, and the same goes for the names that the demanglers before it decline. -/
theorem demangle_returns_iff (name : String) :
    ((∃ demangled, (demangleOcaml name : Call ε _) = .ok demangled) ↔ OnBoundaries name) ∧
      (Crates.rustcDemangle name = none → Crates.cppDemangle name = none →
        ((∃ demangled, (demangleAny name : Call ε _) = .ok demangled) ↔ OnBoundaries name)) := by
  have hocaml := demangleOcaml_returns_iff (ε := ε) name
  refine ⟨hocaml, ?_⟩
  intro hrustc hcpp
  rw [demangleAny]
  by_cases hmsvc : name.toList.head? = some '?'
  · rw [if_pos hmsvc]
    refine iff_of_true ⟨_, rfl⟩ ?_
    rintro chars ⟨hchars, -⟩
    rw [hchars] at hmsvc
    cases hmsvc
  · rw [if_neg hmsvc, hrustc, hcpp, ← hocaml]
    refine Outcome.exists_bind_eq_ok ?_
    intro demangled
    -- whatever the answer, the name is returned in some form
    split
    · exact ⟨_, rfl⟩
    · split
      · exact ⟨_, rfl⟩
      · exact ⟨_, rfl⟩

end Names

section Samples

local instance : Crates := Crates.nothing

theorem demangle_returns_iff_brackets :
    ((∃ demangled, (demangleOcaml "camlA$5b" : Call Unit _) = .ok demangled) ↔
        OnBoundaries "camlA$5b") ∧
      ((∃ demangled, (demangleAny "camlA$5b" : Call Unit _) = .ok demangled) ↔
        OnBoundaries "camlA$5b") :=
  ⟨(demangle_returns_iff _).1, (demangle_returns_iff _).2 rfl rfl⟩

/-- The two bytes after the `$` end inside the `é`. -/
theorem not_demangle_returns_accent :
    ¬ (∃ demangled, (demangleOcaml "camlA$aé" : Call Unit _) = .ok demangled) := by
  rintro ⟨demangled, h⟩
  have hpanic : (demangleOcaml "camlA$aé" : Call Unit _) = .panic .charBoundary := by rfl
  rw [hpanic] at h
  cases h

end Samples

/-! ## The escape grammar -/

/-- A name read by the escape grammar: `__` is a dot, `$` with two hexadecimal digits a
    character, and everything else is itself. -/
def readName : List Char → List Char
  | [] => []
  | '_' :: '_' :: rest => '.' :: readName rest
  | '$' :: c₁ :: c₂ :: rest =>
      match hexDigit c₁, hexDigit c₂ with
      | some high, some low => Char.ofNat (16 * high + low) :: readName rest
      | _, _ => '$' :: readName (c₁ :: c₂ :: rest)
  | c :: rest => c :: readName rest

/-- What an OCaml symbol stands for. -/
def readSymbol (name : String) : Option String :=
  match name.toList with
  | 'c' :: 'a' :: 'm' :: 'l' :: c :: rest =>
      if c.isUpper then some (String.ofList (readName (c :: rest))) else none
  | _ => none

/-- Two characters after a `$`, if there are as many, are hexadecimal digits. -/
def StartsEscape (rest : List Char) : Prop :=
  ∀ c₁ c₂ rest', rest = c₁ :: c₂ :: rest' → (hexDigit c₁).isSome ∧ (hexDigit c₂).isSome

theorem startsEscape_cons_cons {c₁ c₂ : Char} {rest : List Char} :
    StartsEscape (c₁ :: c₂ :: rest) ↔ (hexDigit c₁).isSome ∧ (hexDigit c₂).isSome := by
  constructor
  · intro h
    exact h c₁ c₂ rest rfl
  · rintro h d₁ d₂ rest' hrest
    obtain ⟨rfl, htail⟩ := List.cons.inj hrest
    obtain ⟨rfl, -⟩ := List.cons.inj htail
    exact h

theorem startsEscape_of_length {rest : List Char} (h : rest.length < 2) : StartsEscape rest := by
  rintro c₁ c₂ rest' rfl
  simp at h

theorem readName_dollar {c₁ c₂ : Char} {rest : List Char}
    (h : ¬ ((hexDigit c₁).isSome ∧ (hexDigit c₂).isSome)) :
    readName ('$' :: c₁ :: c₂ :: rest) = '$' :: readName (c₁ :: c₂ :: rest) := by
  rw [readName]
  split
  · next high low hhigh hlow =>
    exact absurd ⟨by rw [hhigh]; rfl, by rw [hlow]; rfl⟩ h
  · rfl

theorem readName_escape {c₁ c₂ : Char} {high low : Nat} {rest : List Char}
    (hhigh : hexDigit c₁ = some high) (hlow : hexDigit c₂ = some low) :
    readName ('$' :: c₁ :: c₂ :: rest) = Char.ofNat (16 * high + low) :: readName rest := by
  rw [readName, hhigh, hlow]

/-- A character that starts nothing is itself. -/
theorem readName_cons {c : Char} {rest : List Char} (hdollar : c ≠ '$') (hunderscore : c ≠ '_') :
    readName (c :: rest) = c :: readName rest := by
  rw [readName]
  · rintro rest' rfl
    exact absurd rfl hunderscore
  · rintro c₁ c₂ rest' rfl
    exact absurd rfl hdollar

theorem u8FromHex_digits {c₁ c₂ : Char} {n high : Nat} (h : u8FromHex c₁ c₂ = some n)
    (hhigh : hexDigit c₁ = some high) : ∃ low, hexDigit c₂ = some low ∧ n = 16 * high + low := by
  rw [u8FromHex, Option.bind_eq_bind, Option.bind_eq_some_iff] at h
  obtain ⟨low, hlow, h⟩ := h
  have hplus : c₁ ≠ '+' := by
    rintro rfl
    cases hhigh
  rw [if_neg hplus, hhigh, Option.bind_some] at h
  exact ⟨low, hlow, (Option.some.inj h).symm⟩

/-- What the loop makes of a name, against the grammar: the reading, or too little. -/
def Against (chars : List Char) (decoding : Call ε (List Char)) : Prop :=
  ∃ decoded, decoding = .ok decoded ∧
    ((AfterDollars StartsEscape chars ∧ decoded = readName chars) ∨
      (¬ AfterDollars StartsEscape chars ∧ decoded.length < (readName chars).length))

/-- A step that reads as the grammar does. -/
theorem Against.push {chars rest : List Char} {d : Char} {decoding : Call ε (List Char)}
    (h : Against rest decoding) (hread : readName chars = d :: readName rest)
    (hdollars : AfterDollars StartsEscape chars ↔ AfterDollars StartsEscape rest) :
    Against chars (do return d :: (← decoding)) := by
  obtain ⟨decoded, rfl, hcases⟩ := h
  refine ⟨d :: decoded, rfl, ?_⟩
  rw [hread, hdollars, List.cons.injEq, List.length_cons, List.length_cons]
  rcases hcases with ⟨hall, rfl⟩ | ⟨hnot, hshort⟩
  · exact Or.inl ⟨hall, rfl, rfl⟩
  · exact Or.inr ⟨hnot, Nat.succ_lt_succ hshort⟩

theorem Against.length_le {rest : List Char} {decoding : Call ε (List Char)}
    (h : Against rest decoding) :
    ∃ decoded, decoding = .ok decoded ∧ decoded.length ≤ (readName rest).length := by
  obtain ⟨decoded, hok, ⟨-, rfl⟩ | ⟨-, hshort⟩⟩ := h
  · exact ⟨_, hok, le_refl _⟩
  · exact ⟨decoded, hok, hshort.le⟩

/-- **THE LOOP AGAINST THE GRAMMAR**, on one-byte characters: it reads the name
    as the grammar does, or its result is too short. -/
theorem decodeOcaml_against (chars : List Char) (hascii : ∀ c ∈ chars, c.utf8Size = 1) :
    Against chars (decodeOcaml chars : Call ε _) := by
  fun_induction decodeOcaml chars with
  | case1 => exact ⟨[], rfl, Or.inl ⟨afterDollars_nil, rfl⟩⟩
  | case2 rest ih =>
      refine (ih fun c hc => hascii c (by simp [hc])).push (by rw [readName]) ?_
      rw [afterDollars_of_ne (by decide), afterDollars_of_ne (by decide)]
  | case3 c₁ c₂ rest hsizes n hnumber ih =>
      have hrest := ih fun c hc => hascii c (by simp [hc])
      obtain ⟨hne₁, hne₂⟩ := ne_dollar_of_u8FromHex hnumber
      obtain ⟨hsome, hfirst⟩ := u8FromHex_eq_some hnumber
      rcases hfirst with rfl | hhigh
      · -- the sign is read as part of the number
        obtain ⟨decoded, hok, hle⟩ := hrest.length_le
        obtain ⟨low, hlow⟩ := Option.isSome_iff_exists.mp hsome
        have hsign : ¬ (hexDigit '+').isSome := by decide
        refine ⟨Char.ofNat n :: decoded, by rw [hok]; rfl, Or.inr ⟨?_, ?_⟩⟩
        · rw [afterDollars_dollar, startsEscape_cons_cons]
          exact fun h => hsign h.1.1
        · rw [readName_dollar fun h => hsign h.1, readName_cons (by decide) (by decide),
            readName_cons (ne_dollar_of_hexDigit hlow) (ne_underscore_of_hexDigit hlow)]
          simp only [List.length_cons]
          omega
      · obtain ⟨high, hhigh'⟩ := Option.isSome_iff_exists.mp hhigh
        obtain ⟨low, hlow, rfl⟩ := u8FromHex_digits hnumber hhigh'
        refine hrest.push (readName_escape hhigh' hlow) ?_
        rw [afterDollars_dollar, startsEscape_cons_cons, afterDollars_of_ne hne₁,
          afterDollars_of_ne hne₂]
        exact and_iff_right ⟨hhigh, hsome⟩
  | case4 c₁ c₂ rest hsizes hnumber ih =>
      -- the dollar sign is dropped
      have hnot : ¬ ((hexDigit c₁).isSome ∧ (hexDigit c₂).isSome) := by
        rintro ⟨hhigh, hlow⟩
        obtain ⟨high, hhigh⟩ := Option.isSome_iff_exists.mp hhigh
        obtain ⟨low, hlow⟩ := Option.isSome_iff_exists.mp hlow
        have hplus : c₁ ≠ '+' := by
          rintro rfl
          cases hhigh
        rw [u8FromHex, hlow, hhigh] at hnumber
        simp [hplus] at hnumber
      obtain ⟨decoded, hok, hle⟩ := (ih fun c hc => hascii c (List.mem_cons_of_mem _ hc)).length_le
      refine ⟨decoded, hok, Or.inr ⟨?_, ?_⟩⟩
      · rw [afterDollars_dollar, startsEscape_cons_cons]
        exact fun h => hnot h.1
      · rw [readName_dollar hnot, List.length_cons]
        omega
  | case5 c₁ c₂ rest hsizes hwide ih =>
      have := hascii c₁ (by simp)
      omega
  | case6 c₁ c₂ rest hsizes hwide =>
      exact absurd ⟨hascii c₁ (by simp), hascii c₂ (by simp)⟩ hsizes
  | case7 c hone =>
      refine ⟨_, rfl, Or.inl ⟨?_, ?_⟩⟩
      · rw [afterDollars_dollar, afterDollars_cons]
        exact ⟨startsEscape_of_length (by simp), fun _ => startsEscape_of_length (by simp),
          afterDollars_nil⟩
      · rw [readName, readName]
        · rfl
        · simp
        · simp
        · simp
        · simp
  | case8 c hone hwide => exact absurd (hascii c (by simp)) hone
  | case9 c hone hwide => exact absurd (hascii c (by simp)) hone
  | case10 c rest hunderscores hescape hlast ih =>
      refine (ih fun d hd => hascii d (List.mem_cons_of_mem _ hd)).push ?_ ?_
      · rw [readName]
        · exact hunderscores
        · exact hescape
      · rw [afterDollars_cons]
        refine and_iff_right ?_
        rintro rfl
        rcases rest with _ | ⟨c₁, _ | ⟨c₂, rest⟩⟩
        · exact startsEscape_of_length (by simp)
        · exact absurd rfl (hlast c₁ rfl)
        · exact absurd rfl (hescape c₁ c₂ rest rfl)

theorem utf8Size_of_ascii {c : Char} (h : c.toNat < 128) : c.utf8Size = 1 := by
  rw [Char.utf8Size_eq_one_iff, UInt32.le_iff_toNat_le]
  show c.toNat ≤ 127
  omega

theorem toList_eq_caml_iff {name : String} :
    name.toList = ['c', 'a', 'm', 'l'] ↔ name = "caml" := by
  rw [← String.toList_inj]
  rfl

section Grammar

variable [Crates]

/-- `char::is_uppercase` on ASCII. -/
def UppercaseOnAscii : Prop := ∀ c : Char, c.toNat < 128 → Crates.isUppercase c = c.isUpper

/-- The symbol is not `caml` alone, and every `$` before two more characters starts an
    escape. -/
def OnlyEscapes (name : String) : Prop :=
  name ≠ "caml" ∧ ∀ chars, IsOcaml name chars → AfterDollars StartsEscape chars

theorem IsOcaml.readSymbol_eq {name : String} {chars : List Char} (h : IsOcaml name chars)
    (hascii : ∀ c ∈ name.toList, c.toNat < 128) (hupper : UppercaseOnAscii) :
    readSymbol name = some (String.ofList (readName chars)) := by
  obtain ⟨hchars, c, hc, hcupper⟩ := h
  rcases chars with _ | ⟨d, rest⟩
  · cases hc
  · obtain rfl := Option.some.inj hc
    rw [hupper _ (hascii _ (by simp [hchars]))] at hcupper
    rw [readSymbol, hchars]
    exact if_pos hcupper

theorem readSymbol_eq_none {name : String} (h : ∀ chars, ¬ IsOcaml name chars)
    (hascii : ∀ c ∈ name.toList, c.toNat < 128) (hupper : UppercaseOnAscii) :
    readSymbol name = none := by
  rw [readSymbol]
  split
  · next c rest hname =>
    refine if_neg ?_
    intro hc
    refine h (c :: rest) ⟨hname, c, rfl, ?_⟩
    rw [hupper c (hascii c (by simp [hname])), hc]
  · rfl

/-- **WHEN A SYMBOL IS DECODED**: an ASCII symbol is read as the escape grammar says
    exactly when it has only escapes. -/
theorem demangleOcaml_reads_iff (name : String) (hascii : ∀ c ∈ name.toList, c.toNat < 128)
    (hupper : UppercaseOnAscii) :
    (demangleOcaml name : Call ε _) = .ok (readSymbol name) ↔ OnlyEscapes name := by
  rcases demangleOcaml_cases (ε := ε) name with ⟨chars, hocaml, heq⟩ | ⟨hdeclined, heq⟩
  · have hone : ∀ c ∈ chars, c.utf8Size = 1 := fun c hc =>
      utf8Size_of_ascii (hascii c (by simp [hocaml.1, hc]))
    have hcaml : name ≠ "caml" := by
      rintro rfl
      obtain ⟨hchars, c, hc, -⟩ := hocaml
      obtain rfl : chars = [] := by simpa using hchars
      cases hc
    have hcond : OnlyEscapes name ↔ AfterDollars StartsEscape chars := by
      refine (and_iff_right hcaml).trans ⟨fun h => h chars hocaml, fun h chars' hocaml' => ?_⟩
      rw [hocaml'.unique hocaml]
      exact h
    obtain ⟨decoded, hok, hcases⟩ := decodeOcaml_against (ε := ε) chars hone
    rw [heq, hok, hcond, hocaml.readSymbol_eq hascii hupper]
    -- a dollar that starts no escape is dropped, so the name comes out shorter
    rcases hcases with ⟨hall, rfl⟩ | ⟨hnot, hshort⟩
    · exact iff_of_true rfl hall
    · refine iff_of_false ?_ hnot
      intro hsame
      have hlist : decoded = readName chars :=
        String.ofList_injective (Option.some.inj (Outcome.ok.inj hsame))
      rw [hlist] at hshort
      exact absurd hshort (lt_irrefl _)
  · have hcond : OnlyEscapes name ↔ name ≠ "caml" :=
      and_iff_left fun chars hocaml => absurd hocaml (hdeclined chars)
    rw [heq, hcond, readSymbol_eq_none hdeclined hascii hupper, Outcome.ok.injEq,
      ite_eq_right_iff, toList_eq_caml_iff]
    simp

end Grammar

section Samples

local instance : Crates := Crates.nothing

theorem demangleOcaml_reads_iff_brackets :
    (demangleOcaml "camlA$5b" : Call Unit _) = .ok (readSymbol "camlA$5b") ↔
      OnlyEscapes "camlA$5b" :=
  demangleOcaml_reads_iff _
    (by rw [show "camlA$5b".toList = ['c', 'a', 'm', 'l', 'A', '$', '5', 'b'] from rfl]; simp)
    (fun _ _ => rfl)

/-- A `$` before two letters that are no digits is lost. -/
theorem not_demangleOcaml_reads_letters :
    (demangleOcaml "camlFoo$zz" : Call Unit _) ≠ .ok (readSymbol "camlFoo$zz") := by
  have hread : readSymbol "camlFoo$zz" = some "Foo$zz" := by rfl
  have hcode : (demangleOcaml "camlFoo$zz" : Call Unit _) = .ok (some "Foozz") := by rfl
  rw [hread, hcode]
  decide

end Samples

end ProfilerGetSymbols.Demangle
