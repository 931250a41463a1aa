import ProfilerGetSymbols.PathMemo
import ProfilerGetSymbols.ProgLib.Regex

/-! # Cargo registry paths — which crate a source file is taken to belong to

    The pattern for the cargo registry reads a registry, a crate and a version off a
    path.  Its group for the crate shuts out the slash only, and is greedy: where the
    path is written with backslashes, the crate runs on to the last directory that
    looks like a name and a version. -/

namespace ProfilerGetSymbols.PathMapper

open ProgLib Paths

/-! ## The pattern -/

/-- `[/\\]` -/
def isSeparator (c : Char) : Bool := c == '/' || c == '\\'

/-- `[0-9]` -/
def isDigit (c : Char) : Bool := '0' ≤ c && c ≤ '9'

/-- `[0-9]+\.[0-9]+\.[0-9]+` -/
def versionPattern : Regex Char String :=
  .plus (.letter isDigit) ++ .word ['.'] ++ .plus (.letter isDigit) ++ .word ['.']
    ++ .plus (.letter isDigit)

/-- `-(?P<version>[0-9]+\.[0-9]+\.[0-9]+)[/\\](?P<path>.*)$` -/
def afterCratePattern : Regex Char String :=
  .word ['-'] ++ .group "version" versionPattern ++ .letter isSeparator
    ++ .group "path" (.star (.letter (· != '\n'))) ++ .stop

/-- `cargo_dep_regex`. -/
def cargoDepPattern : Regex Char String :=
  .letter isSeparator ++ .word ".cargo".toList ++ .letter isSeparator ++ .word "registry".toList
    ++ .letter isSeparator ++ .word "src".toList ++ .letter isSeparator
    ++ .group "registry" (.plus (.letter (!isSeparator ·))) ++ .letter isSeparator
    ++ .group "crate" (.plus (.letter (· != '/'))) ++ afterCratePattern

/-- The captures of `cargo_dep_regex`. -/
def cargoDepCaptures (rawPath : String) : Option CargoDepCaptures := do
  let captures ← cargoDepPattern.search rawPath.toList
  let registry ← captures.lookup "registry"
  let crate ← captures.lookup "crate"
  let version ← captures.lookup "version"
  let path ← captures.lookup "path"
  return ⟨String.ofList registry, String.ofList crate, String.ofList version, String.ofList path⟩

/-! ## What the parts of the pattern match -/

/-- One digit or more. -/
def IsNumber (w : List Char) : Prop := w ≠ [] ∧ w.all isDigit = true

instance (w : List Char) : Decidable (IsNumber w) :=
  inferInstanceAs (Decidable (w ≠ [] ∧ w.all isDigit = true))

/-- `digits.digits.digits`. -/
def IsVersion (v : List Char) : Prop :=
  ∃ major minor patch, v = major ++ '.' :: (minor ++ '.' :: patch) ∧
    IsNumber major ∧ IsNumber minor ∧ IsNumber patch

theorem isNumber_iff {w : List Char} : IsNumber w ↔ w ≠ [] ∧ ∀ c ∈ w, isDigit c = true := by
  rw [IsNumber, List.all_eq_true]

/-- A text that goes on with a version, a separator and the rest of a line. -/
structure AfterCrate (t v : List Char) (s : Char) (p : List Char) : Prop where
  eq : t = '-' :: (v ++ s :: p)
  version : IsVersion v
  separator : isSeparator s = true
  path : '\n' ∉ p

/-- A version is made of digits and dots. -/
theorem IsVersion.letters {v : List Char} (h : IsVersion v) {c : Char} (hc : c ∈ v) :
    isDigit c = true ∨ c = '.' := by
  obtain ⟨major, minor, patch, rfl, h₁, h₂, h₃⟩ := h
  simp only [List.mem_append, List.mem_cons] at hc
  rcases hc with hc | hc | hc | hc | hc
  · exact Or.inl ((isNumber_iff.mp h₁).2 c hc)
  · exact Or.inr hc
  · exact Or.inl ((isNumber_iff.mp h₂).2 c hc)
  · exact Or.inr hc
  · exact Or.inl ((isNumber_iff.mp h₃).2 c hc)

theorem IsVersion.not_separator {v : List Char} (h : IsVersion v) :
    ∀ c ∈ v, ¬ isSeparator c = true := by
  intro c hc hsep
  have hcases : c = '/' ∨ c = '\\' := by simpa [isSeparator] using hsep
  rcases h.letters hc with hdigit | rfl
  · rcases hcases with rfl | rfl <;> exact absurd hdigit (by decide)
  · rcases hcases with h | h <;> exact absurd h (by decide)

theorem IsVersion.hyphen_not_mem {v : List Char} (h : IsVersion v) : '-' ∉ v := by
  intro hc
  rcases h.letters hc with hdigit | heq
  · exact absurd hdigit (by decide)
  · exact absurd heq (by decide)

/-- A version and what follows it are cut off in one way. -/
theorem AfterCrate.unique {t v v' : List Char} {s s' : Char} {p p' : List Char}
    (h : AfterCrate t v s p) (h' : AfterCrate t v' s' p') : v = v' ∧ p = p' := by
  have heq : v ++ s :: p = v' ++ s' :: p' := (List.cons.inj (h.eq.symm.trans h'.eq)).2
  obtain ⟨hv, -, hp⟩ := append_cons_inj_of_delimiter (q := fun c => isSeparator c = true)
    h.version.not_separator h'.version.not_separator h.separator h'.separator heq
  exact ⟨hv, hp⟩

section Parts

variable {β : Type} {s t : List Char} {c : Regex.Captures Char String}
  {k : Regex.Continuation Char String β} {b : β}

theorem run_versionPattern_eq_some (h : versionPattern.run s c k = some b) :
    ∃ v t, s = v ++ t ∧ IsVersion v ∧ k t c = some b := by
  obtain ⟨major, t₁, rfl, hne₁, h₁, h, -⟩ := Regex.run_plus_letter_eq_some h
  obtain ⟨t₂, rfl, h⟩ := Regex.run_word_eq_some.mp h
  obtain ⟨minor, t₃, rfl, hne₂, h₂, h, -⟩ := Regex.run_plus_letter_eq_some h
  obtain ⟨t₄, rfl, h⟩ := Regex.run_word_eq_some.mp h
  obtain ⟨patch, t, rfl, hne₃, h₃, h, -⟩ := Regex.run_plus_letter_eq_some h
  exact ⟨major ++ '.' :: (minor ++ '.' :: patch), t, by simp,
    ⟨major, minor, patch, rfl, isNumber_iff.mpr ⟨hne₁, h₁⟩, isNumber_iff.mpr ⟨hne₂, h₂⟩,
      isNumber_iff.mpr ⟨hne₃, h₃⟩⟩, h⟩

end Parts

theorem IsVersion.matches {v : List Char} (h : IsVersion v) (t : List Char)
    (c : Regex.Captures Char String) : Regex.Matches versionPattern (v ++ t) t c c := by
  obtain ⟨major, minor, patch, rfl, hmajor, hminor, hpatch⟩ := h
  obtain ⟨hne₁, h₁⟩ := isNumber_iff.mp hmajor
  obtain ⟨hne₂, h₂⟩ := isNumber_iff.mp hminor
  obtain ⟨hne₃, h₃⟩ := isNumber_iff.mp hpatch
  rw [show major ++ '.' :: (minor ++ '.' :: patch) ++ t
    = major ++ (['.'] ++ (minor ++ (['.'] ++ (patch ++ t)))) by simp]
  exact ((((Regex.matches_plus_letter hne₁ h₁ _ c).cat (Regex.matches_word _ _ c)).cat
    (Regex.matches_plus_letter hne₂ h₂ _ c)).cat (Regex.matches_word _ _ c)).cat
    (Regex.matches_plus_letter hne₃ h₃ t c)

/-- The continuation of a whole match. -/
abbrev accept : Regex.Continuation Char String (Regex.Captures Char String) := fun _ c => some c

theorem run_afterCratePattern_cases {t : List Char} {c captures : Regex.Captures Char String}
    (h : afterCratePattern.run t c accept = some captures) :
    ∃ v s p, AfterCrate t v s p ∧ captures = ("path", p) :: ("version", v) :: c := by
  obtain ⟨t₁, rfl, h⟩ := Regex.run_word_eq_some.mp h
  obtain ⟨v, t₂, rfl, hv, h⟩ := run_versionPattern_eq_some h
  obtain ⟨s, t₃, rfl, hs, h⟩ := Regex.run_letter_eq_some.mp h
  obtain ⟨p, t₄, rfl, hp, h, -⟩ := Regex.run_star_letter_eq_some h
  obtain ⟨rfl, h⟩ := Regex.run_stop_eq_some.mp h
  refine ⟨v, s, p, ⟨by simp, hv, hs, ?_⟩, ?_⟩
  · intro hmem
    exact absurd (hp _ hmem) (by decide)
  · simp only [List.append_eq, List.nil_append, Regex.take_front] at h
    exact (Option.some.inj h).symm

theorem AfterCrate.matches {t v p : List Char} {s : Char} (h : AfterCrate t v s p)
    (c : Regex.Captures Char String) :
    Regex.Matches afterCratePattern t [] c (("path", p) :: ("version", v) :: c) := by
  obtain ⟨rfl, hv, hs, hp⟩ := h
  have hline : ∀ a ∈ p, (a != '\n') = true := by
    intro a ha
    exact bne_iff_ne.mpr (fun heq => hp (heq ▸ ha))
  have hversion := (hv.matches (s :: p) c).group_front "version"
  have hrest := (Regex.matches_star_letter hline [] (("version", v) :: c)).group_front "path"
  rw [List.append_nil] at hrest
  exact ((((Regex.matches_word ['-'] (v ++ s :: p) c).cat hversion).cat (.letter hs p _)).cat
    hrest).cat (.stop _)

/-- **THE END OF THE PATTERN**: a version, a separator and the rest of the line. -/
theorem run_afterCratePattern {t v p : List Char} {s : Char} (h : AfterCrate t v s p)
    (c : Regex.Captures Char String) :
    afterCratePattern.run t c accept = some (("path", p) :: ("version", v) :: c) := by
  have hmatches := h.matches c
  have hsome := hmatches.run_ne_none (k := accept) (Option.some_ne_none _)
  obtain ⟨captures, hcaptures⟩ := Option.ne_none_iff_exists'.mp hsome
  obtain ⟨v', s', p', h', heq⟩ := run_afterCratePattern_cases hcaptures
  obtain ⟨rfl, rfl⟩ := h.unique h'
  rw [hcaptures, heq]

/-! ## A whole match -/

/-- A separator and `.cargo`, `registry`, `src` and a registry's directory behind it. -/
def registryDir (s₁ s₂ s₃ s₄ : Char) (registry : List Char) (s₅ : Char) (rest : List Char) :
    List Char :=
  s₁ :: (".cargo".toList ++ s₂ :: ("registry".toList ++ s₃ :: ("src".toList ++ s₄ ::
    (registry ++ s₅ :: rest))))

/-- A match of the pattern: what the groups hold, and that no longer crate would do. -/
structure CargoMatch (registry rest : List Char) (captures : Regex.Captures Char String)
    (crate t version path : List Char) : Prop where
  rest_eq : rest = crate ++ t
  crate_ne : crate ≠ []
  slash_not_mem : '/' ∉ crate
  after : ∃ s, AfterCrate t version s path
  captures_eq : captures
    = [("path", path), ("version", version), ("crate", crate), ("registry", registry)]
  longest : ∀ more t', t = more ++ t' → more ≠ [] → '/' ∉ more → ∀ v s p, ¬ AfterCrate t' v s p

theorem matchHere_cases {s : List Char} {captures : Regex.Captures Char String}
    (h : cargoDepPattern.matchHere s = some captures) :
    ∃ s₁ s₂ s₃ s₄ registry s₅ rest crate t version path,
      s = registryDir s₁ s₂ s₃ s₄ registry s₅ rest ∧ isSeparator s₅ = true ∧
      (∀ c ∈ registry, ¬ isSeparator c = true) ∧
      CargoMatch registry rest captures crate t version path := by
  -- the pattern is read from left to right, one piece at a time
  simp only [Regex.matchHere, cargoDepPattern, Regex.run_append, Regex.run_group] at h
  obtain ⟨s₁, t₁, rfl, -, h₁⟩ := Regex.run_letter_eq_some.mp h
  obtain ⟨t₂, rfl, h₂⟩ := Regex.run_word_eq_some.mp h₁
  obtain ⟨s₂, t₃, rfl, -, h₃⟩ := Regex.run_letter_eq_some.mp h₂
  obtain ⟨t₄, rfl, h₄⟩ := Regex.run_word_eq_some.mp h₃
  obtain ⟨s₃, t₅, rfl, -, h₅⟩ := Regex.run_letter_eq_some.mp h₄
  obtain ⟨t₆, rfl, h₆⟩ := Regex.run_word_eq_some.mp h₅
  obtain ⟨s₄, t₇, rfl, -, h₇⟩ := Regex.run_letter_eq_some.mp h₆
  obtain ⟨registry, t₈, rfl, -, hregistry, h₈, -⟩ := Regex.run_plus_letter_eq_some h₇
  obtain ⟨s₅, rest, rfl, hs₅, h₉⟩ := Regex.run_letter_eq_some.mp h₈
  obtain ⟨crate, t, rfl, hne, hcrate, h₁₀, hlongest⟩ := Regex.run_plus_letter_eq_some h₉
  obtain ⟨version, s, path, hafter, hcaptures⟩ := run_afterCratePattern_cases h₁₀
  refine ⟨s₁, s₂, s₃, s₄, registry, s₅, crate ++ t, crate, t, version, path, rfl, hs₅, ?_,
    rfl, hne, ?_, ⟨s, hafter⟩, ?_, ?_⟩
  · intro c hc hsep
    have hnot := hregistry c hc
    rw [hsep] at hnot
    exact absurd hnot (by decide)
  · intro hmem
    exact absurd (hcrate _ hmem) (by decide)
  · rw [hcaptures, Regex.take_front, Regex.take_front]
  · intro more t' heq hmore hslash v s' p hafter'
    have hletters : ∀ c ∈ more, (c != '/') = true := by
      intro c hc
      exact bne_iff_ne.mpr (fun heq => hslash (heq ▸ hc))
    cases (run_afterCratePattern hafter' _).symm.trans (hlongest more t' heq hmore hletters)

/-- A registry's directory is read in one way. -/
theorem registryDir_inj {s₁ s₂ s₃ s₄ s₅ s₁' s₂' s₃' s₄' s₅' : Char}
    {registry registry' rest rest' : List Char}
    (hregistry : ∀ c ∈ registry, ¬ isSeparator c = true) (hs₅ : isSeparator s₅ = true)
    (hregistry' : ∀ c ∈ registry', ¬ isSeparator c = true) (hs₅' : isSeparator s₅' = true)
    (h : registryDir s₁ s₂ s₃ s₄ registry s₅ rest
      = registryDir s₁' s₂' s₃' s₄' registry' s₅' rest') :
    registry = registry' ∧ rest = rest' := by
  have h₁ := List.append_cancel_left (List.cons.inj h).2
  have h₂ := List.append_cancel_left (List.cons.inj h₁).2
  have h₃ := List.append_cancel_left (List.cons.inj h₂).2
  obtain ⟨heq, -, hrest⟩ := append_cons_inj_of_delimiter (q := fun c => isSeparator c = true)
    hregistry hregistry' hs₅ hs₅' (List.cons.inj h₃).2
  exact ⟨heq, hrest⟩

/-! ## Paths in the registry -/

/-- A path to a file of a crate in a registry, written with one kind of separator. -/
structure RegistryPath where
  front : String
  separator : Char
  registry : String
  name : String
  version : String
  path : String
  separator_eq : separator = '/' ∨ separator = '\\'
  front_eq : ¬ ".cargo".toList <:+: front.toList
  registry_ne : registry ≠ ""
  registry_eq : registry.toList.all (!isSeparator ·) = true
  name_eq : name.toList.all (!isSeparator ·) = true
  version_eq : IsVersion version.toList
  path_eq : '\n' ∉ path.toList

namespace RegistryPath

def rawPath (p : RegistryPath) : String :=
  let separator := String.singleton p.separator
  p.front ++ separator ++ ".cargo" ++ separator ++ "registry" ++ separator ++ "src" ++ separator
    ++ p.registry ++ separator ++ p.name ++ "-" ++ p.version ++ separator ++ p.path

/-- The permalink of the file. -/
def link (p : RegistryPath) : String :=
  "cargo:" ++ p.registry ++ ":" ++ p.name ++ "-" ++ p.version ++ ":" ++ forwardSlashes p.path

/-- Somewhere in the path, before any slash, a directory name ends in a version. -/
def VersionedBelow (path : List Char) : Prop :=
  ∃ x t v s rest, path = x ++ t ∧ '/' ∉ x ∧ AfterCrate t v s rest

/-- The crate has a name and, if the path is written with backslashes, no directory
    below it is named like a crate. -/
def NamedOnce (p : RegistryPath) : Prop :=
  p.name ≠ "" ∧ (p.separator = '\\' → ¬ VersionedBelow p.path.toList)

/-- The part of the raw path behind the registry. -/
def crateDir (p : RegistryPath) : List Char :=
  p.name.toList ++ '-' :: (p.version.toList ++ p.separator :: p.path.toList)

/-- The part of the raw path from the separator before `.cargo`. -/
def cargoDir (p : RegistryPath) : List Char :=
  registryDir p.separator p.separator p.separator p.separator p.registry.toList p.separator
    p.crateDir

theorem rawPath_toList (p : RegistryPath) :
    p.rawPath.toList = p.front.toList ++ p.cargoDir := by
  delta rawPath cargoDir registryDir
  simp [crateDir]

theorem isSeparator_separator (p : RegistryPath) : isSeparator p.separator = true := by
  rcases p.separator_eq with h | h <;> rw [h] <;> rfl

theorem afterCrate (p : RegistryPath) :
    AfterCrate ('-' :: (p.version.toList ++ p.separator :: p.path.toList)) p.version.toList
      p.separator p.path.toList :=
  ⟨rfl, p.version_eq, p.isSeparator_separator, p.path_eq⟩

theorem registry_letters (p : RegistryPath) : ∀ c ∈ p.registry.toList, (!isSeparator c) = true :=
  List.all_eq_true.mp p.registry_eq

theorem registry_not_separator (p : RegistryPath) :
    ∀ c ∈ p.registry.toList, ¬ isSeparator c = true := by
  intro c hc hsep
  have hnot := p.registry_letters c hc
  rw [hsep] at hnot
  cases hnot

theorem name_slash (p : RegistryPath) : '/' ∉ p.name.toList := by
  intro hmem
  have hnot := List.all_eq_true.mp p.name_eq '/' hmem
  cases hnot

/-- What starts with a hyphen behind the crate's name is behind its directory. -/
theorem behind_crateDir (p : RegistryPath) {more t : List Char} (hmore : more ≠ [])
    (h : '-' :: (p.version.toList ++ p.separator :: p.path.toList) = more ++ '-' :: t) :
    ∃ x, more = '-' :: (p.version.toList ++ p.separator :: x) ∧ p.path.toList = x ++ '-' :: t := by
  cases more with
  | nil => exact absurd rfl hmore
  | cons c more =>
      obtain ⟨rfl, hrest⟩ := List.cons.inj h
      rcases List.append_eq_append_iff.mp hrest with ⟨x, rfl, hx⟩ | ⟨x, hversion, hx⟩
      · cases x with
        | nil =>
            have hsep := p.isSeparator_separator
            rw [(List.cons.inj hx).1] at hsep
            cases hsep
        | cons c x =>
            obtain ⟨rfl, hpath⟩ := List.cons.inj hx
            exact ⟨x, rfl, hpath⟩
      · cases x with
        | nil =>
            have hsep := p.isSeparator_separator
            rw [← (List.cons.inj hx).1] at hsep
            cases hsep
        | cons c x =>
            rw [← (List.cons.inj hx).1] at hversion
            exact absurd (hversion ▸ by simp) p.version_eq.hyphen_not_mem

/-- **THE CRATE** that the pattern reads is the one named, or runs on behind its
    directory. -/
theorem crate_cases (p : RegistryPath) {captures : Regex.Captures Char String}
    {crate t version path : List Char}
    (h : CargoMatch p.registry.toList p.crateDir captures crate t version path) :
    (p.NamedOnce ∧ crate = p.name.toList ∧ version = p.version.toList ∧
      path = p.path.toList) ∨
    (¬ p.NamedOnce ∧ ∃ x, crate = p.name.toList ++ '-' :: (p.version.toList ++ p.separator :: x)) := by
  obtain ⟨s, hafter⟩ := h.after
  have hcases : (∃ more, p.name.toList = crate ++ more ∧
        t = more ++ '-' :: (p.version.toList ++ p.separator :: p.path.toList)) ∨
      ∃ more, more ≠ [] ∧ crate = p.name.toList ++ more ∧
        '-' :: (p.version.toList ++ p.separator :: p.path.toList) = more ++ t := by
    rcases List.append_eq_append_iff.mp h.rest_eq with ⟨more, hcrate, ht⟩ | ⟨more, hname, ht⟩
    · cases more with
      | nil => exact Or.inl ⟨[], by simpa using hcrate.symm, by simpa using ht.symm⟩
      | cons c more => exact Or.inr ⟨c :: more, List.cons_ne_nil _ _, hcrate, ht⟩
    · exact Or.inl ⟨more, hname, ht⟩
  rcases hcases with ⟨more, hname, ht⟩ | ⟨more, hmore, hcrate, ht⟩
  · -- a shorter crate would not be the longest
    have hnil : more = [] := by
      by_contra hne
      have hslash : '/' ∉ more := fun hmem => p.name_slash (hname ▸ List.mem_append_right _ hmem)
      exact h.longest more _ ht hne hslash _ _ _ p.afterCrate
    subst hnil
    rw [List.append_nil] at hname
    rw [List.nil_append] at ht
    obtain ⟨hversion, hpath⟩ := (ht ▸ hafter).unique p.afterCrate
    refine Or.inl ⟨⟨?_, ?_⟩, hname.symm, hversion, hpath⟩
    · intro hempty
      rw [hempty] at hname
      exact h.crate_ne hname.symm
    · rintro hback ⟨x, t', v, s', rest, hx, hslash, hbelow⟩
      refine h.longest ('-' :: (p.version.toList ++ p.separator :: x)) t' ?_ (List.cons_ne_nil _ _)
        ?_ _ _ _ hbelow
      · rw [ht, hx]
        simp
      · rw [hback]
        simp only [List.mem_cons, List.mem_append, not_or]
        exact ⟨by decide, fun hmem => p.version_eq.not_separator '/' hmem rfl, by decide, hslash⟩
  · right
    rw [hafter.eq] at ht
    obtain ⟨x, hx, hpath⟩ := p.behind_crateDir hmore ht
    rw [hx] at hcrate
    refine ⟨?_, x, hcrate⟩
    -- the crate holds no slash, so the path is written with backslashes
    have hslash := h.slash_not_mem
    rw [hcrate] at hslash
    simp only [List.mem_append, List.mem_cons, not_or] at hslash
    rintro ⟨-, honce⟩
    refine honce (p.separator_eq.resolve_left (fun heq => hslash.2.2.2.1 heq.symm)) ?_
    exact ⟨x, t, version, s, path, by rw [hpath, hafter.eq], hslash.2.2.2.2, hafter⟩

/-- A crate with a name is matched somehow. -/
theorem exists_matchHere (p : RegistryPath) (hname : p.name ≠ "") :
    ∃ captures, cargoDepPattern.matchHere p.cargoDir = some captures := by
  refine Option.ne_none_iff_exists'.mp ?_
  have hsep := p.isSeparator_separator
  have hcrate : ∀ c ∈ p.name.toList, (c != '/') = true := by
    intro c hc
    exact bne_iff_ne.mpr (fun heq => p.name_slash (heq ▸ hc))
  have hne : p.registry.toList ≠ [] := fun h => p.registry_ne (String.toList_eq_nil_iff.mp h)
  have hne' : p.name.toList ≠ [] := fun h => hname (String.toList_eq_nil_iff.mp h)
  have hmatches : ∃ captures, Regex.Matches cargoDepPattern p.cargoDir [] [] captures :=
    ⟨_, ((((((((((Regex.Matches.letter hsep _ _).cat (Regex.matches_word _ _ _)).cat
      (.letter hsep _ _)).cat (Regex.matches_word _ _ _)).cat (.letter hsep _ _)).cat
      (Regex.matches_word _ _ _)).cat (.letter hsep _ _)).cat
      (.group (Regex.matches_plus_letter hne p.registry_letters _ _))).cat (.letter hsep _ _)).cat
      (.group (Regex.matches_plus_letter hne' hcrate _ _))).cat (p.afterCrate.matches _)⟩
  obtain ⟨captures, h⟩ := hmatches
  exact h.run_ne_none (Option.some_ne_none _)

/-- Nothing in front of `.cargo` matches. -/
theorem matchHere_front (p : RegistryPath) {t : List Char} (hne : t ≠ [])
    (hsuffix : t <:+ p.front.toList) : cargoDepPattern.matchHere (t ++ p.cargoDir) = none := by
  by_contra hsome
  obtain ⟨captures, hcaptures⟩ := Option.ne_none_iff_exists'.mp hsome
  obtain ⟨s₁, s₂, s₃, s₄, registry, s₅, rest, -, -, -, -, heq, -⟩ := matchHere_cases hcaptures
  cases t with
  | nil => exact hne rfl
  | cons c t =>
      have hnot : ¬ ".cargo".toList <+: t := by
        intro hcargo
        refine p.front_eq (hcargo.isInfix.trans ?_)
        exact ((List.suffix_cons c t).trans hsuffix).isInfix
      rcases List.append_eq_append_iff.mp (List.cons.inj heq).2 with ⟨a, hword, hdir⟩ | ⟨a, ht, -⟩
      · cases a with
        | nil =>
            rw [List.append_nil] at hword
            exact hnot ⟨[], by rw [List.append_nil, hword]⟩
        | cons c' a =>
            -- the word `.cargo` would hold the separator in front of it
            rw [← (List.cons.inj hdir).1] at hword
            have hmem : p.separator ∈ ".cargo".toList := hword ▸ by simp
            rcases p.separator_eq with h | h <;> rw [h] at hmem <;> exact absurd hmem (by decide)
      · exact hnot ⟨a, ht.symm⟩

theorem search_rawPath (p : RegistryPath) :
    cargoDepPattern.search p.rawPath.toList = cargoDepPattern.search p.cargoDir := by
  rw [rawPath_toList]
  exact Regex.search_append (fun t hne hsuffix => p.matchHere_front hne hsuffix)

end RegistryPath

/-! ## Permalinks -/

/-- The letters of a permalink into a registry. -/
def cargoLink (registry crate version path : List Char) : List Char :=
  "cargo:".toList ++ (registry ++ ':' :: (crate ++ '-' :: (version ++ ':' ::
    path.map (fun c => if c = '\\' then '/' else c))))

theorem RegistryPath.link_toList (p : RegistryPath) :
    p.link.toList
      = cargoLink p.registry.toList p.name.toList p.version.toList p.path.toList := by
  delta link cargoLink
  simp [forwardSlashes]

theorem length_cargoLink_registryDir (s₁ s₂ s₃ s₄ s₅ s : Char)
    (registry crate version path : List Char) :
    (cargoLink registry crate version path).length + 15
      = (registryDir s₁ s₂ s₃ s₄ registry s₅ (crate ++ '-' :: (version ++ s :: path))).length := by
  have hcargo : ".cargo".toList.length = 6 := rfl
  have hregistry : "registry".toList.length = 8 := rfl
  have hsrc : "src".toList.length = 3 := rfl
  have hlink : "cargo:".toList.length = 6 := rfl
  delta cargoLink registryDir
  simp only [List.length_append, List.length_cons, List.length_map]
  omega

/-- A permalink is shorter than the match that leads to it. -/
theorem length_cargoLink (s₁ s₂ s₃ s₄ s₅ : Char)
    {registry rest crate t version path : List Char} {captures : Regex.Captures Char String}
    (h : CargoMatch registry rest captures crate t version path) :
    (cargoLink registry crate version path).length + 15
      = (registryDir s₁ s₂ s₃ s₄ registry s₅ rest).length := by
  obtain ⟨s, hafter⟩ := h.after
  rw [h.rest_eq, hafter.eq]
  exact length_cargoLink_registryDir _ _ _ _ _ _ _ _ _ _

section Rule

variable [Crates]

/-- The permalink that a match leads to. -/
theorem cargoRule_of_search (hregex : ∀ s, Crates.cargoDepRegex s = cargoDepCaptures s)
    {rawPath : String} {captures : Regex.Captures Char String}
    (hsearch : cargoDepPattern.search rawPath.toList = some captures)
    {registry rest crate t version path : List Char}
    (h : CargoMatch registry rest captures crate t version path) :
    ∃ link, cargoRule rawPath = some link ∧
      link.toList = cargoLink registry crate version path := by
  have hcaptures : cargoDepCaptures rawPath = some ⟨String.ofList registry, String.ofList crate,
      String.ofList version, String.ofList path⟩ := by
    unfold cargoDepCaptures
    rw [hsearch, h.captures_eq]
    rfl
  refine ⟨_, by rw [cargoRule, hregex, hcaptures]; rfl, ?_⟩
  delta cargoLink
  simp [forwardSlashes]

/-- **THE RULE FOR CARGO** gives the permalink of the file if and only if the crate is
    named once. -/
theorem cargoRule_iff (hregex : ∀ s, Crates.cargoDepRegex s = cargoDepCaptures s)
    (p : RegistryPath) :
    (cargoRule p.rawPath).getD p.rawPath = p.link ↔ p.NamedOnce := by
  have hsearch := p.search_rawPath
  cases hhere : cargoDepPattern.matchHere p.cargoDir with
  | some captures =>
      obtain ⟨s₁, s₂, s₃, s₄, registry, s₅, rest, crate, t, version, path, hdir, hs₅, hregistry,
        hmatch⟩ := matchHere_cases hhere
      obtain ⟨rfl, rfl⟩ := registryDir_inj p.registry_not_separator p.isSeparator_separator hregistry hs₅ hdir
      obtain ⟨link, hlink, hletters⟩ := cargoRule_of_search hregex
        (hsearch.trans (Regex.search_of_matchHere hhere)) hmatch
      rw [hlink, Option.getD_some, ← String.toList_inj, hletters, p.link_toList]
      rcases p.crate_cases hmatch with ⟨honce, rfl, rfl, rfl⟩ | ⟨honce, x, rfl⟩
      · exact ⟨fun _ => honce, fun _ => rfl⟩
      · refine ⟨fun heq => ?_, fun h => absurd h honce⟩
        -- the permalink goes on with the separator instead of a colon
        have h₁ := (List.cons.inj (List.append_cancel_left (List.append_cancel_left heq))).2
        rw [List.append_assoc] at h₁
        have h₂ := (List.cons.inj (List.append_cancel_left h₁)).2
        rw [List.append_eq, List.append_assoc] at h₂
        have hcolon := (List.cons.inj (List.append_cancel_left h₂)).1
        rcases p.separator_eq with h | h <;> rw [h] at hcolon <;> cases hcolon
  | none =>
      -- without a name: what matches further on is shorter
      have hname : ¬ p.NamedOnce := by
        rintro ⟨hname, -⟩
        obtain ⟨captures, hsome⟩ := p.exists_matchHere hname
        rw [hhere] at hsome
        cases hsome
      refine ⟨fun heq => absurd heq ?_, fun h => absurd h hname⟩
      have hlength : p.link.toList.length + 15 = p.cargoDir.length := by
        rw [p.link_toList]
        exact length_cargoLink_registryDir _ _ _ _ _ _ _ _ _ _
      rw [← String.toList_inj]
      cases hfound : cargoDepPattern.search p.cargoDir with
      | none =>
          have hnone : cargoRule p.rawPath = none := by
            unfold cargoRule
            rw [hregex, cargoDepCaptures, hsearch, hfound]
            rfl
          rw [hnone, Option.getD_none, p.rawPath_toList]
          intro heq
          have h := congrArg List.length heq
          rw [List.length_append] at h
          omega
      | some captures =>
          obtain ⟨t, hsuffix, hmatchHere⟩ := Regex.exists_matchHere_of_search hfound
          obtain ⟨s₁, s₂, s₃, s₄, registry, s₅, rest, crate, t', version, path, rfl, -, -,
            hmatch⟩ := matchHere_cases hmatchHere
          obtain ⟨link, hlink, hletters⟩ :=
            cargoRule_of_search hregex (hsearch.trans hfound) hmatch
          rw [hlink, Option.getD_some, hletters]
          intro heq
          have h := length_cargoLink s₁ s₂ s₃ s₄ s₅ hmatch
          rw [heq, hlength] at h
          rw [← hsuffix.eq_of_length h.symm, hmatchHere] at hhere
          cases hhere

end Rule

/-! ## The mapper -/

/-- Where neither the extra mapper nor the rule for Rust has an answer. -/
theorem mapPath_mappedPath [Crates] [Platform] {E : Type} [ExtraPathMapper E] (m : PathMapper E)
    {rawPath : String} (hextra : (m.mapExtra rawPath).1 = none)
    (hrustc : Crates.rustcRegex rawPath = none) :
    (m.mapPath rawPath).1.mappedPath = (cargoRule rawPath).getD rawPath := by
  have hanswer : (m.mapPath rawPath).1
      = resolveWith (m.mapExtra rawPath).2.basePath none rawPath := by
    unfold mapPath
    cases h : m.mapExtra rawPath with
    | mk answer m' =>
        rw [h] at hextra
        obtain rfl : answer = none := hextra
        exact mapCached_fst m' rawPath
  rw [hanswer, resolveWith_mappedPath, rustcRule, hrustc]
  rfl

/-- **CARGO PATHS**: a file in a cargo registry is mapped to its permalink if and only
    if the crate is named once. -/
theorem mapPath_cargo_iff [Crates] [Platform] {E : Type} [ExtraPathMapper E]
    (hregex : ∀ s, Crates.cargoDepRegex s = cargoDepCaptures s) (p : RegistryPath)
    (m : PathMapper E) (hextra : (m.mapExtra p.rawPath).1 = none)
    (hrustc : Crates.rustcRegex p.rawPath = none) :
    (m.mapPath p.rawPath).1.mappedPath = p.link ↔ p.NamedOnce := by
  rw [mapPath_mappedPath m hextra hrustc]
  exact cargoRule_iff hregex p

/-- A file of `nom`, below a home directory. -/
def nomFile : RegistryPath where
  front := "/home/me"
  separator := '/'
  registry := "github.com-1ecc6299db9ec823"
  name := "nom"
  version := "7.1.3"
  path := "src/lib.rs"
  separator_eq := Or.inl rfl
  front_eq := by decide
  registry_ne := by decide
  registry_eq := by decide
  name_eq := by decide
  version_eq := ⟨['7'], ['1'], ['3'], by decide⟩
  path_eq := by decide

/-- A crate with another crate's files in a directory of its own, on Windows. -/
def vendoredFile : RegistryPath where
  front := "C:"
  separator := '\\'
  registry := "r"
  name := "foo"
  version := "1.2.3"
  path := "vendor\\bar-4.5.6\\lib.rs"
  separator_eq := Or.inr rfl
  front_eq := by decide
  registry_ne := by decide
  registry_eq := by decide
  name_eq := by decide
  version_eq := ⟨['1'], ['2'], ['3'], by decide⟩
  path_eq := by decide

/-- The regex crate, as far as the pattern for cargo goes. -/
abbrev cargoCrates : Crates := { Crates.nothing with cargoDepRegex := cargoDepCaptures }

theorem mapPath_cargo_nom :
    let _ : Crates := cargoCrates
    let _ : Platform := unix
    ((new .noLocalSourceFileAccess : PathMapper Unit).mapPath nomFile.rawPath).1.mappedPath
      = nomFile.link := by
  intro crates platform
  exact (mapPath_cargo_iff (fun _ => rfl) nomFile (new .noLocalSourceFileAccess : PathMapper Unit)
    rfl rfl).mpr ⟨by decide, fun h => absurd h (by decide)⟩

/-- The crate runs on to the vendored one. -/
theorem not_mapPath_cargo_vendored :
    let _ : Crates := cargoCrates
    let _ : Platform := unix
    ((new .noLocalSourceFileAccess : PathMapper Unit).mapPath vendoredFile.rawPath).1.mappedPath
      ≠ vendoredFile.link := by
  intro crates platform h
  rw [mapPath_mappedPath _ rfl rfl] at h
  have honce := (cargoRule_iff (fun _ => rfl) vendoredFile).mp h
  refine honce.2 rfl ⟨"vendor\\bar".toList, "-4.5.6\\lib.rs".toList, "4.5.6".toList, '\\',
    "lib.rs".toList, by decide, by decide, by decide, ?_, by decide, by decide⟩
  exact ⟨['4'], ['5'], ['6'], by decide⟩

end ProfilerGetSymbols.PathMapper
