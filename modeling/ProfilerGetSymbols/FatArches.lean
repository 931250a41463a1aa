import ProfilerGetSymbols.MachO

/-! # Fat arches — the slice with a debug ID

    `get_arch_range` goes over the slices of a fat file and returns the first
    one with the requested debug ID.  A slice with another debug ID is passed
    over, and so is one without any; one that cannot be parsed ends the search.

    So the matching slice is found exactly if every slice before it parses
    (`findsSlice_iff`). -/

namespace ProfilerGetSymbols.MachO

open ProgLib

section Search

variable [Crates] (fileContents : FileContents) (debugId : DebugId)

/-- The slice parses. -/
def Parses (arch : Nat × Nat) : Prop :=
  ∃ file, Crates.parseFile (fileContents.range arch.1 arch.2) = .ok file

/-- The slice parses, and has the debug ID. -/
def Matches (arch : Nat × Nat) : Prop :=
  ∃ file, Crates.parseFile (fileContents.range arch.1 arch.2) = .ok file ∧
    debugIdForObject file = some debugId

/-- `arch` is the first of the slices that matches. -/
def FirstMatch (arches : List (Nat × Nat)) (arch : Nat × Nat) : Prop :=
  ∃ before after, arches = before ++ arch :: after ∧ Matches fileContents debugId arch ∧
    ∀ a ∈ before, ¬ Matches fileContents debugId a

/-- **THE SLICE IS FOUND**: the range of the first slice that matches is returned, and
    an error where none does. -/
structure FindsSlice (arches : List (Nat × Nat)) : Prop where
  found : ∀ arch, FirstMatch fileContents debugId arches arch →
    getArchRange fileContents arches debugId = .ok arch
  notFound : (∀ arch ∈ arches, ¬ Matches fileContents debugId arch) →
    ∃ e, getArchRange fileContents arches debugId = .error e

/-- Every slice before the first one that matches parses. -/
def ParsesBeforeMatch (arches : List (Nat × Nat)) : Prop :=
  ∀ before arch after, arches = before ++ arch :: after → Matches fileContents debugId arch →
    (∀ a ∈ before, ¬ Matches fileContents debugId a) → ∀ a ∈ before, Parses fileContents a

variable {fileContents debugId}

variable {arch : Nat × Nat} {arches : List (Nat × Nat)} {debugIds : List DebugId}
  {errors : List GetSymbolsError}

/-! ## One round -/

/-- A slice that matches is returned. -/
theorem findArchRange_of_matches (h : Matches fileContents debugId arch) :
    findArchRange fileContents debugId (arch :: arches) debugIds errors = .ok arch := by
  obtain ⟨file, hfile, hdebugId⟩ := h
  rw [findArchRange, hfile]
  simp [Except.mapError, hdebugId, bind, Except.bind, pure, Except.pure]

/-- A slice that parses without matching is passed over, with a note of it. -/
theorem findArchRange_of_parses (h : Parses fileContents arch)
    (hother : ¬ Matches fileContents debugId arch) :
    ∃ debugIds' errors', findArchRange fileContents debugId (arch :: arches) debugIds errors
      = findArchRange fileContents debugId arches debugIds' errors' := by
  obtain ⟨file, hfile⟩ := h
  rw [findArchRange, hfile]
  cases hdebugId : debugIdForObject file with
  | none => exact ⟨_, _, by simp [Except.mapError, hdebugId, bind, Except.bind]; rfl⟩
  | some di =>
      have hne : di ≠ debugId := by
        rintro rfl
        exact hother ⟨file, hfile, hdebugId⟩
      exact ⟨_, _, by simp [Except.mapError, hdebugId, hne, bind, Except.bind]; rfl⟩

/-- A slice that does not parse ends the search. -/
theorem findArchRange_of_not_parses (h : ¬ Parses fileContents arch) :
    ∃ e, findArchRange fileContents debugId (arch :: arches) debugIds errors = .error e := by
  cases hparse : Crates.parseFile (fileContents.range arch.1 arch.2) with
  | ok file => exact absurd ⟨file, hparse⟩ h
  | error e =>
      refine ⟨.machOHeaderParseError e, ?_⟩
      rw [findArchRange, hparse]
      rfl

/-! ## The search -/

/-- Slices that parse without matching are passed over. -/
theorem findArchRange_append {before : List (Nat × Nat)}
    (h : ∀ a ∈ before, Parses fileContents a ∧ ¬ Matches fileContents debugId a)
    (arches : List (Nat × Nat)) (debugIds : List DebugId) (errors : List GetSymbolsError) :
    ∃ debugIds' errors', findArchRange fileContents debugId (before ++ arches) debugIds errors
      = findArchRange fileContents debugId arches debugIds' errors' := by
  induction before generalizing debugIds errors with
  | nil => exact ⟨debugIds, errors, rfl⟩
  | cons a before ih =>
      rw [List.forall_mem_cons] at h
      obtain ⟨ids, errs, hround⟩ := findArchRange_of_parses h.1.1 h.1.2
      rw [List.cons_append, hround]
      exact ih h.2 ids errs

/-- Behind a slice that does not parse nothing is found. -/
theorem findArchRange_of_blocked {before : List (Nat × Nat)}
    (h : ∀ a ∈ before, ¬ Matches fileContents debugId a)
    (hblocked : ∃ a ∈ before, ¬ Parses fileContents a) (arches : List (Nat × Nat))
    (debugIds : List DebugId) (errors : List GetSymbolsError) :
    ∃ e, findArchRange fileContents debugId (before ++ arches) debugIds errors = .error e := by
  induction before generalizing debugIds errors with
  | nil =>
      obtain ⟨a, ha, -⟩ := hblocked
      cases ha
  | cons a before ih =>
      rw [List.forall_mem_cons] at h
      rw [List.cons_append]
      by_cases hparses : Parses fileContents a
      · obtain ⟨ids, errs, hround⟩ := findArchRange_of_parses hparses h.1
        rw [hround]
        obtain ⟨b, hb, hunparsable⟩ := hblocked
        rcases List.mem_cons.mp hb with rfl | hb
        · exact absurd hparses hunparsable
        · exact ih h.2 ⟨b, hb, hunparsable⟩ ids errs
      · exact findArchRange_of_not_parses hparses

/-- Without a match the search fails. -/
theorem findArchRange_of_no_match (h : ∀ a ∈ arches, ¬ Matches fileContents debugId a)
    (debugIds : List DebugId) (errors : List GetSymbolsError) :
    ∃ e, findArchRange fileContents debugId arches debugIds errors = .error e := by
  by_cases hblocked : ∃ a ∈ arches, ¬ Parses fileContents a
  · have := findArchRange_of_blocked h hblocked [] debugIds errors
    rwa [List.append_nil] at this
  · have hall : ∀ a ∈ arches, Parses fileContents a ∧ ¬ Matches fileContents debugId a :=
      fun a ha => ⟨not_not.mp (fun hnot => hblocked ⟨a, ha, hnot⟩), h a ha⟩
    obtain ⟨ids, errs, heq⟩ := findArchRange_append hall [] debugIds errors
    rw [List.append_nil] at heq
    exact ⟨_, heq⟩

/-- **WHEN THE SLICE IS FOUND**: exactly when every slice before the first one that
    matches parses. -/
theorem findsSlice_iff (fileContents : FileContents) (debugId : DebugId)
    (arches : List (Nat × Nat)) :
    FindsSlice fileContents debugId arches ↔ ParsesBeforeMatch fileContents debugId arches := by
  constructor
  · rintro h before arch after rfl hmatch hbefore a ha
    by_contra hunparsable
    have hfound := h.found arch ⟨before, after, rfl, hmatch, hbefore⟩
    obtain ⟨e, he⟩ := findArchRange_of_blocked hbefore ⟨a, ha, hunparsable⟩
      (arch :: after) [] []
    rw [getArchRange, he] at hfound
    cases hfound
  · intro h
    refine ⟨?_, fun hnone => findArchRange_of_no_match hnone [] []⟩
    rintro arch ⟨before, after, rfl, hmatch, hbefore⟩
    have hparses := h before arch after rfl hmatch hbefore
    obtain ⟨ids, errs, heq⟩ := findArchRange_append
      (fun a ha => ⟨hparses a ha, hbefore a ha⟩) (arch :: after) [] []
    rw [getArchRange, heq]
    exact findArchRange_of_matches hmatch

end Search

/-! ## A damaged slice -/

section Samples

/-- In the file, the slice at 1024 parses. -/
local instance : Crates :=
  { Crates.nothing with
    parseFile := fun r => if r.rangeStart = 1024 then
      .ok { ObjectFile.bare with machUuid := some (List.replicate 16 1) }
      else .error "Unknown file magic" }

/-- Sixteen bytes of something else, and a mach-O object of 265 bytes. -/
def twoSlices : List (Nat × Nat) := [(512, 16), (1024, 265)]

/-- The slice with the debug ID is not found behind one that does not parse. -/
theorem not_findsSlice_damaged :
    ¬ FindsSlice (.zeros 1289) (.fromUuid (List.replicate 16 1))
      twoSlices := by
  intro h
  have hfound := h.found (1024, 265) ⟨[(512, 16)], [], rfl, ⟨_, rfl, rfl⟩, ?_⟩
  · cases hfound
  · rintro a ha ⟨file, hfile, -⟩
    obtain rfl := List.mem_singleton.mp ha
    cases hfile

end Samples

end ProfilerGetSymbols.MachO
