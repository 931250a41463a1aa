import ProfilerGetSymbols.FatArches
import ProfilerGetSymbols.Provenance

/-! # Refusals — where the errors that name debug IDs come from

    A query for a symbol table is refused where a file has another debug ID, and
    a fat file answers with the debug IDs of its slices.  `Checks` describes,
    route by route, the object or PDB whose debug ID an attempt compares with
    that of the query, and `Offers` the fat files; an error that names debug IDs
    comes from there and from nowhere else. -/

namespace ProfilerGetSymbols.Candidates

open ProgLib Paths

section Refused

variable [Crates] [Platform] [Target]

/-! ## What an attempt checks -/

/-- The attempt compares the debug ID of this source with that of the query. -/
inductive Checks (outside : Outside) (fuel : Nat) (query : SymbolicationQuery) :
    CandidatePathInfo → SymbolSource → Prop
  | elf {location : FileLocation} {contents : FileContents} {obj : ObjectFile} :
      (outside 0).helper.openFile location = .ok contents →
      (Crates.fileKind contents = some .elf32 ∨ Crates.fileKind contents = some .elf64) →
      Crates.parseFile contents.fullRange = .ok obj →
      Checks outside fuel query (.singleFile location) (.object obj)
  | machO {location : FileLocation} {contents : FileContents} {obj : ObjectFile} :
      (outside 0).helper.openFile location = .ok contents →
      (Crates.fileKind contents = some .machO32 ∨ Crates.fileKind contents = some .machO64) →
      Crates.parseFile contents.fullRange = .ok obj →
      Checks outside fuel query (.singleFile location) (.object obj)
  | dyldImage {dyldCachePath : PathBuf} {dylibPath : String} {contents : FileContents}
      {subcaches : List FileContents} {images : List DyldImage} {image : DyldImage}
      {obj : ObjectFile} {data : RangeReadRef × Nat} :
      (outside 0).helper.openFile (.path dyldCachePath) = .ok contents →
      MachO.openSubcaches outside.helpers (Platform.toStringLossy dyldCachePath) fuel 1
        = .ok subcaches →
      Crates.dyldCacheImages contents (subcaches ++
        ((outside.helpers (subcaches.length + 2)).openFile (.path (.ofString
          (Platform.toStringLossy dyldCachePath ++ ".symbols")))).toOption.toList)
        = .ok images →
      images.find? (·.path = some dylibPath) = some image →
      image.parseObject = .ok obj → image.imageDataAndOffset = .ok data →
      Checks outside fuel query (.inDyldCache dyldCachePath dylibPath) (.object obj)
  | pdb {location : FileLocation} {contents : FileContents} {pdb : Pdb} :
      (outside 0).helper.openFile location = .ok contents → Crates.fileKind contents = none →
      Crates.openPdb contents = .ok pdb →
      Checks outside fuel query (.singleFile location) (.pdb pdb)
  /-- A PE binary is checked after the PDBs that the helper names for it. -/
  | pe {location : FileLocation} {contents : FileContents} {pe : ObjectFile} {info : PdbInfo}
      {pdbLocations : List FileLocation} :
      (outside 0).helper.openFile location = .ok contents →
      (Crates.fileKind contents = some .pe32 ∨ Crates.fileKind contents = some .pe64) →
      Crates.parseFile contents.fullRange = .ok pe → pe.pdbInfo = some info → 0 ∉ info.path →
      (outside 1).helper.getCandidatePathsForPdb query.debugName query.debugId info.path location
        = .ok pdbLocations →
      (Windows.tryPdbLocations CompactSymbolTable query location
        (fun n => (outside (n + 2)).helper) pdbLocations : Call GetSymbolsError _) = .ok none →
      Checks outside fuel query (.singleFile location) (.object pe)

/-- The debug ID of a slice of a fat file. -/
def sliceId (contents : FileContents) (arch : Nat × Nat) : Option DebugId := do
  let file ← (Crates.parseFile (contents.range arch.1 arch.2)).toOption
  debugIdForObject file

/-- The debug IDs of the slices of a fat file, in order. -/
def sliceIds (contents : FileContents) (arches : List (Nat × Nat)) : List DebugId :=
  arches.filterMap (sliceId contents)

/-- The file is a fat one with these slices, of which an attempt picks one by its debug ID. -/
structure Offers (outside : Outside) (location : FileLocation) (contents : FileContents)
    (arches : List (Nat × Nat)) : Prop where
  opened : (outside 0).helper.openFile location = .ok contents
  slices : Crates.fileKind contents = some .machOFat32 ∧ Crates.parseArch32 contents = .ok arches ∨
    Crates.fileKind contents = some .machOFat64 ∧ Crates.parseArch64 contents = .ok arches

/-- The error is that the source has another debug ID than the query. -/
def Mismatch (query : SymbolicationQuery) (source : SymbolSource) (err : GetSymbolsError) : Prop :=
  ∃ expected, source.debugId = some expected ∧ expected ≠ query.debugId ∧
    err = .unmatchedDebugId expected query.debugId

/-- The error names the debug IDs that there are. -/
def NamesIds : GetSymbolsError → Prop
  | .unmatchedDebugId _ _ => True
  | .noMatchMultiArch _ _ => True
  | _ => False

variable {outside : Outside} {fuel : Nat} {query : SymbolicationQuery} {basePath : BasePath}
  {err : GetSymbolsError} {debugName : String} {debugId : DebugId}

/-! ## Where debug IDs are named -/

section Refusals

omit [Crates] [Platform] [Target] in
/-- The table of a map never fails. -/
theorem fromFullMap_ne_err (map : List (Nat × String)) (err : GetSymbolsError) :
    (SymbolicationResult.fromFullMap map : Call GetSymbolsError CompactSymbolTable)
      ≠ .err err := by
  intro h
  cases h

omit [Crates] [Platform] [Target] in
/-- The error of a crate, wrapped, names no debug IDs. -/
theorem not_namesIds_of_mapError {ε α : Type} {wrap : ε → GetSymbolsError} {x : Except ε α}
    (hwrap : ∀ e, ¬ NamesIds (wrap e))
    (h : (Outcome.ofExcept (x.mapError wrap) : Call GetSymbolsError α) = .err err) :
    ¬ NamesIds err := by
  obtain ⟨e, -, rfl⟩ := Outcome.ofExcept_mapError_eq_err.mp h
  exact hwrap e

omit [Platform] [Target] in
/-- The symbols of a mach-O object fail for other reasons. -/
theorem not_namesIds_machOSymbols {obj : ObjectFile} {machoData : MachO.MachOData}
    (h : machOSymbols CompactSymbolTable obj machoData .allSymbols = .err err) :
    ¬ NamesIds err := by
  rcases Outcome.bind_eq_err.mp h with hstarts | ⟨starts, -, hmap⟩
  · rcases Outcome.bind_eq_err.mp hstarts with hdata | ⟨data, -, hpure⟩
    · exact not_namesIds_of_mapError (fun _ => id) hdata
    · cases hpure
  · exact absurd hmap (fromFullMap_ne_err _ _)

omit [Platform] [Target] in
theorem machOObject_eq_err {obj : ObjectFile} {machoData : MachO.MachOData}
    (hkind : query.resultKind = .allSymbols) (hids : NamesIds err) :
    MachO.getSymbolicationResultFromMachOObject CompactSymbolTable obj machoData query = .err err ↔
      Mismatch query (.object obj) err := by
  rw [getSymbolicationResultFromMachOObject_eq]
  constructor
  · intro h
    cases hid : debugIdForObject obj with
    | none =>
        rw [hid] at h
        cases h
        exact hids.elim
    | some fileDebugId =>
        rw [hid] at h
        by_cases heq : fileDebugId = query.debugId
        · rw [Option.elim_some, if_neg (not_not.mpr heq), hkind] at h
          exact absurd hids (not_namesIds_machOSymbols h)
        · rw [Option.elim_some, if_pos heq] at h
          cases h
          exact ⟨fileDebugId, hid, heq, rfl⟩
  · rintro ⟨expected, hid, hne, rfl⟩
    have hid : debugIdForObject obj = some expected := hid
    rw [hid, Option.elim_some, if_pos hne]

omit [Target] in
theorem machO_eq_err {contents : FileContents} {fileRange : Option (Nat × Nat)}
    (hkind : query.resultKind = .allSymbols) (hids : NamesIds err) :
    MachO.getSymbolicationResult CompactSymbolTable outside fuel basePath contents fileRange query
        = .err err ↔
      ∃ obj, Crates.parseFile (MachO.objectRange contents fileRange) = .ok obj ∧
        Mismatch query (.object obj) err := by
  rw [MachO.getSymbolicationResult]
  constructor
  · intro h
    rcases Outcome.bind_eq_err.mp h with hparse | ⟨obj, hobj, h⟩
    · exact absurd hids (not_namesIds_of_mapError (fun _ => id) hparse)
    · refine ⟨obj, Outcome.ofExcept_mapError_eq_ok.mp hobj, ?_⟩
      rcases Outcome.bind_eq_err.mp h with hsymbols | ⟨symbols, -, hrest⟩
      · exact (machOObject_eq_err hkind hids).mp hsymbols
      · rw [hkind] at hrest
        cases hrest
  · rintro ⟨obj, hobj, hmismatch⟩
    rw [hobj]
    refine Outcome.bind_eq_err.mpr (Or.inr ⟨obj, rfl, ?_⟩)
    exact Outcome.bind_eq_err.mpr (Or.inl ((machOObject_eq_err hkind hids).mpr hmismatch))

omit [Platform] [Target] in
/-- The slice that is found has the debug ID. -/
theorem matches_of_findArchRange {contents : FileContents} {debugId : DebugId}
    {arches : List (Nat × Nat)} {debugIds : List DebugId} {errors : List GetSymbolsError}
    {range : Nat × Nat}
    (h : MachO.findArchRange contents debugId arches debugIds errors = .ok range) :
    MachO.Matches contents debugId range := by
  induction arches generalizing debugIds errors with
  | nil => cases h
  | cons arch arches ih =>
      by_cases hmatches : MachO.Matches contents debugId arch
      · rw [MachO.findArchRange_of_matches hmatches] at h
        exact Except.ok.inj h ▸ hmatches
      · by_cases hparses : MachO.Parses contents arch
        · obtain ⟨ids, errs, hround⟩ := MachO.findArchRange_of_parses hparses hmatches
          rw [hround] at h
          exact ih h
        · obtain ⟨e, he⟩ := MachO.findArchRange_of_not_parses hparses
          rw [he] at h
          cases h

omit [Platform] [Target] in
/-- The search fails with the debug IDs of all slices, or on a slice that does not parse. -/
theorem findArchRange_eq_error {contents : FileContents} {debugId : DebugId}
    {arches : List (Nat × Nat)} {debugIds : List DebugId} {errors : List GetSymbolsError}
    (h : MachO.findArchRange contents debugId arches debugIds errors = .error err) :
    (∃ errs, err = .noMatchMultiArch (debugIds ++ sliceIds contents arches) errs ∧
      ∀ arch ∈ arches, MachO.Parses contents arch) ∨
    ∃ e, err = .machOHeaderParseError e := by
  induction arches generalizing debugIds errors with
  | nil =>
      refine Or.inl ⟨errors, ?_, by simp⟩
      rw [sliceIds, List.filterMap_nil, List.append_nil]
      exact (Except.error.inj h).symm
  | cons arch arches ih =>
      obtain ⟨start, size⟩ := arch
      rw [MachO.findArchRange] at h
      cases hparse : Crates.parseFile (contents.range start size) with
      | error e =>
          rw [hparse] at h
          exact Or.inr ⟨e, (Except.error.inj h).symm⟩
      | ok file =>
          rw [hparse] at h
          have hslice : sliceId contents (start, size) = debugIdForObject file := by
            rw [sliceId, hparse]
            rfl
          cases hid : debugIdForObject file with
          | none =>
              -- a slice without an ID is passed over
              rw [sliceIds, List.filterMap_cons_none (hslice.trans hid)]
              simp only [Except.mapError, bind, Except.bind, hid] at h
              rcases ih h with ⟨errs, he, hparses⟩ | hother
              · exact Or.inl ⟨errs, he, List.forall_mem_cons.mpr ⟨⟨file, hparse⟩, hparses⟩⟩
              · exact Or.inr hother
          | some di =>
              -- one with another ID joins those that are named
              rw [sliceIds, List.filterMap_cons_some (hslice.trans hid), List.append_cons]
              simp only [Except.mapError, bind, Except.bind, hid] at h
              split at h
              · cases h
              · rcases ih h with ⟨errs, he, hparses⟩ | hother
                · exact Or.inl ⟨errs, he, List.forall_mem_cons.mpr ⟨⟨file, hparse⟩, hparses⟩⟩
                · exact Or.inr hother

omit [Target] in
/-- A slice of a fat file is picked by its debug ID, and never refused. -/
theorem fat_eq_err {fileKind : FileKind} {contents : FileContents}
    {arches : Except String (List (Nat × Nat))} (hkind : query.resultKind = .allSymbols)
    (hids : NamesIds err) :
    getSymbolicationResultFromFat CompactSymbolTable outside fuel basePath fileKind contents arches
        query = .err err ↔
      ∃ slices, arches = .ok slices ∧
        MachO.getArchRange contents slices query.debugId = .error err := by
  constructor
  · intro h
    rcases Outcome.bind_eq_err.mp h with harches | ⟨slices, hslices, h⟩
    · exact absurd hids (not_namesIds_of_mapError (fun _ => id) harches)
    · refine ⟨slices, Outcome.ofExcept_mapError_eq_ok.mp hslices, ?_⟩
      rcases Outcome.bind_eq_err.mp h with hrange | ⟨range, hrange, h⟩
      · exact Outcome.ofExcept_eq_err.mp hrange
      · obtain ⟨obj, hobj, hid⟩ := matches_of_findArchRange (Outcome.ofExcept_eq_ok.mp hrange)
        obtain ⟨obj', hobj', expected, hid', hne, -⟩ := (machO_eq_err hkind hids).mp h
        obtain rfl : obj = obj' := Except.ok.inj (hobj.symm.trans hobj')
        exact absurd (Option.some.inj (hid'.symm.trans hid)) hne
  · rintro ⟨slices, hslices, hrange⟩
    refine Outcome.bind_eq_err.mpr
      (Or.inr ⟨slices, Outcome.ofExcept_mapError_eq_ok.mpr hslices, ?_⟩)
    exact Outcome.bind_eq_err.mpr (Or.inl (Outcome.ofExcept_eq_err.mpr hrange))

theorem elf_eq_err {fileKind : FileKind} {contents : FileContents}
    (hkind : query.resultKind = .allSymbols) (hids : NamesIds err) :
    Elf.getSymbolicationResult CompactSymbolTable basePath fileKind contents query = .err err ↔
      ∃ obj, Crates.parseFile contents.fullRange = .ok obj ∧
        Mismatch query (.object obj) err := by
  -- past the check a symbol table is made without an error
  have himpl : ∀ obj contents', Elf.getSymbolicationResultImpl CompactSymbolTable obj basePath
      contents' query ≠ .err err := by
    intro obj contents' h
    rw [Elf.getSymbolicationResultImpl, hkind] at h
    exact fromFullMap_ne_err _ _ h
  rw [Elf.getSymbolicationResult]
  constructor
  · intro h
    rcases Outcome.bind_eq_err.mp h with hparse | ⟨obj, hobj, h⟩
    · exact absurd hids (not_namesIds_of_mapError (fun _ => id) hparse)
    · refine ⟨obj, Outcome.ofExcept_mapError_eq_ok.mp hobj, ?_⟩
      cases hid : debugIdForObject obj with
      | none =>
          rw [hid] at h
          cases h
          exact hids.elim
      | some elfDebugId =>
          rw [hid] at h
          by_cases heq : elfDebugId = query.debugId
          · simp only [heq, ne_eq, not_true, if_false] at h
            cases hdata : Elf.debugdataObject obj with
            | none =>
                rw [hdata] at h
                exact absurd h (himpl _ _)
            | some inner =>
                rw [hdata] at h
                exact absurd h (himpl _ _)
          · simp only [heq, ne_eq, not_false_iff, if_true] at h
            cases h
            exact ⟨elfDebugId, hid, heq, rfl⟩
  · rintro ⟨obj, hobj, expected, hid, hne, rfl⟩
    have hid : debugIdForObject obj = some expected := hid
    refine Outcome.bind_eq_err.mpr (Or.inr ⟨obj, Outcome.ofExcept_mapError_eq_ok.mpr hobj, ?_⟩)
    rw [hid]
    exact if_pos hne

omit [Crates] [Platform] [Target] in
/-- The debug ID of a PDB is missing for reasons of the PDB. -/
theorem pdbDebugId_eq_error {pdb : Pdb} (h : Windows.pdbDebugId pdb = .error err) :
    ¬ NamesIds err := by
  rw [Windows.pdbDebugId] at h
  cases hinfo : pdb.pdbInformation with
  | error e =>
      rw [hinfo] at h
      cases h
      exact id
  | ok info =>
      rw [hinfo] at h
      cases hdbi : pdb.debugInformation with
      | error e =>
          rw [hdbi] at h
          cases h
          exact id
      | ok age =>
          rw [hdbi] at h
          cases h

omit [Target] in
theorem pdb_eq_err {pdb : Pdb} (hkind : query.resultKind = .allSymbols) (hids : NamesIds err) :
    Windows.getSymbolicationResult CompactSymbolTable basePath pdb query = .err err ↔
      Mismatch query (.pdb pdb) err := by
  rw [Windows.getSymbolicationResult]
  constructor
  · intro h
    rcases Outcome.bind_eq_err.mp h with hid | ⟨fileDebugId, hid, h⟩
    · exact absurd hids (pdbDebugId_eq_error (Outcome.ofExcept_eq_err.mp hid))
    · have hid : (SymbolSource.pdb pdb).debugId = some fileDebugId := by
        rw [SymbolSource.debugId, Outcome.ofExcept_eq_ok.mp hid]
        rfl
      by_cases heq : fileDebugId = query.debugId
      · rw [if_neg (not_not.mpr heq), Windows.srcsrvStreamData, hkind] at h
        rcases Outcome.bind_eq_err.mp h with hstream | ⟨stream, -, h⟩
        · cases hstream
        · rcases Outcome.bind_eq_err.mp h with hdata | ⟨data, -, h⟩
          · exact absurd hids (not_namesIds_of_mapError (fun _ => id) hdata)
          · rcases Outcome.bind_eq_err.mp h with hcontext | ⟨context, -, h⟩
            · exact absurd hids (not_namesIds_of_mapError (fun _ => id) hcontext)
            · rw [Windows.getSymbolicationResultFromContext, hkind] at h
              exact absurd h (fromFullMap_ne_err _ _)
      · rw [if_pos heq] at h
        cases h
        exact ⟨fileDebugId, hid, heq, rfl⟩
  · rintro ⟨expected, hid, hne, rfl⟩
    have hid := toOption_eq_some.mp hid
    refine Outcome.bind_eq_err.mpr (Or.inr ⟨expected, Outcome.ofExcept_eq_ok.mpr hid, ?_⟩)
    exact if_pos hne

omit [Target] in
/-- The PDBs of a binary are tried without an error. -/
theorem tryPdbLocations_ne_err {helpers : Nat → FileAndPathHelper} {location : FileLocation}
    {pdbLocations : List FileLocation} (err : GetSymbolsError) :
    Windows.tryPdbLocations CompactSymbolTable query location helpers pdbLocations
      ≠ .err err := by
  induction pdbLocations generalizing helpers with
  | nil =>
      intro h
      cases h
  | cons pdbLocation pdbLocations ih =>
      intro h
      rw [Windows.tryPdbLocations] at h
      split at h
      · exact ih h
      · rcases Outcome.bind_eq_err.mp h with hattempt | ⟨answer, -, h⟩
        · exact Outcome.attempt_ne_err hattempt
        · cases answer with
          | ok table => cases h
          | error e => exact ih h

omit [Target] in
/-- A PE binary is refused after the PDBs that the helper names have been tried. -/
theorem pe_eq_err {fileKind : FileKind} {contents : FileContents} {location : FileLocation}
    {helpers : Nat → FileAndPathHelper} (hkind : query.resultKind = .allSymbols)
    (hids : NamesIds err) :
    Windows.getSymbolicationResultViaBinary CompactSymbolTable helpers fileKind contents query
        location = .err err ↔
      ∃ pe info pdbLocations, Crates.parseFile contents.fullRange = .ok pe ∧
        pe.pdbInfo = some info ∧ 0 ∉ info.path ∧
        (helpers 0).getCandidatePathsForPdb query.debugName query.debugId info.path location
          = .ok pdbLocations ∧
        Windows.tryPdbLocations CompactSymbolTable query location (fun n => helpers (n + 1))
          pdbLocations = .ok none ∧
        Mismatch query (.object pe) err := by
  rw [Windows.getSymbolicationResultViaBinary]
  constructor
  · intro h
    rcases Outcome.bind_eq_err.mp h with hparse | ⟨pe, hpe, h⟩
    · exact absurd hids (not_namesIds_of_mapError (fun _ => id) hparse)
    · -- the errors on the way to the check name no IDs
      cases hinfo : pe.pdbInfo with
      | none =>
          rw [hinfo] at h
          cases h
          exact hids.elim
      | some info =>
          rw [hinfo] at h
          rcases Outcome.bind_eq_err.mp h with hnul | ⟨u, hnul, h⟩
          · exact absurd hnul (Outcome.assert_ne_err _)
          · rcases Outcome.bind_eq_err.mp h with hlocations | ⟨pdbLocations, hlocations, h⟩
            · exact absurd hids (not_namesIds_of_mapError (fun _ => id) hlocations)
            · rcases Outcome.bind_eq_err.mp h with htry | ⟨found, htry, h⟩
              · exact absurd htry (tryPdbLocations_ne_err _)
              · cases found with
                | some table => cases h
                | none =>
                    -- no PDB was found, so the binary itself is checked
                    refine ⟨pe, info, pdbLocations, Outcome.ofExcept_mapError_eq_ok.mp hpe, hinfo,
                      Outcome.assert_eq_ok.mp hnul,
                      Outcome.ofExcept_mapError_eq_ok.mp hlocations, htry, ?_⟩
                    rcases Outcome.bind_eq_err.mp h with hid | ⟨fileDebugId, hid, h⟩
                    · exact absurd hid (Outcome.unwrap_ne_err _)
                    · by_cases heq : query.debugId = fileDebugId
                      · rw [if_neg (not_not.mpr heq), Windows.getSymbolicationResultFromPe,
                          hkind] at h
                        exact absurd h (fromFullMap_ne_err _ _)
                      · rw [if_pos heq] at h
                        cases h
                        exact ⟨fileDebugId, Outcome.unwrap_eq_ok.mp hid, Ne.symm heq, rfl⟩
  · rintro ⟨pe, info, pdbLocations, hpe, hinfo, hnul, hlocations, htry, expected, hid, hne, rfl⟩
    have hid : debugIdForObject pe = some expected := hid
    refine Outcome.bind_eq_err.mpr (Or.inr ⟨pe, Outcome.ofExcept_mapError_eq_ok.mpr hpe, ?_⟩)
    rw [hinfo]
    refine Outcome.bind_eq_err.mpr (Or.inr ⟨(), Outcome.assert_eq_ok.mpr hnul, ?_⟩)
    refine Outcome.bind_eq_err.mpr
      (Or.inr ⟨pdbLocations, Outcome.ofExcept_mapError_eq_ok.mpr hlocations, ?_⟩)
    refine Outcome.bind_eq_err.mpr (Or.inr ⟨none, htry, ?_⟩)
    refine Outcome.bind_eq_err.mpr (Or.inr ⟨expected, Outcome.unwrap_eq_ok.mpr hid, ?_⟩)
    exact if_pos (Ne.symm hne)

omit [Crates] [Platform] [Target] in
/-- The subcaches are opened without an error. -/
theorem openSubcaches_ne_err {helpers : Nat → FileAndPathHelper} {dyldCachePath : String}
    {subcacheIndex : Nat} (err : GetSymbolsError) :
    MachO.openSubcaches helpers dyldCachePath fuel subcacheIndex ≠ .err err := by
  induction fuel generalizing subcacheIndex with
  | zero =>
      intro h
      cases h
  | succ fuel ih =>
      intro h
      rw [MachO.openSubcaches] at h
      split at h
      · rcases Outcome.bind_eq_err.mp h with hrest | ⟨rest, -, hpure⟩
        · exact ih hrest
        · cases hpure
      · cases h

omit [Target] in
theorem dyldImage_eq_err {dyldCachePath : PathBuf} {dylibPath : String}
    (hkind : query.resultKind = .allSymbols) (hids : NamesIds err) :
    MachO.tryGetSymbolicationResultFromDyldSharedCache CompactSymbolTable outside.helpers fuel query
        dyldCachePath dylibPath = .err err ↔
      ∃ source, Checks outside fuel query (.inDyldCache dyldCachePath dylibPath) source ∧
        Mismatch query source err := by
  rw [MachO.tryGetSymbolicationResultFromDyldSharedCache]
  constructor
  · intro h
    rcases Outcome.bind_eq_err.mp h with hopen | ⟨contents, hopen, h⟩
    · exact absurd hids (not_namesIds_of_mapError (fun _ => id) hopen)
    · -- before the image is parsed, no error names IDs
      rcases Outcome.bind_eq_err.mp h with hsub | ⟨subcaches, hsubcaches, h⟩
      · exact absurd hsub (openSubcaches_ne_err _)
      · rcases Outcome.bind_eq_err.mp h with himages | ⟨images, himages, h⟩
        · exact absurd hids (not_namesIds_of_mapError (fun _ => id) himages)
        · cases himage : images.find? (·.path = some dylibPath) with
          | none =>
              rw [himage] at h
              cases h
              exact hids.elim
          | some image =>
              rw [himage] at h
              rcases Outcome.bind_eq_err.mp h with hobj | ⟨obj, hobj, h⟩
              · exact absurd hids (not_namesIds_of_mapError (fun _ => id) hobj)
              · rcases Outcome.bind_eq_err.mp h with hdata | ⟨data, hdata, h⟩
                · exact absurd hids (not_namesIds_of_mapError (fun _ => id) hdata)
                · exact ⟨.object obj, .dyldImage (Outcome.ofExcept_mapError_eq_ok.mp hopen)
                    hsubcaches (Outcome.ofExcept_mapError_eq_ok.mp himages) himage
                    (Outcome.ofExcept_mapError_eq_ok.mp hobj)
                    (Outcome.ofExcept_mapError_eq_ok.mp hdata),
                    (machOObject_eq_err hkind hids).mp h⟩
  · rintro ⟨source, hchecks, hmismatch⟩
    cases hchecks with
    | @dyldImage _ _ contents subcaches images image obj data hopen hsubcaches himages himage hobj
        hdata =>
        refine Outcome.bind_eq_err.mpr
          (Or.inr ⟨contents, Outcome.ofExcept_mapError_eq_ok.mpr hopen, ?_⟩)
        refine Outcome.bind_eq_err.mpr (Or.inr ⟨subcaches, hsubcaches, ?_⟩)
        refine Outcome.bind_eq_err.mpr
          (Or.inr ⟨images, Outcome.ofExcept_mapError_eq_ok.mpr himages, ?_⟩)
        rw [himage]
        refine Outcome.bind_eq_err.mpr
          (Or.inr ⟨obj, Outcome.ofExcept_mapError_eq_ok.mpr hobj, ?_⟩)
        refine Outcome.bind_eq_err.mpr
          (Or.inr ⟨data, Outcome.ofExcept_mapError_eq_ok.mpr hdata, ?_⟩)
        exact (machOObject_eq_err hkind hids).mpr hmismatch

end Refusals

/-! ## Attempts -/

section Attempts

variable {location : FileLocation}

/-- A file that is open is attempted by its kind. -/
theorem tryCandidate_opened {contents : FileContents}
    (hopen : (outside 0).helper.openFile location = .ok contents) :
    tryCandidate CompactSymbolTable outside fuel query (.singleFile location)
      = getSymbolicationResultFromFile CompactSymbolTable outside.tail fuel query location
          contents := by
  show tryGetSymbolicationResultFromPath CompactSymbolTable outside fuel query location = _
  rw [tryGetSymbolicationResultFromPath, hopen]
  rfl

theorem tryCandidate_eq_err_file (hkind : query.resultKind = .allSymbols) (hids : NamesIds err)
    (h : tryCandidate CompactSymbolTable outside fuel query (.singleFile location) = .err err) :
    (∃ source, Checks outside fuel query (.singleFile location) source ∧
      Mismatch query source err) ∨
    ∃ contents arches, Offers outside location contents arches ∧
      MachO.getArchRange contents arches query.debugId = .error err := by
  rcases Outcome.bind_eq_err.mp h with hopen | ⟨contents, hopen, hfile⟩
  · exact absurd hids (not_namesIds_of_mapError (fun _ => id) hopen)
  -- each kind of file has its own place for the check
  have hopen := Outcome.ofExcept_mapError_eq_ok.mp hopen
  rw [getSymbolicationResultFromFile] at hfile
  cases hfileKind : Crates.fileKind contents with
  | none =>
      rw [hfileKind] at hfile
      cases hpdb : Crates.openPdb contents with
      | error e =>
          rw [hpdb] at hfile
          cases hfile
          exact hids.elim
      | ok pdb =>
          rw [hpdb] at hfile
          exact Or.inl ⟨_, .pdb hopen hfileKind hpdb, (pdb_eq_err hkind hids).mp hfile⟩
  | some fileKind =>
      rw [hfileKind] at hfile
      cases fileKind with
      | elf32 =>
          obtain ⟨obj, hobj, hmismatch⟩ := (elf_eq_err hkind hids).mp hfile
          exact Or.inl ⟨_, .elf hopen (Or.inl hfileKind) hobj, hmismatch⟩
      | elf64 =>
          obtain ⟨obj, hobj, hmismatch⟩ := (elf_eq_err hkind hids).mp hfile
          exact Or.inl ⟨_, .elf hopen (Or.inr hfileKind) hobj, hmismatch⟩
      | machO32 =>
          obtain ⟨obj, hobj, hmismatch⟩ := (machO_eq_err hkind hids).mp hfile
          exact Or.inl ⟨_, .machO hopen (Or.inl hfileKind) hobj, hmismatch⟩
      | machO64 =>
          obtain ⟨obj, hobj, hmismatch⟩ := (machO_eq_err hkind hids).mp hfile
          exact Or.inl ⟨_, .machO hopen (Or.inr hfileKind) hobj, hmismatch⟩
      | machOFat32 =>
          obtain ⟨arches, harches, hrange⟩ := (fat_eq_err hkind hids).mp hfile
          exact Or.inr ⟨_, arches, ⟨hopen, Or.inl ⟨hfileKind, harches⟩⟩, hrange⟩
      | machOFat64 =>
          obtain ⟨arches, harches, hrange⟩ := (fat_eq_err hkind hids).mp hfile
          exact Or.inr ⟨_, arches, ⟨hopen, Or.inr ⟨hfileKind, harches⟩⟩, hrange⟩
      | pe32 =>
          obtain ⟨pe, info, pdbLocations, hobj, hinfo, hnul, hlocations, htry, hmismatch⟩ :=
            (pe_eq_err hkind hids).mp hfile
          exact Or.inl
            ⟨_, .pe hopen (Or.inl hfileKind) hobj hinfo hnul hlocations htry, hmismatch⟩
      | pe64 =>
          obtain ⟨pe, info, pdbLocations, hobj, hinfo, hnul, hlocations, htry, hmismatch⟩ :=
            (pe_eq_err hkind hids).mp hfile
          exact Or.inl
            ⟨_, .pe hopen (Or.inr hfileKind) hobj hinfo hnul hlocations htry, hmismatch⟩
      | unsupported =>
          cases hfile
          exact hids.elim

theorem tryCandidate_of_mismatch {source : SymbolSource} (hkind : query.resultKind = .allSymbols)
    (hids : NamesIds err) (hchecks : Checks outside fuel query (.singleFile location) source)
    (hmismatch : Mismatch query source err) :
    tryCandidate CompactSymbolTable outside fuel query (.singleFile location) = .err err := by
  cases hchecks with
  | elf hopen hfileKind hobj =>
      rw [tryCandidate_opened hopen, getSymbolicationResultFromFile]
      rcases hfileKind with hfileKind | hfileKind
      · rw [hfileKind]
        exact (elf_eq_err hkind hids).mpr ⟨_, hobj, hmismatch⟩
      · rw [hfileKind]
        exact (elf_eq_err hkind hids).mpr ⟨_, hobj, hmismatch⟩
  | machO hopen hfileKind hobj =>
      rw [tryCandidate_opened hopen, getSymbolicationResultFromFile]
      rcases hfileKind with hfileKind | hfileKind
      · rw [hfileKind]
        exact (machO_eq_err hkind hids).mpr ⟨_, hobj, hmismatch⟩
      · rw [hfileKind]
        exact (machO_eq_err hkind hids).mpr ⟨_, hobj, hmismatch⟩
  | pdb hopen hfileKind hpdb =>
      rw [tryCandidate_opened hopen, getSymbolicationResultFromFile, hfileKind, hpdb]
      exact (pdb_eq_err hkind hids).mpr hmismatch
  | pe hopen hfileKind hobj hinfo hnul hlocations htry =>
      rw [tryCandidate_opened hopen, getSymbolicationResultFromFile]
      rcases hfileKind with hfileKind | hfileKind
      · rw [hfileKind]
        exact (pe_eq_err hkind hids).mpr
          ⟨_, _, _, hobj, hinfo, hnul, hlocations, htry, hmismatch⟩
      · rw [hfileKind]
        exact (pe_eq_err hkind hids).mpr
          ⟨_, _, _, hobj, hinfo, hnul, hlocations, htry, hmismatch⟩

/-- **REFUSALS ARE MISMATCHES**: an attempt ends in a refusal exactly if the source that
    it checks has another debug ID, and then the refusal names both. -/
theorem tryCandidate_eq_unmatched {candidate : CandidatePathInfo} {expected supplied : DebugId}
    (hkind : query.resultKind = .allSymbols) :
    tryCandidate CompactSymbolTable outside fuel query candidate
        = .err (.unmatchedDebugId expected supplied) ↔
      ∃ source, Checks outside fuel query candidate source ∧
        Mismatch query source (.unmatchedDebugId expected supplied) := by
  have hids : NamesIds (.unmatchedDebugId expected supplied) := trivial
  cases candidate with
  | inDyldCache dyldCachePath dylibPath => exact dyldImage_eq_err hkind hids
  | singleFile location =>
      constructor
      · intro h
        rcases tryCandidate_eq_err_file hkind hids h with hchecks | ⟨_, _, -, hrange⟩
        · exact hchecks
        · rcases findArchRange_eq_error hrange with ⟨errs, he, -⟩ | ⟨e, he⟩
          · cases he
          · cases he
      · rintro ⟨source, hchecks, hmismatch⟩
        exact tryCandidate_of_mismatch hkind hids hchecks hmismatch

end Attempts

/-! ## The slices of a fat file -/

omit [Platform] [Target] in
/-- Where all slices parse, one that matches is not missed. -/
theorem findArchRange_of_matching {contents : FileContents} {arches : List (Nat × Nat)}
    (hparses : ∀ arch ∈ arches, MachO.Parses contents arch)
    (hmatches : ∃ arch ∈ arches, MachO.Matches contents debugId arch) (debugIds : List DebugId)
    (errors : List GetSymbolsError) :
    ∃ range, MachO.findArchRange contents debugId arches debugIds errors = .ok range := by
  induction arches generalizing debugIds errors with
  | nil =>
      obtain ⟨arch, harch, -⟩ := hmatches
      cases harch
  | cons arch arches ih =>
      rw [List.forall_mem_cons] at hparses
      by_cases hfirst : MachO.Matches contents debugId arch
      · exact ⟨arch, MachO.findArchRange_of_matches hfirst⟩
      · obtain ⟨ids, errs, hround⟩ := MachO.findArchRange_of_parses hparses.1 hfirst
        rw [hround]
        refine ih hparses.2 ?_ ids errs
        obtain ⟨other, hother, hmatches⟩ := hmatches
        rcases List.mem_cons.mp hother with rfl | hother
        · exact absurd hmatches hfirst
        · exact ⟨other, hother, hmatches⟩

omit [Platform] [Target] in
/-- Where all slices parse, each debug ID among theirs finds one of them. -/
theorem getArchRange_of_mem_sliceIds {contents : FileContents} {arches : List (Nat × Nat)}
    (hparses : ∀ arch ∈ arches, MachO.Parses contents arch)
    (hmem : debugId ∈ sliceIds contents arches) :
    ∃ range ∈ arches, MachO.getArchRange contents arches debugId = .ok range ∧
      MachO.Matches contents debugId range := by
  obtain ⟨arch, harch, hid⟩ := List.mem_filterMap.mp hmem
  obtain ⟨file, hfile, hid⟩ := Option.bind_eq_some_iff.mp hid
  obtain ⟨range, hrange⟩ := findArchRange_of_matching hparses
    ⟨arch, harch, file, toOption_eq_some.mp hfile, hid⟩ [] []
  exact ⟨range, findArchRange_mem hrange, hrange, matches_of_findArchRange hrange⟩

/-- The attempt for a debug ID that finds a slice: the symbols of that slice. -/
theorem tryCandidate_of_offers {location : FileLocation} {contents : FileContents}
    {arches : List (Nat × Nat)} {range : Nat × Nat} {obj : ObjectFile}
    (hoffers : Offers outside location contents arches)
    (hrange : MachO.getArchRange contents arches debugId = .ok range)
    (hobj : Crates.parseFile (MachO.objectRange contents (some range)) = .ok obj)
    (hid : debugIdForObject obj = some debugId) :
    tryCandidate CompactSymbolTable outside fuel ⟨debugName, debugId, .allSymbols⟩
        (.singleFile location)
      = machOSymbols CompactSymbolTable obj
          ⟨MachO.objectRange contents (some range), 0, obj.is64⟩ .allSymbols := by
  have hslice : MachO.getSymbolicationResult CompactSymbolTable outside.tail fuel
      location.toBasePath contents (some range) ⟨debugName, debugId, .allSymbols⟩
      = machOSymbols CompactSymbolTable obj
          ⟨MachO.objectRange contents (some range), 0, obj.is64⟩ .allSymbols := by
    rw [MachO.getSymbolicationResult, hobj]
    show (MachO.getSymbolicationResultFromMachOObject CompactSymbolTable obj _ _ >>= fun symbols =>
      pure symbols) = _
    rw [bind_pure, getSymbolicationResultFromMachOObject_eq, hid, Option.elim_some,
      if_neg (not_not.mpr rfl)]
  have hfat : ∀ fileKind, getSymbolicationResultFromFat CompactSymbolTable outside.tail fuel
      location.toBasePath fileKind contents (.ok arches) ⟨debugName, debugId, .allSymbols⟩
      = machOSymbols CompactSymbolTable obj
          ⟨MachO.objectRange contents (some range), 0, obj.is64⟩ .allSymbols := by
    intro fileKind
    rw [← hslice]
    show (Outcome.ofExcept (MachO.getArchRange contents arches debugId) >>= fun range =>
      MachO.getSymbolicationResult CompactSymbolTable outside.tail fuel location.toBasePath contents
        (some range) ⟨debugName, debugId, .allSymbols⟩) = _
    rw [hrange]
    rfl
  -- both widths of fat files go the same way
  rw [tryCandidate_opened hoffers.opened, getSymbolicationResultFromFile]
  rcases hoffers.slices with ⟨hfileKind, harches⟩ | ⟨hfileKind, harches⟩
  · rw [hfileKind, harches]
    exact hfat _
  · rw [hfileKind, harches]
    exact hfat _

end Refused

end ProfilerGetSymbols.Candidates
