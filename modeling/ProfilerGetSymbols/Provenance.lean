import ProfilerGetSymbols.Candidates

/-! # Provenance — the file that symbols come from has the debug ID asked for

    There are seven routes from a candidate to symbols, and each checks the
    debug ID at a place of its own.  `Supplies` describes the routes without the
    checks: where the object or PDB was found, and that the result was collected
    from it.  Whatever is supplied by an attempt that succeeds has the debug ID
    of the query.

    Exempt from the check is what a checked file refers to: the object in its
    `.gnu_debugdata` section, and the external objects of a mach-O file. -/

namespace ProfilerGetSymbols.Candidates

open ProgLib Paths

section Provenance

variable [Crates]

/-! ## Collecting, without the checks -/

/-- What symbols are taken from. -/
inductive SymbolSource where
  | object (obj : ObjectFile)
  | pdb (file : Pdb)

/-- Its own debug ID. -/
def SymbolSource.debugId : SymbolSource → Option DebugId
  | .object obj => debugIdForObject obj
  | .pdb file => (Windows.pdbDebugId file).toOption

section Collect

variable (R : Type) [SymbolicationResult R]

/-- The symbols of a mach-O object. -/
def machOSymbols (obj : ObjectFile) (machoData : MachO.MachOData)
    (kind : SymbolicationResultKind) : Call GetSymbolsError R := do
  let functionStarts ← machoData.getFunctionStarts
  let functionStarts := MachO.withUnwindInfo obj functionStarts
  match kind with
  | .allSymbols => SymbolicationResult.fromFullMap (Symbols.objectToMap obj functionStarts)
  | .symbolsForAddresses addresses _ =>
      Symbols.getSymbolicationResultForAddressesFromObject R addresses obj functionStarts none

variable {R}

/-- The check, and then the symbols. -/
theorem getSymbolicationResultFromMachOObject_eq (obj : ObjectFile) (machoData : MachO.MachOData)
    (query : SymbolicationQuery) :
    MachO.getSymbolicationResultFromMachOObject R obj machoData query
      = (debugIdForObject obj).elim (.err (.invalidInputError "Missing mach-o uuid"))
          (fun fileDebugId =>
            if fileDebugId ≠ query.debugId then .err (.unmatchedDebugId fileDebugId query.debugId)
            else machOSymbols R obj machoData query.resultKind) := by
  rw [MachO.getSymbolicationResultFromMachOObject]
  cases debugIdForObject obj with
  | none => rfl
  | some fileDebugId => rfl

theorem getSymbolicationResultFromMachOObject_eq_ok {obj : ObjectFile}
    {machoData : MachO.MachOData} {query : SymbolicationQuery} {r : R} :
    MachO.getSymbolicationResultFromMachOObject R obj machoData query = .ok r ↔
      debugIdForObject obj = some query.debugId ∧
        machOSymbols R obj machoData query.resultKind = .ok r := by
  rw [getSymbolicationResultFromMachOObject_eq]
  cases hid : debugIdForObject obj with
  | none => simp
  | some fileDebugId =>
      by_cases heq : fileDebugId = query.debugId
      · simp [heq]
      · simp [heq]

variable [Platform]

/-- The debug info from a mach-O object and its external objects, on top of the symbols. -/
def WithExternalObjects (outside : Outside) (fuel : Nat) (basePath : BasePath)
    (range : RangeReadRef) (obj : ObjectFile) (kind : SymbolicationResultKind) (symbols r : R) :
    Prop :=
  match kind with
  | .symbolsForAddresses addresses true =>
      ∃ traversal, Traversal.machine.run outside fuel (.start symbols basePath range obj addresses)
        = .ok traversal ∧ traversal.symbolicationResult = r
  | _ => symbols = r

theorem machO_getSymbolicationResult_eq_ok {outside : Outside} {fuel : Nat} {basePath : BasePath}
    {fileContents : FileContents} {fileRange : Option (Nat × Nat)} {query : SymbolicationQuery}
    {r : R} (h : MachO.getSymbolicationResult R outside fuel basePath fileContents fileRange query
      = .ok r) :
    ∃ obj symbols, Crates.parseFile (MachO.objectRange fileContents fileRange) = .ok obj ∧
      MachO.getSymbolicationResultFromMachOObject R obj
        ⟨MachO.objectRange fileContents fileRange, 0, obj.is64⟩ query = .ok symbols ∧
      WithExternalObjects outside fuel basePath (MachO.objectRange fileContents fileRange) obj
        query.resultKind symbols r := by
  obtain ⟨obj, hobj, h⟩ := Outcome.bind_eq_ok.mp h
  obtain ⟨symbols, hsymbols, h⟩ := Outcome.bind_eq_ok.mp h
  refine ⟨obj, symbols, Outcome.ofExcept_mapError_eq_ok.mp hobj, hsymbols, ?_⟩
  cases hkind : query.resultKind with
  | allSymbols =>
      rw [hkind] at h
      exact Outcome.ok.inj h
  | symbolsForAddresses addresses withDebugInfo =>
      rw [hkind] at h
      cases withDebugInfo with
      | false => exact Outcome.ok.inj h
      | true =>
          obtain ⟨traversal, hrun, heq⟩ := Outcome.bind_eq_ok.mp h
          exact ⟨traversal, hrun, Outcome.ok.inj heq⟩

end Collect

/-! ## The routes -/

section Routes

variable [Platform] [Target] {R : Type} [SymbolicationResult R]

/-- The result is collected from a source that is found in the candidate, with
    debug info from the file at a location or without. -/
inductive Supplies (outside : Outside) (fuel : Nat) (query : SymbolicationQuery) (r : R) :
    CandidatePathInfo → SymbolSource → Option FileLocation → Prop
  /-- An ELF file, by itself or by the object in its `.gnu_debugdata` section. -/
  | elf {location : FileLocation} {contents contents' : FileContents} {obj obj' : ObjectFile} :
      (outside 0).helper.openFile location = .ok contents →
      Crates.parseFile contents.fullRange = .ok obj →
      (obj', contents') = (Elf.debugdataObject obj).getD (obj, contents) →
      Elf.getSymbolicationResultImpl R obj' location.toBasePath contents' query = .ok r →
      Supplies outside fuel query r (.singleFile location) (.object obj) (some location)
  /-- A thin mach-O file, or a slice of a fat one, with its external objects. -/
  | machO {location : FileLocation} {contents : FileContents} {fileRange : Option (Nat × Nat)}
      {obj : ObjectFile} {symbols : R} :
      (outside 0).helper.openFile location = .ok contents →
      (∀ range ∈ fileRange, ∃ arches, range ∈ arches ∧
        (Crates.parseArch32 contents = .ok arches ∨ Crates.parseArch64 contents = .ok arches)) →
      Crates.parseFile (MachO.objectRange contents fileRange) = .ok obj →
      machOSymbols R obj ⟨MachO.objectRange contents fileRange, 0, obj.is64⟩ query.resultKind
        = .ok symbols →
      WithExternalObjects outside.tail fuel location.toBasePath
        (MachO.objectRange contents fileRange) obj query.resultKind symbols r →
      Supplies outside fuel query r (.singleFile location) (.object obj) (some location)
  /-- An image in a dyld shared cache. -/
  | dyldImage {dyldCachePath : PathBuf} {dylibPath : String} {contents : FileContents}
      {subcaches : List FileContents} {images : List DyldImage} {image : DyldImage}
      {obj : ObjectFile} {data : RangeReadRef} {headerOffset : Nat} :
      (outside 0).helper.openFile (.path dyldCachePath) = .ok contents →
      Crates.dyldCacheImages contents subcaches = .ok images →
      images.find? (·.path = some dylibPath) = some image →
      image.parseObject = .ok obj → image.imageDataAndOffset = .ok (data, headerOffset) →
      machOSymbols R obj ⟨data, headerOffset, obj.is64⟩ query.resultKind = .ok r →
      Supplies outside fuel query r (.inDyldCache dyldCachePath dylibPath) (.object obj) none
  /-- A PDB file. -/
  | pdb {location : FileLocation} {contents : FileContents} {pdb : Pdb} {context : PdbContext}
      {srcsrvStream : Option Bytes} :
      (outside 0).helper.openFile location = .ok contents → Crates.openPdb contents = .ok pdb →
      pdb.tryFromPdb = .ok (.ok context) →
      Windows.getSymbolicationResultFromContext R location.toBasePath context srcsrvStream query
        = .ok r →
      Supplies outside fuel query r (.singleFile location) (.pdb pdb) (some location)
  /-- A PDB file that the helper names for a PE binary. -/
  | pdbOfPe {location pdbLocation : FileLocation} {contents contents' : FileContents} {n : Nat}
      {pe : ObjectFile} {info : PdbInfo} {pdbLocations : List FileLocation} {pdb : Pdb}
      {context : PdbContext} {srcsrvStream : Option Bytes} :
      (outside 0).helper.openFile location = .ok contents →
      Crates.parseFile contents.fullRange = .ok pe → pe.pdbInfo = some info →
      (outside 1).helper.getCandidatePathsForPdb query.debugName query.debugId info.path location
        = .ok pdbLocations → pdbLocation ∈ pdbLocations →
      (outside n).helper.openFile pdbLocation = .ok contents' →
      Crates.openPdb contents' = .ok pdb → pdb.tryFromPdb = .ok (.ok context) →
      Windows.getSymbolicationResultFromContext R pdbLocation.toBasePath context srcsrvStream query
        = .ok r →
      Supplies outside fuel query r (.singleFile location) (.pdb pdb) (some pdbLocation)
  /-- A PE binary by itself. -/
  | pe {location : FileLocation} {contents : FileContents} {obj : ObjectFile} :
      (outside 0).helper.openFile location = .ok contents →
      Crates.parseFile contents.fullRange = .ok obj →
      Windows.getSymbolicationResultFromPe R obj query = .ok r →
      Supplies outside fuel query r (.singleFile location) (.object obj) none

omit [Target] in
/-- A PDB answers only if it has the debug ID. -/
theorem pdb_getSymbolicationResult_eq_ok {basePath : BasePath} {pdb : Pdb}
    {query : SymbolicationQuery} {r : R}
    (h : Windows.getSymbolicationResult R basePath pdb query = .ok r) :
    (SymbolSource.pdb pdb).debugId = some query.debugId ∧
      ∃ context srcsrvStream, pdb.tryFromPdb = .ok (.ok context) ∧
        Windows.getSymbolicationResultFromContext R basePath context srcsrvStream query
          = .ok r := by
  obtain ⟨fileDebugId, hid, h⟩ := Outcome.bind_eq_ok.mp h
  have hid := Outcome.ofExcept_eq_ok.mp hid
  by_cases heq : fileDebugId = query.debugId
  · rw [if_neg (not_not.mpr heq)] at h
    obtain ⟨srcsrvStream, -, h⟩ := Outcome.bind_eq_ok.mp h
    obtain ⟨contextData, hdata, h⟩ := Outcome.bind_eq_ok.mp h
    obtain ⟨context, hcontext, h⟩ := Outcome.bind_eq_ok.mp h
    have hdata := Outcome.ofExcept_mapError_eq_ok.mp hdata
    have hcontext := Outcome.ofExcept_mapError_eq_ok.mp hcontext
    refine ⟨?_, context, srcsrvStream, by rw [hdata, hcontext], h⟩
    rw [SymbolSource.debugId, hid, heq]
    rfl
  · rw [if_pos heq] at h
    cases h

omit [Platform] [Target] in
/-- The slice that is found is one of the architectures. -/
theorem findArchRange_mem {fileContents : FileContents} {debugId : DebugId}
    {arches : List (Nat × Nat)} {debugIds : List DebugId} {errors : List GetSymbolsError}
    {range : Nat × Nat}
    (h : MachO.findArchRange fileContents debugId arches debugIds errors = .ok range) :
    range ∈ arches := by
  induction arches generalizing debugIds errors with
  | nil => cases h
  | cons arch arches ih =>
      obtain ⟨start, size⟩ := arch
      rw [MachO.findArchRange] at h
      cases hparse : Crates.parseFile (fileContents.range start size) with
      | error e =>
          rw [hparse] at h
          cases h
      | ok file =>
          rw [hparse] at h
          cases hid : debugIdForObject file with
          | none =>
              simp only [Except.mapError, bind, Except.bind, hid] at h
              exact List.mem_cons_of_mem _ (ih h)
          | some di =>
              simp only [Except.mapError, bind, Except.bind, hid] at h
              split at h
              · exact Except.ok.inj h ▸ List.mem_cons_self ..
              · exact List.mem_cons_of_mem _ (ih h)

section Attempts

variable {outside : Outside} {fuel : Nat} {query : SymbolicationQuery} {location : FileLocation}
  {contents : FileContents} {r : R}

theorem supplies_elf (hopen : (outside 0).helper.openFile location = .ok contents)
    {fileKind : FileKind}
    (h : Elf.getSymbolicationResult R location.toBasePath fileKind contents query = .ok r) :
    ∃ source debugInfo, Supplies outside fuel query r (.singleFile location) source debugInfo ∧
      source.debugId = some query.debugId := by
  obtain ⟨obj, hobj, h⟩ := Outcome.bind_eq_ok.mp h
  have hobj := Outcome.ofExcept_mapError_eq_ok.mp hobj
  refine ⟨.object obj, some location, ?_⟩
  cases hid : debugIdForObject obj with
  | none =>
      rw [hid] at h
      cases h
  | some elfDebugId =>
      rw [hid] at h
      by_cases heq : elfDebugId = query.debugId
      · refine ⟨?_, by rw [SymbolSource.debugId, hid, heq]⟩
        simp only [heq, ne_eq, not_true, if_false] at h
        -- the ID is checked before .gnu_debugdata takes the file's place
        cases hdata : Elf.debugdataObject obj with
        | none =>
            rw [hdata] at h
            have hinner : (obj, contents) = (Elf.debugdataObject obj).getD (obj, contents) := by
              rw [hdata]
              rfl
            exact .elf hopen hobj hinner h
        | some inner =>
            obtain ⟨obj', contents'⟩ := inner
            rw [hdata] at h
            have hinner : (obj', contents') = (Elf.debugdataObject obj).getD (obj, contents) := by
              rw [hdata]
              rfl
            exact .elf hopen hobj hinner h
      · simp only [heq, ne_eq, not_false_iff, if_true] at h
        cases h

theorem supplies_machO (hopen : (outside 0).helper.openFile location = .ok contents)
    {fileRange : Option (Nat × Nat)}
    (hrange : ∀ range ∈ fileRange, ∃ arches, range ∈ arches ∧
      (Crates.parseArch32 contents = .ok arches ∨ Crates.parseArch64 contents = .ok arches))
    (h : MachO.getSymbolicationResult R outside.tail fuel location.toBasePath contents fileRange
      query = .ok r) :
    ∃ source debugInfo, Supplies outside fuel query r (.singleFile location) source debugInfo ∧
      source.debugId = some query.debugId := by
  obtain ⟨obj, symbols, hobj, hsymbols, hresult⟩ := machO_getSymbolicationResult_eq_ok h
  obtain ⟨hid, hcollect⟩ := getSymbolicationResultFromMachOObject_eq_ok.mp hsymbols
  exact ⟨.object obj, _, .machO hopen hrange hobj hcollect hresult, hid⟩

theorem supplies_fat (hopen : (outside 0).helper.openFile location = .ok contents)
    {fileKind : FileKind} {arches : Except String (List (Nat × Nat))}
    (harches : arches = Crates.parseArch32 contents ∨ arches = Crates.parseArch64 contents)
    (h : getSymbolicationResultFromFat R outside.tail fuel location.toBasePath fileKind contents
      arches query = .ok r) :
    ∃ source debugInfo, Supplies outside fuel query r (.singleFile location) source debugInfo ∧
      source.debugId = some query.debugId := by
  obtain ⟨slices, hslices, h⟩ := Outcome.bind_eq_ok.mp h
  obtain ⟨range, hrange, h⟩ := Outcome.bind_eq_ok.mp h
  have hslices := Outcome.ofExcept_mapError_eq_ok.mp hslices
  refine supplies_machO hopen ?_ h
  intro range' hrange'
  obtain rfl := Option.mem_some_iff.mp hrange'
  refine ⟨slices, findArchRange_mem (Outcome.ofExcept_eq_ok.mp hrange), ?_⟩
  rcases harches with rfl | rfl
  · exact Or.inl hslices
  · exact Or.inr hslices

theorem supplies_pdb (hopen : (outside 0).helper.openFile location = .ok contents) {file : Pdb}
    (hpdb : Crates.openPdb contents = .ok file)
    (h : Windows.getSymbolicationResult R location.toBasePath file query = .ok r) :
    ∃ source debugInfo, Supplies outside fuel query r (.singleFile location) source debugInfo ∧
      source.debugId = some query.debugId := by
  obtain ⟨hid, context, srcsrvStream, hcontext, hcollect⟩ := pdb_getSymbolicationResult_eq_ok h
  exact ⟨.pdb file, _, .pdb hopen hpdb hcontext hcollect, hid⟩

omit [Target] in
/-- The PDB that answers is one of the candidates. -/
theorem tryPdbLocations_eq_some {helpers : Nat → FileAndPathHelper}
    {pdbLocations : List FileLocation}
    (h : Windows.tryPdbLocations R query location helpers pdbLocations = .ok (some r)) :
    ∃ n, ∃ pdbLocation ∈ pdbLocations,
      Windows.tryGetSymbolicationResultFromPdbLocation R (helpers n) query pdbLocation
        = .ok r := by
  induction pdbLocations generalizing helpers with
  | nil => cases h
  | cons pdbLocation pdbLocations ih =>
      rw [Windows.tryPdbLocations] at h
      split at h
      · obtain ⟨n, found, hmem, hfound⟩ := ih h
        exact ⟨n + 1, found, List.mem_cons_of_mem _ hmem, hfound⟩
      · obtain ⟨answer, hanswer, h⟩ := Outcome.bind_eq_ok.mp h
        cases answer with
        | ok table =>
            obtain rfl := Option.some.inj (Outcome.ok.inj h)
            exact ⟨0, pdbLocation, List.mem_cons_self .., Outcome.attempt_eq_ok_ok.mp hanswer⟩
        | error e =>
            obtain ⟨n, found, hmem, hfound⟩ := ih h
            exact ⟨n + 1, found, List.mem_cons_of_mem _ hmem, hfound⟩

theorem supplies_pe (hopen : (outside 0).helper.openFile location = .ok contents)
    {fileKind : FileKind}
    (h : Windows.getSymbolicationResultViaBinary R outside.tail.helpers fileKind contents query
      location = .ok r) :
    ∃ source debugInfo, Supplies outside fuel query r (.singleFile location) source debugInfo ∧
      source.debugId = some query.debugId := by
  obtain ⟨pe, hpe, h⟩ := Outcome.bind_eq_ok.mp h
  have hpe := Outcome.ofExcept_mapError_eq_ok.mp hpe
  cases hinfo : pe.pdbInfo with
  | none =>
      rw [hinfo] at h
      cases h
  | some info =>
      rw [hinfo] at h
      obtain ⟨-, -, h⟩ := Outcome.bind_eq_ok.mp h
      obtain ⟨pdbLocations, hlocations, h⟩ := Outcome.bind_eq_ok.mp h
      have hlocations := Outcome.ofExcept_mapError_eq_ok.mp hlocations
      obtain ⟨found, hfound, h⟩ := Outcome.bind_eq_ok.mp h
      cases found with
      | some table =>
          obtain rfl : table = r := Outcome.ok.inj h
          obtain ⟨n, pdbLocation, hmem, htry⟩ := tryPdbLocations_eq_some hfound
          obtain ⟨contents', hopen', htry⟩ := Outcome.bind_eq_ok.mp htry
          obtain ⟨file, hfile, htry⟩ := Outcome.bind_eq_ok.mp htry
          obtain ⟨hid, context, srcsrvStream, hcontext, hcollect⟩ :=
            pdb_getSymbolicationResult_eq_ok htry
          exact ⟨.pdb file, _, .pdbOfPe hopen hpe hinfo hlocations hmem
            (Outcome.ofExcept_mapError_eq_ok.mp hopen') (Outcome.ofExcept_mapError_eq_ok.mp hfile)
            hcontext hcollect, hid⟩
      | none =>
          -- the fallback: now the binary itself is checked
          obtain ⟨fileDebugId, hid, h⟩ := Outcome.bind_eq_ok.mp h
          by_cases heq : query.debugId = fileDebugId
          · rw [if_neg (not_not.mpr heq)] at h
            refine ⟨.object pe, _, .pe hopen hpe h, ?_⟩
            rw [SymbolSource.debugId, heq]
            exact Outcome.unwrap_eq_ok.mp hid
          · rw [if_pos heq] at h
            cases h

/-- **EVERY KIND OF FILE IS CHECKED**. -/
theorem supplies_of_tryGetSymbolicationResultFromPath
    (h : tryGetSymbolicationResultFromPath R outside fuel query location = .ok r) :
    ∃ source debugInfo, Supplies outside fuel query r (.singleFile location) source debugInfo ∧
      source.debugId = some query.debugId := by
  obtain ⟨contents, hopen, h⟩ := Outcome.bind_eq_ok.mp h
  have hopen := Outcome.ofExcept_mapError_eq_ok.mp hopen
  rw [getSymbolicationResultFromFile] at h
  cases hkind : Crates.fileKind contents with
  | none =>
      rw [hkind] at h
      cases hpdb : Crates.openPdb contents with
      | error e =>
          rw [hpdb] at h
          cases h
      | ok file =>
          rw [hpdb] at h
          exact supplies_pdb hopen hpdb h
  | some fileKind =>
      rw [hkind] at h
      cases fileKind with
      | elf32 => exact supplies_elf hopen h
      | elf64 => exact supplies_elf hopen h
      | machO32 => exact supplies_machO hopen (by simp) h
      | machO64 => exact supplies_machO hopen (by simp) h
      | machOFat32 => exact supplies_fat hopen (Or.inl rfl) h
      | machOFat64 => exact supplies_fat hopen (Or.inr rfl) h
      | pe32 => exact supplies_pe hopen h
      | pe64 => exact supplies_pe hopen h
      | unsupported => cases h

/-- An image in a dyld shared cache is checked, too. -/
theorem supplies_dyldImage {dyldCachePath : PathBuf} {dylibPath : String}
    (h : MachO.tryGetSymbolicationResultFromDyldSharedCache R outside.helpers fuel query
      dyldCachePath dylibPath = .ok r) :
    ∃ source debugInfo,
      Supplies outside fuel query r (.inDyldCache dyldCachePath dylibPath) source debugInfo ∧
      source.debugId = some query.debugId := by
  obtain ⟨contents, hopen, h⟩ := Outcome.bind_eq_ok.mp h
  obtain ⟨subcaches, -, h⟩ := Outcome.bind_eq_ok.mp h
  obtain ⟨images, himages, h⟩ := Outcome.bind_eq_ok.mp h
  cases himage : images.find? (·.path = some dylibPath) with
  | none =>
      rw [himage] at h
      cases h
  | some image =>
      rw [himage] at h
      obtain ⟨obj, hobj, h⟩ := Outcome.bind_eq_ok.mp h
      obtain ⟨⟨data, headerOffset⟩, hdata, h⟩ := Outcome.bind_eq_ok.mp h
      obtain ⟨hid, hcollect⟩ := getSymbolicationResultFromMachOObject_eq_ok.mp h
      exact ⟨.object obj, _, .dyldImage (Outcome.ofExcept_mapError_eq_ok.mp hopen)
        (Outcome.ofExcept_mapError_eq_ok.mp himages) himage
        (Outcome.ofExcept_mapError_eq_ok.mp hobj) (Outcome.ofExcept_mapError_eq_ok.mp hdata)
        hcollect, hid⟩

theorem supplies_of_tryCandidate {candidate : CandidatePathInfo}
    (h : tryCandidate R outside fuel query candidate = .ok r) :
    ∃ source debugInfo, Supplies outside fuel query r candidate source debugInfo ∧
      source.debugId = some query.debugId := by
  cases candidate with
  | singleFile location => exact supplies_of_tryGetSymbolicationResultFromPath h
  | inDyldCache dyldCachePath dylibPath => exact supplies_dyldImage h

end Attempts

/-! ## The candidates in order -/

section Order

variable {fuel : Nat} {query : SymbolicationQuery}

/-- The first candidate whose attempt succeeds answers. -/
theorem tryCandidates_eq_ok {outsides : Nat → Outside} {candidates : List CandidatePathInfo}
    {lastErr : Option GetSymbolsError} {r : R}
    (h : tryCandidates R fuel query outsides candidates lastErr = .ok r) :
    ∃ before candidate after, candidates = before ++ candidate :: after ∧
      (∀ i earlier, before[i]? = some earlier →
        ∃ err, tryCandidate R (outsides i) fuel query earlier = .err err) ∧
      tryCandidate R (outsides before.length) fuel query candidate = .ok r := by
  induction candidates generalizing outsides lastErr with
  | nil => cases h
  | cons candidate candidates ih =>
      rw [tryCandidates] at h
      obtain ⟨answer, hanswer, h⟩ := Outcome.bind_eq_ok.mp h
      cases answer with
      | ok result =>
          obtain rfl : result = r := Outcome.ok.inj h
          exact ⟨[], candidate, candidates, rfl, by simp,
            Outcome.attempt_eq_ok_ok.mp hanswer⟩
      | error err =>
          obtain ⟨before, found, after, rfl, hearlier, hfound⟩ := ih h
          refine ⟨candidate :: before, found, after, rfl, ?_, hfound⟩
          intro i earlier hi
          cases i with
          | zero =>
              obtain rfl : candidate = earlier := Option.some.inj hi
              exact ⟨err, Outcome.attempt_eq_ok_error.mp hanswer⟩
          | succ i => exact hearlier i earlier hi

/-- If every attempt fails, the error is that of the last one. -/
theorem tryCandidates_eq_err {outsides : Nat → Outside} {candidates : List CandidatePathInfo}
    (errs : Nat → GetSymbolsError)
    (h : ∀ i candidate, candidates[i]? = some candidate →
      tryCandidate R (outsides i) fuel query candidate = .err (errs i))
    (lastErr : Option GetSymbolsError) :
    tryCandidates R fuel query outsides candidates lastErr
      = .err (if candidates = [] then
          lastErr.getD (.noCandidatePathForBinary query.debugName query.debugId)
        else errs (candidates.length - 1)) := by
  induction candidates generalizing outsides lastErr errs with
  | nil => rfl
  | cons candidate candidates ih =>
      rw [tryCandidates, h 0 candidate rfl, if_neg (List.cons_ne_nil _ _)]
      show tryCandidates R fuel query (fun n => outsides (n + 1)) candidates (some (errs 0)) = _
      rw [ih (fun n => errs (n + 1)) (fun i candidate hi => h (i + 1) candidate hi)]
      cases candidates with
      | nil => rfl
      | cons next candidates => rfl

/-- An answer is that of the first candidate whose attempt succeeds, and something
    in it supplied the answer. -/
theorem exists_supplies {helper : FileAndPathHelper} {outsides : Nat → Outside} {r : R}
    (h : getSymbolicationResult R helper outsides fuel query = .ok r) :
    ∃ before candidate after,
      helper.getCandidatePathsForBinaryOrPdb query.debugName query.debugId
        = .ok (before ++ candidate :: after) ∧
      (∀ i earlier, before[i]? = some earlier →
        ∃ err, tryCandidate R (outsides i) fuel query earlier = .err err) ∧
      tryCandidate R (outsides before.length) fuel query candidate = .ok r ∧
      ∃ source debugInfo,
        Supplies (outsides before.length) fuel query r candidate source debugInfo ∧
        source.debugId = some query.debugId := by
  obtain ⟨candidates, hcandidates, h⟩ := Outcome.bind_eq_ok.mp h
  obtain ⟨before, candidate, after, rfl, hearlier, hattempt⟩ := tryCandidates_eq_ok h
  exact ⟨before, candidate, after, Outcome.ofExcept_mapError_eq_ok.mp hcandidates, hearlier,
    hattempt, supplies_of_tryCandidate hattempt⟩

/-- **SYMBOLS COME FROM A MATCHING FILE**: an answer is that of the first
    candidate whose attempt succeeds, and what it was collected from has the
    debug ID asked for.  If every attempt fails, the last error is the answer. -/
theorem getSymbolicationResult_fromMatchingFile (helper : FileAndPathHelper)
    (outsides : Nat → Outside) (fuel : Nat) (query : SymbolicationQuery) :
    (∀ r : R, getSymbolicationResult R helper outsides fuel query = .ok r →
      ∃ before candidate after,
        helper.getCandidatePathsForBinaryOrPdb query.debugName query.debugId
          = .ok (before ++ candidate :: after) ∧
        (∀ i earlier, before[i]? = some earlier →
          ∃ err, tryCandidate R (outsides i) fuel query earlier = .err err) ∧
        tryCandidate R (outsides before.length) fuel query candidate = .ok r ∧
        ∃ source debugInfo,
          Supplies (outsides before.length) fuel query r candidate source debugInfo ∧
          source.debugId = some query.debugId) ∧
    ∀ candidates (errs : Nat → GetSymbolsError),
      helper.getCandidatePathsForBinaryOrPdb query.debugName query.debugId = .ok candidates →
      (∀ i candidate, candidates[i]? = some candidate →
        tryCandidate R (outsides i) fuel query candidate = .err (errs i)) →
      getSymbolicationResult R helper outsides fuel query
        = .err (if candidates = [] then .noCandidatePathForBinary query.debugName query.debugId
          else errs (candidates.length - 1)) := by
  constructor
  · intro r h
    exact exists_supplies h
  · intro candidates errs hcandidates herrs
    rw [getSymbolicationResult, hcandidates]
    exact tryCandidates_eq_err errs herrs none

end Order

end Routes

end Provenance

section Samples

local instance : Platform := unix

local instance : Target := ⟨64⟩

/-- Crates to which every file is an ELF file with the same build ID. -/
local instance elfCrates : Crates :=
  { Crates.nothing with
    fileKind := fun _ => some .elf64
    parseFile := fun _ => .ok { ObjectFile.bare with buildId := some (List.replicate 16 1) } }

/-- A helper with two candidates, of which the second can be opened. -/
def twoCandidates : FileAndPathHelper where
  getCandidatePathsForBinaryOrPdb _ _ :=
    .ok [.singleFile (.custom "missing"), .singleFile (.custom "found")]
  getCandidatePathsForPdb _ _ _ _ := .ok []
  openFile
    | .custom "found" => .ok (.zeros 4096)
    | _ => .error "No such file"

/-- The same helper every time. -/
def twoCandidatesOutside : Outside :=
  fun _ => ⟨twoCandidates, .listed _, .listed _, .listed _⟩

def twoCandidatesQuery : SymbolicationQuery :=
  ⟨"libfoo.so", ⟨List.replicate 16 1, 0⟩, .symbolsForAddresses [5] false⟩

/-- The second of two candidates answers, with the ID of its own. -/
theorem getSymbolicationResult_fromMatchingFile_two_candidates :
    ∃ r : LookedUpAddresses,
      getSymbolicationResult LookedUpAddresses twoCandidates
        (fun _ => twoCandidatesOutside) 0 twoCandidatesQuery = .ok r ∧
      ∃ before candidate after,
        twoCandidates.getCandidatePathsForBinaryOrPdb twoCandidatesQuery.debugName
          twoCandidatesQuery.debugId = .ok (before ++ candidate :: after) ∧
        (∀ (i : Nat) earlier, before[i]? = some earlier →
          ∃ err, tryCandidate LookedUpAddresses twoCandidatesOutside 0
            twoCandidatesQuery earlier = .err err) ∧
        tryCandidate LookedUpAddresses twoCandidatesOutside 0 twoCandidatesQuery
          candidate = .ok r ∧
        ∃ source debugInfo,
          Supplies twoCandidatesOutside 0 twoCandidatesQuery r candidate source debugInfo ∧
          source.debugId = some twoCandidatesQuery.debugId :=
  ⟨_, rfl, (getSymbolicationResult_fromMatchingFile twoCandidates
    (fun _ => twoCandidatesOutside) 0 twoCandidatesQuery).1 _ rfl⟩

end Samples

end ProfilerGetSymbols.Candidates
