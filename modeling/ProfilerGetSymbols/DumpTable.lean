import ProfilerGetSymbols.RetryId

/-! # dump_table — the symbol table of a file in a directory

    The example program looks for a file of some name in a directory, with or
    without a debug ID.  Its helper names the file's debug archives first, the
    file itself after them, and for the system libraries of macOS the images of
    the dyld shared caches at the end.

    Without a debug ID it is the last candidate that decides which one to ask
    for, so it matters where that list ends. -/

namespace ProfilerGetSymbols.DumpTable

open ProgLib Paths Candidates

/-- The files of the machine, and the texts that the program has from the standard library. -/
structure System where
  /-- `File::open` and the memory map. -/
  openFile : PathBuf → Except String Bytes
  /-- Stands for the panic on `FileLocation::Custom`. -/
  openCustom : String → Except String FileContents
  /-- `Utf8Error: Display`. -/
  utf8Error : Bytes → String

section Helper

variable [Platform]

/-- `Path::starts_with`. -/
def startsWith (path base : PathBuf) : Bool :=
  (Platform.components base).isPrefixOf (Platform.components path)

/-- `Path::to_str`. -/
def toStr (path : PathBuf) : Option String := fromUtf8 path.bytes

/-- `join` with a string. -/
def join (path : PathBuf) (name : String) : PathBuf := Platform.join path (.ofString name)

/-- `.so.dbg` files in the symbol directory. -/
def debugArchives (symbolDirectory : PathBuf) (debugName : String) : List CandidatePathInfo :=
  if ".so".toList <:+ debugName.toList then
    [.singleFile (.path (join symbolDirectory (debugName ++ ".dbg")))]
  else []

/-- dSYM packages. -/
def dSymPackages (symbolDirectory : PathBuf) (debugName : String) : List CandidatePathInfo :=
  if ".pdb".toList <:+ debugName.toList then []
  else
    [.singleFile (.path (join (join (join (join (join symbolDirectory (debugName ++ ".dSYM"))
      "Contents") "Resources") "DWARF") debugName))]

/-- The file itself. -/
def fileItself (symbolDirectory : PathBuf) (debugName : String) : CandidatePathInfo :=
  .singleFile (.path (join symbolDirectory debugName))

/-- The directory is one of the system libraries of macOS. -/
def isSystemDirectory (symbolDirectory : PathBuf) : Bool :=
  startsWith symbolDirectory (.ofString "/usr/") || startsWith symbolDirectory (.ofString "/System/")

/-- The image in the dyld shared cache for an architecture. -/
def cachedImage (architecture dylibPath : String) : CandidatePathInfo :=
  .inDyldCache (.ofString ("/System/Library/dyld/dyld_shared_cache_" ++ architecture)) dylibPath

/-- The dyld shared caches, for system libraries. -/
def dyldCaches (symbolDirectory : PathBuf) (debugName : String) : List CandidatePathInfo :=
  if isSystemDirectory symbolDirectory then
    match toStr (join symbolDirectory debugName) with
    | some dylibPath =>
        [cachedImage "arm64e" dylibPath, cachedImage "x86_64h" dylibPath,
          cachedImage "x86_64" dylibPath]
    | none => []
  else []

/-- `get_candidate_paths_for_binary_or_pdb`. -/
def candidatePaths (symbolDirectory : PathBuf) (debugName : String) : List CandidatePathInfo :=
  debugArchives symbolDirectory debugName ++ dSymPackages symbolDirectory debugName
    ++ [fileItself symbolDirectory debugName] ++ dyldCaches symbolDirectory debugName

/-- `get_candidate_paths_for_pdb`, as the trait provides it. -/
def candidatePathsForPdb (system : System) (pdbPathAsStoredInBinary : Bytes) :
    Except String (List FileLocation) :=
  match fromUtf8 pdbPathAsStoredInBinary with
  | some s => .ok [.path (.ofString s)]
  | none => .error (system.utf8Error pdbPathAsStoredInBinary)

variable [Target]

/-- `Helper`. -/
def helper (system : System) (symbolDirectory : PathBuf) : FileAndPathHelper where
  getCandidatePathsForBinaryOrPdb debugName _ := .ok (candidatePaths symbolDirectory debugName)
  getCandidatePathsForPdb _ _ pdbPathAsStoredInBinary _ :=
    candidatePathsForPdb system pdbPathAsStoredInBinary
  openFile
    | .path path => (system.openFile path).map FileContents.ofBytes
    | .custom string => system.openCustom string

/-- A call with this helper, while no file changes. -/
def round (system : System) (orders : Orders) (symbolDirectory : PathBuf) : Round where
  helper := helper system symbolDirectory
  outsides _ _ := ⟨helper system symbolDirectory, orders⟩

end Helper

section Main

variable [Crates] [Platform] [Target]

/-- `get_table`. -/
def getTable (system : System) (orders : Orders) (fuel : Nat) (debugName : String)
    (debugId : Option DebugId) (symbolDirectory : PathBuf) :
    Call GetSymbolsError CompactSymbolTable :=
  getSymbolsRetryId (fun _ => round system orders symbolDirectory) fuel debugName debugId

/-- `anyhow::Error`, as far as `main` tells its causes apart. -/
inductive MainError where
  | getSymbols (err : GetSymbolsError)
  | dump (message : String)

/-- `Opt`. -/
structure Opt where
  debugName : String
  symbolDirectory : PathBuf
  breakpadId : Option String
  full : Bool

/-- `main_impl`: the lines printed. -/
def mainImpl (system : System) (orders : Orders) (fuel : Nat) (opt : Opt) :
    Call MainError (List String) := do
  let debugId := opt.breakpadId.bind Crates.fromBreakpad
  let table ← (getTable system orders fuel opt.debugName debugId opt.symbolDirectory).mapErr
    .getSymbols
  (CompactSymbolTable.dumpTable table opt.full).mapErr .dump

/-- `main`: the lines printed. -/
def main (system : System) (orders : Orders) (fuel : Nat) (opt : Opt) :
    Call MainError (List String) := do
  match ← (mainImpl system orders fuel opt).attempt with
  | .ok lines => return lines
  | .error err =>
      match err with
      | .getSymbols (.noMatchMultiArch uuids errors) =>
          if opt.breakpadId.isSome then .err (.getSymbols (.noMatchMultiArch uuids errors))
          else return uuids.map (fun id => " - " ++ Crates.displayBreakpad id)
      | err => .err err

variable {system : System} {orders : Orders} {fuel : Nat} {debugName : String}
  {debugId : DebugId} {symbolDirectory : PathBuf}

/-- What the outside answers is the same in every attempt. -/
def System.outside (system : System) (orders : Orders) (symbolDirectory : PathBuf) : Outside :=
  fun _ => ⟨helper system symbolDirectory, orders⟩

/-! ## What is opened -/

/-- A location that an attempt may open. -/
inductive Opens (helper : FileAndPathHelper) (query : SymbolicationQuery) :
    CandidatePathInfo → FileLocation → Prop
  | file {location : FileLocation} : Opens helper query (.singleFile location) location
  /-- The PDBs that the helper names for a PE binary. -/
  | pdb {location pdbLocation : FileLocation} {contents : FileContents} {pe : ObjectFile}
      {info : PdbInfo} {pdbLocations : List FileLocation} :
      helper.openFile location = .ok contents → Crates.parseFile contents.fullRange = .ok pe →
      pe.pdbInfo = some info →
      helper.getCandidatePathsForPdb query.debugName query.debugId info.path location
        = .ok pdbLocations →
      pdbLocation ∈ pdbLocations → Opens helper query (.singleFile location) pdbLocation
  | dyldCache {dyldCachePath : PathBuf} {dylibPath : String} :
      Opens helper query (.inDyldCache dyldCachePath dylibPath) (.path dyldCachePath)
  /-- The files beside a dyld shared cache. -/
  | subcache {dyldCachePath : PathBuf} {dylibPath : String} (suffix : String) :
      Opens helper query (.inDyldCache dyldCachePath dylibPath)
        (.path (.ofString (Platform.toStringLossy dyldCachePath ++ suffix)))

section Opened

variable {helper helper' : FileAndPathHelper} {query : SymbolicationQuery}

omit [Target] in
theorem tryPdbLocations_congr {fileLocation : FileLocation} {pdbLocations : List FileLocation}
    (h : ∀ location ∈ pdbLocations, helper'.openFile location = helper.openFile location) :
    Windows.tryPdbLocations CompactSymbolTable query fileLocation (fun _ => helper') pdbLocations
      = Windows.tryPdbLocations CompactSymbolTable query fileLocation (fun _ => helper)
          pdbLocations := by
  induction pdbLocations with
  | nil => rfl
  | cons location pdbLocations ih =>
      rw [List.forall_mem_cons] at h
      rw [Windows.tryPdbLocations, Windows.tryPdbLocations, ih h.2,
        Windows.tryGetSymbolicationResultFromPdbLocation,
        Windows.tryGetSymbolicationResultFromPdbLocation, h.1]

omit [Crates] [Platform] [Target] in
theorem openSubcaches_congr {dyldCachePath : String}
    (h : ∀ suffix, helper'.openFile (.path (.ofString (dyldCachePath ++ suffix)))
      = helper.openFile (.path (.ofString (dyldCachePath ++ suffix)))) (subcacheIndex : Nat) :
    MachO.openSubcaches (fun _ => helper') dyldCachePath fuel subcacheIndex
      = MachO.openSubcaches (fun _ => helper) dyldCachePath fuel subcacheIndex := by
  induction fuel generalizing subcacheIndex with
  | zero => rfl
  | succ fuel ih => rw [MachO.openSubcaches, MachO.openSubcaches, ih, String.append_assoc, h]

variable (hpdb : helper'.getCandidatePathsForPdb = helper.getCandidatePathsForPdb)

include hpdb

omit [Target] in
theorem viaBinary_congr {fileKind : FileKind} {contents : FileContents}
    {fileLocation : FileLocation} (hopen : helper.openFile fileLocation = .ok contents)
    (h : ∀ location, Opens helper query (.singleFile fileLocation) location →
      helper'.openFile location = helper.openFile location) :
    Windows.getSymbolicationResultViaBinary CompactSymbolTable (fun _ => helper') fileKind contents
        query fileLocation
      = Windows.getSymbolicationResultViaBinary CompactSymbolTable (fun _ => helper) fileKind
          contents query fileLocation := by
  rw [Windows.getSymbolicationResultViaBinary, Windows.getSymbolicationResultViaBinary, hpdb]
  refine Outcome.bind_congr_of_ok (fun pe hparse => ?_)
  have hparse := Outcome.ofExcept_mapError_eq_ok.mp hparse
  cases hinfo : pe.pdbInfo with
  | none => rfl
  | some info =>
      refine Outcome.bind_congr_of_ok (fun _ _ => ?_)
      refine Outcome.bind_congr_of_ok (fun pdbLocations hlocations => ?_)
      have hlocations := Outcome.ofExcept_mapError_eq_ok.mp hlocations
      rw [tryPdbLocations_congr
        (fun location hmem => h location (.pdb hopen hparse hinfo hlocations hmem))]

/-- **WHAT IS OPENED DECIDES**: two helpers that open the same files at the locations of an
    attempt, and that name the same PDBs, lead to one end. -/
theorem tryCandidate_congr {asked : DebugId} {candidate : CandidatePathInfo}
    (h : ∀ location, Opens helper ⟨debugName, asked, .allSymbols⟩ candidate location →
      helper'.openFile location = helper.openFile location) :
    tryCandidate CompactSymbolTable (fun _ => ⟨helper', orders⟩) fuel
        ⟨debugName, asked, .allSymbols⟩ candidate
      = tryCandidate CompactSymbolTable (fun _ => ⟨helper, orders⟩) fuel
          ⟨debugName, asked, .allSymbols⟩ candidate := by
  cases candidate with
  | inDyldCache dyldCachePath dylibPath =>
      show MachO.tryGetSymbolicationResultFromDyldSharedCache CompactSymbolTable (fun _ => helper')
        fuel _ dyldCachePath dylibPath
        = MachO.tryGetSymbolicationResultFromDyldSharedCache CompactSymbolTable (fun _ => helper)
          fuel _ dyldCachePath dylibPath
      have hsuffix : ∀ suffix, helper'.openFile
          (.path (.ofString (Platform.toStringLossy dyldCachePath ++ suffix)))
          = helper.openFile (.path (.ofString (Platform.toStringLossy dyldCachePath ++ suffix))) :=
        fun suffix => h _ (.subcache suffix)
      rw [MachO.tryGetSymbolicationResultFromDyldSharedCache,
        MachO.tryGetSymbolicationResultFromDyldSharedCache, h _ .dyldCache]
      simp only [hsuffix, openSubcaches_congr hsuffix]
  | singleFile location =>
      simp only [tryCandidate, tryGetSymbolicationResultFromPath, h _ .file]
      refine Outcome.bind_congr_of_ok (fun contents hcontents => ?_)
      have hopen : helper.openFile location = .ok contents :=
        Outcome.ofExcept_mapError_eq_ok.mp hcontents
      -- only a PE binary leads to more files
      rw [getSymbolicationResultFromFile, getSymbolicationResultFromFile]
      cases hfileKind : Crates.fileKind contents with
      | none => rfl
      | some fileKind =>
          cases fileKind with
          | pe32 => exact viaBinary_congr hpdb hopen h
          | pe64 => exact viaBinary_congr hpdb hopen h
          | _ => rfl

theorem tryCandidates_congr {asked : DebugId} {candidates : List CandidatePathInfo}
    (h : ∀ candidate ∈ candidates, ∀ location,
      Opens helper ⟨debugName, asked, .allSymbols⟩ candidate location →
      helper'.openFile location = helper.openFile location) (lastErr : Option GetSymbolsError) :
    tryCandidates CompactSymbolTable fuel ⟨debugName, asked, .allSymbols⟩
        (fun _ _ => ⟨helper', orders⟩) candidates lastErr
      = tryCandidates CompactSymbolTable fuel ⟨debugName, asked, .allSymbols⟩
          (fun _ _ => ⟨helper, orders⟩) candidates lastErr := by
  induction candidates generalizing lastErr with
  | nil => rfl
  | cons candidate candidates ih =>
      rw [List.forall_mem_cons] at h
      rw [tryCandidates, tryCandidates, tryCandidate_congr hpdb h.1]
      simp only [ih h.2]

end Opened

omit [Crates] [Platform] [Target] in
/-- A PDB is looked for at a path. -/
theorem isPath_of_candidatePathsForPdb {bytes : Bytes} {pdbLocations : List FileLocation}
    (h : candidatePathsForPdb system bytes = .ok pdbLocations) :
    ∀ location ∈ pdbLocations, ∃ path, location = .path path := by
  rw [candidatePathsForPdb] at h
  split at h
  · obtain rfl := Except.ok.inj h
    intro location hlocation
    exact ⟨_, List.mem_singleton.mp hlocation⟩
  · cases h

omit [Crates] [Target] in
/-- A file that is a candidate is one at a path. -/
theorem isPath_of_mem_candidatePaths {location : FileLocation}
    (h : .singleFile location ∈ candidatePaths symbolDirectory debugName) :
    ∃ path, location = .path path := by
  have hone : ∀ path, CandidatePathInfo.singleFile location ∈ [.singleFile (.path path)] →
      ∃ path, location = .path path := by
    intro path hmem
    exact ⟨path, CandidatePathInfo.singleFile.inj (List.mem_singleton.mp hmem)⟩
  rw [candidatePaths, List.mem_append, List.mem_append, List.mem_append] at h
  rcases h with ((harchive | hpackage) | hitself) | hcache
  · rw [debugArchives] at harchive
    split at harchive
    · exact hone _ harchive
    · cases harchive
  · rw [dSymPackages] at hpackage
    split at hpackage
    · cases hpackage
    · exact hone _ hpackage
  · exact hone _ hitself
  · -- the images of the caches are no single files
    rw [dyldCaches] at hcache
    split at hcache
    · split at hcache
      · simp [cachedImage] at hcache
      · cases hcache
    · cases hcache

/-- The machine with another answer in the place of the panic. -/
def System.withCustom (system : System) (openCustom : String → Except String FileContents) :
    System :=
  { system with openCustom := openCustom }

/-- **ONLY PATHS ARE OPENED**, whatever debug ID is asked for: the panic on custom locations is
    not reached, and what might stand in its place does not matter. -/
theorem getTable_opensPaths (system : System) (orders : Orders) (fuel : Nat) (debugName : String)
    (debugId : Option DebugId) (symbolDirectory : PathBuf) :
    (∀ asked, ∀ candidate ∈ candidatePaths symbolDirectory debugName, ∀ location,
      Opens (helper system symbolDirectory) ⟨debugName, asked, .allSymbols⟩ candidate location →
      ∃ path, location = .path path) ∧
    ∀ openCustom,
      getTable (system.withCustom openCustom) orders fuel debugName debugId symbolDirectory
        = getTable system orders fuel debugName debugId symbolDirectory := by
  have hpaths : ∀ asked, ∀ candidate ∈ candidatePaths symbolDirectory debugName, ∀ location,
      Opens (helper system symbolDirectory) ⟨debugName, asked, .allSymbols⟩ candidate location →
      ∃ path, location = .path path := by
    intro asked candidate hcandidate location hopens
    cases hopens with
    | file => exact isPath_of_mem_candidatePaths hcandidate
    | pdb _ _ _ hlocations hmem => exact isPath_of_candidatePathsForPdb hlocations _ hmem
    | dyldCache => exact ⟨_, rfl⟩
    | subcache suffix => exact ⟨_, rfl⟩
  refine ⟨hpaths, fun openCustom => ?_⟩
  -- so the two machines agree wherever an attempt looks
  have htable : ∀ asked, (round (system.withCustom openCustom) orders symbolDirectory).table fuel
      debugName asked = (round system orders symbolDirectory).table fuel debugName asked := by
    intro asked
    have hpdb : (helper (system.withCustom openCustom) symbolDirectory).getCandidatePathsForPdb
        = (helper system symbolDirectory).getCandidatePathsForPdb := rfl
    refine tryCandidates_congr hpdb (fun candidate hcandidate location hopens => ?_) none
    obtain ⟨path, rfl⟩ := hpaths asked candidate hcandidate location hopens
    rfl
  rw [getTable, getTable]
  cases debugId with
  | some debugId => exact htable debugId
  | none =>
      rw [getSymbolsRetryId, getSymbolsRetryId]
      simp only [htable]

/-! ## The last candidate -/

theorem getTable_some :
    getTable system orders fuel debugName (some debugId) symbolDirectory
      = tryCandidates CompactSymbolTable fuel ⟨debugName, debugId, .allSymbols⟩
          (fun _ => system.outside orders symbolDirectory)
          (candidatePaths symbolDirectory debugName) none := rfl

/-- The error of a query is that of its last candidate. -/
theorem getTable_some_eq_err {before : List CandidatePathInfo} {last : CandidatePathInfo}
    {err : GetSymbolsError} (hcandidates : candidatePaths symbolDirectory debugName = before ++ [last])
    (h : getTable system orders fuel debugName (some debugId) symbolDirectory = .err err) :
    (∀ (i : Nat) earlier, before[i]? = some earlier → ∃ e, tryCandidate CompactSymbolTable
      (system.outside orders symbolDirectory) fuel ⟨debugName, debugId, .allSymbols⟩ earlier
        = .err e) ∧
    tryCandidate CompactSymbolTable (system.outside orders symbolDirectory) fuel
      ⟨debugName, debugId, .allSymbols⟩ last = .err err := by
  rw [getTable_some] at h
  rcases tryCandidates_eq_err_cases h with ⟨hnil, -⟩ | ⟨before', last', heq, hearlier, hlast⟩
  · rw [hcandidates] at hnil
    exact absurd hnil (List.append_ne_nil_of_right_ne_nil _ (List.cons_ne_nil _ _))
  · obtain ⟨rfl, hone⟩ := List.append_inj' (hcandidates.symm.trans heq) rfl
    obtain rfl := List.singleton_inj.mp hone
    exact ⟨hearlier, hlast⟩

/-- The helper names images of the dyld shared caches: the directory is one of the system
    libraries, and the path of the file in it is UTF-8. -/
def NamesImages (symbolDirectory : PathBuf) (debugName : String) : Prop :=
  isSystemDirectory symbolDirectory = true ∧
    ∃ dylibPath, toStr (join symbolDirectory debugName) = some dylibPath

omit [Crates] [Target] in
/-- Without images the file itself comes last. -/
theorem candidatePaths_of_not_namesImages (h : ¬ NamesImages symbolDirectory debugName) :
    candidatePaths symbolDirectory debugName
      = (debugArchives symbolDirectory debugName ++ dSymPackages symbolDirectory debugName)
          ++ [fileItself symbolDirectory debugName] := by
  rw [candidatePaths, dyldCaches]
  by_cases hsystem : isSystemDirectory symbolDirectory = true
  · cases hpath : toStr (join symbolDirectory debugName) with
    | none => rw [if_pos hsystem, List.append_nil]
    | some dylibPath => exact absurd ⟨hsystem, dylibPath, hpath⟩ h
  · rw [if_neg hsystem, List.append_nil]

omit [Crates] [Target] in
/-- The image in the cache for x86-64 comes last. -/
theorem candidatePaths_of_namesImages (h : NamesImages symbolDirectory debugName) :
    ∃ before dylibPath,
      candidatePaths symbolDirectory debugName = before ++ [cachedImage "x86_64" dylibPath] := by
  obtain ⟨hsystem, dylibPath, hpath⟩ := h
  refine ⟨debugArchives symbolDirectory debugName ++ dSymPackages symbolDirectory debugName
    ++ [fileItself symbolDirectory debugName]
    ++ [cachedImage "arm64e" dylibPath, cachedImage "x86_64h" dylibPath], dylibPath, ?_⟩
  rw [candidatePaths, dyldCaches, hsystem, if_pos rfl, hpath, List.append_assoc _ [_, _] [_]]
  rfl

/-- Where `get_table` ends with the debug IDs of a fat file, that is the last candidate, and
    each of the debug IDs is that of a slice with its own symbols. -/
theorem getTable_eq_noMatch {uuids : List DebugId} {errors : List GetSymbolsError}
    (h : getTable system orders fuel debugName none symbolDirectory
      = .err (.noMatchMultiArch uuids errors)) :
    ∃ before location contents arches,
      candidatePaths symbolDirectory debugName = before ++ [.singleFile location] ∧
      Offers (system.outside orders symbolDirectory) location contents arches ∧
      (∀ arch ∈ arches, MachO.Parses contents arch) ∧ uuids = sliceIds contents arches := by
  have hround : ∃ asked, (round system orders symbolDirectory).table fuel debugName asked
      = .err (.noMatchMultiArch uuids errors) := by
    by_cases hrefused : ∃ expected,
        Refused (round system orders symbolDirectory) fuel debugName .nil expected
    · obtain ⟨expected, hrefused⟩ := hrefused
      exact ⟨expected, (getSymbolsRetryId_of_refused hrefused).symm.trans h⟩
    · exact ⟨.nil, (getSymbolsRetryId_of_not_refused (not_exists.mp hrefused)).symm.trans h⟩
  obtain ⟨asked, hround⟩ := hround
  obtain ⟨before, location, contents, arches, hcandidates, hoffers, hparses, huuids⟩ :=
    Round.table_eq_noMatch hround
  exact ⟨before, location, contents, arches, Except.ok.inj hcandidates, hoffers, hparses, huuids⟩

/-- With a debug ID given, `main` ends as `main_impl` does. -/
theorem main_of_given {opt : Opt} (hgiven : opt.breakpadId.isSome) :
    main system orders fuel opt = mainImpl system orders fuel opt := by
  rw [main]
  cases hmain : mainImpl system orders fuel opt with
  | ok lines => rfl
  | panic site => rfl
  | unfinished => rfl
  | err err =>
      cases err with
      | dump message => rfl
      | getSymbols err =>
          cases err with
          | noMatchMultiArch uuids errors =>
              show (if opt.breakpadId.isSome then
                (.err (.getSymbols (.noMatchMultiArch uuids errors)) : Call MainError _)
                else .ok _) = _
              rw [if_pos hgiven]
          | _ => rfl

/-- An error about symbols is one of `get_table`. -/
theorem getTable_of_mainImpl_eq_err {opt : Opt} {err : GetSymbolsError}
    (h : mainImpl system orders fuel opt = .err (.getSymbols err)) :
    getTable system orders fuel opt.debugName (opt.breakpadId.bind Crates.fromBreakpad)
      opt.symbolDirectory = .err err := by
  rcases Outcome.bind_eq_err.mp h with htable | ⟨table, -, hdump⟩
  · obtain ⟨e, he, heq⟩ := Outcome.mapErr_eq_err.mp htable
    rw [he, MainError.getSymbols.inj heq]
  · obtain ⟨e, -, heq⟩ := Outcome.mapErr_eq_err.mp hdump
    cases heq

/-- **OFFERED SLICES**: without a debug ID, a fat file that comes last has the debug IDs of
    all its slices printed, and the program, when it is given one of them, fails for want of
    a table only if that slice has no readable symbols. -/
theorem main_offersSlices (system : System) (orders : Orders) (fuel : Nat) (opt : Opt)
    (uuids : List DebugId) (errors : List GetSymbolsError) (hnone : opt.breakpadId = none)
    (hoffer : getTable system orders fuel opt.debugName none opt.symbolDirectory
      = .err (.noMatchMultiArch uuids errors)) :
    main system orders fuel opt
      = .ok (uuids.map (fun id => " - " ++ Crates.displayBreakpad id)) ∧
    ∃ before location contents arches,
      candidatePaths opt.symbolDirectory opt.debugName = before ++ [.singleFile location] ∧
      Offers (system.outside orders opt.symbolDirectory) location contents arches ∧
      uuids = sliceIds contents arches ∧
      ∀ debugId ∈ uuids, Crates.fromBreakpad (Crates.displayBreakpad debugId) = some debugId →
        ∃ range ∈ arches, ∃ obj,
          Crates.parseFile (contents.range range.1 range.2) = .ok obj ∧
          debugIdForObject obj = some debugId ∧
          ∀ err, main system orders fuel
              { opt with breakpadId := some (Crates.displayBreakpad debugId) }
                = .err (.getSymbols err) →
            machOSymbols CompactSymbolTable obj
              ⟨contents.range range.1 range.2, 0, obj.is64⟩ .allSymbols = .err err := by
  refine ⟨?_, ?_⟩
  · rw [main, mainImpl, hnone]
    show ((((getTable system orders fuel opt.debugName none opt.symbolDirectory).mapErr
      MainError.getSymbols) >>= fun table =>
        (CompactSymbolTable.dumpTable table opt.full).mapErr .dump).attempt >>= _) = _
    rw [hoffer]
    rfl
  · obtain ⟨before, location, contents, arches, hcandidates, hoffers, hparses, rfl⟩ :=
      getTable_eq_noMatch hoffer
    refine ⟨before, location, contents, arches, hcandidates, hoffers, rfl, ?_⟩
    intro debugId hmem hbreakpad
    -- the printed ID finds a slice that has it
    obtain ⟨range, hrange, hfound, obj, hobj, hid⟩ := getArchRange_of_mem_sliceIds hparses hmem
    refine ⟨range, hrange, obj, hobj, hid, ?_⟩
    intro err h
    rw [main_of_given rfl] at h
    have htable := getTable_of_mainImpl_eq_err h
    rw [Option.bind_some, hbreakpad] at htable
    obtain ⟨-, hlast⟩ := getTable_some_eq_err hcandidates htable
    exact (tryCandidate_of_offers hoffers hfound hobj hid).symm.trans hlast

end Main

/-! ## A directory with one file -/

section Samples

local instance unixPlatform : Platform := unix

local instance target64 : Target := ⟨64⟩

/-- The file system with only this file. -/
def oneFile (name : String) (size : Nat) : System where
  openFile path :=
    if path.bytes = asBytes name then .ok (List.replicate size 0) else .error "No such file"
  openCustom _ := .error "No such file"
  utf8Error _ := "invalid utf-8 sequence"

/-- Hash maps in the order in which their entries are listed. -/
def listed : Orders := ⟨.listed _, .listed _, .listed _⟩

/-- Crates to which every file is a fat one with two slices of 64 KiB, and which know the debug
    IDs of these. -/
abbrev fatCrates : Crates :=
  { Crates.nothing with
    fileKind := fun _ => some .machOFat32
    parseArch32 := fun _ => .ok [(0x4000, 0x10000), (0x14000, 0x10000)]
    parseFile := fun r => .ok { ObjectFile.bare with
      machUuid := some (List.replicate 16 (if r.rangeStart = 0x4000 then 1 else 2)) }
    displayBreakpad := fun id => if id.uuid = List.replicate 16 1 then
      "010101010101010101010101010101010" else "020202020202020202020202020202020"
    fromBreakpad := fun s =>
      if s = "010101010101010101010101010101010" then some ⟨List.replicate 16 1, 0⟩
      else if s = "020202020202020202020202020202020" then some ⟨List.replicate 16 2, 0⟩
      else none }

/-- Both slices are offered. -/
theorem main_offersSlices_xul :
    let _ : Crates := fatCrates
    main (oneFile "/opt/XUL" 0x24000) listed 0 ⟨"XUL", .ofString "/opt", none, true⟩
      = .ok [" - 010101010101010101010101010101010", " - 020202020202020202020202020202020"] := by
  intro crates
  exact (main_offersSlices (oneFile "/opt/XUL" 0x24000) listed 0
    ⟨"XUL", .ofString "/opt", none, true⟩ [⟨List.replicate 16 1, 0⟩, ⟨List.replicate 16 2, 0⟩] []
    rfl rfl).1

end Samples

end ProfilerGetSymbols.DumpTable
