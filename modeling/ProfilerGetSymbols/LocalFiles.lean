import ProfilerGetSymbols.EntryPoints

/-! # Local files — which source files the source API opens

    A symbol file may refer to local files only if it is a local file itself.
    Where its debug info comes from decides the base path, and every file path
    in a result is resolved against that base path: those of the external
    objects of a mach-O file against the base path of the root file, and those
    of a PDB against its own, on every branch of the path mapper and from every
    cache.  So nothing is opened for a symbol file from elsewhere. -/

namespace ProfilerGetSymbols

open ProgLib Paths Candidates

/-! ## The files in a result -/

namespace FramesForSingleAddress

/-- Every file in the frames has the property. -/
def FilesIn (result : FramesForSingleAddress) (paths : FilePath → Prop) : Prop :=
  ∀ frames, result.frames = some frames → (AddressDebugInfo.mk frames).FilesIn paths

/-- The frames are those of one call. -/
theorem keepsFiles {ε : Type} (kind : SymbolicationResultKind) (paths : FilePath → Prop) :
    Keeps FramesForSingleAddress ε (fun _ => True) (fun _ _ => True) kind paths
      (fun _ result => result.FilesIn paths) where
  starts_of_le _ _ _ := trivial
  fromFullMap _ _ := trivial
  forAddresses := by
    intro addresses _
    refine Outcome.Settles.meets ?_ (fun result hresult => ?_)
    · refine (Outcome.settles_assert trivial _).bind (fun _ _ => ?_)
      exact (Outcome.settles_unwrap trivial _).bind (fun _ _ => trivial)
    · obtain ⟨address, -, rfl⟩ := forAddresses_eq_ok.mp hresult
      intro frames hframes
      cases hframes
  addAddressSymbol := by
    intro _ result hresult address _ _ _ _
    refine Outcome.Settles.meets ?_ (fun result' hresult' => ?_)
    · exact (Outcome.settles_assert trivial _).bind (fun _ _ => trivial)
    · rw [(addAddressSymbol_eq_ok.mp hresult').2]
      exact hresult
  addAddressDebugInfo := by
    intro _ result _ address info _ hfiles
    refine Outcome.Settles.meets ?_ (fun result' hresult' => ?_)
    · exact (Outcome.settles_assert trivial _).bind (fun _ _ => trivial)
    · rw [(addAddressDebugInfo_eq_ok.mp hresult').2]
      intro frames hframes
      rw [← Option.some.inj hframes]
      exact hfiles
  setTotalSymbolCount _ _ h _ _ := h

end FramesForSingleAddress

/-- A file path from a symbol file that is not local has no local path. -/
theorem localPath_of_fromBasePath [Crates] [Platform] {filePath : FilePath}
    (h : FromBasePath .noLocalSourceFileAccess filePath) : filePath.localPath = none := by
  obtain ⟨rawPath, rfl | ⟨mappedPath, rfl⟩⟩ := h
  · exact PathMapper.resolve_noLocal rawPath
  · exact PathMapper.resolveExtra_noLocal rawPath mappedPath

/-! ## Where the debug info comes from -/

section Routes

variable [Crates] [Platform] {R : Type} [SymbolicationResult R] {admitted : Panic → Prop}
  {starts : Nat → Nat → Prop} {paths : FilePath → Prop} {I : Bool → R → Prop}
  {outside : Outside} {fuel : Nat}

/-- The debug info of a mach-O object and its external objects. -/
theorem Candidates.WithExternalObjects.keeps (hown : OwnPanics admitted) {kind : SymbolicationResultKind}
    (hkeeps : Keeps R GetSymbolsError admitted starts kind paths I) {basePath : BasePath}
    (hpaths : ∀ filePath, FromBasePath basePath filePath → paths filePath) {range : RangeReadRef}
    {obj : ObjectFile} {symbols r : R}
    (h : WithExternalObjects outside fuel basePath range obj kind symbols r)
    (hsymbols : I true symbols) : I true r := by
  cases kind with
  | allSymbols => exact h ▸ hsymbols
  | symbolsForAddresses addresses withDebugInfo =>
      cases withDebugInfo with
      | false => exact h ▸ hsymbols
      | true =>
          obtain ⟨traversal, hrun, rfl⟩ := h
          exact ((Traversal.meets_run hown hkeeps hpaths outside fuel hsymbols range obj).of_ok
            hrun).result

variable [Target]

/-- **ONE BASE PATH FOR ALL FILES**: whichever route supplied the result, its
    calls name only files under the base path of the location that the debug
    info is from. -/
theorem Candidates.Supplies.keeps {query : SymbolicationQuery} {candidate : CandidatePathInfo}
    {source : SymbolSource} {debugInfo : Option FileLocation} {r : R}
    (h : Supplies outside fuel query r candidate source debugInfo) (hown : OwnPanics admitted)
    (hpdb : PdbsFind starts)
    (hkeeps : Keeps R GetSymbolsError admitted starts query.resultKind paths I)
    (hpaths : ∀ location ∈ debugInfo, ∀ filePath,
      FromBasePath location.toBasePath filePath → paths filePath) : I true r := by
  cases h with
  | elf hopen hobj hinner hcollect =>
      exact (Elf.meets_getSymbolicationResultImpl hown.toAdmits hkeeps (hpaths _ rfl) _ _).of_ok
        hcollect
  | machO hopen hrange hobj hcollect hresult =>
      exact WithExternalObjects.keeps hown hkeeps (hpaths _ rfl) hresult
        ((MachO.meets_machOSymbols hkeeps _ _).of_ok hcollect)
  | dyldImage hopen himages himage hobj hdata hcollect =>
      exact (MachO.meets_machOSymbols hkeeps _ _).of_ok hcollect
  | pdb hopen hfile hcontext hcollect =>
      exact (Windows.meets_getSymbolicationResultFromContext hkeeps hown.noPdbFrames (hpaths _ rfl)
        (hpdb _ _ _ hfile hcontext) _).of_ok hcollect
  | pdbOfPe hopen hpe hinfo hlocations hmem hopen' hfile hcontext hcollect =>
      exact (Windows.meets_getSymbolicationResultFromContext hkeeps hown.noPdbFrames (hpaths _ rfl)
        (hpdb _ _ _ hfile hcontext) _).of_ok hcollect
  | pe hopen hobj hcollect =>
      exact (Windows.meets_getSymbolicationResultFromPe hkeeps _).of_ok hcollect

/-- The files in the frames of a single address. -/
theorem Candidates.Supplies.filesIn {query : SymbolicationQuery} {candidate : CandidatePathInfo}
    {source : SymbolSource} {debugInfo : Option FileLocation} {r : FramesForSingleAddress}
    (h : Supplies outside fuel query r candidate source debugInfo) :
    r.FilesIn (fun filePath => ∃ location ∈ debugInfo,
      FromBasePath location.toBasePath filePath) := by
  have hown : OwnPanics (fun _ => True) := ⟨⟨trivial, trivial, trivial⟩, trivial, trivial, trivial,
    trivial, trivial⟩
  have hpdb : PdbsFind (fun _ _ => True) := fun _ _ _ _ _ =>
    ⟨fun _ _ _ => trivial, fun _ _ _ => trivial⟩
  exact h.keeps hown hpdb (FramesForSingleAddress.keepsFiles _ _)
    (fun location hlocation filePath hfile => ⟨location, hlocation, hfile⟩)

/-! ## What the source API opens -/

/-- **ONLY ALLOWED FILES ARE OPENED**: what is opened is the local path of a file
    in the frames, under the requested name; the files in the frames are under
    the base path of the location that the debug info is from; and for debug
    info from elsewhere nothing is opened at all. -/
theorem sourceApi_opensAllowedFiles (helper : FileAndPathHelper)
    (helpers : SymbolicationQuery → FileAndPathHelper)
    (outsides : SymbolicationQuery → Nat → Outside) (fuel : Nat) (request : Source.Request) :
    (∀ location ∈ Source.opened helper (lookUp FramesForSingleAddress helpers outsides fuel) request,
      ∃ filePath path,
        Source.Produces (lookUp FramesForSingleAddress helpers outsides fuel) request filePath ∧
        filePath.mappedPath = request.file ∧ filePath.localPath = some path ∧
        location = .path path) ∧
    ∀ debugId r,
      (SymbolicateV5.toDebugId request.debugId : Call GetSymbolsError _) = .ok debugId →
      lookUp FramesForSingleAddress helpers outsides fuel
        (Source.symbolicationQuery request debugId) = .ok r →
      (∃ n candidate source debugInfo,
        Supplies (outsides (Source.symbolicationQuery request debugId) n) fuel
          (Source.symbolicationQuery request debugId) r candidate source debugInfo) ∧
      ∀ n candidate source debugInfo,
        Supplies (outsides (Source.symbolicationQuery request debugId) n) fuel
          (Source.symbolicationQuery request debugId) r candidate source debugInfo →
        (∀ filePath,
          Source.Produces (lookUp FramesForSingleAddress helpers outsides fuel) request filePath →
          ∃ location ∈ debugInfo, FromBasePath location.toBasePath filePath) ∧
        ((∀ location ∈ debugInfo, ∃ name, location = .custom name) →
          Source.opened helper (lookUp FramesForSingleAddress helpers outsides fuel) request
            = []) := by
  refine ⟨fun location h => Source.produces_of_mem_opened h, ?_⟩
  intro debugId r hid hlookup
  constructor
  · obtain ⟨before, candidate, -, -, -, -, source, debugInfo, hsupplies, -⟩ :=
      exists_supplies hlookup
    exact ⟨before.length, candidate, source, debugInfo, hsupplies⟩
  · intro n candidate source debugInfo hsupplies
    have hunder : ∀ filePath,
        Source.Produces (lookUp FramesForSingleAddress helpers outsides fuel) request filePath →
        ∃ location ∈ debugInfo, FromBasePath location.toBasePath filePath := by
      rintro filePath ⟨debugId', r', frames, hid', hlookup', hframes, frame, hframe, hpath⟩
      obtain rfl : debugId = debugId' := Outcome.ok.inj (hid.symm.trans hid')
      obtain rfl : r = r' := Outcome.ok.inj (hlookup.symm.trans hlookup')
      exact hsupplies.filesIn frames hframes frame hframe filePath hpath
    refine ⟨hunder, fun hcustom => ?_⟩
    -- under a custom location no path is local, and only local paths are opened
    rw [List.eq_nil_iff_forall_not_mem]
    intro location hopened
    obtain ⟨filePath, path, hproduces, -, hlocal, -⟩ := Source.produces_of_mem_opened hopened
    obtain ⟨symbolFile, hsymbolFile, hfile⟩ := hunder filePath hproduces
    obtain ⟨name, rfl⟩ := hcustom symbolFile hsymbolFile
    rw [localPath_of_fromBasePath hfile] at hlocal
    cases hlocal

end Routes

section Samples

local instance : Platform := unix

local instance : Target := ⟨64⟩

local instance : Crates := pdbCrates

/-- A helper that finds every file, the PDB in a local directory. -/
def localCandidate : FileAndPathHelper where
  getCandidatePathsForBinaryOrPdb _ _ := .ok [.singleFile (.path (.ofString "/sym/f.pdb"))]
  getCandidatePathsForPdb _ _ _ _ := .ok []
  openFile _ := .ok (.zeros 4096)

/-- The same helper every time. -/
def localCandidateOutside : Outside :=
  fun _ => ⟨localCandidate, .listed _, .listed _, .listed _⟩

/-- A request for `f.c` at an address in the function. -/
def sourceRequest : Source.Request where
  debugName := "f.pdb"
  debugId := "010101010101010101010101010101010"
  moduleOffset := 0x11
  file := "f.c"

/-- The same PDB, in a local directory and from elsewhere. -/
theorem sourceApi_opensAllowedFiles_local_and_custom :
    Source.opened localCandidate (lookUp FramesForSingleAddress (fun _ => localCandidate)
        (fun _ _ => localCandidateOutside) 0) sourceRequest
      = [.path (.ofString "/sym/f.c")] ∧
    (∃ filePath path,
      Source.Produces (lookUp FramesForSingleAddress (fun _ => localCandidate)
        (fun _ _ => localCandidateOutside) 0) sourceRequest filePath ∧
      filePath.mappedPath = sourceRequest.file ∧ filePath.localPath = some path ∧
      FileLocation.path (.ofString "/sym/f.c") = .path path) ∧
    Source.opened oneCandidate (lookUp FramesForSingleAddress (fun _ => oneCandidate)
      (fun _ _ => oneCandidateOutside) 0) sourceRequest = [] :=
  ⟨rfl,
    (sourceApi_opensAllowedFiles localCandidate (fun _ => localCandidate)
      (fun _ _ => localCandidateOutside) 0 sourceRequest).1 _ (List.mem_singleton_self _),
    (((sourceApi_opensAllowedFiles oneCandidate (fun _ => oneCandidate)
      (fun _ _ => oneCandidateOutside) 0 sourceRequest).2 _ _ rfl rfl).2 0
        (.singleFile (.custom "found")) (.pdb oneFunctionPdb) (some (.custom "found"))
        (.pdb rfl rfl rfl (show Windows.getSymbolicationResultFromContext _ _ oneFunction none _ = _
          from rfl))).2 (fun _ h => ⟨"found", (Option.some.inj h).symm⟩)⟩

end Samples

end ProfilerGetSymbols
