import ProfilerGetSymbols.Error
import ProfilerGetSymbols.PathMapper
import ProfilerGetSymbols.Symbols

/-! # Windows — PDB files, and the exports of a PE binary

    A PDB is asked for its functions or, with debug info, for their frames; the
    paths in these go through its `srcsrv` stream first.  A PE binary leads to
    the PDB candidates that the helper names for it, and only if none of them
    answers are the symbols those of the binary itself. -/

namespace ProfilerGetSymbols.Windows

open ProgLib Paths Symbols

/-! ## The srcsrv stream -/

structure SrcSrvPathMapper where
  srcsrvStream : SrcSrvStream
  cache : HashMap String (Option String)
  /-- `command_is_file_download_with_url_in_var4_and_uncompress_function_in_var5`. -/
  commandIsFileDownload : Bool

namespace SrcSrvPathMapper

def matchesChromeGitilesWorkaround (srcsrvStream : SrcSrvStream) : Bool :=
  let cmd := srcsrvStream.getRawVar "SRC_EXTRACT_CMD"
  srcsrvStream.getRawVar "SRCSRVCMD" == some "%SRC_EXTRACT_CMD%" &&
    (cmd == some "cmd /c \"mkdir \"%SRC_EXTRACT_TARGET_DIR%\" & python3 -c \"import urllib.request, base64;url = \\\"%var4%\\\";u = urllib.request.urlopen(url);open(r\\\"%SRC_EXTRACT_TARGET%\\\", \\\"wb\\\").write(%var5%(u.read()))\"" ||
      cmd == some "SRC_EXTRACT_CMD=cmd /c \"mkdir \"%SRC_EXTRACT_TARGET_DIR%\" & python3 -c \"import urllib.request, base64;url = \\\"%var4%\\\";u = urllib.request.urlopen(url);open(r\\\"%SRC_EXTRACT_TARGET%\\\", \\\"wb\\\").write(%var5%(u.read()))\"")

def new (srcsrvStream : SrcSrvStream) : SrcSrvPathMapper :=
  ⟨srcsrvStream, .empty, matchesChromeGitilesWorkaround srcsrvStream⟩

variable [Crates]

def gitilesToSpecialPath (m : SrcSrvPathMapper) (map : String → Option String) : Option String :=
  if !m.commandIsFileDownload then none
  else if map "var5" ≠ some "base64.b64decode" then none
  else do
    let url ← map "var4"
    let captures ← Crates.gitilesRegex url
    return "git:" ++ captures.repo ++ ":" ++ captures.path ++ ":" ++ captures.rev

def urlToSpecialPath (url : String) : String :=
  match Crates.githubRegex url with
  | some captures =>
      "git:github.com/" ++ captures.repo ++ ":" ++ captures.path ++ ":" ++ captures.rev
  | none =>
  match Crates.hgRegex url with
  | some captures => "hg:" ++ captures.repo ++ ":" ++ captures.path ++ ":" ++ captures.rev
  | none =>
  match Crates.s3Regex url with
  | some captures => "s3:" ++ captures.bucket ++ ":" ++ captures.digestAndPath ++ ":"
  | none => url

/-- The special path of a path that is not in the cache. -/
def specialPath (m : SrcSrvPathMapper) (path : String) : Option String :=
  match m.srcsrvStream.sourceAndRawVarValuesForPath path "C:\\Dummy" with
  | some (.download url, _) => some (urlToSpecialPath url)
  | some (.executeCommand, map) => m.gitilesToSpecialPath map
  | _ => none

def mapPath (m : SrcSrvPathMapper) (path : String) : Option String × SrcSrvPathMapper :=
  match m.cache.get? path with
  | some value => (value, m)
  | none =>
      let value := m.specialPath path
      (value, { m with cache := m.cache.insert path value })

instance : ExtraPathMapper SrcSrvPathMapper := ⟨mapPath⟩

end SrcSrvPathMapper

/-! ## PDB files -/

def hasDebugInfo (func : FunctionFrames) : Bool :=
  match func.frames with
  | [] => false
  | [frame] => frame.file.isSome || frame.line.isSome
  | _ => true

/-- The debug ID of a PDB. -/
def pdbDebugId (pdb : Pdb) : Except GetSymbolsError DebugId := do
  let info ← pdb.pdbInformation.mapError (.pdbError "pdb_information")
  let dbiAge ← pdb.debugInformation.mapError (.pdbError "Unknown")
  return ⟨info.guid, dbiAge.getD info.age⟩

/-- The srcsrv stream, where the query wants debug info. -/
def srcsrvStreamData (pdb : Pdb) (query : SymbolicationQuery) :
    Except GetSymbolsError (Option Bytes) :=
  if query.resultKind.wantsDebugInfoForAddresses then
    match pdb.namedStream (asBytes "srcsrv") with
    | .ok stream => .ok (some stream)
    | .error .streamNameNotFound => .ok none
    | .error (.streamNotFound _) => .ok none
    | .error e => .error (.pdbError "pdb.named_stream(srcsrv)" e)
  else
    .ok none

variable [Crates] [Platform]

/-- The frames as the symbolication result gets them. -/
def convertFrames : List PdbFrame → PathMapper SrcSrvPathMapper →
    List InlineStackFrame × PathMapper SrcSrvPathMapper
  | [], pathMapper => ([], pathMapper)
  | frame :: frames, pathMapper =>
      let (filePath, pathMapper) :=
        match frame.file with
        | some file =>
            let (filePath, pathMapper) := pathMapper.mapPath file
            (some filePath, pathMapper)
        | none => (none, pathMapper)
      let (frames, pathMapper) := convertFrames frames pathMapper
      (⟨frame.function, filePath, frame.line⟩ :: frames, pathMapper)

variable (R : Type) [SymbolicationResult R]

variable {R} in
/-- The body of the loop over the addresses, with debug info. -/
def addFunctionFrames (context : PdbContext) (address : Nat) (symbolicationResult : R)
    (pathMapper : PathMapper SrcSrvPathMapper) :
    Call GetSymbolsError (R × PathMapper SrcSrvPathMapper) := do
  match ← Outcome.ofExcept ((context.findFrames address).mapError .pdbAddr2lineError) with
  | none => return (symbolicationResult, pathMapper)
  | some functionFrames =>
      let outer ← Outcome.unwrap .noPdbFrames functionFrames.frames.getLast?
      let functionSize := functionFrames.endRva.map (fun endRva =>
        u32Sub endRva functionFrames.startRva)
      let symbolicationResult ← SymbolicationResult.addAddressSymbol symbolicationResult address
        functionFrames.startRva (outer.function.getD "unknown") functionSize
      if hasDebugInfo functionFrames then
        let (frames, pathMapper) := convertFrames functionFrames.frames pathMapper
        if frames.isEmpty then
          return (symbolicationResult, pathMapper)
        else
          let symbolicationResult ←
            SymbolicationResult.addAddressDebugInfo symbolicationResult address ⟨frames⟩
          return (symbolicationResult, pathMapper)
      else
        return (symbolicationResult, pathMapper)

variable {R} in
/-- The body of the loop over the addresses, without debug info. -/
def addFunction (context : PdbContext) (address : Nat) (symbolicationResult : R) :
    Call GetSymbolsError R := do
  match ← Outcome.ofExcept ((context.findFunction address).mapError .pdbAddr2lineError) with
  | none => return symbolicationResult
  | some func =>
      let functionSize := func.endRva.map (fun endRva => u32Sub endRva func.startRva)
      SymbolicationResult.addAddressSymbol symbolicationResult address func.startRva
        (func.name.getD "unknown") functionSize

variable {R} in
/-- The loop over the addresses. -/
def addAddresses (context : PdbContext) (withDebugInfo : Bool) :
    List Nat → R → PathMapper SrcSrvPathMapper → Call GetSymbolsError R
  | [], symbolicationResult, _ => return symbolicationResult
  | address :: addresses, symbolicationResult, pathMapper => do
      if withDebugInfo then
        let (symbolicationResult, pathMapper) ←
          addFunctionFrames context address symbolicationResult pathMapper
        addAddresses context withDebugInfo addresses symbolicationResult pathMapper
      else
        let symbolicationResult ← addFunction context address symbolicationResult
        addAddresses context withDebugInfo addresses symbolicationResult pathMapper

/-- The mapper for the srcsrv stream, if there is one. -/
def srcsrvPathMapper : Option Bytes → Except GetSymbolsError (Option SrcSrvPathMapper)
  | some srcsrvStream => do
      let stream ← (Crates.parseSrcSrvStream srcsrvStream).mapError .srcSrvParseError
      return some (.new stream)
  | none => .ok none

/-- The symbols of a PDB whose debug ID has been checked. -/
def getSymbolicationResultFromContext (basePath : BasePath) (context : PdbContext)
    (srcsrvStream : Option Bytes) (query : SymbolicationQuery) : Call GetSymbolsError R := do
  match query.resultKind with
  | .allSymbols =>
      SymbolicationResult.fromFullMap
        (context.functions.map (fun func => (func.startRva, func.name.getD "unknown")))
  | .symbolsForAddresses addresses withDebugInfo => do
      let pathMapper ← Outcome.ofExcept (srcsrvPathMapper srcsrvStream)
      let pathMapper := PathMapper.newWithMaybeExtraMapper basePath pathMapper
      let symbolicationResult ← SymbolicationResult.forAddresses addresses
      let symbolicationResult ←
        addAddresses context withDebugInfo addresses symbolicationResult pathMapper
      SymbolicationResult.setTotalSymbolCount symbolicationResult (asU32 context.functionCount)

def getSymbolicationResult (basePath : BasePath) (pdb : Pdb) (query : SymbolicationQuery) :
    Call GetSymbolsError R := do
  let fileDebugId ← Outcome.ofExcept (pdbDebugId pdb)
  if fileDebugId ≠ query.debugId then
    .err (.unmatchedDebugId fileDebugId query.debugId)
  else
    let srcsrvStream ← Outcome.ofExcept (srcsrvStreamData pdb query)
    let contextData ← Outcome.ofExcept (pdb.tryFromPdb.mapError
      (.pdbAddr2lineErrorWithContext "ContextConstructionData::try_from_pdb"))
    let context ← Outcome.ofExcept (contextData.mapError
      (.pdbAddr2lineErrorWithContext "make_context()"))
    getSymbolicationResultFromContext R basePath context srcsrvStream query

/-! ## PE binaries -/

def tryGetSymbolicationResultFromPdbLocation (helper : FileAndPathHelper)
    (query : SymbolicationQuery) (fileLocation : FileLocation) : Call GetSymbolsError R := do
  let fileContents ← Outcome.ofExcept ((helper.openFile fileLocation).mapError
    (.helperErrorDuringOpenFile fileLocation.toStringLossy))
  let pdb ← Outcome.ofExcept ((Crates.openPdb fileContents).mapError (.pdbError "Unknown"))
  getSymbolicationResult R fileLocation.toBasePath pdb query

/-- The loop over the candidates for the PDB: the first that answers, if one
    does.  The n-th file is opened with the n-th helper. -/
def tryPdbLocations (query : SymbolicationQuery) (fileLocation : FileLocation) :
    (Nat → FileAndPathHelper) → List FileLocation → Call GetSymbolsError (Option R)
  | _, [] => return none
  | helpers, pdbLocation :: pdbLocations => do
      if pdbLocation == fileLocation then
        tryPdbLocations query fileLocation (fun n => helpers (n + 1)) pdbLocations
      else
        match ← (tryGetSymbolicationResultFromPdbLocation R (helpers 0) query pdbLocation).attempt with
        | .ok table => return some table
        | .error _ =>
            tryPdbLocations query fileLocation (fun n => helpers (n + 1)) pdbLocations

/-- A little-endian `u32`. -/
def u32FromLeBytes (b : Bytes) : Nat := b.foldr (fun byte n => byte.toNat + 256 * n) 0

/-- The start and end addresses in a `.pdata` section, entry by entry of 12 bytes. -/
def functionStartAndEndAddresses (pdata : Bytes) : List Nat × List Nat :=
  let entries := (List.range (pdata.length / 12)).map (fun i => (pdata.drop (12 * i)).take 12)
  (entries.map (fun entry => u32FromLeBytes (entry.take 4)),
    entries.map (fun entry => u32FromLeBytes ((entry.drop 4).take 4)))

/-- The `.pdata` section. -/
def pdata (pe : ObjectFile) : Option Bytes := do
  let s ← pe.sectionByNameBytes (asBytes ".pdata")
  s.data

/-- The symbols of the binary itself. -/
def getSymbolicationResultFromPe (pe : ObjectFile) (query : SymbolicationQuery) :
    Call GetSymbolsError R :=
  let functionStarts := (pdata pe).map (fun data => (functionStartAndEndAddresses data).1)
  let functionEnds := (pdata pe).map (fun data => (functionStartAndEndAddresses data).2)
  match query.resultKind with
  | .allSymbols => SymbolicationResult.fromFullMap (objectToMap pe functionStarts)
  | .symbolsForAddresses addresses _ =>
      getSymbolicationResultForAddressesFromObject R addresses pe functionStarts functionEnds

/-- The candidates for the PDB of a binary are asked for with the first helper. -/
def getSymbolicationResultViaBinary (helpers : Nat → FileAndPathHelper) (fileKind : FileKind)
    (fileContents : FileContents) (query : SymbolicationQuery) (fileLocation : FileLocation) :
    Call GetSymbolsError R := do
  let pe ← Outcome.ofExcept
    ((Crates.parseFile fileContents.fullRange).mapError (.objectParseError fileKind))
  match pe.pdbInfo with
  | none => .err (.noDebugInfoInPeBinary fileLocation.toStringLossy)
  | some info => do
      -- `CString::new` refuses a path with a nul byte in it.
      Outcome.assert .nulInPdbPath (0 ∉ info.path)
      let candidatePathsForPdb ← Outcome.ofExcept
        (((helpers 0).getCandidatePathsForPdb query.debugName query.debugId info.path
          fileLocation).mapError
          (.helperErrorDuringGetCandidatePathsForPdb query.debugName query.debugId))
      match ← tryPdbLocations R query fileLocation (fun n => helpers (n + 1))
        candidatePathsForPdb with
      | some table => return table
      | none => do
          let fileDebugId ← Outcome.unwrap .noDebugIdInPe (debugIdForObject pe)
          if query.debugId ≠ fileDebugId then
            .err (.unmatchedDebugId fileDebugId query.debugId)
          else
            getSymbolicationResultFromPe R pe query

end ProfilerGetSymbols.Windows
