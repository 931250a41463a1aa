import ProfilerGetSymbols.FramesForSingleAddress
import ProfilerGetSymbols.SymbolicateV5

/-! # `/source/v1` — from a request to a source file

    A request names a library, an address in it and a file.  The address is
    looked up, and the file is opened only if one of its frames refers to it by
    that name and has a local path.

    The files that a query opens itself are logged; the lookup is a parameter. -/

namespace ProfilerGetSymbols.Source

open ProgLib Paths

structure Request where
  debugName : String
  debugId : String
  moduleOffset : UInt32
  file : String
  deriving DecidableEq, Repr

structure Response where
  symbolsLastModified : Option String
  sourceLastModified : Option String
  file : String
  source : String
  deriving DecidableEq, Repr

inductive SourceError where
  | noSymbols (error : GetSymbolsError)
  | noDebugInfo
  | invalidPath
  | nonLocalSymbols
  | fileAndPathHelperError (error : String)

/-- `get_symbolication_result`, on the files of a helper. -/
abbrev Lookup := SymbolicationQuery → Call GetSymbolsError FramesForSingleAddress

variable [Platform] [Crates]

/-- `to_string`. -/
def SourceError.message : SourceError → String
  | .noSymbols error => "Could not obtain symbols for the requested library: " ++ error.message
  | .noDebugInfo => "Don't have any debug info for the requested library"
  | .invalidPath => "The requested path is not present in the symbolication frames"
  | .nonLocalSymbols =>
      "The symbol file came from a non-local origin, so we cannot treat file paths in it as local."
  | .fileAndPathHelperError error => "An error occurred when reading the file: " ++ error

/-- The query that a request makes. -/
def symbolicationQuery (request : Request) (debugId : DebugId) : SymbolicationQuery where
  debugName := request.debugName
  debugId := debugId
  resultKind := .symbolsForAddresses [request.moduleOffset.toNat] true

/-- The frames at the address, and the first of their files with the requested name. -/
def requestedFilePath (getSymbolicationResult : Lookup) (request : Request) :
    Call SourceError FilePath := do
  let debugId ← (SymbolicateV5.toDebugId request.debugId).mapErr .noSymbols
  let symbolResult ← (getSymbolicationResult (symbolicationQuery request debugId)).mapErr .noSymbols
  let frames ← .ofExcept (symbolResult.frames.elim (.error .noDebugInfo) .ok)
  .ofExcept (((frames.filterMap (·.filePath)).find?
    (fun filePath => filePath.mappedPath == request.file)).elim (.error .invalidPath) .ok)

/-- `helper.open_file`, logged. -/
def openFile (helper : FileAndPathHelper) (location : FileLocation) :
    Stateful (List FileLocation) Panic SourceError FileContents := fun opened =>
  (.ofExcept ((helper.openFile location).mapError .fileAndPathHelperError), opened ++ [location])

omit [Platform] [Crates] in
@[simp] theorem run_openFile (helper : FileAndPathHelper) (location : FileLocation)
    (log : List FileLocation) : (openFile helper location).run log
      = (.ofExcept ((helper.openFile location).mapError .fileAndPathHelperError),
        log ++ [location]) := rfl

/-- The part of `query_api` that reads the file: only a local path is opened. -/
def readSource (helper : FileAndPathHelper) (request : Request) (filePath : FilePath) :
    Stateful (List FileLocation) Panic SourceError Response := do
  let localPath ← .lift (.ofExcept (filePath.localPath.elim (.error .nonLocalSymbols) .ok))
  let fileContents ← openFile helper (.path localPath)
  let fileContents ← .lift
    (.ofExcept (fileContents.readEntireData.mapError .fileAndPathHelperError))
  return {
    symbolsLastModified := none
    sourceLastModified := none
    file := request.file
    source := fromUtf8Lossy fileContents }

def queryApi (helper : FileAndPathHelper) (getSymbolicationResult : Lookup) (request : Request) :
    Stateful (List FileLocation) Panic SourceError Response := do
  let filePath ← .lift (requestedFilePath getSymbolicationResult request)
  readSource helper request filePath

/-- The answer to a request. -/
def answer (helper : FileAndPathHelper) (getSymbolicationResult : Lookup) (request : Request) :
    Call SourceError Response :=
  ((queryApi helper getSymbolicationResult request).run []).1

/-- The files that a request opens. -/
def opened (helper : FileAndPathHelper) (getSymbolicationResult : Lookup) (request : Request) :
    List FileLocation :=
  ((queryApi helper getSymbolicationResult request).run []).2

/-! ## What is opened -/

section Opened

variable {helper : FileAndPathHelper} {getSymbolicationResult : Lookup} {request : Request}

omit [Platform] [Crates] in
/-- Reading opens the local path, if there is one, and never refuses. -/
theorem run_readSource (helper : FileAndPathHelper) (request : Request) (filePath : FilePath)
    (log : List FileLocation) : ∃ outcome,
      (readSource helper request filePath).run log
        = (outcome, log ++ filePath.localPath.toList.map .path) ∧
      outcome ≠ .err .noDebugInfo ∧ outcome ≠ .err .invalidPath := by
  rw [readSource, Stateful.run_bind, Stateful.run_lift]
  cases filePath.localPath with
  | none =>
      refine ⟨.err .nonLocalSymbols, ?_, ?_, ?_⟩
      · rw [Option.toList_none, List.map_nil, List.append_nil]
        rfl
      · exact fun h => by cases h
      · exact fun h => by cases h
  | some localPath =>
      show ∃ outcome, ((openFile helper (.path localPath) >>= _ : Stateful _ _ _ _).run log)
        = (outcome, log ++ [.path localPath]) ∧ _
      rw [Stateful.run_bind, run_openFile]
      cases helper.openFile (.path localPath) with
      | error error => exact ⟨_, rfl, by simp, by simp⟩
      | ok contents =>
          show ∃ outcome, ((Stateful.lift _ >>= _ : Stateful _ _ _ _).run _) = _ ∧ _
          rw [Stateful.run_bind, Stateful.run_lift]
          cases contents.readEntireData with
          | error error => exact ⟨_, rfl, by simp, by simp⟩
          | ok data => exact ⟨_, rfl, by simp, by simp⟩

omit [Platform] [Crates] in
/-- Reading does not panic. -/
theorem meets_readSource {admitted : Panic → Prop} (helper : FileAndPathHelper) (request : Request)
    (filePath : FilePath) (log : List FileLocation) :
    ((readSource helper request filePath).run log).1.Meets admitted (fun _ => True) := by
  rw [readSource, Stateful.run_bind, Stateful.run_lift]
  cases filePath.localPath with
  | none => exact trivial
  | some localPath =>
      show ((openFile helper (.path localPath) >>= _ : Stateful _ _ _ _).run log).1.Meets _ _
      rw [Stateful.run_bind, run_openFile]
      cases helper.openFile (.path localPath) with
      | error error => exact trivial
      | ok contents =>
          show ((Stateful.lift _ >>= _ : Stateful _ _ _ _).run _).1.Meets _ _
          rw [Stateful.run_bind, Stateful.run_lift]
          cases contents.readEntireData with
          | error error => exact trivial
          | ok data => exact trivial

/-- Nothing is opened before the check, and after it only the local path of the
    file that it found. -/
theorem opened_eq : opened helper getSymbolicationResult request
    = match requestedFilePath getSymbolicationResult request with
      | .ok filePath => filePath.localPath.toList.map .path
      | _ => [] := by
  rw [opened, queryApi, Stateful.run_bind, Stateful.run_lift]
  cases requestedFilePath getSymbolicationResult request with
  | err error => rfl
  | panic site => rfl
  | unfinished => rfl
  | ok filePath =>
      obtain ⟨outcome, hrun, -, -⟩ := run_readSource helper request filePath []
      show ((readSource helper request filePath).run []).2 = _
      rw [hrun]
      rfl

/-- The symbolication of the request has a frame with the file. -/
def Produces (getSymbolicationResult : Lookup) (request : Request) (filePath : FilePath) : Prop :=
  ∃ debugId symbolResult frames,
    (SymbolicateV5.toDebugId request.debugId : Call GetSymbolsError _) = .ok debugId ∧
    getSymbolicationResult (symbolicationQuery request debugId) = .ok symbolResult ∧
    symbolResult.frames = some frames ∧ ∃ frame ∈ frames, frame.filePath = some filePath

/-- The check lets a file pass only if it is that of a frame, and has the requested name. -/
theorem produces_of_requestedFilePath {filePath : FilePath}
    (h : requestedFilePath getSymbolicationResult request = .ok filePath) :
    Produces getSymbolicationResult request filePath ∧ filePath.mappedPath = request.file := by
  obtain ⟨debugId, hid, h⟩ := Outcome.bind_eq_ok.mp h
  obtain ⟨symbolResult, hresult, h⟩ := Outcome.bind_eq_ok.mp h
  obtain ⟨frames, hframes, h⟩ := Outcome.bind_eq_ok.mp h
  have hfind : (frames.filterMap (·.filePath)).find?
      (fun filePath => filePath.mappedPath == request.file) = some filePath := by
    have hsome := Outcome.ofExcept_eq_ok.mp h
    cases hfind : (frames.filterMap (·.filePath)).find?
        (fun filePath => filePath.mappedPath == request.file) with
    | none =>
        rw [hfind] at hsome
        cases hsome
    | some found =>
        rw [hfind] at hsome
        rw [Except.ok.inj hsome]
  have hheld : symbolResult.frames = some frames := by
    have hsome := Outcome.ofExcept_eq_ok.mp hframes
    cases hheld : symbolResult.frames with
    | none =>
        rw [hheld] at hsome
        cases hsome
    | some held =>
        rw [hheld] at hsome
        rw [Except.ok.inj hsome]
  -- the path found is that of some frame
  obtain ⟨frame, hframe, hpath⟩ := List.mem_filterMap.mp (List.mem_of_find?_eq_some hfind)
  have hmapped := List.find?_some hfind
  exact ⟨⟨debugId, symbolResult, frames, Outcome.mapErr_eq_ok.mp hid,
    Outcome.mapErr_eq_ok.mp hresult, hheld, frame, hframe, hpath⟩, beq_iff_eq.mp hmapped⟩

/-- What is opened is the local path of a frame's file with the requested name. -/
theorem produces_of_mem_opened {location : FileLocation}
    (h : location ∈ opened helper getSymbolicationResult request) :
    ∃ filePath path, Produces getSymbolicationResult request filePath ∧
      filePath.mappedPath = request.file ∧ filePath.localPath = some path ∧
      location = .path path := by
  rw [opened_eq] at h
  cases hcheck : requestedFilePath getSymbolicationResult request with
  | err error =>
      rw [hcheck] at h
      cases h
  | panic site =>
      rw [hcheck] at h
      cases h
  | unfinished =>
      rw [hcheck] at h
      cases h
  | ok filePath =>
      rw [hcheck] at h
      obtain ⟨path, hpath, rfl⟩ := List.mem_map.mp h
      obtain ⟨hproduces, hmapped⟩ := produces_of_requestedFilePath hcheck
      exact ⟨filePath, path, hproduces, hmapped, Option.mem_toList.mp hpath, rfl⟩

/-- The request is refused: there are no frames, or none with the requested file. -/
def Refused (helper : FileAndPathHelper) (getSymbolicationResult : Lookup) (request : Request) :
    Prop :=
  answer helper getSymbolicationResult request = .err .noDebugInfo ∨
    answer helper getSymbolicationResult request = .err .invalidPath

/-- It is the check that refuses. -/
theorem refused_iff : Refused helper getSymbolicationResult request ↔
    requestedFilePath getSymbolicationResult request = .err .noDebugInfo ∨
      requestedFilePath getSymbolicationResult request = .err .invalidPath := by
  rw [Refused, answer, queryApi, Stateful.run_bind, Stateful.run_lift]
  cases requestedFilePath getSymbolicationResult request with
  | err error => simp
  | panic site => simp
  | unfinished => simp
  | ok filePath =>
      obtain ⟨outcome, hrun, hinfo, hpath⟩ := run_readSource helper request filePath []
      show (((readSource helper request filePath).run []).1 = _ ∨
        ((readSource helper request filePath).run []).1 = _) ↔ _
      rw [hrun]
      constructor
      · rintro (h | h)
        · exact absurd h hinfo
        · exact absurd h hpath
      · rintro (h | h)
        · cases h
        · cases h

end Opened

end ProfilerGetSymbols.Source
