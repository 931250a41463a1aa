import ProfilerGetSymbols.Error
import ProfilerGetSymbols.LookedUpAddresses
import ProfilerGetSymbols.ProgLib.SortDedup

/-! # `/symbolicate/v5` — from a request to its response

    A request is a list of jobs: stacks of frames, each a module index and an
    address, over a memory map of libraries.  The addresses are gathered for
    each library over all jobs, looked up once for each library, and put
    together again frame by frame.

    The three passes go through hash maps twice.  Their iteration orders are
    parameters: one order for each job's map by module index, one for the map by
    library. -/

namespace ProfilerGetSymbols.SymbolicateV5

open ProgLib Paths

/-! ## Requests -/

structure Lib where
  debugName : String
  breakpadId : String
  deriving DecidableEq, Repr

namespace Request

structure StackFrame where
  moduleIndex : UInt32
  address : UInt32
  deriving DecidableEq, Repr

structure Job where
  memoryMap : List Lib
  /-- `stacks`, a reserved word here. -/
  callStacks : List (List StackFrame)
  deriving DecidableEq, Repr

end Request

inductive Request where
  | withJobsList (jobs : List Request.Job)
  | justOneJob (job : Request.Job)
  deriving DecidableEq, Repr

def Request.jobs : Request → List Request.Job
  | .withJobsList jobs => jobs
  | .justOneJob job => [job]

/-! ## Responses -/

namespace Response

structure InlineStackFrame where
  function : Option String
  file : Option String
  line : Option Nat
  deriving DecidableEq, Repr

structure DebugInfo where
  file : Option String
  line : Option Nat
  inlines : List InlineStackFrame
  deriving DecidableEq, Repr

structure Symbol where
  function : String
  functionOffset : Nat
  functionSize : Option Nat
  debugInfo : Option DebugInfo
  deriving DecidableEq, Repr

structure StackFrame where
  frame : Nat
  moduleOffset : Nat
  module : String
  symbol : Option Symbol
  deriving DecidableEq, Repr

structure Error where
  name : String
  message : String
  deriving DecidableEq, Repr

structure Result where
  callStacks : List (List StackFrame)
  foundModules : HashMap String Bool
  moduleErrors : HashMap String (List Error)

end Response

structure Response where
  results : List Response.Result

variable [Platform] [Crates] {ε : Type}

/-- `From<&GetSymbolsError> for Error`. -/
def Response.Error.from (err : GetSymbolsError) : Response.Error :=
  ⟨err.enumAsString, err.message⟩

/-- `to_debug_id`. -/
def toDebugId (breakpadId : String) : Call GetSymbolsError DebugId :=
  match Crates.fromBreakpad breakpadId with
  | some debugId => .ok debugId
  | none => .err (.invalidBreakpadId breakpadId)

/-! ## Gathering -/

/-- The frames of a job, one after the other. -/
def jobFrames (job : Request.Job) : List Request.StackFrame := job.callStacks.flatten

/-- The first pass over a job: the addresses by module index. -/
def addressesByModuleIndex (job : Request.Job) : HashMap Nat (List Nat) :=
  (jobFrames job).foldl
    (fun map frame => map.entryOrInsertWith frame.moduleIndex.toNat [] (· ++ [frame.address.toNat]))
    HashMap.empty

/-- The second pass over a job: its addresses by library. -/
def extendRequested (job : Request.Job) :
    HashMap Lib (List Nat) → List (Nat × List Nat) → Call GetSymbolsError (HashMap Lib (List Nat))
  | requested, [] => return requested
  | requested, (moduleIndex, addresses) :: rest =>
      match job.memoryMap[moduleIndex]? with
      | some lib =>
          extendRequested job (requested.entryOrInsertWith lib [] (· ++ addresses)) rest
      | none => .err (.parseRequestErrorContents "Stack frame module index beyond the memoryMap")

/-- The loop over the jobs, the first of them having the given position. -/
def gatherJobs (orders : Nat → IterOrder (Nat × List Nat)) :
    Nat → HashMap Lib (List Nat) → List Request.Job → Call GetSymbolsError (HashMap Lib (List Nat))
  | _, requested, [] => return requested
  | position, requested, job :: jobs => do
      let requested ← extendRequested job requested
        ((orders position).order (addressesByModuleIndex job).entries)
      gatherJobs orders (position + 1) requested jobs

def gatherRequestedAddresses (orders : Nat → IterOrder (Nat × List Nat)) (request : Request) :
    Call GetSymbolsError (HashMap Lib (List Nat)) :=
  gatherJobs orders 0 HashMap.empty request.jobs

/-! ## Looking up -/

/-- `get_symbolication_result`, on the files of a helper. -/
abbrev Lookup := SymbolicationQuery → Call GetSymbolsError LookedUpAddresses

/-- `sort_unstable` and `dedup`. -/
def sortAndDedup (addresses : List Nat) : List Nat := firstByKey id addresses

/-- The body of the loop over the libraries. -/
def lookUpLib (getSymbolicationResult : Lookup) (withDebugInfo : Bool) (lib : Lib)
    (addresses : List Nat) : Call ε (Except GetSymbolsError LookedUpAddresses) :=
  (do
    let debugId ← toDebugId lib.breakpadId
    getSymbolicationResult
      { debugName := lib.debugName
        debugId := debugId
        resultKind := .symbolsForAddresses (sortAndDedup addresses) withDebugInfo }).attempt

/-- The loop over the libraries. -/
def lookUpLibs (getSymbolicationResult : Lookup) (withDebugInfo : Bool) :
    HashMap Lib (Except GetSymbolsError LookedUpAddresses) → List (Lib × List Nat) →
      Call ε (HashMap Lib (Except GetSymbolsError LookedUpAddresses))
  | symbolicated, [] => return symbolicated
  | symbolicated, (lib, addresses) :: rest => do
      let addressResults ← lookUpLib getSymbolicationResult withDebugInfo lib addresses
      lookUpLibs getSymbolicationResult withDebugInfo (symbolicated.insert lib addressResults) rest

def symbolicateRequestedAddresses (order : IterOrder (Lib × List Nat))
    (getSymbolicationResult : Lookup) (requested : HashMap Lib (List Nat)) (withDebugInfo : Bool) :
    Call ε (HashMap Lib (Except GetSymbolsError LookedUpAddresses)) :=
  lookUpLibs getSymbolicationResult withDebugInfo HashMap.empty (order.order requested.entries)

/-! ## Responding -/

/-- What `result_for_job` collects from the memory map. -/
structure JobModules where
  foundModules : HashMap String Bool
  moduleErrors : HashMap String (List Response.Error)
  symbolsByModuleIndex : HashMap Nat AddressResults

/-- The body of the loop over the memory map. -/
def addModule (symbolicated : HashMap Lib (Except GetSymbolsError LookedUpAddresses))
    (modules : JobModules) (entry : Lib × Nat) : JobModules :=
  let (lib, moduleIndex) := entry
  match symbolicated.get? lib with
  | none => modules
  | some symbolResult =>
      let moduleKey := lib.debugName ++ "/" ++ lib.breakpadId
      match symbolResult with
      | .ok symbols =>
          { foundModules := modules.foundModules.insert moduleKey true
            moduleErrors := modules.moduleErrors
            symbolsByModuleIndex :=
              modules.symbolsByModuleIndex.insert (asU32 moduleIndex) symbols.addressResults }
      | .error err =>
          { foundModules := modules.foundModules.insert moduleKey false
            moduleErrors := modules.moduleErrors.insert moduleKey [.from err]
            symbolsByModuleIndex := modules.symbolsByModuleIndex }

def jobModules (symbolicated : HashMap Lib (Except GetSymbolsError LookedUpAddresses))
    (memoryMap : List Lib) : JobModules :=
  memoryMap.zipIdx.foldl (addModule symbolicated)
    ⟨HashMap.empty, HashMap.empty, HashMap.empty⟩

def inlineFrame (frame : InlineStackFrame) : Response.InlineStackFrame :=
  ⟨frame.function, frame.filePath.map (·.mappedPath), frame.lineNumber⟩

/-- `split_last`, and the debug info made of the two parts. -/
def debugInfo (frames : List InlineStackFrame) : Call ε Response.DebugInfo := do
  let outer ← Outcome.unwrap .noInlineFrames frames.getLast?
  return {
    file := outer.filePath.map (·.mappedPath)
    line := outer.lineNumber
    inlines := frames.dropLast.map inlineFrame }

def symbolForResult (address : Nat) (result : AddressResult) : Call ε Response.Symbol := do
  let debugInfo ← match result.inlineFrames with
    | some frames => some <$> debugInfo frames
    | none => pure none
  return {
    function := result.symbolName
    functionOffset := u32Sub address result.symbolAddress
    functionSize := result.functionSize
    debugInfo := debugInfo }

/-- The symbol of a frame, from the table of its module if there is one. -/
def symbolForFrame (frame : Request.StackFrame)
    (symbolsByModuleIndex : HashMap Nat AddressResults) : Call ε (Option Response.Symbol) := do
  match symbolsByModuleIndex.get? frame.moduleIndex.toNat with
  | none => return none
  | some symbolMap =>
      -- If we have a symbol table for this library, then this address is in it.
      match ← Outcome.unwrap .addressNotInSymbolMap (symbolMap.get? frame.address.toNat) with
      | none => return none
      | some result => some <$> symbolForResult frame.address.toNat result

def responseFrameForRequestFrame (memoryMap : List Lib)
    (symbolsByModuleIndex : HashMap Nat AddressResults) (entry : Request.StackFrame × Nat) :
    Call ε Response.StackFrame := do
  let (frame, frameIndex) := entry
  let symbol ← symbolForFrame frame symbolsByModuleIndex
  let lib ← Outcome.unwrap .indexOutOfBounds memoryMap[frame.moduleIndex.toNat]?
  return {
    frame := asU32 frameIndex
    moduleOffset := frame.address.toNat
    module := lib.debugName
    symbol := symbol }

def responseStackForRequestStack (memoryMap : List Lib)
    (symbolsByModuleIndex : HashMap Nat AddressResults) (stack : List Request.StackFrame) :
    Call ε (List Response.StackFrame) :=
  stack.zipIdx.mapM (responseFrameForRequestFrame memoryMap symbolsByModuleIndex)

def resultForJob (symbolicated : HashMap Lib (Except GetSymbolsError LookedUpAddresses))
    (job : Request.Job) : Call ε Response.Result := do
  let modules := jobModules symbolicated job.memoryMap
  let callStacks ← job.callStacks.mapM
    (responseStackForRequestStack job.memoryMap modules.symbolsByModuleIndex)
  return ⟨callStacks, modules.foundModules, modules.moduleErrors⟩

def createResponse (request : Request)
    (symbolicated : HashMap Lib (Except GetSymbolsError LookedUpAddresses)) :
    Call ε Response := do
  let results ← request.jobs.mapM (resultForJob symbolicated)
  return ⟨results⟩

/-- The iteration orders of the maps that a query goes through. -/
structure Orders where
  byModuleIndex : Nat → IterOrder (Nat × List Nat)
  byLib : IterOrder (Lib × List Nat)

/-- The entries as they are listed. -/
def Orders.listed : Orders := ⟨fun _ => .listed _, .listed _⟩

def queryApi (orders : Orders) (getSymbolicationResult : Lookup) (request : Request)
    (withDebugInfo : Bool) : Call GetSymbolsError Response := do
  let requested ← gatherRequestedAddresses orders.byModuleIndex request
  let symbolicated ← symbolicateRequestedAddresses orders.byLib getSymbolicationResult requested
    withDebugInfo
  createResponse request symbolicated

end ProfilerGetSymbols.SymbolicateV5
