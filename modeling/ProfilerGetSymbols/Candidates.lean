import ProfilerGetSymbols.CompactSymbolTable
import ProfilerGetSymbols.Elf
import ProfilerGetSymbols.Traversal
import ProfilerGetSymbols.Windows

/-! # Candidates — from a query to the file that answers it

    The helper names candidate files for a query, and they are tried in order.
    What a file is decides how it is read: ELF, thin or fat mach-O, PE or PDB;
    a candidate can also be an image in a dyld shared cache.

    Nothing is assumed of the helper.  An attempt asks it many times, and it may
    give other answers each time: the outside of an attempt is an environment
    for each question. -/

namespace ProfilerGetSymbols.Candidates

open ProgLib Paths

variable [Crates] [Platform]

/-- What the outside answers to the questions of one attempt. -/
abbrev Outside := Nat → Environment

/-- The helpers of an outside. -/
def Outside.helpers (outside : Outside) : Nat → FileAndPathHelper := fun n => (outside n).helper

/-- The outside after the first question. -/
def Outside.tail (outside : Outside) : Outside := fun n => outside (n + 1)

variable (R : Type) [SymbolicationResult R]

/-- A fat mach-O file: the slice with the debug ID is a mach-O object. -/
def getSymbolicationResultFromFat (outside : Outside) (fuel : Nat) (basePath : BasePath)
    (fileKind : FileKind) (fileContents : FileContents)
    (arches : Except String (List (Nat × Nat))) (query : SymbolicationQuery) :
    Call GetSymbolsError R := do
  let arches ← Outcome.ofExcept (arches.mapError (.objectParseError fileKind))
  let range ← Outcome.ofExcept (MachO.getArchRange fileContents arches query.debugId)
  MachO.getSymbolicationResult R outside fuel basePath fileContents (some range) query

variable [Target]

/-- The part of `try_get_symbolication_result_from_path` after the file is open. -/
def getSymbolicationResultFromFile (outside : Outside) (fuel : Nat) (query : SymbolicationQuery)
    (fileLocation : FileLocation) (fileContents : FileContents) : Call GetSymbolsError R :=
  let basePath := fileLocation.toBasePath
  match Crates.fileKind fileContents with
  | some .elf32 => Elf.getSymbolicationResult R basePath .elf32 fileContents query
  | some .elf64 => Elf.getSymbolicationResult R basePath .elf64 fileContents query
  | some .machOFat32 =>
      getSymbolicationResultFromFat R outside fuel basePath .machOFat32 fileContents
        (Crates.parseArch32 fileContents) query
  | some .machOFat64 =>
      getSymbolicationResultFromFat R outside fuel basePath .machOFat64 fileContents
        (Crates.parseArch64 fileContents) query
  | some .machO32 =>
      MachO.getSymbolicationResult R outside fuel basePath fileContents none query
  | some .machO64 =>
      MachO.getSymbolicationResult R outside fuel basePath fileContents none query
  | some .pe32 =>
      Windows.getSymbolicationResultViaBinary R outside.helpers .pe32 fileContents query
        fileLocation
  | some .pe64 =>
      Windows.getSymbolicationResultViaBinary R outside.helpers .pe64 fileContents query
        fileLocation
  | some .unsupported =>
      .err (.invalidInputError
        "Input was Archive, Coff or Wasm format, which are unsupported for now")
  | none =>
  match Crates.openPdb fileContents with
  | .ok pdb => Windows.getSymbolicationResult R basePath pdb query
  | .error _ =>
      .err (.invalidInputError
        "The file does not have a known format; PDB::open was not able to parse it and object::FileKind::parse was not able to detect the format.")

def tryGetSymbolicationResultFromPath (outside : Outside) (fuel : Nat) (query : SymbolicationQuery)
    (fileLocation : FileLocation) : Call GetSymbolsError R := do
  let fileContents ← Outcome.ofExcept (((outside 0).helper.openFile fileLocation).mapError
    (.helperErrorDuringOpenFile fileLocation.toStringLossy))
  getSymbolicationResultFromFile R outside.tail fuel query fileLocation fileContents

/-- The body of the loop over the candidates. -/
def tryCandidate (outside : Outside) (fuel : Nat) (query : SymbolicationQuery) :
    CandidatePathInfo → Call GetSymbolsError R
  | .singleFile fileLocation => tryGetSymbolicationResultFromPath R outside fuel query fileLocation
  | .inDyldCache dyldCachePath dylibPath =>
      MachO.tryGetSymbolicationResultFromDyldSharedCache R outside.helpers fuel query dyldCachePath
        dylibPath

/-- The loop over the candidates, with the error of the last one; the n-th is
    tried in the n-th outside. -/
def tryCandidates (fuel : Nat) (query : SymbolicationQuery) :
    (Nat → Outside) → List CandidatePathInfo → Option GetSymbolsError → Call GetSymbolsError R
  | _, [], lastErr =>
      .err (lastErr.getD (.noCandidatePathForBinary query.debugName query.debugId))
  | outsides, candidateInfo :: candidates, _ => do
      match ← (tryCandidate R (outsides 0) fuel query candidateInfo).attempt with
      | .ok result => return result
      | .error err =>
          tryCandidates fuel query (fun n => outsides (n + 1)) candidates (some err)

/-- `get_symbolication_result`, with fuel for the loops over what the helper
    opens; the candidates come from the first helper. -/
def getSymbolicationResult (helper : FileAndPathHelper) (outsides : Nat → Outside) (fuel : Nat)
    (query : SymbolicationQuery) : Call GetSymbolsError R := do
  let candidatePathsForBinary ← Outcome.ofExcept
    ((helper.getCandidatePathsForBinaryOrPdb query.debugName query.debugId).mapError
      (.helperErrorDuringGetCandidatePathsForBinaryOrPdb query.debugName query.debugId))
  tryCandidates R fuel query outsides candidatePathsForBinary none

def getCompactSymbolTable (helper : FileAndPathHelper) (outsides : Nat → Outside) (fuel : Nat)
    (debugName : String) (debugId : DebugId) : Call GetSymbolsError CompactSymbolTable :=
  getSymbolicationResult CompactSymbolTable helper outsides fuel ⟨debugName, debugId, .allSymbols⟩

end ProfilerGetSymbols.Candidates
