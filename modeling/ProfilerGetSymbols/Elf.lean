import ProfilerGetSymbols.Dwarf
import ProfilerGetSymbols.Error

/-! # ELF — the symbols and the debug info of an ELF file

    The debug ID of the file is checked before anything else.  Then the symbols
    and the debug info come from the object in its `.gnu_debugdata` section, if
    that can be unpacked, and from the file itself otherwise. -/

namespace ProfilerGetSymbols.Elf

open ProgLib Paths Symbols Dwarf

variable [Crates]

/-- `section_addr_or_zero`. -/
def sectionAddrOrZero : Option ObjectSection → Nat
  | some s => s.address
  | none => 0

/-- The FDEs of the `.eh_frame` section. -/
def fdes (objectFile : ObjectFile) : List Fde :=
  match objectFile.sectionByName ".eh_frame" with
  | none => []
  | some ehFrame =>
  match ehFrame.uncompressedData with
  | none => []
  | some ehFrameData => Crates.ehFrameFdes {
      ehFrameHdrAddress := sectionAddrOrZero (objectFile.sectionByName ".eh_frame_hdr")
      ehFrameAddress := ehFrame.address
      textAddress := sectionAddrOrZero (objectFile.sectionByName ".text")
      gotAddress := sectionAddrOrZero (objectFile.sectionByName ".got")
      isLittleEndian := objectFile.isLittleEndian
      addressSize := objectFile.addressSize.getD 8
      data := ehFrameData }

/-- The start and end addresses of the functions with an FDE. -/
def functionStartAndEndAddresses (objectFile : ObjectFile) : List Nat × List Nat :=
  ((fdes objectFile).map (fun fde => asU32 fde.initialAddress),
    (fdes objectFile).map (fun fde => asU32 (u64Add fde.initialAddress fde.len)))

variable [Platform] (R : Type) [SymbolicationResult R]

def getSymbolicationResultImpl (elfFile : ObjectFile) (basePath : BasePath)
    (fileContents : FileContents) (query : SymbolicationQuery) : Call GetSymbolsError R := do
  let (functionStarts, functionEnds) := functionStartAndEndAddresses elfFile
  match query.resultKind with
  | .allSymbols => SymbolicationResult.fromFullMap (objectToMap elfFile (some functionStarts))
  | .symbolsForAddresses addresses withDebugInfo => do
      let symbolicationResult ← getSymbolicationResultForAddressesFromObject R addresses elfFile
        (some functionStarts) (some functionEnds)
      if withDebugInfo then
        let (symbolicationResult, _) ← collectDwarfAddressDebugData fileContents.fullRange elfFile
          (makeAddressPairsForRootObject addresses elfFile) symbolicationResult
          (PathMapper.new basePath)
        return symbolicationResult
      else
        return symbolicationResult

variable [Target]

/-- The object in the `.gnu_debugdata` section, and the data that it is in. -/
def debugdataObject (elfFile : ObjectFile) : Option (ObjectFile × FileContents) := do
  let debugdata ← elfFile.sectionByName ".gnu_debugdata"
  let data ← debugdata.data
  let objdata ← Crates.xzDecompress data
  let elfFile ← (Crates.parseFile (FileContents.ofBytes objdata).fullRange).toOption
  return (elfFile, FileContents.ofBytes objdata)

def getSymbolicationResult (basePath : BasePath) (fileKind : FileKind)
    (fileContents : FileContents) (query : SymbolicationQuery) : Call GetSymbolsError R := do
  let elfFile ← Outcome.ofExcept
    ((Crates.parseFile fileContents.fullRange).mapError (.objectParseError fileKind))
  match debugIdForObject elfFile with
  | none => .err (.invalidInputError "debug ID cannot be read")
  | some elfDebugId =>
      if elfDebugId ≠ query.debugId then
        .err (.unmatchedDebugId elfDebugId query.debugId)
      else
        match debugdataObject elfFile with
        | some (elfFile, fileContents) =>
            getSymbolicationResultImpl R elfFile basePath fileContents query
        | none => getSymbolicationResultImpl R elfFile basePath fileContents query

end ProfilerGetSymbols.Elf
