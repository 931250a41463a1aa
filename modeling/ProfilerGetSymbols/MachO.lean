import ProfilerGetSymbols.Error
import ProfilerGetSymbols.Symbols

/-! # Mach-O — the symbols of one mach-O object

    A mach-O object is found in a file, in a slice of a fat file or in a dyld
    shared cache.  Its symbols come from the object itself, with function starts
    from `LC_FUNCTION_STARTS` and `__unwind_info` on top. -/

namespace ProfilerGetSymbols.MachO

open ProgLib Paths Symbols

/-! ## Function starts -/

structure MachOData where
  data : RangeReadRef
  headerOffset : Nat
  is64 : Bool

/-- The loop of `read_uleb128` from a result and a shift on. -/
def readUleb128From (result shift : Nat) : Bytes → Option (Nat × Bytes)
  | [] => none
  | byte :: bytes =>
      if shift = 63 ∧ byte ≠ 0 ∧ byte ≠ 1 then none
      else
        let lowBits := (byte &&& 0x7f).toNat
        let result := result ||| (lowBits <<< shift) % 2 ^ 64
        if byte &&& 0x80 = 0 then some (result, bytes)
        else readUleb128From result (shift + 7) bytes

def readUleb128 (bytes : Bytes) : Option (Nat × Bytes) := readUleb128From 0 0 bytes

/-- The loop of `get_function_starts`; every round uses up a byte of the fuel. -/
def functionStartsFrom : Nat → Nat → Bytes → List Nat
  | 0, _, _ => []
  | fuel + 1, prevAddress, bytes =>
      match readUleb128 bytes with
      | none => []
      | some (delta, rest) =>
          if delta = 0 then []
          else
            let address := u64Add prevAddress delta
            asU32 address :: functionStartsFrom fuel address rest

/-- `LC_FUNCTION_STARTS` -/
def lcFunctionStarts : Nat := 0x26

variable [Crates]

def MachOData.functionStartData (d : MachOData) : Except String (Option Bytes) := do
  let commands ← Crates.loadCommands d.data d.headerOffset d.is64
  match commands.find? (·.cmd = lcFunctionStarts) with
  | some command =>
      let (dataoff, datasize) ← command.linkeditData
      return d.data.readBytesAt dataoff datasize
  | none => return none

def MachOData.getFunctionStarts (d : MachOData) : Call GetSymbolsError (Option (List Nat)) := do
  let data ← Outcome.ofExcept (d.functionStartData.mapError .machOHeaderParseError)
  return data.map (fun bytes => functionStartsFrom bytes.length 0 bytes)

/-- The function starts of `__unwind_info`. -/
def unwindInfoStarts (obj : ObjectFile) : Option (List Nat) := do
  let unwindInfo ← obj.sectionByNameBytes (asBytes "__unwind_info")
  let data ← unwindInfo.data
  Crates.unwindInfoFunctions data

/-- The function starts with those of `__unwind_info` behind them. -/
def withUnwindInfo (machoFile : ObjectFile) (functionStarts : Option (List Nat)) :
    Option (List Nat) :=
  match unwindInfoStarts machoFile with
  | some starts => some (functionStarts.getD [] ++ starts)
  | none => functionStarts

/-! ## The symbols of an object -/

variable (R : Type) [SymbolicationResult R]

def getSymbolicationResultFromMachOObject (machoFile : ObjectFile) (machoData : MachOData)
    (query : SymbolicationQuery) : Call GetSymbolsError R := do
  match debugIdForObject machoFile with
  | none => .err (.invalidInputError "Missing mach-o uuid")
  | some fileDebugId =>
      if fileDebugId ≠ query.debugId then
        .err (.unmatchedDebugId fileDebugId query.debugId)
      else
        let functionStarts ← machoData.getFunctionStarts
        let functionStarts := withUnwindInfo machoFile functionStarts
        match query.resultKind with
        | .allSymbols => SymbolicationResult.fromFullMap (objectToMap machoFile functionStarts)
        | .symbolsForAddresses addresses _ =>
            getSymbolicationResultForAddressesFromObject R addresses machoFile functionStarts none

variable {R} in
/-- The symbols of an object panic where a call of the result does. -/
theorem settles_getSymbolicationResultFromMachOObject {admitted : Panic → Prop} {I : R → Prop}
    (hindex : admitted .indexOutOfBounds) {addresses : List Nat}
    (hsafe : SymbolicationResult.Safe R GetSymbolsError admitted addresses I)
    (machoFile : ObjectFile) (machoData : MachOData) {query : SymbolicationQuery}
    (hquery : ∀ as withDebugInfo, query.resultKind = .symbolsForAddresses as withDebugInfo →
      as = addresses) :
    (getSymbolicationResultFromMachOObject R machoFile machoData query).Settles admitted ∧
    ∀ r, getSymbolicationResultFromMachOObject R machoFile machoData query = .ok r →
      query.resultKind ≠ .allSymbols → I r := by
  have hstarts : machoData.getFunctionStarts.Settles admitted :=
    (Outcome.settles_ofExcept _).bind (fun _ _ => trivial)
  rw [getSymbolicationResultFromMachOObject]
  constructor
  · split
    · exact trivial
    · split
      · exact trivial
      · refine hstarts.bind (fun starts _ => ?_)
        split
        · exact hsafe.fromFullMap _
        · next as withDebugInfo hkind =>
          rw [hquery as withDebugInfo hkind]
          exact (settles_getSymbolicationResultForAddressesFromObject hindex hsafe _ _ _).1
  · intro r hr hkind
    split at hr
    · cases hr
    · split at hr
      · cases hr
      · obtain ⟨starts, -, hr⟩ := Outcome.bind_eq_ok.mp hr
        split at hr
        · next hall => exact absurd hall hkind
        · next as withDebugInfo hkind =>
          rw [hquery as withDebugInfo hkind] at hr
          exact (settles_getSymbolicationResultForAddressesFromObject hindex hsafe _ _ _).2 r hr

/-! ## Fat files -/

/-- The loop over the architectures, with the debug IDs and errors so far. -/
def findArchRange (fileContents : FileContents) (debugId : DebugId) :
    List (Nat × Nat) → List DebugId → List GetSymbolsError → Except GetSymbolsError (Nat × Nat)
  | [], debugIds, errors => .error (.noMatchMultiArch debugIds errors)
  | (start, size) :: arches, debugIds, errors => do
      let file ← (Crates.parseFile (fileContents.range start size)).mapError .machOHeaderParseError
      match debugIdForObject file with
      | some di =>
          if di = debugId then return (start, size)
          else findArchRange fileContents debugId arches (debugIds ++ [di]) errors
      | none =>
          findArchRange fileContents debugId arches debugIds
            (errors ++ [.invalidInputError "Missing mach-O UUID"])

def getArchRange (fileContents : FileContents) (arches : List (Nat × Nat)) (debugId : DebugId) :
    Except GetSymbolsError (Nat × Nat) :=
  findArchRange fileContents debugId arches [] []

/-! ## The dyld shared cache -/

variable [Platform]

/-- Open `<cache>.1`, `<cache>.2` and so on until one cannot be opened; the n-th
    file is opened with the n-th helper. -/
def openSubcaches (helpers : Nat → FileAndPathHelper) (dyldCachePath : String) :
    Nat → Nat → Call GetSymbolsError (List FileContents)
  | 0, _ => .unfinished
  | fuel + 1, subcacheIndex => do
      let subcachePath := dyldCachePath ++ "." ++ toString subcacheIndex
      match (helpers subcacheIndex).openFile (.path (.ofString subcachePath)) with
      | .ok subcache =>
          return subcache :: (← openSubcaches helpers dyldCachePath fuel (subcacheIndex + 1))
      | .error _ => return []

def tryGetSymbolicationResultFromDyldSharedCache (helpers : Nat → FileAndPathHelper) (fuel : Nat)
    (query : SymbolicationQuery) (dyldCachePath : PathBuf) (dylibPath : String) :
    Call GetSymbolsError R := do
  let rootContents ← Outcome.ofExcept (((helpers 0).openFile (.path dyldCachePath)).mapError
    (.helperErrorDuringOpenFile (Platform.toStringLossy dyldCachePath)))
  let dyldCachePath := Platform.toStringLossy dyldCachePath
  let subcacheContents ← openSubcaches helpers dyldCachePath fuel 1
  let symbolsSubcache :=
    (helpers (subcacheContents.length + 2)).openFile (.path (.ofString (dyldCachePath ++ ".symbols")))
  let subcacheContents := subcacheContents ++ symbolsSubcache.toOption.toList
  let images ← Outcome.ofExcept
    ((Crates.dyldCacheImages rootContents subcacheContents).mapError .dyldCacheParseError)
  match images.find? (·.path = some dylibPath) with
  | none => .err (.noMatchingDyldCacheImagePath dylibPath)
  | some image =>
      let object ← Outcome.ofExcept (image.parseObject.mapError .machOHeaderParseError)
      let (data, headerOffset) ←
        Outcome.ofExcept (image.imageDataAndOffset.mapError .machOHeaderParseError)
      getSymbolicationResultFromMachOObject R object ⟨data, headerOffset, object.is64⟩ query

end ProfilerGetSymbols.MachO
