import ProfilerGetSymbols.SymbolicationResult

/-! # Files and the object files in them

    `FileContents` is what the helper hands out for a location, `RangeReadRef` a
    part of it, and `ObjectFile` what the `object` crate reads out of such a
    part: the records below hold the answers of its accessors that the program
    asks for, an accessor's error being `none`.

    The debug ID of an object is the program's own work, in
    `debugIdForObject`. -/

namespace ProfilerGetSymbols

/-! ## Contents and ranges -/

/-- The `FileContents` trait: any answers, errors included. -/
structure FileContents where
  len : Nat
  readBytesAt : Nat → Nat → Except String Bytes
  readBytesAtUntil : ByteRange → UInt8 → Except String Bytes

/-- `read_bytes_at` on a slice. -/
def sliceReadBytesAt [Target] (bytes : Bytes) (offset size : Nat) : Except String Bytes :=
  let start := asUsize offset
  let len := asUsize size
  if start ≤ bytes.length ∧ len ≤ bytes.length - start then
    .ok (slice bytes start (start + len))
  else
    .error "FileContents::read_bytes_at for &[u8] was called with out-of-range indexes"

/-- `FileContents` for slices. -/
def FileContents.ofBytes [Target] (bytes : Bytes) : FileContents where
  len := bytes.length
  readBytesAt := sliceReadBytesAt bytes
  readBytesAtUntil range delimiter :=
    if range.stop < range.start then
      .error "Invalid range in read_bytes_at_until"
    else do
      let bytes ← sliceReadBytesAt bytes range.start (range.stop - range.start)
      match bytes.findIdx? (· == delimiter) with
      | some pos => return bytes.take pos
      | none => throw "Delimiter not found"

/-- A file of zeros. -/
def FileContents.zeros (len : Nat) : FileContents where
  len := len
  readBytesAt offset size :=
    if offset + size ≤ len then .ok (List.replicate size 0) else .error "Unexpected end of file"
  readBytesAtUntil range delimiter :=
    if range.start < range.stop ∧ range.stop ≤ len ∧ delimiter = 0 then .ok []
    else .error "Delimiter not found"

/-- `read_entire_data`. -/
def FileContents.readEntireData (file : FileContents) : Except String Bytes :=
  file.readBytesAt 0 file.len

/-- The helper, by what it answers at one moment. -/
structure FileAndPathHelper where
  getCandidatePathsForBinaryOrPdb : String → DebugId → Except String (List Paths.CandidatePathInfo)
  getCandidatePathsForPdb : String → DebugId → Bytes → Paths.FileLocation →
    Except String (List Paths.FileLocation)
  openFile : Paths.FileLocation → Except String FileContents

structure RangeReadRef where
  originalReadref : FileContents
  rangeStart : Nat
  rangeSize : Nat

def FileContents.range (file : FileContents) (start size : Nat) : RangeReadRef :=
  ⟨file, start, size⟩

def FileContents.fullRange (file : FileContents) : RangeReadRef := file.range 0 file.len

namespace RangeReadRef

def makeSubrange (r : RangeReadRef) (start size : Nat) : RangeReadRef :=
  { r with rangeStart := u64Add r.rangeStart start, rangeSize := size }

/-- `checked_add` on `u64`. -/
def checkedAdd (a b : Nat) : Option Nat := if a + b < 2 ^ 64 then some (a + b) else none

def readBytesAt (r : RangeReadRef) (offset size : Nat) : Option Bytes := do
  let shiftedOffset ← checkedAdd r.rangeStart offset
  (r.originalReadref.readBytesAt shiftedOffset size).toOption

def readBytesAtUntil (r : RangeReadRef) (range : ByteRange) (delimiter : UInt8) :
    Option Bytes := do
  if range.stop < range.start then
    none
  else
    let shiftedStart ← checkedAdd r.rangeStart range.start
    let shiftedEnd ← checkedAdd r.rangeStart range.stop
    (r.originalReadref.readBytesAtUntil ⟨shiftedStart, shiftedEnd⟩ delimiter).toOption

end RangeReadRef

/-! ## Object files -/

/-- `FileKind::parse`. -/
inductive FileKind where
  | elf32 | elf64 | machO32 | machO64 | machOFat32 | machOFat64 | pe32 | pe64 | unsupported
  deriving DecidableEq, Repr

/-- `SymbolKind`, with the kinds other than `Text` in one. -/
inductive SymbolKind where
  | text | other
  deriving DecidableEq, Repr

/-- `SectionKind`, with the kinds other than `Text` in one. -/
inductive SectionKind where
  | text | other
  deriving DecidableEq, Repr

structure ObjectSymbol where
  name : Option String
  address : Nat
  kind : SymbolKind
  deriving DecidableEq, Repr

structure Export where
  name : Bytes
  address : Nat
  deriving DecidableEq, Repr

structure ObjectSegment where
  name : Option String
  address : Nat
  deriving DecidableEq, Repr

/-- `CompressedFileRange`, with the formats other than `None` in one. -/
structure CompressedFileRange where
  compressed : Bool
  offset : Nat
  uncompressedSize : Nat
  deriving DecidableEq, Repr

structure ObjectSection where
  kind : SectionKind
  address : Nat
  size : Nat
  data : Option Bytes
  uncompressedData : Option Bytes
  compressedFileRange : Option CompressedFileRange
  /-- `data_range`, by address and size. -/
  dataRange : Nat → Nat → Option Bytes

/-- A function of the object map, with the object file its debug info is in. -/
structure ObjectMapEntry where
  address : Nat
  size : Nat
  name : Bytes
  objectIndex : Nat
  deriving DecidableEq, Repr

/-- `ObjectMap`: an entry only ever names an object of the list. -/
structure ObjectMap where
  symbols : List ObjectMapEntry
  objects : List Bytes
  objectIndex_lt : ∀ symbol ∈ symbols, symbol.objectIndex < objects.length

/-- The object map of an object without one. -/
def ObjectMap.empty : ObjectMap := ⟨[], [], fun _ h => nomatch h⟩

/-- The CodeView record of a PE file. -/
structure PdbInfo where
  guid : Bytes
  age : Nat
  path : Bytes
  deriving DecidableEq, Repr

/-- `object::File`. -/
structure ObjectFile where
  is64 : Bool
  isLittleEndian : Bool
  addressSize : Option Nat
  relativeAddressBase : Nat
  segments : List ObjectSegment
  sections : List ObjectSection
  sectionByName : String → Option ObjectSection
  sectionByNameBytes : Bytes → Option ObjectSection
  symbols : List ObjectSymbol
  dynamicSymbols : List ObjectSymbol
  exports : Option (List Export)
  objectMap : ObjectMap
  pdbInfo : Option PdbInfo
  buildId : Option Bytes
  machUuid : Option Bytes

/-- An object with nothing in it, to be filled in. -/
def ObjectFile.bare : ObjectFile where
  is64 := true
  isLittleEndian := true
  addressSize := some 8
  relativeAddressBase := 0
  segments := []
  sections := []
  sectionByName _ := none
  sectionByNameBytes _ := none
  symbols := []
  dynamicSymbols := []
  exports := some []
  objectMap := .empty
  pdbInfo := none
  buildId := none
  machUuid := none

/-! ## Debug IDs -/

namespace DebugId

/-- Turn the three leading fields of a UUID, stored as little-endian integers,
    to the big-endian order of its bytes. -/
def swapFields (d : Bytes) : Bytes :=
  (d.take 4).reverse ++ ((d.drop 4).take 2).reverse ++ ((d.drop 6).take 2).reverse ++ d.drop 8

/-- `DebugIdExt::from_identifier`: exactly 16 bytes, cut off or filled with zeros. -/
def fromIdentifier (identifier : Bytes) (littleEndian : Bool) : DebugId :=
  let d := (identifier ++ List.replicate 16 0).take 16
  ⟨if littleEndian then swapFields d else d, 0⟩

/-- XOR every byte into its place modulo 16. -/
def xorInto (hash : Bytes) : Nat → Bytes → Bytes
  | _, [] => hash
  | i, b :: bytes =>
      xorInto (hash.modify (i % 16) (· ^^^ b)) (i + 1) bytes

/-- `DebugIdExt::from_text_first_page`. -/
def fromTextFirstPage (textFirstPage : Bytes) (littleEndian : Bool) : DebugId :=
  fromIdentifier (xorInto (List.replicate 16 0) 0 (textFirstPage.take 4096)) littleEndian

/-- `DebugId::from_uuid`. -/
def fromUuid (uuid : Bytes) : DebugId := ⟨uuid, 0⟩

/-- `DebugId::from_guid_age`, on the 16 bytes of a GUID. -/
def fromGuidAge (guid : Bytes) (age : Nat) : DebugId := ⟨swapFields guid, age⟩

end DebugId

def debugIdForObject (obj : ObjectFile) : Option DebugId :=
  match obj.pdbInfo with
  | some pdbInfo => some (.fromGuidAge pdbInfo.guid pdbInfo.age)
  | none =>
  match obj.buildId with
  | some buildId => some (.fromIdentifier buildId obj.isLittleEndian)
  | none =>
  match obj.machUuid with
  | some uuid => some (.fromUuid uuid)
  | none => do
      -- No build ID: hash the first page of the text section.
      let section' ← obj.sections.find? (·.kind = .text)
      let firstPageData ← section'.dataRange section'.address (min section'.size 4096)
      return .fromTextFirstPage firstPageData obj.isLittleEndian

end ProfilerGetSymbols
