import ProfilerGetSymbols.Object

/-! # The crates underneath

    Parsing object files, archives, DWARF, PDB and source server streams,
    decompression, regular expressions and the demanglers of other languages
    are the work of third-party crates.  `Crates` collects the functions that
    the program calls, as functions of what they are given; a theorem holds for
    every behaviour they may have, unless it says what it assumes. -/

namespace ProfilerGetSymbols

/-! ## Mach-O and ELF -/

/-- A load command: its kind, and offset and size if it is a linkedit command. -/
structure LoadCommand where
  cmd : Nat
  linkeditData : Except String (Nat × Nat)

/-- An image of a dyld shared cache. -/
structure DyldImage where
  path : Option String
  parseObject : Except String ObjectFile
  /-- `image_data_and_offset`: the data and the offset of the header in it. -/
  imageDataAndOffset : Except String (RangeReadRef × Nat)

/-- The input of the `.eh_frame` parser. -/
structure EhFrame where
  ehFrameHdrAddress : Nat
  ehFrameAddress : Nat
  textAddress : Nat
  gotAddress : Nat
  isLittleEndian : Bool
  addressSize : Nat
  data : Bytes

/-- A frame description entry. -/
structure Fde where
  initialAddress : Nat
  len : Nat

/-! ## DWARF -/

/-- The sections a DWARF context is made from. -/
structure DebugSections where
  isLittleEndian : Bool
  debugAbbrev : Bytes
  debugAddr : Bytes
  debugAranges : Bytes
  debugInfo : Bytes
  debugLine : Bytes
  debugLineStr : Bytes
  debugRanges : Bytes
  debugRnglists : Bytes
  debugStr : Bytes
  debugStrOffsets : Bytes
  defaultSection : Bytes

/-- `addr2line::Location`. -/
structure Location where
  file : Option String
  line : Option Nat

/-- `addr2line::Frame`; the inner option of the function is its `raw_name`. -/
structure Frame where
  function : Option (Option String)
  location : Option Location

/-- A fallible iterator: the frames it gives, and whether it fails after them. -/
structure FrameIter where
  frames : List Frame
  failsAfter : Bool

/-- `addr2line::Context`. -/
structure DwarfContext where
  findFrames : Nat → Except String FrameIter

/-! ## PDB -/

inductive PdbError where
  | streamNameNotFound
  | streamNotFound (stream : Nat)
  | other (message : String)
  deriving DecidableEq, Repr

structure PdbFrame where
  function : Option String
  file : Option String
  line : Option Nat

/-- `pdb_addr2line::FunctionFrames`. -/
structure FunctionFrames where
  startRva : Nat
  endRva : Option Nat
  frames : List PdbFrame

/-- `pdb_addr2line::Function`. -/
structure PdbFunction where
  startRva : Nat
  endRva : Option Nat
  name : Option String

/-- `pdb_addr2line::Context`. -/
structure PdbContext where
  functions : List PdbFunction
  functionCount : Nat
  findFrames : Nat → Except String (Option FunctionFrames)
  findFunction : Nat → Except String (Option PdbFunction)

/-- `pdb::PDBInformation`. -/
structure PdbInformation where
  guid : Bytes
  age : Nat

/-- `pdb::PDB`. -/
structure Pdb where
  pdbInformation : Except PdbError PdbInformation
  /-- `debug_information`: the age it holds. -/
  debugInformation : Except PdbError (Option Nat)
  namedStream : Bytes → Except PdbError Bytes
  /-- `ContextPdbData::try_from_pdb`, and `make_context` on what it gives. -/
  tryFromPdb : Except String (Except String PdbContext)

/-! ## Source servers -/

inductive SourceRetrievalMethod where
  | download (url : String)
  | executeCommand
  | other

/-- `srcsrv::SrcSrvStream`. -/
structure SrcSrvStream where
  getRawVar : String → Option String
  /-- `source_and_raw_var_values_for_path`, where it is `Ok(Some(..))`. -/
  sourceAndRawVarValuesForPath :
    String → String → Option (SourceRetrievalMethod × (String → Option String))

/-! ## Regular expressions, by their capture groups -/

structure RustcCaptures where
  rev : String
  path : String

structure CargoDepCaptures where
  registry : String
  crate : String
  version : String
  path : String

structure RepoCaptures where
  repo : String
  rev : String
  path : String

structure S3Captures where
  bucket : String
  digestAndPath : String

/-! ## The functions called -/

class Crates where
  /-- `object::FileKind::parse`. -/
  fileKind : FileContents → Option FileKind
  /-- `object::File::parse`. -/
  parseFile : RangeReadRef → Except String ObjectFile
  /-- `FatHeader::parse_arch32`: the file ranges of the architectures. -/
  parseArch32 : FileContents → Except String (List (Nat × Nat))
  /-- `FatHeader::parse_arch64`. -/
  parseArch64 : FileContents → Except String (List (Nat × Nat))
  /-- `ArchiveFile::parse` and `members`: the names and file ranges of the members. -/
  archiveMembers : FileContents → Except String (List (Option (Bytes × (Nat × Nat))))
  /-- `MachHeader::parse`, `endian` and `load_commands`, on data, header offset and width. -/
  loadCommands : RangeReadRef → Nat → Bool → Except String (List LoadCommand)
  /-- `UnwindInfo::parse` and `functions`: the start addresses. -/
  unwindInfoFunctions : Bytes → Option (List Nat)
  /-- `DyldCache::parse` and `images`. -/
  dyldCacheImages : FileContents → List FileContents → Except String (List DyldImage)
  /-- `lzma_rs::xz_decompress`. -/
  xzDecompress : Bytes → Option Bytes
  /-- `flate2::Decompress::decompress_vec` into a vector of the given capacity. -/
  zlibDecompress : Bytes → Nat → Option Bytes
  /-- `gimli`'s `entries` of an `.eh_frame` section: the FDEs that parse. -/
  ehFrameFdes : EhFrame → List Fde
  /-- `addr2line::Context::from_sections`. -/
  contextFromSections : DebugSections → Except String DwarfContext
  /-- `PDB::open`. -/
  openPdb : FileContents → Except PdbError Pdb
  /-- `srcsrv::SrcSrvStream::parse`. -/
  parseSrcSrvStream : Bytes → Except String SrcSrvStream
  /-- `DebugId::from_breakpad`. -/
  fromBreakpad : String → Option DebugId
  /-- `DebugId: Display`. -/
  displayDebugId : DebugId → String
  /-- `DebugId::breakpad().to_string()`. -/
  displayBreakpad : DebugId → String
  /-- `pdb::Error: Display`. -/
  displayPdbError : PdbError → String
  /-- `^/rustc/(?P<rev>[0-9a-f]+)\\?[/\\](?P<path>.*)$` -/
  rustcRegex : String → Option RustcCaptures
  /-- `[/\\]\.cargo[/\\]registry[/\\]src[/\\](?P<registry>[^/\\]+)[/\\](?P<crate>[^/]+)-`
      `(?P<version>[0-9]+\.[0-9]+\.[0-9]+)[/\\](?P<path>.*)$` -/
  cargoDepRegex : String → Option CargoDepCaptures
  /-- `^https://raw\.githubusercontent\.com/(?P<repo>[^/]+/[^/]+)/(?P<rev>[^/]+)/(?P<path>.*)$` -/
  githubRegex : String → Option RepoCaptures
  /-- `^https://(?P<repo>hg\..+)/raw-file/(?P<rev>[0-9a-f]+)/(?P<path>.*)$` -/
  hgRegex : String → Option RepoCaptures
  /-- `^https://(?P<bucket>[^/]+).s3.amazonaws.com/(?P<digest_and_path>.*)$` -/
  s3Regex : String → Option S3Captures
  /-- `^https://(?P<repo>.+)\.git/\+/(?P<rev>[^/]+)/(?P<path>.*)\?format=TEXT$` -/
  gitilesRegex : String → Option RepoCaptures
  /-- `msvc_demangler::demangle`. -/
  msvcDemangle : String → Option String
  /-- `rustc_demangle::try_demangle`, in the alternate format. -/
  rustcDemangle : String → Option String
  /-- `cpp_demangle::Symbol::new` and `demangle`. -/
  cppDemangle : String → Option String
  /-- `char::is_uppercase`. -/
  isUppercase : Char → Bool

/-- Crates that recognise nothing, to be filled in. -/
abbrev Crates.nothing : Crates where
  fileKind _ := none
  parseFile _ := .error "Unknown file magic"
  parseArch32 _ := .error "Invalid fat magic"
  parseArch64 _ := .error "Invalid fat magic"
  archiveMembers _ := .error "Invalid archive identifier"
  loadCommands _ _ _ := .ok []
  unwindInfoFunctions _ := none
  dyldCacheImages _ _ := .error "Unrecognized dyld cache magic"
  xzDecompress _ := none
  zlibDecompress _ _ := none
  ehFrameFdes _ := []
  contextFromSections _ := .error "Unexpected end of file"
  openPdb _ := .error (.other "The input data was not recognized as a PDB file")
  parseSrcSrvStream _ := .error "Unexpected end of file"
  fromBreakpad _ := none
  displayDebugId _ := "00000000-0000-0000-0000-000000000000"
  displayBreakpad _ := "000000000000000000000000000000000"
  displayPdbError _ := "The input data was not recognized as a PDB file"
  rustcRegex _ := none
  cargoDepRegex _ := none
  githubRegex _ := none
  hgRegex _ := none
  s3Regex _ := none
  gitilesRegex _ := none
  msvcDemangle _ := none
  rustcDemangle _ := none
  cppDemangle _ := none
  isUppercase := Char.isUpper

end ProfilerGetSymbols
