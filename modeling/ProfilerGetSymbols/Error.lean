import ProfilerGetSymbols.Crates

/-! # Errors

    The errors of a symbolication, with the names and the messages under which
    a response reports them.  Errors of other crates and of the helper are their
    messages. -/

namespace ProfilerGetSymbols

open Paths

inductive GetSymbolsError where
  | unmatchedDebugId (expected supplied : DebugId)
  | invalidBreakpadId (breakpadId : String)
  | noMatchMultiArch (debugIds : List DebugId) (errors : List GetSymbolsError)
  | pdbError (context : String) (error : PdbError)
  | pdbAddr2lineErrorWithContext (context error : String)
  | invalidInputError (message : String)
  | objectParseError (fileKind : FileKind) (error : String)
  | dyldCacheParseError (error : String)
  | noMatchingDyldCacheImagePath (path : String)
  | machOHeaderParseError (error : String)
  | helperErrorDuringGetCandidatePathsForBinaryOrPdb (debugName : String) (debugId : DebugId)
      (error : String)
  | helperErrorDuringGetCandidatePathsForPdb (debugName : String) (debugId : DebugId)
      (error : String)
  | helperErrorDuringOpenFile (path error : String)
  | noCandidatePathForBinary (debugName : String) (debugId : DebugId)
  | noDebugInfoInPeBinary (path : String)
  | archiveParseError (path : PathBuf) (error : String)
  | parseRequestErrorContents (message : String)
  | pdbAddr2lineError (error : String)
  | srcSrvParseError (error : String)

namespace GetSymbolsError

def enumAsString : GetSymbolsError → String
  | unmatchedDebugId _ _ => "UnmatchedDebugId"
  | invalidBreakpadId _ => "InvalidBreakpadId"
  | noMatchMultiArch _ _ => "NoMatchMultiArch"
  | pdbError _ _ => "PdbError"
  | pdbAddr2lineErrorWithContext _ _ => "PdbAddr2lineErrorWithContext"
  | invalidInputError _ => "InvalidInputError"
  | objectParseError _ _ => "ObjectParseError"
  | dyldCacheParseError _ => "DyldCacheParseError"
  | noMatchingDyldCacheImagePath _ => "NoMatchingDyldCacheImagePath"
  | machOHeaderParseError _ => "MachOHeaderParseError"
  | helperErrorDuringGetCandidatePathsForBinaryOrPdb _ _ _ =>
      "HelperErrorDuringGetCandidatePathsForBinaryOrPdb"
  | helperErrorDuringGetCandidatePathsForPdb _ _ _ => "HelperErrorDuringGetCandidatePathsForPdb"
  | helperErrorDuringOpenFile _ _ => "HelperErrorDuringOpenFile"
  | noCandidatePathForBinary _ _ => "NoCandidatePathForBinary"
  | noDebugInfoInPeBinary _ => "NoDebugInfoInPeBinary"
  | archiveParseError _ _ => "ArchiveParseError"
  | parseRequestErrorContents _ => "ParseRequestErrorContents"
  | pdbAddr2lineError _ => "PdbAddr2lineError"
  | srcSrvParseError _ => "SrcSrvParseError"

variable [Platform] [Crates]

/-- `{:?}` of a file kind. -/
def debugFileKind : FileKind → String
  | .elf32 => "Elf32"
  | .elf64 => "Elf64"
  | .machO32 => "MachO32"
  | .machO64 => "MachO64"
  | .machOFat32 => "MachOFat32"
  | .machOFat64 => "MachOFat64"
  | .pe32 => "Pe32"
  | .pe64 => "Pe64"
  | .unsupported => "Archive"

mutual

/-- `to_string`. -/
def message : GetSymbolsError → String
  | unmatchedDebugId expected supplied =>
      "Unmatched breakpad_id: Expected " ++ Crates.displayDebugId expected ++ ", but received "
        ++ Crates.displayDebugId supplied
  | invalidBreakpadId breakpadId => "Invalid breakpad ID " ++ breakpadId
  | noMatchMultiArch debugIds errors =>
      "No match in multi-arch binary, available UUIDs: "
        ++ ", ".intercalate (debugIds.map Crates.displayBreakpad)
        ++ ", errors: " ++ ", ".intercalate (messages errors)
  | pdbError context error =>
      "PDB error: " ++ Crates.displayPdbError error ++ " (" ++ context ++ ")"
  | pdbAddr2lineErrorWithContext context error =>
      "pdb-addr2line error: " ++ error ++ " (" ++ context ++ ")"
  | invalidInputError message => "Invalid input: " ++ message
  | objectParseError fileKind error =>
      "Object could not parse the file as " ++ debugFileKind fileKind ++ ": " ++ error
  | dyldCacheParseError error => "Dyld cache parsing error: " ++ error
  | noMatchingDyldCacheImagePath path =>
      "The dyld shared cache file did not include an entry for the dylib at " ++ path
  | machOHeaderParseError error => "MachOHeader parsing error: " ++ error
  | helperErrorDuringGetCandidatePathsForBinaryOrPdb debugName debugId error =>
      "get_candidate_paths_for_binary_or_pdb helper callback for " ++ debugName ++ " "
        ++ Crates.displayDebugId debugId ++ " returned error: " ++ error
  | helperErrorDuringGetCandidatePathsForPdb debugName debugId error =>
      "get_candidate_paths_for_pdb helper callback for " ++ debugName ++ " "
        ++ Crates.displayDebugId debugId ++ " returned error: " ++ error
  | helperErrorDuringOpenFile path error =>
      "open_file helper callback for file " ++ path ++ " returned error: " ++ error
  | noCandidatePathForBinary debugName debugId =>
      "No candidate path for binary, for " ++ debugName ++ " " ++ Crates.displayDebugId debugId
  | noDebugInfoInPeBinary path =>
      "The PE (Windows) binary at path " ++ path
        ++ " did not contain information about an associated PDB file"
  | archiveParseError path error =>
      "Could not parse archive file at " ++ Platform.toStringLossy path
        ++ ", ArchiveFile::parse returned error: " ++ error ++ "."
  | parseRequestErrorContents message => "Malformed request JSON: " ++ message
  | pdbAddr2lineError error => "Error while getting function info from PDB: " ++ error
  | srcSrvParseError error => "Error while parsing srcsrv stream from PDB: " ++ error

/-- `to_string` of each. -/
def messages : List GetSymbolsError → List String
  | [] => []
  | error :: errors => message error :: messages errors

end

end GetSymbolsError

end ProfilerGetSymbols
