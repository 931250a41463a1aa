import ProfilerGetSymbols.Basic

/-! # Paths, file locations and file paths

    A `PathBuf` is its bytes, and what the standard library does with them
    depends on the platform: the library is compiled for Unix, for Windows and
    for WebAssembly.  `Platform` is what the program uses of `std::path`, and
    every theorem holds on every platform; `unix` is the instance to evaluate
    with.

    Two paths compare equal when their *components* are equal, so `/a//b` and
    `/a/b` are one key in a hash map although they are spelled differently. -/

namespace ProfilerGetSymbols.Paths

/-! ## Lossy decoding -/

/-- The admitted ranges of the bytes that follow a leading byte. -/
def continuations (lead : UInt8) : Option (List (UInt8 × UInt8)) :=
  if lead < 0x80 then some []
  else if lead < 0xc2 then none
  else if lead < 0xe0 then some [(0x80, 0xbf)]
  else if lead = 0xe0 then some [(0xa0, 0xbf), (0x80, 0xbf)]
  else if lead = 0xed then some [(0x80, 0x9f), (0x80, 0xbf)]
  else if lead < 0xf0 then some [(0x80, 0xbf), (0x80, 0xbf)]
  else if lead = 0xf0 then some [(0x90, 0xbf), (0x80, 0xbf), (0x80, 0xbf)]
  else if lead < 0xf4 then some [(0x80, 0xbf), (0x80, 0xbf), (0x80, 0xbf)]
  else if lead = 0xf4 then some [(0x80, 0x8f), (0x80, 0xbf), (0x80, 0xbf)]
  else none

/-- How many of the bytes fall into the ranges, one by one. -/
def matchingLength : List (UInt8 × UInt8) → Bytes → Nat
  | (low, high) :: ranges, b :: bytes =>
      if low ≤ b ∧ b ≤ high then matchingLength ranges bytes + 1 else 0
  | _, _ => 0

/-- Decode character by character; a maximal broken sequence becomes U+FFFD. -/
def decodeLossy : Nat → Bytes → String
  | fuel + 1, lead :: bytes =>
      match continuations lead with
      | none => "\uFFFD" ++ decodeLossy fuel bytes
      | some ranges =>
          let n := matchingLength ranges bytes
          (fromUtf8 (lead :: bytes.take n)).getD "\uFFFD" ++ decodeLossy fuel (bytes.drop n)
  | _, _ => ""

/-- `String::from_utf8_lossy`. -/
def fromUtf8Lossy (bytes : Bytes) : String :=
  (fromUtf8 bytes).getD (decodeLossy bytes.length bytes)

theorem fromUtf8Lossy_asBytes (s : String) : fromUtf8Lossy (asBytes s) = s := by
  rw [fromUtf8Lossy, fromUtf8_asBytes, Option.getD_some]

/-! ## Paths -/

structure PathBuf where
  bytes : Bytes
  deriving Repr

/-- `str::into` a path. -/
def PathBuf.ofString (s : String) : PathBuf := ⟨asBytes s⟩

/-- What the program uses of `std::path`. -/
class Platform where
  /-- What the comparison of two paths compares. -/
  components : PathBuf → List Bytes
  isAbsolute : PathBuf → Bool
  join : PathBuf → PathBuf → PathBuf
  parent : PathBuf → Option PathBuf
  toStringLossy : PathBuf → String
  /-- A path made from a string prints as that string. -/
  toStringLossy_ofString : ∀ s, toStringLossy (PathBuf.ofString s) = s

/-- `PathBuf: PartialEq + Hash`, by components. -/
instance [Platform] : BEq PathBuf := ⟨fun p q => Platform.components p == Platform.components q⟩

theorem PathBuf.beq_iff [Platform] {p q : PathBuf} :
    (p == q) = true ↔ Platform.components p = Platform.components q := by
  show (Platform.components p == Platform.components q) = true ↔ _
  exact beq_iff_eq

instance [Platform] : EquivBEq PathBuf where
  symm h := PathBuf.beq_iff.mpr (PathBuf.beq_iff.mp h).symm
  trans h h' := PathBuf.beq_iff.mpr ((PathBuf.beq_iff.mp h).trans (PathBuf.beq_iff.mp h'))
  rfl := PathBuf.beq_iff.mpr rfl

namespace Unix

/-- `'/'`. -/
def sep : UInt8 := 47

/-- `'.'`. -/
def dot : UInt8 := 46

/-- `Path::components`: empty pieces and, unless it begins the path, `.` drop out. -/
def components (p : PathBuf) : List Bytes :=
  let pieces := p.bytes.splitOn sep
  let rest := pieces.tail.filter (fun c => c ≠ [] ∧ c ≠ [dot])
  match pieces.head? with
  | some [] => if p.bytes = [] then [] else [sep] :: rest
  | some c => c :: rest
  | none => []

def isAbsolute (p : PathBuf) : Bool := p.bytes.head? == some sep

def join (base p : PathBuf) : PathBuf :=
  if isAbsolute p then p
  else if base.bytes = [] ∨ base.bytes.getLast? = some sep then ⟨base.bytes ++ p.bytes⟩
  else ⟨base.bytes ++ sep :: p.bytes⟩

/-- Drop the separators and the `.` components at the end of a reversed path,
    but not its root. -/
def trimRight : Bytes → Bytes
  | [] => []
  | b :: rest =>
      if b = sep ∧ rest ≠ [] then trimRight rest
      else if b = dot ∧ rest.head? = some sep then trimRight rest
      else b :: rest

def parent (p : PathBuf) : Option PathBuf :=
  let trimmed := trimRight p.bytes.reverse
  if trimmed = [] ∨ trimmed = [sep] then none
  else some ⟨(trimRight (trimmed.dropWhile (· ≠ sep))).reverse⟩

end Unix

/-- Paths on Unix. -/
abbrev unix : Platform where
  components := Unix.components
  isAbsolute := Unix.isAbsolute
  join := Unix.join
  parent := Unix.parent
  toStringLossy p := fromUtf8Lossy p.bytes
  toStringLossy_ofString := fromUtf8Lossy_asBytes

example : (Unix.parent (.ofString "/usr//lib/libfoo.so")).map PathBuf.bytes
    = some (asBytes "/usr//lib") := by decide

/-! ## Locations -/

inductive FileLocation where
  | path (path : PathBuf)
  | custom (string : String)
  deriving Repr

/-- The candidates a helper names for a binary or PDB. -/
inductive CandidatePathInfo where
  | singleFile (location : FileLocation)
  | inDyldCache (dyldCachePath : PathBuf) (dylibPath : String)

/-- Whether a symbol file may refer to files of this machine, and from where. -/
inductive BasePath where
  | noLocalSourceFileAccess
  | canReferToLocalFiles (base : PathBuf)

inductive FilePath where
  | local (path : PathBuf)
  | localMapped (path : PathBuf) (mapped : String)
  | nonLocal (mapped : String)

/-- `into_local_path`. -/
def FilePath.localPath : FilePath → Option PathBuf
  | .local p => some p
  | .localMapped p _ => some p
  | .nonLocal _ => none

variable [Platform]

/-- `FileLocation: PartialEq`. -/
instance : BEq FileLocation where
  beq
    | .path p, .path q => p == q
    | .custom s, .custom t => s == t
    | _, _ => false

def FileLocation.toStringLossy : FileLocation → String
  | .path p => Platform.toStringLossy p
  | .custom s => s

def FileLocation.toBasePath : FileLocation → BasePath
  | .path filePath => .canReferToLocalFiles ((Platform.parent filePath).getD filePath)
  | .custom _ => .noLocalSourceFileAccess

def FilePath.mappedPath : FilePath → String
  | .local p => Platform.toStringLossy p
  | .localMapped _ mapped => mapped
  | .nonLocal mapped => mapped

end ProfilerGetSymbols.Paths
