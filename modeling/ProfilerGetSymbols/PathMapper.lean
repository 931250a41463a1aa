import ProfilerGetSymbols.Crates
import ProfilerGetSymbols.ProgLib.HashMap

/-! # The path mapper — raw paths of debug info as file paths

    Debug info names its source files by raw paths.  The mapper turns each into
    a `FilePath`: a permalink where a known pattern or an extra mapper gives
    one, and a local path only where the symbol file may refer to local files.

    Results are cached by raw path.  That a cached value is the one that would
    be computed is a field of the mapper, so the cache shows in no result. -/

namespace ProfilerGetSymbols

open ProgLib Paths

/-- A mapper with a state of its own that is asked first. -/
class ExtraPathMapper (E : Type) where
  mapPath : E → String → Option String × E

instance : ExtraPathMapper Unit where
  mapPath _ _ := (none, ())

namespace PathMapper

section Mapping

/-- `replace('\\', "/")`. -/
def forwardSlashes (path : String) : String :=
  String.ofList (path.toList.map (fun c => if c = '\\' then '/' else c))

variable [Crates] [Platform]

/-- The permalink of a path into the Rust sources or the cargo registry. -/
def permalink (rawPath : String) : Option String :=
  match Crates.rustcRegex rawPath with
  | some captures =>
      some ("git:github.com/rust-lang/rust:" ++ forwardSlashes captures.path ++ ":" ++ captures.rev)
  | none =>
  match Crates.cargoDepRegex rawPath with
  | some captures =>
      some ("cargo:" ++ captures.registry ++ ":" ++ captures.crate ++ "-" ++ captures.version ++ ":"
        ++ forwardSlashes captures.path)
  | none => none

/-- The file path of a raw path that no extra mapper and no cache knows. -/
def resolve (basePath : BasePath) (rawPath : String) : FilePath :=
  let mappedPath := permalink rawPath
  match basePath with
  | .canReferToLocalFiles base =>
      let relOrAbs := PathBuf.ofString rawPath
      if Platform.isAbsolute relOrAbs then
        match mappedPath with
        | some mapped => .localMapped relOrAbs mapped
        | none => .local relOrAbs
      else
        .localMapped (Platform.join base relOrAbs) (mappedPath.getD rawPath)
  | .noLocalSourceFileAccess => .nonLocal (mappedPath.getD rawPath)

def makeAbsPath (base : PathBuf) (relOrAbs : String) : PathBuf :=
  let relOrAbs := PathBuf.ofString relOrAbs
  if Platform.isAbsolute relOrAbs then relOrAbs else Platform.join base relOrAbs

/-- The file path of a raw path that the extra mapper has mapped. -/
def resolveExtra (basePath : BasePath) (rawPath mappedPath : String) : FilePath :=
  match basePath with
  | .noLocalSourceFileAccess => .nonLocal mappedPath
  | .canReferToLocalFiles base => .localMapped (makeAbsPath base rawPath) mappedPath

theorem resolve_noLocal (rawPath : String) :
    (resolve .noLocalSourceFileAccess rawPath).localPath = none := rfl

omit [Crates] in
theorem resolveExtra_noLocal (rawPath mappedPath : String) :
    (resolveExtra .noLocalSourceFileAccess rawPath mappedPath).localPath = none := rfl

end Mapping

end PathMapper

/-- The mapper; a cached file path is the one its raw path resolves to. -/
structure PathMapper [Crates] [Platform] (E : Type) where
  basePath : BasePath
  cache : HashMap String FilePath
  extraMapper : Option E
  cache_eq : ∀ rawPath filePath, cache.get? rawPath = some filePath →
    filePath = PathMapper.resolve basePath rawPath

namespace PathMapper

variable [Crates] [Platform] {E : Type}

def newWithMaybeExtraMapper (basePath : BasePath) (extraMapper : Option E) : PathMapper E :=
  ⟨basePath, .empty, extraMapper, by simp⟩

def new (basePath : BasePath) : PathMapper E := newWithMaybeExtraMapper basePath none

/-- Add a raw path to the cache. -/
def remember (m : PathMapper E) (rawPath : String) : PathMapper E where
  basePath := m.basePath
  cache := m.cache.insert rawPath (resolve m.basePath rawPath)
  extraMapper := m.extraMapper
  cache_eq := HashMap.Memoizes.insert m.cache_eq rawPath

/-- The part of `map_path` after the extra mapper. -/
def mapCached (m : PathMapper E) (rawPath : String) : FilePath × PathMapper E :=
  match m.cache.get? rawPath with
  | some value => (value, m)
  | none => (resolve m.basePath rawPath, m.remember rawPath)

variable [ExtraPathMapper E]

/-- `extra_mapper.map_path(raw_path)`, where there is an extra mapper. -/
def mapExtra (m : PathMapper E) (rawPath : String) : Option String × PathMapper E :=
  match m.extraMapper with
  | some extraMapper =>
      let (mappedPath, extraMapper') := ExtraPathMapper.mapPath extraMapper rawPath
      (mappedPath, { m with extraMapper := some extraMapper' })
  | none => (none, m)

def mapPath (m : PathMapper E) (rawPath : String) : FilePath × PathMapper E :=
  match m.mapExtra rawPath with
  | (some mappedPath, m') => (resolveExtra m'.basePath rawPath mappedPath, m')
  | (none, m') => m'.mapCached rawPath

/-! ## What the mapper answers -/

omit [ExtraPathMapper E] in
/-- The cache shows in no answer. -/
theorem mapCached_fst (m : PathMapper E) (rawPath : String) :
    (m.mapCached rawPath).1 = resolve m.basePath rawPath := by
  rw [mapCached]
  split
  · next value hget => exact m.cache_eq rawPath value hget
  · rfl

omit [ExtraPathMapper E] in
theorem mapCached_basePath (m : PathMapper E) (rawPath : String) :
    (m.mapCached rawPath).2.basePath = m.basePath := by
  rw [mapCached]
  split <;> rfl

theorem mapExtra_basePath (m : PathMapper E) (rawPath : String) :
    (m.mapExtra rawPath).2.basePath = m.basePath := by
  rw [mapExtra]
  split <;> rfl

/-- One base path for the whole life of a mapper. -/
theorem mapPath_basePath (m : PathMapper E) (rawPath : String) :
    (m.mapPath rawPath).2.basePath = m.basePath := by
  have hextra := m.mapExtra_basePath rawPath
  rw [mapPath]
  split
  · next mappedPath m' h =>
    rw [h] at hextra
    exact hextra
  · next m' h =>
    rw [h] at hextra
    rw [mapCached_basePath]
    exact hextra

/-- Without an extra mapper the answer is a function of base path and raw path. -/
theorem mapPath_fst (m : PathMapper Unit) (rawPath : String) :
    (m.mapPath rawPath).1 = resolve m.basePath rawPath := by
  obtain ⟨basePath, cache, extraMapper, hcache⟩ := m
  cases extraMapper with
  | none => exact mapCached_fst _ rawPath
  | some u => exact mapCached_fst ⟨basePath, cache, some (), hcache⟩ rawPath

end PathMapper

end ProfilerGetSymbols
