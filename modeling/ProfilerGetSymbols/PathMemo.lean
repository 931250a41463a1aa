import ProfilerGetSymbols.Windows

/-! # Memoized path mapping — what a raw path becomes, whatever came before

    A path is mapped through two caches: the extra mapper's own, asked first, and
    the path mapper's, asked where the extra mapper has no answer.  Each is a memo
    table of a function of the raw path alone, so a mapper that has mapped other
    paths before answers like a new one. -/

namespace ProfilerGetSymbols

open ProgLib Paths

namespace PathMapper

/-! ## The rules, in their order -/

section Rules

variable [Crates]

/-- The rule for a path into the Rust sources. -/
def rustcRule (rawPath : String) : Option String :=
  (Crates.rustcRegex rawPath).map (fun captures =>
    "git:github.com/rust-lang/rust:" ++ forwardSlashes captures.path ++ ":" ++ captures.rev)

/-- The rule for a path into the cargo registry. -/
def cargoRule (rawPath : String) : Option String :=
  (Crates.cargoDepRegex rawPath).map (fun captures =>
    "cargo:" ++ captures.registry ++ ":" ++ captures.crate ++ "-" ++ captures.version ++ ":"
      ++ forwardSlashes captures.path)

theorem permalink_eq (rawPath : String) :
    permalink rawPath = (rustcRule rawPath).or (cargoRule rawPath) := by
  unfold permalink rustcRule cargoRule
  cases Crates.rustcRegex rawPath with
  | some captures => rfl
  | none =>
      cases Crates.cargoDepRegex rawPath with
      | some captures => rfl
      | none => rfl

end Rules

variable [Crates] [Platform]

/-- The file path of a raw path, given the answer of the extra mapper. -/
def resolveWith (basePath : BasePath) (extraAnswer : Option String) (rawPath : String) :
    FilePath :=
  match extraAnswer with
  | some mappedPath => resolveExtra basePath rawPath mappedPath
  | none => resolve basePath rawPath

/-- The local path is the raw path, or the raw path behind the base. -/
theorem resolveWith_localPath (base : PathBuf) (extraAnswer : Option String) (rawPath : String) :
    (resolveWith (.canReferToLocalFiles base) extraAnswer rawPath).localPath
      = some (if Platform.isAbsolute (.ofString rawPath) then .ofString rawPath
          else Platform.join base (.ofString rawPath)) := by
  cases extraAnswer with
  | some mappedPath => rfl
  | none =>
      unfold resolveWith resolve
      by_cases habs : Platform.isAbsolute (.ofString rawPath)
      · simp only [if_pos habs]
        cases permalink rawPath with
        | some mapped => rfl
        | none => rfl
      · simp only [if_neg habs]
        rfl

theorem resolveWith_nonLocal (extraAnswer : Option String) (rawPath : String) :
    ∃ mapped, resolveWith .noLocalSourceFileAccess extraAnswer rawPath = .nonLocal mapped := by
  cases extraAnswer with
  | some mappedPath => exact ⟨mappedPath, rfl⟩
  | none => exact ⟨(permalink rawPath).getD rawPath, rfl⟩

/-- **PRIORITY**: the extra mapper, the rule for Rust, the rule for cargo, the raw path. -/
theorem resolveWith_mappedPath (basePath : BasePath) (extraAnswer : Option String)
    (rawPath : String) :
    (resolveWith basePath extraAnswer rawPath).mappedPath
      = (extraAnswer.or ((rustcRule rawPath).or (cargoRule rawPath))).getD rawPath := by
  rw [← permalink_eq]
  cases extraAnswer with
  | some mappedPath =>
      cases basePath with
      | noLocalSourceFileAccess => rfl
      | canReferToLocalFiles base => rfl
  | none =>
      cases basePath with
      | noLocalSourceFileAccess => rfl
      | canReferToLocalFiles base =>
          unfold resolveWith resolve
          by_cases habs : Platform.isAbsolute (.ofString rawPath)
          · simp only [if_pos habs]
            cases permalink rawPath with
            | some mapped => rfl
            | none => exact Platform.toStringLossy_ofString rawPath
          · simp only [if_neg habs]
            rfl

/-! ## Extra mappers that answer like a function -/

variable {E : Type} [ExtraPathMapper E]

/-- From the states in `good` on, an extra mapper answers like `f`. -/
structure AnswersLike (good : E → Prop) (f : String → Option String) : Prop where
  answer : ∀ e, good e → ∀ rawPath, (ExtraPathMapper.mapPath e rawPath).1 = f rawPath
  stays : ∀ e, good e → ∀ rawPath, good (ExtraPathMapper.mapPath e rawPath).2

omit [Crates] [Platform] in
theorem answersLike_unit : AnswersLike (fun _ : Unit => True) (fun _ => none) where
  answer := fun _ _ _ => rfl
  stays := fun _ _ _ => trivial

/-- A mapper with the base path, and with an extra mapper in a good state where
    `extra` says that there is one. -/
structure Maps (good : E → Prop) (basePath : BasePath) (extra : Bool) (m : PathMapper E) :
    Prop where
  basePath : m.basePath = basePath
  extra : m.extraMapper.isSome = extra
  good : ∀ e, m.extraMapper = some e → good e

omit [ExtraPathMapper E] in
theorem maps_new {good : E → Prop} (basePath : BasePath) (extraMapper : Option E)
    (h : ∀ e, extraMapper = some e → good e) :
    Maps good basePath extraMapper.isSome (newWithMaybeExtraMapper basePath extraMapper) :=
  ⟨rfl, rfl, h⟩

omit [ExtraPathMapper E] in
theorem mapCached_extraMapper (m : PathMapper E) (rawPath : String) :
    (m.mapCached rawPath).2.extraMapper = m.extraMapper := by
  rw [mapCached]
  split <;> rfl

section Calls

variable {good : E → Prop} {f : String → Option String} {basePath : BasePath} {extra : Bool}
  {m : PathMapper E}

/-- The question to the extra mapper. -/
theorem mapExtra_of_maps (hf : AnswersLike good f) (hm : Maps good basePath extra m)
    (rawPath : String) :
    (m.mapExtra rawPath).1 = (if extra then f rawPath else none) ∧
      Maps good basePath extra (m.mapExtra rawPath).2 := by
  obtain ⟨rfl, rfl, hgood⟩ := hm
  unfold mapExtra
  cases hextra : m.extraMapper with
  | none => exact ⟨rfl, rfl, by rw [hextra], fun e he => hgood e he⟩
  | some e =>
      refine ⟨hf.answer e (hgood e hextra) rawPath, rfl, rfl, ?_⟩
      intro e' he'
      rw [← Option.some.inj he']
      exact hf.stays e (hgood e hextra) rawPath

/-- **ONE CALL** answers from the base path, the extra mapper's function and the raw
    path, and leaves a mapper of the same kind. -/
theorem mapPath_of_maps (hf : AnswersLike good f) (hm : Maps good basePath extra m)
    (rawPath : String) :
    (m.mapPath rawPath).1 = resolveWith basePath (if extra then f rawPath else none) rawPath ∧
      Maps good basePath extra (m.mapPath rawPath).2 := by
  obtain ⟨hanswer, hmaps⟩ := mapExtra_of_maps hf hm rawPath
  unfold mapPath
  cases hextra : m.mapExtra rawPath with
  | mk answer m' =>
      rw [hextra] at hanswer hmaps
      cases answer with
      | some mappedPath =>
          refine ⟨?_, hmaps⟩
          rw [← hanswer]
          exact congrArg (resolveExtra · rawPath mappedPath) hmaps.basePath
      | none =>
          refine ⟨?_, ?_, ?_, ?_⟩
          · rw [← hanswer, mapCached_fst, hmaps.basePath]
            rfl
          · exact (mapCached_basePath m' rawPath).trans hmaps.basePath
          · rw [mapCached_extraMapper]
            exact hmaps.extra
          · rw [mapCached_extraMapper]
            exact hmaps.good

/-- The mapper after a sequence of calls. -/
def mapPaths (m : PathMapper E) (rawPaths : List String) : PathMapper E :=
  rawPaths.foldl (fun m rawPath => (m.mapPath rawPath).2) m

theorem maps_mapPaths (hf : AnswersLike good f) (hm : Maps good basePath extra m)
    (rawPaths : List String) : Maps good basePath extra (m.mapPaths rawPaths) := by
  induction rawPaths generalizing m with
  | nil => exact hm
  | cons rawPath rawPaths ih => exact ih (mapPath_of_maps hf hm rawPath).2

end Calls

/-! ## Memoization -/

/-- The answer of a fresh mapper, with the local path and the mapped path that the
    rules call for. -/
structure MappedFaithfully (basePath : BasePath) (extraMapper : Option E)
    (rawPath : String) (answer : FilePath) : Prop where
  asFresh : answer = ((newWithMaybeExtraMapper basePath extraMapper).mapPath rawPath).1
  localPath : ∀ base, basePath = .canReferToLocalFiles base →
    answer.localPath = some (if Platform.isAbsolute (.ofString rawPath) then .ofString rawPath
      else Platform.join base (.ofString rawPath))
  nonLocal : basePath = .noLocalSourceFileAccess → ∃ mapped, answer = .nonLocal mapped
  mappedPath : answer.mappedPath
    = ((extraMapper.bind (fun e => (ExtraPathMapper.mapPath e rawPath).1)).or
        ((rustcRule rawPath).or (cargoRule rawPath))).getD rawPath

/-- Any extra mapper that answers like a function is one to memoize around. -/
theorem mapPath_faithful {good : E → Prop} {f : String → Option String} (hf : AnswersLike good f)
    (basePath : BasePath) (extraMapper : Option E) (hgood : ∀ e, extraMapper = some e → good e)
    (before : List String) (rawPath : String) :
    MappedFaithfully basePath extraMapper rawPath
      (((newWithMaybeExtraMapper basePath extraMapper).mapPaths before).mapPath rawPath).1 := by
  have hnew := maps_new basePath extraMapper hgood
  have hanswer := (mapPath_of_maps hf (maps_mapPaths hf hnew before) rawPath).1
  have hextra : (if extraMapper.isSome then f rawPath else none)
      = extraMapper.bind (fun e => (ExtraPathMapper.mapPath e rawPath).1) := by
    cases extraMapper with
    | none => rfl
    | some e => exact (hf.answer e (hgood e rfl) rawPath).symm
  rw [hextra] at hanswer
  refine ⟨?_, ?_, ?_, ?_⟩
  · rw [hanswer, (mapPath_of_maps hf hnew rawPath).1, hextra]
  · rintro base rfl
    rw [hanswer]
    exact resolveWith_localPath base _ rawPath
  · rintro rfl
    rw [hanswer]
    exact resolveWith_nonLocal _ rawPath
  · rw [hanswer]
    exact resolveWith_mappedPath basePath _ rawPath

end PathMapper

/-! ## The mapper of a srcsrv stream -/

namespace Windows.SrcSrvPathMapper

variable [Crates]

/-- A mapper of the stream whose cache holds what the stream says. -/
structure MemoOf (srcsrvStream : SrcSrvStream) (m : SrcSrvPathMapper) : Prop where
  answers : m.specialPath = (new srcsrvStream).specialPath
  cache : m.cache.Memoizes (new srcsrvStream).specialPath

theorem memoOf_new (srcsrvStream : SrcSrvStream) : MemoOf srcsrvStream (new srcsrvStream) :=
  ⟨rfl, HashMap.memoizes_empty _⟩

/-- `map_path` is its function behind a memo table. -/
theorem mapPath_eq_memoized (m : SrcSrvPathMapper) (path : String) :
    m.mapPath path = ((m.cache.memoized m.specialPath path).1,
      { m with cache := (m.cache.memoized m.specialPath path).2 }) := by
  unfold mapPath HashMap.memoized
  cases m.cache.get? path with
  | some value => rfl
  | none => rfl

theorem answersLike (srcsrvStream : SrcSrvStream) :
    PathMapper.AnswersLike (MemoOf srcsrvStream) (new srcsrvStream).specialPath where
  answer := by
    intro m hm path
    show (m.mapPath path).1 = _
    rw [mapPath_eq_memoized, hm.answers]
    exact (hm.cache.memoized path).1
  stays := by
    intro m hm path
    show MemoOf srcsrvStream (m.mapPath path).2
    rw [mapPath_eq_memoized, hm.answers]
    exact ⟨hm.answers, (hm.cache.memoized path).2⟩

end Windows.SrcSrvPathMapper

namespace PathMapper

open Windows

variable [Crates] [Platform]

/-- **MEMOIZATION**: with the mapper of any srcsrv stream or with none, whatever paths
    were mapped before, a raw path is mapped as by a fresh mapper and by the rules. -/
theorem mapPath_memoized_faithfully (basePath : BasePath) (srcsrvStream : Option SrcSrvStream)
    (before : List String) (rawPath : String) :
    MappedFaithfully basePath (srcsrvStream.map SrcSrvPathMapper.new) rawPath
        (((newWithMaybeExtraMapper basePath (srcsrvStream.map SrcSrvPathMapper.new)).mapPaths
          before).mapPath rawPath).1 ∧
      MappedFaithfully basePath (none : Option Unit) rawPath
        (((new basePath : PathMapper Unit).mapPaths before).mapPath rawPath).1 := by
  refine ⟨?_, mapPath_faithful answersLike_unit basePath none (fun _ _ => trivial) before rawPath⟩
  cases srcsrvStream with
  | none =>
      have hnever : AnswersLike (fun _ : SrcSrvPathMapper => False) (fun _ => none) :=
        ⟨fun _ h => h.elim, fun _ h => h.elim⟩
      exact mapPath_faithful hnever basePath none (fun _ h => by cases h) before rawPath
  | some stream =>
      refine mapPath_faithful (SrcSrvPathMapper.answersLike stream) basePath _ ?_ before rawPath
      intro e he
      rw [← Option.some.inj he]
      exact SrcSrvPathMapper.memoOf_new stream

end PathMapper

end ProfilerGetSymbols
