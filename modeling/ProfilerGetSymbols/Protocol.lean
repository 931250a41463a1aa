import ProfilerGetSymbols.Provenance
import ProfilerGetSymbols.TraversalAddresses

/-! # The protocol — which calls a symbolication makes on its result

    A query for all symbols makes its result of the full map and leaves it at
    that.  A query for addresses makes it for exactly these addresses, and every
    further call is about one of them: `Permitted` says which.

    An invariant that the permitted calls keep (`Keeps`) is kept by every
    function that makes calls, from the lookup in one object up to the loop over
    the candidates.  Of the files in debug info it is known what base path they
    were resolved against. -/

namespace ProfilerGetSymbols

open ProgLib Paths

/-! ## Permitted calls -/

/-- The calls of a query of a kind, where a symbol's start has a relation to the address. -/
def PermittedIf (starts : Nat → Nat → Prop) : SymbolicationResultKind → ResultCall → Prop
  | .allSymbols, .fromFullMap _ => True
  | .symbolsForAddresses addresses _, .forAddresses addresses' => addresses' = addresses
  | .symbolsForAddresses addresses _, .addAddressSymbol address symbolAddress _ _ =>
      address ∈ addresses ∧ starts symbolAddress address
  | .symbolsForAddresses addresses withDebugInfo, .addAddressDebugInfo address info =>
      withDebugInfo = true ∧ address ∈ addresses ∧ info.frames.isEmpty = false
  | .symbolsForAddresses _ _, .setTotalSymbolCount _ => True
  | _, _ => False

/-- **PERMITTED**: a symbol starts at or before the address. -/
abbrev Permitted : SymbolicationResultKind → ResultCall → Prop := PermittedIf (· ≤ ·)

instance : (kind : SymbolicationResultKind) → (call : ResultCall) → Decidable (Permitted kind call)
  | .allSymbols, .fromFullMap _ => .isTrue trivial
  | .allSymbols, .forAddresses _ => .isFalse id
  | .allSymbols, .addAddressSymbol _ _ _ _ => .isFalse id
  | .allSymbols, .addAddressDebugInfo _ _ => .isFalse id
  | .allSymbols, .setTotalSymbolCount _ => .isFalse id
  | .symbolsForAddresses _ _, .fromFullMap _ => .isFalse id
  | .symbolsForAddresses addresses _, .forAddresses addresses' =>
      inferInstanceAs (Decidable (addresses' = addresses))
  | .symbolsForAddresses addresses _, .addAddressSymbol address symbolAddress _ _ =>
      inferInstanceAs (Decidable (address ∈ addresses ∧ symbolAddress ≤ address))
  | .symbolsForAddresses addresses withDebugInfo, .addAddressDebugInfo address info =>
      inferInstanceAs (Decidable
        (withDebugInfo = true ∧ address ∈ addresses ∧ info.frames.isEmpty = false))
  | .symbolsForAddresses _ _, .setTotalSymbolCount _ => .isTrue trivial

/-- Every file in the debug info has the property. -/
def AddressDebugInfo.FilesIn (info : AddressDebugInfo) (paths : FilePath → Prop) : Prop :=
  ∀ frame ∈ info.frames, ∀ filePath, frame.filePath = some filePath → paths filePath

/-- The permitted calls keep an invariant, before and after the symbols are
    counted, and panic at admitted sites only. -/
structure Keeps (R ε : Type) [SymbolicationResult R] (admitted : Panic → Prop)
    (starts : Nat → Nat → Prop) (kind : SymbolicationResultKind) (paths : FilePath → Prop) (I : Bool → R → Prop) : Prop where
  starts_of_le : ∀ symbolAddress address, symbolAddress ≤ address → starts symbolAddress address
  fromFullMap : ∀ map, PermittedIf starts kind (.fromFullMap map) →
    (SymbolicationResult.fromFullMap map : Call ε R).Meets admitted (I true)
  forAddresses : ∀ addresses, PermittedIf starts kind (.forAddresses addresses) →
    (SymbolicationResult.forAddresses addresses : Call ε R).Meets admitted (I false)
  addAddressSymbol : ∀ counted r, I counted r → ∀ address symbolAddress symbolName functionSize,
    PermittedIf starts kind (.addAddressSymbol address symbolAddress symbolName functionSize) →
    (SymbolicationResult.addAddressSymbol r address symbolAddress symbolName functionSize
      : Call ε R).Meets admitted (I counted)
  addAddressDebugInfo : ∀ counted r, I counted r → ∀ address (info : AddressDebugInfo),
    PermittedIf starts kind (.addAddressDebugInfo address info) → info.FilesIn paths →
    (SymbolicationResult.addAddressDebugInfo r address info : Call ε R).Meets admitted (I counted)
  setTotalSymbolCount : ∀ counted r, I counted r → ∀ totalSymbolCount,
    PermittedIf starts kind (.setTotalSymbolCount totalSymbolCount) →
    (SymbolicationResult.setTotalSymbolCount r totalSymbolCount : Call ε R).Meets admitted (I true)

/-- The sites where a symbolication itself may panic. -/
structure OwnPanics (admitted : Panic → Prop) : Prop extends Dwarf.Admits admitted where
  indexOutOfBounds : admitted .indexOutOfBounds
  objectNameNotUtf8 : admitted .objectNameNotUtf8
  noPdbFrames : admitted .noPdbFrames
  nulInPdbPath : admitted .nulInPdbPath
  noDebugIdInPe : admitted .noDebugIdInPe

/-- The file paths that a path mapper with this base path makes. -/
def FromBasePath [Crates] [Platform] (basePath : BasePath) (filePath : FilePath) : Prop :=
  ∃ rawPath, filePath = PathMapper.resolve basePath rawPath ∨
    ∃ mappedPath, filePath = PathMapper.resolveExtra basePath rawPath mappedPath

section Lookups

variable {R : Type} [SymbolicationResult R] {admitted : Panic → Prop}
  {starts : Nat → Nat → Prop} {kind : SymbolicationResultKind} {paths : FilePath → Prop} {I : Bool → R → Prop}

/-- All symbols are asked for, so the full list may be handed over. -/
theorem Keeps.fromFullMap_of_allSymbols {ε : Type} (hkeeps : Keeps R ε admitted starts kind paths I)
    (hkind : kind = .allSymbols) (map : List (Nat × String)) :
    (SymbolicationResult.fromFullMap map : Call ε R).Meets admitted (I true) := by
  subst hkind
  exact hkeeps.fromFullMap map trivial

/-! ## The symbols of an object -/

namespace Symbols

/-- The symbol reported for an address starts at or before it. -/
theorem report_le {entries : List (Nat × FullSymbolListEntry)}
    (h : entries.Pairwise (fun a b => a.1 < b.1)) {address symbolAddress functionSize : Nat}
    {name : String} (hreport : report entries address = some (symbolAddress, name, functionSize)) :
    symbolAddress ≤ address := by
  obtain ⟨⟨entryAddress, entry⟩, above, haround, hr⟩ := (report_eq_some h).mp hreport
  simp only [reportAround, Option.bind_eq_bind, Option.bind_eq_some_iff, Option.pure_def,
    Option.some.injEq, Prod.mk.injEq] at hr
  obtain ⟨name', -, next, -, rfl, -, -⟩ := hr
  exact haround.1

variable {ε : Type}

/-- The loop over the addresses. -/
theorem meets_lookUpAddresses (hkeeps : Keeps R ε admitted starts kind paths I)
    {entries : List (Nat × FullSymbolListEntry)} (h : entries.Pairwise (fun a b => a.1 < b.1))
    {addresses : List Nat} {withDebugInfo : Bool}
    (hkind : kind = .symbolsForAddresses addresses withDebugInfo) {todo : List Nat}
    (htodo : ∀ address ∈ todo, address ∈ addresses) {r : R} (hr : I true r) :
    (lookUpAddresses entries r todo : Call ε R).Meets admitted (I true) := by
  induction todo generalizing r with
  | nil => exact hr
  | cons address todo ih =>
      have htail := fun a ha => htodo a (List.mem_cons_of_mem _ ha)
      rw [lookUpAddresses, lookUpAddress_eq h, Outcome.ok_bind]
      cases hreport : report entries address with
      | none => exact ih htail hr
      | some found =>
          obtain ⟨symbolAddress, name, functionSize⟩ := found
          have hpermitted : PermittedIf starts kind
              (.addAddressSymbol address symbolAddress name (some functionSize)) := by
            rw [hkind]
            exact ⟨htodo address (List.mem_cons_self ..),
              hkeeps.starts_of_le _ _ (report_le h hreport)⟩
          exact (hkeeps.addAddressSymbol true r hr _ _ _ _ hpermitted).bind
            (fun r' _ hr' => ih htail hr')

/-- The symbols for addresses, counted before the first is looked up. -/
theorem meets_getSymbolicationResultForAddressesFromObject
    (hkeeps : Keeps R ε admitted starts kind paths I) {addresses : List Nat} {withDebugInfo : Bool}
    (hkind : kind = .symbolsForAddresses addresses withDebugInfo) (obj : ObjectFile)
    (starts ends : Option (List Nat)) :
    (getSymbolicationResultForAddressesFromObject R addresses obj starts ends
      : Call ε R).Meets admitted (I true) := by
  subst hkind
  refine (hkeeps.forAddresses addresses rfl).bind (fun r₀ _ hr₀ => ?_)
  refine (hkeeps.setTotalSymbolCount false r₀ hr₀ _ trivial).bind (fun r₁ _ hr₁ => ?_)
  exact meets_lookUpAddresses hkeeps (bestEntries_pairwise obj starts ends) rfl
    (fun _ ha => ha) hr₁

end Symbols

/-! ## The debug info of an object -/

namespace Dwarf

variable [Crates] [Platform] {ε : Type}

/-- What the frames of a call are: some, with files under the base path. -/
theorem frames_of_updateFor {context : DwarfContext} {basePath : BasePath} {pair : AddressPair}
    {us : List DebugUpdate} (h : (updateFor context basePath pair : Call ε _) = .ok us)
    {u : DebugUpdate} (hu : u ∈ us) :
    u.1 = pair.originalRelativeAddress ∧ u.2.frames.isEmpty = false ∧
      u.2.FilesIn (FromBasePath basePath) := by
  obtain ⟨frames, hframes, h⟩ := Outcome.bind_eq_ok.mp h
  rw [Outcome.pure_eq_ok, Outcome.ok.injEq] at h
  subst h
  split at hu
  · cases hu
  · next hempty =>
    rw [List.mem_singleton] at hu
    subst hu
    refine ⟨rfl, by simpa using hempty, ?_⟩
    rw [framesAt] at hframes
    split at hframes
    · obtain rfl : [] = frames := Outcome.ok.inj hframes
      exact fun frame hframe => by cases hframe
    · next frameIter hfind =>
      obtain ⟨converted, hconverted, heq⟩ := Outcome.bind_eq_ok.mp hframes
      have heq := Outcome.ok.inj heq
      split at heq
      · subst heq
        exact fun frame hframe => by cases hframe
      · subst heq
        intro frame hframe filePath hpath
        -- every path that is mapped was mapped against the base path
        obtain ⟨raw, -, hraw⟩ := Outcome.exists_of_mem_mapM hconverted hframe
        obtain ⟨function, -, hframe⟩ := Outcome.bind_eq_ok.mp hraw
        rw [← Outcome.ok.inj hframe] at hpath
        obtain ⟨rawPath, -, rfl⟩ := Option.map_eq_some_iff.mp hpath
        exact ⟨rawPath, Or.inl rfl⟩

/-- The loop over the addresses. -/
theorem meets_addFrames (hown : Admits admitted) (hkeeps : Keeps R ε admitted starts kind paths I)
    {addresses : List Nat} (hkind : kind = .symbolsForAddresses addresses true)
    {basePath : BasePath} (hpaths : ∀ filePath, FromBasePath basePath filePath → paths filePath)
    (context : DwarfContext) {pairs : List AddressPair}
    (hpairs : ∀ pair ∈ pairs, pair.originalRelativeAddress ∈ addresses) {r : R} (hr : I true r)
    {m : PathMapper Unit} (hbase : m.basePath = basePath) :
    (addFrames context pairs r m : Call ε _).Meets admitted (fun found => I true found.1) := by
  induction pairs generalizing r m with
  | nil => exact hr
  | cons pair pairs ih =>
      have htail := fun p hp => hpairs p (List.mem_cons_of_mem _ hp)
      obtain ⟨m', hbase', hcons⟩ := addFrames_cons ε context pair pairs r m
      rw [hcons, hbase]
      refine ((settles_updateFor hown context basePath pair).meets (fun us hus => hus)).bind
        (fun us _ hus => ?_)
      have hcalls : (addAll r us : Call ε R).Meets admitted (I true) := by
        rcases updateFor_eq_ok hus with rfl | ⟨info, rfl⟩
        · exact hr
        · obtain ⟨-, hsome, hfiles⟩ := frames_of_updateFor hus (List.mem_singleton_self _)
          rw [addAll, List.foldlM_cons]
          simp only [List.foldlM_nil, bind_pure]
          refine hkeeps.addAddressDebugInfo true r hr _ info ?_ ?_
          · rw [hkind]
            exact ⟨rfl, hpairs pair (List.mem_cons_self ..), hsome⟩
          · exact fun frame hframe filePath hpath =>
              hpaths filePath (hfiles frame hframe filePath hpath)
      exact hcalls.bind (fun r' _ hr' => ih htail hr' (hbase'.trans hbase))

/-- The DWARF lookup in an object. -/
theorem meets_collect (hown : Admits admitted) (hkeeps : Keeps R ε admitted starts kind paths I)
    {addresses : List Nat} (hkind : kind = .symbolsForAddresses addresses true)
    {basePath : BasePath} (hpaths : ∀ filePath, FromBasePath basePath filePath → paths filePath)
    (data : RangeReadRef) (obj : ObjectFile) {pairs : List AddressPair}
    (hpairs : ∀ pair ∈ pairs, pair.originalRelativeAddress ∈ addresses) {r : R} (hr : I true r)
    {m : PathMapper Unit} (hbase : m.basePath = basePath) :
    (collectDwarfAddressDebugData data obj pairs r m : Call ε _).Meets admitted
      (fun found => I true found.1) := by
  rw [collectDwarfAddressDebugData]
  split
  · exact hr
  · refine ((settles_fromObject hown data obj).meets (fun _ h => h)).bind
      (fun sectionData _ _ => ?_)
    refine ((settles_makeAddr2lineContext hown sectionData).meets (fun _ h => h)).bind
      (fun context _ _ => ?_)
    split
    · exact meets_addFrames hown hkeeps hkind hpaths _ hpairs hr hbase
    · exact hr

end Dwarf

/-! ## ELF files -/

section Files

variable [Crates] [Platform]

theorem Elf.meets_getSymbolicationResultImpl (hown : Dwarf.Admits admitted)
    {query : SymbolicationQuery}
    (hkeeps : Keeps R GetSymbolsError admitted starts query.resultKind paths I) {basePath : BasePath}
    (hpaths : ∀ filePath, FromBasePath basePath filePath → paths filePath) (elfFile : ObjectFile)
    (fileContents : FileContents) :
    (Elf.getSymbolicationResultImpl R elfFile basePath fileContents query).Meets admitted
      (I true) := by
  rw [Elf.getSymbolicationResultImpl]
  cases hkind : query.resultKind with
  | allSymbols =>
      exact hkeeps.fromFullMap_of_allSymbols hkind _
  | symbolsForAddresses addresses withDebugInfo =>
      refine (Symbols.meets_getSymbolicationResultForAddressesFromObject hkeeps hkind _ _ _).bind
        (fun r _ hr => ?_)
      cases withDebugInfo with
      | false => exact hr
      | true =>
          refine (Dwarf.meets_collect hown hkeeps hkind hpaths _ _ ?_ hr rfl).bind
            (fun found _ hfound => hfound)
          intro pair hpair
          obtain ⟨address, haddress, rfl⟩ := List.mem_map.mp hpair
          exact haddress

/-! ## Mach-O files -/

omit [Platform] in
/-- The symbols of a mach-O object. -/
theorem MachO.meets_machOSymbols (hkeeps : Keeps R GetSymbolsError admitted starts kind paths I)
    (machoFile : ObjectFile) (machoData : MachO.MachOData) :
    (Candidates.machOSymbols R machoFile machoData kind).Meets admitted (I true) := by
  have hstarts : machoData.getFunctionStarts.Meets admitted (fun _ => True) :=
    (Outcome.meets_ofExcept (fun _ _ => trivial)).bind (fun _ _ _ => trivial)
  refine hstarts.bind (fun functionStarts _ _ => ?_)
  cases kind with
  | allSymbols => exact hkeeps.fromFullMap _ trivial
  | symbolsForAddresses addresses withDebugInfo =>
      exact Symbols.meets_getSymbolicationResultForAddressesFromObject hkeeps rfl _ _ _

omit [Platform] in
theorem MachO.meets_getSymbolicationResultFromMachOObject {query : SymbolicationQuery}
    (hkeeps : Keeps R GetSymbolsError admitted starts query.resultKind paths I)
    (machoFile : ObjectFile) (machoData : MachO.MachOData) :
    (MachO.getSymbolicationResultFromMachOObject R machoFile machoData query).Meets admitted
      (I true) := by
  rw [Candidates.getSymbolicationResultFromMachOObject_eq]
  cases debugIdForObject machoFile with
  | none => exact trivial
  | some fileDebugId =>
      rw [Option.elim_some]
      split
      · exact trivial
      · exact MachO.meets_machOSymbols hkeeps machoFile machoData

namespace Traversal

/-- What a traversal keeps: the invariant of the result, the base path that it
    started with, and addresses that were requested. -/
structure Kept (I : Bool → R → Prop) (basePath : BasePath) (addresses : List Nat)
    (s : Traversal R) : Prop where
  result : I true s.symbolicationResult
  basePath : s.pathMapper.basePath = basePath
  requested : ∀ address ∈ s.addresses, address ∈ addresses

/-- The base path stays the same. -/
theorem Step.basePath {env : Environment} {s s' : Traversal R} (h : Step env s s') :
    s'.pathMapper.basePath = s.pathMapper.basePath := by
  cases h with
  | lookUp hcurrent hcollect =>
      exact Dwarf.collect_basePath (ObjectReferences.collect_eq_ok.mp hcollect).1
  | parse => rfl
  | skip => rfl
  | openFile => rfl

/-- The result of a step keeps its invariant. -/
theorem meets_step_result (hown : OwnPanics admitted) {addresses : List Nat}
    (hkeeps : Keeps R GetSymbolsError admitted starts (.symbolsForAddresses addresses true) paths I)
    {basePath : BasePath} (hpaths : ∀ filePath, FromBasePath basePath filePath → paths filePath)
    (env : Environment) {s : Traversal R} (hs : Kept I basePath addresses s) :
    (machine env s).Meets admitted
      (fun next => ∀ s', next = some s' → I true s'.symbolicationResult) := by
  obtain ⟨hr, hbase, hrequested⟩ := hs
  obtain ⟨r, m, queue, objects, current⟩ := s
  have hsame : ∀ queue' objects' current',
      ∀ s', some (⟨r, m, queue', objects', current'⟩ : Traversal R) = some s' →
        I true s'.symbolicationResult := by
    rintro queue' objects' current' s' hs'
    rw [← Option.some.inj hs']
    exact hr
  cases current with
  | some object =>
      -- the lookup of the current object is for addresses that were asked for
      have hinternal : ∀ pair ∈ ObjectReferences.internalAddresses object.machoFile object.addresses,
          pair.originalRelativeAddress ∈ addresses := by
        intro pair hpair
        refine hrequested _ (handedOut_subset _ ?_)
        rw [handedOut, Option.toList_some, List.flatMap_singleton]
        exact List.mem_map_of_mem hpair
      have hcollect : (ObjectReferences.collectDebugInfoAndObjectReferences env.orders object.data
          object.machoFile object.addresses r queue m : Call GetSymbolsError _).Meets admitted
          (fun found => I true found.1) := by
        refine (Dwarf.meets_collect hown.toAdmits hkeeps rfl hpaths object.data object.machoFile
          hinternal hr hbase).bind (fun found _ hfound => ?_)
        refine ((ObjectReferences.settles_objectReferences hown.indexOutOfBounds
          hown.objectNameNotUtf8 _ _ _).meets (fun _ h => h)).bind (fun references _ _ => ?_)
        exact hfound
      refine hcollect.bind (fun found _ hfound => ?_)
      intro s' hs'
      rw [← Option.some.inj hs']
      exact hfound
  | none =>
      -- every other step leaves the result as it is
      cases objects with
      | cons object objects =>
          obtain ⟨data, functions⟩ := object
          exact (Outcome.meets_ofExcept (fun _ _ => trivial)).bind
            (fun machoFile _ (_ : True) => hsame _ _ _)
      | nil =>
          cases queue with
          | nil => exact fun s' hs' => by cases hs'
          | cons objRef references =>
              show (stepReference env _ objRef references).Meets admitted _
              rw [stepReference]
              split
              · exact hsame _ _ _
              · exact (Outcome.meets_ofExcept (fun _ _ => trivial)).bind
                  (fun objects _ (_ : True) => hsame _ _ _)

/-- A whole traversal, whether or not it ends. -/
theorem meets_run (hown : OwnPanics admitted) {addresses : List Nat}
    (hkeeps : Keeps R GetSymbolsError admitted starts (.symbolsForAddresses addresses true) paths I)
    {basePath : BasePath} (hpaths : ∀ filePath, FromBasePath basePath filePath → paths filePath)
    (envs : Nat → Environment) (fuel : Nat) {r : R} (hr : I true r) (data : RangeReadRef)
    (machoFile : ObjectFile) :
    (machine.run envs fuel (start r basePath data machoFile addresses)).Meets admitted
      (Kept I basePath addresses) := by
  refine StepFunction.run_meets (fun env s hs => ?_) envs fuel ⟨hr, rfl, ?_⟩
  · refine (meets_step_result hown hkeeps hpaths env hs).imp (fun next hnext hresult => ?_)
    intro s' hs'
    subst hs'
    have hstep := Step.of_step hnext
    refine ⟨hresult s' rfl, hstep.basePath.trans hs.basePath, fun address haddress => ?_⟩
    exact hs.requested address
      (hstep.addresses_subperm.subset (List.mem_append_left _ haddress))
  · intro address haddress
    rwa [start_addresses] at haddress

end Traversal

theorem MachO.meets_getSymbolicationResult (hown : OwnPanics admitted) {query : SymbolicationQuery}
    (hkeeps : Keeps R GetSymbolsError admitted starts query.resultKind paths I) {basePath : BasePath}
    (hpaths : ∀ filePath, FromBasePath basePath filePath → paths filePath)
    (envs : Nat → Environment) (fuel : Nat) (fileContents : FileContents)
    (fileRange : Option (Nat × Nat)) :
    (MachO.getSymbolicationResult R envs fuel basePath fileContents fileRange query).Meets admitted
      (I true) := by
  refine (Outcome.meets_ofExcept (fun _ _ => trivial)).bind (fun machoFile _ (_ : True) => ?_)
  refine (MachO.meets_getSymbolicationResultFromMachOObject hkeeps machoFile _).bind
    (fun r _ hr => ?_)
  cases hkind : query.resultKind with
  | allSymbols => exact hr
  | symbolsForAddresses addresses withDebugInfo =>
      cases withDebugInfo with
      | false => exact hr
      | true =>
          rw [hkind] at hkeeps
          exact (Traversal.meets_run hown hkeeps hpaths envs fuel hr _ machoFile).bind
            (fun traversal _ ht => ht.result)

theorem MachO.meets_dyldSharedCache {query : SymbolicationQuery}
    (hkeeps : Keeps R GetSymbolsError admitted starts query.resultKind paths I)
    (helpers : Nat → FileAndPathHelper) (fuel : Nat) (dyldCachePath : PathBuf)
    (dylibPath : String) :
    (MachO.tryGetSymbolicationResultFromDyldSharedCache R helpers fuel query dyldCachePath
      dylibPath).Meets admitted (I true) := by
  have hsubcaches : ∀ fuel index, (MachO.openSubcaches helpers (Platform.toStringLossy dyldCachePath)
      fuel index).Meets admitted (fun _ => True) := by
    intro fuel
    induction fuel with
    | zero => exact fun _ => trivial
    | succ fuel ih =>
        intro index
        rw [MachO.openSubcaches]
        split
        · exact (ih (index + 1)).bind (fun _ _ _ => trivial)
        · exact trivial
  refine (Outcome.meets_ofExcept (fun _ _ => trivial)).bind (fun contents _ (_ : True) => ?_)
  refine (hsubcaches fuel 1).bind (fun subcaches _ _ => ?_)
  refine (Outcome.meets_ofExcept (fun _ _ => trivial)).bind (fun images _ (_ : True) => ?_)
  split
  · exact trivial
  · refine (Outcome.meets_ofExcept (fun _ _ => trivial)).bind (fun object _ (_ : True) => ?_)
    refine (Outcome.meets_ofExcept (fun _ _ => trivial)).bind (fun found _ (_ : True) => ?_)
    exact MachO.meets_getSymbolicationResultFromMachOObject hkeeps object _

/-! ## PDB files -/

namespace Windows

/-- The start of whatever is found for an address has the relation to it. -/
structure Finds (starts : Nat → Nat → Prop) (context : PdbContext) : Prop where
  findFrames : ∀ address functionFrames,
    context.findFrames address = .ok (some functionFrames) → starts functionFrames.startRva address
  findFunction : ∀ address func,
    context.findFunction address = .ok (some func) → starts func.startRva address

/-- Mapped by its `srcsrv` stream or not, a file is under the base path. -/
theorem fromBasePath_mapPath (m : PathMapper SrcSrvPathMapper) (rawPath : String) :
    FromBasePath m.basePath (m.mapPath rawPath).1 := by
  have hextra := m.mapExtra_basePath rawPath
  rw [PathMapper.mapPath]
  split
  · next mappedPath m' heq =>
    rw [heq] at hextra
    exact ⟨rawPath, Or.inr ⟨mappedPath, by rw [← hextra]⟩⟩
  · next m' heq =>
    rw [heq] at hextra
    exact ⟨rawPath, Or.inl (by rw [← hextra]; exact m'.mapCached_fst rawPath)⟩

/-- The frames of a lookup, and the mapper after it. -/
theorem convertFrames_spec (frames : List PdbFrame) (m : PathMapper SrcSrvPathMapper) :
    (AddressDebugInfo.mk (convertFrames frames m).1).FilesIn (FromBasePath m.basePath) ∧
      (convertFrames frames m).2.basePath = m.basePath := by
  induction frames generalizing m with
  | nil => exact ⟨(fun frame hframe => by cases hframe), rfl⟩
  | cons frame frames ih =>
      obtain ⟨function, file, line⟩ := frame
      cases file with
      | none =>
          obtain ⟨hfiles, hbase⟩ := ih m
          refine ⟨fun converted hconverted filePath hpath => ?_, hbase⟩
          rcases List.mem_cons.mp hconverted with rfl | hmem
          · cases hpath
          · exact hfiles converted hmem filePath hpath
      | some file =>
          obtain ⟨hfiles, hbase⟩ := ih (m.mapPath file).2
          rw [m.mapPath_basePath] at hfiles hbase
          refine ⟨fun converted hconverted filePath hpath => ?_, hbase⟩
          rcases List.mem_cons.mp hconverted with rfl | hmem
          · obtain rfl : (m.mapPath file).1 = filePath := Option.some.inj hpath
            exact fromBasePath_mapPath m file
          · exact hfiles converted hmem filePath hpath

section Addresses

variable {addresses : List Nat} {withDebugInfo : Bool}
  (hkeeps : Keeps R GetSymbolsError admitted starts kind paths I)
  {context : PdbContext} (hfinds : Finds starts context)

include hkeeps hfinds

omit [Crates] [Platform] in
theorem meets_addFunction (hkind : kind = .symbolsForAddresses addresses withDebugInfo)
    {address : Nat} (haddress : address ∈ addresses) {counted : Bool} {r : R} (hr : I counted r) :
    (addFunction context address r).Meets admitted (I counted) := by
  refine (Outcome.meets_ofExcept (fun _ _ => trivial)).bind (fun found hfound (_ : True) => ?_)
  have hfound := Outcome.ofExcept_mapError_eq_ok.mp hfound
  cases found with
  | none => exact hr
  | some func =>
      refine hkeeps.addAddressSymbol counted r hr _ _ _ _ ?_
      rw [hkind]
      exact ⟨haddress, hfinds.findFunction address func hfound⟩

theorem meets_addFunctionFrames (hpanic : admitted .noPdbFrames)
    (hkind : kind = .symbolsForAddresses addresses true) {basePath : BasePath}
    (hpaths : ∀ filePath, FromBasePath basePath filePath → paths filePath)
    {address : Nat} (haddress : address ∈ addresses) {counted : Bool} {r : R} (hr : I counted r)
    {m : PathMapper SrcSrvPathMapper} (hbase : m.basePath = basePath) :
    (addFunctionFrames context address r m).Meets admitted
      (fun found => I counted found.1 ∧ found.2.basePath = basePath) := by
  refine (Outcome.meets_ofExcept (fun _ _ => trivial)).bind (fun found hfound (_ : True) => ?_)
  have hfound := Outcome.ofExcept_mapError_eq_ok.mp hfound
  cases found with
  | none => exact ⟨hr, hbase⟩
  | some functionFrames =>
      refine (Outcome.meets_unwrap hpanic (fun _ h => h)).bind (fun outer _ _ => ?_)
      -- the crate finds a function at or before the address
      have hpermitted : ∀ name size, PermittedIf starts kind
          (.addAddressSymbol address functionFrames.startRva name size) := by
        intro name size
        rw [hkind]
        exact ⟨haddress, hfinds.findFrames address functionFrames hfound⟩
      refine (hkeeps.addAddressSymbol counted r hr _ _ _ _ (hpermitted _ _)).bind
        (fun r' _ hr' => ?_)
      split
      · obtain ⟨hfiles, hbase'⟩ := convertFrames_spec functionFrames.frames m
        rw [hbase] at hfiles hbase'
        dsimp only
        split
        · exact ⟨hr', hbase'⟩
        · next hsome =>
          refine (hkeeps.addAddressDebugInfo counted r' hr' address _ ?_ ?_).bind
            (fun r'' _ hr'' => ⟨hr'', hbase'⟩)
          · rw [hkind]
            exact ⟨rfl, haddress, by simpa using hsome⟩
          · exact fun frame hframe filePath hpath =>
              hpaths filePath (hfiles frame hframe filePath hpath)
      · exact ⟨hr', hbase⟩

/-- The loop over the addresses. -/
theorem meets_addAddresses (hpanic : admitted .noPdbFrames)
    (hkind : kind = .symbolsForAddresses addresses withDebugInfo) {basePath : BasePath}
    (hpaths : ∀ filePath, FromBasePath basePath filePath → paths filePath) {todo : List Nat}
    (htodo : ∀ address ∈ todo, address ∈ addresses) {counted : Bool} {r : R} (hr : I counted r)
    {m : PathMapper SrcSrvPathMapper} (hbase : m.basePath = basePath) :
    (addAddresses context withDebugInfo todo r m).Meets admitted (I counted) := by
  induction todo generalizing r m with
  | nil => exact hr
  | cons address todo ih =>
      have haddress := htodo address (List.mem_cons_self ..)
      have htail := fun a ha => htodo a (List.mem_cons_of_mem _ ha)
      rw [addAddresses]
      cases withDebugInfo with
      | false =>
          exact (meets_addFunction hkeeps hfinds hkind haddress hr).bind
            (fun r' _ hr' => ih htail hr' hbase)
      | true =>
          exact (meets_addFunctionFrames hkeeps hfinds hpanic hkind hpaths haddress hr hbase).bind
            (fun found _ hfound => ih htail hfound.1 hfound.2)

end Addresses

section Pdbs

variable {query : SymbolicationQuery}
  (hkeeps : Keeps R GetSymbolsError admitted starts query.resultKind paths I)

include hkeeps

/-- A PDB counts its symbols last. -/
theorem meets_getSymbolicationResultFromContext (hpanic : admitted .noPdbFrames)
    {basePath : BasePath} (hpaths : ∀ filePath, FromBasePath basePath filePath → paths filePath)
    {context : PdbContext} (hfinds : Finds starts context) (srcsrvStream : Option Bytes) :
    (getSymbolicationResultFromContext R basePath context srcsrvStream query).Meets admitted
      (I true) := by
  rw [getSymbolicationResultFromContext]
  cases hkind : query.resultKind with
  | allSymbols =>
      exact hkeeps.fromFullMap_of_allSymbols hkind _
  | symbolsForAddresses addresses withDebugInfo =>
      have hpermitted : ∀ call, PermittedIf starts (.symbolsForAddresses addresses withDebugInfo) call →
          PermittedIf starts query.resultKind call := fun call h => hkind ▸ h
      refine (Outcome.meets_ofExcept (fun _ _ => trivial)).bind (fun mapper _ (_ : True) => ?_)
      refine (hkeeps.forAddresses addresses (hpermitted _ rfl)).bind (fun r₀ _ hr₀ => ?_)
      refine (meets_addAddresses hkeeps hfinds hpanic hkind hpaths (fun _ ha => ha) hr₀ rfl).bind
        (fun r₁ _ hr₁ => ?_)
      exact hkeeps.setTotalSymbolCount false r₁ hr₁ _ (hpermitted _ trivial)

theorem meets_getSymbolicationResult (hpanic : admitted .noPdbFrames) {basePath : BasePath}
    (hpaths : ∀ filePath, FromBasePath basePath filePath → paths filePath) {pdb : Pdb}
    (hfinds : ∀ context, pdb.tryFromPdb = .ok (.ok context) → Finds starts context) :
    (getSymbolicationResult R basePath pdb query).Meets admitted (I true) := by
  refine (Outcome.meets_ofExcept (fun _ _ => trivial)).bind (fun fileDebugId _ (_ : True) => ?_)
  split
  · exact trivial
  · refine (Outcome.meets_ofExcept (fun _ _ => trivial)).bind (fun stream _ (_ : True) => ?_)
    refine (Outcome.meets_ofExcept (fun _ _ => trivial)).bind
      (fun contextData hdata (_ : True) => ?_)
    refine (Outcome.meets_ofExcept (fun _ _ => trivial)).bind
      (fun context hcontext (_ : True) => ?_)
    have hdata := Outcome.ofExcept_mapError_eq_ok.mp hdata
    have hcontext := Outcome.ofExcept_mapError_eq_ok.mp hcontext
    exact meets_getSymbolicationResultFromContext hkeeps hpanic hpaths
      (hfinds context (by rw [hdata, hcontext])) stream

omit [Crates] [Platform] in
/-- The symbols of a PE binary itself. -/
theorem meets_getSymbolicationResultFromPe (pe : ObjectFile) :
    (getSymbolicationResultFromPe R pe query).Meets admitted (I true) := by
  rw [getSymbolicationResultFromPe]
  cases hkind : query.resultKind with
  | allSymbols =>
      exact hkeeps.fromFullMap_of_allSymbols hkind _
  | symbolsForAddresses addresses withDebugInfo =>
      exact Symbols.meets_getSymbolicationResultForAddressesFromObject hkeeps hkind _ _ _

end Pdbs

end Windows

/-! ## From a file to the candidates -/

section Queries

variable [Target] {query : SymbolicationQuery}

theorem Elf.meets_getSymbolicationResult (hown : Dwarf.Admits admitted)
    (hkeeps : Keeps R GetSymbolsError admitted starts query.resultKind paths I) {basePath : BasePath}
    (hpaths : ∀ filePath, FromBasePath basePath filePath → paths filePath) (fileKind : FileKind)
    (fileContents : FileContents) :
    (Elf.getSymbolicationResult R basePath fileKind fileContents query).Meets admitted
      (I true) := by
  refine (Outcome.meets_ofExcept (fun _ _ => trivial)).bind (fun elfFile _ (_ : True) => ?_)
  split
  · exact trivial
  · split
    · exact trivial
    · split
      · exact Elf.meets_getSymbolicationResultImpl hown hkeeps hpaths _ _
      · exact Elf.meets_getSymbolicationResultImpl hown hkeeps hpaths _ _

/-- Every PDB finds functions so. -/
def PdbsFind (starts : Nat → Nat → Prop) : Prop :=
  ∀ contents pdb context, Crates.openPdb contents = .ok pdb →
    pdb.tryFromPdb = .ok (.ok context) → Windows.Finds starts context

/-- What is assumed of the crates: a function found for an address starts at or before it. -/
abbrev PdbsFindAtOrBefore : Prop := PdbsFind (· ≤ ·)

variable (hown : OwnPanics admitted) (hpdb : PdbsFind starts)
  (hkeeps : Keeps R GetSymbolsError admitted starts query.resultKind (fun _ => True) I)

include hown hpdb hkeeps

omit [Target] in
/-- The loop over the candidates for the PDB. -/
theorem Windows.meets_tryPdbLocations (fileLocation : FileLocation)
    (helpers : Nat → FileAndPathHelper) (pdbLocations : List FileLocation) :
    (Windows.tryPdbLocations R query fileLocation helpers pdbLocations).Meets admitted
      (fun found => ∀ table, found = some table → I true table) := by
  induction pdbLocations generalizing helpers with
  | nil => exact fun table h => by cases h
  | cons pdbLocation pdbLocations ih =>
      rw [Windows.tryPdbLocations]
      split
      · exact ih _
      · have hattempt : (Windows.tryGetSymbolicationResultFromPdbLocation R (helpers 0) query
            pdbLocation).Meets admitted (I true) := by
          refine (Outcome.meets_ofExcept (fun _ _ => trivial)).bind (fun contents _ (_ : True) => ?_)
          refine (Outcome.meets_ofExcept (fun _ _ => trivial)).bind (fun pdb hopen (_ : True) => ?_)
          exact Windows.meets_getSymbolicationResult hkeeps hown.noPdbFrames (fun _ _ => trivial)
            (fun context => hpdb contents pdb context (Outcome.ofExcept_mapError_eq_ok.mp hopen))
        refine hattempt.attempt.bind (fun answer _ hanswer => ?_)
        cases answer with
        | ok table =>
            intro found hfound
            exact Option.some.inj hfound ▸ hanswer table rfl
        | error e => exact ih _

omit [Target] in
theorem Windows.meets_getSymbolicationResultViaBinary (helpers : Nat → FileAndPathHelper)
    (fileKind : FileKind) (fileContents : FileContents) (fileLocation : FileLocation) :
    (Windows.getSymbolicationResultViaBinary R helpers fileKind fileContents query
      fileLocation).Meets admitted (I true) := by
  refine (Outcome.meets_ofExcept (fun _ _ => trivial)).bind (fun pe _ (_ : True) => ?_)
  split
  · exact trivial
  · next info hinfo =>
    refine ((Outcome.settles_assert hown.nulInPdbPath _).meets (fun _ h => h)).bind (fun _ _ _ => ?_)
    refine (Outcome.meets_ofExcept (fun _ _ => trivial)).bind (fun locations _ (_ : True) => ?_)
    refine (Windows.meets_tryPdbLocations hown hpdb hkeeps fileLocation _ locations).bind
      (fun found _ hfound => ?_)
    cases found with
    | some table => exact hfound table rfl
    | none =>
        refine (Outcome.meets_unwrap hown.noDebugIdInPe (fun _ h => h)).bind (fun _ _ _ => ?_)
        split
        · exact trivial
        · exact Windows.meets_getSymbolicationResultFromPe hkeeps pe

namespace Candidates

/-- Every kind of file. -/
theorem meets_getSymbolicationResultFromFile (outside : Outside) (fuel : Nat)
    (fileLocation : FileLocation) (fileContents : FileContents) :
    (getSymbolicationResultFromFile R outside fuel query fileLocation fileContents).Meets admitted
      (I true) := by
  have hmacho : ∀ fileRange, (MachO.getSymbolicationResult R outside fuel fileLocation.toBasePath
      fileContents fileRange query).Meets admitted (I true) := fun fileRange =>
    MachO.meets_getSymbolicationResult hown hkeeps (fun _ _ => trivial) outside fuel fileContents
      fileRange
  -- a slice of a fat file is symbolicated like a file
  have hfat : ∀ fileKind arches, (getSymbolicationResultFromFat R outside fuel
      fileLocation.toBasePath fileKind fileContents arches query).Meets admitted (I true) := by
    intro fileKind arches
    refine (Outcome.meets_ofExcept (fun _ _ => trivial)).bind (fun _ _ (_ : True) => ?_)
    refine (Outcome.meets_ofExcept (fun _ _ => trivial)).bind (fun range _ (_ : True) => ?_)
    exact hmacho (some range)
  rw [getSymbolicationResultFromFile]
  cases Crates.fileKind fileContents with
  | some fileKind =>
      cases fileKind with
      | elf32 =>
          exact Elf.meets_getSymbolicationResult hown.toAdmits hkeeps (fun _ _ => trivial) _ _
      | elf64 =>
          exact Elf.meets_getSymbolicationResult hown.toAdmits hkeeps (fun _ _ => trivial) _ _
      | machO32 => exact hmacho none
      | machO64 => exact hmacho none
      | machOFat32 => exact hfat _ _
      | machOFat64 => exact hfat _ _
      | pe32 => exact Windows.meets_getSymbolicationResultViaBinary hown hpdb hkeeps _ _ _ _
      | pe64 => exact Windows.meets_getSymbolicationResultViaBinary hown hpdb hkeeps _ _ _ _
      | unsupported => exact trivial
  | none =>
      cases hopen : Crates.openPdb fileContents with
      | error e => exact trivial
      | ok pdb =>
          exact Windows.meets_getSymbolicationResult hkeeps hown.noPdbFrames (fun _ _ => trivial)
            (fun context => hpdb fileContents pdb context hopen)

theorem meets_tryCandidate (outside : Outside) (fuel : Nat) (candidate : CandidatePathInfo) :
    (tryCandidate R outside fuel query candidate).Meets admitted (I true) := by
  cases candidate with
  | singleFile location =>
      refine (Outcome.meets_ofExcept (fun _ _ => trivial)).bind (fun contents _ (_ : True) => ?_)
      exact meets_getSymbolicationResultFromFile hown hpdb hkeeps _ _ _ _
  | inDyldCache dyldCachePath dylibPath =>
      exact MachO.meets_dyldSharedCache hkeeps _ fuel dyldCachePath dylibPath

/-- The loop over the candidates: a result that failed is dropped. -/
theorem meets_tryCandidates (fuel : Nat) (outsides : Nat → Outside)
    (candidates : List CandidatePathInfo) (lastErr : Option GetSymbolsError) :
    (tryCandidates R fuel query outsides candidates lastErr).Meets admitted (I true) := by
  induction candidates generalizing outsides lastErr with
  | nil => exact trivial
  | cons candidate candidates ih =>
      refine (meets_tryCandidate hown hpdb hkeeps (outsides 0) fuel candidate).attempt.bind
        (fun answer _ hanswer => ?_)
      cases answer with
      | ok result => exact hanswer result rfl
      | error err => exact ih _ _

/-- **THE PROTOCOL IS KEPT** by every query, whatever the helper answers. -/
theorem meets_getSymbolicationResult (helper : FileAndPathHelper) (outsides : Nat → Outside)
    (fuel : Nat) :
    (getSymbolicationResult R helper outsides fuel query).Meets admitted (I true) := by
  refine (Outcome.meets_ofExcept (fun _ _ => trivial)).bind (fun candidates _ (_ : True) => ?_)
  exact meets_tryCandidates hown hpdb hkeeps fuel outsides candidates none

end Candidates

end Queries

end Files

end Lookups

end ProfilerGetSymbols
