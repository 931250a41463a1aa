import ProfilerGetSymbols.Demangle
import ProfilerGetSymbols.PathMapper
import ProfilerGetSymbols.Symbols

/-! # DWARF — the debug info that is in an object itself

    The lookup reads the debug sections of the object, makes a context of them
    and asks it for the frames of each address.  What it finds goes into the
    symbolication result call by call.

    `debugUpdates` are these calls as a list.  They depend on the base path of
    the path mapper and not on its cache, and `collect_eq_ok` says that the
    lookup does nothing but to make them. -/

namespace ProfilerGetSymbols

/-- A requested address, and where it is in the object at hand. -/
structure AddressPair where
  originalRelativeAddress : Nat
  vmaddrInThisObject : Nat
  deriving DecidableEq, Repr

namespace Dwarf

open ProgLib Demangle Symbols

variable {ε : Type}

def makeAddressPairsForRootObject (addresses : List Nat) (obj : ObjectFile) : List AddressPair :=
  addresses.map (fun a => ⟨a, u64Add (relativeAddressBase obj) a⟩)

/-! ## Section data -/

inductive SingleSectionData where
  | view (readref : RangeReadRef) (size : Nat)
  | owned (bytes : Bytes)

/-- `u32::from_be_bytes`. -/
def u32FromBeBytes (b : Bytes) : Nat := b.foldl (fun n byte => 256 * n + byte.toNat) 0

/-- The section of a name, and whether it was found by its `.zdebug_` name. -/
def findSection (obj : ObjectFile) (sectionName : String) :
    Call ε (Option (ObjectSection × Bool)) :=
  match obj.sectionByName sectionName with
  | some s => return some (s, false)
  | none => do
      -- old-style compressed sections that the object parser did not detect
      Outcome.assert .notADebugSection ((asBytes sectionName).take 7 = asBytes ".debug_")
      let name := asBytes ".zdebug_" ++ (asBytes sectionName).drop 7
      return (obj.sectionByNameBytes name).map (·, true)

section Sections

variable [Crates]

/-- The data of a section that was found. -/
def readSection (data : RangeReadRef) (s : ObjectSection) (usedManualZdebugPath : Bool) :
    Option SingleSectionData :=
  match s.compressedFileRange.filter (fun r => !r.compressed && !usedManualZdebugPath) with
  | some fileRange =>
      let size := fileRange.uncompressedSize
      some (.view (data.makeSubrange fileRange.offset size) size)
  | none =>
  match s.uncompressedData with
  | none => none
  | some sectionData =>
      if usedManualZdebugPath ∧ sectionData.take 8 = asBytes "ZLIB" ++ [0, 0, 0, 0] then
        if sectionData.length < 12 then none
        else
          let uncompressedSize := u32FromBeBytes ((sectionData.drop 8).take 4)
          (Crates.zlibDecompress (sectionData.drop 12) uncompressedSize).map .owned
      else
        some (.owned sectionData)

/-- `try_get_section_data`. -/
def tryGetSectionData (data : RangeReadRef) (obj : ObjectFile) (sectionName : String) :
    Call ε (Option SingleSectionData) := do
  let found ← findSection obj sectionName
  return found.bind (fun (s, usedManualZdebugPath) => readSection data s usedManualZdebugPath)

def getSectionData (data : RangeReadRef) (obj : ObjectFile) (sectionName : String) :
    Call ε SingleSectionData := do
  return (← tryGetSectionData data obj sectionName).getD (.view (data.makeSubrange 0 0) 0)

structure SectionDataNoCopy where
  isLittleEndian : Bool
  debugAbbrevData : SingleSectionData
  debugAddrData : SingleSectionData
  debugArangesData : SingleSectionData
  debugInfoData : SingleSectionData
  debugLineData : SingleSectionData
  debugLineStrData : SingleSectionData
  debugRangesData : SingleSectionData
  debugRnglistsData : SingleSectionData
  debugStrData : SingleSectionData
  debugStrOffsetsData : SingleSectionData
  defaultSectionData : SingleSectionData

def SectionDataNoCopy.fromObject (data : RangeReadRef) (obj : ObjectFile) :
    Call ε SectionDataNoCopy := do
  return {
    isLittleEndian := obj.isLittleEndian
    debugAbbrevData := ← getSectionData data obj ".debug_abbrev"
    debugAddrData := ← getSectionData data obj ".debug_addr"
    debugArangesData := ← getSectionData data obj ".debug_aranges"
    debugInfoData := ← getSectionData data obj ".debug_info"
    debugLineData := ← getSectionData data obj ".debug_line"
    debugLineStrData := ← getSectionData data obj ".debug_line_str"
    debugRangesData := ← getSectionData data obj ".debug_ranges"
    debugRnglistsData := ← getSectionData data obj ".debug_rnglists"
    debugStrData := ← getSectionData data obj ".debug_str"
    debugStrOffsetsData := ← getSectionData data obj ".debug_str_offsets"
    defaultSectionData := .view (data.makeSubrange 0 0) 0
  }

/-- `get`: the bytes of a section. -/
def SingleSectionData.get : SingleSectionData → Call ε Bytes
  | .view readref size => Outcome.unwrap .sectionReadFailed (readref.readBytesAt 0 size)
  | .owned bytes => return bytes

def SectionDataNoCopy.makeAddr2lineContext (d : SectionDataNoCopy) :
    Call ε (Except String DwarfContext) := do
  return Crates.contextFromSections {
    isLittleEndian := d.isLittleEndian
    debugAbbrev := ← d.debugAbbrevData.get
    debugAddr := ← d.debugAddrData.get
    debugAranges := ← d.debugArangesData.get
    debugInfo := ← d.debugInfoData.get
    debugLine := ← d.debugLineData.get
    debugLineStr := ← d.debugLineStrData.get
    debugRanges := ← d.debugRangesData.get
    debugRnglists := ← d.debugRnglistsData.get
    debugStr := ← d.debugStrData.get
    debugStrOffsets := ← d.debugStrOffsetsData.get
    defaultSection := ← d.defaultSectionData.get
  }

end Sections

/-! ## The lookup -/

open Paths

variable [Crates]

/-- The name of a frame's function, where its `raw_name` can be read. -/
def functionName : Option (Option String) → Call ε (Option String)
  | some (some name) => do return some (← demangleAny name)
  | _ => return none

variable [Platform]

def convertStackFrame (frame : Frame) (pathMapper : PathMapper Unit) :
    Call ε (InlineStackFrame × PathMapper Unit) := do
  let function ← functionName frame.function
  let (filePath, pathMapper) :=
    match frame.location.bind (·.file) with
    | some file =>
        let (filePath, pathMapper) := pathMapper.mapPath file
        (some filePath, pathMapper)
    | none => (none, pathMapper)
  return (⟨function, filePath, (frame.location.bind (·.line)).map asU32⟩, pathMapper)

/-- `frame_iter.map(..)`, as far as the iterator gets. -/
def convertStackFrames : List Frame → PathMapper Unit →
    Call ε (List InlineStackFrame × PathMapper Unit)
  | [], pathMapper => return ([], pathMapper)
  | frame :: frames, pathMapper => do
      let (frame, pathMapper) ← convertStackFrame frame pathMapper
      let (frames, pathMapper) ← convertStackFrames frames pathMapper
      return (frame :: frames, pathMapper)

/-- The frames of an address: none where the context or its iterator fails. -/
def framesForAddress (context : DwarfContext) (pathMapper : PathMapper Unit) (address : Nat) :
    Call ε (List InlineStackFrame × PathMapper Unit) :=
  match context.findFrames address with
  | .error _ => return ([], pathMapper)
  | .ok frameIter => do
      let (frames, pathMapper) ← convertStackFrames frameIter.frames pathMapper
      return (if frameIter.failsAfter then [] else frames, pathMapper)

variable {R : Type} [SymbolicationResult R]

/-- The loop over the addresses. -/
def addFrames (context : DwarfContext) : List AddressPair → R → PathMapper Unit →
    Call ε (R × PathMapper Unit)
  | [], result, pathMapper => return (result, pathMapper)
  | pair :: pairs, result, pathMapper => do
      let (frames, pathMapper) ← framesForAddress context pathMapper pair.vmaddrInThisObject
      let result ←
        if frames.isEmpty then pure result
        else SymbolicationResult.addAddressDebugInfo result pair.originalRelativeAddress ⟨frames⟩
      addFrames context pairs result pathMapper

def collectDwarfAddressDebugData (data : RangeReadRef) (obj : ObjectFile)
    (addresses : List AddressPair) (result : R) (pathMapper : PathMapper Unit) :
    Call ε (R × PathMapper Unit) := do
  if addresses.isEmpty then
    return (result, pathMapper)
  else
    let sectionData ← SectionDataNoCopy.fromObject data obj
    match ← sectionData.makeAddr2lineContext with
    | .ok context => addFrames context addresses result pathMapper
    | .error _ => return (result, pathMapper)

/-! ## The lookup as a list of calls -/

/-- The frame that a frame of the context becomes under a base path. -/
def stackFrame (basePath : BasePath) (frame : Frame) : Call ε InlineStackFrame := do
  let function ← functionName frame.function
  return ⟨function, (frame.location.bind (·.file)).map (PathMapper.resolve basePath),
    (frame.location.bind (·.line)).map asU32⟩

def stackFrames (basePath : BasePath) (frames : List Frame) : Call ε (List InlineStackFrame) :=
  frames.mapM (stackFrame basePath)

/-- The frames of an address under a base path. -/
def framesAt (context : DwarfContext) (basePath : BasePath) (address : Nat) :
    Call ε (List InlineStackFrame) :=
  match context.findFrames address with
  | .error _ => return []
  | .ok frameIter => do
      let frames ← stackFrames basePath frameIter.frames
      return if frameIter.failsAfter then [] else frames

/-- A call of `add_address_debug_info`. -/
abbrev DebugUpdate := Nat × AddressDebugInfo

/-- The call for an address: none where there are no frames. -/
def updateFor (context : DwarfContext) (basePath : BasePath) (pair : AddressPair) :
    Call ε (List DebugUpdate) := do
  let frames ← framesAt context basePath pair.vmaddrInThisObject
  return if frames.isEmpty then [] else [(pair.originalRelativeAddress, ⟨frames⟩)]

def updatesFor (context : DwarfContext) (basePath : BasePath) (pairs : List AddressPair) :
    Call ε (List DebugUpdate) := do
  return (← pairs.mapM (updateFor context basePath)).flatten

/-- The calls of a whole lookup. -/
def debugUpdates (basePath : BasePath) (data : RangeReadRef) (obj : ObjectFile)
    (addresses : List AddressPair) : Call ε (List DebugUpdate) := do
  if addresses.isEmpty then
    return []
  else
    let sectionData ← SectionDataNoCopy.fromObject data obj
    match ← sectionData.makeAddr2lineContext with
    | .ok context => updatesFor context basePath addresses
    | .error _ => return []

/-- Make the calls. -/
def addAll (result : R) (updates : List DebugUpdate) : Call ε R :=
  updates.foldlM (fun result u => SymbolicationResult.addAddressDebugInfo result u.1 u.2) result

omit [Crates] [Platform] in
theorem addAll_append (result : R) (us vs : List DebugUpdate) :
    (addAll result (us ++ vs) : Call ε R) = (do addAll (← addAll result us) vs) :=
  List.foldlM_append ..

variable (ε) in
/-- One frame: the mapper shows in the answer by its base path only. -/
theorem convertStackFrame_eq (frame : Frame) (m : PathMapper Unit) :
    ∃ m' : PathMapper Unit, m'.basePath = m.basePath ∧
      (convertStackFrame frame m : Call ε _)
        = (do return (← stackFrame m.basePath frame, m')) := by
  cases hfile : frame.location.bind (·.file) with
  | none =>
      refine ⟨m, rfl, ?_⟩
      rw [convertStackFrame, stackFrame, hfile]
      simp
  | some file =>
      refine ⟨(m.mapPath file).2, m.mapPath_basePath file, ?_⟩
      rw [convertStackFrame, stackFrame, hfile]
      simp [PathMapper.mapPath_fst]

variable (ε) in
theorem convertStackFrames_eq (frames : List Frame) (m : PathMapper Unit) :
    ∃ m' : PathMapper Unit, m'.basePath = m.basePath ∧
      (convertStackFrames frames m : Call ε _)
        = (do return (← stackFrames m.basePath frames, m')) := by
  induction frames generalizing m with
  | nil => exact ⟨m, rfl, rfl⟩
  | cons frame frames ih =>
      obtain ⟨m₁, hbase₁, hframe⟩ := convertStackFrame_eq ε frame m
      obtain ⟨m₂, hbase₂, hframes⟩ := ih m₁
      refine ⟨m₂, hbase₂.trans hbase₁, ?_⟩
      rw [convertStackFrames, hframe]
      simp only [bind_assoc, pure_bind, hframes, hbase₁]
      simp [stackFrames, List.mapM_cons]

variable (ε) in
theorem framesForAddress_eq (context : DwarfContext) (m : PathMapper Unit) (address : Nat) :
    ∃ m' : PathMapper Unit, m'.basePath = m.basePath ∧
      (framesForAddress context m address : Call ε _)
        = (do return (← framesAt context m.basePath address, m')) := by
  cases hfind : context.findFrames address with
  | error e =>
      refine ⟨m, rfl, ?_⟩
      rw [framesForAddress, framesAt, hfind]
      rfl
  | ok frameIter =>
      obtain ⟨m', hbase, hframes⟩ := convertStackFrames_eq ε frameIter.frames m
      refine ⟨m', hbase, ?_⟩
      rw [framesForAddress, framesAt, hfind]
      simp only [hframes, bind_assoc, pure_bind]

theorem updatesFor_cons (context : DwarfContext) (basePath : BasePath) (pair : AddressPair)
    (pairs : List AddressPair) :
    (updatesFor context basePath (pair :: pairs) : Call ε _) = (do
      let us ← updateFor context basePath pair
      return us ++ (← updatesFor context basePath pairs)) := by
  rw [updatesFor, List.mapM_cons]
  simp only [bind_assoc, pure_bind, List.flatten_cons, updatesFor]

/-- The calls of a lookup are those for its first address, and those for the others. -/
theorem updatesFor_cons_eq_ok {context : DwarfContext} {basePath : BasePath} {pair : AddressPair}
    {pairs : List AddressPair} {us : List DebugUpdate}
    (h : (updatesFor context basePath (pair :: pairs) : Call ε _) = .ok us) :
    ∃ first rest, (updateFor context basePath pair : Call ε _) = .ok first ∧
      (updatesFor context basePath pairs : Call ε _) = .ok rest ∧ us = first ++ rest := by
  rw [updatesFor_cons, Outcome.bind_eq_ok] at h
  obtain ⟨first, hfirst, h⟩ := h
  obtain ⟨rest, hrest, h⟩ := Outcome.bind_eq_ok.mp h
  rw [Outcome.pure_eq_ok, Outcome.ok.injEq] at h
  exact ⟨first, rest, hfirst, hrest, h.symm⟩

variable (ε) in
theorem addFrames_cons (context : DwarfContext) (pair : AddressPair) (pairs : List AddressPair)
    (r : R) (m : PathMapper Unit) :
    ∃ m' : PathMapper Unit, m'.basePath = m.basePath ∧
      (addFrames context (pair :: pairs) r m : Call ε _) = (do
        let us ← updateFor context m.basePath pair
        addFrames context pairs (← addAll r us) m') := by
  obtain ⟨m', hbase, hframes⟩ := framesForAddress_eq ε context m pair.vmaddrInThisObject
  refine ⟨m', hbase, ?_⟩
  rw [addFrames, hframes, updateFor]
  simp only [bind_assoc, pure_bind]
  refine bind_congr (fun frames => ?_)
  by_cases hempty : frames.isEmpty
  · rw [if_pos hempty, if_pos hempty]
    rfl
  · rw [if_neg hempty, if_neg hempty]
    simp [addAll]

/-- The loop over the addresses makes the calls, and the mapper keeps its base path. -/
theorem addFrames_eq_ok {context : DwarfContext} {pairs : List AddressPair} {r r' : R}
    {m : PathMapper Unit} {basePath : BasePath} (hbase : m.basePath = basePath) :
    (∃ m', (addFrames context pairs r m : Call ε _) = .ok (r', m')) ↔
      ∃ us, (updatesFor context basePath pairs : Call ε _) = .ok us ∧
        (addAll r us : Call ε R) = .ok r' := by
  induction pairs generalizing r m with
  | nil =>
      simp [addFrames, updatesFor, addAll]
  | cons pair pairs ih =>
      obtain ⟨m₁, hbase₁, hcons⟩ := addFrames_cons ε context pair pairs r m
      rw [hbase] at hbase₁ hcons
      simp only [hcons, updatesFor_cons, Outcome.bind_eq_ok]
      constructor
      · rintro ⟨m', us, hus, r₁, hr₁, hrest⟩
        obtain ⟨vs, hvs, hadd⟩ := (ih hbase₁).mp ⟨m', hrest⟩
        refine ⟨us ++ vs, ⟨us, hus, vs, hvs, rfl⟩, ?_⟩
        rw [addAll_append, hr₁]
        exact hadd
      · rintro ⟨ws, ⟨us, hus, vs, hvs, hws⟩, hadd⟩
        rw [Outcome.pure_eq_ok, Outcome.ok.injEq] at hws
        rw [← hws, addAll_append, Outcome.bind_eq_ok] at hadd
        obtain ⟨r₁, hr₁, hrest⟩ := hadd
        obtain ⟨m', hm'⟩ := (ih hbase₁).mpr ⟨vs, hvs, hrest⟩
        exact ⟨m', us, hus, r₁, hr₁, hm'⟩

theorem addFrames_basePath {context : DwarfContext} {pairs : List AddressPair} {r r' : R}
    {m m' : PathMapper Unit} (h : (addFrames context pairs r m : Call ε _) = .ok (r', m')) :
    m'.basePath = m.basePath := by
  induction pairs generalizing r m with
  | nil =>
      rw [addFrames, Outcome.pure_eq_ok, Outcome.ok.injEq, Prod.mk.injEq] at h
      rw [h.2]
  | cons pair pairs ih =>
      obtain ⟨m₁, hbase₁, hcons⟩ := addFrames_cons ε context pair pairs r m
      rw [hcons] at h
      obtain ⟨us, -, h⟩ := Outcome.bind_eq_ok.mp h
      obtain ⟨r₁, -, h⟩ := Outcome.bind_eq_ok.mp h
      exact (ih h).trans hbase₁

/-- **THE LOOKUP IS ITS CALLS**: it answers when the debug info can be read and
    its calls answer. -/
theorem collect_eq_ok {data : RangeReadRef} {obj : ObjectFile} {addresses : List AddressPair}
    {r r' : R} {m : PathMapper Unit} {basePath : BasePath} (hbase : m.basePath = basePath) :
    (∃ m', (collectDwarfAddressDebugData data obj addresses r m : Call ε _) = .ok (r', m')) ↔
      ∃ us, (debugUpdates basePath data obj addresses : Call ε _) = .ok us ∧
        (addAll r us : Call ε R) = .ok r' := by
  rw [debugUpdates]
  simp only [collectDwarfAddressDebugData]
  by_cases hempty : addresses.isEmpty
  · simp [hempty, addAll]
  · rw [if_neg hempty, if_neg hempty]
    cases (SectionDataNoCopy.fromObject data obj : Call ε _) with
    | ok sectionData =>
        cases hctx : (sectionData.makeAddr2lineContext : Call ε _) with
        | ok context =>
            cases context with
            | ok context => simpa [hctx] using addFrames_eq_ok hbase
            | error e => simp [hctx, addAll]
        | err e => simp [hctx]
        | panic site => simp [hctx]
        | unfinished => simp [hctx]
    | err e => simp
    | panic site => simp
    | unfinished => simp

/-- The mapper keeps its base path. -/
theorem collect_basePath {data : RangeReadRef} {obj : ObjectFile} {addresses : List AddressPair}
    {r r' : R} {m m' : PathMapper Unit}
    (h : (collectDwarfAddressDebugData data obj addresses r m : Call ε _) = .ok (r', m')) :
    m'.basePath = m.basePath := by
  rw [collectDwarfAddressDebugData] at h
  split at h
  · rw [Outcome.pure_eq_ok, Outcome.ok.injEq, Prod.mk.injEq] at h
    rw [h.2]
  · obtain ⟨sectionData, -, h⟩ := Outcome.bind_eq_ok.mp h
    obtain ⟨context, -, h⟩ := Outcome.bind_eq_ok.mp h
    split at h
    · exact addFrames_basePath h
    · rw [Outcome.pure_eq_ok, Outcome.ok.injEq, Prod.mk.injEq] at h
      rw [h.2]

/-! ## Where the lookup can panic -/

/-- The panics of a lookup that are its own. -/
structure Admits (admitted : Panic → Prop) : Prop where
  notADebugSection : admitted .notADebugSection
  sectionReadFailed : admitted .sectionReadFailed
  charBoundary : admitted .charBoundary

variable {admitted : Panic → Prop}

omit [Platform] in
theorem settles_tryGetSectionData (h : Admits admitted) (data : RangeReadRef) (obj : ObjectFile)
    (sectionName : String) :
    (tryGetSectionData data obj sectionName : Call ε _).Settles admitted := by
  rw [tryGetSectionData]
  refine Outcome.Settles.bind ?_ (fun _ _ => trivial)
  rw [findSection]
  split
  · exact trivial
  · exact (Outcome.settles_assert h.notADebugSection _).bind (fun _ _ => trivial)

omit [Platform] in
theorem settles_fromObject (h : Admits admitted) (data : RangeReadRef) (obj : ObjectFile) :
    (SectionDataNoCopy.fromObject data obj : Call ε _).Settles admitted := by
  have hget : ∀ name, (getSectionData data obj name : Call ε _).Settles admitted := fun name =>
    (settles_tryGetSectionData h data obj name).bind (fun _ _ => trivial)
  rw [SectionDataNoCopy.fromObject]
  iterate 10 refine (hget _).bind (fun _ _ => ?_)
  exact trivial

omit [Platform] in
theorem settles_makeAddr2lineContext (h : Admits admitted) (d : SectionDataNoCopy) :
    (d.makeAddr2lineContext : Call ε _).Settles admitted := by
  have hget : ∀ data : SingleSectionData, (data.get : Call ε _).Settles admitted := by
    intro data
    cases data with
    | view readref size => exact Outcome.settles_unwrap h.sectionReadFailed _
    | owned bytes => exact trivial
  rw [SectionDataNoCopy.makeAddr2lineContext]
  iterate 11 refine (hget _).bind (fun _ _ => ?_)
  exact trivial

theorem settles_updateFor (h : Admits admitted) (context : DwarfContext) (basePath : BasePath)
    (pair : AddressPair) : (updateFor context basePath pair : Call ε _).Settles admitted := by
  rw [updateFor, framesAt]
  refine Outcome.Settles.bind ?_ (fun _ _ => trivial)
  split
  · exact trivial
  · refine Outcome.Settles.bind ?_ (fun _ _ => trivial)
    refine Outcome.Settles.mapM ?_
    intro frame _
    rw [stackFrame]
    refine Outcome.Settles.bind ?_ (fun _ _ => trivial)
    match frame.function with
    | some (some name) => exact (settles_demangleAny h.charBoundary _).bind (fun _ _ => trivial)
    | some none => exact trivial
    | none => exact trivial

/-- The call for an address is about this address. -/
theorem updateFor_eq_ok {context : DwarfContext} {basePath : BasePath} {pair : AddressPair}
    {us : List DebugUpdate} (h : (updateFor context basePath pair : Call ε _) = .ok us) :
    us = [] ∨ ∃ info, us = [(pair.originalRelativeAddress, info)] := by
  obtain ⟨frames, -, h⟩ := Outcome.bind_eq_ok.mp h
  rw [Outcome.pure_eq_ok, Outcome.ok.injEq] at h
  subst h
  split
  · exact Or.inl rfl
  · exact Or.inr ⟨_, rfl⟩

theorem settles_addFrames (h : Admits admitted) {I : R → Prop} (context : DwarfContext)
    {pairs : List AddressPair}
    (hadd : ∀ pair ∈ pairs, ∀ (r : R) info, I r →
      (SymbolicationResult.addAddressDebugInfo r pair.originalRelativeAddress info
        : Call ε R).Settles admitted ∧
      ∀ r', (SymbolicationResult.addAddressDebugInfo r pair.originalRelativeAddress info
        : Call ε R) = .ok r' → I r')
    {r : R} (hr : I r) (m : PathMapper Unit) :
    (addFrames context pairs r m : Call ε _).Settles admitted := by
  induction pairs generalizing r m with
  | nil => exact trivial
  | cons pair pairs ih =>
      have htail := fun p hp => hadd p (List.mem_cons_of_mem _ hp)
      obtain ⟨m', -, hcons⟩ := addFrames_cons ε context pair pairs r m
      rw [hcons]
      refine (settles_updateFor h context _ pair).bind (fun us hus => ?_)
      rcases updateFor_eq_ok hus with rfl | ⟨info, rfl⟩
      · exact ih htail hr m'
      · obtain ⟨hsettles, hkeeps⟩ := hadd pair (List.mem_cons_self ..) r info hr
        rw [addAll, List.foldlM_cons]
        simp only [List.foldlM_nil, bind_pure]
        exact hsettles.bind (fun r' hr' => ih htail (hkeeps r' hr') m')

/-- Apart from its own panics the lookup panics where one of its calls does. -/
theorem settles_collect (h : Admits admitted) {I : R → Prop} (data : RangeReadRef)
    (obj : ObjectFile) {addresses : List AddressPair}
    (hadd : ∀ pair ∈ addresses, ∀ (r : R) info, I r →
      (SymbolicationResult.addAddressDebugInfo r pair.originalRelativeAddress info
        : Call ε R).Settles admitted ∧
      ∀ r', (SymbolicationResult.addAddressDebugInfo r pair.originalRelativeAddress info
        : Call ε R) = .ok r' → I r')
    {r : R} (hr : I r) (m : PathMapper Unit) :
    (collectDwarfAddressDebugData data obj addresses r m : Call ε _).Settles admitted := by
  rw [collectDwarfAddressDebugData]
  split
  · exact trivial
  · refine (settles_fromObject h data obj).bind (fun sectionData _ => ?_)
    refine (settles_makeAddr2lineContext h sectionData).bind (fun context _ => ?_)
    split
    · exact settles_addFrames h _ hadd hr m
    · exact trivial

/-- What the calls of a lookup are about. -/
theorem map_fst_updatesFor {context : DwarfContext} {basePath : BasePath} {pairs : List AddressPair}
    {us : List DebugUpdate} (h : (updatesFor context basePath pairs : Call ε _) = .ok us) :
    (us.map Prod.fst).Sublist (pairs.map AddressPair.originalRelativeAddress) := by
  induction pairs generalizing us with
  | nil =>
      rw [updatesFor, List.mapM_nil, pure_bind, Outcome.pure_eq_ok, Outcome.ok.injEq] at h
      subst h
      exact List.Sublist.refl _
  | cons pair pairs ih =>
      obtain ⟨first, rest, hfirst, hrest, rfl⟩ := updatesFor_cons_eq_ok h
      rcases updateFor_eq_ok hfirst with rfl | ⟨info, rfl⟩
      · exact (ih hrest).cons _
      · exact (ih hrest).cons_cons _

/-- What the debug info of an object says of an address. -/
def Reports (ε : Type) (basePath : BasePath) (data : RangeReadRef) (obj : ObjectFile)
    (pair : AddressPair) (info : AddressDebugInfo) : Prop :=
  ∃ sectionData context, (SectionDataNoCopy.fromObject data obj : Call ε _) = .ok sectionData ∧
    (sectionData.makeAddr2lineContext : Call ε _) = .ok (.ok context) ∧
    (updateFor context basePath pair : Call ε _) = .ok [(pair.originalRelativeAddress, info)]

/-- It says one thing. -/
theorem Reports.unique {basePath : BasePath} {data : RangeReadRef} {obj : ObjectFile}
    {pair : AddressPair} {info info' : AddressDebugInfo} (h : Reports ε basePath data obj pair info)
    (h' : Reports ε basePath data obj pair info') : info = info' := by
  obtain ⟨sectionData, context, hsections, hcontext, hupdate⟩ := h
  obtain ⟨sectionData', context', hsections', hcontext', hupdate'⟩ := h'
  rw [hsections, Outcome.ok.injEq] at hsections'
  subst hsections'
  rw [hcontext, Outcome.ok.injEq, Except.ok.injEq] at hcontext'
  subst hcontext'
  rw [hupdate] at hupdate'
  simpa using hupdate'

/-- A call of the loop is that of some address. -/
theorem updateFor_of_mem {context : DwarfContext} {basePath : BasePath} {pairs : List AddressPair}
    {us : List DebugUpdate} (h : (updatesFor context basePath pairs : Call ε _) = .ok us)
    {u : DebugUpdate} (hu : u ∈ us) : ∃ pair ∈ pairs, pair.originalRelativeAddress = u.1 ∧
      (updateFor context basePath pair : Call ε _) = .ok [(pair.originalRelativeAddress, u.2)] := by
  induction pairs generalizing us with
  | nil =>
      rw [updatesFor, List.mapM_nil, pure_bind, Outcome.pure_eq_ok, Outcome.ok.injEq] at h
      rw [← h] at hu
      cases hu
  | cons pair pairs ih =>
      obtain ⟨first, rest, hfirst, hrest, rfl⟩ := updatesFor_cons_eq_ok h
      rcases List.mem_append.mp hu with hu | hu
      · rcases updateFor_eq_ok hfirst with rfl | ⟨info, rfl⟩
        · cases hu
        · rw [List.mem_singleton] at hu
          subst hu
          exact ⟨pair, List.mem_cons_self .., rfl, hfirst⟩
      · obtain ⟨p, hp, hupdate⟩ := ih hrest hu
        exact ⟨p, List.mem_cons_of_mem _ hp, hupdate⟩

/-- The calls of a lookup are what the debug info says. -/
theorem reports_of_mem {basePath : BasePath} {data : RangeReadRef} {obj : ObjectFile}
    {addresses : List AddressPair} {us : List DebugUpdate}
    (h : (debugUpdates basePath data obj addresses : Call ε _) = .ok us) {u : DebugUpdate}
    (hu : u ∈ us) : ∃ pair ∈ addresses, pair.originalRelativeAddress = u.1 ∧
      Reports ε basePath data obj pair u.2 := by
  rw [debugUpdates] at h
  split at h
  · rw [Outcome.pure_eq_ok, Outcome.ok.injEq] at h
    rw [← h] at hu
    cases hu
  · obtain ⟨sectionData, hsections, h⟩ := Outcome.bind_eq_ok.mp h
    obtain ⟨context, hcontext, h⟩ := Outcome.bind_eq_ok.mp h
    split at h
    · obtain ⟨pair, hpair, haddress, hupdate⟩ := updateFor_of_mem h hu
      exact ⟨pair, hpair, haddress, sectionData, _, hsections, hcontext, hupdate⟩
    · rw [Outcome.pure_eq_ok, Outcome.ok.injEq] at h
      rw [← h] at hu
      cases hu

/-- **AT MOST ONE CALL FOR AN ADDRESS**, in the order of the addresses. -/
theorem map_fst_debugUpdates {basePath : BasePath} {data : RangeReadRef} {obj : ObjectFile}
    {addresses : List AddressPair} {us : List DebugUpdate}
    (h : (debugUpdates basePath data obj addresses : Call ε _) = .ok us) :
    (us.map Prod.fst).Sublist (addresses.map AddressPair.originalRelativeAddress) := by
  rw [debugUpdates] at h
  split at h
  · rw [Outcome.pure_eq_ok, Outcome.ok.injEq] at h
    subst h
    exact List.nil_sublist _
  · obtain ⟨sectionData, -, h⟩ := Outcome.bind_eq_ok.mp h
    obtain ⟨context, -, h⟩ := Outcome.bind_eq_ok.mp h
    split at h
    · exact map_fst_updatesFor h
    · rw [Outcome.pure_eq_ok, Outcome.ok.injEq] at h
      subst h
      exact List.nil_sublist _

end Dwarf

end ProfilerGetSymbols
