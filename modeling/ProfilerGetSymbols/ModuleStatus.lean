import ProfilerGetSymbols.JobIndependence

/-! # Module status — when a result tells one story of its modules

    A result says twice how the lookup of a module went: `found_modules` has a
    flag under the module's key, and `module_errors` an error.  Both are filled
    in one pass over the memory map.  The key joins debug name and breakpad ID
    with a slash, and either may have slashes of its own, so two libraries can
    share a key: the later one replaces the flag, and leaves an earlier error
    where it is.

    The flag of a key is that of its last library in the memory map, and the
    error is there if any of its libraries failed.  So the two agree exactly
    where the failure of one library means that of the last one. -/

namespace ProfilerGetSymbols.SymbolicateV5

open ProgLib LookedUpAddresses Paths

/-- What is said of corresponding elements, said of the left ones. -/
theorem forall₂_iff_forall_mem {α β : Type} {r s : α → β → Prop} {q : α → Prop} {l : List α}
    {l' : List β} (h : List.Forall₂ r l l') (hiff : ∀ a b, r a b → (s a b ↔ q a)) :
    List.Forall₂ s l l' ↔ ∀ a ∈ l, q a := by
  induction h with
  | nil => simp
  | cons hab _ ih => rw [List.forall₂_cons, List.forall_mem_cons, hiff _ _ hab, ih]

section Status

variable [Platform] [Crates] {ε : Type}

/-! ## What is said of a module -/

/-- A frame with a symbol is in a module that is reported as found. -/
def SymbolFound (job : Request.Job) (result : Response.Result) (frame : Request.StackFrame)
    (answer : Response.StackFrame) : Prop :=
  answer.symbol.isSome → ∀ lib, job.memoryMap[frame.moduleIndex.toNat]? = some lib →
    result.foundModules.get? (moduleKey lib) = some true

/-- The errors are those of the modules that are not found, and frames with symbols
    are in modules that are. -/
structure OneStory (job : Request.Job) (result : Response.Result) : Prop where
  errors : ∀ key, (result.moduleErrors.get? key).isSome ↔
    result.foundModules.get? key = some false
  symbols : List.Forall₂ (List.Forall₂ (SymbolFound job result)) job.callStacks result.callStacks

/-! ## What it depends on -/

variable (symbolicated : HashMap Lib (Except GetSymbolsError LookedUpAddresses))

/-- The last library of the memory map that was looked up and has the key. -/
def LastUnder (memoryMap : List Lib) (key : String) (last : Lib) : Prop :=
  ∃ before after, memoryMap = before ++ last :: after ∧ moduleKey last = key ∧
    (found symbolicated last).isSome ∧
    ∀ lib ∈ after, moduleKey lib = key → found symbolicated lib = none

/-- The table that a 32-bit module index leads to: that of the last library at such a
    position whose lookup succeeded. -/
def tableAt (memoryMap : List Lib) (moduleIndex : Nat) : Option AddressResults :=
  memoryMap.zipIdx.reverse.findSome? (fun e =>
    if asU32 e.2 = moduleIndex then moduleTable symbolicated e.1 else none)

/-- There is a symbol for the frame. -/
def HoldsSymbol (memoryMap : List Lib) (frame : Request.StackFrame) : Prop :=
  ∃ table result, tableAt symbolicated memoryMap frame.moduleIndex.toNat = some table ∧
    table.get? frame.address.toNat = some (some result)

/-- Libraries with one key do not contradict each other. -/
structure KeysAgree (job : Request.Job) : Prop where
  failures : ∀ lib ∈ job.memoryMap, found symbolicated lib = some false →
    ∃ last, LastUnder symbolicated job.memoryMap (moduleKey lib) last ∧
      found symbolicated last = some false
  symbols : ∀ frame ∈ jobFrames job, HoldsSymbol symbolicated job.memoryMap frame →
    ∀ lib, job.memoryMap[frame.moduleIndex.toNat]? = some lib →
      ∃ last, LastUnder symbolicated job.memoryMap (moduleKey lib) last ∧
        found symbolicated last = some true

/-! ## The two maps and the tables -/

/-- **THE LAST LIBRARY DECIDES** which flag a key has. -/
theorem get?_foundModules_eq_some {memoryMap : List Lib} {key : String} {flag : Bool} :
    (jobModules symbolicated memoryMap).foundModules.get? key = some flag ↔
      ∃ last, LastUnder symbolicated memoryMap key last ∧ found symbolicated last = some flag := by
  rw [get?_foundModules, List.findSome?_eq_some_iff]
  constructor
  · rintro ⟨after, last, before, hsplit, hflag, hafter⟩
    split at hflag
    · next hkey =>
      refine ⟨last, ⟨before.reverse, after.reverse, ?_, hkey, ?_, ?_⟩, hflag⟩
      · rw [← List.reverse_reverse memoryMap, hsplit]
        simp
      · rw [hflag]
        rfl
      · intro lib hlib hlibkey
        simpa [hlibkey] using hafter lib (List.mem_reverse.mp hlib)
    · cases hflag
  · rintro ⟨last, ⟨before, after, rfl, hkey, -, hafter⟩, hflag⟩
    refine ⟨after.reverse, last, before.reverse, by simp, ?_, ?_⟩
    · rw [if_pos hkey, hflag]
    · intro lib hlib
      by_cases hlibkey : moduleKey lib = key
      · rw [if_pos hlibkey]
        exact hafter lib (List.mem_reverse.mp hlib) hlibkey
      · rw [if_neg hlibkey]

omit [Platform] [Crates] in
theorem failed_isSome_iff (lib : Lib) :
    (failed symbolicated lib).isSome ↔ found symbolicated lib = some false := by
  rw [failed, found]
  cases symbolicated.get? lib with
  | none => simp
  | some answer =>
      cases answer with
      | error err => simp [Except.isOk, Except.toBool]
      | ok table => simp [Except.isOk, Except.toBool]

/-- **ANY LIBRARY MAY LEAVE AN ERROR** under its key. -/
theorem isSome_moduleErrors_iff {memoryMap : List Lib} {key : String} :
    ((jobModules symbolicated memoryMap).moduleErrors.get? key).isSome ↔
      ∃ lib ∈ memoryMap, moduleKey lib = key ∧ found symbolicated lib = some false := by
  rw [get?_moduleErrors, List.isSome_findSome?, List.any_eq_true]
  constructor
  · rintro ⟨lib, hlib, herror⟩
    split at herror
    · next hkey =>
      rw [Option.isSome_map] at herror
      exact ⟨lib, List.mem_reverse.mp hlib, hkey, (failed_isSome_iff symbolicated lib).mp herror⟩
    · cases herror
  · rintro ⟨lib, hlib, hkey, hfailed⟩
    refine ⟨lib, List.mem_reverse.mpr hlib, ?_⟩
    rw [if_pos hkey, Option.isSome_map]
    exact (failed_isSome_iff symbolicated lib).mpr hfailed

/-- The tables by module index, for memory maps of any length. -/
theorem get?_symbolsByModuleIndex (memoryMap : List Lib) (moduleIndex : Nat) :
    (jobModules symbolicated memoryMap).symbolsByModuleIndex.get? moduleIndex
      = tableAt symbolicated memoryMap moduleIndex := by
  induction memoryMap using List.reverseRecOn with
  | nil => rfl
  | append_singleton memoryMap lib ih =>
      have hsnoc : tableAt symbolicated (memoryMap ++ [lib]) moduleIndex
          = ((if asU32 memoryMap.length = moduleIndex then moduleTable symbolicated lib
            else none).or (tableAt symbolicated memoryMap moduleIndex)) := by
        rw [tableAt, List.zipIdx_append, List.reverse_append, List.findSome?_append,
          List.zipIdx_singleton, List.reverse_singleton, List.findSome?_singleton, Nat.zero_add]
        rfl
      rw [jobModules_concat, get?_addModule, ih, hsnoc]
      cases htable : moduleTable symbolicated lib with
      | none => simp
      | some table =>
          by_cases hindex : asU32 memoryMap.length = moduleIndex
          · simp [hindex]
          · simp [hindex]

theorem exists_lastUnder {memoryMap : List Lib} {lib : Lib} (hlib : lib ∈ memoryMap)
    (hfound : (found symbolicated lib).isSome) :
    ∃ last, LastUnder symbolicated memoryMap (moduleKey lib) last := by
  cases hflag : (jobModules symbolicated memoryMap).foundModules.get? (moduleKey lib) with
  | some flag =>
      obtain ⟨last, hlast, -⟩ := (get?_foundModules_eq_some symbolicated).mp hflag
      exact ⟨last, hlast⟩
  | none =>
      rw [get?_foundModules, List.findSome?_eq_none_iff] at hflag
      have hnone := hflag lib (List.mem_reverse.mpr hlib)
      rw [if_pos rfl] at hnone
      rw [hnone] at hfound
      cases hfound

/-- **LIBRARIES WITH KEYS OF THEIR OWN AGREE**, however often they are listed. -/
theorem keysAgree_of_distinct {job : Request.Job} (hlibs : job.memoryMap.length ≤ 2 ^ 32)
    (hkeys : ∀ lib ∈ job.memoryMap, ∀ other ∈ job.memoryMap, moduleKey other = moduleKey lib →
      other = lib) : KeysAgree symbolicated job := by
  have hlast : ∀ lib ∈ job.memoryMap, ∀ flag, found symbolicated lib = some flag →
      ∃ last, LastUnder symbolicated job.memoryMap (moduleKey lib) last ∧
        found symbolicated last = some flag := by
    intro lib hlib flag hflag
    obtain ⟨last, hlast⟩ := exists_lastUnder symbolicated hlib (by rw [hflag]; rfl)
    refine ⟨last, hlast, ?_⟩
    obtain ⟨before, after, hsplit, hkey, -⟩ := hlast
    rw [hkeys lib hlib last (by rw [hsplit]; simp) hkey, hflag]
  refine ⟨fun lib hlib hfailed => hlast lib hlib false hfailed, ?_⟩
  rintro frame - ⟨table, result, htable, -⟩ lib hlib
  refine hlast lib (List.mem_of_getElem? hlib) true ?_
  -- with this few entries the table is that of the frame's own library
  rw [← get?_symbolsByModuleIndex, get?_jobModules symbolicated hlibs, hlib, Option.bind_some,
    moduleTable] at htable
  rw [found]
  split at htable
  · next symbols hget => rw [hget]; rfl
  · cases htable

/-! ## One job -/

variable {symbolicated}

omit [Crates] in
/-- A symbol comes from the table of its frame's module index. -/
theorem isSome_symbolForFrame {frame : Request.StackFrame} {tables : HashMap Nat AddressResults}
    {symbol : Option Response.Symbol} (h : (symbolForFrame frame tables : Call ε _) = .ok symbol) :
    symbol.isSome ↔ ∃ table result, tables.get? frame.moduleIndex.toNat = some table ∧
      table.get? frame.address.toNat = some (some result) := by
  cases htable : tables.get? frame.moduleIndex.toNat with
  | none =>
      rw [symbolForFrame, htable] at h
      rw [← Outcome.ok.inj h]
      simp
  | some table =>
      cases hslot : table.get? frame.address.toNat with
      | none =>
          rw [symbolForFrame, htable] at h
          obtain ⟨slot, hunwrap, -⟩ := Outcome.bind_eq_ok.mp h
          rw [hslot] at hunwrap
          cases hunwrap
      | some slot =>
          rw [symbolForFrame_of_slot htable hslot] at h
          cases slot with
          | none =>
              rw [← Outcome.ok.inj h]
              simp [hslot]
          | some result =>
              obtain ⟨answer, -, rfl⟩ := Outcome.map_eq_ok.mp h
              exact iff_of_true rfl ⟨table, result, rfl, hslot⟩

/-- The frames of an answered job tell of found modules exactly if the symbols there are do. -/
theorem forall₂_symbolFound_iff {job : Request.Job} {result : Response.Result}
    (h : (resultForJob symbolicated job : Call ε _) = .ok result) :
    List.Forall₂ (List.Forall₂ (SymbolFound job result)) job.callStacks result.callStacks ↔
      ∀ frame ∈ jobFrames job, HoldsSymbol symbolicated job.memoryMap frame →
        ∀ lib, job.memoryMap[frame.moduleIndex.toNat]? = some lib →
          result.foundModules.get? (moduleKey lib) = some true := by
  obtain ⟨hstacks, -, -⟩ := resultForJob_eq_ok.mp h
  have hframe : ∀ (entry : Request.StackFrame × Nat) (answer : Response.StackFrame),
      (responseFrameForRequestFrame job.memoryMap
        (jobModules symbolicated job.memoryMap).symbolsByModuleIndex entry : Call ε _)
          = .ok answer →
      (SymbolFound job result entry.1 answer ↔
        (HoldsSymbol symbolicated job.memoryMap entry.1 →
          ∀ lib, job.memoryMap[entry.1.moduleIndex.toNat]? = some lib →
            result.foundModules.get? (moduleKey lib) = some true)) := by
    rintro ⟨frame, frameIndex⟩ answer hanswer
    -- the symbol comes from the tables by module index, whatever the map of modules says
    obtain ⟨symbol, hsymbol, hrest⟩ := Outcome.bind_eq_ok.mp hanswer
    obtain ⟨lib, -, heq⟩ := Outcome.bind_eq_ok.mp hrest
    rw [← Outcome.ok.inj heq, SymbolFound, HoldsSymbol]
    have hsome := isSome_symbolForFrame hsymbol
    simp only [get?_symbolsByModuleIndex] at hsome
    rw [hsome]
  have hstack : ∀ (stack : List Request.StackFrame) (answers : List Response.StackFrame),
      (responseStackForRequestStack job.memoryMap
        (jobModules symbolicated job.memoryMap).symbolsByModuleIndex stack : Call ε _)
          = .ok answers →
      (List.Forall₂ (SymbolFound job result) stack answers ↔ ∀ frame ∈ stack,
        HoldsSymbol symbolicated job.memoryMap frame →
          ∀ lib, job.memoryMap[frame.moduleIndex.toNat]? = some lib →
            result.foundModules.get? (moduleKey lib) = some true) := by
    intro stack answers hanswers
    have hentries := forall₂_iff_forall_mem (Outcome.mapM_eq_ok_iff.mp hanswers) hframe
    have hfst : stack = stack.zipIdx.map Prod.fst := List.zipIdx_map_fst 0 stack |>.symm
    conv_lhs => rw [hfst]
    conv_rhs => rw [hfst]
    rw [List.forall₂_map_left_iff, List.forall_mem_map]
    exact hentries
  rw [forall₂_iff_forall_mem (Outcome.mapM_eq_ok_iff.mp hstacks) hstack, jobFrames]
  simp only [List.mem_flatten]
  constructor
  · rintro hall frame ⟨stack, hmem, hin⟩
    exact hall stack hmem frame hin
  · intro hall stack hmem frame hin
    exact hall frame ⟨stack, hmem, hin⟩

/-- **WHEN A RESULT TELLS ONE STORY**: exactly when libraries with one key agree. -/
theorem oneStory_iff {job : Request.Job} {result : Response.Result}
    (h : (resultForJob symbolicated job : Call ε _) = .ok result) :
    OneStory job result ↔ KeysAgree symbolicated job := by
  have hsymbols := forall₂_symbolFound_iff h
  obtain ⟨-, hfound, herrors⟩ := resultForJob_eq_ok.mp h
  simp only [hfound, get?_foundModules_eq_some] at hsymbols
  constructor
  · -- the error of any failed library wants the flag of the last one
    intro hstory
    refine ⟨?_, hsymbols.mp hstory.symbols⟩
    intro lib hlib hfailed
    have herror := (hstory.errors (moduleKey lib)).mp (by
      rw [herrors]
      exact (isSome_moduleErrors_iff symbolicated).mpr ⟨lib, hlib, rfl, hfailed⟩)
    rw [hfound] at herror
    exact (get?_foundModules_eq_some symbolicated).mp herror
  · intro hagree
    refine ⟨?_, hsymbols.mpr hagree.symbols⟩
    intro key
    rw [herrors, hfound, isSome_moduleErrors_iff, get?_foundModules_eq_some]
    constructor
    · rintro ⟨lib, hlib, rfl, hfailed⟩
      exact hagree.failures lib hlib hfailed
    · rintro ⟨last, ⟨before, after, hsplit, hkey, -, -⟩, hfailed⟩
      exact ⟨last, by rw [hsplit]; simp, hkey, hfailed⟩

/-! ## All jobs of a request -/

/-- What the lookups of a request have given is all that the response depends on. -/
theorem queryApi_eq_of_lookedUp (orders : Orders) {getSymbolicationResult : Lookup}
    {withDebugInfo : Bool} {request : Request} (hindex : IndicesValid request)
    (h : LookedUp getSymbolicationResult withDebugInfo request symbolicated) :
    ∃ own : HashMap Lib (Except GetSymbolsError LookedUpAddresses),
      (∀ lib, own.get? lib = symbolicated.get? lib) ∧
      queryApi orders getSymbolicationResult request withDebugInfo = createResponse request own := by
  have hanswers : ∀ lib, ∃ answer, RequestAsks request lib →
      symbolicated.get? lib = some answer ∧
        (lookUpLib getSymbolicationResult withDebugInfo lib (askedAddresses request lib)
          : Call GetSymbolsError _) = .ok answer := by
    intro lib
    by_cases hasked : RequestAsks request lib
    · obtain ⟨answer, hanswer⟩ := h.asked lib hasked
      exact ⟨answer, fun _ => hanswer⟩
    · exact ⟨.error (.invalidBreakpadId lib.breakpadId), fun hyes => absurd hyes hasked⟩
  choose answer hanswer using hanswers
  obtain ⟨requested, hgather, hmem, hsome⟩ := gather_spec orders.byModuleIndex hindex
  obtain ⟨own, hlookup, hget, hnone⟩ := lookUpLibs_spec orders
    (fun lib hlib => (hanswer lib (requestAsks_iff.mpr hlib)).2) hmem hsome
  refine ⟨own, ?_, ?_⟩
  · intro lib
    by_cases hasked : RequestAsks request lib
    · rw [hget lib (requestAsks_iff.mp hasked), (hanswer lib hasked).1]
    · rw [hnone lib (fun hyes => hasked (requestAsks_iff.mpr hyes)), h.others lib hasked]
  · rw [queryApi, hgather, Outcome.ok_bind, hlookup, Outcome.ok_bind]

omit [Platform] [Crates] in
/-- Agreement is about the answers only. -/
theorem keysAgree_congr {own : HashMap Lib (Except GetSymbolsError LookedUpAddresses)}
    (h : ∀ lib, own.get? lib = symbolicated.get? lib) (job : Request.Job) :
    KeysAgree own job ↔ KeysAgree symbolicated job := by
  have hfound : found own = found symbolicated := funext fun lib => by rw [found, found, h]
  have htable : moduleTable own = moduleTable symbolicated := funext fun lib => by
    rw [moduleTable, moduleTable, h]
  have hlast : LastUnder own = LastUnder symbolicated := by
    funext memoryMap key last
    rw [LastUnder, LastUnder, hfound]
  have hholds : HoldsSymbol own = HoldsSymbol symbolicated := by
    funext memoryMap frame
    rw [HoldsSymbol, HoldsSymbol, tableAt, tableAt, htable]
  constructor
  · rintro ⟨hfailures, hsymbols⟩
    rw [hfound, hlast] at hfailures
    rw [hfound, hlast, hholds] at hsymbols
    exact ⟨hfailures, hsymbols⟩
  · rintro ⟨hfailures, hsymbols⟩
    rw [← hfound, ← hlast] at hfailures
    rw [← hfound, ← hlast, ← hholds] at hsymbols
    exact ⟨hfailures, hsymbols⟩

/-- **WHEN A RESPONSE TELLS ONE STORY**: exactly when in each job the libraries with one
    key agree, as the lookups have gone. -/
theorem queryApi_oneStory_iff (orders : Orders) {getSymbolicationResult : Lookup}
    {withDebugInfo : Bool} {request : Request} {response : Response} (hindex : IndicesValid request)
    (hlookups : LookedUp getSymbolicationResult withDebugInfo request symbolicated)
    (hresponse : queryApi orders getSymbolicationResult request withDebugInfo = .ok response) :
    List.Forall₂ OneStory request.jobs response.results ↔
      ∀ job ∈ request.jobs, KeysAgree symbolicated job := by
  obtain ⟨own, hown, hquery⟩ := queryApi_eq_of_lookedUp orders hindex hlookups
  rw [hquery, createResponse_eq_ok] at hresponse
  refine forall₂_iff_forall_mem hresponse ?_
  intro job result hresult
  exact (oneStory_iff hresult).trans (keysAgree_congr hown job)

end Status

/-! ## A request on which the lookups differ -/

section Samples

local instance : Platform := unix

local instance : Crates := sampleCrates

theorem lookedUp_sampleRequest :
    LookedUp sampleLookup true sampleRequest
      (HashMap.ofList [(libA, sampleAnswer libA), (libB, sampleAnswer libB)]) where
  asked lib hlib := by
    obtain ⟨address, hasks⟩ := requestAsks_iff.mp hlib
    refine ⟨sampleAnswer lib, ?_, looks_sampleRequest.lookUp lib ⟨address, hasks⟩⟩
    rcases asks_sampleRequest hasks with rfl | rfl
    · rfl
    · rfl
  others lib hlib := by
    have hA : lib ≠ libA := by
      rintro rfl
      exact hlib ⟨_, List.mem_singleton_self _, ⟨0, 5⟩, by decide, rfl⟩
    have hB : lib ≠ libB := by
      rintro rfl
      exact hlib ⟨_, List.mem_singleton_self _, ⟨1, 7⟩, by decide, rfl⟩
    have hne : ∀ other : Lib, lib ≠ other → (other == lib) = false := fun other h =>
      beq_false_of_ne (Ne.symm h)
    rw [HashMap.ofList, List.foldl_cons, List.foldl_cons, List.foldl_nil,
      HashMap.get?_insert_of_ne _ _ (hne libB hB), HashMap.get?_insert_of_ne _ _ (hne libA hA)]
    rfl

/-- One library with a symbol, and one whose lookup failed. -/
theorem queryApi_oneStory_iff_two_libraries :
    ∃ response, queryApi Orders.listed sampleLookup sampleRequest true = .ok response ∧
      (List.Forall₂ OneStory sampleRequest.jobs response.results ↔
        ∀ job ∈ sampleRequest.jobs, KeysAgree
          (HashMap.ofList [(libA, sampleAnswer libA), (libB, sampleAnswer libB)]) job) :=
  ⟨_, rfl, queryApi_oneStory_iff Orders.listed (by decide) lookedUp_sampleRequest rfl⟩

/-! ## Two libraries with one key -/

/-- Library `a` with a breakpad ID that is none, and library `a/b` with one that is. -/
def collidingRequest : Request :=
  .justOneJob ⟨[⟨"a", "b/BBBBBBBBBBBBBBBBBBBBBBBBBBBBBBBB0"⟩,
    ⟨"a/b", "BBBBBBBBBBBBBBBBBBBBBBBBBBBBBBBB0"⟩], [[⟨0, 5⟩, ⟨1, 7⟩]]⟩

/-- The key of both libraries is found and has an error. -/
theorem not_queryApi_oneStory_colliding :
    IndicesValid collidingRequest ∧
      ∃ response, queryApi Orders.listed emptyLookup collidingRequest true = .ok response ∧
        ¬ List.Forall₂ OneStory collidingRequest.jobs response.results := by
  refine ⟨by decide, _, rfl, ?_⟩
  intro hall
  obtain ⟨hstory, -⟩ := List.forall₂_cons.mp hall
  exact absurd ((hstory.errors "a/b/BBBBBBBBBBBBBBBBBBBBBBBBBBBBBBBB0").mp rfl) (by decide)

end Samples

end ProfilerGetSymbols.SymbolicateV5
