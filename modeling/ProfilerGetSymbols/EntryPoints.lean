import ProfilerGetSymbols.FrameByFrame
import ProfilerGetSymbols.Protocol
import ProfilerGetSymbols.Source

/-! # Entry points — no API trips over the protocol

    Some results panic at a call that a query of their kind never makes.  A
    `Monitor` panics at every call that is not permitted, and it never does.
    So neither do the results of the compact symbol table, of `/symbolicate/v5`
    with or without debug info, and of `/source/v1`. -/

namespace ProfilerGetSymbols

open ProgLib Paths

/-! ## The monitor -/

/-- A result that refuses every call that is not permitted. -/
structure Monitor (kind : SymbolicationResultKind) where
  /-- Made of the full map, or with its symbols counted. -/
  complete : Bool

namespace Monitor

variable {ε : Type} {kind : SymbolicationResultKind}

/-- Let a permitted call pass. -/
def check (kind : SymbolicationResultKind) (call : ResultCall) (complete : Bool) :
    Call ε (Monitor kind) := do
  Outcome.assert .shouldNotBeCalled (Permitted kind call)
  return ⟨complete⟩

instance : SymbolicationResult (Monitor kind) where
  fromFullMap map := check kind (.fromFullMap map) true
  forAddresses addresses := check kind (.forAddresses addresses) false
  addAddressSymbol m address symbolAddress symbolName functionSize :=
    check kind (.addAddressSymbol address symbolAddress symbolName functionSize) m.complete
  addAddressDebugInfo m address info := check kind (.addAddressDebugInfo address info) m.complete
  setTotalSymbolCount _ totalSymbolCount := check kind (.setTotalSymbolCount totalSymbolCount) true

theorem check_of_permitted {call : ResultCall} (h : Permitted kind call) (complete : Bool) :
    (check kind call complete : Call ε _) = .ok ⟨complete⟩ := by
  rw [check, Outcome.assert, if_pos h]
  rfl

/-- A permitted call passes, and leaves the monitor complete where it says so. -/
theorem keeps {admitted : Panic → Prop} {paths : FilePath → Prop} :
    Keeps (Monitor kind) ε admitted (· ≤ ·) kind paths
      (fun counted m => counted = true → m.complete = true) := by
  have hcheck : ∀ {call : ResultCall}, Permitted kind call → ∀ {counted complete : Bool},
      (counted = true → complete = true) →
      (check kind call complete : Call ε (Monitor kind)).Meets admitted
        (fun m => counted = true → m.complete = true) := by
    intro call hcall counted complete h
    rw [check_of_permitted hcall]
    exact h
  constructor
  · exact fun _ _ h => h
  · intro map h
    exact hcheck h (fun _ => rfl)
  · intro addresses h
    exact hcheck h (fun h => by cases h)
  · intro counted m hm address symbolAddress symbolName functionSize h
    exact hcheck h hm
  · intro counted m hm address info h _
    exact hcheck h hm
  · intro counted m hm totalSymbolCount h
    exact hcheck h (fun _ => rfl)

end Monitor

/-! ## The results of the entry points -/

theorem CompactSymbolTable.keeps {ε : Type} {admitted : Panic → Prop} {paths : FilePath → Prop} :
    Keeps CompactSymbolTable ε admitted (· ≤ ·) .allSymbols paths (fun _ _ => True) where
  starts_of_le _ _ h := h
  fromFullMap _ _ := trivial
  forAddresses _ h := h.elim
  addAddressSymbol _ _ _ _ _ _ _ h := h.elim
  addAddressDebugInfo _ _ _ _ _ h := h.elim
  setTotalSymbolCount _ _ _ _ h := h.elim

theorem FramesForSingleAddress.keeps {ε : Type} {admitted : Panic → Prop}
    {paths : FilePath → Prop} (address : Nat) (withDebugInfo : Bool) :
    Keeps FramesForSingleAddress ε admitted (· ≤ ·) (.symbolsForAddresses [address] withDebugInfo) paths
      (fun _ result => result.address = address) where
  starts_of_le _ _ h := h
  fromFullMap _ h := h.elim
  forAddresses := by
    rintro addresses rfl
    exact rfl
  addAddressSymbol := by
    rintro counted result rfl address' symbolAddress symbolName functionSize ⟨haddress, -⟩
    have hok : (addAddressSymbol result address' : Call ε _) = .ok result :=
      addAddressSymbol_eq_ok.mpr ⟨List.mem_singleton.mp haddress, rfl⟩
    show (addAddressSymbol result address' : Call ε _).Meets admitted _
    rw [hok]
    exact rfl
  addAddressDebugInfo := by
    rintro counted result rfl address' info ⟨-, haddress, -⟩ -
    have hok : (addAddressDebugInfo result address' info : Call ε _)
        = .ok ⟨result.address, some info.frames⟩ :=
      addAddressDebugInfo_eq_ok.mpr ⟨List.mem_singleton.mp haddress, rfl⟩
    show (addAddressDebugInfo result address' info : Call ε _).Meets admitted _
    rw [hok]
    exact rfl
  setTotalSymbolCount _ _ h _ _ := h

section Tables

variable [Crates]

/-- A table has its slots throughout, with offsets and frames that a response can use. -/
theorem LookedUpAddresses.keeps {ε : Type} {admitted : Panic → Prop}
    (hname : admitted .charBoundary) {paths : FilePath → Prop} (addresses : List Nat)
    (withDebugInfo : Bool) :
    Keeps LookedUpAddresses ε admitted (· ≤ ·) (.symbolsForAddresses addresses withDebugInfo) paths
      (fun _ table => SymbolicateV5.Answerable addresses table) where
  starts_of_le _ _ h := h
  fromFullMap _ h := h.elim
  forAddresses := by
    rintro requested rfl
    exact (@SymbolicateV5.BuiltFor.forAddresses _ requested).answerable
  addAddressSymbol := by
    rintro counted table htable address symbolAddress symbolName functionSize ⟨haddress, hle⟩
    refine ((Demangle.settles_demangleAny hname symbolName).meets (fun _ h => h)).bind
      (fun name _ _ => ?_)
    obtain ⟨entry, hentry⟩ := Option.isSome_iff_exists.mp ((htable.has address).mpr haddress)
    rw [hentry]
    exact htable.setSlot haddress hle (fun h => by cases h)
  addAddressDebugInfo := by
    rintro counted table htable address info ⟨-, haddress, hsome⟩ -
    have hframes : info.frames ≠ [] := by
      intro h
      rw [h] at hsome
      cases hsome
    obtain ⟨entry, hentry⟩ := Option.isSome_iff_exists.mp ((htable.has address).mpr haddress)
    show (addAddressDebugInfo table address info : Call ε _).Meets admitted _
    rw [addAddressDebugInfo, hentry]
    exact htable.setFrames haddress hentry hframes
  setTotalSymbolCount _ _ h _ _ := ⟨h.has, h.slots⟩

/-! ## `/symbolicate/v5` -/

namespace SymbolicateV5

variable {admitted : Panic → Prop}

omit [Crates] in
/-- A job is refused, or its module indices are valid. -/
theorem meets_extendRequested (job : Request.Job) (requested : HashMap Lib (List Nat))
    (entries : List (Nat × List Nat)) :
    (extendRequested job requested entries).Meets admitted
      (fun _ => ∀ e ∈ entries, e.1 < job.memoryMap.length) := by
  induction entries generalizing requested with
  | nil => exact fun e he => by cases he
  | cons e entries ih =>
      obtain ⟨moduleIndex, addresses⟩ := e
      rw [extendRequested]
      cases hlib : job.memoryMap[moduleIndex]? with
      | none => exact trivial
      | some lib =>
          refine (ih _).imp (fun _ _ htail e he => ?_)
          rcases List.mem_cons.mp he with rfl | hmem
          · exact (List.getElem?_eq_some_iff.mp hlib).1
          · exact htail e hmem

omit [Crates] in
theorem meets_gatherJobs (orders : Nat → IterOrder (Nat × List Nat)) (position : Nat)
    (requested : HashMap Lib (List Nat)) (jobs : List Request.Job) :
    (gatherJobs orders position requested jobs).Meets admitted
      (fun _ => ∀ job ∈ jobs, ∀ frame ∈ jobFrames job,
        frame.moduleIndex.toNat < job.memoryMap.length) := by
  induction jobs generalizing position requested with
  | nil => exact fun job hjob => by cases hjob
  | cons job jobs ih =>
      refine (meets_extendRequested job requested _).bind (fun requested' _ hjob => ?_)
      refine (ih (position + 1) requested').imp (fun _ _ hjobs job' hmem => ?_)
      rcases List.mem_cons.mp hmem with rfl | hmem
      · intro frame hframe
        obtain ⟨addresses, hentry, -⟩ :=
          (mem_entries_addressesByModuleIndex job').1 frame hframe
        exact hjob _ ((orders position).mem_order.mpr hentry)
      · exact hjobs job' hmem

/-- What is asked of a lookup: a table that a response can use, or an admitted panic. -/
def LooksUpSafely (admitted : Panic → Prop) (getSymbolicationResult : Lookup)
    (withDebugInfo : Bool) : Prop :=
  ∀ debugName debugId addresses,
    (getSymbolicationResult ⟨debugName, debugId, .symbolsForAddresses addresses withDebugInfo⟩).Meets
      admitted (Answerable addresses)

theorem meets_lookUpLib {getSymbolicationResult : Lookup} {withDebugInfo : Bool}
    (h : LooksUpSafely admitted getSymbolicationResult withDebugInfo) {ε : Type} (lib : Lib)
    (addresses : List Nat) :
    (lookUpLib getSymbolicationResult withDebugInfo lib addresses : Call ε _).Meets admitted
      (fun answer => ∀ table, answer = .ok table → Answerable (sortAndDedup addresses) table) := by
  refine Outcome.Meets.attempt ?_
  have hid : (toDebugId lib.breakpadId).Meets admitted (fun _ => True) := by
    rw [toDebugId]
    cases Crates.fromBreakpad lib.breakpadId with
    | none => exact trivial
    | some debugId => exact trivial
  exact hid.bind (fun debugId _ _ => h _ _ _)

theorem meets_lookUpLibs {getSymbolicationResult : Lookup} {withDebugInfo : Bool}
    (h : LooksUpSafely admitted getSymbolicationResult withDebugInfo) {ε : Type}
    (symbolicated : HashMap Lib (Except GetSymbolsError LookedUpAddresses))
    (entries : List (Lib × List Nat)) :
    (lookUpLibs getSymbolicationResult withDebugInfo symbolicated entries : Call ε _).Meets
      admitted (fun _ => True) := by
  induction entries generalizing symbolicated with
  | nil => exact trivial
  | cons e entries ih =>
      obtain ⟨lib, addresses⟩ := e
      exact (meets_lookUpLib h lib addresses).bind (fun answer _ _ => ih _)

/-- The panics of `/symbolicate/v5` are those of its lookups. -/
theorem meets_queryApi [Platform] (orders : Orders) {getSymbolicationResult : Lookup}
    {withDebugInfo : Bool} (h : LooksUpSafely admitted getSymbolicationResult withDebugInfo)
    (request : Request) (hlibs : ∀ job ∈ request.jobs, job.memoryMap.length ≤ 2 ^ 32) :
    (queryApi orders getSymbolicationResult request withDebugInfo).Meets admitted
      (fun _ => True) := by
  refine (meets_gatherJobs orders.byModuleIndex 0 HashMap.empty request.jobs).bind
    (fun requested hgather hindex => ?_)
  obtain ⟨requested', hgather', hmem, hsome⟩ := gather_spec orders.byModuleIndex hindex
  obtain rfl : requested' = requested := Outcome.ok.inj (hgather'.symm.trans hgather)
  refine (meets_lookUpLibs h HashMap.empty _).bind (fun symbolicated hlookup _ => ?_)
  -- every library that is asked was looked up
  have hanswers : ∀ lib, ∃ answer, (∃ address, Asks request lib address) →
      (lookUpLib getSymbolicationResult withDebugInfo lib (askedAddresses request lib)
        : Call GetSymbolsError _) = .ok answer := by
    intro lib
    by_cases hasked : ∃ address, Asks request lib address
    · obtain ⟨addresses, hget⟩ := Option.isSome_iff_exists.mp ((hsome lib).mpr hasked)
      obtain ⟨lib', hlib, hentry⟩ := HashMap.exists_mem_of_get? hget
      obtain rfl := beq_iff_eq.mp hlib
      obtain ⟨answer, hanswer⟩ :=
        lookUpLib_of_lookUpLibs hlookup (orders.byLib.mem_order.mpr hentry)
      refine ⟨answer, fun _ => ?_⟩
      rw [← hanswer]
      refine lookUpLib_congr _ _ _ (fun a => ?_)
      rw [mem_askedAddresses, ← hmem, hget]
      rfl
    · exact ⟨.error (.invalidBreakpadId lib.breakpadId), fun h => absurd h hasked⟩
  choose answer hanswer using hanswers
  obtain ⟨symbolicated', hlookup', hget, -⟩ := lookUpLibs_spec orders hanswer hmem hsome
  obtain rfl : symbolicated' = symbolicated := Outcome.ok.inj (hlookup'.symm.trans hlookup)
  have hanswered : Answered request answer symbolicated' :=
    ⟨hget, fun lib table hlib htable =>
      (meets_lookUpLib h lib _).of_ok (hanswer lib hlib) table htable⟩
  obtain ⟨response, hresponse, -⟩ := createResponse_eq GetSymbolsError hanswered hindex hlibs
  rw [hresponse]
  exact trivial

end SymbolicateV5

/-! ## `/source/v1` -/

/-- The panics of `/source/v1` are those of its lookup. -/
theorem Source.meets_answer [Platform] {admitted : Panic → Prop} (helper : FileAndPathHelper)
    {getSymbolicationResult : Source.Lookup} (request : Source.Request)
    (h : ∀ debugId, (getSymbolicationResult (Source.symbolicationQuery request debugId)).Meets
      admitted (fun _ => True)) :
    (Source.answer helper getSymbolicationResult request).Meets admitted (fun _ => True) := by
  have hcheck : (Source.requestedFilePath getSymbolicationResult request).Meets admitted
      (fun _ => True) := by
    have hid : (SymbolicateV5.toDebugId request.debugId).Meets admitted (fun _ => True) := by
      rw [SymbolicateV5.toDebugId]
      cases Crates.fromBreakpad request.debugId with
      | none => exact trivial
      | some debugId => exact trivial
    refine (hid.mapErr _).bind (fun debugId _ _ => ?_)
    refine ((h debugId).mapErr _).bind (fun symbolResult _ _ => ?_)
    refine (Outcome.meets_ofExcept (fun _ _ => trivial)).bind (fun frames _ (_ : True) => ?_)
    exact Outcome.meets_ofExcept (fun _ _ => trivial)
  rw [Source.answer, Source.queryApi, Stateful.run_bind, Stateful.run_lift]
  cases hpath : Source.requestedFilePath getSymbolicationResult request with
  | err error => exact trivial
  | panic site => exact hcheck.of_panic hpath
  | unfinished => exact trivial
  | ok filePath => exact Source.meets_readSource helper request filePath []

end Tables

/-! ## Every query and every entry point -/

/-- The panics that the protocol rules out. -/
def protocolPanics : List Panic :=
  [.shouldNotBeCalled, .notASingleAddress, .unexpectedAddress, .addressNotRequested,
    .addressNotInSymbolMap, .noInlineFrames]

theorem ownPanics_not_mem_protocolPanics : OwnPanics (· ∉ protocolPanics) where
  notADebugSection := by decide
  sectionReadFailed := by decide
  charBoundary := by decide
  indexOutOfBounds := by decide
  objectNameNotUtf8 := by decide
  noPdbFrames := by decide
  nulInPdbPath := by decide
  noDebugIdInPe := by decide

section Queries

open Candidates

variable [Crates] [Platform] [Target]

/-- The lookup of an API: each query has a helper and an outside of its own. -/
def lookUp (R : Type) [SymbolicationResult R] (helpers : SymbolicationQuery → FileAndPathHelper)
    (outsides : SymbolicationQuery → Nat → Outside) (fuel : Nat) (query : SymbolicationQuery) :
    Call GetSymbolsError R :=
  getSymbolicationResult R (helpers query) (outsides query) fuel query

/-- **NO API TRIPS OVER THE PROTOCOL**: a query makes permitted calls only, and
    counts the symbols; so no entry point panics at a call, a key or a list of
    frames, as long as no memory map has more than `2 ^ 32` entries. -/
theorem symbolication_keepsProtocol (hpdb : PdbsFindAtOrBefore)
    (helpers : SymbolicationQuery → FileAndPathHelper)
    (outsides : SymbolicationQuery → Nat → Outside) (fuel : Nat) :
    (∀ query : SymbolicationQuery,
      lookUp (Monitor query.resultKind) helpers outsides fuel query ≠ .panic .shouldNotBeCalled ∧
      ∀ m, lookUp (Monitor query.resultKind) helpers outsides fuel query = .ok m →
        m.complete = true) ∧
    ∀ site ∈ protocolPanics,
      (∀ helper outsides debugName debugId,
        getCompactSymbolTable helper outsides fuel debugName debugId ≠ .panic site) ∧
      (∀ orders withDebugInfo (request : SymbolicateV5.Request),
        (∀ job ∈ request.jobs, job.memoryMap.length ≤ 2 ^ 32) →
        SymbolicateV5.queryApi orders (lookUp LookedUpAddresses helpers outsides fuel) request
          withDebugInfo ≠ .panic site) ∧
      ∀ helper (request : Source.Request),
        Source.answer helper (lookUp FramesForSingleAddress helpers outsides fuel) request
          ≠ .panic site := by
  have hown := ownPanics_not_mem_protocolPanics
  refine ⟨fun query => ?_, fun site hsite => ⟨?_, ?_, ?_⟩⟩
  · have hmeets : (lookUp (Monitor query.resultKind) helpers outsides fuel query).Meets
        (· ∉ protocolPanics) (fun m => true = true → m.complete = true) :=
      meets_getSymbolicationResult hown hpdb Monitor.keeps _ _ fuel
    exact ⟨fun h => hmeets.of_panic h (by decide), fun m h => hmeets.of_ok h rfl⟩
  · intro helper outsides debugName debugId h
    exact (meets_getSymbolicationResult hown hpdb CompactSymbolTable.keeps helper outsides
      fuel).of_panic h hsite
  · intro orders withDebugInfo request hlibs h
    -- each library is looked up with the addresses that its table is made for
    have hlookUp : SymbolicateV5.LooksUpSafely (· ∉ protocolPanics)
        (lookUp LookedUpAddresses helpers outsides fuel) withDebugInfo :=
      fun debugName debugId addresses => (meets_getSymbolicationResult hown hpdb
        (LookedUpAddresses.keeps hown.charBoundary addresses withDebugInfo) _ _ fuel).imp
          (fun _ _ htable => htable)
    exact (SymbolicateV5.meets_queryApi orders hlookUp request hlibs).of_panic h hsite
  · intro helper request h
    have hlookUp : ∀ debugId, (lookUp FramesForSingleAddress helpers outsides fuel
        (Source.symbolicationQuery request debugId)).Meets (· ∉ protocolPanics) (fun _ => True) :=
      fun debugId => (meets_getSymbolicationResult hown hpdb
        (FramesForSingleAddress.keeps request.moduleOffset.toNat true) _ _ fuel).imp
          (fun _ _ _ => trivial)
    exact (Source.meets_answer helper request hlookUp).of_panic h hsite

end Queries

/-! ## A PDB with one function -/

section Samples

open Candidates

local instance : Platform := unix

local instance : Target := ⟨64⟩

/-- The function `f` at 0x10, up to 0x20. -/
def oneFunction : PdbContext where
  functions := [⟨0x10, some 0x20, some "f"⟩]
  functionCount := 1
  findFrames address :=
    if 0x10 ≤ address ∧ address < 0x20 then
      .ok (some ⟨0x10, some 0x20, [⟨some "f", some "f.c", some 3⟩]⟩)
    else .ok none
  findFunction address :=
    if 0x10 ≤ address ∧ address < 0x20 then .ok (some ⟨0x10, some 0x20, some "f"⟩) else .ok none

def oneFunctionPdb : Pdb where
  pdbInformation := .ok ⟨List.replicate 16 1, 0⟩
  debugInformation := .ok (some 0)
  namedStream _ := .error .streamNameNotFound
  tryFromPdb := .ok (.ok oneFunction)

/-- Crates to which every file is that PDB. -/
local instance pdbCrates : Crates :=
  { Crates.nothing with
    openPdb := fun _ => .ok oneFunctionPdb
    fromBreakpad := SymbolicateV5.breakpadId }

/-- A helper that finds every file. -/
def oneCandidate : FileAndPathHelper where
  getCandidatePathsForBinaryOrPdb _ _ := .ok [.singleFile (.custom "found")]
  getCandidatePathsForPdb _ _ _ _ := .ok []
  openFile _ := .ok (.zeros 4096)

/-- The same helper every time. -/
def oneCandidateOutside : Outside := fun _ => ⟨oneCandidate, .listed _, .listed _, .listed _⟩

theorem pdbsFindAtOrBefore_pdbCrates : PdbsFindAtOrBefore := by
  intro contents pdb context hopen hcontext
  obtain rfl : oneFunctionPdb = pdb := Except.ok.inj hopen
  obtain rfl : oneFunction = context := Except.ok.inj (Except.ok.inj hcontext)
  constructor
  · intro address functionFrames h
    simp only [oneFunction] at h
    split at h
    · next hin =>
      rw [← Option.some.inj (Except.ok.inj h)]
      exact hin.1
    · cases Except.ok.inj h
  · intro address func h
    simp only [oneFunction] at h
    split at h
    · next hin =>
      rw [← Option.some.inj (Except.ok.inj h)]
      exact hin.1
    · cases Except.ok.inj h

/-- A monitored lookup in the PDB makes permitted calls only, with debug info too. -/
theorem symbolication_keepsProtocol_one_function :
    ∃ m, lookUp (Monitor (.symbolsForAddresses [0x11, 0x30] true)) (fun _ => oneCandidate)
        (fun _ _ => oneCandidateOutside) 0
        ⟨"f.pdb", ⟨List.replicate 16 1, 0⟩, .symbolsForAddresses [0x11, 0x30] true⟩ = .ok m ∧
      m.complete = true :=
  ⟨⟨true⟩, rfl, ((symbolication_keepsProtocol pdbsFindAtOrBefore_pdbCrates (fun _ => oneCandidate)
    (fun _ _ => oneCandidateOutside) 0).1
    ⟨"f.pdb", ⟨List.replicate 16 1, 0⟩, .symbolsForAddresses [0x11, 0x30] true⟩).2 _ rfl⟩

/-- Below the function there is nothing to add. -/
theorem addAddresses_oneFunction {addresses : List Nat} (h : ∀ address ∈ addresses, address < 0x10)
    (r : LookedUpAddresses) (m : PathMapper Windows.SrcSrvPathMapper) :
    Windows.addAddresses oneFunction true addresses r m = .ok r := by
  induction addresses with
  | nil => rfl
  | cons address addresses ih =>
      have hnone : oneFunction.findFrames address = .ok none :=
        if_neg (fun hin => absurd (h address (List.mem_cons_self ..)) (not_lt.mpr hin.1))
      have hstep : Windows.addFunctionFrames oneFunction address r m = .ok (r, m) := by
        rw [Windows.addFunctionFrames, hnone]
        rfl
      rw [Windows.addAddresses, if_pos rfl, hstep]
      exact ih (fun a ha => h a (List.mem_cons_of_mem _ ha))

theorem lookUp_oneFunction {addresses : List Nat} (h : ∀ address ∈ addresses, address < 0x10)
    (debugName : String) :
    lookUp LookedUpAddresses (fun _ => oneCandidate) (fun _ _ => oneCandidateOutside) 0
        ⟨debugName, ⟨List.replicate 16 1, 0⟩, .symbolsForAddresses addresses true⟩
      = .ok { LookedUpAddresses.forAddresses addresses with symbolCount := 1 } := by
  have hcontext : Windows.getSymbolicationResultFromContext LookedUpAddresses
      .noLocalSourceFileAccess oneFunction none
      ⟨debugName, ⟨List.replicate 16 1, 0⟩, .symbolsForAddresses addresses true⟩
      = .ok { LookedUpAddresses.forAddresses addresses with symbolCount := 1 } := by
    show (Windows.addAddresses oneFunction true addresses _ _ >>= _ : Call GetSymbolsError _) = _
    rw [addAddresses_oneFunction h]
    rfl
  show ((Windows.getSymbolicationResultFromContext LookedUpAddresses
    .noLocalSourceFileAccess oneFunction none
    ⟨debugName, ⟨List.replicate 16 1, 0⟩, .symbolsForAddresses addresses true⟩).attempt >>= _
      : Call GetSymbolsError _) = _
  rw [hcontext]
  rfl

/-- The PDB under two names, the second one from index 1 to index `2 ^ 32`. -/
def copiesRequest : SymbolicateV5.Request :=
  SymbolicateV5.wideRequest ⟨"f.pdb", "010101010101010101010101010101010"⟩
    ⟨"g.pdb", "010101010101010101010101010101010"⟩ (2 ^ 32 - 1)

/-- Without the bound an entry point does: with `2 ^ 32 + 1` entries in its
    memory map, a request makes a table that lacks the address of a frame. -/
theorem not_symbolication_keepsProtocol :
    PdbsFindAtOrBefore ∧
    SymbolicateV5.queryApi .listed (lookUp LookedUpAddresses (fun _ => oneCandidate)
        (fun _ _ => oneCandidateOutside) 0) copiesRequest true
      = .panic .addressNotInSymbolMap := by
  refine ⟨pdbsFindAtOrBefore_pdbCrates, ?_⟩
  -- no address lies in the function, so the tables hold empty slots
  have hbelow : ∀ lib, ∀ address ∈ SymbolicateV5.sortAndDedup
      (SymbolicateV5.askedAddresses copiesRequest lib), address < 0x10 := by
    intro lib address haddress
    have hasks := SymbolicateV5.mem_askedAddresses.mp
      (SymbolicateV5.mem_sortAndDedup.mp haddress)
    rcases SymbolicateV5.asks_wideRequest.mp hasks with ⟨-, rfl⟩ | ⟨-, rfl⟩
    · decide
    · decide
  have hlookUp : ∀ lib, (∃ address, SymbolicateV5.Asks copiesRequest lib address) →
      (SymbolicateV5.lookUpLib (lookUp LookedUpAddresses (fun _ => oneCandidate)
        (fun _ _ => oneCandidateOutside) 0) true lib
        (SymbolicateV5.askedAddresses copiesRequest lib) : Call GetSymbolsError _)
      = .ok (.ok { LookedUpAddresses.forAddresses (SymbolicateV5.sortAndDedup
          (SymbolicateV5.askedAddresses copiesRequest lib)) with symbolCount := 1 }) := by
    rintro lib ⟨address, hasks⟩
    have hid : SymbolicateV5.breakpadId lib.breakpadId = some ⟨List.replicate 16 1, 0⟩ := by
      rcases SymbolicateV5.asks_wideRequest.mp hasks with ⟨rfl, -⟩ | ⟨rfl, -⟩
      · decide
      · decide
    have hdebugId : (SymbolicateV5.toDebugId lib.breakpadId : Call GetSymbolsError _)
        = .ok ⟨List.replicate 16 1, 0⟩ := by
      unfold SymbolicateV5.toDebugId
      rw [show Crates.fromBreakpad lib.breakpadId = _ from hid]
    rw [SymbolicateV5.lookUpLib, hdebugId, Outcome.ok_bind, lookUp_oneFunction (hbelow lib)]
    rfl
  exact SymbolicateV5.wideRequest_panics (by decide) (Nat.sub_add_cancel Nat.one_le_two_pow)
    hlookUp rfl (SymbolicateV5.BuiltFor.setTotalSymbolCount 1 .forAddresses).answerable

end Samples

end ProfilerGetSymbols
