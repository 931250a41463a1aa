import ProfilerGetSymbols.SymbolicateV5

/-! # The v5 response answers the request frame by frame

    Between a request and its response the addresses are regrouped twice, by
    module index within a job and by library over all jobs, and then looked up
    again frame by frame.  The regrouping loses nothing (`gather_spec`), every
    library is looked up once for exactly the addresses asked of it
    (`lookUpLibs_spec`), and a table built by the lookup has a slot for each of
    them (`BuiltFor.answerable`).  So every frame finds what the lookup of its
    library holds for its address, whatever the iteration orders.

    Two counters are 32 bits wide: a frame's index and a module's.  Beyond
    `2 ^ 32` frames in a stack or entries in a memory map they wrap. -/

namespace ProfilerGetSymbols.SymbolicateV5

open ProgLib LookedUpAddresses

/-! ## What is asked -/

/-- A frame of the request asks library `lib` for `address`. -/
def Asks (request : Request) (lib : Lib) (address : Nat) : Prop :=
  ∃ job ∈ request.jobs, ∃ frame ∈ jobFrames job,
    job.memoryMap[frame.moduleIndex.toNat]? = some lib ∧ frame.address.toNat = address

/-- The addresses asked of a library, in the order of the request. -/
def askedAddresses (request : Request) (lib : Lib) : List Nat :=
  request.jobs.flatMap (fun job =>
    ((jobFrames job).filter
      (fun frame => job.memoryMap[frame.moduleIndex.toNat]? = some lib)).map (·.address.toNat))

/-- Every module index lies inside its job's memory map. -/
def IndicesValid (request : Request) : Prop :=
  ∀ job ∈ request.jobs, ∀ frame ∈ jobFrames job,
    frame.moduleIndex.toNat < job.memoryMap.length

instance (request : Request) : Decidable (IndicesValid request) :=
  inferInstanceAs (Decidable (∀ job ∈ request.jobs, ∀ frame ∈ jobFrames job,
    frame.moduleIndex.toNat < job.memoryMap.length))

theorem mem_askedAddresses {request : Request} {lib : Lib} {address : Nat} :
    address ∈ askedAddresses request lib ↔ Asks request lib address := by
  unfold askedAddresses Asks
  simp only [List.mem_flatMap, List.mem_map, List.mem_filter, decide_eq_true_eq, and_assoc]

theorem mem_sortAndDedup {addresses : List Nat} {address : Nat} :
    address ∈ sortAndDedup addresses ↔ address ∈ addresses := by
  have hkey := mem_map_firstByKey id (l := addresses) (k := address)
  rwa [List.map_id, List.map_id] at hkey

/-! ## Gathering loses nothing -/

theorem addressesByModuleIndex_eq (job : Request.Job) :
    addressesByModuleIndex job = HashMap.pushAll HashMap.empty
      ((jobFrames job).map (fun frame => (frame.moduleIndex.toNat, [frame.address.toNat]))) := by
  rw [addressesByModuleIndex, HashMap.pushAll, List.foldl_map]

/-- The entries of a job's first pass: an address is under an index iff some
    frame says so, and there is none without addresses. -/
theorem mem_entries_addressesByModuleIndex (job : Request.Job) :
    (∀ frame ∈ jobFrames job, ∃ addresses,
      (frame.moduleIndex.toNat, addresses) ∈ (addressesByModuleIndex job).entries ∧
        frame.address.toNat ∈ addresses) ∧
    (∀ e ∈ (addressesByModuleIndex job).entries,
      (∀ address ∈ e.2, ∃ frame ∈ jobFrames job,
        frame.moduleIndex.toNat = e.1 ∧ frame.address.toNat = address) ∧
      ∃ frame ∈ jobFrames job, frame.moduleIndex.toNat = e.1) := by
  rw [addressesByModuleIndex_eq]
  constructor
  · -- every frame finds its address under its module index
    intro frame hframe
    have hmem := (HashMap.mem_pushAll HashMap.empty
      ((jobFrames job).map (fun frame => (frame.moduleIndex.toNat, [frame.address.toNat])))
      frame.moduleIndex.toNat frame.address.toNat).mpr
      (Or.inr ⟨_, List.mem_map_of_mem hframe, rfl, by simp⟩)
    cases hget : (HashMap.pushAll HashMap.empty ((jobFrames job).map
        (fun frame => (frame.moduleIndex.toNat, [frame.address.toNat])))).get?
        frame.moduleIndex.toNat with
    | none => rw [hget] at hmem; cases hmem
    | some addresses =>
        rw [hget] at hmem
        obtain ⟨k, hk, hentry⟩ := HashMap.exists_mem_of_get? hget
        rw [beq_iff_eq] at hk
        exact ⟨addresses, hk ▸ hentry, hmem⟩
  · -- and nothing is there but what some frame has put there
    rintro ⟨k, addresses⟩ he
    have hget := HashMap.get?_of_mem he
    refine ⟨?_, ?_⟩
    · intro address haddress
      have hmem := (HashMap.mem_pushAll HashMap.empty ((jobFrames job).map
        (fun frame => (frame.moduleIndex.toNat, [frame.address.toNat]))) k address).mp
        (by rw [hget]; exact haddress)
      rcases hmem with h | ⟨e, he', hk, hv⟩
      · cases h
      · obtain ⟨frame, hframe, rfl⟩ := List.mem_map.mp he'
        exact ⟨frame, hframe, hk, (List.mem_singleton.mp hv).symm⟩
    · have hsome := (HashMap.isSome_pushAll HashMap.empty ((jobFrames job).map
        (fun frame => (frame.moduleIndex.toNat, [frame.address.toNat]))) k).mp
        (by rw [hget]; rfl)
      rcases hsome with h | ⟨e, he', hk⟩
      · cases h
      · obtain ⟨frame, hframe, rfl⟩ := List.mem_map.mp he'
        exact ⟨frame, hframe, hk⟩

/-- The second pass, where every index is valid. -/
theorem extendRequested_eq (job : Request.Job) (entries : List (Nat × List Nat))
    (h : ∀ e ∈ entries, ∃ lib, job.memoryMap[e.1]? = some lib)
    (requested : HashMap Lib (List Nat)) :
    ∃ groups : List (Lib × List Nat), extendRequested job requested entries
        = .ok (requested.pushAll groups) ∧
      ∀ lib addresses, (lib, addresses) ∈ groups ↔
        ∃ index, (index, addresses) ∈ entries ∧ job.memoryMap[index]? = some lib := by
  induction entries generalizing requested with
  | nil => exact ⟨[], rfl, by simp⟩
  | cons e entries ih =>
      obtain ⟨index, addresses⟩ := e
      obtain ⟨lib, hlib⟩ := h _ (List.mem_cons_self ..)
      obtain ⟨groups, hrun, hgroups⟩ := ih (fun e he => h e (List.mem_cons_of_mem _ he))
        (requested.entryOrInsertWith lib [] (· ++ addresses))
      refine ⟨(lib, addresses) :: groups, ?_, ?_⟩
      · rw [extendRequested, hlib]
        exact hrun
      · intro lib' addresses'
        rw [List.mem_cons, hgroups]
        constructor
        · rintro (heq | ⟨index', hmem, hlib'⟩)
          · obtain ⟨rfl, rfl⟩ := Prod.mk.inj heq
            exact ⟨index, List.mem_cons_self .., hlib⟩
          · exact ⟨index', List.mem_cons_of_mem _ hmem, hlib'⟩
        · rintro ⟨index', hmem, hlib'⟩
          rcases List.mem_cons.mp hmem with heq | hmem
          · obtain ⟨rfl, rfl⟩ := Prod.mk.inj heq
            rw [hlib, Option.some.injEq] at hlib'
            exact Or.inl (by rw [hlib'])
          · exact Or.inr ⟨index', hmem, hlib'⟩

/-- A frame of one of `jobs` asks library `lib` for `address`. -/
def JobsAsk (jobs : List Request.Job) (lib : Lib) (address : Nat) : Prop :=
  ∃ job ∈ jobs, ∃ frame ∈ jobFrames job,
    job.memoryMap[frame.moduleIndex.toNat]? = some lib ∧ frame.address.toNat = address

/-- One job's contribution. -/
theorem extendRequested_spec (order : IterOrder (Nat × List Nat)) {job : Request.Job}
    (h : ∀ frame ∈ jobFrames job, frame.moduleIndex.toNat < job.memoryMap.length)
    (requested : HashMap Lib (List Nat)) :
    ∃ requested', extendRequested job requested
        (order.order (addressesByModuleIndex job).entries) = .ok requested' ∧
      (∀ lib address, address ∈ (requested'.get? lib).getD [] ↔
        address ∈ (requested.get? lib).getD [] ∨ JobsAsk [job] lib address) ∧
      (∀ lib, (requested'.get? lib).isSome ↔
        (requested.get? lib).isSome ∨ ∃ address, JobsAsk [job] lib address) := by
  obtain ⟨hframes, hentries⟩ := mem_entries_addressesByModuleIndex job
  obtain ⟨groups, hrun, hgroups⟩ := extendRequested_eq job
    (order.order (addressesByModuleIndex job).entries) (by
      intro e he
      obtain ⟨frame, hframe, hindex⟩ := (hentries e (order.mem_order.mp he)).2
      exact ⟨_, List.getElem?_eq_getElem (hindex ▸ h frame hframe)⟩) requested
  refine ⟨_, hrun, ?_, ?_⟩
  · intro lib address
    rw [HashMap.mem_pushAll]
    refine or_congr_right ?_
    constructor
    · -- an address in a group is some frame's
      rintro ⟨⟨lib', addresses⟩, hgroup, rfl, haddress⟩
      obtain ⟨index, hentry, hlib⟩ := (hgroups _ _).mp hgroup
      obtain ⟨frame, hframe, hindex, hfa⟩ :=
        (hentries _ (order.mem_order.mp hentry)).1 address haddress
      exact ⟨job, List.mem_singleton_self _, frame, hframe, by rw [hindex]; exact hlib, hfa⟩
    · rintro ⟨job', hjob, frame, hframe, hlib, rfl⟩
      obtain rfl := List.mem_singleton.mp hjob
      obtain ⟨addresses, hentry, haddress⟩ := hframes frame hframe
      exact ⟨(lib, addresses), (hgroups _ _).mpr ⟨_, order.mem_order.mpr hentry, hlib⟩, rfl,
        haddress⟩
  · intro lib
    rw [HashMap.isSome_pushAll]
    refine or_congr_right ?_
    constructor
    · rintro ⟨⟨lib', addresses⟩, hgroup, rfl⟩
      obtain ⟨index, hentry, hlib⟩ := (hgroups _ _).mp hgroup
      obtain ⟨frame, hframe, hindex⟩ := (hentries _ (order.mem_order.mp hentry)).2
      exact ⟨_, job, List.mem_singleton_self _, frame, hframe, by rw [hindex]; exact hlib, rfl⟩
    · rintro ⟨address, job', hjob, frame, hframe, hlib, rfl⟩
      obtain rfl := List.mem_singleton.mp hjob
      obtain ⟨addresses, hentry, -⟩ := hframes frame hframe
      exact ⟨(lib, addresses), (hgroups _ _).mpr ⟨_, order.mem_order.mpr hentry, hlib⟩, rfl⟩

theorem jobsAsk_cons {job : Request.Job} {jobs : List Request.Job} {lib : Lib} {address : Nat} :
    JobsAsk (job :: jobs) lib address ↔ JobsAsk [job] lib address ∨ JobsAsk jobs lib address := by
  unfold JobsAsk
  simp only [List.mem_cons, List.not_mem_nil, or_false, exists_eq_or_imp, exists_eq_left]

theorem gatherJobs_spec (orders : Nat → IterOrder (Nat × List Nat)) (position : Nat)
    {jobs : List Request.Job}
    (h : ∀ job ∈ jobs, ∀ frame ∈ jobFrames job,
      frame.moduleIndex.toNat < job.memoryMap.length) (requested : HashMap Lib (List Nat)) :
    ∃ requested', gatherJobs orders position requested jobs = .ok requested' ∧
      (∀ lib address, address ∈ (requested'.get? lib).getD [] ↔
        address ∈ (requested.get? lib).getD [] ∨ JobsAsk jobs lib address) ∧
      (∀ lib, (requested'.get? lib).isSome ↔
        (requested.get? lib).isSome ∨ ∃ address, JobsAsk jobs lib address) := by
  induction jobs generalizing position requested with
  | nil => exact ⟨requested, rfl, by simp [JobsAsk], by simp [JobsAsk]⟩
  | cons job jobs ih =>
      obtain ⟨requested₁, hrun₁, hmem₁, hsome₁⟩ := extendRequested_spec (orders position)
        (h job (List.mem_cons_self ..)) requested
      obtain ⟨requested₂, hrun₂, hmem₂, hsome₂⟩ := ih (position + 1)
        (fun job' hjob => h job' (List.mem_cons_of_mem _ hjob)) requested₁
      refine ⟨requested₂, ?_, ?_, ?_⟩
      · rw [gatherJobs, hrun₁]
        exact hrun₂
      · intro lib address
        rw [hmem₂, hmem₁, or_assoc, ← jobsAsk_cons]
      · intro lib
        rw [hsome₂, hsome₁, or_assoc, ← exists_or]
        simp only [← jobsAsk_cons]

/-- **GATHERING LOSES NOTHING**: under each library exactly the addresses asked
    of it, and no library that is not asked. -/
theorem gather_spec (orders : Nat → IterOrder (Nat × List Nat)) {request : Request}
    (h : IndicesValid request) :
    ∃ requested, gatherRequestedAddresses orders request = .ok requested ∧
      (∀ lib address, address ∈ (requested.get? lib).getD [] ↔ Asks request lib address) ∧
      (∀ lib, (requested.get? lib).isSome ↔ ∃ address, Asks request lib address) := by
  obtain ⟨requested, hrun, hmem, hsome⟩ := gatherJobs_spec orders 0 h HashMap.empty
  refine ⟨requested, hrun, ?_, ?_⟩
  · intro lib address
    rw [hmem]
    simp [JobsAsk, Asks]
  · intro lib
    rw [hsome]
    simp [JobsAsk, Asks]

section Answers

variable [Crates] {ε : Type}

/-! ## A table has a slot for every address -/

/-- A table made by `for_addresses` and any calls for its addresses. -/
inductive BuiltFor (addresses : List Nat) : LookedUpAddresses → Prop where
  | forAddresses : BuiltFor addresses (forAddresses addresses)
  | addAddressSymbol {result result' : LookedUpAddresses} {address symbolAddress : Nat}
      {symbolName : String} {functionSize : Option Nat} :
      BuiltFor addresses result → address ∈ addresses → symbolAddress ≤ address →
      (addAddressSymbol result address symbolAddress symbolName functionSize : Call Empty _)
        = .ok result' →
      BuiltFor addresses result'
  | addAddressDebugInfo {result result' : LookedUpAddresses} {address : Nat}
      {info : AddressDebugInfo} :
      BuiltFor addresses result → address ∈ addresses → info.frames ≠ [] →
      (addAddressDebugInfo result address info : Call Empty _) = .ok result' →
      BuiltFor addresses result'
  | setTotalSymbolCount {result : LookedUpAddresses} (count : Nat) :
      BuiltFor addresses result → BuiltFor addresses { result with symbolCount := count }

/-- What a lookup holds for an address. -/
def held (answer : Except GetSymbolsError LookedUpAddresses) (address : Nat) :
    Option AddressResult :=
  match answer with
  | .ok table => (table.addressResults.get? address).join
  | .error _ => none

/-- The invariant of a table made for `addresses`. -/
structure Answerable (addresses : List Nat) (table : LookedUpAddresses) : Prop where
  has : ∀ address, table.Has address ↔ address ∈ addresses
  slots : ∀ address result, table.addressResults.get? address = some (some result) →
    result.symbolAddress ≤ address ∧ result.inlineFrames ≠ some []

omit [Crates] in
/-- Writing a good slot keeps the invariant. -/
theorem Answerable.setSlot {addresses : List Nat} {table : LookedUpAddresses}
    (h : Answerable addresses table) {address : Nat} (haddress : address ∈ addresses)
    {slot : AddressResult} (hle : slot.symbolAddress ≤ address)
    (hframes : slot.inlineFrames ≠ some []) : Answerable addresses (table.setSlot address slot) where
  has a := (has_setSlot ((h.has address).mpr haddress) slot a).trans (h.has a)
  slots := by
    intro a result hget
    by_cases ha : address = a
    · subst ha
      rw [get?_setSlot_self, Option.some.injEq, Option.some.injEq] at hget
      exact hget ▸ ⟨hle, hframes⟩
    · rw [get?_setSlot_of_ne table slot ha] at hget
      exact h.slots a result hget

omit [Crates] in
/-- So does writing frames, over whatever the slot holds. -/
theorem Answerable.setFrames {addresses : List Nat} {table : LookedUpAddresses}
    (h : Answerable addresses table) {address : Nat} (haddress : address ∈ addresses)
    {entry : Option AddressResult} (hentry : table.addressResults.get? address = some entry)
    {frames : List InlineStackFrame} (hframes : frames ≠ []) :
    Answerable addresses (table.setSlot address (withFrames address frames entry)) := by
  refine h.setSlot haddress ?_ ?_
  · cases entry with
    | none => exact le_refl _
    | some slot => exact (h.slots _ _ hentry).1
  · cases entry with
    | none => simpa [withFrames] using hframes
    | some slot => simpa [withFrames] using hframes

theorem BuiltFor.answerable {addresses : List Nat} {table : LookedUpAddresses}
    (h : BuiltFor addresses table) : Answerable addresses table := by
  induction h with
  | forAddresses =>
      refine ⟨fun a => has_forAddresses, ?_⟩
      intro a result hget
      rw [get?_forAddresses] at hget
      split at hget
      · cases Option.some.inj hget
      · cases hget
  | addAddressSymbol _ haddress hle hcall ih =>
      obtain ⟨name, -, -, rfl⟩ := addAddressSymbol_eq_ok.mp hcall
      exact ih.setSlot haddress hle (fun h => by cases h)
  | addAddressDebugInfo _ haddress hframes hcall ih =>
      obtain ⟨entry, hentry, rfl⟩ := addAddressDebugInfo_eq_ok.mp hcall
      exact ih.setFrames haddress hentry hframes
  | setTotalSymbolCount count _ ih => exact ⟨ih.has, ih.slots⟩

/-! ## Every library is looked up once -/

/-- `answer` is what the lookup says of each library that is asked. -/
structure Looks (getSymbolicationResult : Lookup) (withDebugInfo : Bool) (request : Request)
    (answer : Lib → Except GetSymbolsError LookedUpAddresses) : Prop where
  lookUp : ∀ lib, (∃ address, Asks request lib address) →
    (lookUpLib getSymbolicationResult withDebugInfo lib (askedAddresses request lib)
      : Call GetSymbolsError _) = .ok (answer lib)
  built : ∀ lib table, (∃ address, Asks request lib address) → answer lib = .ok table →
    BuiltFor (sortAndDedup (askedAddresses request lib)) table

/-- A lookup only sees which addresses are asked. -/
theorem lookUpLib_congr (getSymbolicationResult : Lookup) (withDebugInfo : Bool) (lib : Lib)
    {addresses addresses' : List Nat} (h : ∀ a, a ∈ addresses ↔ a ∈ addresses') :
    (lookUpLib getSymbolicationResult withDebugInfo lib addresses : Call ε _)
      = lookUpLib getSymbolicationResult withDebugInfo lib addresses' := by
  unfold lookUpLib sortAndDedup
  rw [firstByKey_id_congr h]

theorem lookUpLibs_eq {getSymbolicationResult : Lookup} {withDebugInfo : Bool}
    {answer : Lib → Except GetSymbolsError LookedUpAddresses} {entries : List (Lib × List Nat)}
    (h : ∀ e ∈ entries, (lookUpLib getSymbolicationResult withDebugInfo e.1 e.2 : Call ε _)
      = .ok (answer e.1)) (symbolicated : HashMap Lib (Except GetSymbolsError LookedUpAddresses)) :
    (lookUpLibs getSymbolicationResult withDebugInfo symbolicated entries : Call ε _)
      = .ok (entries.foldl (fun m e => m.insert e.1 (answer e.1)) symbolicated) := by
  induction entries generalizing symbolicated with
  | nil => rfl
  | cons e entries ih =>
      obtain ⟨lib, addresses⟩ := e
      rw [lookUpLibs, h _ (List.mem_cons_self ..), Outcome.ok_bind,
        ih (fun e he => h e (List.mem_cons_of_mem _ he)), List.foldl_cons]

/-- If the loop ends, so did the lookup of each library. -/
theorem lookUpLib_of_lookUpLibs {getSymbolicationResult : Lookup} {withDebugInfo : Bool}
    {entries : List (Lib × List Nat)}
    {symbolicated symbolicated' : HashMap Lib (Except GetSymbolsError LookedUpAddresses)}
    (h : (lookUpLibs getSymbolicationResult withDebugInfo symbolicated entries : Call ε _)
      = .ok symbolicated') {e : Lib × List Nat} (he : e ∈ entries) :
    ∃ answer, (lookUpLib getSymbolicationResult withDebugInfo e.1 e.2 : Call ε _) = .ok answer := by
  induction entries generalizing symbolicated with
  | nil => cases he
  | cons e' entries ih =>
      obtain ⟨lib, addresses⟩ := e'
      obtain ⟨answer, hanswer, hrest⟩ := Outcome.bind_eq_ok.mp h
      rcases List.mem_cons.mp he with rfl | hmem
      · exact ⟨answer, hanswer⟩
      · exact ih hrest hmem

/-- The answers by library: what the lookup says of those that are asked. -/
theorem lookUpLibs_spec (orders : Orders) {getSymbolicationResult : Lookup} {withDebugInfo : Bool}
    {request : Request} {answer : Lib → Except GetSymbolsError LookedUpAddresses}
    (hlookUp : ∀ lib, (∃ address, Asks request lib address) →
      (lookUpLib getSymbolicationResult withDebugInfo lib (askedAddresses request lib)
        : Call GetSymbolsError _) = .ok (answer lib))
    {requested : HashMap Lib (List Nat)}
    (hmem : ∀ lib address, address ∈ (requested.get? lib).getD [] ↔ Asks request lib address)
    (hsome : ∀ lib, (requested.get? lib).isSome ↔ ∃ address, Asks request lib address) :
    ∃ symbolicated, (symbolicateRequestedAddresses orders.byLib getSymbolicationResult requested
        withDebugInfo : Call GetSymbolsError _) = .ok symbolicated ∧
      (∀ lib, (∃ address, Asks request lib address) →
        symbolicated.get? lib = some (answer lib)) ∧
      (∀ lib, (¬ ∃ address, Asks request lib address) → symbolicated.get? lib = none) := by
  -- each entry is looked up with the addresses that are asked in its library
  have hentries : ∀ e ∈ orders.byLib.order requested.entries,
      (lookUpLib getSymbolicationResult withDebugInfo e.1 e.2 : Call GetSymbolsError _)
        = .ok (answer e.1) := by
    rintro ⟨lib, addresses⟩ he
    have hget := HashMap.get?_of_mem (orders.byLib.mem_order.mp he)
    have hasked := (hsome lib).mp (by rw [hget]; rfl)
    rw [← hlookUp lib hasked]
    refine lookUpLib_congr _ _ _ (fun a => ?_)
    rw [mem_askedAddresses, ← hmem, hget]
    rfl
  refine ⟨_, lookUpLibs_eq hentries HashMap.empty, ?_, ?_⟩
  · intro lib hlib
    have hkey : lib ∈ (orders.byLib.order requested.entries).map Prod.fst := by
      obtain ⟨addresses, hget⟩ := Option.isSome_iff_exists.mp ((hsome lib).mpr hlib)
      obtain ⟨lib', hlib', hentry⟩ := HashMap.exists_mem_of_get? hget
      rw [beq_iff_eq] at hlib'
      exact List.mem_map.mpr ⟨_, orders.byLib.mem_order.mpr hentry, hlib'⟩
    rw [HashMap.get?_foldl_insert _ Prod.fst answer, if_pos hkey]
  · intro lib hlib
    have hkey : lib ∉ (orders.byLib.order requested.entries).map Prod.fst := by
      intro hmem
      obtain ⟨e, he, rfl⟩ := List.mem_map.mp hmem
      have hget := HashMap.get?_of_mem (orders.byLib.mem_order.mp he)
      exact hlib ((hsome e.1).mp (by rw [hget]; rfl))
    rw [HashMap.get?_foldl_insert _ Prod.fst answer, if_neg hkey]
    rfl

/-! ## Every frame is answered -/

variable [Paths.Platform]

/-- Debug info as the response gives it: the outer frame, and the inlined ones. -/
def expectedDebugInfo (frames : List InlineStackFrame) : Response.DebugInfo where
  file := frames.getLast?.bind (fun outer => outer.filePath.map (·.mappedPath))
  line := frames.getLast?.bind (·.lineNumber)
  inlines := frames.dropLast.map inlineFrame

def expectedSymbol (address : Nat) (result : AddressResult) : Response.Symbol where
  function := result.symbolName
  functionOffset := address - result.symbolAddress
  functionSize := result.functionSize
  debugInfo := result.inlineFrames.map expectedDebugInfo

/-- The answer to a frame, with its index as `index` gives it. -/
def expectedFrame (index : Nat → Nat) (answer : Lib → Except GetSymbolsError LookedUpAddresses)
    (job : Request.Job) (entry : Request.StackFrame × Nat) : Response.StackFrame where
  frame := index entry.2
  moduleOffset := entry.1.address.toNat
  module := (job.memoryMap[entry.1.moduleIndex.toNat]?).elim "" (·.debugName)
  symbol := (job.memoryMap[entry.1.moduleIndex.toNat]?).bind (fun lib =>
    (held (answer lib) entry.1.address.toNat).map (expectedSymbol entry.1.address.toNat))

/-- One list of stacks per job, one stack per stack, one frame per frame. -/
def expectedStacks (index : Nat → Nat) (answer : Lib → Except GetSymbolsError LookedUpAddresses)
    (request : Request) : List (List (List Response.StackFrame)) :=
  request.jobs.map (fun job =>
    job.callStacks.map (fun stack => stack.zipIdx.map (expectedFrame index answer job)))

/-- Every frame of the response is the answer to its frame of the request. -/
def AnswersFrameByFrame (answer : Lib → Except GetSymbolsError LookedUpAddresses)
    (request : Request) (response : Response) : Prop :=
  response.results.map (·.callStacks) = expectedStacks id answer request

/-- The table of symbols for a module, if its lookup succeeded. -/
def moduleTable (symbolicated : HashMap Lib (Except GetSymbolsError LookedUpAddresses))
    (lib : Lib) : Option AddressResults :=
  match symbolicated.get? lib with
  | some (.ok symbols) => some symbols.addressResults
  | _ => none

theorem get?_addModule (symbolicated : HashMap Lib (Except GetSymbolsError LookedUpAddresses))
    (modules : JobModules) (lib : Lib) (moduleIndex index : Nat) :
    (addModule symbolicated modules (lib, moduleIndex)).symbolsByModuleIndex.get? index
      = if (moduleTable symbolicated lib).isSome ∧ asU32 moduleIndex = index
        then moduleTable symbolicated lib else modules.symbolsByModuleIndex.get? index := by
  unfold addModule moduleTable
  cases hget : symbolicated.get? lib with
  | none => simp [hget]
  | some result =>
      cases result with
      | error err => simp [hget]
      | ok symbols =>
          by_cases hindex : asU32 moduleIndex = index
          · subst hindex
            simp [hget]
          · simp [hget, hindex, HashMap.get?_insert_of_ne _ _ (beq_false_of_ne hindex)]

theorem jobModules_concat (symbolicated : HashMap Lib (Except GetSymbolsError LookedUpAddresses))
    (memoryMap : List Lib) (lib : Lib) :
    jobModules symbolicated (memoryMap ++ [lib])
      = addModule symbolicated (jobModules symbolicated memoryMap) (lib, memoryMap.length) := by
  unfold jobModules
  rw [List.zipIdx_append, List.foldl_append]
  simp

/-- **THE TABLES BY MODULE INDEX**: with at most `2 ^ 32` modules, an index leads
    to the table of the module at that index. -/
theorem get?_jobModules (symbolicated : HashMap Lib (Except GetSymbolsError LookedUpAddresses))
    {memoryMap : List Lib} (h : memoryMap.length ≤ 2 ^ 32) (index : Nat) :
    (jobModules symbolicated memoryMap).symbolsByModuleIndex.get? index
      = (memoryMap[index]?).bind (moduleTable symbolicated) := by
  induction memoryMap using List.reverseRecOn with
  | nil => rfl
  | append_singleton memoryMap lib ih =>
      rw [List.length_append, List.length_singleton] at h
      have hasU32 : asU32 memoryMap.length = memoryMap.length := asU32_of_lt (by omega)
      rw [jobModules_concat, get?_addModule, ih (by omega), hasU32]
      rcases Nat.lt_trichotomy index memoryMap.length with hlt | rfl | hgt
      · rw [if_neg (by omega), List.getElem?_append_left hlt]
      · rw [List.getElem?_append_right (le_refl _), Nat.sub_self,
          List.getElem?_eq_none (le_refl _)]
        cases htable : moduleTable symbolicated lib with
        | none => simp [htable]
        | some table => simp [htable]
      · rw [if_neg (by omega), List.getElem?_eq_none (by omega),
          List.getElem?_eq_none (by simp; omega)]

omit [Crates] in
/-- A well-formed slot makes a symbol without a panic. -/
theorem symbolForResult_eq {address : Nat} {result : AddressResult}
    (haddress : address < 2 ^ 32) (hle : result.symbolAddress ≤ address)
    (hframes : result.inlineFrames ≠ some []) :
    (symbolForResult address result : Call ε _) = .ok (expectedSymbol address result) := by
  unfold symbolForResult expectedSymbol
  rw [u32Sub_of_le hle haddress]
  cases hinline : result.inlineFrames with
  | none => rfl
  | some frames =>
      obtain ⟨outer, hlast⟩ : ∃ outer, frames.getLast? = some outer := by
        cases hlast : frames.getLast? with
        | none =>
            rw [List.getLast?_eq_none_iff] at hlast
            exact absurd (by rw [hinline, hlast]) hframes
        | some outer => exact ⟨outer, rfl⟩
      have hinfo : (debugInfo frames : Call ε _) = .ok (expectedDebugInfo frames) := by
        unfold debugInfo expectedDebugInfo
        rw [hlast]
        rfl
      show (some <$> (debugInfo frames : Call ε _) >>= _) = _
      rw [hinfo]
      rfl

omit [Crates] in
/-- A frame with a slot has the symbol of the slot. -/
theorem symbolForFrame_of_slot {frame : Request.StackFrame} {tables : HashMap Nat AddressResults}
    {table : AddressResults} {slot : Option AddressResult}
    (htable : tables.get? frame.moduleIndex.toNat = some table)
    (hslot : table.get? frame.address.toNat = some slot) :
    (symbolForFrame frame tables : Call ε _)
      = slot.elim (.ok none) (fun result => some <$> symbolForResult frame.address.toNat result) := by
  rw [symbolForFrame, htable]
  show (Outcome.unwrap _ (table.get? frame.address.toNat) >>= _ : Call ε _) = _
  rw [hslot]
  cases slot with
  | none => rfl
  | some result => rfl

/-- The answers are there for whatever the request asks. -/
structure Answered (request : Request) (answer : Lib → Except GetSymbolsError LookedUpAddresses)
    (symbolicated : HashMap Lib (Except GetSymbolsError LookedUpAddresses)) : Prop where
  get? : ∀ lib, (∃ address, Asks request lib address) →
    symbolicated.get? lib = some (answer lib)
  answerable : ∀ lib table, (∃ address, Asks request lib address) → answer lib = .ok table →
    Answerable (sortAndDedup (askedAddresses request lib)) table

omit [Crates] in
/-- A frame finds the symbol that the lookup of its library holds. -/
theorem responseFrame_eq {request : Request}
    {answer : Lib → Except GetSymbolsError LookedUpAddresses}
    {symbolicated : HashMap Lib (Except GetSymbolsError LookedUpAddresses)}
    (h : Answered request answer symbolicated) {job : Request.Job} (hjob : job ∈ request.jobs)
    {entry : Request.StackFrame × Nat} (hframe : entry.1 ∈ jobFrames job)
    {tables : HashMap Nat AddressResults}
    (htables : ∀ index, tables.get? index
      = (job.memoryMap[index]?).bind (moduleTable symbolicated))
    (hindex : entry.1.moduleIndex.toNat < job.memoryMap.length) :
    (responseFrameForRequestFrame job.memoryMap tables entry : Call ε _)
      = .ok (expectedFrame asU32 answer job entry) := by
  obtain ⟨frame, frameIndex⟩ := entry
  have hlib : job.memoryMap[frame.moduleIndex.toNat]?
      = some job.memoryMap[frame.moduleIndex.toNat] := List.getElem?_eq_getElem hindex
  generalize job.memoryMap[frame.moduleIndex.toNat] = lib at hlib
  have hasks : Asks request lib frame.address.toNat := ⟨job, hjob, frame, hframe, hlib, rfl⟩
  have hget := h.get? lib ⟨_, hasks⟩
  have hsymbol : (symbolForFrame frame tables : Call ε _)
      = .ok ((held (answer lib) frame.address.toNat).map
          (expectedSymbol frame.address.toNat)) := by
    have htable := htables frame.moduleIndex.toNat
    rw [hlib, Option.bind_some, moduleTable, hget] at htable
    cases hanswer : answer lib with
    | error err =>
        rw [hanswer] at htable
        rw [symbolForFrame, htable]
        rfl
    | ok table =>
        rw [hanswer] at htable
        -- the address was asked for, so the table has a slot for it
        have hgood := h.answerable lib table ⟨_, hasks⟩ hanswer
        have hmem : frame.address.toNat ∈ sortAndDedup (askedAddresses request lib) :=
          mem_sortAndDedup.mpr (mem_askedAddresses.mpr hasks)
        obtain ⟨slot, hslot⟩ := Option.isSome_iff_exists.mp ((hgood.has _).mpr hmem)
        rw [symbolForFrame_of_slot htable hslot, held, hslot]
        cases slot with
        | none => rfl
        | some result =>
            obtain ⟨hle, hframes⟩ := hgood.slots _ _ hslot
            rw [Option.elim_some, symbolForResult_eq frame.address.toNat_lt hle hframes]
            rfl
  unfold responseFrameForRequestFrame expectedFrame
  simp only [hsymbol, hlib, Outcome.ok_bind, Outcome.unwrap, Option.elim_some, Option.bind_some]
  rfl

/-- The result of a job in closed form, with the frame indices as `u32`. -/
def answeredResult (answer : Lib → Except GetSymbolsError LookedUpAddresses)
    (symbolicated : HashMap Lib (Except GetSymbolsError LookedUpAddresses))
    (job : Request.Job) : Response.Result where
  callStacks := job.callStacks.map (fun stack => stack.zipIdx.map (expectedFrame asU32 answer job))
  foundModules := (jobModules symbolicated job.memoryMap).foundModules
  moduleErrors := (jobModules symbolicated job.memoryMap).moduleErrors

theorem resultForJob_eq {request : Request}
    {answer : Lib → Except GetSymbolsError LookedUpAddresses}
    {symbolicated : HashMap Lib (Except GetSymbolsError LookedUpAddresses)}
    (h : Answered request answer symbolicated) (hindex : IndicesValid request)
    {job : Request.Job} (hjob : job ∈ request.jobs) (hlibs : job.memoryMap.length ≤ 2 ^ 32) :
    (resultForJob symbolicated job : Call ε _) = .ok (answeredResult answer symbolicated job) := by
  have hstacks : (job.callStacks.mapM (responseStackForRequestStack job.memoryMap
      (jobModules symbolicated job.memoryMap).symbolsByModuleIndex) : Call ε _)
      = .ok (job.callStacks.map
        (fun stack => stack.zipIdx.map (expectedFrame asU32 answer job))) := by
    refine Outcome.mapM_eq_ok (fun stack hstack => Outcome.mapM_eq_ok (fun entry hentry => ?_))
    have hframe : entry.1 ∈ jobFrames job :=
      List.mem_flatten.mpr ⟨stack, hstack, List.fst_mem_of_mem_zipIdx hentry⟩
    exact responseFrame_eq h hjob hframe (get?_jobModules symbolicated hlibs)
      (hindex job hjob entry.1 hframe)
  simp only [resultForJob, hstacks]
  rfl

/-- The response in closed form, with the frame indices as `u32`. -/
theorem createResponse_eq (ε : Type) {request : Request}
    {answer : Lib → Except GetSymbolsError LookedUpAddresses}
    {symbolicated : HashMap Lib (Except GetSymbolsError LookedUpAddresses)}
    (h : Answered request answer symbolicated) (hindex : IndicesValid request)
    (hlibs : ∀ job ∈ request.jobs, job.memoryMap.length ≤ 2 ^ 32) :
    ∃ response, (createResponse request symbolicated : Call ε _) = .ok response ∧
      response.results.map (·.callStacks) = expectedStacks asU32 answer request := by
  refine ⟨⟨request.jobs.map (answeredResult answer symbolicated)⟩, ?_, ?_⟩
  · rw [createResponse, Outcome.mapM_eq_ok (fun job hjob =>
      resultForJob_eq h hindex hjob (hlibs job hjob))]
    rfl
  · rw [List.map_map]
    rfl

/-- The three passes together, with the frame indices as `u32`. -/
theorem queryApi_eq (orders : Orders) {getSymbolicationResult : Lookup} {withDebugInfo : Bool}
    {request : Request} {answer : Lib → Except GetSymbolsError LookedUpAddresses}
    (hindex : IndicesValid request)
    (hlooks : Looks getSymbolicationResult withDebugInfo request answer)
    (hlibs : ∀ job ∈ request.jobs, job.memoryMap.length ≤ 2 ^ 32) :
    ∃ response, queryApi orders getSymbolicationResult request withDebugInfo = .ok response ∧
      response.results.map (·.callStacks) = expectedStacks asU32 answer request := by
  obtain ⟨requested, hgather, hmem, hsome⟩ := gather_spec orders.byModuleIndex hindex
  obtain ⟨symbolicated, hlookup, hget, -⟩ := lookUpLibs_spec orders hlooks.lookUp hmem hsome
  have hanswered : Answered request answer symbolicated :=
    ⟨hget, fun lib table hlib hanswer => (hlooks.built lib table hlib hanswer).answerable⟩
  obtain ⟨response, hresponse, hstacks⟩ :=
    createResponse_eq GetSymbolsError hanswered hindex hlibs
  refine ⟨response, ?_, hstacks⟩
  unfold queryApi
  rw [hgather, Outcome.ok_bind, hlookup, Outcome.ok_bind, hresponse]

/-- **THE RESPONSE ANSWERS THE REQUEST FRAME BY FRAME**, whatever the iteration
    orders and however libraries repeat, as long as no stack has more than
    `2 ^ 32` frames and no memory map more than `2 ^ 32` entries. -/
theorem queryApi_answersFrameByFrame (orders : Orders) (getSymbolicationResult : Lookup)
    (withDebugInfo : Bool) (request : Request)
    (answer : Lib → Except GetSymbolsError LookedUpAddresses) (hindex : IndicesValid request)
    (hlooks : Looks getSymbolicationResult withDebugInfo request answer)
    (hframes : ∀ job ∈ request.jobs, ∀ stack ∈ job.callStacks, stack.length ≤ 2 ^ 32)
    (hlibs : ∀ job ∈ request.jobs, job.memoryMap.length ≤ 2 ^ 32) :
    ∃ response, queryApi orders getSymbolicationResult request withDebugInfo = .ok response ∧
      AnswersFrameByFrame answer request response := by
  obtain ⟨response, hrun, hstacks⟩ := queryApi_eq orders hindex hlooks hlibs
  refine ⟨response, hrun, ?_⟩
  rw [AnswersFrameByFrame, hstacks]
  refine List.map_congr_left (fun job hjob => List.map_congr_left (fun stack hstack =>
    List.map_congr_left (fun entry hentry => ?_)))
  have hlt : entry.2 < stack.length := by
    have := List.snd_lt_of_mem_zipIdx hentry
    omega
  have hsize := hframes job hjob stack hstack
  unfold expectedFrame
  rw [asU32_of_lt (by omega)]
  rfl

end Answers

/-! ## Runs on sample requests -/

section Samples

local instance : Paths.Platform := Paths.unix

/-- A number in hexadecimal digits; none at all are no number. -/
def hexNumber (digits : List Char) : Option Nat :=
  if digits.isEmpty then none
  else do
    let values ← digits.mapM Demangle.hexDigit
    return values.foldl (fun n digit => 16 * n + digit) 0

/-- Two hexadecimal digits for each byte. -/
def hexBytes : List Char → Option Bytes
  | [] => some []
  | [_] => none
  | high :: low :: rest => do
      let byte ← hexNumber [high, low]
      return UInt8.ofNat byte :: (← hexBytes rest)

/-- `u32::from_str_radix(s, 16).ok()`, without the bound: a leading `+` is a sign. -/
def signedHexNumber : List Char → Option Nat
  | '+' :: digits => hexNumber digits
  | digits => hexNumber digits

/-- `DebugId::from_breakpad`: the 32 digits of a UUID and those of the appendix. -/
def breakpadId (s : String) : Option DebugId := do
  let uuid ← hexBytes (s.toList.take 32)
  let appendix ← signedHexNumber (s.toList.drop 32)
  if appendix < 2 ^ 32 then some ⟨uuid, appendix⟩ else none

/-- Crates that know breakpad IDs and nothing else. -/
local instance sampleCrates : Crates := { Crates.nothing with fromBreakpad := breakpadId }

def libA : Lib := ⟨"a", "AAAAAAAAAAAAAAAAAAAAAAAAAAAAAAAA0"⟩

def libB : Lib := ⟨"b", "BBBBBBBBBBBBBBBBBBBBBBBBBBBBBBBB0"⟩

/-- Library `a` at two indices, library `b` at one. -/
def sampleRequest : Request := .justOneJob ⟨[libA, libB, libA], [[⟨0, 5⟩, ⟨1, 7⟩, ⟨2, 5⟩]]⟩

/-- A function `f` in library `a`, and no file for library `b`. -/
def sampleLookup : Lookup := fun query =>
  if query.debugName = "a" then
    addAddressSymbol (forAddresses [5]) 5 2 "f" (some 8)
  else .err (.noCandidatePathForBinary query.debugName query.debugId)

def sampleAnswer (lib : Lib) : Except GetSymbolsError LookedUpAddresses :=
  if lib = libA then .ok ((forAddresses [5]).setSlot 5 (symbolResult 2 "f" (some 8)))
  else .error (.noCandidatePathForBinary lib.debugName ⟨List.replicate 16 0xBB, 0⟩)

theorem asks_sampleRequest {lib : Lib} {address : Nat} (h : Asks sampleRequest lib address) :
    lib = libA ∨ lib = libB := by
  obtain ⟨job, hjob, frame, -, hlib, -⟩ := h
  obtain rfl := List.mem_singleton.mp hjob
  have hmem := List.mem_of_getElem? hlib
  simp only [List.mem_cons, List.not_mem_nil, or_false] at hmem
  rcases hmem with h | h | h
  · exact Or.inl h
  · exact Or.inr h
  · exact Or.inl h

theorem looks_sampleRequest : Looks sampleLookup true sampleRequest sampleAnswer where
  lookUp lib hlib := by
    obtain ⟨address, hasks⟩ := hlib
    rcases asks_sampleRequest hasks with rfl | rfl
    · rfl
    · rfl
  built lib table hlib hanswer := by
    obtain ⟨address, hasks⟩ := hlib
    rcases asks_sampleRequest hasks with rfl | rfl
    · obtain rfl : _ = table := Except.ok.inj hanswer
      have hasked : sortAndDedup (askedAddresses sampleRequest libA) = [5] := by decide
      rw [hasked]
      exact .addAddressSymbol .forAddresses (show 5 ∈ [5] by decide) (show 2 ≤ 5 by decide)
        (show addAddressSymbol (forAddresses [5]) 5 2 "f" (some 8) = .ok _ from rfl)
    · cases hanswer

/-- Three frames: two with the symbol, one whose lookup failed. -/
theorem queryApi_answersFrameByFrame_three_frames :
    ∃ response, queryApi Orders.listed sampleLookup sampleRequest true = .ok response ∧
      AnswersFrameByFrame sampleAnswer sampleRequest response :=
  queryApi_answersFrameByFrame Orders.listed sampleLookup true sampleRequest sampleAnswer
    (by decide) looks_sampleRequest (by decide) (by decide)

/-- Every library has a file, without symbols. -/
def emptyLookup : Lookup := fun query =>
  match query.resultKind with
  | .symbolsForAddresses addresses _ => .ok (forAddresses addresses)
  | .allSymbols => .panic .shouldNotBeCalled

/-- The answer for some addresses of a library, whose breakpad ID may be none. -/
def emptyAnswerFor (lib : Lib) (addresses : List Nat) : Except GetSymbolsError LookedUpAddresses :=
  if (breakpadId lib.breakpadId).isSome then .ok (forAddresses (sortAndDedup addresses))
  else .error (.invalidBreakpadId lib.breakpadId)

theorem lookUpLib_emptyLookup {ε : Type} (withDebugInfo : Bool) (lib : Lib) (addresses : List Nat) :
    (lookUpLib emptyLookup withDebugInfo lib addresses : Call ε _)
      = .ok (emptyAnswerFor lib addresses) := by
  have hid : Crates.fromBreakpad lib.breakpadId = breakpadId lib.breakpadId := rfl
  rw [lookUpLib, toDebugId, hid, emptyAnswerFor]
  cases breakpadId lib.breakpadId with
  | none => rfl
  | some debugId => rfl

def emptyAnswer (request : Request) (lib : Lib) : Except GetSymbolsError LookedUpAddresses :=
  emptyAnswerFor lib (askedAddresses request lib)

theorem looks_emptyLookup (request : Request) :
    Looks emptyLookup true request (emptyAnswer request) where
  lookUp lib _ := lookUpLib_emptyLookup true lib _
  built lib table _ hanswer := by
    rw [emptyAnswer, emptyAnswerFor] at hanswer
    split at hanswer
    · exact Except.ok.inj hanswer ▸ .forAddresses
    · cases hanswer

/-- A stack with `count` equal frames. -/
def deepRequest (count : Nat) : Request := .justOneJob ⟨[libA], [List.replicate count ⟨0, 5⟩]⟩

theorem indicesValid_deepRequest (count : Nat) : IndicesValid (deepRequest count) := by
  intro job hjob frame hframe
  obtain rfl := List.mem_singleton.mp hjob
  have hframe' : frame ∈ List.replicate count ⟨0, 5⟩ := by simpa [jobFrames] using hframe
  rw [List.eq_of_mem_replicate hframe']
  exact Nat.zero_lt_one

/-- The frame at position `2 ^ 32` of a stack gets the index 0. -/
theorem deepRequest_not_answered {count : Nat} (hcount : 2 ^ 32 < count) :
    ∃ response, queryApi Orders.listed emptyLookup (deepRequest count) true = .ok response ∧
      ¬ AnswersFrameByFrame (emptyAnswer (deepRequest count)) (deepRequest count) response := by
  obtain ⟨response, hrun, hstacks⟩ := queryApi_eq Orders.listed (indicesValid_deepRequest count)
    (looks_emptyLookup _) (by
      intro job hjob
      obtain rfl := List.mem_singleton.mp hjob
      exact Nat.one_le_two_pow)
  refine ⟨response, hrun, fun h => ?_⟩
  rw [AnswersFrameByFrame, hstacks] at h
  have hjob := List.cons.inj h
  have hstack := (List.cons.inj hjob.1).1
  have hframe := congrArg (fun frames => (frames[2 ^ 32]?).map (·.frame)) hstack
  simp only [List.getElem?_map, List.getElem?_zipIdx, List.getElem?_replicate_of_lt hcount,
    Option.map_some, expectedFrame] at hframe
  exact absurd (Option.some.inj hframe) (by decide)

/-- A memory map of `count + 2` entries, the last of them at index `count + 1`. -/
def wideRequest (first other : Lib) (count : Nat) : Request :=
  .justOneJob ⟨(first :: List.replicate count other) ++ [other], [[⟨0, 5⟩, ⟨1, 7⟩]]⟩

variable {first other : Lib}

theorem getElem?_wideRequest_one (count : Nat) :
    ((first :: List.replicate count other) ++ [other])[1]? = some other := by
  cases count with
  | zero => rfl
  | succ count => rw [List.replicate_succ]; rfl

theorem asks_wideRequest {count : Nat} {lib : Lib} {address : Nat} :
    Asks (wideRequest first other count) lib address ↔
      (lib = first ∧ address = 5) ∨ (lib = other ∧ address = 7) := by
  constructor
  · rintro ⟨job, hjob, frame, hframe, hlib, rfl⟩
    obtain rfl := List.mem_singleton.mp hjob
    have hframe' : frame = ⟨0, 5⟩ ∨ frame = ⟨1, 7⟩ := by simpa [jobFrames] using hframe
    rcases hframe' with rfl | rfl
    · exact Or.inl ⟨(Option.some.inj hlib).symm, rfl⟩
    · exact Or.inr ⟨(Option.some.inj ((getElem?_wideRequest_one count).symm.trans hlib)).symm, rfl⟩
  · rintro (⟨rfl, rfl⟩ | ⟨rfl, rfl⟩)
    · exact ⟨_, List.mem_singleton_self _, ⟨0, 5⟩, by simp [jobFrames], rfl, rfl⟩
    · exact ⟨_, List.mem_singleton_self _, ⟨1, 7⟩, by simp [jobFrames],
        getElem?_wideRequest_one count, rfl⟩

theorem indicesValid_wideRequest (first other : Lib) (count : Nat) :
    IndicesValid (wideRequest first other count) := by
  intro job hjob frame hframe
  obtain rfl := List.mem_singleton.mp hjob
  have hframe' : frame = ⟨0, 5⟩ ∨ frame = ⟨1, 7⟩ := by simpa [jobFrames] using hframe
  rcases hframe' with rfl | rfl
  · exact Nat.succ_pos _
  · exact (List.getElem?_eq_some_iff.mp (getElem?_wideRequest_one count)).1

/-- The module at index `2 ^ 32` takes the place of the one at index 0, and the
    address of a frame of that one is missing from its table. -/
theorem wideRequest_panics [Crates] [Paths.Platform] {count : Nat} (hne : first ≠ other)
    (hcount : count + 1 = 2 ^ 32) {getSymbolicationResult : Lookup}
    {answer : Lib → Except GetSymbolsError LookedUpAddresses}
    (hlookUp : ∀ lib, (∃ address, Asks (wideRequest first other count) lib address) →
      (lookUpLib getSymbolicationResult true lib
        (askedAddresses (wideRequest first other count) lib) : Call GetSymbolsError _)
        = .ok (answer lib))
    {table : LookedUpAddresses} (htable : answer other = .ok table)
    (hanswerable : Answerable
      (sortAndDedup (askedAddresses (wideRequest first other count) other)) table) :
    queryApi Orders.listed getSymbolicationResult (wideRequest first other count) true
      = .panic .addressNotInSymbolMap := by
  obtain ⟨requested, hgather, hmem, hsome⟩ :=
    gather_spec Orders.listed.byModuleIndex (indicesValid_wideRequest first other count)
  obtain ⟨symbolicated, hlookup, hget, -⟩ :=
    lookUpLibs_spec Orders.listed hlookUp hmem hsome
  have hother := hget other ⟨7, asks_wideRequest.mpr (Or.inr ⟨rfl, rfl⟩)⟩
  -- the other library was not asked for the first one's address
  have hmissing : table.addressResults.get? 5 = none := by
    rw [← Option.not_isSome_iff_eq_none]
    intro hhas
    have hasks := mem_askedAddresses.mp (mem_sortAndDedup.mp ((hanswerable.has 5).mp hhas))
    rcases asks_wideRequest.mp hasks with ⟨hlib, -⟩ | ⟨-, haddress⟩
    · exact hne hlib.symm
    · exact absurd haddress (by decide)
  -- index 2 ^ 32 is cast to 0, where it replaces the first library's table
  have htables : (jobModules symbolicated
      ((first :: List.replicate count other) ++ [other])).symbolsByModuleIndex.get? 0
      = moduleTable symbolicated other := by
    rw [jobModules_concat, get?_addModule, List.length_cons, List.length_replicate, hcount]
    refine if_pos ⟨?_, rfl⟩
    rw [moduleTable, hother, htable]
    rfl
  have hframe : (symbolForFrame ⟨0, 5⟩ (jobModules symbolicated
      ((first :: List.replicate count other) ++ [other])).symbolsByModuleIndex
      : Call GetSymbolsError _) = .panic .addressNotInSymbolMap := by
    rw [symbolForFrame, show (⟨0, 5⟩ : Request.StackFrame).moduleIndex.toNat = 0 from rfl, htables,
      moduleTable, hother, htable]
    show (Outcome.unwrap .addressNotInSymbolMap (table.addressResults.get? 5) >>= _
      : Call GetSymbolsError _) = _
    rw [hmissing]
    rfl
  rw [queryApi, hgather, Outcome.ok_bind, hlookup, Outcome.ok_bind]
  show (createResponse (wideRequest first other count) symbolicated : Call GetSymbolsError _) = _
  simp only [createResponse, wideRequest, Request.jobs, List.mapM_cons, resultForJob,
    responseStackForRequestStack, List.zipIdx_cons, responseFrameForRequestFrame, hframe,
    Outcome.panic_bind]

/-- Without the two bounds the response does not answer the request: the
    indices of a stack with `2 ^ 32 + 1` frames repeat, and a memory map with
    `2 ^ 32 + 1` entries leads to a failing `unwrap`. -/
theorem not_queryApi_answersFrameByFrame :
    (IndicesValid (deepRequest (2 ^ 32 + 1)) ∧
      Looks emptyLookup true (deepRequest (2 ^ 32 + 1)) (emptyAnswer (deepRequest (2 ^ 32 + 1))) ∧
      ∃ response, queryApi Orders.listed emptyLookup (deepRequest (2 ^ 32 + 1)) true
          = .ok response ∧
        ¬ AnswersFrameByFrame (emptyAnswer (deepRequest (2 ^ 32 + 1)))
          (deepRequest (2 ^ 32 + 1)) response) ∧
    (IndicesValid (wideRequest libA libB (2 ^ 32 - 1)) ∧
      Looks emptyLookup true (wideRequest libA libB (2 ^ 32 - 1))
        (emptyAnswer (wideRequest libA libB (2 ^ 32 - 1))) ∧
      queryApi Orders.listed emptyLookup (wideRequest libA libB (2 ^ 32 - 1)) true
        = .panic .addressNotInSymbolMap) :=
  ⟨⟨indicesValid_deepRequest _, looks_emptyLookup _, deepRequest_not_answered (Nat.lt_succ_self _)⟩,
    ⟨indicesValid_wideRequest _ _ _, looks_emptyLookup _,
      wideRequest_panics (by decide) (Nat.sub_add_cancel Nat.one_le_two_pow)
        (looks_emptyLookup _).lookUp rfl BuiltFor.forAddresses.answerable⟩⟩

end Samples

end ProfilerGetSymbols.SymbolicateV5
