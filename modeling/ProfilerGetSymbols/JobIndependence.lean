import ProfilerGetSymbols.FrameByFrame

/-! # Jobs of one request — what a job sees of the others

    All jobs of a request are merged into one map by library, and every job's
    result is rebuilt from that map.  The stacks of a result depend on its own
    job only.  The modules that it reports do not quite: a library that the job
    lists in its memory map without a frame in it is reported when a frame of
    another job refers to it, and not when the job is sent alone.

    Indices of modules are 32 bits wide.  In a memory map with more than
    `2 ^ 32` entries another job can even change which table a frame is looked up
    in. -/

namespace ProfilerGetSymbols.SymbolicateV5

open ProgLib LookedUpAddresses Paths

section Jobs

variable [Platform] [Crates] {ε : Type}

/-! ## What a job may see of the others -/

/-- A lookup whose success, error and answer for an address do not depend on
    the other addresses asked for. -/
def Independent (getSymbolicationResult : Lookup) (withDebugInfo : Bool) : Prop :=
  ∀ lib, (∃ e, ∀ addresses, (lookUpLib getSymbolicationResult withDebugInfo lib addresses
      : Call GetSymbolsError _) = .ok (.error e)) ∨
    ∃ slot : Nat → Option (Option AddressResult), ∀ addresses, ∃ table,
      (lookUpLib getSymbolicationResult withDebugInfo lib addresses : Call GetSymbolsError _)
        = .ok (.ok table) ∧
      ∀ address ∈ addresses, table.addressResults.get? address = slot address

/-- `module_key`. -/
def moduleKey (lib : Lib) : String := lib.debugName ++ "/" ++ lib.breakpadId

/-- Some frame of the job refers to the library. -/
def JobAsks (job : Request.Job) (lib : Lib) : Prop :=
  ∃ frame ∈ jobFrames job, job.memoryMap[frame.moduleIndex.toNat]? = some lib

/-- Some frame of some job of the request refers to the library. -/
def RequestAsks (request : Request) (lib : Lib) : Prop := ∃ job ∈ request.jobs, JobAsks job lib

/-- The two results of a job, in a request and alone, say the same about a key. -/
def SameModule (key : String) (result alone : Response.Result) : Prop :=
  result.foundModules.get? key = alone.foundModules.get? key ∧
    result.moduleErrors.get? key = alone.moduleErrors.get? key

/-- A job's result in a request is its result alone. -/
def SameResult (result alone : Response.Result) : Prop :=
  result.callStacks = alone.callStacks ∧ ∀ key, SameModule key result alone

/-- **AS THE CODE HAS IT**: the stacks are the same, and so is what is reported of a
    module, unless only other jobs refer to a library of that name in the job's
    memory map. -/
def SameButForUnused (request : Request) (job : Request.Job) (result alone : Response.Result) :
    Prop :=
  result.callStacks = alone.callStacks ∧
    ∀ key, (∀ lib ∈ job.memoryMap, moduleKey lib = key → RequestAsks request lib →
      JobAsks job lib) → SameModule key result alone

/-! ## The modules of a job -/

/-- Whether the lookup of a library succeeded, if it was looked up. -/
def found (symbolicated : HashMap Lib (Except GetSymbolsError LookedUpAddresses)) (lib : Lib) :
    Option Bool :=
  (symbolicated.get? lib).map (fun answer => answer.isOk)

/-- The error of the lookup of a library, if it failed. -/
def failed (symbolicated : HashMap Lib (Except GetSymbolsError LookedUpAddresses)) (lib : Lib) :
    Option GetSymbolsError :=
  match symbolicated.get? lib with
  | some (.error err) => some err
  | _ => none

/-- The last library of the memory map with the key decides. -/
theorem get?_foundModules (symbolicated : HashMap Lib (Except GetSymbolsError LookedUpAddresses))
    (memoryMap : List Lib) (key : String) :
    (jobModules symbolicated memoryMap).foundModules.get? key
      = memoryMap.reverse.findSome?
        (fun lib => if moduleKey lib = key then found symbolicated lib else none) := by
  induction memoryMap using List.reverseRecOn with
  | nil => rfl
  | append_singleton memoryMap lib ih =>
      rw [jobModules_concat, List.reverse_append, List.reverse_singleton, List.singleton_append,
        List.findSome?_cons, ← ih, addModule, found]
      cases hget : symbolicated.get? lib with
      | none => by_cases hkey : moduleKey lib = key <;> simp [hkey]
      | some answer =>
          by_cases hkey : moduleKey lib = key
          · rw [if_pos hkey]
            subst hkey
            cases answer with
            | error err => exact HashMap.get?_insert_self _ _ _
            | ok table => exact HashMap.get?_insert_self _ _ _
          · rw [if_neg hkey]
            have hne : (moduleKey lib == key) = false := beq_false_of_ne hkey
            cases answer with
            | error err => exact HashMap.get?_insert_of_ne _ _ hne
            | ok table => exact HashMap.get?_insert_of_ne _ _ hne

theorem get?_moduleErrors (symbolicated : HashMap Lib (Except GetSymbolsError LookedUpAddresses))
    (memoryMap : List Lib) (key : String) :
    (jobModules symbolicated memoryMap).moduleErrors.get? key
      = memoryMap.reverse.findSome?
        (fun lib => if moduleKey lib = key then
          (failed symbolicated lib).map (fun err => [.from err]) else none) := by
  induction memoryMap using List.reverseRecOn with
  | nil => rfl
  | append_singleton memoryMap lib ih =>
      rw [jobModules_concat, List.reverse_append, List.reverse_singleton, List.singleton_append,
        List.findSome?_cons, ← ih, addModule, failed]
      cases hget : symbolicated.get? lib with
      | none => by_cases hkey : moduleKey lib = key <;> simp [hkey]
      | some answer =>
          cases answer with
          | ok table => by_cases hkey : moduleKey lib = key <;> simp [hkey]
          | error err =>
              by_cases hkey : moduleKey lib = key
              · rw [if_pos hkey]
                subst hkey
                exact HashMap.get?_insert_self _ _ _
              · rw [if_neg hkey]
                exact HashMap.get?_insert_of_ne _ _ (beq_false_of_ne hkey)

/-! ## Two maps of answers -/

/-- Two answers that an independent lookup gives for the same library: the same
    error, or tables that agree on some addresses. -/
def Alike (addresses : Nat → Prop) :
    Except GetSymbolsError LookedUpAddresses → Except GetSymbolsError LookedUpAddresses → Prop
  | .error e, .error e' => e = e'
  | .ok table, .ok table' => ∀ address, addresses address →
      table.addressResults.get? address = table'.addressResults.get? address
  | _, _ => False

/-- The addresses of a job's frames in a library. -/
def JobAsksFor (job : Request.Job) (lib : Lib) (address : Nat) : Prop :=
  ∃ frame ∈ jobFrames job, job.memoryMap[frame.moduleIndex.toNat]? = some lib ∧
    frame.address.toNat = address

/-- Both maps have an answer to whatever the job asks, and the answers are alike. -/
def AlikeFor (job : Request.Job)
    (symbolicated alone : HashMap Lib (Except GetSymbolsError LookedUpAddresses)) : Prop :=
  ∀ lib, JobAsks job lib → ∃ answer answer', symbolicated.get? lib = some answer ∧
    alone.get? lib = some answer' ∧ Alike (JobAsksFor job lib) answer answer'

section Results

variable {job : Request.Job}
  {symbolicated alone : HashMap Lib (Except GetSymbolsError LookedUpAddresses)}

/-- Alike maps give a frame the same symbol, or the same panic. -/
theorem symbolForFrame_congr (h : AlikeFor job symbolicated alone)
    (hlibs : job.memoryMap.length ≤ 2 ^ 32) {frame : Request.StackFrame}
    (hframe : frame ∈ jobFrames job) (hindex : frame.moduleIndex.toNat < job.memoryMap.length) :
    (symbolForFrame frame (jobModules symbolicated job.memoryMap).symbolsByModuleIndex
        : Call ε _)
      = symbolForFrame frame (jobModules alone job.memoryMap).symbolsByModuleIndex := by
  have hlib := List.getElem?_eq_getElem hindex
  generalize job.memoryMap[frame.moduleIndex.toNat] = lib at hlib
  obtain ⟨answer, answer', hget, hget', halike⟩ := h lib ⟨frame, hframe, hlib⟩
  rw [symbolForFrame, symbolForFrame, get?_jobModules _ hlibs, get?_jobModules _ hlibs, hlib,
    Option.bind_some, Option.bind_some, moduleTable, moduleTable, hget, hget']
  cases answer with
  | error e =>
      cases answer' with
      | error e' => rfl
      | ok table' => exact halike.elim
  | ok table =>
      cases answer' with
      | error e' => exact halike.elim
      | ok table' =>
          have hslot := halike frame.address.toNat ⟨frame, hframe, hlib, rfl⟩
          simp only [hslot]

/-- Alike maps give a job the same stacks, or the same panic. -/
theorem callStacks_congr (h : AlikeFor job symbolicated alone)
    (hlibs : job.memoryMap.length ≤ 2 ^ 32)
    (hindex : ∀ frame ∈ jobFrames job, frame.moduleIndex.toNat < job.memoryMap.length) :
    (job.callStacks.mapM (responseStackForRequestStack job.memoryMap
        (jobModules symbolicated job.memoryMap).symbolsByModuleIndex) : Call ε _)
      = job.callStacks.mapM (responseStackForRequestStack job.memoryMap
        (jobModules alone job.memoryMap).symbolsByModuleIndex) := by
  refine Outcome.mapM_congr (fun stack hstack => Outcome.mapM_congr (fun entry hentry => ?_))
  have hframe : entry.1 ∈ jobFrames job :=
    List.mem_flatten.mpr ⟨stack, hstack, List.fst_mem_of_mem_zipIdx hentry⟩
  obtain ⟨frame, frameIndex⟩ := entry
  have hsymbol := symbolForFrame_congr (ε := ε) h hlibs hframe (hindex frame hframe)
  simp only [responseFrameForRequestFrame]
  rw [hsymbol]

/-- Alike maps that know of the same libraries report the same modules. -/
theorem sameModule_of_alike {asked : Lib → Prop} (h : AlikeFor job symbolicated alone)
    (hnone : ∀ lib, ¬ asked lib → symbolicated.get? lib = none)
    (hnone' : ∀ lib, ¬ JobAsks job lib → alone.get? lib = none) {key : String}
    (hkey : ∀ lib ∈ job.memoryMap, moduleKey lib = key → asked lib → JobAsks job lib) :
    (jobModules symbolicated job.memoryMap).foundModules.get? key
        = (jobModules alone job.memoryMap).foundModules.get? key ∧
      (jobModules symbolicated job.memoryMap).moduleErrors.get? key
        = (jobModules alone job.memoryMap).moduleErrors.get? key := by
  -- a library with the key is asked for by the job, or by nobody
  have hsame : ∀ lib ∈ job.memoryMap.reverse, moduleKey lib = key →
      found symbolicated lib = found alone lib ∧ failed symbolicated lib = failed alone lib := by
    intro lib hlib hlibkey
    by_cases hjob : JobAsks job lib
    · obtain ⟨answer, answer', hget, hget', halike⟩ := h lib hjob
      rw [found, found, failed, failed, hget, hget']
      cases answer with
      | error e =>
          cases answer' with
          | error e' =>
              obtain rfl : e = e' := halike
              exact ⟨rfl, rfl⟩
          | ok table' => exact halike.elim
      | ok table =>
          cases answer' with
          | error e' => exact halike.elim
          | ok table' => exact ⟨rfl, rfl⟩
    · have hnot : ¬ asked lib := fun hyes =>
        hjob (hkey lib (List.mem_reverse.mp hlib) hlibkey hyes)
      rw [found, found, failed, failed, hnone lib hnot, hnone' lib hjob]
      exact ⟨rfl, rfl⟩
  have hcongr : ∀ {β : Type} (f g : Lib → Option β) (l : List Lib), (∀ lib ∈ l, f lib = g lib) →
      l.findSome? f = l.findSome? g := by
    intro β f g l hfg
    induction l with
    | nil => rfl
    | cons lib l ih =>
        rw [List.findSome?_cons, List.findSome?_cons, hfg lib (List.mem_cons_self ..),
          ih (fun lib' hlib' => hfg lib' (List.mem_cons_of_mem _ hlib'))]
  rw [get?_foundModules, get?_foundModules, get?_moduleErrors, get?_moduleErrors]
  constructor
  · refine hcongr _ _ _ (fun lib hlib => ?_)
    by_cases hlibkey : moduleKey lib = key
    · rw [if_pos hlibkey, if_pos hlibkey, (hsame lib hlib hlibkey).1]
    · rw [if_neg hlibkey, if_neg hlibkey]
  · refine hcongr _ _ _ (fun lib hlib => ?_)
    by_cases hlibkey : moduleKey lib = key
    · rw [if_pos hlibkey, if_pos hlibkey, (hsame lib hlib hlibkey).2]
    · rw [if_neg hlibkey, if_neg hlibkey]

/-- A result is made of its stacks and of the modules. -/
theorem resultForJob_eq_ok {result : Response.Result} :
    (resultForJob symbolicated job : Call ε _) = .ok result ↔
      (job.callStacks.mapM (responseStackForRequestStack job.memoryMap
        (jobModules symbolicated job.memoryMap).symbolsByModuleIndex) : Call ε _)
        = .ok result.callStacks ∧
      result.foundModules = (jobModules symbolicated job.memoryMap).foundModules ∧
      result.moduleErrors = (jobModules symbolicated job.memoryMap).moduleErrors := by
  rw [resultForJob, Outcome.bind_eq_ok]
  constructor
  · rintro ⟨callStacks, hcall, heq⟩
    rw [← Outcome.ok.inj heq]
    exact ⟨hcall, rfl, rfl⟩
  · rintro ⟨hcall, hfound, herrors⟩
    obtain ⟨callStacks, foundModules, moduleErrors⟩ := result
    obtain rfl : foundModules = _ := hfound
    obtain rfl : moduleErrors = _ := herrors
    exact ⟨callStacks, hcall, rfl⟩

end Results

/-! ## The lookups of a request -/

omit [Platform] [Crates] in
theorem requestAsks_iff {request : Request} {lib : Lib} :
    RequestAsks request lib ↔ ∃ address, Asks request lib address := by
  constructor
  · rintro ⟨job, hjob, frame, hframe, hlib⟩
    exact ⟨_, job, hjob, frame, hframe, hlib, rfl⟩
  · rintro ⟨address, job, hjob, frame, hframe, hlib, -⟩
    exact ⟨job, hjob, frame, hframe, hlib⟩

/-- What a query has before it responds: for each library asked, the answer of
    the lookup, and no other library. -/
structure LookedUp (getSymbolicationResult : Lookup) (withDebugInfo : Bool) (request : Request)
    (symbolicated : HashMap Lib (Except GetSymbolsError LookedUpAddresses)) : Prop where
  asked : ∀ lib, RequestAsks request lib → ∃ answer, symbolicated.get? lib = some answer ∧
    (lookUpLib getSymbolicationResult withDebugInfo lib (askedAddresses request lib)
      : Call GetSymbolsError _) = .ok answer
  others : ∀ lib, ¬ RequestAsks request lib → symbolicated.get? lib = none

/-- Up to the response every query with valid indices succeeds. -/
theorem queryApi_eq_createResponse (orders : Orders) {getSymbolicationResult : Lookup}
    {withDebugInfo : Bool} (hind : Independent getSymbolicationResult withDebugInfo)
    {request : Request} (hindex : IndicesValid request) :
    ∃ symbolicated, LookedUp getSymbolicationResult withDebugInfo request symbolicated ∧
      queryApi orders getSymbolicationResult request withDebugInfo
        = createResponse request symbolicated := by
  have hanswers : ∀ lib, ∃ answer, (lookUpLib getSymbolicationResult withDebugInfo lib
      (askedAddresses request lib) : Call GetSymbolsError _) = .ok answer := by
    intro lib
    rcases hind lib with ⟨e, he⟩ | ⟨slot, hslot⟩
    · exact ⟨_, he _⟩
    · obtain ⟨table, htable, -⟩ := hslot (askedAddresses request lib)
      exact ⟨_, htable⟩
  choose answer hanswer using hanswers
  obtain ⟨requested, hgather, hmem, hsome⟩ := gather_spec orders.byModuleIndex hindex
  obtain ⟨symbolicated, hlookup, hget, hnone⟩ :=
    lookUpLibs_spec orders (fun lib _ => hanswer lib) hmem hsome
  refine ⟨symbolicated, ⟨?_, ?_⟩, ?_⟩
  · intro lib hlib
    exact ⟨answer lib, hget lib (requestAsks_iff.mp hlib), hanswer lib⟩
  · intro lib hlib
    exact hnone lib (fun h => hlib (requestAsks_iff.mpr h))
  · rw [queryApi, hgather, Outcome.ok_bind, hlookup, Outcome.ok_bind]

omit [Platform] in
/-- A job finds alike answers in two requests that it belongs to. -/
theorem LookedUp.alikeFor {getSymbolicationResult : Lookup} {withDebugInfo : Bool}
    (hind : Independent getSymbolicationResult withDebugInfo) {request request' : Request}
    {symbolicated alone : HashMap Lib (Except GetSymbolsError LookedUpAddresses)}
    (h : LookedUp getSymbolicationResult withDebugInfo request symbolicated)
    (h' : LookedUp getSymbolicationResult withDebugInfo request' alone) {job : Request.Job}
    (hjob : job ∈ request.jobs) (hjob' : job ∈ request'.jobs) :
    AlikeFor job symbolicated alone := by
  intro lib hasks
  obtain ⟨answer, hget, hlookup⟩ := h.asked lib ⟨job, hjob, hasks⟩
  obtain ⟨answer', hget', hlookup'⟩ := h'.asked lib ⟨job, hjob', hasks⟩
  refine ⟨answer, answer', hget, hget', ?_⟩
  rcases hind lib with ⟨e, he⟩ | ⟨slot, hslot⟩
  · rw [he] at hlookup hlookup'
    rw [← Outcome.ok.inj hlookup, ← Outcome.ok.inj hlookup']
    exact rfl
  · obtain ⟨table, htable, hagree⟩ := hslot (askedAddresses request lib)
    obtain ⟨table', htable', hagree'⟩ := hslot (askedAddresses request' lib)
    rw [htable] at hlookup
    rw [htable'] at hlookup'
    rw [← Outcome.ok.inj hlookup, ← Outcome.ok.inj hlookup']
    rintro address ⟨frame, hframe, hlib, rfl⟩
    -- the address of the frame is among those asked in both requests
    have hasked := mem_askedAddresses.mpr ⟨job, hjob, frame, hframe, hlib, rfl⟩
    have hasked' := mem_askedAddresses.mpr ⟨job, hjob', frame, hframe, hlib, rfl⟩
    rw [hagree _ hasked, hagree' _ hasked']

/-! ## The results -/

/-- A response has the result of each job. -/
theorem createResponse_eq_ok {request : Request}
    {symbolicated : HashMap Lib (Except GetSymbolsError LookedUpAddresses)} {response : Response} :
    (createResponse request symbolicated : Call ε _) = .ok response ↔
      List.Forall₂ (fun job result => (resultForJob symbolicated job : Call ε _) = .ok result)
        request.jobs response.results := by
  rw [createResponse, Outcome.bind_eq_ok, ← Outcome.mapM_eq_ok_iff]
  constructor
  · rintro ⟨results, hresults, heq⟩
    rwa [← Outcome.ok.inj heq]
  · intro hresults
    exact ⟨response.results, hresults, rfl⟩

/-- The result of a job in the request, and its result alone. -/
theorem resultForJob_alone {getSymbolicationResult : Lookup} {withDebugInfo : Bool}
    (hind : Independent getSymbolicationResult withDebugInfo) {request : Request}
    (hindex : IndicesValid request) (hlibs : ∀ job ∈ request.jobs, job.memoryMap.length ≤ 2 ^ 32)
    {symbolicated : HashMap Lib (Except GetSymbolsError LookedUpAddresses)}
    (h : LookedUp getSymbolicationResult withDebugInfo request symbolicated) (orders : Orders)
    {job : Request.Job} (hjob : job ∈ request.jobs) :
    (∀ result, (resultForJob symbolicated job : Call GetSymbolsError _) = .ok result →
      ∃ alone, queryApi orders getSymbolicationResult (.justOneJob job) withDebugInfo
          = .ok ⟨[alone]⟩ ∧ SameButForUnused request job result alone) ∧
    (∀ alone, queryApi orders getSymbolicationResult (.justOneJob job) withDebugInfo
        = .ok ⟨[alone]⟩ →
      ∃ result, (resultForJob symbolicated job : Call GetSymbolsError _) = .ok result) := by
  have hself : job ∈ (Request.justOneJob job).jobs := List.mem_singleton_self job
  have hindex' : IndicesValid (.justOneJob job) := by
    intro job' hjob' frame hframe
    rw [List.mem_singleton.mp hjob'] at hframe ⊢
    exact hindex job hjob frame hframe
  obtain ⟨symbolicated', h', hquery⟩ := queryApi_eq_createResponse orders hind hindex'
  have halike := h.alikeFor hind h' hjob hself
  have hstacks := callStacks_congr (ε := GetSymbolsError) halike (hlibs job hjob) (hindex job hjob)
  have hresponse : ∀ alone, (createResponse (.justOneJob job) symbolicated'
      : Call GetSymbolsError _) = .ok ⟨[alone]⟩ ↔
      (resultForJob symbolicated' job : Call GetSymbolsError _) = .ok alone := by
    intro alone
    rw [createResponse_eq_ok]
    exact ⟨fun hall => (List.forall₂_cons.mp hall).1, fun hone => .cons hone .nil⟩
  have hothers : ∀ lib, ¬ JobAsks job lib → symbolicated'.get? lib = none := by
    intro lib hlib
    refine h'.others lib ?_
    rintro ⟨job', hjob', hasks⟩
    rw [List.mem_singleton.mp hjob'] at hasks
    exact hlib hasks
  constructor
  · intro result hresult
    obtain ⟨hcall, hfound, herrors⟩ := resultForJob_eq_ok.mp hresult
    refine ⟨⟨result.callStacks, (jobModules symbolicated' job.memoryMap).foundModules,
      (jobModules symbolicated' job.memoryMap).moduleErrors⟩, ?_, rfl, ?_⟩
    · rw [hquery, hresponse]
      exact resultForJob_eq_ok.mpr ⟨hstacks ▸ hcall, rfl, rfl⟩
    · intro key hkey
      rw [SameModule, hfound, herrors]
      exact sameModule_of_alike halike h.others hothers hkey
  · intro alone halone
    rw [hquery, hresponse] at halone
    obtain ⟨hcall, -, -⟩ := resultForJob_eq_ok.mp halone
    exact ⟨⟨alone.callStacks, (jobModules symbolicated job.memoryMap).foundModules,
      (jobModules symbolicated job.memoryMap).moduleErrors⟩,
      resultForJob_eq_ok.mpr ⟨hstacks.trans hcall, rfl, rfl⟩⟩

/-- **JOBS DO NOT INFLUENCE EACH OTHER'S STACKS**, nor what is reported of a module
    that no other job alone refers to, as long as no memory map has more than
    `2 ^ 32` entries.  A request is answered when each of its jobs is. -/
theorem queryApi_sameButForUnused (orders orders' : Orders) (getSymbolicationResult : Lookup)
    (withDebugInfo : Bool) (hind : Independent getSymbolicationResult withDebugInfo)
    (request : Request) (hindex : IndicesValid request)
    (hlibs : ∀ job ∈ request.jobs, job.memoryMap.length ≤ 2 ^ 32) :
    ((∃ response, queryApi orders getSymbolicationResult request withDebugInfo = .ok response) ↔
      ∀ job ∈ request.jobs, ∃ alone,
        queryApi orders' getSymbolicationResult (.justOneJob job) withDebugInfo = .ok ⟨[alone]⟩) ∧
    ∀ response, queryApi orders getSymbolicationResult request withDebugInfo = .ok response →
      List.Forall₂ (fun job result => ∃ alone,
          queryApi orders' getSymbolicationResult (.justOneJob job) withDebugInfo
            = .ok ⟨[alone]⟩ ∧ SameButForUnused request job result alone)
        request.jobs response.results := by
  obtain ⟨symbolicated, h, hquery⟩ := queryApi_eq_createResponse orders hind hindex
  rw [hquery]
  have halone := fun job (hjob : job ∈ request.jobs) =>
    resultForJob_alone hind hindex hlibs h orders' hjob
  -- there is a response if and only if each job has a result
  have hexists : (∃ response, (createResponse request symbolicated : Call GetSymbolsError _)
      = .ok response) ↔ ∀ job ∈ request.jobs, ∃ result,
        (resultForJob symbolicated job : Call GetSymbolsError _) = .ok result := by
    rw [← Outcome.exists_mapM_eq_ok_iff]
    constructor
    · rintro ⟨response, hresponse⟩
      exact ⟨_, Outcome.mapM_eq_ok_iff.mpr (createResponse_eq_ok.mp hresponse)⟩
    · rintro ⟨results, hresults⟩
      exact ⟨⟨results⟩, createResponse_eq_ok.mpr (Outcome.mapM_eq_ok_iff.mp hresults)⟩
  refine ⟨hexists.trans (forall₂_congr (fun job hjob => ⟨?_, ?_⟩)), ?_⟩
  · rintro ⟨result, hresult⟩
    obtain ⟨alone, hquery', -⟩ := (halone job hjob).1 result hresult
    exact ⟨alone, hquery'⟩
  · rintro ⟨alone, hquery'⟩
    exact (halone job hjob).2 alone hquery'
  · intro response hresponse
    have hall := (List.forall₂_and_left _ _).mpr
      ⟨fun job (hjob : job ∈ request.jobs) => hjob, createResponse_eq_ok.mp hresponse⟩
    exact hall.imp (fun job result hboth => (halone job hboth.1).1 result hboth.2)

end Jobs

/-! ## Two jobs with a library in common -/

section Samples

local instance : Paths.Platform := Paths.unix

local instance : Crates := sampleCrates

theorem independent_emptyLookup (withDebugInfo : Bool) : Independent emptyLookup withDebugInfo := by
  intro lib
  cases hid : (breakpadId lib.breakpadId).isSome with
  | false =>
      refine Or.inl ⟨.invalidBreakpadId lib.breakpadId, fun addresses => ?_⟩
      rw [lookUpLib_emptyLookup, emptyAnswerFor, hid]
      rfl
  | true =>
      refine Or.inr ⟨fun _ => some none, fun addresses =>
        ⟨forAddresses (sortAndDedup addresses), ?_, fun address haddress => ?_⟩⟩
      · rw [lookUpLib_emptyLookup, emptyAnswerFor, hid]
        rfl
      · rw [get?_forAddresses, if_pos (mem_sortAndDedup.mpr haddress)]

/-- A job with frames in library `a` that lists library `b` too, after `count`
    entries for library `a`. -/
def listingJob (count : Nat) : Request.Job := ⟨List.replicate count libA ++ [libB], [[⟨0, 5⟩]]⟩

/-- The job, and another one with frames in library `b`. -/
def sharedRequest (count : Nat) : Request :=
  .withJobsList [listingJob count, ⟨[libB], [[⟨0, 7⟩]]⟩]

/-- Two jobs, of which the first lists the library of the second. -/
theorem queryApi_sameButForUnused_two_jobs :
    ∃ response, queryApi Orders.listed emptyLookup (sharedRequest 1) true = .ok response ∧
      List.Forall₂ (fun job result => ∃ alone,
          queryApi Orders.listed emptyLookup (.justOneJob job) true = .ok ⟨[alone]⟩ ∧
            SameButForUnused (sharedRequest 1) job result alone)
        (sharedRequest 1).jobs response.results :=
  ⟨_, rfl, (queryApi_sameButForUnused Orders.listed Orders.listed emptyLookup true
    (independent_emptyLookup true) (sharedRequest 1) (by decide) (by decide)).2 _ rfl⟩

theorem getElem?_listingJob {count : Nat} (hcount : 0 < count) :
    (listingJob count).memoryMap[0]? = some libA := by
  cases count with
  | zero => exact absurd hcount (lt_irrefl 0)
  | succ count =>
      rw [listingJob, List.replicate_succ]
      rfl

theorem asks_sharedRequest {count : Nat} (hcount : 0 < count) {lib : Lib} {address : Nat} :
    Asks (sharedRequest count) lib address ↔
      (lib = libA ∧ address = 5) ∨ (lib = libB ∧ address = 7) := by
  constructor
  · rintro ⟨job, hjob, frame, hframe, hlib, rfl⟩
    rcases List.mem_cons.mp hjob with rfl | hjob
    · obtain rfl : frame = ⟨0, 5⟩ := by simpa [jobFrames, listingJob] using hframe
      exact Or.inl ⟨Option.some.inj (hlib.symm.trans (getElem?_listingJob hcount)), rfl⟩
    · obtain rfl := List.mem_singleton.mp hjob
      obtain rfl : frame = ⟨0, 7⟩ := by simpa [jobFrames] using hframe
      exact Or.inr ⟨(Option.some.inj hlib).symm, rfl⟩
  · rintro (⟨rfl, rfl⟩ | ⟨rfl, rfl⟩)
    · exact ⟨_, List.mem_cons_self .., ⟨0, 5⟩, List.mem_singleton_self _,
        getElem?_listingJob hcount, rfl⟩
    · exact ⟨_, List.mem_cons_of_mem _ (List.mem_singleton_self _), ⟨0, 7⟩,
        List.mem_singleton_self _, rfl, rfl⟩

theorem indicesValid_sharedRequest (count : Nat) : IndicesValid (sharedRequest count) := by
  intro job hjob frame hframe
  rcases List.mem_cons.mp hjob with rfl | hjob
  · obtain rfl : frame = ⟨0, 5⟩ := by simpa [jobFrames, listingJob] using hframe
    show 0 < (List.replicate count libA ++ [libB]).length
    rw [List.length_append]
    exact Nat.succ_pos _
  · obtain rfl := List.mem_singleton.mp hjob
    obtain rfl : frame = ⟨0, 7⟩ := by simpa [jobFrames] using hframe
    exact Nat.one_pos

/-- With both libraries looked up, the library at index `2 ^ 32` takes the place
    of the one at index 0. -/
theorem sharedRequest_panics {count : Nat} (hcount : count = 2 ^ 32) :
    queryApi Orders.listed emptyLookup (sharedRequest count) true
      = .panic .addressNotInSymbolMap := by
  obtain ⟨symbolicated, h, hquery⟩ := queryApi_eq_createResponse Orders.listed
    (independent_emptyLookup true) (indicesValid_sharedRequest count)
  have hpos : 0 < count := hcount ▸ Nat.two_pow_pos 32
  obtain ⟨answer, hanswer, hlookup⟩ :=
    h.asked libB (requestAsks_iff.mpr ⟨7, (asks_sharedRequest hpos).mpr (Or.inr ⟨rfl, rfl⟩)⟩)
  -- library b at index 2 ^ 32 takes the place of library a at index 0
  have htable : (jobModules symbolicated (listingJob count).memoryMap).symbolsByModuleIndex.get? 0
      = some (forAddresses
        (sortAndDedup (askedAddresses (sharedRequest count) libB))).addressResults := by
    rw [listingJob, jobModules_concat, get?_addModule, List.length_replicate, moduleTable, hanswer,
      ← Outcome.ok.inj hlookup, hcount]
    exact if_pos ⟨rfl, rfl⟩
  have hmissing : 5 ∉ sortAndDedup (askedAddresses (sharedRequest count) libB) := by
    intro hmem
    rcases (asks_sharedRequest hpos).mp (mem_askedAddresses.mp (mem_sortAndDedup.mp hmem))
      with ⟨hlib, -⟩ | ⟨-, haddress⟩
    · exact absurd hlib (by decide)
    · exact absurd haddress (by decide)
  have hframe : (symbolForFrame ⟨0, 5⟩
      (jobModules symbolicated (listingJob count).memoryMap).symbolsByModuleIndex
      : Call GetSymbolsError _) = .panic .addressNotInSymbolMap := by
    rw [symbolForFrame, show (⟨0, 5⟩ : Request.StackFrame).moduleIndex.toNat = 0 from rfl, htable]
    show (Outcome.unwrap .addressNotInSymbolMap
      ((forAddresses _).addressResults.get? 5) >>= _ : Call GetSymbolsError _) = _
    rw [get?_forAddresses, if_neg hmissing]
    rfl
  have hstacks : (listingJob count).callStacks = [[⟨0, 5⟩]] := rfl
  rw [hquery]
  simp only [createResponse, sharedRequest, Request.jobs, List.mapM_cons, resultForJob, hstacks,
    responseStackForRequestStack, List.zipIdx_cons, responseFrameForRequestFrame, hframe,
    Outcome.panic_bind]

/-- Alone, the job never meets the library at index `2 ^ 32`. -/
theorem listingJob_answers {count : Nat} (hpos : 0 < count) (hcount : count ≤ 2 ^ 32) :
    ∃ alone, queryApi Orders.listed emptyLookup (.justOneJob (listingJob count)) true
      = .ok ⟨[alone]⟩ := by
  have hframes : jobFrames (listingJob count) = [⟨0, 5⟩] := rfl
  have hindex : IndicesValid (.justOneJob (listingJob count)) := by
    intro job hjob frame hframe
    obtain rfl := List.mem_singleton.mp hjob
    exact indicesValid_sharedRequest count _ (List.mem_cons_self ..) frame hframe
  have hasks : ∀ lib, RequestAsks (.justOneJob (listingJob count)) lib ↔ lib = libA := by
    intro lib
    constructor
    · rintro ⟨job, hjob, frame, hframe, hlib⟩
      obtain rfl := List.mem_singleton.mp hjob
      rw [hframes] at hframe
      obtain rfl := List.mem_singleton.mp hframe
      exact Option.some.inj (hlib.symm.trans (getElem?_listingJob hpos))
    · rintro rfl
      exact ⟨_, List.mem_singleton_self _, ⟨0, 5⟩, List.mem_singleton_self _,
        getElem?_listingJob hpos⟩
  obtain ⟨symbolicated, h, hquery⟩ := queryApi_eq_createResponse Orders.listed
    (independent_emptyLookup true) hindex
  obtain ⟨answer, hanswer, hlookup⟩ := h.asked libA ((hasks libA).mpr rfl)
  have hnone : symbolicated.get? libB = none :=
    h.others libB (fun hasked => absurd ((hasks libB).mp hasked) (by decide))
  -- the library at the end is not asked for, so it adds nothing
  have hmodules : jobModules symbolicated (listingJob count).memoryMap
      = jobModules symbolicated (List.replicate count libA) := by
    rw [listingJob, jobModules_concat, addModule, hnone]
  have hasked : askedAddresses (.justOneJob (listingJob count)) libA = [5] := by
    simp [askedAddresses, Request.jobs, hframes, getElem?_listingJob hpos]
  have htable : (jobModules symbolicated (listingJob count).memoryMap).symbolsByModuleIndex.get? 0
      = some (forAddresses [5]).addressResults := by
    rw [hmodules, get?_jobModules _ (by rw [List.length_replicate]; exact hcount),
      List.getElem?_replicate_of_lt hpos, Option.bind_some, moduleTable, hanswer,
      ← Outcome.ok.inj hlookup, hasked]
    rfl
  have hframe : (symbolForFrame ⟨0, 5⟩
      (jobModules symbolicated (listingJob count).memoryMap).symbolsByModuleIndex
      : Call GetSymbolsError _) = .ok none := by
    rw [symbolForFrame, show (⟨0, 5⟩ : Request.StackFrame).moduleIndex.toNat = 0 from rfl, htable]
    rfl
  have hlib : (Outcome.unwrap .indexOutOfBounds (listingJob count).memoryMap[0]?
      : Call GetSymbolsError _) = .ok libA := by
    rw [getElem?_listingJob hpos]
    rfl
  have hstacks : (listingJob count).callStacks = [[⟨0, 5⟩]] := rfl
  have hzero : (0 : UInt32).toNat = 0 := rfl
  refine ⟨⟨[[⟨0, 5, "a", none⟩]],
    (jobModules symbolicated (listingJob count).memoryMap).foundModules,
    (jobModules symbolicated (listingJob count).memoryMap).moduleErrors⟩, ?_⟩
  rw [hquery, createResponse_eq_ok]
  refine .cons (resultForJob_eq_ok.mpr ⟨?_, rfl, rfl⟩) .nil
  simp only [hstacks, List.mapM_cons, List.mapM_nil, responseStackForRequestStack,
    List.zipIdx_cons, List.zipIdx_nil, responseFrameForRequestFrame, hframe, Outcome.ok_bind,
    hzero, hlib, Outcome.pure_eq_ok]
  rfl

/-- **NOT THE RESULT ALONE**: of two jobs the first reports library `b` as found, since
    the second refers to it, and does not when it is sent alone.  With `2 ^ 32`
    entries before that library, the request is not answered at all. -/
theorem not_queryApi_sameResult :
    Independent emptyLookup true ∧
    (IndicesValid (sharedRequest 1) ∧ ∃ result others alone,
      queryApi Orders.listed emptyLookup (sharedRequest 1) true = .ok ⟨result :: others⟩ ∧
      queryApi Orders.listed emptyLookup (.justOneJob (listingJob 1)) true = .ok ⟨[alone]⟩ ∧
      ¬ SameResult result alone) ∧
    (IndicesValid (sharedRequest (2 ^ 32)) ∧
      queryApi Orders.listed emptyLookup (sharedRequest (2 ^ 32)) true
        = .panic .addressNotInSymbolMap ∧
      ∃ alone, queryApi Orders.listed emptyLookup (.justOneJob (listingJob (2 ^ 32))) true
        = .ok ⟨[alone]⟩) := by
  refine ⟨independent_emptyLookup true,
    ⟨indicesValid_sharedRequest 1, _, _, _, rfl, rfl, fun h => ?_⟩,
    indicesValid_sharedRequest _, sharedRequest_panics rfl,
    listingJob_answers (Nat.two_pow_pos 32) (le_refl _)⟩
  have hfound := (h.2 (moduleKey libB)).1
  exact absurd hfound (by decide)

end Samples

end ProfilerGetSymbols.SymbolicateV5
