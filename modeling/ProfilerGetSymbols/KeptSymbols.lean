import ProfilerGetSymbols.Elf
import ProfilerGetSymbols.Readability
import ProfilerGetSymbols.Windows

/-! # Kept symbols — what a query loses by asking for debug info

    A query with debug info finds the same functions as one without.  What the
    debug info adds may give a function another name, and an address without a
    function a slot; where a function starts and how long it is, it leaves alone.

    But it may take everything away.  A file that cannot be opened is skipped on
    the way; whatever is opened and then cannot be read fails the whole query,
    and the symbols that have been found go with it.  `losesNothing_iff` says
    what has to be readable in each kind of file. -/

namespace ProfilerGetSymbols

open ProgLib Paths Dwarf

/-- What is assumed of `pdb_addr2line`: both lookups fail on the same addresses, and
    agree on a function's start and end. -/
structure PdbContext.Agrees (context : PdbContext) : Prop where
  fails : ∀ address, (∃ e, context.findFrames address = .error e) ↔
    ∃ e, context.findFunction address = .error e
  extents : ∀ address frames function, context.findFrames address = .ok frames →
    context.findFunction address = .ok function →
    frames.map (fun f => (f.startRva, f.endRva)) = function.map (fun f => (f.startRva, f.endRva))

/-- Where a function can be looked up, its frames can, and they are a function's of the
    same extent. -/
theorem PdbContext.Agrees.exists_findFrames {context : PdbContext} (h : context.Agrees)
    {address : Nat} {function : Option PdbFunction}
    (hfunction : context.findFunction address = .ok function) :
    ∃ frames, context.findFrames address = .ok frames ∧
      frames.map (fun f => (f.startRva, f.endRva)) = function.map (fun f => (f.startRva, f.endRva)) := by
  cases hframes : context.findFrames address with
  | ok frames => exact ⟨frames, rfl, h.extents address frames function hframes hfunction⟩
  | error e =>
      obtain ⟨e', he'⟩ := (h.fails address).mp ⟨e, hframes⟩
      cases he'.symm.trans hfunction

/-- The same query for some addresses, with or without debug info. -/
def SymbolicationQuery.askFor (query : SymbolicationQuery) (addresses : List Nat)
    (withDebugInfo : Bool) : SymbolicationQuery :=
  { query with resultKind := .symbolsForAddresses addresses withDebugInfo }

namespace LookedUpAddresses

/-- Symbols of one extent keep the extents that were kept before. -/
theorem KeepsExtents.setSlot {r r' : LookedUpAddresses} (h : KeepsExtents r r') (address : Nat)
    {slot slot' : AddressResult} (hstart : slot.symbolAddress = slot'.symbolAddress)
    (hsize : slot.functionSize = slot'.functionSize) :
    KeepsExtents (r.setSlot address slot) (r'.setSlot address slot') := by
  intro other extent hextent
  rw [extentAt_setSlot] at hextent ⊢
  by_cases heq : address = other
  · rw [if_pos heq] at hextent ⊢
    rw [← hextent, hstart, hsize]
  · rw [if_neg heq] at hextent ⊢
    exact h other extent hextent

end LookedUpAddresses

/-! ## PDB files -/

namespace Windows

variable [Crates]

/-- The source server stream can be read, if the PDB has one. -/
structure SrcsrvReadable (pdb : Pdb) : Prop where
  missing : ∀ e, pdb.namedStream (asBytes "srcsrv") = .error e →
    e = .streamNameNotFound ∨ ∃ stream, e = .streamNotFound stream
  parses : ∀ stream, pdb.namedStream (asBytes "srcsrv") = .ok stream →
    ∃ parsed, Crates.parseSrcSrvStream stream = .ok parsed

/-- The frames of a function end with one whose name can be demangled. -/
def OuterFrameReadable (func : FunctionFrames) : Prop :=
  ∃ outer, func.frames.getLast? = some outer ∧ Demangles (outer.function.getD "unknown")

/-- All frames that are found can be read. -/
def FramesReadable (context : PdbContext) (addresses : List Nat) : Prop :=
  ∀ address ∈ addresses, ∀ func, context.findFrames address = .ok (some func) →
    OuterFrameReadable func

section Loop

variable [Platform] {context : PdbContext} {address : Nat} {r r' s s' : LookedUpAddresses}
  {m m' : PathMapper SrcSrvPathMapper}

/-- The symbol that the loop adds for a function with frames. -/
theorem addFunctionFrames_eq_ok {func : FunctionFrames}
    (hfind : context.findFrames address = .ok (some func))
    (h : (addFunctionFrames context address r m) = .ok (s, m')) :
    OuterFrameReadable func ∧ (∀ a, r.Has a → s.Has a) ∧ ∃ name,
      (r.setSlot address (LookedUpAddresses.symbolResult func.startRva name
        (func.endRva.map fun endRva => u32Sub endRva func.startRva))).KeepsExtents s := by
  rw [addFunctionFrames, hfind] at h
  obtain ⟨found, hfound, h⟩ := Outcome.bind_eq_ok.mp h
  obtain rfl : some func = found := Outcome.ok.inj hfound
  obtain ⟨outer, houter, h⟩ := Outcome.bind_eq_ok.mp h
  obtain ⟨r₁, hr₁, h⟩ := Outcome.bind_eq_ok.mp h
  have houter := Outcome.unwrap_eq_ok.mp houter
  obtain ⟨name, hname, hhas, rfl⟩ := LookedUpAddresses.addAddressSymbol_eq_ok.mp hr₁
  refine ⟨⟨outer, houter, name, hname⟩, ?_⟩
  have hslots := fun a (ha : r.Has a) => (LookedUpAddresses.has_setSlot hhas
    (LookedUpAddresses.symbolResult func.startRva name
      (func.endRva.map fun endRva => u32Sub endRva func.startRva)) a).mpr ha
  -- the frames are added to a slot that keeps its symbol
  split at h
  · generalize convertFrames func.frames m = converted at h
    obtain ⟨frames, m₁⟩ := converted
    dsimp only at h
    split at h
    · obtain ⟨rfl, -⟩ := Prod.mk.inj (Outcome.ok.inj h)
      exact ⟨hslots, name, .refl _⟩
    · obtain ⟨r₂, hr₂, h⟩ := Outcome.bind_eq_ok.mp h
      obtain ⟨rfl, -⟩ := Prod.mk.inj (Outcome.ok.inj h)
      refine ⟨?_, name, .of_addAddressDebugInfo hr₂⟩
      obtain ⟨entry, hentry, rfl⟩ := LookedUpAddresses.addAddressDebugInfo_eq_ok.mp hr₂
      intro a ha
      refine (LookedUpAddresses.has_setSlot ?_ _ a).mpr (hslots a ha)
      rw [LookedUpAddresses.Has, hentry]
      rfl
  · obtain ⟨rfl, -⟩ := Prod.mk.inj (Outcome.ok.inj h)
    exact ⟨hslots, name, .refl _⟩

/-- The frames of a function that can be read are added. -/
theorem exists_addFunctionFrames {func : FunctionFrames}
    (hfind : context.findFrames address = .ok (some func)) (hhas : r.Has address)
    (h : OuterFrameReadable func) :
    ∃ s m', addFunctionFrames context address r m = .ok (s, m') := by
  obtain ⟨outer, houter, name, hname⟩ := h
  have hsymbol : (SymbolicationResult.addAddressSymbol r address func.startRva
      (outer.function.getD "unknown") (func.endRva.map fun endRva => u32Sub endRva func.startRva)
      : Call GetSymbolsError LookedUpAddresses) = .ok _ :=
    LookedUpAddresses.addAddressSymbol_eq_ok.mpr ⟨name, hname, hhas, rfl⟩
  rw [addFunctionFrames, hfind]
  simp only [Except.mapError, Outcome.ofExcept, Outcome.ok_bind, houter, Outcome.unwrap, hsymbol]
  split
  · generalize convertFrames func.frames m = converted
    obtain ⟨frames, m₁⟩ := converted
    dsimp only
    split
    · exact ⟨_, _, rfl⟩
    · have hframes : (SymbolicationResult.addAddressDebugInfo (r.setSlot address
          (LookedUpAddresses.symbolResult func.startRva name
            (func.endRva.map fun endRva => u32Sub endRva func.startRva))) address ⟨frames⟩
          : Call GetSymbolsError LookedUpAddresses) = .ok _ :=
        LookedUpAddresses.addAddressDebugInfo_eq_ok.mpr
          ⟨_, LookedUpAddresses.get?_setSlot_self _ _ _, rfl⟩
      exact ⟨_, _, Outcome.bind_eq_ok.mpr ⟨_, hframes, rfl⟩⟩
  · exact ⟨_, _, rfl⟩

/-- An address without a function adds nothing. -/
theorem addFunctionFrames_of_none (hfind : context.findFrames address = .ok none) :
    addFunctionFrames context address r m = .ok (r, m) := by
  rw [addFunctionFrames, hfind]
  rfl

/-- One round answers where it can read the frames. -/
theorem exists_addFunctionFrames_iff {frames : Option FunctionFrames}
    (hfind : context.findFrames address = .ok frames) (hhas : r.Has address) :
    (∃ out, addFunctionFrames context address r m = .ok out) ↔
      ∀ func, context.findFrames address = .ok (some func) → OuterFrameReadable func := by
  constructor
  · rintro ⟨⟨s, m'⟩, h⟩ func hfunc
    exact (addFunctionFrames_eq_ok hfunc h).1
  · intro h
    cases frames with
    | none => exact ⟨_, addFunctionFrames_of_none hfind⟩
    | some func =>
        obtain ⟨s, m', hs⟩ := exists_addFunctionFrames hfind hhas (h func hfind)
        exact ⟨(s, m'), hs⟩

/-- One round keeps the slots. -/
theorem has_addFunctionFrames {frames : Option FunctionFrames}
    (hfind : context.findFrames address = .ok frames)
    (h : addFunctionFrames context address r m = .ok (s, m')) {a : Nat} (ha : r.Has a) : s.Has a := by
  cases frames with
  | none =>
      rw [addFunctionFrames_of_none hfind] at h
      obtain ⟨rfl, -⟩ := Prod.mk.inj (Outcome.ok.inj h)
      exact ha
  | some func => exact (addFunctionFrames_eq_ok hfind h).2.1 a ha

omit [Platform] in
/-- The symbol that the loop adds for a function. -/
theorem addFunction_eq_ok (h : addFunction context address r = .ok s) :
    ∃ found, context.findFunction address = .ok found ∧ ((found = none ∧ s = r) ∨
      ∃ func name, found = some func ∧
        s = r.setSlot address (LookedUpAddresses.symbolResult func.startRva name
          (func.endRva.map fun endRva => u32Sub endRva func.startRva))) := by
  rw [addFunction] at h
  obtain ⟨found, hfound, h⟩ := Outcome.bind_eq_ok.mp h
  refine ⟨found, Outcome.ofExcept_mapError_eq_ok.mp hfound, ?_⟩
  cases found with
  | none => exact Or.inl ⟨rfl, (Outcome.ok.inj h).symm⟩
  | some func =>
      obtain ⟨name, -, -, heq⟩ := LookedUpAddresses.addAddressSymbol_eq_ok.mp h
      exact Or.inr ⟨func, name, rfl, heq⟩

/-- The loop with debug info answers where it can read the frames. -/
theorem exists_addAddresses_iff (hagrees : context.Agrees) {todo : List Nat}
    (hr : addAddresses context false todo r m = .ok s) (hslots : ∀ a ∈ todo, r'.Has a) :
    (∃ s', addAddresses context true todo r' m' = .ok s') ↔ FramesReadable context todo := by
  induction todo generalizing r r' m m' with
  | nil =>
      constructor
      · intro _ address haddress
        cases haddress
      · exact fun _ => ⟨r', rfl⟩
  | cons address todo ih =>
      have hr : (addFunction context address r >>= fun r₁ => addAddresses context false todo r₁ m)
          = .ok s := hr
      obtain ⟨r₁, hr₁, hrest⟩ := Outcome.bind_eq_ok.mp hr
      obtain ⟨found, hfound, -⟩ := addFunction_eq_ok hr₁
      obtain ⟨frames, hframes, -⟩ := hagrees.exists_findFrames hfound
      rw [List.forall_mem_cons] at hslots
      -- the loops go on with different results, but both with the slots that are asked for
      have hcall : addAddresses context true (address :: todo) r' m'
          = (addFunctionFrames context address r' m' >>= fun out =>
            addAddresses context true todo out.1 out.2) := rfl
      rw [hcall, FramesReadable, List.forall_mem_cons, ← exists_addFunctionFrames_iff hframes hslots.1]
      constructor
      · rintro ⟨s', hs'⟩
        obtain ⟨⟨r₁', m₁'⟩, hstep, hrest'⟩ := Outcome.bind_eq_ok.mp hs'
        have hslots' := fun a ha => has_addFunctionFrames hframes hstep (hslots.2 a ha)
        exact ⟨⟨_, hstep⟩, (ih hrest hslots').mp ⟨s', hrest'⟩⟩
      · rintro ⟨⟨⟨r₁', m₁'⟩, hstep⟩, hreadable⟩
        have hslots' := fun a ha => has_addFunctionFrames hframes hstep (hslots.2 a ha)
        obtain ⟨s', hs'⟩ := (ih hrest hslots').mpr hreadable
        exact ⟨s', Outcome.bind_eq_ok.mpr ⟨_, hstep, hs'⟩⟩

/-- **THE SAME FUNCTIONS**: both loops give an address the same extent. -/
theorem keepsExtents_addAddresses (hagrees : context.Agrees) {todo : List Nat}
    (hr : addAddresses context false todo r m = .ok s)
    (hr' : addAddresses context true todo r' m' = .ok s') (hkeeps : r.KeepsExtents r') :
    s.KeepsExtents s' := by
  induction todo generalizing r r' m m' with
  | nil =>
      obtain rfl : r = s := Outcome.ok.inj hr
      obtain rfl : r' = s' := Outcome.ok.inj hr'
      exact hkeeps
  | cons address todo ih =>
      have hr : (addFunction context address r >>= fun r₁ => addAddresses context false todo r₁ m)
          = .ok s := hr
      have hr' : (addFunctionFrames context address r' m' >>= fun out =>
          addAddresses context true todo out.1 out.2) = .ok s' := hr'
      obtain ⟨r₁, hr₁, hrest⟩ := Outcome.bind_eq_ok.mp hr
      obtain ⟨⟨r₁', m₁'⟩, hr₁', hrest'⟩ := Outcome.bind_eq_ok.mp hr'
      obtain ⟨found, hfound, hadded⟩ := addFunction_eq_ok hr₁
      obtain ⟨frames, hframes, hextents⟩ := hagrees.exists_findFrames hfound
      refine ih hrest hrest' ?_
      -- both lookups find a function, or neither does
      rcases hadded with ⟨rfl, rfl⟩ | ⟨function, name, rfl, rfl⟩
      · obtain rfl := Option.map_eq_none_iff.mp hextents
        rw [addFunctionFrames_of_none hframes] at hr₁'
        obtain ⟨rfl, -⟩ := Prod.mk.inj (Outcome.ok.inj hr₁')
        exact hkeeps
      · obtain ⟨func, rfl, hextent⟩ := Option.map_eq_some_iff.mp hextents
        obtain ⟨hstart, hend⟩ := Prod.mk.inj hextent
        obtain ⟨-, -, name', hsymbol⟩ := addFunctionFrames_eq_ok hframes hr₁'
        refine LookedUpAddresses.KeepsExtents.trans (hkeeps.setSlot address ?_ ?_) hsymbol
        · exact hstart.symm
        · show function.endRva.map _ = func.endRva.map _
          rw [hstart, hend]

end Loop

section Query

variable [Platform] {basePath : BasePath} {pdb : Pdb} {query : SymbolicationQuery}
  {addresses : List Nat} {withDebugInfo : Bool} {r r' : LookedUpAddresses}

/-- The stages of a query for addresses. -/
theorem getSymbolicationResult_eq_ok :
    getSymbolicationResult LookedUpAddresses basePath pdb (query.askFor addresses withDebugInfo) = .ok r ↔
      pdbDebugId pdb = .ok query.debugId ∧
      ∃ stream context mapper found,
        srcsrvStreamData pdb (query.askFor addresses withDebugInfo) = .ok stream ∧
        pdb.tryFromPdb = .ok (.ok context) ∧ srcsrvPathMapper stream = .ok mapper ∧
        addAddresses context withDebugInfo addresses (LookedUpAddresses.forAddresses addresses)
          (PathMapper.newWithMaybeExtraMapper basePath mapper) = .ok found ∧
        r = { found with symbolCount := asU32 context.functionCount } := by
  rw [getSymbolicationResult, Outcome.bind_eq_ok]
  constructor
  · rintro ⟨fileDebugId, hid, h⟩
    split at h
    · cases h
    · next hne =>
      obtain ⟨stream, hstream, h⟩ := Outcome.bind_eq_ok.mp h
      obtain ⟨data, hdata, h⟩ := Outcome.bind_eq_ok.mp h
      obtain ⟨context, hcontext, h⟩ := Outcome.bind_eq_ok.mp h
      obtain ⟨mapper, hmapper, h⟩ := Outcome.bind_eq_ok.mp h
      obtain ⟨empty, hempty, h⟩ := Outcome.bind_eq_ok.mp h
      obtain rfl : LookedUpAddresses.forAddresses addresses = empty := Outcome.ok.inj hempty
      obtain ⟨found, hfound, h⟩ := Outcome.bind_eq_ok.mp h
      refine ⟨?_, stream, context, mapper, found, Outcome.ofExcept_eq_ok.mp hstream, ?_,
        Outcome.ofExcept_eq_ok.mp hmapper, hfound, (Outcome.ok.inj h).symm⟩
      · rw [Outcome.ofExcept_eq_ok.mp hid, not_not.mp hne]
        rfl
      · rw [Outcome.ofExcept_mapError_eq_ok.mp hdata, Outcome.ofExcept_mapError_eq_ok.mp hcontext]
  · rintro ⟨hid, stream, context, mapper, found, hstream, hcontext, hmapper, hfound, rfl⟩
    refine ⟨query.debugId, Outcome.ofExcept_eq_ok.mpr hid, ?_⟩
    refine (if_neg (not_not.mpr rfl)).trans ?_
    refine Outcome.bind_eq_ok.mpr ⟨stream, Outcome.ofExcept_eq_ok.mpr hstream, ?_⟩
    refine Outcome.bind_eq_ok.mpr ⟨.ok context, Outcome.ofExcept_mapError_eq_ok.mpr hcontext, ?_⟩
    refine Outcome.bind_eq_ok.mpr ⟨context, Outcome.ofExcept_mapError_eq_ok.mpr rfl, ?_⟩
    refine Outcome.bind_eq_ok.mpr ⟨mapper, Outcome.ofExcept_eq_ok.mpr hmapper, ?_⟩
    refine Outcome.bind_eq_ok.mpr ⟨LookedUpAddresses.forAddresses addresses, rfl, ?_⟩
    exact Outcome.bind_eq_ok.mpr ⟨found, hfound, rfl⟩

omit [Platform] in
/-- The source server stream is read where the query wants debug info. -/
theorem exists_srcsrvPathMapper_iff :
    (∃ stream mapper, srcsrvStreamData pdb (query.askFor addresses true) = .ok stream ∧
      srcsrvPathMapper stream = .ok mapper) ↔ SrcsrvReadable pdb := by
  have hwants : (query.askFor addresses true).resultKind.wantsDebugInfoForAddresses = true := rfl
  rw [srcsrvStreamData, if_pos hwants]
  cases hnamed : pdb.namedStream (asBytes "srcsrv") with
  | ok bytes =>
      constructor
      · rintro ⟨stream, mapper, hstream, hmapper⟩
        obtain rfl : some bytes = stream := Except.ok.inj hstream
        refine ⟨(fun e he => by cases hnamed.symm.trans he), ?_⟩
        intro bytes' hbytes'
        obtain rfl := Except.ok.inj (hnamed.symm.trans hbytes')
        cases hparse : Crates.parseSrcSrvStream bytes with
        | ok parsed => exact ⟨parsed, rfl⟩
        | error e =>
            rw [srcsrvPathMapper, hparse] at hmapper
            cases hmapper
      · intro h
        obtain ⟨parsed, hparsed⟩ := h.parses bytes hnamed
        refine ⟨some bytes, some (.new parsed), rfl, ?_⟩
        rw [srcsrvPathMapper, hparsed]
        rfl
  | error e =>
      constructor
      · rintro ⟨stream, mapper, hstream, -⟩
        refine ⟨?_, fun bytes hbytes => by cases hnamed.symm.trans hbytes⟩
        intro e' he'
        obtain rfl := Except.error.inj (hnamed.symm.trans he')
        -- a missing stream is no error to the code, any other failure is
        cases e with
        | streamNameNotFound => exact Or.inl rfl
        | streamNotFound n => exact Or.inr ⟨n, rfl⟩
        | other message => cases hstream
      · intro h
        rcases h.missing e hnamed with rfl | ⟨n, rfl⟩
        · exact ⟨none, none, rfl, rfl⟩
        · exact ⟨none, none, rfl, rfl⟩

/-- The source server stream of a PDB can be read, and so can the frames it gives. -/
structure DebugInfoReadable (pdb : Pdb) (addresses : List Nat) : Prop where
  srcsrv : SrcsrvReadable pdb
  frames : ∀ context, pdb.tryFromPdb = .ok (.ok context) → FramesReadable context addresses

/-- **WHEN A PDB ANSWERS WITH DEBUG INFO**, where it answers without. -/
theorem exists_getSymbolicationResult_iff
    (hagrees : ∀ context, pdb.tryFromPdb = .ok (.ok context) → context.Agrees)
    (hr : getSymbolicationResult LookedUpAddresses basePath pdb (query.askFor addresses false) = .ok r) :
    (∃ r', getSymbolicationResult LookedUpAddresses basePath pdb (query.askFor addresses true) = .ok r') ↔
      DebugInfoReadable pdb addresses := by
  obtain ⟨hid, -, context, mapper, found, -, hcontext, -, hfound, -⟩ := getSymbolicationResult_eq_ok.mp hr
  have hslots : ∀ a ∈ addresses, (LookedUpAddresses.forAddresses addresses).Has a :=
    fun a ha => LookedUpAddresses.has_forAddresses.mpr ha
  have hloop : ∀ m' : PathMapper SrcSrvPathMapper,
      (∃ s', addAddresses context true addresses (LookedUpAddresses.forAddresses addresses) m' = .ok s') ↔
        FramesReadable context addresses :=
    fun _ => exists_addAddresses_iff (hagrees context hcontext) hfound hslots
  have hsrcsrv : (∃ stream mapper, srcsrvStreamData pdb (query.askFor addresses true) = .ok stream ∧
      srcsrvPathMapper stream = .ok mapper) ↔ SrcsrvReadable pdb := exists_srcsrvPathMapper_iff
  constructor
  · rintro ⟨r', hr'⟩
    obtain ⟨-, stream, context', mapper', found', hstream, hcontext', hmapper, hfound', -⟩ :=
      getSymbolicationResult_eq_ok.mp hr'
    refine ⟨hsrcsrv.mp ⟨stream, mapper', hstream, hmapper⟩, ?_⟩
    intro context'' hcontext''
    obtain rfl := Except.ok.inj (Except.ok.inj (hcontext.symm.trans hcontext'))
    obtain rfl := Except.ok.inj (Except.ok.inj (hcontext.symm.trans hcontext''))
    exact (hloop _).mp ⟨found', hfound'⟩
  · intro h
    obtain ⟨stream, mapper', hstream, hmapper⟩ := hsrcsrv.mpr h.srcsrv
    obtain ⟨found', hfound'⟩ := (hloop _).mpr (h.frames context hcontext)
    exact ⟨_, getSymbolicationResult_eq_ok.mpr
      ⟨hid, stream, context, mapper', found', hstream, hcontext, hmapper, hfound', rfl⟩⟩

/-- A PDB gives an address the same extent with debug info. -/
theorem keepsExtents_getSymbolicationResult
    (hagrees : ∀ context, pdb.tryFromPdb = .ok (.ok context) → context.Agrees)
    (hr : getSymbolicationResult LookedUpAddresses basePath pdb (query.askFor addresses false) = .ok r)
    (hr' : getSymbolicationResult LookedUpAddresses basePath pdb (query.askFor addresses true) = .ok r') :
    r.KeepsExtents r' := by
  obtain ⟨-, -, context, mapper, found, -, hcontext, -, hfound, rfl⟩ := getSymbolicationResult_eq_ok.mp hr
  obtain ⟨-, -, context', mapper', found', -, hcontext', -, hfound', rfl⟩ :=
    getSymbolicationResult_eq_ok.mp hr'
  obtain rfl := Except.ok.inj (Except.ok.inj (hcontext.symm.trans hcontext'))
  have hkeeps : found.KeepsExtents found' :=
    keepsExtents_addAddresses (hagrees context hcontext) hfound hfound' (.refl _)
  exact hkeeps

end Query

end Windows

/-! ## ELF files -/

namespace Elf

variable [Crates] [Platform] {basePath : BasePath} {query : SymbolicationQuery} {addresses : List Nat}

section Object

variable {obj : ObjectFile} {contents : FileContents} {r r' : LookedUpAddresses}

/-- With debug info, the debug info of the object comes after its symbols. -/
theorem getSymbolicationResultImpl_withDebugInfo :
    getSymbolicationResultImpl LookedUpAddresses obj basePath contents (query.askFor addresses true)
      = (do
        let r ← getSymbolicationResultImpl LookedUpAddresses obj basePath contents
          (query.askFor addresses false)
        let (r, _) ← collectDwarfAddressDebugData contents.fullRange obj
          (makeAddressPairsForRootObject addresses obj) r (PathMapper.new basePath)
        return r) := by
  rw [getSymbolicationResultImpl, getSymbolicationResultImpl]
  show _ = ((_ >>= fun r => pure r) >>= _)
  rw [bind_pure]
  rfl

/-- The symbols leave a slot for each requested address. -/
theorem has_of_getSymbolicationResultImpl
    (h : getSymbolicationResultImpl LookedUpAddresses obj basePath contents
      (query.askFor addresses false) = .ok r) : ∀ a ∈ addresses, r.Has a := by
  obtain ⟨r₁, hr₁, heq⟩ := Outcome.bind_eq_ok.mp h
  obtain rfl : r₁ = r := Outcome.ok.inj heq
  have hsafe := LookedUpAddresses.safe (ε := GetSymbolsError) (fun _ => True) trivial trivial addresses
  exact (Symbols.settles_getSymbolicationResultForAddressesFromObject trivial hsafe _ _ _).2 r₁ hr₁

/-- A lookup of addresses with slots answers where the debug info can be read. -/
theorem exists_collectDwarfAddressDebugData_iff {data : RangeReadRef} {pairs : List AddressPair}
    (hslots : ∀ pair ∈ pairs, r.Has pair.originalRelativeAddress) :
    (∃ out, (collectDwarfAddressDebugData data obj pairs r (PathMapper.new basePath)
      : Call GetSymbolsError _) = .ok out) ↔ LookupReadable data obj pairs := by
  have hmapper : (PathMapper.new basePath : PathMapper Unit).basePath = basePath := rfl
  constructor
  · rintro ⟨⟨r', m'⟩, h⟩
    obtain ⟨us, hus, -⟩ := (Dwarf.collect_eq_ok hmapper).mp ⟨m', h⟩
    exact exists_debugUpdates_iff.mp ⟨us, hus⟩
  · intro h
    have hupdates : ∃ us, (debugUpdates basePath data obj pairs : Call GetSymbolsError _) = .ok us :=
      exists_debugUpdates_iff.mpr h
    obtain ⟨us, hus⟩ := hupdates
    obtain ⟨r', hr'⟩ : ∃ r', (addAll r us : Call GetSymbolsError LookedUpAddresses) = .ok r' := by
      refine Traversal.exists_addAll (List.forall_mem_map.mpr hslots) ?_
      intro u hu
      have hmade : u.1 ∈ us.map Prod.fst := List.mem_map_of_mem hu
      exact (map_fst_debugUpdates hus).subset hmade
    obtain ⟨m', h⟩ := (Dwarf.collect_eq_ok hmapper).mpr ⟨us, hus, hr'⟩
    exact ⟨(r', m'), h⟩

/-- **WHEN AN OBJECT ANSWERS WITH DEBUG INFO**, where it answers without. -/
theorem exists_getSymbolicationResultImpl_iff
    (hr : getSymbolicationResultImpl LookedUpAddresses obj basePath contents
      (query.askFor addresses false) = .ok r) :
    (∃ r', getSymbolicationResultImpl LookedUpAddresses obj basePath contents
      (query.askFor addresses true) = .ok r') ↔
      LookupReadable contents.fullRange obj (makeAddressPairsForRootObject addresses obj) := by
  have hslots : ∀ pair ∈ makeAddressPairsForRootObject addresses obj,
      r.Has pair.originalRelativeAddress := by
    intro pair hpair
    obtain ⟨address, haddress, rfl⟩ := List.mem_map.mp hpair
    exact has_of_getSymbolicationResultImpl hr address haddress
  rw [getSymbolicationResultImpl_withDebugInfo, hr, Outcome.ok_bind, Outcome.exists_bind_pure_eq_ok,
    exists_collectDwarfAddressDebugData_iff hslots]

/-- An object gives an address the same extent with debug info. -/
theorem keepsExtents_getSymbolicationResultImpl
    (hr : getSymbolicationResultImpl LookedUpAddresses obj basePath contents
      (query.askFor addresses false) = .ok r)
    (hr' : getSymbolicationResultImpl LookedUpAddresses obj basePath contents
      (query.askFor addresses true) = .ok r') : r.KeepsExtents r' := by
  rw [getSymbolicationResultImpl_withDebugInfo, hr, Outcome.ok_bind] at hr'
  obtain ⟨⟨r₁, m'⟩, hcollect, heq⟩ := Outcome.bind_eq_ok.mp hr'
  obtain rfl : r₁ = r' := Outcome.ok.inj heq
  obtain ⟨us, -, hadd⟩ := (Dwarf.collect_eq_ok rfl).mp ⟨m', hcollect⟩
  exact Traversal.keepsExtents_addAll hadd

end Object

section File

variable [Target] {fileKind : FileKind} {contents : FileContents} {withDebugInfo : Bool}
  {r r' : LookedUpAddresses}

/-- The object that is looked up, and its data: the one in `.gnu_debugdata`, or the file. -/
def lookedUpObject (elfFile : ObjectFile) (contents : FileContents) : ObjectFile × FileContents :=
  (debugdataObject elfFile).getD (elfFile, contents)

/-- The stages of a query for addresses. -/
theorem getSymbolicationResult_eq_ok :
    getSymbolicationResult LookedUpAddresses basePath fileKind contents
        (query.askFor addresses withDebugInfo) = .ok r ↔
      ∃ elfFile, Crates.parseFile contents.fullRange = .ok elfFile ∧
        debugIdForObject elfFile = some query.debugId ∧
        getSymbolicationResultImpl LookedUpAddresses (lookedUpObject elfFile contents).1 basePath
          (lookedUpObject elfFile contents).2 (query.askFor addresses withDebugInfo) = .ok r := by
  rw [getSymbolicationResult, Outcome.bind_eq_ok]
  refine exists_congr (fun elfFile => ?_)
  rw [Outcome.ofExcept_mapError_eq_ok]
  refine and_congr_right (fun _ => ?_)
  have hid : (query.askFor addresses withDebugInfo).debugId = query.debugId := rfl
  rw [hid, lookedUpObject]
  cases debugIdForObject elfFile with
  | none => simp
  | some elfDebugId =>
      by_cases heq : elfDebugId = query.debugId
      · cases debugdataObject elfFile with
        | none => simp [heq]
        | some object => simp [heq]
      · simp [heq]

/-- The debug info of the object that is looked up can be read. -/
def DebugInfoReadable (contents : FileContents) (addresses : List Nat) : Prop :=
  ∀ elfFile, Crates.parseFile contents.fullRange = .ok elfFile →
    LookupReadable (lookedUpObject elfFile contents).2.fullRange (lookedUpObject elfFile contents).1
      (makeAddressPairsForRootObject addresses (lookedUpObject elfFile contents).1)

/-- **WHEN AN ELF FILE ANSWERS WITH DEBUG INFO**, where it answers without. -/
theorem exists_getSymbolicationResult_iff
    (hr : getSymbolicationResult LookedUpAddresses basePath fileKind contents
      (query.askFor addresses false) = .ok r) :
    (∃ r', getSymbolicationResult LookedUpAddresses basePath fileKind contents
      (query.askFor addresses true) = .ok r') ↔ DebugInfoReadable contents addresses := by
  obtain ⟨elfFile, hparse, hid, hsymbols⟩ := getSymbolicationResult_eq_ok.mp hr
  constructor
  · rintro ⟨r', hr'⟩ elfFile' hparse'
    obtain ⟨elfFile'', hparse'', -, hdebug⟩ := getSymbolicationResult_eq_ok.mp hr'
    obtain rfl := Except.ok.inj (hparse.symm.trans hparse')
    obtain rfl := Except.ok.inj (hparse.symm.trans hparse'')
    exact (exists_getSymbolicationResultImpl_iff hsymbols).mp ⟨r', hdebug⟩
  · intro h
    obtain ⟨r', hdebug⟩ := (exists_getSymbolicationResultImpl_iff hsymbols).mpr (h elfFile hparse)
    exact ⟨r', getSymbolicationResult_eq_ok.mpr ⟨elfFile, hparse, hid, hdebug⟩⟩

/-- An ELF file gives an address the same extent with debug info. -/
theorem keepsExtents_getSymbolicationResult
    (hr : getSymbolicationResult LookedUpAddresses basePath fileKind contents
      (query.askFor addresses false) = .ok r)
    (hr' : getSymbolicationResult LookedUpAddresses basePath fileKind contents
      (query.askFor addresses true) = .ok r') : r.KeepsExtents r' := by
  obtain ⟨elfFile, hparse, -, hsymbols⟩ := getSymbolicationResult_eq_ok.mp hr
  obtain ⟨elfFile', hparse', -, hdebug⟩ := getSymbolicationResult_eq_ok.mp hr'
  obtain rfl := Except.ok.inj (hparse.symm.trans hparse')
  exact keepsExtents_getSymbolicationResultImpl hsymbols hdebug

end File

end Elf

/-! ## Mach-O files -/

namespace MachO

open Traversal

variable [Crates] [Platform] {files : ObjectFiles} {envs : Nat → Environment} {fuel : Nat}
  {basePath : BasePath} {contents : FileContents} {fileRange : Option (Nat × Nat)}
  {query : SymbolicationQuery} {addresses : List Nat} {r r' : LookedUpAddresses}

/-- The stages of a query without debug info; the outside has no part in it. -/
theorem getSymbolicationResult_symbols_eq_ok :
    getSymbolicationResult LookedUpAddresses envs fuel basePath contents fileRange
        (query.askFor addresses false) = .ok r ↔
      ∃ machoFile, Crates.parseFile (objectRange contents fileRange) = .ok machoFile ∧
        getSymbolicationResultFromMachOObject LookedUpAddresses machoFile
          ⟨objectRange contents fileRange, 0, machoFile.is64⟩ (query.askFor addresses false) = .ok r := by
  rw [getSymbolicationResult, Outcome.bind_eq_ok]
  refine exists_congr (fun machoFile => ?_)
  rw [Outcome.ofExcept_mapError_eq_ok]
  refine and_congr_right (fun _ => ?_)
  show (_ >>= fun r => pure r) = _ ↔ _
  rw [bind_pure]

/-- The stages of a query with debug info: the traversal starts from the same symbols. -/
theorem getSymbolicationResult_debugInfo_eq_ok :
    getSymbolicationResult LookedUpAddresses envs fuel basePath contents fileRange
        (query.askFor addresses true) = .ok r' ↔
      ∃ machoFile, Crates.parseFile (objectRange contents fileRange) = .ok machoFile ∧
        ∃ r, getSymbolicationResultFromMachOObject LookedUpAddresses machoFile
            ⟨objectRange contents fileRange, 0, machoFile.is64⟩ (query.askFor addresses false) = .ok r ∧
          ∃ t, machine.run envs fuel
              (.start r basePath (objectRange contents fileRange) machoFile addresses) = .ok t ∧
            r' = t.symbolicationResult := by
  rw [getSymbolicationResult_withDebugInfo rfl, Outcome.bind_eq_ok]
  refine exists_congr (fun machoFile => ?_)
  rw [Outcome.ofExcept_mapError_eq_ok]
  refine and_congr_right (fun _ => ?_)
  show (getSymbolicationResultFromMachOObject LookedUpAddresses machoFile _
    (query.askFor addresses false) >>= _) = _ ↔ _
  rw [Outcome.bind_eq_ok]
  refine exists_congr (fun r => and_congr_right (fun _ => ?_))
  rw [Outcome.bind_eq_ok]
  refine exists_congr (fun t => and_congr_right (fun _ => ?_))
  rw [Outcome.pure_eq_ok, Outcome.ok.injEq, eq_comm]

/-- The debug info of an image can be read, and of all that it leads to. -/
def DebugInfoReadable (files : ObjectFiles) (contents : FileContents)
    (fileRange : Option (Nat × Nat)) (addresses : List Nat) : Prop :=
  ∀ machoFile, Crates.parseFile (objectRange contents fileRange) = .ok machoFile →
    ReadsThrough files (.parsed ⟨objectRange contents fileRange, machoFile,
      makeAddressPairsForRootObject addresses machoFile⟩)

/-- **WHEN AN IMAGE ANSWERS WITH DEBUG INFO**, where it answers without. -/
theorem answers_iff
    (hr : getSymbolicationResult LookedUpAddresses envs fuel basePath contents fileRange
      (query.askFor addresses false) = .ok r) :
    (∀ envs : Nat → Environment, (∀ n, (envs n).Opens files) →
      ∃ fuel r', getSymbolicationResult LookedUpAddresses envs fuel basePath contents fileRange
        (query.askFor addresses true) = .ok r') ↔
      DebugInfoReadable files contents fileRange addresses := by
  obtain ⟨machoFile, hparse, hsymbols⟩ := getSymbolicationResult_symbols_eq_ok.mp hr
  have hsound : Sound basePath addresses
      (.start r basePath (objectRange contents fileRange) machoFile addresses) :=
    sound_start (has_of_getSymbolicationResultFromMachOObject rfl hsymbols) _ _
  have hanswers : machine.Answers (Environment.Opens files)
      (.start r basePath (objectRange contents fileRange) machoFile addresses) ↔ _ :=
    answers_iff_readsThrough hsound
  rw [items_start, List.forall_mem_singleton] at hanswers
  constructor
  · intro h machoFile' hparse'
    obtain rfl := Except.ok.inj (hparse.symm.trans hparse')
    refine hanswers.mp ?_
    intro envs henvs
    obtain ⟨fuel, r', hr'⟩ := h envs henvs
    obtain ⟨machoFile', hparse', r₁, hsymbols', t, ht, -⟩ :=
      getSymbolicationResult_debugInfo_eq_ok.mp hr'
    obtain rfl := Except.ok.inj (hparse.symm.trans hparse')
    obtain rfl := Outcome.ok.inj (hsymbols.symm.trans hsymbols')
    exact ⟨fuel, t, ht⟩
  · intro h envs henvs
    obtain ⟨fuel, t, ht⟩ := hanswers.mpr (h machoFile hparse) envs henvs
    exact ⟨fuel, t.symbolicationResult, getSymbolicationResult_debugInfo_eq_ok.mpr
      ⟨machoFile, hparse, r, hsymbols, t, ht, rfl⟩⟩

/-- An image gives an address the same extent with debug info. -/
theorem keepsExtents_getSymbolicationResult {envs' : Nat → Environment} {fuel' : Nat}
    (hr : getSymbolicationResult LookedUpAddresses envs fuel basePath contents fileRange
      (query.askFor addresses false) = .ok r)
    (hr' : getSymbolicationResult LookedUpAddresses envs' fuel' basePath contents fileRange
      (query.askFor addresses true) = .ok r') : r.KeepsExtents r' := by
  obtain ⟨machoFile, hparse, hsymbols⟩ := getSymbolicationResult_symbols_eq_ok.mp hr
  obtain ⟨machoFile', hparse', r₁, hsymbols', t, ht, rfl⟩ :=
    getSymbolicationResult_debugInfo_eq_ok.mp hr'
  obtain rfl := Except.ok.inj (hparse.symm.trans hparse')
  obtain rfl := Outcome.ok.inj (hsymbols.symm.trans hsymbols')
  obtain ⟨us, hadd, -⟩ := Reached.invariant (StepFunction.reaches_of_run_eq_ok (fun _ => trivial) ht)
  exact keepsExtents_addAll hadd

end MachO

/-! ## All symbol files -/

/-- A file with symbols, of one of the kinds that can have debug info. -/
inductive SymbolFile
  | machO (contents : FileContents) (fileRange : Option (Nat × Nat))
  | pdb (file : Pdb)
  | elf (fileKind : FileKind) (contents : FileContents)

namespace SymbolFile

variable [Crates] [Platform] [Target]

/-- The query that a file gets. -/
def getSymbolicationResult (envs : Nat → Environment) (fuel : Nat) (basePath : BasePath)
    (query : SymbolicationQuery) : SymbolFile → Call GetSymbolsError LookedUpAddresses
  | machO contents fileRange =>
      MachO.getSymbolicationResult LookedUpAddresses envs fuel basePath contents fileRange query
  | pdb file => Windows.getSymbolicationResult LookedUpAddresses basePath file query
  | elf fileKind contents =>
      Elf.getSymbolicationResult LookedUpAddresses basePath fileKind contents query

/-- Whatever is reported without debug info is reported with it, whoever opens these
    files and in whatever order the maps are read. -/
def LosesNothing (files : ObjectFiles) (basePath : BasePath) (query : SymbolicationQuery)
    (addresses : List Nat) (file : SymbolFile) : Prop :=
  ∀ envs : Nat → Environment, (∀ n, (envs n).Opens files) → ∀ fuel r,
    file.getSymbolicationResult envs fuel basePath (query.askFor addresses false) = .ok r →
    ∀ address extent, r.extentAt address = some extent →
    ∃ fuel' r', file.getSymbolicationResult envs fuel' basePath (query.askFor addresses true) = .ok r' ∧
      r'.extentAt address = some extent

/-- Without debug info a symbol is reported. -/
def ReportsSymbol (basePath : BasePath) (query : SymbolicationQuery) (addresses : List Nat)
    (file : SymbolFile) : Prop :=
  ∃ envs fuel r address extent,
    file.getSymbolicationResult envs fuel basePath (query.askFor addresses false) = .ok r ∧
    r.extentAt address = some extent

/-- The debug info can be read. -/
def DebugInfoReadable (files : ObjectFiles) (addresses : List Nat) : SymbolFile → Prop
  | machO contents fileRange => MachO.DebugInfoReadable files contents fileRange addresses
  | pdb file => Windows.DebugInfoReadable file addresses
  | elf _ contents => Elf.DebugInfoReadable contents addresses

section Queries

variable {files : ObjectFiles} {envs envs' : Nat → Environment} {fuel fuel' : Nat}
  {basePath : BasePath} {query : SymbolicationQuery} {addresses : List Nat} {file : SymbolFile}
  {r r' : LookedUpAddresses}

/-- Without debug info no other file is opened, and no map read. -/
theorem getSymbolicationResult_symbols (file : SymbolFile) :
    file.getSymbolicationResult envs fuel basePath (query.askFor addresses false)
      = file.getSymbolicationResult envs' fuel' basePath (query.askFor addresses false) := by
  cases file with
  | machO contents fileRange => rfl
  | pdb p => rfl
  | elf fileKind contents => rfl

/-- **WHEN A FILE ANSWERS WITH DEBUG INFO**, where it answers without. -/
theorem answers_iff
    (hagrees : ∀ p, file = .pdb p → ∀ context, p.tryFromPdb = .ok (.ok context) → context.Agrees)
    (hr : file.getSymbolicationResult envs fuel basePath (query.askFor addresses false) = .ok r) :
    (∀ envs : Nat → Environment, (∀ n, (envs n).Opens files) →
      ∃ fuel r', file.getSymbolicationResult envs fuel basePath (query.askFor addresses true) = .ok r') ↔
      file.DebugInfoReadable files addresses := by
  -- only a mach-O image asks the outside
  have hinside : ∀ {answers : Prop}, (∀ envs : Nat → Environment, (∀ n, (envs n).Opens files) →
      ∃ _ : Nat, answers) ↔ answers := by
    intro answers
    obtain ⟨env, henv⟩ := Traversal.exists_opens files
    constructor
    · intro h
      obtain ⟨-, hanswers⟩ := h (fun _ => env) (fun _ => henv)
      exact hanswers
    · exact fun h _ _ => ⟨0, h⟩
  cases file with
  | machO contents fileRange =>
      have hr : MachO.getSymbolicationResult LookedUpAddresses envs fuel basePath contents fileRange
        (query.askFor addresses false) = .ok r := hr
      exact MachO.answers_iff hr
  | pdb p => exact hinside.trans (Windows.exists_getSymbolicationResult_iff (hagrees p rfl) hr)
  | elf fileKind contents => exact hinside.trans (Elf.exists_getSymbolicationResult_iff hr)

/-- A file gives an address the same extent with debug info. -/
theorem keepsExtents
    (hagrees : ∀ p, file = .pdb p → ∀ context, p.tryFromPdb = .ok (.ok context) → context.Agrees)
    (hr : file.getSymbolicationResult envs fuel basePath (query.askFor addresses false) = .ok r)
    (hr' : file.getSymbolicationResult envs' fuel' basePath (query.askFor addresses true) = .ok r') :
    r.KeepsExtents r' := by
  cases file with
  | machO contents fileRange =>
      have hr : MachO.getSymbolicationResult LookedUpAddresses envs fuel basePath contents fileRange
        (query.askFor addresses false) = .ok r := hr
      exact MachO.keepsExtents_getSymbolicationResult hr hr'
  | pdb p => exact Windows.keepsExtents_getSymbolicationResult (hagrees p rfl) hr hr'
  | elf fileKind contents => exact Elf.keepsExtents_getSymbolicationResult hr hr'

/-- **WHEN DEBUG INFO COSTS NO SYMBOLS**: exactly when it can be read, if there are any. -/
theorem losesNothing_iff
    (hagrees : ∀ p, file = .pdb p → ∀ context, p.tryFromPdb = .ok (.ok context) → context.Agrees) :
    file.LosesNothing files basePath query addresses ↔
      (file.ReportsSymbol basePath query addresses → file.DebugInfoReadable files addresses) := by
  constructor
  · rintro h ⟨envs, fuel, r, address, extent, hr, hextent⟩
    refine (answers_iff hagrees hr).mp ?_
    intro envs' henvs'
    rw [getSymbolicationResult_symbols file] at hr
    obtain ⟨fuel', r', hr', -⟩ := h envs' henvs' fuel r hr address extent hextent
    exact ⟨fuel', r', hr'⟩
  · intro h envs henvs fuel r hr address extent hextent
    have hreadable := h ⟨envs, fuel, r, address, extent, hr, hextent⟩
    obtain ⟨fuel', r', hr'⟩ := (answers_iff hagrees hr).mpr hreadable envs henvs
    exact ⟨fuel', r', hr', keepsExtents hagrees hr hr' address extent hextent⟩

end Queries

end SymbolFile

/-! ## Files that are there and cannot be read -/

section Samples

local instance imagePlatform : Platform := unix

local instance imageTarget : Target := ⟨64⟩

/-- An image with the functions `f` and `g`, of which `f` was linked from `/broken.o`. -/
def imageWithReference : ObjectFile :=
  { ObjectFile.bare with
    symbols := [⟨some "f", 0x10, .text⟩, ⟨some "g", 0x20, .text⟩]
    machUuid := some (List.replicate 16 1)
    objectMap := ⟨[⟨0x10, 0x10, asBytes "f", 0⟩], [asBytes "/broken.o"],
      List.forall_mem_singleton.mpr Nat.one_pos⟩ }

/-- What is shorter than a header is no object file. -/
local instance imageCrates : Crates :=
  { Crates.nothing with
    parseFile := fun data => if 32 ≤ data.rangeSize then .ok imageWithReference
      else .error "Unknown file magic" }

def imageContents : FileContents := .zeros 512

/-- A PDB with one function, and a source server stream as given. -/
def pdbWithSrcsrv (srcsrv : Except PdbError Bytes) : Pdb where
  pdbInformation := .ok ⟨List.replicate 16 1, 0⟩
  debugInformation := .ok none
  namedStream _ := srcsrv
  tryFromPdb := .ok (.ok {
    functions := [⟨0x10, some 0x20, some "f"⟩]
    functionCount := 1
    findFrames := fun _ => .ok (some ⟨0x10, some 0x20, [⟨some "f", some "f.c", some 1⟩]⟩)
    findFunction := fun _ => .ok (some ⟨0x10, some 0x20, some "f"⟩) })

theorem agrees_pdbWithSrcsrv (srcsrv : Except PdbError Bytes) {context : PdbContext}
    (h : (pdbWithSrcsrv srcsrv).tryFromPdb = .ok (.ok context)) : context.Agrees := by
  obtain rfl := Except.ok.inj (Except.ok.inj h)
  constructor
  · intro address
    constructor
    · rintro ⟨e, he⟩
      cases he
    · rintro ⟨e, he⟩
      cases he
  · intro address frames function hframes hfunction
    obtain rfl := Except.ok.inj hframes
    obtain rfl := Except.ok.inj hfunction
    rfl

def imageQuery : SymbolicationQuery :=
  ⟨"image", ⟨List.replicate 16 1, 0⟩, .symbolsForAddresses [0x11] true⟩

/-- A PDB without a source server stream loses nothing. -/
theorem losesNothing_iff_without_srcsrv :
    (SymbolFile.pdb (pdbWithSrcsrv (.error .streamNameNotFound))).LosesNothing
      (fun _ => .error "No such file") .noLocalSourceFileAccess imageQuery [0x11] := by
  refine (SymbolFile.losesNothing_iff ?_).mpr ?_
  · intro p hp context hcontext
    obtain rfl := SymbolFile.pdb.inj hp
    exact agrees_pdbWithSrcsrv _ hcontext
  · intro _
    refine ⟨⟨?_, ?_⟩, ?_⟩
    · intro e he
      exact Or.inl (Except.error.inj he).symm
    · intro stream hstream
      cases hstream
    · intro context hcontext address _ func hfunc
      obtain rfl := Except.ok.inj (Except.ok.inj hcontext)
      obtain rfl := Option.some.inj (Except.ok.inj hfunc)
      exact ⟨_, rfl, "f", rfl⟩

/-- An image that was linked from a file which is empty now, and a PDB with an empty
    source server stream: both report `f`, and fail with debug info. -/
theorem not_losesNothing_unreadable :
    [0x11].Pairwise (· ≤ ·) ∧
    ¬ (SymbolFile.machO imageContents none).LosesNothing (fun _ => .ok (.ofBytes []))
      .noLocalSourceFileAccess imageQuery [0x11] ∧
    (∀ context, (pdbWithSrcsrv (.ok [])).tryFromPdb = .ok (.ok context) → context.Agrees) ∧
    ¬ (SymbolFile.pdb (pdbWithSrcsrv (.ok []))).LosesNothing (fun _ => .error "No such file")
      .noLocalSourceFileAccess imageQuery [0x11] := by
  refine ⟨List.pairwise_singleton .., ?_, fun context => agrees_pdbWithSrcsrv _, ?_⟩
  · intro h
    obtain ⟨fuel, r', hr', -⟩ := h (fun _ => MachO.outsideOf (.ok (.ofBytes [])) MachO.listedOrders)
      (fun _ _ => rfl) 0 _ rfl 0x11 _ rfl
    rcases fuel with _ | _ | _ | fuel
    · cases hr'
    · cases hr'
    · cases hr'
    · cases hr'
  · intro h
    obtain ⟨fuel, r', hr', -⟩ := h (fun _ => MachO.outsideOf (.error "No such file") MachO.listedOrders)
      (fun _ _ => rfl) 0 _ rfl 0x11 _ rfl
    cases hr'

end Samples

end ProfilerGetSymbols
