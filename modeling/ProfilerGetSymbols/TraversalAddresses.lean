import ProfilerGetSymbols.Traversal

/-! # Addresses in the traversal — each is looked up at most once

    `Traversal.addresses` are the requested addresses that a state still holds,
    in its queue, in its objects and in the object at hand, each as often as it
    occurs there.  A step hands some of them to a DWARF lookup and moves the
    others on; on the way maps may throw some away, and none appears twice.

    So the addresses that were handed out and those that are left always make up
    a part of the requested ones.  The rest follows: an address that was handed
    out does not come back, and debug info is added once at most. -/

namespace ProfilerGetSymbols

open ProgLib Paths ObjectReferences Dwarf MachO
open scoped List

/-! ## The addresses that a state holds -/

/-- The addresses under some functions. -/
def FunctionsWithAddresses.addresses (functions : FunctionsWithAddresses) : List Nat :=
  functions.entries.flatMap (fun e => e.2.map AddressWithOffset.originalRelativeAddress)

/-- The addresses that a reference carries. -/
def ObjectReference.addresses [Platform] : ObjectReference → List Nat
  | .regular _ functions => FunctionsWithAddresses.addresses functions
  | .archive _ archiveInfo =>
      archiveInfo.entries.flatMap (fun e => FunctionsWithAddresses.addresses e.2)

namespace Traversal

variable [Crates] [Platform] {R : Type}

/-- The addresses that a state still holds. -/
def addresses (s : Traversal R) : List Nat :=
  s.current.toList.flatMap (fun object =>
      object.addresses.map AddressPair.originalRelativeAddress)
    ++ (s.objects.flatMap (fun e => FunctionsWithAddresses.addresses e.2)
      ++ s.remainingObjectReferences.flatMap ObjectReference.addresses)

/-- The addresses that the next step hands to the lookup of the object at hand. -/
def handedOut (s : Traversal R) : List Nat :=
  s.current.toList.flatMap (fun object =>
    (internalAddresses object.machoFile object.addresses).map
      AddressPair.originalRelativeAddress)

end Traversal

/-! ## Each stage hands on a part of what it gets -/

namespace ObjectReferences

/-- Translation keeps no more than the addresses that it is given. -/
theorem translateSymbols_subperm (symbols : List ObjectSymbol)
    (functions : FunctionsWithAddresses) :
    (translateSymbols symbols functions).map AddressPair.originalRelativeAddress
      <+~ functions.addresses := by
  induction symbols generalizing functions with
  | nil => exact List.nil_subperm
  | cons symbol symbols ih =>
      rw [translateSymbols]
      cases hname : symbol.name with
      | none => exact ih functions
      | some symbolName =>
          simp only [FunctionsWithAddresses.getAndRemoveAddressesForFunction]
          cases hget : functions.get? (asBytes symbolName) with
          | none =>
              rw [HashMap.remove_of_get?_eq_none hget]
              exact ih functions
          | some addresses =>
              obtain ⟨k, -, hperm⟩ := HashMap.entries_perm_remove hget
              have hsplit : functions.addresses
                  ~ addresses.map AddressWithOffset.originalRelativeAddress
                    ++ FunctionsWithAddresses.addresses
                      (functions.remove (asBytes symbolName)) :=
                hperm.flatMap_right _
              simp only [List.map_append, List.map_map]
              refine List.Subperm.trans ?_ hsplit.symm.subperm
              exact (List.Subperm.refl _).append (ih _)

theorem translateAddressesToObject_subperm (obj : ObjectFile)
    (functions : FunctionsWithAddresses) :
    (translateAddressesToObject obj functions).map AddressPair.originalRelativeAddress
      <+~ functions.addresses :=
  ((sortByKey_perm _ _).map _).subperm.trans (translateSymbols_subperm obj.symbols functions)

/-- The outer map keeps a part of the assigned addresses. -/
theorem externalFunsByObject_subperm (obj : ObjectFile) (addresses : List AddressPair) :
    (externalFunsByObject obj addresses).entries.flatMap
        (fun e => FunctionsWithAddresses.addresses e.2)
      <+~ ((assigned obj addresses).flatMap (·.2)).map AddressPair.originalRelativeAddress := by
  have hflat := subperm_flatMap
    (fun t : Nat × Bytes × List AddressWithOffset =>
      t.2.2.map AddressWithOffset.originalRelativeAddress) (triples_subperm obj addresses)
  rw [HashMap.triples, List.flatMap_assoc, flushes, List.flatMap_map] at hflat
  simpa [FunctionsWithAddresses.addresses, List.flatMap_map, List.map_flatMap, withOffset,
    Function.comp_def] using hflat

variable [Platform] {ε : Type}

theorem addresses_eq_members (objRef : ObjectReference) :
    objRef.addresses
      = (members objRef).flatMap (fun m => FunctionsWithAddresses.addresses m.2.2) := by
  cases objRef with
  | regular path functions => simp [members, ObjectReference.addresses]
  | archive path archiveInfo => simp [members, ObjectReference.addresses, List.flatMap_map]

/-- The queue keeps a part of the outer map. -/
theorem objectReferences_subperm {orders : Orders} {objects : List Bytes}
    {external : HashMap Nat FunctionsWithAddresses} {references : List ObjectReference}
    (h : (objectReferences orders objects external : Call ε _) = .ok references) :
    references.flatMap ObjectReference.addresses
      <+~ external.entries.flatMap (fun e => FunctionsWithAddresses.addresses e.2) := by
  have hmembers := subperm_flatMap (fun m => FunctionsWithAddresses.addresses m.2.2)
    (members_subperm h)
  rw [List.flatMap_assoc] at hmembers
  simp only [← addresses_eq_members] at hmembers
  refine hmembers.trans ?_
  -- an object whose name cannot be read would be dropped here
  rw [List.filterMap_eq_flatMap_toList, List.flatMap_assoc]
  refine List.Sublist.subperm (List.Sublist.flatMap_right _ ?_)
  intro e _
  rw [member]
  cases objectFile objects e.1 with
  | none => exact List.nil_sublist _
  | some file => simp

/-- The objects of a reference carry a part of its addresses. -/
theorem intoObjects_subperm [Crates] {orders : Orders} {data : FileContents}
    {objRef : ObjectReference} {objects : List (RangeReadRef × FunctionsWithAddresses)}
    (h : objRef.intoObjects orders data = .ok objects) :
    objects.flatMap (fun e => FunctionsWithAddresses.addresses e.2) <+~ objRef.addresses := by
  cases objRef with
  | regular path functions =>
      rw [ObjectReference.intoObjects, Except.ok.injEq] at h
      subst h
      simpa [ObjectReference.addresses] using List.Subperm.refl _
  | archive path archiveInfo =>
      rw [ObjectReference.intoObjects] at h
      cases hmembers : (Crates.archiveMembers data).mapError
          (GetSymbolsError.archiveParseError path) with
      | error e =>
          rw [hmembers] at h
          cases h
      | ok ms =>
          rw [hmembers] at h
          have hobjects := Except.ok.inj h
          subst hobjects
          have hperm := (orders.archiveInfo.perm archiveInfo.entries).flatMap_right
            (fun e => FunctionsWithAddresses.addresses e.2)
          refine List.Subperm.trans (List.Sublist.subperm ?_) hperm.subperm
          rw [List.filterMap_eq_flatMap_toList, List.flatMap_assoc]
          refine List.Sublist.flatMap_right _ ?_
          intro e _
          cases (HashMap.ofList (ms.filterMap id)).get? (asBytes e.1) with
          | none => exact List.nil_sublist _
          | some range => simp

end ObjectReferences

/-! ## Each step hands on a part of what it holds -/

namespace ObjectReferences

variable [Platform] {ε : Type}

/-- **WHAT AN OBJECT DOES WITH ITS ADDRESSES**: it hands some to its own lookup and
    queues others, none of them twice. -/
theorem objectReferences_addresses {orders : Orders} {obj : ObjectFile}
    {addresses : List AddressPair} {references : List ObjectReference}
    (h : (objectReferences orders obj.objectMap.objects (externalFunsByObject obj addresses)
      : Call ε _) = .ok references) :
    references.flatMap ObjectReference.addresses
        ++ (internalAddresses obj addresses).map AddressPair.originalRelativeAddress
      <+~ addresses.map AddressPair.originalRelativeAddress := by
  have hexternal := (objectReferences_subperm h).trans (externalFunsByObject_subperm obj addresses)
  have hperm := (addresses_perm obj addresses).map AddressPair.originalRelativeAddress
  rw [List.map_append] at hperm
  refine List.Subperm.trans ?_ hperm.symm.subperm
  refine List.Subperm.trans ?_ (List.perm_append_comm).subperm
  exact hexternal.append (List.Subperm.refl _)

end ObjectReferences

namespace Traversal

variable [Crates] [Platform] {R : Type} [SymbolicationResult R] {env : Environment}
  {s s' : Traversal R}

/-- **A STEP DOUBLES NOTHING**: the addresses that it hands out and those that are
    left afterwards are a part of what was there. -/
theorem Step.addresses_subperm (h : Step env s s') :
    s'.addresses ++ s.handedOut <+~ s.addresses := by
  cases h with
  | @lookUp object r queue m hcurrent hcollect =>
      obtain ⟨-, references, hreferences, rfl⟩ := collect_eq_ok.mp hcollect
      have hobject := objectReferences_addresses hreferences
      simp only [addresses, handedOut, hcurrent, Option.toList_some, Option.toList_none,
        List.flatMap_cons, List.flatMap_nil, List.append_nil, List.nil_append, List.flatMap_append]
      refine List.Subperm.trans (List.Perm.subperm ?_) (hobject.append (List.Subperm.refl _))
      rw [← List.append_assoc, List.append_assoc]
      exact List.perm_append_comm
  | @parse data functions objects machoFile hcurrent hobjects hparse =>
      have htranslate := translateAddressesToObject_subperm machoFile functions
      simp only [addresses, handedOut, hcurrent, hobjects, Option.toList_some, Option.toList_none,
        List.flatMap_cons, List.flatMap_nil, List.append_nil, List.nil_append]
      rw [List.append_assoc]
      exact htranslate.append (List.Subperm.refl _)
  | @skip objRef references e hcurrent hobjects hqueue hopen =>
      simp only [addresses, handedOut, hcurrent, hobjects, hqueue, Option.toList_none,
        List.flatMap_cons, List.flatMap_nil, List.append_nil, List.nil_append]
      exact (List.sublist_append_right _ _).subperm
  | @openFile objRef references fileContents objects hcurrent hobjects hqueue hopen hinto =>
      simp only [addresses, handedOut, hcurrent, hobjects, hqueue, Option.toList_none,
        List.flatMap_cons, List.flatMap_nil, List.append_nil, List.nil_append]
      exact (intoObjects_subperm hinto).append (List.Subperm.refl _)

/-- A step changes the result by calls about addresses that it hands out. -/
theorem Step.exists_updates (h : Step env s s') :
    ∃ us : List DebugUpdate,
      (addAll s.symbolicationResult us : Call GetSymbolsError R) = .ok s'.symbolicationResult ∧
        us.map Prod.fst <+~ s.handedOut := by
  cases h with
  | @lookUp object r queue m hcurrent hcollect =>
      obtain ⟨hdwarf, -⟩ := collect_eq_ok.mp hcollect
      obtain ⟨us, hus, hadd⟩ := (Dwarf.collect_eq_ok rfl).mp ⟨m, hdwarf⟩
      refine ⟨us, hadd, ?_⟩
      simpa [handedOut, hcurrent] using (map_fst_debugUpdates hus).subperm
  | parse => exact ⟨[], rfl, List.nil_subperm⟩
  | skip => exact ⟨[], rfl, List.nil_subperm⟩
  | openFile => exact ⟨[], rfl, List.nil_subperm⟩

/-! ## Whole runs -/

/-- The calls made so far, and the addresses that are left: each requested address
    at most once. -/
def Invariant (r : R) (requested : List Nat) (s : Traversal R) : Prop :=
  ∃ us : List DebugUpdate,
    (addAll r us : Call GetSymbolsError R) = .ok s.symbolicationResult ∧
      us.map Prod.fst ++ s.addresses <+~ requested

theorem Step.invariant {r : R} {requested : List Nat} (h : Step env s s')
    (hs : Invariant r requested s) : Invariant r requested s' := by
  obtain ⟨us, hadd, hpart⟩ := hs
  obtain ⟨vs, hadd', hhanded⟩ := h.exists_updates
  refine ⟨us ++ vs, ?_, ?_⟩
  · rw [addAll_append, hadd]
    exact hadd'
  · have hstep : vs.map Prod.fst ++ s'.addresses <+~ s.addresses :=
      (hhanded.append (List.Subperm.refl _)).trans
        (List.perm_append_comm.subperm.trans h.addresses_subperm)
    rw [List.map_append, List.append_assoc]
    exact ((List.Subperm.refl _).append hstep).trans hpart

/-- The states of the traversal of an object, under any answers of the outside. -/
abbrev Reached (s s' : Traversal R) : Prop := machine.Reaches (fun _ => True) s s'

omit [SymbolicationResult R] in
theorem start_addresses (r : R) (basePath : BasePath) (data : RangeReadRef) (machoFile : ObjectFile)
    (requested : List Nat) :
    (start r basePath data machoFile requested).addresses = requested := by
  simp [start, addresses, makeAddressPairsForRootObject, Function.comp_def]

/-- **EVERY REACHED STATE** accounts for its calls and its addresses. -/
theorem Reached.invariant {r : R} {basePath : BasePath} {data : RangeReadRef}
    {machoFile : ObjectFile} {requested : List Nat}
    (h : Reached (start r basePath data machoFile requested) s) : Invariant r requested s := by
  refine StepFunction.Reaches.invariant h ⟨[], rfl, ?_⟩
    (fun _ _ _ _ hs hstep => (Step.of_step hstep).invariant hs)
  rw [start_addresses, List.map_nil, List.nil_append]

/-- What is left only ever becomes less. -/
theorem Reached.addresses_subperm (h : Reached s s') : s'.addresses <+~ s.addresses := by
  refine StepFunction.Reaches.invariant (I := fun t => t.addresses <+~ s.addresses) h
    (List.Subperm.refl _) ?_
  intro _ t t' _ ht hstep
  exact ((List.sublist_append_left _ _).subperm.trans
    (Step.of_step hstep).addresses_subperm).trans ht

/-! ## Where a run can panic -/

omit [Crates] [Platform] in
/-- Calls about requested addresses keep what a safe result keeps. -/
theorem addAll_safe {admitted : Panic → Prop} {requested : List Nat} {I : R → Prop}
    (hsafe : SymbolicationResult.Safe R GetSymbolsError admitted requested I)
    {r r' : R} {us : List DebugUpdate} (hus : ∀ u ∈ us, u.1 ∈ requested) (hr : I r)
    (h : (addAll r us : Call GetSymbolsError R) = .ok r') : I r' := by
  induction us generalizing r with
  | nil =>
      rw [addAll, List.foldlM_nil, Outcome.pure_eq_ok, Outcome.ok.injEq] at h
      exact h ▸ hr
  | cons u us ih =>
      rw [addAll, List.foldlM_cons, Outcome.bind_eq_ok] at h
      obtain ⟨r₁, hfirst, hrest⟩ := h
      rw [List.forall_mem_cons] at hus
      exact ih hus.2 ((hsafe.addAddressDebugInfo u.1 hus.1 r u.2 hr).2 r₁ hfirst) hrest

/-- Apart from its own panics a step panics where a call of the result does. -/
theorem settles_step (admitted : Panic → Prop) (hdwarf : Dwarf.Admits admitted)
    (hindex : admitted .indexOutOfBounds) (hname : admitted .objectNameNotUtf8) {I : R → Prop}
    (hadd : ∀ a ∈ s.handedOut, ∀ (r : R) info, I r →
      (SymbolicationResult.addAddressDebugInfo r a info : Call GetSymbolsError R).Settles admitted ∧
      ∀ r', (SymbolicationResult.addAddressDebugInfo r a info : Call GetSymbolsError R) = .ok r' →
        I r')
    (hI : I s.symbolicationResult) (env : Environment) : (machine env s).Settles admitted := by
  obtain ⟨r, m, queue, objects, current⟩ := s
  cases current with
  | some object =>
      refine Outcome.Settles.bind ?_ (fun _ _ => trivial)
      refine Outcome.Settles.bind (settles_collect hdwarf _ _ ?_ hI _) (fun _ _ => ?_)
      · intro pair hpair
        refine hadd _ ?_
        rw [handedOut, Option.toList_some, List.flatMap_singleton]
        exact List.mem_map_of_mem hpair
      · exact (settles_objectReferences hindex hname _ _ _).bind (fun _ _ => trivial)
  | none =>
      match objects, queue with
      | (data, functions) :: objects, _ =>
          exact (Outcome.settles_ofExcept _).bind (fun _ _ => trivial)
      | [], [] => exact trivial
      | [], objRef :: references =>
          show (stepReference env _ objRef references).Settles admitted
          rw [stepReference]
          split
          · exact trivial
          · exact (Outcome.settles_ofExcept _).bind (fun _ _ => trivial)

/-- A safe result is one in every reached state. -/
theorem Reached.safe {admitted : Panic → Prop} {requested : List Nat} {I : R → Prop}
    (hsafe : SymbolicationResult.Safe R GetSymbolsError admitted requested I) {r : R} (hr : I r)
    {basePath : BasePath} {data : RangeReadRef} {machoFile : ObjectFile}
    (h : Reached (start r basePath data machoFile requested) s) : I s.symbolicationResult := by
  obtain ⟨us, hadd, hpart⟩ := h.invariant
  refine addAll_safe hsafe (fun u hu => ?_) hr hadd
  exact hpart.subset (List.mem_append_left _ (List.mem_map_of_mem hu))

omit [SymbolicationResult R] in
/-- What a state hands out is left there. -/
theorem handedOut_subset (s : Traversal R) : s.handedOut ⊆ s.addresses := by
  intro a ha
  rw [handedOut] at ha
  rw [addresses]
  refine List.mem_append_left _ ?_
  cases hcurrent : s.current with
  | none =>
      rw [hcurrent] at ha
      cases ha
  | some object =>
      rw [hcurrent] at ha
      simp only [Option.toList_some, List.flatMap_cons, List.flatMap_nil, List.append_nil] at ha ⊢
      obtain ⟨pair, hpair, rfl⟩ := List.mem_map.mp ha
      refine List.mem_map_of_mem ?_
      exact (addresses_perm object.machoFile object.addresses).mem_iff.mpr
        (List.mem_append_left _ hpair)

/-- The run from a safe result panics at admitted sites only. -/
theorem run_panic {admitted : Panic → Prop} (hdwarf : Dwarf.Admits admitted)
    (hindex : admitted .indexOutOfBounds) (hname : admitted .objectNameNotUtf8)
    {requested : List Nat} {I : R → Prop}
    (hsafe : SymbolicationResult.Safe R GetSymbolsError admitted requested I) {r : R} (hr : I r)
    {basePath : BasePath} {data : RangeReadRef} {machoFile : ObjectFile}
    {envs : Nat → Environment} {fuel : Nat} {site : Panic}
    (h : machine.run envs fuel (start r basePath data machoFile requested) = .panic site) :
    admitted site := by
  rcases StepFunction.run_cases (fun _ => True) (fun _ => trivial) fuel
      (start r basePath data machoFile requested) with hun | ⟨t, n, ht, hend⟩
  · rw [hun] at h
    cases h
  · obtain ⟨us, -, hpart⟩ := Reached.invariant ht
    have hstep : (machine (envs n) t).Settles admitted := by
      refine settles_step admitted hdwarf hindex hname (fun a ha => hsafe.addAddressDebugInfo a ?_)
        (Reached.safe hsafe hr ht) _
      exact hpart.subset (List.mem_append_right _ (handedOut_subset t ha))
    rcases hend with ⟨-, hrun⟩ | ⟨e, -, hrun⟩ | ⟨site', hsite, hrun⟩
    · rw [hrun] at h
      cases h
    · rw [hrun] at h
      cases h
    · rw [hrun, Outcome.panic.injEq] at h
      rw [hsite] at hstep
      exact h ▸ hstep

end Traversal

namespace MachO

variable [Crates] [Platform] {R : Type} [SymbolicationResult R]

/-- The whole call panics at admitted sites only. -/
theorem getSymbolicationResult_panic (admitted : Panic → Prop) (hdwarf : Dwarf.Admits admitted)
    (hindex : admitted .indexOutOfBounds) (hname : admitted .objectNameNotUtf8)
    {requested : List Nat} {I : R → Prop}
    (hsafe : SymbolicationResult.Safe R GetSymbolsError admitted requested I)
    {envs : Nat → Environment} {fuel : Nat} {basePath : BasePath} {fileContents : FileContents}
    {fileRange : Option (Nat × Nat)} {query : SymbolicationQuery} {withDebugInfo : Bool}
    (hquery : query.resultKind = .symbolsForAddresses requested withDebugInfo) {site : Panic}
    (h : getSymbolicationResult R envs fuel basePath fileContents fileRange query = .panic site) :
    admitted site := by
  have hkind : ∀ as w, query.resultKind = .symbolsForAddresses as w → as = requested := by
    intro as w has
    rw [has, SymbolicationResultKind.symbolsForAddresses.injEq] at hquery
    exact hquery.1
  rcases Outcome.bind_eq_panic.mp h with hparse | ⟨machoFile, -, h⟩
  · exact absurd hparse (Outcome.ofExcept_ne_panic _ _)
  obtain ⟨hsettles, hI⟩ := settles_getSymbolicationResultFromMachOObject hindex hsafe machoFile
    ⟨_, 0, machoFile.is64⟩ hkind
  rcases Outcome.bind_eq_panic.mp h with hsymbols | ⟨r, hr, h⟩
  · rw [hsymbols] at hsettles
    exact hsettles
  have hr := hI r hr (by rw [hquery]; exact fun h => by cases h)
  rw [hquery] at h
  cases withDebugInfo with
  | false => cases h
  | true =>
      rcases Outcome.bind_eq_panic.mp h with hrun | ⟨t, -, h⟩
      · exact Traversal.run_panic hdwarf hindex hname hsafe hr hrun
      · cases h

end MachO

/-! ## The whole of it -/

namespace Traversal

section Once

variable [Crates] [Platform]

/-- A traversal for `requested` looks every address up once at most. -/
structure LooksUpOnce {R : Type} [SymbolicationResult R] (r : R) (basePath : BasePath)
    (data : RangeReadRef) (machoFile : ObjectFile) (requested : List Nat) : Prop where
  /-- No state has an address twice, or another address. -/
  distinct : ∀ s, Reached (start r basePath data machoFile requested) s →
    s.addresses.Nodup ∧ s.addresses ⊆ requested
  /-- An address that a lookup got does not come back. -/
  notAgain : ∀ env s s' s'', Reached (start r basePath data machoFile requested) s →
    machine env s = .ok (some s') → Reached s' s'' → List.Disjoint s.handedOut s''.addresses
  /-- Debug info is added for requested addresses that are not left, once for each. -/
  calls : ∀ s, Reached (start r basePath data machoFile requested) s →
    ∃ us : List DebugUpdate,
      (addAll r us : Call GetSymbolsError R) = .ok s.symbolicationResult ∧
        (us.map Prod.fst ++ s.addresses).Nodup ∧ us.map Prod.fst ⊆ requested
  noPanic : ∀ (envs : Nat → Environment) (fuel : Nat) (fileContents : FileContents)
    (fileRange : Option (Nat × Nat)) (query : SymbolicationQuery) (withDebugInfo : Bool),
    query.resultKind = .symbolsForAddresses requested withDebugInfo →
    getSymbolicationResult LookedUpAddresses envs fuel basePath fileContents fileRange query
        ≠ .panic .addressNotRequested ∧
      getSymbolicationResult FramesForSingleAddress envs fuel basePath fileContents fileRange
        query ≠ .panic .unexpectedAddress

/-- **EACH ADDRESS IS LOOKED UP ONCE**, whatever the files hold and in whatever
    order the maps are read. -/
theorem looksUpOnce {R : Type} [SymbolicationResult R] {requested : List Nat}
    (hnodup : requested.Nodup) (r : R) (basePath : BasePath) (data : RangeReadRef)
    (machoFile : ObjectFile) : LooksUpOnce r basePath data machoFile requested := by
  refine { distinct := ?_, notAgain := ?_, calls := ?_, noPanic := ?_ }
  · intro s hs
    obtain ⟨us, -, hpart⟩ := hs.invariant
    have hsub := (List.sublist_append_right _ _).subperm.trans hpart
    exact ⟨nodup_of_subperm hsub hnodup, hsub.subset⟩
  · intro env s s' s'' hs hstep hs'
    obtain ⟨us, -, hpart⟩ := hs.invariant
    -- no step adds an address: what was handed out is gone from the rest
    have hboth : s''.addresses ++ s.handedOut <+~ requested :=
      ((hs'.addresses_subperm.append (List.Subperm.refl _)).trans
        (Step.of_step hstep).addresses_subperm).trans
        ((List.sublist_append_right _ _).subperm.trans hpart)
    exact (List.disjoint_of_nodup_append (nodup_of_subperm hboth hnodup)).symm
  · intro s hs
    obtain ⟨us, hadd, hpart⟩ := hs.invariant
    exact ⟨us, hadd, nodup_of_subperm hpart hnodup,
      fun a ha => hpart.subset (List.mem_append_left _ ha)⟩
  · intro envs fuel fileContents fileRange query withDebugInfo hquery
    constructor
    · intro h
      refine getSymbolicationResult_panic (· ≠ .addressNotRequested) ?_ ?_ ?_
        (LookedUpAddresses.safe _ ?_ ?_ requested) hquery h rfl
      · exact ⟨by decide, by decide, by decide⟩
      all_goals decide
    · intro h
      refine getSymbolicationResult_panic (· ≠ .unexpectedAddress) ?_ ?_ ?_
        (FramesForSingleAddress.safe ?_ ?_ ?_ requested) hquery h rfl
      · exact ⟨by decide, by decide, by decide⟩
      all_goals decide

end Once

section Samples

local instance : Platform := unix

local instance : Crates := Crates.nothing

theorem looksUpOnce_two_addresses :
    LooksUpOnce (⟨[]⟩ : Recorder) .noLocalSourceFileAccess
      (FileContents.fullRange (.zeros 4096))
      { ObjectFile.bare with
        objectMap := ⟨[⟨0x10, 0x10, asBytes "f", 0⟩], [asBytes "/a.o"], by simp⟩ } [0x11, 0x2f] :=
  looksUpOnce (by decide) _ _ _ _

end Samples

end Traversal

end ProfilerGetSymbols
