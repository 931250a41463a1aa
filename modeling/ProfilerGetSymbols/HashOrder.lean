import ProfilerGetSymbols.TraversalOrder

/-! # Hash order — the answer does not show how the maps were read

    The traversal asks its hash maps for their entries three times over, and the
    order in which they come decides which object is looked up first.  Each
    object adds debug info for addresses of its own, so the answer is the same.

    It is the same as long as no two objects with addresses name one archive
    member.  Where two do, the map that is read last keeps its functions, the
    other one loses them, and the answer shows which. -/

namespace ProfilerGetSymbols

open ProgLib Paths ObjectReferences Dwarf MachO Journeys Worklist
open scoped List

/-! ## The same answer -/

namespace LookedUpAddresses

variable {ε : Type}

/-- Results are compared as the program's maps are: by what the addresses have. -/
structure Same (r s : LookedUpAddresses) : Prop where
  symbolCount : r.symbolCount = s.symbolCount
  slots : ∀ a, r.addressResults.get? a = s.addressResults.get? a

theorem Same.refl (r : LookedUpAddresses) : Same r r := ⟨rfl, fun _ => rfl⟩

/-- Frames that are added again change nothing. -/
theorem withFrames_withFrames (address : Nat) (frames : List InlineStackFrame)
    (entry : Option AddressResult) :
    withFrames address frames (some (withFrames address frames entry))
      = withFrames address frames entry := by
  cases hname : frames.getLast?.bind (·.function) with
  | none =>
      cases entry with
      | none => simp [withFrames, hname]
      | some slot => simp [withFrames, hname]
  | some name =>
      cases entry with
      | none => simp [withFrames, hname]
      | some slot => simp [withFrames, hname]

variable [Crates] {r r' s s' : LookedUpAddresses} {us vs : List DebugUpdate}

/-- One call, and then the others. -/
theorem addAll_cons_eq_ok {u : DebugUpdate} :
    (addAll r (u :: us) : Call ε LookedUpAddresses) = .ok r' ↔
      ∃ entry, r.addressResults.get? u.1 = some entry ∧
        (addAll (r.setSlot u.1 (withFrames u.1 u.2.frames entry)) us : Call ε _) = .ok r' := by
  rw [addAll, List.foldlM_cons, Outcome.bind_eq_ok]
  constructor
  · rintro ⟨r₁, hfirst, hrest⟩
    obtain ⟨entry, hentry, rfl⟩ := addAddressDebugInfo_eq_ok.mp hfirst
    exact ⟨entry, hentry, hrest⟩
  · rintro ⟨entry, hentry, hrest⟩
    exact ⟨_, addAddressDebugInfo_eq_ok.mpr ⟨entry, hentry, rfl⟩, hrest⟩

theorem symbolCount_addAll (h : (addAll r us : Call ε _) = .ok r') :
    r'.symbolCount = r.symbolCount := by
  induction us generalizing r with
  | nil => rw [← Outcome.ok.inj h]
  | cons u us ih =>
      obtain ⟨entry, -, hrest⟩ := addAll_cons_eq_ok.mp h
      exact (ih hrest).trans rfl

/-- An address without a call keeps its slot. -/
theorem get?_addAll_of_not_mem (h : (addAll r us : Call ε _) = .ok r') {a : Nat}
    (ha : ∀ u ∈ us, u.1 ≠ a) : r'.addressResults.get? a = r.addressResults.get? a := by
  induction us generalizing r with
  | nil => rw [← Outcome.ok.inj h]
  | cons u us ih =>
      rw [List.forall_mem_cons] at ha
      obtain ⟨entry, -, hrest⟩ := addAll_cons_eq_ok.mp h
      rw [ih hrest ha.2, get?_setSlot_of_ne r _ ha.1]

/-- The calls say one thing of each address. -/
def Functional (us : List DebugUpdate) : Prop := ∀ u ∈ us, ∀ v ∈ us, u.1 = v.1 → u = v

/-- An address with a call has its frames, however often the call is made. -/
theorem get?_addAll_of_mem (hfun : Functional us) (h : (addAll r us : Call ε _) = .ok r')
    {u : DebugUpdate} (hu : u ∈ us) :
    r'.addressResults.get? u.1
      = (r.addressResults.get? u.1).map (fun entry => some (withFrames u.1 u.2.frames entry)) := by
  induction us generalizing r with
  | nil => cases hu
  | cons v us ih =>
      obtain ⟨entry, hentry, hrest⟩ := addAll_cons_eq_ok.mp h
      have htail : Functional us := fun a ha b hb =>
        hfun a (List.mem_cons_of_mem _ ha) b (List.mem_cons_of_mem _ hb)
      by_cases hagain : u ∈ us
      · rw [ih htail hrest hagain]
        by_cases hv : v.1 = u.1
        · obtain rfl := hfun v (List.mem_cons_self ..) u hu hv
          rw [get?_setSlot_self, hentry, Option.map_some, Option.map_some, withFrames_withFrames]
        · rw [get?_setSlot_of_ne r _ hv]
      · -- no later call is about the address
        have hlater : ∀ w ∈ us, w.1 ≠ u.1 := fun w hw hwu =>
          hagain (hfun w (List.mem_cons_of_mem _ hw) u hu hwu ▸ hw)
        obtain rfl : u = v := (List.mem_cons.mp hu).resolve_right hagain
        rw [get?_addAll_of_not_mem hrest hlater, get?_setSlot_self, hentry, Option.map_some]

/-- **THE ORDER OF THE CALLS** does not show if they say one thing of each address. -/
theorem Same.addAll (hrs : Same r s) (hperm : us ~ vs) (hfun : Functional us)
    (hr : (addAll r us : Call ε _) = .ok r') (hs : (addAll s vs : Call ε _) = .ok s') :
    Same r' s' where
  symbolCount := by rw [symbolCount_addAll hr, symbolCount_addAll hs, hrs.symbolCount]
  slots := by
    intro a
    have hfun' : Functional vs := fun u hu v hv =>
      hfun u (hperm.mem_iff.mpr hu) v (hperm.mem_iff.mpr hv)
    by_cases ha : ∃ u ∈ us, u.1 = a
    · obtain ⟨u, hu, rfl⟩ := ha
      rw [get?_addAll_of_mem hfun hr hu, get?_addAll_of_mem hfun' hs (hperm.mem_iff.mp hu),
        hrs.slots]
    · have hnot : ∀ u ∈ us, u.1 ≠ a := fun u hu heq => ha ⟨u, hu, heq⟩
      rw [get?_addAll_of_not_mem hr hnot,
        get?_addAll_of_not_mem hs (fun u hu => hnot u (hperm.mem_iff.mpr hu)), hrs.slots]

end LookedUpAddresses

/-! ## One call for an address -/

namespace Traversal

variable [Crates] [Platform] {files : ObjectFiles} {basePath : BasePath}

/-- An object puts an address that it has more than once in one place. -/
def OnePlace (obj : ObjectFile) (addresses : List AddressPair) : Prop :=
  ∀ e ∈ assigned obj addresses, ∀ p ∈ e.2, p ∉ internalAddresses obj addresses ∧
    ∀ e' ∈ assigned obj addresses, p ∈ e'.2 → e'.1 = e.1

omit [Crates] [Platform] in
/-- Pairs of the root object are one if their addresses are. -/
theorem eq_of_mem_makeAddressPairs {addresses : List Nat} {obj : ObjectFile} {p q : AddressPair}
    (hp : p ∈ makeAddressPairsForRootObject addresses obj)
    (hq : q ∈ makeAddressPairsForRootObject addresses obj)
    (h : p.originalRelativeAddress = q.originalRelativeAddress) : p = q := by
  obtain ⟨a, -, rfl⟩ := List.mem_map.mp hp
  obtain ⟨b, -, rfl⟩ := List.mem_map.mp hq
  obtain rfl : a = b := h
  rfl

omit [Crates] [Platform] in
/-- Equal addresses of a sorted list stay together, even where the pairs are not
    sorted because the base address makes them wrap around. -/
theorem onePlace_of_sorted {addresses : List Nat} (hsorted : addresses.Pairwise (· ≤ ·))
    (obj : ObjectFile) : OnePlace obj (makeAddressPairsForRootObject addresses obj) := by
  have hpairs : (makeAddressPairsForRootObject addresses obj).Pairwise
      (fun p q => p.originalRelativeAddress ≤ q.originalRelativeAddress) :=
    List.pairwise_map.mpr hsorted
  intro e he p hp
  obtain ⟨hrest, hsame⟩ := sweep_together hpairs
    (fun p hp q hq hpq hqp => eq_of_mem_makeAddressPairs hp hq (le_antisymm hpq hqp)) he hp
  exact ⟨internalAddresses_eq_rest obj _ ▸ hrest, hsame⟩

/-- A call at the end of a way is about an address that set out. -/
theorem AtTheEnd.exists_origin {origins : List FiledAddress} {u : DebugUpdate}
    (h : AtTheEnd files basePath origins u) :
    ∃ t ∈ origins, t.address.originalRelativeAddress = u.1 := by
  obtain ⟨t, ht, x, data, obj, p, hleads, -, -, hlanding, haddress, -⟩ := h
  refine ⟨t, ht, ?_⟩
  rw [← original_of_leads hleads, ← haddress]
  exact (original_of_landingIn hlanding).symm

omit [Crates] in
theorem original_of_refiled {obj : ObjectFile} {f : ObjectMapEntry} {p : AddressPair}
    {t : FiledAddress} (h : refiled obj f p = some t) :
    t.address.originalRelativeAddress = p.originalRelativeAddress := by
  obtain ⟨file, -, rfl⟩ := Option.map_eq_some_iff.mp h
  rfl

/-- Where the addresses set out that an object does not look up itself. -/
def origins (object : CurrentObject) : List FiledAddress :=
  (externalMembers object).flatMap filedAddresses

omit [Crates] in
/-- What an object passes on is what it assigns to its functions. -/
theorem exists_assigned_of_mem_origins {object : CurrentObject} {t : FiledAddress}
    (ht : t ∈ origins object) : ∃ e ∈ assigned object.machoFile object.addresses, ∃ p ∈ e.2,
      p ∈ object.addresses ∧ refiled object.machoFile e.1 p = some t := by
  have hpassed := (externalMembers_subperm object.machoFile object.addresses).subset ht
  obtain ⟨e, he, hte⟩ := List.mem_flatMap.mp hpassed
  obtain ⟨p, hp, hrefiled⟩ := List.mem_filterMap.mp hte
  refine ⟨e, he, p, hp, ?_, hrefiled⟩
  exact (addresses_perm object.machoFile object.addresses).mem_iff.mpr
    (List.mem_append_right _ (List.mem_flatMap.mpr ⟨e, he, hp⟩))

/-- A call that comes from an object: its own debug info says it, or that of an
    object file where the way of an address ends. -/
def MadeFor (files : ObjectFiles) (basePath : BasePath) (object : CurrentObject)
    (u : DebugUpdate) : Prop :=
  (∃ p ∈ internalAddresses object.machoFile object.addresses, p.originalRelativeAddress = u.1 ∧
    Reports GetSymbolsError basePath object.data object.machoFile p u.2) ∨
  AtTheEnd files basePath (origins object) u

/-- All calls come from the object. -/
theorem madeFor_of_drains {object : CurrentObject} {o : List DebugUpdate}
    (h : Drains (expand files basePath) [.parsed object] o) :
    ∀ u ∈ o, MadeFor files basePath object u := by
  cases h with
  | cons hexpand hrest =>
  rw [List.append_nil] at hrest
  rw [expand] at hexpand
  split at hexpand
  · next us hus =>
    split at hexpand
    · cases hexpand
      intro u hu
      rcases List.mem_append.mp hu with hu | hu
      · exact Or.inl (reports_of_mem hus hu)
      · refine Or.inr (hrest.forall (I := OnTrail files (origins object))
          (fun _ _ _ => OnTrail.expand) ?_ u hu)
        intro c hc
        obtain ⟨m, hm, rfl⟩ := List.mem_map.mp hc
        exact fun x hx => ⟨x, List.mem_flatMap.mpr ⟨m, hm, hx⟩, .refl x⟩
    · cases hexpand
  · cases hexpand

section OneCall

variable {object : CurrentObject}

variable (hpairs : ∀ p ∈ object.addresses, ∀ q ∈ object.addresses,
    p.originalRelativeAddress = q.originalRelativeAddress → p = q)
  (hone : OnePlace object.machoFile object.addresses)

include hpairs hone

omit [Crates] in
/-- An address sets out once. -/
theorem origins_unique : ∀ t ∈ origins object, ∀ t' ∈ origins object,
    t.address.originalRelativeAddress = t'.address.originalRelativeAddress → t = t' := by
  intro t ht t' ht' heq
  obtain ⟨e, he, p, hp, hmem, hrefiled⟩ := exists_assigned_of_mem_origins ht
  obtain ⟨e', he', p', hp', hmem', hrefiled'⟩ := exists_assigned_of_mem_origins ht'
  rw [original_of_refiled hrefiled, original_of_refiled hrefiled'] at heq
  obtain rfl := hpairs p hmem p' hmem' heq
  rw [(hone e he p hp).2 e' he' hp', hrefiled] at hrefiled'
  exact Option.some.inj hrefiled'

/-- An address that sets out is not looked up in the object. -/
theorem internal_ne_of_atTheEnd {p : AddressPair}
    (hp : p ∈ internalAddresses object.machoFile object.addresses) {u : DebugUpdate}
    (hu : AtTheEnd files basePath (origins object) u) : p.originalRelativeAddress ≠ u.1 := by
  intro heq
  obtain ⟨t, ht, htu⟩ := hu.exists_origin
  obtain ⟨e, he, q, hq, hmem, hrefiled⟩ := exists_assigned_of_mem_origins ht
  have hpmem := (addresses_perm object.machoFile object.addresses).mem_iff.mpr
    (List.mem_append_left _ hp)
  obtain rfl := hpairs p hpmem q hmem
    (heq.trans (htu.symm.trans (original_of_refiled hrefiled)))
  exact (hone e he p hq).1 hp

/-- Two calls for one address are one. -/
theorem MadeFor.unique {u v : DebugUpdate} (hu : MadeFor files basePath object u)
    (hv : MadeFor files basePath object v) (heq : u.1 = v.1) : u = v := by
  have hin : ∀ p ∈ internalAddresses object.machoFile object.addresses, p ∈ object.addresses :=
    fun p hp => (addresses_perm object.machoFile object.addresses).mem_iff.mpr
      (List.mem_append_left _ hp)
  rcases hu with ⟨p, hp, haddress, hreports⟩ | hend
  · rcases hv with ⟨q, hq, haddress', hreports'⟩ | hend'
    · obtain rfl := hpairs p (hin p hp) q (hin q hq) (haddress.trans (heq.trans haddress'.symm))
      exact Prod.ext heq (hreports.unique hreports')
    · exact absurd (haddress.trans heq) (internal_ne_of_atTheEnd hpairs hone hp hend')
  · rcases hv with ⟨q, hq, haddress', -⟩ | hend'
    · exact absurd (haddress'.trans heq.symm) (internal_ne_of_atTheEnd hpairs hone hq hend)
    · exact hend.unique (origins_unique hpairs hone) hend' heq

/-- **ONE ANSWER FOR AN ADDRESS**: whoever drains the work of an object has one
    thing to say of each of its addresses. -/
theorem functional_of_drains {o : List DebugUpdate}
    (h : Drains (expand files basePath) [.parsed object] o) : LookedUpAddresses.Functional o :=
  fun u hu v hv heq =>
    (madeFor_of_drains h u hu).unique hpairs hone (madeFor_of_drains h v hv) heq

end OneCall

/-! ## Two runs -/

section TwoRuns

variable {envs envs' : Nat → Environment} {fuel fuel' : Nat} {requested requested' : List Nat}

/-- A traversal starts sound if the requested addresses have slots. -/
theorem sound_start {r : LookedUpAddresses} (hr : ∀ a ∈ requested, r.Has a) (data : RangeReadRef)
    (machoFile : ObjectFile) :
    Sound basePath requested (start r basePath data machoFile requested) where
  basePath := rfl
  members := fun _ h => by cases h
  addresses := fun a ha => start_addresses r basePath data machoFile requested ▸ ha
  slots := hr

theorem items_start (r : LookedUpAddresses) (basePath : BasePath)
    (data : RangeReadRef) (machoFile : ObjectFile) (addresses : List Nat) :
    (start r basePath data machoFile addresses).items
      = [.parsed ⟨data, machoFile, makeAddressPairsForRootObject addresses machoFile⟩] := rfl

/-- **TWO RUNS AGREE** if whoever drains the work of one has drained that of the other. -/
theorem runs_agree (henvs : ∀ n, (envs n).Opens files) (henvs' : ∀ n, (envs' n).Opens files)
    {s s' : Traversal LookedUpAddresses} (hs : Sound basePath requested s)
    (hs' : Sound basePath requested' s')
    (hfree : ∀ t : Traversal LookedUpAddresses, machine.Visits envs s t → t.CollisionFree)
    (hfree' : ∀ t : Traversal LookedUpAddresses, machine.Visits envs' s' t → t.CollisionFree)
    (hends : machine.run envs fuel s ≠ .unfinished)
    (hends' : machine.run envs' fuel' s' ≠ .unfinished)
    (hsame : s.symbolicationResult.Same s'.symbolicationResult)
    (hforth : ∀ o, Drains (expand files basePath) s.items o →
      LookedUpAddresses.Functional o ∧ ∃ o', Drains (expand files basePath) s'.items o' ∧ o ~ o')
    (hback : ∀ o', Drains (expand files basePath) s'.items o' →
      ∃ o, Drains (expand files basePath) s.items o) :
    Outcome.Agree (fun t t' => t.symbolicationResult.Same t'.symbolicationResult)
      (machine.run envs fuel s) (machine.run envs' fuel' s') := by
  rcases run_drains henvs hs hfree hends with ⟨t, us, o, hrun, hadd, hdrains, hperm⟩ | ⟨hno, hfail⟩
  · obtain ⟨hfun, o', hdrains', hperm'⟩ := hforth o hdrains
    rcases run_drains henvs' hs' hfree' hends' with
      ⟨t', vs, p, hrun', hadd', hdrains'', hpermv⟩ | ⟨-, hfail'⟩
    · rw [hdrains'.unique hdrains''] at hperm'
      refine .answers hrun hrun' (hsame.addAll (hperm.symm.trans (hperm'.trans hpermv)) ?_ hadd hadd')
      exact fun u hu v hv => hfun u (hperm.mem_iff.mpr hu) v (hperm.mem_iff.mpr hv)
    · exact absurd hdrains' (hfail' o')
  · rcases run_drains henvs' hs' hfree' hends' with ⟨t', vs, p, -, -, hdrains', -⟩ | ⟨hno', -⟩
    · obtain ⟨o, hdrains⟩ := hback p hdrains'
      exact absurd hdrains (hfail o)
    · exact .fails hno hno'

end TwoRuns

end Traversal

/-! ## Two orders of the maps -/

namespace MachO

section Orders

variable [Crates] [Platform]

/-- The states that a call visits have no two objects with addresses that name
    one archive member. -/
def WithoutCollisions (envs : Nat → Environment) (basePath : BasePath)
    (fileContents : FileContents) (fileRange : Option (Nat × Nat)) (query : SymbolicationQuery) :
    Prop :=
  ∀ machoFile (r : LookedUpAddresses) addresses,
    Crates.parseFile (objectRange fileContents fileRange) = .ok machoFile →
    getSymbolicationResultFromMachOObject LookedUpAddresses machoFile
      ⟨objectRange fileContents fileRange, 0, machoFile.is64⟩ query = .ok r →
    query.resultKind = .symbolsForAddresses addresses true →
    ∀ t, Traversal.machine.Visits envs
      (.start r basePath (objectRange fileContents fileRange) machoFile addresses) t →
      t.CollisionFree

/-- With these files any two runs that end agree, in whatever order the maps are read. -/
def AnyOrder (files : ObjectFiles) (basePath : BasePath) (fileContents : FileContents)
    (fileRange : Option (Nat × Nat)) (query : SymbolicationQuery) : Prop :=
  ∀ (envs envs' : Nat → Environment) (fuel fuel' : Nat), (∀ n, (envs n).Opens files) →
    (∀ n, (envs' n).Opens files) →
    getSymbolicationResult LookedUpAddresses envs fuel basePath fileContents fileRange query
      ≠ .unfinished →
    getSymbolicationResult LookedUpAddresses envs' fuel' basePath fileContents fileRange query
      ≠ .unfinished →
    Outcome.Agree LookedUpAddresses.Same
      (getSymbolicationResult LookedUpAddresses envs fuel basePath fileContents fileRange query)
      (getSymbolicationResult LookedUpAddresses envs' fuel' basePath fileContents fileRange query)

/-- The call with debug info is the lookup of the symbols and the traversal. -/
theorem getSymbolicationResult_withDebugInfo {R : Type} [SymbolicationResult R]
    {query : SymbolicationQuery} {addresses : List Nat}
    (hkind : query.resultKind = .symbolsForAddresses addresses true) (envs : Nat → Environment)
    (fuel : Nat) (basePath : BasePath) (fileContents : FileContents)
    (fileRange : Option (Nat × Nat)) :
    getSymbolicationResult R envs fuel basePath fileContents fileRange query = (do
      let machoFile ← Outcome.ofExcept ((Crates.parseFile (objectRange fileContents fileRange)).mapError
        .machOHeaderParseError)
      let r ← getSymbolicationResultFromMachOObject R machoFile
        ⟨objectRange fileContents fileRange, 0, machoFile.is64⟩ query
      let t ← Traversal.machine.run envs fuel
        (.start r basePath (objectRange fileContents fileRange) machoFile addresses)
      return t.symbolicationResult) := by
  rw [getSymbolicationResult, hkind]

omit [Platform] in
/-- The symbols of an object leave a slot for each requested address. -/
theorem has_of_getSymbolicationResultFromMachOObject {machoFile : ObjectFile} {machoData : MachOData}
    {query : SymbolicationQuery} {addresses : List Nat} {withDebugInfo : Bool}
    (hkind : query.resultKind = .symbolsForAddresses addresses withDebugInfo) {r : LookedUpAddresses}
    (hr : getSymbolicationResultFromMachOObject LookedUpAddresses machoFile machoData query = .ok r) :
    ∀ a ∈ addresses, r.Has a := by
  have hsafe := LookedUpAddresses.safe (ε := GetSymbolsError) (fun _ => True) trivial trivial addresses
  refine (settles_getSymbolicationResultFromMachOObject trivial hsafe machoFile machoData ?_).2 r hr ?_
  · intro as w has
    rw [has, SymbolicationResultKind.symbolsForAddresses.injEq] at hkind
    exact hkind.1
  · rw [hkind]
    exact fun h => by cases h

/-- **THE ORDER OF THE HASH MAPS DOES NOT SHOW** in runs without a collision:
    both fail, or both give the same answer. -/
theorem getSymbolicationResult_anyOrder {files : ObjectFiles} {envs envs' : Nat → Environment}
    (henvs : ∀ n, (envs n).Opens files) (henvs' : ∀ n, (envs' n).Opens files) {fuel fuel' : Nat}
    {basePath : BasePath} {fileContents : FileContents} {fileRange : Option (Nat × Nat)}
    {query : SymbolicationQuery} {addresses : List Nat}
    (hkind : query.resultKind = .symbolsForAddresses addresses true)
    (hsorted : addresses.Pairwise (· ≤ ·))
    (hends : getSymbolicationResult LookedUpAddresses envs fuel basePath fileContents fileRange query
      ≠ .unfinished)
    (hends' : getSymbolicationResult LookedUpAddresses envs' fuel' basePath fileContents fileRange
      query ≠ .unfinished)
    (hfree : WithoutCollisions envs basePath fileContents fileRange query)
    (hfree' : WithoutCollisions envs' basePath fileContents fileRange query) :
    Outcome.Agree LookedUpAddresses.Same
      (getSymbolicationResult LookedUpAddresses envs fuel basePath fileContents fileRange query)
      (getSymbolicationResult LookedUpAddresses envs' fuel' basePath fileContents fileRange query) := by
  rw [getSymbolicationResult_withDebugInfo hkind] at hends hends' ⊢
  rw [getSymbolicationResult_withDebugInfo hkind]
  refine (Outcome.Agree.refl (r := Eq) (fun _ => rfl) _).bind ?_
  rintro machoFile _ hparse - rfl
  rw [hparse, Outcome.ok_bind] at hends hends'
  refine (Outcome.Agree.refl (r := Eq) (fun _ => rfl) _).bind ?_
  rintro r _ hr - rfl
  rw [hr, Outcome.ok_bind] at hends hends'
  have hfile := Outcome.ofExcept_mapError_eq_ok.mp hparse
  have hsound : Traversal.Sound basePath addresses
      (.start r basePath (objectRange fileContents fileRange) machoFile addresses) :=
    Traversal.sound_start (has_of_getSymbolicationResultFromMachOObject hkind hr) _ _
  -- the two runs drain one worklist, in orders of their own
  have hrun := Traversal.runs_agree henvs henvs' hsound hsound
    (hfree machoFile r addresses hfile hr hkind) (hfree' machoFile r addresses hfile hr hkind)
    (fun h => hends (by rw [h, Outcome.unfinished_bind]))
    (fun h => hends' (by rw [h, Outcome.unfinished_bind])) (.refl _) ?_ (fun o ho => ⟨o, ho⟩)
  · exact hrun.bind (fun t t' _ _ h => .answers rfl rfl h)
  · intro o ho
    refine ⟨?_, o, ho, .refl _⟩
    rw [Traversal.items_start] at ho
    exact Traversal.functional_of_drains (fun p hp q hq => Traversal.eq_of_mem_makeAddressPairs hp hq)
      (Traversal.onePlace_of_sorted hsorted machoFile) ho

/-- No two objects of the list are one archive member. -/
def DistinctMembers (objects : List Bytes) : Prop :=
  ∀ i j m, archiveMember objects i = some m → archiveMember objects j = some m → i = j

omit [Crates] in
theorem nodup_archiveKeys_of_distinctMembers {objects : List Bytes} (h : DistinctMembers objects)
    (m : HashMap Nat FunctionsWithAddresses) : (archiveKeys objects m.entries).Nodup := by
  rw [archiveKeys, List.Nodup, List.pairwise_filterMap]
  refine m.distinct.imp ?_
  intro d e hne a ha b hb hab
  subst hab
  rw [h _ _ _ ha hb, beq_self_eq_true] at hne
  exact Bool.noConfusion hne

/-- Where every object has its members once, no state has a collision. -/
theorem collisionFree_of_distinctMembers {envs : Nat → Environment}
    (hdistinct : ∀ data machoFile, Crates.parseFile data = .ok machoFile →
      DistinctMembers machoFile.objectMap.objects)
    {s t : Traversal LookedUpAddresses} (hs : s.CollisionFree)
    (h : Traversal.machine.Visits envs s t) : t.CollisionFree := by
  induction h with
  | here => exact hs
  | later hstep _ ih =>
      refine ih ?_
      cases Traversal.Step.of_step hstep with
      | lookUp => exact fun object hobject => by cases hobject
      | parse _ _ hparse =>
          intro object hobject
          obtain rfl := Option.some.inj hobject
          exact nodup_archiveKeys_of_distinctMembers (hdistinct _ _ hparse) _
      | skip => exact fun object hobject => by cases hobject
      | openFile => exact fun object hobject => by cases hobject

end Orders

/-! ## A member named twice -/

section Samples

local instance : Platform := unix

/-- The file of the image. -/
def imageFile : FileContents := .zeros 4096

/-- `/a.a`. -/
def archiveFile : FileContents := .zeros 928

/-- An image with the functions `f` and `g`, linked from two object files. -/
def twoObjects (name name' : String) : ObjectFile :=
  { ObjectFile.bare with
    machUuid := some (List.replicate 16 1)
    objectMap := ⟨[⟨0x10, 0x10, asBytes "f", 0⟩, ⟨0x20, 0x10, asBytes "g", 1⟩],
      [asBytes name, asBytes name'], by simp⟩ }

/-- An object file with both functions. -/
def bothFunctions : ObjectFile :=
  { ObjectFile.bare with symbols := [⟨some "f", 0x100, .text⟩, ⟨some "g", 0x200, .text⟩] }

/-- An archive with two members, which have debug info for every address, and an image
    that is the whole of its file. -/
abbrev memberCrates (image : ObjectFile) : Crates :=
  { Crates.nothing with
    parseFile := fun data => .ok (if data.rangeStart = 0 then image else bothFunctions)
    archiveMembers := fun _ =>
      .ok [some (asBytes "x.o", (68, 400)), some (asBytes "y.o", (528, 400))]
    contextFromSections := fun _ => .ok ⟨fun _ => .ok ⟨[⟨none, none⟩], false⟩⟩ }

/-- A helper that opens every file, and orders of the maps. -/
def outsideOf (file : Except String FileContents) (orders : Orders) : Environment :=
  ⟨⟨fun _ _ => .ok [], fun _ _ _ _ => .ok [], fun _ => file⟩, orders⟩

def listedOrders : Orders := ⟨.listed _, .listed _, .listed _⟩

def reversedOrders : Orders := ⟨.reversed _, .reversed _, .reversed _⟩

/-- An address in each of the two functions. -/
def twoAddressQuery : SymbolicationQuery :=
  ⟨"image", ⟨List.replicate 16 1, 0⟩, .symbolsForAddresses [0x11, 0x21] true⟩

section Members

local instance membersOnce : Crates := memberCrates (twoObjects "/a.a(x.o)" "/a.a(y.o)")

theorem distinctMembers_twoObjects :
    DistinctMembers (twoObjects "/a.a(x.o)" "/a.a(y.o)").objectMap.objects := by
  intro i j m hi hj
  rcases i with _ | _ | i
  · rcases j with _ | _ | j
    · rfl
    · exact absurd (hi.trans hj.symm) (by decide)
    · cases hj
  · rcases j with _ | _ | j
    · exact absurd (hi.trans hj.symm) (by decide)
    · rfl
    · cases hj
  · cases hi

theorem withoutCollisions_two_members (envs : Nat → Environment) :
    WithoutCollisions envs .noLocalSourceFileAccess imageFile none twoAddressQuery := by
  have hdistinct : ∀ data machoFile, Crates.parseFile data = .ok machoFile →
      DistinctMembers machoFile.objectMap.objects := by
    intro data machoFile hparse
    obtain rfl := Except.ok.inj hparse
    split
    · exact distinctMembers_twoObjects
    · intro i j m hi
      cases hi
  intro machoFile r addresses hparse _ hkind t ht
  refine collisionFree_of_distinctMembers hdistinct ?_ ht
  intro object hobject
  obtain rfl := Option.some.inj hobject
  exact nodup_archiveKeys_of_distinctMembers (hdistinct _ _ hparse) _

/-- Both members have frames, whatever the orders. -/
theorem getSymbolicationResult_anyOrder_two_members :
    (∃ r, getSymbolicationResult LookedUpAddresses
        (fun _ => outsideOf (.ok archiveFile) listedOrders) 8 .noLocalSourceFileAccess imageFile
        none twoAddressQuery = .ok r ∧
      (r.addressResults.get? 0x11).map Option.isSome = some true ∧
      (r.addressResults.get? 0x21).map Option.isSome = some true) ∧
    Outcome.Agree LookedUpAddresses.Same
      (getSymbolicationResult LookedUpAddresses
        (fun _ => outsideOf (.ok archiveFile) listedOrders) 8 .noLocalSourceFileAccess imageFile
        none twoAddressQuery)
      (getSymbolicationResult LookedUpAddresses
        (fun _ => outsideOf (.ok archiveFile) reversedOrders) 8 .noLocalSourceFileAccess imageFile
        none twoAddressQuery) := by
  have hopens : ∀ orders, Environment.Opens (fun _ => .ok archiveFile)
      (outsideOf (.ok archiveFile) orders) := fun _ _ => rfl
  refine ⟨⟨_, rfl, rfl, rfl⟩, ?_⟩
  refine getSymbolicationResult_anyOrder (fun _ => hopens _) (fun _ => hopens _) rfl (by decide)
    ?_ ?_ (withoutCollisions_two_members _) (withoutCollisions_two_members _)
  · exact fun h => by cases h
  · exact fun h => by cases h

end Members

section Collision

local instance memberTwice : Crates := memberCrates (twoObjects "/a.a(x.o)" "/a.a(x.o)")

/-- With one member for both, the address in `g` is answered in one order, the
    address in `f` in the other. -/
theorem not_anyOrder_one_member :
    [0x11, 0x21].Pairwise (· ≤ ·) ∧
    ¬ AnyOrder (fun _ => .ok archiveFile) .noLocalSourceFileAccess imageFile none
      twoAddressQuery := by
  refine ⟨by decide, ?_⟩
  intro h
  have hlisted : ∃ r, getSymbolicationResult LookedUpAddresses
      (fun _ => outsideOf (.ok archiveFile) listedOrders) 5 .noLocalSourceFileAccess imageFile
      none twoAddressQuery = .ok r ∧ (r.addressResults.get? 0x11).map Option.isSome = some false :=
    ⟨_, rfl, rfl⟩
  have hreversed : ∃ r, getSymbolicationResult LookedUpAddresses
      (fun _ => outsideOf (.ok archiveFile) reversedOrders) 5 .noLocalSourceFileAccess imageFile
      none twoAddressQuery = .ok r ∧ (r.addressResults.get? 0x11).map Option.isSome = some true :=
    ⟨_, rfl, rfl⟩
  obtain ⟨r, hr, hslot⟩ := hlisted
  obtain ⟨r', hr', hslot'⟩ := hreversed
  have hagree := h _ _ 5 5 (fun _ _ => rfl) (fun _ _ => rfl) (by rw [hr]; exact fun h => by cases h)
    (by rw [hr']; exact fun h => by cases h)
  have hsame := (hagree.of_eq_ok hr hr').slots 0x11
  rw [hsame, hslot'] at hslot
  exact absurd hslot (by decide)

end Collision

end Samples

end MachO

end ProfilerGetSymbols
