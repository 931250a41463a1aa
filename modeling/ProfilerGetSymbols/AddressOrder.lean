import ProfilerGetSymbols.HashOrder

/-! # Address order — the answer for a reordered list of addresses

    The symbols of an address do not depend on the other ones.  Its debug info
    does: the root object splits its addresses in a single pass over functions
    and addresses, and nothing sorts them before.  An address that comes after
    one past the end of its function is no longer given to that function.

    Where no address comes so late, two lists with the same addresses lead to
    the same work, with the addresses of each function in another order, and to
    the same answer. -/

namespace ProfilerGetSymbols

open ProgLib Paths ObjectReferences Dwarf MachO Journeys Worklist
open scoped List

/-! ## The same work -/

namespace Traversal

/-- No address comes after one that is past the function it belongs to. -/
def InTime (obj : ObjectFile) (addresses : List AddressPair) : Prop :=
  addresses.Pairwise (fun p q => ∀ f, owner obj q = some f → ¬ Past f p)

instance (obj : ObjectFile) (addresses : List AddressPair) : Decidable (InTime obj addresses) :=
  decidable_of_iff (addresses.Pairwise (fun p q => ∀ f ∈ owner obj q, ¬ Past f p)) Iff.rfl

/-- This is what the pass needs. -/
theorem InTime.sweep {obj : ObjectFile} {addresses : List AddressPair} (h : InTime obj addresses) :
    ProgLib.InTime Past Hits (objectMapSymbols obj) addresses where
  not_past := h
  not_hit_of_past := (ascending (objectMapSymbols_pairwise obj) .nil).not_hit_of_past
  not_hit_of_below := (ascending (objectMapSymbols_pairwise obj) .nil).not_hit_of_below

theorem inTime_of_sorted {obj : ObjectFile} {addresses : List AddressPair}
    (h : addresses.Pairwise (fun p q => p.vmaddrInThisObject ≤ q.vmaddrInThisObject)) :
    InTime obj addresses :=
  (ascending (objectMapSymbols_pairwise obj) h).inTime.not_past

/-- Functions with the same addresses, in the same order of the functions. -/
abbrev FunctionsAlike (f g : FunctionsWithAddresses) : Prop :=
  HashMap.Alike (· ~ ·) f.entries g.entries

/-- The maps of the addresses that are filed under other objects. -/
theorem externalFunsByObject_alike {obj : ObjectFile} {l l' : List AddressPair}
    (h : InTime obj l) (h' : InTime obj l') (hperm : l ~ l') :
    HashMap.Alike FunctionsAlike (externalFunsByObject obj l).entries
        (externalFunsByObject obj l').entries ∧
      internalAddresses obj l ~ internalAddresses obj l' := by
  obtain ⟨hassigned, hrest⟩ := sweep_alike h.sweep h'.sweep hperm
  constructor
  · rw [externalFunsByObject_eq, externalFunsByObject_eq]
    refine HashMap.insertAllIn_alike ?_ .nil
    rw [flushes, flushes, List.forall₂_map_left_iff, List.forall₂_map_right_iff]
    refine hassigned.imp ?_
    rintro ⟨f, addresses⟩ ⟨_, addresses'⟩ ⟨rfl, hperm⟩
    exact ⟨rfl, rfl, hperm.map _⟩
  · rw [internalAddresses_eq_rest, internalAddresses_eq_rest]
    exact hrest

theorem filings_perm {f g : FunctionsWithAddresses} (h : FunctionsAlike f g) :
    filings f ~ filings g := by
  have hentries : ∀ l l' : List (Bytes × List AddressWithOffset), HashMap.Alike (· ~ ·) l l' →
      l.flatMap (fun e => e.2.map (fun a => (e.1, a)))
        ~ l'.flatMap (fun e => e.2.map (fun a => (e.1, a))) := by
    intro l l' hl
    induction hl with
    | nil => exact .refl _
    | @cons e e' _ _ he _ ih =>
        obtain ⟨name, addresses⟩ := e
        obtain ⟨_, addresses'⟩ := e'
        obtain ⟨rfl, hperm⟩ := he
        exact (hperm.map _).append ih
  exact hentries _ _ h

variable [Crates] [Platform] {files : ObjectFiles} {basePath : BasePath}

/-- Work for the same addresses in the same files. -/
inductive ItemAlike : Item → Item → Prop
  | filed {path : List Bytes} {nameInArchive : Option String} {f g : FunctionsWithAddresses} :
      FunctionsAlike f g → ItemAlike (.filed (path, nameInArchive, f)) (.filed (path, nameInArchive, g))
  | object {data : RangeReadRef} {f g : FunctionsWithAddresses} :
      FunctionsAlike f g → ItemAlike (.object data f) (.object data g)
  | parsed {data : RangeReadRef} {obj : ObjectFile} {l l' : List AddressPair} :
      InTime obj l → InTime obj l' → l ~ l' → ItemAlike (.parsed ⟨data, obj, l⟩) (.parsed ⟨data, obj, l'⟩)

/-- Reordered addresses are looked up with the same calls, reordered. -/
theorem debugUpdates_perm {ε : Type} {data : RangeReadRef} {obj : ObjectFile}
    {l l' : List AddressPair} (hperm : l ~ l') {us : List DebugUpdate}
    (h : (debugUpdates basePath data obj l : Call ε _) = .ok us) :
    ∃ us', (debugUpdates basePath data obj l' : Call ε _) = .ok us' ∧ us ~ us' := by
  rw [debugUpdates] at h ⊢
  rw [← hperm.isEmpty_eq]
  split at h
  · next hempty =>
    rw [if_pos hempty]
    exact ⟨us, h, .refl _⟩
  · next hempty =>
    rw [if_neg hempty]
    obtain ⟨sectionData, hsections, h⟩ := Outcome.bind_eq_ok.mp h
    obtain ⟨context, hcontext, h⟩ := Outcome.bind_eq_ok.mp h
    rw [hsections, Outcome.ok_bind, hcontext, Outcome.ok_bind]
    split at h
    · obtain ⟨uss, huss, h⟩ := Outcome.bind_eq_ok.mp h
      rw [Outcome.pure_eq_ok, Outcome.ok.injEq] at h
      obtain ⟨uss', huss', hpermuss⟩ := Outcome.mapM_perm hperm huss
      refine ⟨uss'.flatten, ?_, h ▸ hpermuss.flatten⟩
      exact Outcome.bind_eq_ok.mpr ⟨uss', huss', rfl⟩
    · exact ⟨us, h, .refl _⟩

omit [Crates] in
/-- Members of the same files. -/
theorem externalMembers_alike {data : RangeReadRef} {obj : ObjectFile} {l l' : List AddressPair}
    (h : HashMap.Alike FunctionsAlike (externalFunsByObject obj l).entries
      (externalFunsByObject obj l').entries) :
    List.Forall₂ ItemAlike ((externalMembers ⟨data, obj, l⟩).map .filed)
      ((externalMembers ⟨data, obj, l'⟩).map .filed) := by
  rw [externalMembers, externalMembers]
  dsimp only
  generalize (externalFunsByObject obj l).entries = entries at h ⊢
  generalize (externalFunsByObject obj l').entries = entries' at h ⊢
  induction h with
  | nil => exact .nil
  | @cons e e' _ _ he _ ih =>
      obtain ⟨i, f⟩ := e
      obtain ⟨_, g⟩ := e'
      obtain ⟨rfl, hfg⟩ := he
      cases hfile : objectFile obj.objectMap.objects i with
      | none =>
          rw [List.filterMap_cons_none (by simp [member, hfile]),
            List.filterMap_cons_none (by simp [member, hfile])]
          exact ih
      | some file =>
          rw [List.filterMap_cons_some (b := (file.1, file.2, f)) (by simp [member, hfile]),
            List.filterMap_cons_some (b := (file.1, file.2, g)) (by simp [member, hfile])]
          exact .cons (.filed hfg) ih

omit [Crates] [Platform] in
theorem NamesReadable.alike {data : RangeReadRef} {obj : ObjectFile} {l l' : List AddressPair}
    (h : HashMap.Alike FunctionsAlike (externalFunsByObject obj l).entries
      (externalFunsByObject obj l').entries) (hnames : NamesReadable ⟨data, obj, l⟩) :
    NamesReadable ⟨data, obj, l'⟩ := by
  intro e' he'
  obtain ⟨e, he, hkey, -⟩ := AddressSplit.exists_of_forall₂_of_mem h he'
  rw [← hkey]
  exact hnames e he

/-- **THE SAME WORK EXPANDS ALIKE**. -/
theorem ItemAlike.expand {a b : Item} {us : List DebugUpdate} {children : List Item}
    (hab : ItemAlike a b) (h : expand files basePath a = some (us, children)) :
    ∃ us' children', Traversal.expand files basePath b = some (us', children') ∧ us ~ us' ∧
      List.Forall₂ ItemAlike children children' := by
  cases hab with
  | @filed path nameInArchive f g hfg =>
      -- opening looks at the file only: the same objects, each with alike functions
      rw [Traversal.expand] at h ⊢
      dsimp only at h ⊢
      split at h
      · cases h
        exact ⟨[], [], rfl, .refl _, .nil⟩
      · next contents hopen =>
        split at h
        · next hread =>
          cases h
          rw [if_pos hread]
          refine ⟨[], _, rfl, .refl _, ?_⟩
          rw [List.forall₂_map_left_iff, List.forall₂_map_right_iff, List.forall₂_same]
          exact fun data _ => .object hfg
        · cases h
  | @object data f g hfg =>
      rw [Traversal.expand] at h ⊢
      split at h
      · cases h
      · next machoFile hparse =>
        cases h
        refine ⟨[], _, rfl, .refl _, .cons ?_ .nil⟩
        refine .parsed (inTime_of_sorted (translateAddressesToObject_pairwise machoFile f))
          (inTime_of_sorted (translateAddressesToObject_pairwise machoFile g)) ?_
        exact (translateAddressesToObject_perm machoFile f).trans
          (((filings_perm hfg).filterMap _).trans (translateAddressesToObject_perm machoFile g).symm)
  | @parsed data obj l l' hl hl' hperm =>
      obtain ⟨hexternal, hinternal⟩ := externalFunsByObject_alike hl hl' hperm
      -- here the order of the addresses comes in: the pass assigns them alike
      rw [Traversal.expand, updatesOf] at h ⊢
      split at h
      · next us₁ hus =>
        split at h
        · next hnames =>
          cases h
          obtain ⟨us', hus', hpermus⟩ := debugUpdates_perm hinternal hus
          dsimp only
          rw [hus']
          exact ⟨us', _, if_pos (hnames.alike hexternal), hpermus, externalMembers_alike hexternal⟩
        · cases h
      · cases h

/-- The work of a reordered object. -/
theorem drains_alike {data : RangeReadRef} {obj : ObjectFile} {l l' : List AddressPair}
    (h : InTime obj l) (h' : InTime obj l') (hperm : l ~ l') {o : List DebugUpdate}
    (ho : Drains (expand files basePath) [.parsed ⟨data, obj, l⟩] o) :
    ∃ o', Drains (expand files basePath) [.parsed ⟨data, obj, l'⟩] o' ∧ o ~ o' :=
  ho.alike (r := ItemAlike) (fun _ _ _ _ hab => hab.expand) (.cons (.parsed h h' hperm) .nil)

omit [Crates] [Platform] in
/-- Addresses in time are put in one place. -/
theorem InTime.onePlace {obj : ObjectFile} {addresses : List AddressPair}
    (h : InTime obj addresses) : OnePlace obj addresses := by
  obtain ⟨hassigned, hrest⟩ := sweep_first h.sweep
  intro e he p hp
  refine ⟨fun hin => ?_, fun e' he' hp' => ?_⟩
  · rw [internalAddresses_eq_rest] at hin
    have := (hrest p hin).symm.trans (hassigned e he p hp)
    cases this
  · exact Option.some.inj ((hassigned e' he' p hp').symm.trans (hassigned e he p hp))

end Traversal

/-! ## The symbols -/

namespace LookedUpAddresses

open Demangle Symbols

theorem Same.trans {r s t : LookedUpAddresses} (hrs : Same r s) (hst : Same s t) : Same r t :=
  ⟨hrs.symbolCount.trans hst.symbolCount, fun a => (hrs.slots a).trans (hst.slots a)⟩

theorem Same.symm {r s : LookedUpAddresses} (h : Same r s) : Same s r :=
  ⟨h.symbolCount.symm, fun a => (h.slots a).symm⟩

theorem Same.has {r s : LookedUpAddresses} (h : Same r s) (a : Nat) : r.Has a ↔ s.Has a := by
  rw [Has, Has, h.slots]

theorem Same.setSlot {r s : LookedUpAddresses} (h : Same r s) (a : Nat) (slot : AddressResult) :
    Same (r.setSlot a slot) (s.setSlot a slot) where
  symbolCount := h.symbolCount
  slots := by
    intro b
    rw [get?_setSlot, get?_setSlot, h.slots]

/-- Slots of different addresses can be written in any order. -/
theorem setSlot_comm (r : LookedUpAddresses) {a b : Nat} (hab : a ≠ b) (slot slot' : AddressResult) :
    Same ((r.setSlot a slot).setSlot b slot') ((r.setSlot b slot').setSlot a slot) where
  symbolCount := rfl
  slots := by
    intro c
    simp only [get?_setSlot]
    by_cases ha : a = c
    · -- the other slot is not this one
      subst ha
      rw [if_neg hab.symm, if_pos rfl, if_pos rfl]
    · rw [if_neg ha, if_neg ha]

variable [Crates] {ε : Type} {entries : List (Nat × FullSymbolListEntry)} {r r' s s' : LookedUpAddresses}

/-- One round of the loop over the addresses, without the search. -/
def addReport (entries : List (Nat × FullSymbolListEntry)) (r : LookedUpAddresses) (a : Nat) :
    Call ε LookedUpAddresses :=
  match report entries a with
  | some (symbolAddress, name, functionSize) => addAddressSymbol r a symbolAddress name (some functionSize)
  | none => return r

theorem lookUpAddresses_eq_foldlM (h : entries.Pairwise (fun a b => a.1 < b.1))
    (r : LookedUpAddresses) (addresses : List Nat) :
    (lookUpAddresses entries r addresses : Call ε _) = addresses.foldlM (addReport entries) r := by
  induction addresses generalizing r with
  | nil => rfl
  | cons a addresses ih =>
      rw [lookUpAddresses, lookUpAddress_eq h, Outcome.ok_bind, List.foldlM_cons, addReport]
      cases report entries a with
      | none => exact ih r
      | some found => exact bind_congr (fun r₁ => ih r₁)

/-- What a round writes into the slot of its address, if anything. -/
def Writes (ε : Type) (entries : List (Nat × FullSymbolListEntry)) (a : Nat) (slot : AddressResult) :
    Prop :=
  ∃ symbolAddress name functionSize demangled,
    report entries a = some (symbolAddress, name, functionSize) ∧
      (demangleAny name : Call ε _) = .ok demangled ∧
      slot = symbolResult symbolAddress demangled (some functionSize)

theorem addReport_eq_ok {a : Nat} :
    (addReport entries r a : Call ε _) = .ok r' ↔
      (report entries a = none ∧ r' = r) ∨
        ∃ slot, Writes ε entries a slot ∧ r.Has a ∧ r' = r.setSlot a slot := by
  rw [addReport]
  cases hreport : report entries a with
  | none =>
      constructor
      · exact fun h => Or.inl ⟨rfl, (Outcome.ok.inj h).symm⟩
      · rintro (⟨-, rfl⟩ | ⟨slot, ⟨_, _, _, _, hsome, -⟩, -⟩)
        · rfl
        · rw [hreport] at hsome
          cases hsome
  | some found =>
      obtain ⟨symbolAddress, name, functionSize⟩ := found
      dsimp only
      rw [addAddressSymbol_eq_ok]
      constructor
      · rintro ⟨demangled, hname, hhas, rfl⟩
        exact Or.inr ⟨_, ⟨_, _, _, _, hreport, hname, rfl⟩, hhas, rfl⟩
      · rintro (⟨hnone, -⟩ | ⟨slot, ⟨_, _, _, demangled, hsome, hname, rfl⟩, hhas, rfl⟩)
        · cases hnone
        · rw [hreport, Option.some.injEq, Prod.mk.injEq, Prod.mk.injEq] at hsome
          obtain ⟨rfl, rfl, rfl⟩ := hsome
          exact ⟨demangled, hname, hhas, rfl⟩

theorem Writes.unique {a : Nat} {slot slot' : AddressResult} (h : Writes ε entries a slot)
    (h' : Writes ε entries a slot') : slot = slot' := by
  obtain ⟨_, _, _, _, hreport, hname, rfl⟩ := h
  obtain ⟨_, _, _, _, hreport', hname', rfl⟩ := h'
  rw [hreport, Option.some.injEq, Prod.mk.injEq, Prod.mk.injEq] at hreport'
  obtain ⟨rfl, rfl, rfl⟩ := hreport'
  rw [hname, Outcome.ok.injEq] at hname'
  rw [hname']

/-- Rounds on the same answers agree. -/
theorem addReport_same {a : Nat} (h : Same r s)
    (hr : (addReport entries r a : Call ε _) = .ok r') :
    ∃ s', (addReport entries s a : Call ε _) = .ok s' ∧ Same r' s' := by
  rcases addReport_eq_ok.mp hr with ⟨hnone, rfl⟩ | ⟨slot, hwrites, hhas, rfl⟩
  · exact ⟨s, addReport_eq_ok.mpr (Or.inl ⟨hnone, rfl⟩), h⟩
  · exact ⟨s.setSlot a slot, addReport_eq_ok.mpr (Or.inr ⟨slot, hwrites, (h.has a).mp hhas, rfl⟩),
      h.setSlot a slot⟩

/-- Two rounds can be made in either order. -/
theorem addReport_swap {a b : Nat}
    (h : (addReport entries r a >>= fun t => addReport entries t b : Call ε _) = .ok r') :
    ∃ s', (addReport entries r b >>= fun t => addReport entries t a : Call ε _) = .ok s' ∧
      Same r' s' := by
  obtain ⟨t, ha, hb⟩ := Outcome.bind_eq_ok.mp h
  by_cases hab : a = b
  · subst hab
    exact ⟨r', h, .refl _⟩
  rcases addReport_eq_ok.mp ha with ⟨hnone, rfl⟩ | ⟨slot, hwrites, hhas, rfl⟩
  · exact ⟨r', Outcome.bind_eq_ok.mpr ⟨r', hb, addReport_eq_ok.mpr (Or.inl ⟨hnone, rfl⟩)⟩, .refl _⟩
  · rcases addReport_eq_ok.mp hb with ⟨hnone, rfl⟩ | ⟨slot', hwrites', hhas', rfl⟩
    · exact ⟨_, Outcome.bind_eq_ok.mpr ⟨r, addReport_eq_ok.mpr (Or.inl ⟨hnone, rfl⟩), ha⟩, .refl _⟩
    · have hhasb : r.Has b := (has_setSlot hhas slot b).mp hhas'
      refine ⟨_, Outcome.bind_eq_ok.mpr ⟨_, addReport_eq_ok.mpr (Or.inr ⟨slot', hwrites', hhasb, rfl⟩),
        addReport_eq_ok.mpr (Or.inr ⟨slot, hwrites, (has_setSlot hhasb slot' a).mpr hhas, rfl⟩)⟩, ?_⟩
      exact setSlot_comm r hab slot slot'

/-- **THE SYMBOLS** of reordered addresses are the same. -/
theorem lookUpAddresses_agree (h : entries.Pairwise (fun a b => a.1 < b.1)) {l l' : List Nat}
    (hperm : l ~ l') (hrs : Same r s) :
    Outcome.Agree Same (lookUpAddresses entries r l : Call ε _) (lookUpAddresses entries s l') := by
  rw [lookUpAddresses_eq_foldlM h, lookUpAddresses_eq_foldlM h]
  refine Outcome.Agree.foldlM_perm Same.refl (fun _ _ _ => Same.trans) ?_ ?_ hperm hrs
  · intro t t' a ht
    refine .of_imp (fun _ => addReport_same ht) (fun t₁ ht₁ => ?_)
    obtain ⟨t₂, ht₂, -⟩ := addReport_same ht.symm ht₁
    exact ⟨t₂, ht₂⟩
  · intro t a b
    refine .of_imp (fun _ => addReport_swap) (fun t₁ ht₁ => ?_)
    obtain ⟨t₂, ht₂, -⟩ := addReport_swap ht₁
    exact ⟨t₂, ht₂⟩

theorem getSymbolicationResultForAddressesFromObject_agree {l l' : List Nat} (hperm : l ~ l')
    (obj : ObjectFile) (starts ends : Option (List Nat)) :
    Outcome.Agree Same
      (getSymbolicationResultForAddressesFromObject LookedUpAddresses l obj starts ends : Call ε _)
      (getSymbolicationResultForAddressesFromObject LookedUpAddresses l' obj starts ends) := by
  show Outcome.Agree Same
    (lookUpAddresses (bestEntries obj starts ends) { forAddresses l with symbolCount := _ } l
      : Call ε LookedUpAddresses)
    (lookUpAddresses (bestEntries obj starts ends) { forAddresses l' with symbolCount := _ } l')
  refine lookUpAddresses_agree (bestEntries_pairwise obj starts ends) hperm ⟨rfl, fun a => ?_⟩
  show (forAddresses l).addressResults.get? a = (forAddresses l').addressResults.get? a
  rw [get?_forAddresses, get?_forAddresses]
  exact if_congr hperm.mem_iff rfl rfl

end LookedUpAddresses

/-! ## Two lists of addresses -/

namespace MachO

section Lists

variable [Crates]

/-- No requested address comes after one past the end of its function. -/
abbrev InTime (machoFile : ObjectFile) (addresses : List Nat) : Prop :=
  Traversal.InTime machoFile (makeAddressPairsForRootObject addresses machoFile)

theorem getSymbolicationResultFromMachOObject_agree {machoFile : ObjectFile} {machoData : MachOData}
    {query query' : SymbolicationQuery} {addresses addresses' : List Nat}
    (hid : query.debugId = query'.debugId)
    (hkind : query.resultKind = .symbolsForAddresses addresses true)
    (hkind' : query'.resultKind = .symbolsForAddresses addresses' true)
    (hperm : addresses ~ addresses') :
    Outcome.Agree LookedUpAddresses.Same
      (getSymbolicationResultFromMachOObject LookedUpAddresses machoFile machoData query)
      (getSymbolicationResultFromMachOObject LookedUpAddresses machoFile machoData query') := by
  rw [getSymbolicationResultFromMachOObject, getSymbolicationResultFromMachOObject, hkind, hkind', hid]
  split
  · exact .refl .refl _
  · split
    · exact .refl .refl _
    · refine (Outcome.Agree.refl (r := Eq) (fun _ => rfl) _).bind ?_
      rintro starts _ - - rfl
      exact LookedUpAddresses.getSymbolicationResultForAddressesFromObject_agree hperm _ _ _

variable [Platform]

/-- **THE ORDER OF THE ADDRESSES DOES NOT SHOW** where all of them come in time
    in both lists, in runs without a collision. -/
theorem getSymbolicationResult_anyAddressOrder {files : ObjectFiles} {envs envs' : Nat → Environment}
    (henvs : ∀ n, (envs n).Opens files) (henvs' : ∀ n, (envs' n).Opens files) {fuel fuel' : Nat}
    {basePath : BasePath} {fileContents : FileContents} {fileRange : Option (Nat × Nat)}
    {query query' : SymbolicationQuery} {addresses addresses' : List Nat}
    (hid : query.debugId = query'.debugId)
    (hkind : query.resultKind = .symbolsForAddresses addresses true)
    (hkind' : query'.resultKind = .symbolsForAddresses addresses' true)
    (hperm : addresses ~ addresses')
    (hends : getSymbolicationResult LookedUpAddresses envs fuel basePath fileContents fileRange query
      ≠ .unfinished)
    (hends' : getSymbolicationResult LookedUpAddresses envs' fuel' basePath fileContents fileRange
      query' ≠ .unfinished)
    (hintime : ∀ machoFile, Crates.parseFile (objectRange fileContents fileRange) = .ok machoFile →
      InTime machoFile addresses ∧ InTime machoFile addresses')
    (hfree : WithoutCollisions envs basePath fileContents fileRange query)
    (hfree' : WithoutCollisions envs' basePath fileContents fileRange query') :
    Outcome.Agree LookedUpAddresses.Same
      (getSymbolicationResult LookedUpAddresses envs fuel basePath fileContents fileRange query)
      (getSymbolicationResult LookedUpAddresses envs' fuel' basePath fileContents fileRange
        query') := by
  rw [getSymbolicationResult_withDebugInfo hkind] at hends ⊢
  rw [getSymbolicationResult_withDebugInfo hkind'] at hends' ⊢
  -- the same file on both sides, then symbols that agree, then two runs from there
  refine (Outcome.Agree.refl (r := Eq) (fun _ => rfl) _).bind ?_
  rintro machoFile _ hparse - rfl
  rw [hparse, Outcome.ok_bind] at hends hends'
  refine (getSymbolicationResultFromMachOObject_agree hid hkind hkind' hperm).bind ?_
  intro r r' hr hr' hsame
  rw [hr, Outcome.ok_bind] at hends
  rw [hr', Outcome.ok_bind] at hends'
  have hfile := Outcome.ofExcept_mapError_eq_ok.mp hparse
  obtain ⟨hin, hin'⟩ := hintime machoFile hfile
  have hsound : Traversal.Sound basePath addresses
      (.start r basePath (objectRange fileContents fileRange) machoFile addresses) :=
    Traversal.sound_start (has_of_getSymbolicationResultFromMachOObject hkind hr) _ _
  have hsound' : Traversal.Sound basePath addresses'
      (.start r' basePath (objectRange fileContents fileRange) machoFile addresses') :=
    Traversal.sound_start (has_of_getSymbolicationResultFromMachOObject hkind' hr') _ _
  have hpairs : makeAddressPairsForRootObject addresses machoFile
      ~ makeAddressPairsForRootObject addresses' machoFile := hperm.map _
  have hrun := Traversal.runs_agree henvs henvs' hsound hsound'
    (hfree machoFile r addresses hfile hr hkind) (hfree' machoFile r' addresses' hfile hr' hkind')
    (fun h => hends (by rw [h, Outcome.unfinished_bind]))
    (fun h => hends' (by rw [h, Outcome.unfinished_bind])) hsame ?_ ?_
  · exact hrun.bind (fun t t' _ _ h => .answers rfl rfl h)
  · -- the calls that drain the one list have one answer for each address
    intro o ho
    rw [Traversal.items_start] at ho ⊢
    exact ⟨Traversal.functional_of_drains
      (fun p hp q hq => Traversal.eq_of_mem_makeAddressPairs hp hq) hin.onePlace ho,
      Traversal.drains_alike hin hin' hpairs ho⟩
  · intro o ho
    rw [Traversal.items_start] at ho ⊢
    obtain ⟨o', ho', -⟩ := Traversal.drains_alike hin' hin hpairs.symm ho
    exact ⟨o', ho'⟩

end Lists

/-! ## An address that comes late -/

section Samples

local instance : Platform := unix

/-- An image with the function `f`, linked from `/x.o`. -/
def oneObject : ObjectFile :=
  { ObjectFile.bare with
    machUuid := some (List.replicate 16 1)
    objectMap := ⟨[⟨0x10, 0x10, asBytes "f", 0⟩], [asBytes "/x.o"], by simp⟩ }

/-- The image is the larger file of the two; the debug info knows the second and the third
    byte of the function where `/x.o` has it. -/
local instance oneObjectCrates : Crates :=
  { Crates.nothing with
    parseFile := fun data => .ok (if data.rangeSize = 4096 then oneObject else bothFunctions)
    contextFromSections := fun _ => .ok ⟨fun address =>
      .ok ⟨if address = 0x101 ∨ address = 0x102 then [⟨none, none⟩] else [], false⟩⟩ }

def queryFor (addresses : List Nat) : SymbolicationQuery :=
  ⟨"image", ⟨List.replicate 16 1, 0⟩, .symbolsForAddresses addresses true⟩

/-- `/x.o`. -/
def xFile : FileContents := .zeros 512

theorem withoutCollisions_one_object (envs : Nat → Environment) (addresses : List Nat) :
    WithoutCollisions envs .noLocalSourceFileAccess imageFile none (queryFor addresses) := by
  have hdistinct : ∀ data machoFile, Crates.parseFile data = .ok machoFile →
      DistinctMembers machoFile.objectMap.objects := by
    intro data machoFile hparse i j m hi
    obtain rfl := Except.ok.inj hparse
    split at hi
    · -- an object file by itself is no member
      rcases i with _ | i
      · have hnone : archiveMember oneObject.objectMap.objects 0 = none := by decide
        cases hnone.symm.trans hi
      · cases hi
    · cases hi
  intro machoFile r addresses' hparse _ hkind t ht
  refine collisionFree_of_distinctMembers hdistinct ?_ ht
  intro object hobject
  obtain rfl := Option.some.inj hobject
  exact nodup_archiveKeys_of_distinctMembers (hdistinct _ _ hparse) _

/-- Two addresses of one function, not sorted, which both have frames. -/
theorem getSymbolicationResult_anyAddressOrder_one_function :
    (∃ r, getSymbolicationResult LookedUpAddresses
        (fun _ => outsideOf (.ok xFile) listedOrders) 5 .noLocalSourceFileAccess imageFile
        none (queryFor [0x12, 0x11]) = .ok r ∧
      (r.addressResults.get? 0x11).map Option.isSome = some true ∧
      (r.addressResults.get? 0x12).map Option.isSome = some true) ∧
    Outcome.Agree LookedUpAddresses.Same
      (getSymbolicationResult LookedUpAddresses
        (fun _ => outsideOf (.ok xFile) listedOrders) 5 .noLocalSourceFileAccess imageFile
        none (queryFor [0x12, 0x11]))
      (getSymbolicationResult LookedUpAddresses
        (fun _ => outsideOf (.ok xFile) listedOrders) 5 .noLocalSourceFileAccess imageFile
        none (queryFor [0x11, 0x12])) := by
  have hopens : Environment.Opens (fun _ => .ok xFile)
      (outsideOf (.ok xFile) listedOrders) := fun _ => rfl
  refine ⟨⟨_, rfl, rfl, rfl⟩, ?_⟩
  refine getSymbolicationResult_anyAddressOrder (fun _ => hopens) (fun _ => hopens) rfl rfl rfl
    (List.Perm.swap _ _ _) ?_ ?_ ?_ (withoutCollisions_one_object _ _)
    (withoutCollisions_one_object _ _)
  · exact fun h => by cases h
  · exact fun h => by cases h
  · intro machoFile hparse
    obtain rfl : oneObject = machoFile := Except.ok.inj hparse
    exact ⟨by decide, by decide⟩

/-- After an address past the end of `f`, the address in `f` has no debug info. -/
theorem not_anyAddressOrder_one_function :
    [0x21, 0x11] ~ [0x11, 0x21] ∧
    ¬ Outcome.Agree LookedUpAddresses.Same
      (getSymbolicationResult LookedUpAddresses
        (fun _ => outsideOf (.ok xFile) listedOrders) 5 .noLocalSourceFileAccess imageFile
        none (queryFor [0x21, 0x11]))
      (getSymbolicationResult LookedUpAddresses
        (fun _ => outsideOf (.ok xFile) listedOrders) 5 .noLocalSourceFileAccess imageFile
        none (queryFor [0x11, 0x21])) := by
  refine ⟨List.Perm.swap _ _ _, ?_⟩
  intro hagree
  have hlate : ∃ r, getSymbolicationResult LookedUpAddresses
      (fun _ => outsideOf (.ok xFile) listedOrders) 5 .noLocalSourceFileAccess imageFile none
      (queryFor [0x21, 0x11]) = .ok r ∧
        (r.addressResults.get? 0x11).map Option.isSome = some false := ⟨_, rfl, rfl⟩
  have hsorted : ∃ r, getSymbolicationResult LookedUpAddresses
      (fun _ => outsideOf (.ok xFile) listedOrders) 5 .noLocalSourceFileAccess imageFile none
      (queryFor [0x11, 0x21]) = .ok r ∧
        (r.addressResults.get? 0x11).map Option.isSome = some true := ⟨_, rfl, rfl⟩
  obtain ⟨r, hr, hslot⟩ := hlate
  obtain ⟨r', hr', hslot'⟩ := hsorted
  have hsame := (hagree.of_eq_ok hr hr').slots 0x11
  rw [hsame, hslot'] at hslot
  exact absurd hslot (by decide)

end Samples

end MachO

end ProfilerGetSymbols
